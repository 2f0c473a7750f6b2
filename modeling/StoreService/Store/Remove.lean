/-
Removing a planned device (`RemoveStoreDevice` in `store.cpp`, called by `DeleteRecodeDevice` after `DeleteStream`).

`RemoveStoreDevice` waits for the writer, puts the current buffer into the slot as it is, waits again, and erases the
entry. Nothing is sealed: the file ends where the slot under the last record happens not to carry STORE_INFO_HEAD. A
rewind leaves the records of the fill before it in place, so a buffer that has just been flushed still looks like the
file it was written to.

Runs are calls of `WriteFrameToBuf` and rounds of the writer on one device; the frames that are outstanding are
tracked as in `Terminated`. A file is read by `GetOneFrameByIndex` from index 0 up to the first -1 (`decode`).

- `decodeFrom_holds`: on a buffer that holds frames, the reader gets these and goes on behind them.
- `Image.decode`: an image is read back as the frames it indexes.
- `removal_iff`: after calls whose frames fit, with a terminated index at each tail move and flushes that stay in the
  buffer (`CallOk`), the removal writes the outstanding frames, once, and no file if there are none, exactly if the slot
  under the last record does not carry the head.
- `staleSlot_after_flush`: right after a stop flush, as `DeleteRecodeDevice` removes a device, it does carry the head
  unless the flush had no frames to write or cleared the record of the first one.
- `removal_repeats`: two frames, the stop flush of `DeleteStream`, and the removal writes the first frame again.
-/
import StoreService.Store.Image

namespace StoreService.Store

open StoreService.ByteMem StoreService.KeyFrame StoreService.Runs

/-! ## Reading a file -/

/-- what a reader gets of a frame -/
def Entry.read (e : Entry) : List UInt8 × ℕ := (e.bytes, e.time)

/-- the answers of `GetOneFrameByIndex` from index `idx` up to the first -1; `none` is a read outside the image, or no
end in sight -/
def decodeFrom (m : Mem) (outSize : ℕ) : ℕ → ℕ → Option (List (List UInt8 × ℕ))
  | 0, _ => none
  | fuel + 1, idx =>
    match getOneFrameByIndex idx (some m) storeBufMaxSize (some fun _ => 0) outSize (some 0) with
    | some (size, some out, some sysTime) =>
      if size = -1 then some []
      else (decodeFrom m outSize fuel (idx + 1)).map ((slice out 0 size.toNat, sysTime) :: ·)
    | _ => none

/-- with as many rounds as there are slots, and one more -/
def decode (m : Mem) (outSize : ℕ) : Option (List (List UInt8 × ℕ)) :=
  decodeFrom m outSize (storeBufMaxSize / sizeofStoreInfo + 1) 0

section Decode

variable {b : StoreBuf} {L : List Entry} {m : Mem} {outSize fuel n : ℕ}

theorem decodeFrom_frame (h : Holds b L) (hn : n < L.length) (hout : (L[n]).size ≤ outSize) :
    decodeFrom b.storeBuf outSize (fuel + 1) n =
      (decodeFrom b.storeBuf outSize fuel (n + 1)).map ((L[n]).read :: ·) := by
  have hbytes := h.slice_copy hn fun _ => 0
  have hne : ((L[n]).size : ℤ) ≠ -1 := by omega
  rw [decodeFrom, getOneFrameByIndex_get h hn _ hout]
  simp only [if_neg hne, Int.toNat_natCast, hbytes, Entry.read]

/-- the reader gets the frames the buffer holds, and goes on behind them -/
theorem decodeFrom_holds (h : Holds b L) (hout : ∀ e ∈ L, e.size ≤ outSize) :
    decodeFrom b.storeBuf outSize (fuel + L.length) 0 =
      (decodeFrom b.storeBuf outSize fuel L.length).map (L.map Entry.read ++ ·) := by
  -- induction over the frames that are left, behind those that were read
  have rest : ∀ R P : List Entry, L = P ++ R → decodeFrom b.storeBuf outSize (fuel + R.length) P.length =
      (decodeFrom b.storeBuf outSize fuel L.length).map (R.map Entry.read ++ ·) := by
    intro R
    induction R with
    | nil =>
      intro P hL
      rw [List.append_nil] at hL
      simp [hL]
    | cons e R ih =>
      intro P hL
      have hn : P.length < L.length := by simp [hL]
      have he : L[P.length] = e := by simp [hL]
      have hnext := ih (P ++ [e]) (by simp [hL])
      rw [List.length_append, List.length_singleton] at hnext
      rw [List.length_cons, ← add_assoc, decodeFrom_frame h hn (hout _ (List.getElem_mem hn)), hnext, he,
        Option.map_map]
      rfl
  exact rest L [] rfl

theorem decodeFrom_end (hn : 96 * (n + 1) ≤ storeBufMaxSize) (hfree : (readInfo m (slotPos n)).head ≠ storeInfoHead) :
    decodeFrom m outSize (fuel + 1) n = some [] := by
  rw [decodeFrom, getOneFrameByIndex_end hn hfree]
  rfl

/-- a record is not the end of the index for a reader with room for any size -/
theorem decodeFrom_record (hhead : (readInfo m (slotPos n)).head = storeInfoHead) :
    decodeFrom m (2 ^ 32 - 1) fuel n ≠ some [] := by
  cases fuel with
  | zero => nofun
  | succ fuel =>
    intro h
    have hlt : (readInfo m (slotPos n)).frameSize < 2 ^ 32 := readLE_lt m _ 4
    simp only [decodeFrom, getOneFrameByIndex, slot_addr, hhead, ne_eq, not_true_eq_false, if_false] at h
    rw [if_neg (show ¬ (readInfo m (slotPos n)).frameSize > 2 ^ 32 - 1 by omega)] at h
    split_ifs at h with hslot hin
    · -- a size inside the image is not read as -1
      have hpos : int32 (readInfo m (slotPos n)).frameSize ≠ -1 := by
        have hmax : storeBufMaxSize < 2 ^ 31 := by decide
        rw [int32, if_pos (by omega)]
        omega
      simp [hpos] at h

/-- every answer of the reader comes from a slot with the head of a record -/
theorem decodeFrom_head {xs : List (List UInt8 × ℕ)} (h : decodeFrom m outSize fuel n = some xs) :
    ∀ i < xs.length, (readInfo m (slotPos (n + i))).head = storeInfoHead := by
  induction fuel generalizing n xs with
  | zero => cases h
  | succ fuel ih =>
    intro i hi
    by_cases hhead : (readInfo m (slotPos n)).head = storeInfoHead
    · cases i with
      | zero => exact hhead
      | succ i =>
        -- the answers behind the first are those of the reader one index further
        rw [decodeFrom] at h
        split at h
        · split_ifs at h
          · cases h
            cases hi
          · obtain ⟨ys, hys, rfl⟩ := Option.map_eq_some_iff.1 h
            rw [← add_assoc, add_right_comm]
            exact ih hys i (Nat.lt_of_succ_lt_succ hi)
        · cases h
    · simp only [decodeFrom, getOneFrameByIndex, slot_addr, ne_eq, hhead, not_false_eq_true, if_true] at h
      split_ifs at h
      · cases h
        cases hi

theorem decode_eq (h : Holds b L) (hout : ∀ e ∈ L, e.size ≤ outSize) :
    ∃ fuel, decode b.storeBuf outSize =
      (decodeFrom b.storeBuf outSize (fuel + 1) L.length).map (L.map Entry.read ++ ·) := by
  have hroom := h.room
  obtain ⟨fuel, hfuel⟩ : ∃ fuel, storeBufMaxSize / sizeofStoreInfo + 1 = fuel + 1 + L.length :=
    ⟨storeBufMaxSize / sizeofStoreInfo - L.length, by simp only [sizeofStoreInfo]; omega⟩
  exact ⟨fuel, by rw [decode, hfuel, decodeFrom_holds h hout]⟩

/-- an image is read back as the frames it indexes -/
theorem Image.decode (h : Image m L) (hout : ∀ e ∈ L, e.size ≤ outSize) :
    decode m outSize = some (L.map Entry.read) := by
  have hroom := h.room
  obtain ⟨fuel, heq⟩ := decode_eq h.holds hout
  rw [decodeFrom_end (by omega) h.stop, Option.map_some, List.append_nil] at heq
  exact heq

/-- a reader with room for any frame takes those of a buffer -/
theorem Holds.size_lt (h : Holds b L) {e : Entry} (he : e ∈ L) : e.size ≤ 2 ^ 32 - 1 := by
  have hroom := h.room
  have hle : e.size ≤ total L := List.le_sum_of_mem (List.mem_map_of_mem he)
  have hmax := maxSize_lt
  omega

end Decode

/-! ## The removal -/

/-- `RemoveStoreDevice` on a device of the list: the files of the buffer that was in the slot, and those of the current
buffer, which it puts there -/
def StoreDevice.removeStoreDevice (d : StoreDevice) : List Mem × List Mem :=
  (d.written, { d with pStoreBufWr := some d.pCurStoreBuf }.written)

inductive DeviceAct where
  /-- `WriteFrameToBuf` -/
  | call (c : Call)
  /-- the writer comes to the device -/
  | serve

def Tracked.step (noRet : ℕ → ℤ) (s : Tracked) : DeviceAct → Option Tracked
  | .call c => track noRet s c
  | .serve => some { s with dev := { s.dev with pStoreBufWr := none } }

/-- **What a removal should do**: one file with the outstanding frames, and no file if there are none -/
structure RemovesOutstanding (s : Tracked) : Prop where
  noFile : s.frames = [] → s.dev.removeStoreDevice.2 = []
  once : s.frames ≠ [] → ∃ m, s.dev.removeStoreDevice.2 = [m] ∧
    ∀ outSize < 2 ^ 32, (∀ e ∈ s.frames, e.size ≤ outSize) → decode m outSize = some (s.frames.map Entry.read)

/-- the slot under the last record carries the head of a record -/
def StaleSlot (d : StoreDevice) : Prop := (readInfo d.cur.storeBuf d.cur.storeInfoOffset).head = storeInfoHead

/-- a frame fits, with the tail if there is one, and a tail move does not run into an old record; the memset of a flush
ends in the buffer -/
structure RecordOk (noRet : ℕ → ℤ) (d : StoreDevice) (c : Call) : Prop where
  admissible : c.flag = false → Admissible noRet d c
  tail : c.flag = false → TailFits noRet d c
  index : c.flag = false → d.Full c → parseKeyFrame noRet c.frame.data 0 c.frame.size ≠ 0 → ¬ StaleSlot d
  flush : c.flag = true → ¬ d.Full c → d.cur.storeInfoOffset + c.frame.size + sizeofStoreInfo ≤ storeBufMaxSize

def CallOk (noRet : ℕ → ℤ) (s : Tracked) : DeviceAct → Prop
  | .call c => RecordOk noRet s.dev c
  | .serve => True

/-- the current buffer holds the outstanding frames -/
structure RemoveInv (s : Tracked) : Prop where
  holds : Holds s.dev.cur s.frames
  size : ∀ i, (s.dev.buf i).storeSize = storeBufMaxSize

theorem removeStoreDevice_file {d : StoreDevice} (hsize : d.cur.storeSize = storeBufMaxSize) :
    d.removeStoreDevice.2 =
      if (readInfo d.cur.storeBuf (slotPos 0)).head = storeInfoHead then [d.cur.storeBuf] else [] := by
  rw [slotPos_zero, ← hsize]
  rfl

theorem staleSlot_iff {d : StoreDevice} {L : List Entry} (h : Holds d.cur L) :
    StaleSlot d ↔ (readInfo d.cur.storeBuf (slotPos L.length)).head = storeInfoHead := by
  rw [StaleSlot, h.infoOffset]

theorem RemoveInv.removes_iff {s : Tracked} (h : RemoveInv s) : RemovesOutstanding s ↔ ¬ StaleSlot s.dev := by
  have hroom := h.holds.room
  have hfile := removeStoreDevice_file (d := s.dev) (h.size _)
  rw [staleSlot_iff h.holds]
  by_cases hnil : s.frames = []
  · -- the slot under the last record is the one the writer looks at
    rw [hnil, List.length_nil]
    constructor
    · intro hr hhead
      have hno := hr.noFile hnil
      rw [hfile, if_pos hhead] at hno
      cases hno
    · intro hfree
      refine ⟨fun _ => ?_, fun hne => absurd hnil hne⟩
      rw [hfile, if_neg hfree]
  · rw [if_pos (h.holds.head_slot 0 (List.length_pos_iff.2 hnil))] at hfile
    constructor
    · intro hr hhead
      obtain ⟨m, hm, hdecode⟩ := hr.once hnil
      rw [hfile, List.cons.injEq] at hm
      obtain ⟨rfl, -⟩ := hm
      have hout : ∀ e ∈ s.frames, e.size ≤ 2 ^ 32 - 1 := fun e he => h.holds.size_lt he
      obtain ⟨fuel, heq⟩ := decode_eq h.holds hout
      have hall := hdecode _ (by norm_num) hout
      rw [heq] at hall
      obtain ⟨x, hx, hx'⟩ := Option.map_eq_some_iff.1 hall
      rw [List.append_right_eq_self] at hx'
      rw [hx'] at hx
      exact decodeFrom_record hhead hx
    · intro hfree
      refine ⟨fun h0 => absurd h0 hnil, fun _ => ⟨_, hfile, fun outSize _ hout => ?_⟩⟩
      exact Image.decode ⟨h.holds.indexed, hroom, hfree⟩ hout

/-! ## Runs -/

theorem stopReset_storeSize (d : StoreDevice) (i : BufId) : (d.stopReset.buf i).storeSize = (d.buf i).storeSize := by
  refine StoreDevice.forall_buf_setBuf (i := d.pCurStoreBuf) (b := d.cur.reset 0)
    (P := fun j b => b.storeSize = (d.buf j).storeSize) ?_ (fun _ _ => rfl) i
  rfl

namespace RemoveInv

variable {noRet : ℕ → ℤ} {s : Tracked} {c : Call}

/-- a flush leaves a rewound buffer -/
theorem flush (h : RemoveInv s) (hflag : c.flag = true) (hc : RecordOk noRet s.dev c) :
    ∃ t, track noRet s c = some t ∧ RemoveInv t := by
  obtain ⟨d1, hd1⟩ := stopSeal_returns (d := { s.dev with pStoreBufWr := none }) h.holds (hc.flush hflag)
  refine ⟨⟨d1.stopReset, framesAfter noRet s c⟩, ?_, ?_, fun i => ?_⟩
  · rw [track, StoreDevice.writeFrameToBuf, if_pos hflag, hd1, Option.map_some, Option.map_some]
  · rw [framesAfter, if_pos hflag, StoreDevice.stopReset_cur]
    exact Holds.reset_nil _ _
  · rw [stopReset_storeSize, ((StoreDevice.stopSeal_frame hd1).2.2.2 i).1]
    exact h.size i

theorem append (h : RemoveInv s) (hflag : c.flag = false) (hf : ¬ s.dev.Full c) :
    ∃ d, s.dev.writeFrame noRet c = some d ∧ Holds d.cur (framesAfter noRet s c) := by
  have hfit := hf
  rw [StoreDevice.full_iff h.holds] at hfit
  obtain ⟨d, hd, hholds, -⟩ := StoreDevice.store_holds h.holds c (by omega)
  rw [StoreDevice.writeFrame_append hf, framesAfter, if_neg (by simp [hflag]), if_neg hf]
  exact ⟨d, hd, hholds⟩

/-- a rotation: with a terminated index a tail move copies the tracked frames and no more -/
theorem rotation (h : RemoveInv s) (hflag : c.flag = false) (hf : s.dev.Full c) (hc : RecordOk noRet s.dev c) :
    ∃ d, s.dev.writeFrame noRet c = some d ∧ Holds d.cur (framesAfter noRet s c) := by
  obtain ⟨d, M, hd, hM, hkey, hmove⟩ := rotate_holds h.holds hf (hc.admissible hflag) (hc.tail hflag)
  refine ⟨d, hd, ?_⟩
  rw [framesAfter, if_neg (by simp [hflag]), if_pos hf]
  by_cases hk : parseKeyFrame noRet c.frame.data 0 c.frame.size = 0
  · rw [hkey hk] at hM
    rw [if_pos hk]
    exact hM
  · obtain ⟨k, hkL, R, hs, hR, rfl⟩ := hmove hk
    have hfree := hc.index hflag hf hk
    rw [staleSlot_iff h.holds] at hfree
    cases (tail_eq h.holds hfree hkL.le).symm.trans hR
    rw [(h.holds.indexed.drop hkL.le).moved_infos] at hM
    rw [if_neg hk, hs]
    simp only [h.holds.slotOf_slotPos hkL]
    exact hM

theorem call (h : RemoveInv s) (hc : RecordOk noRet s.dev c) : ∃ t, track noRet s c = some t ∧ RemoveInv t := by
  cases hflag : c.flag with
  | true => exact h.flush hflag hc
  | false =>
    obtain ⟨d, hd, hholds⟩ : ∃ d, s.dev.writeFrame noRet c = some d ∧ Holds d.cur (framesAfter noRet s c) := by
      by_cases hf : s.dev.Full c
      · exact h.rotation hflag hf hc
      · exact h.append hflag hf
    refine ⟨⟨d, framesAfter noRet s c⟩, ?_, hholds, fun i => ?_⟩
    · rw [track, StoreDevice.writeFrameToBuf_of_flag_false hflag, hd, Option.map_some]
    · rw [StoreDevice.writeFrame_storeSize hd]
      exact h.size i

theorem step {a : DeviceAct} (h : RemoveInv s) (ha : CallOk noRet s a) :
    ∃ t, s.step noRet a = some t ∧ RemoveInv t := by
  cases a with
  | call c => exact h.call ha
  | serve => exact ⟨_, rfl, h.holds, h.size⟩

end RemoveInv

/-- a device as `AddStoreDevice` leaves it, on buffers with any content -/
def removeStart (path : String) (ping pong : Mem) (pongStart : ℕ) : Tracked :=
  ⟨addStoreDevice path .planned ping pong pongStart, []⟩

/-- **Removing a device** after any calls that meet `CallOk`: each outstanding frame is written once, and no file
without one, exactly if the slot under the last record does not carry the head. -/
theorem removal_iff (noRet : ℕ → ℤ) (path : String) (ping pong : Mem) (pongStart : ℕ) (acts : List DeviceAct)
    (h : Steps (Tracked.step noRet) (CallOk noRet) (removeStart path ping pong pongStart) acts) :
    ∃ s, run (Tracked.step noRet) (removeStart path ping pong pongStart) acts = some s ∧
      (RemovesOutstanding s ↔ ¬ StaleSlot s.dev) := by
  have h0 : RemoveInv (removeStart path ping pong pongStart) :=
    ⟨addStoreDevice_holds _ _ _ _ _, fun i => by cases i <;> rfl⟩
  obtain ⟨s, hr, hinv⟩ := run_total (fun _ _ hs ha => hs.step ha) h0 h
  exact ⟨s, hr, hinv.removes_iff⟩

/-- a condition on calls that can be evaluated and implies `CallOk` -/
def fitsAct (s : Tracked) : DeviceAct → Bool
  | .call c => Fits s.dev c ∧ c.frame.size ≤ 16
  | .serve => true

theorem callOk_of_fits {s : Tracked} {a : DeviceAct} (h : fitsAct s a = true) : CallOk (fun t => t) s a := by
  cases a with
  | call c =>
    obtain ⟨⟨hflag, hf⟩, hsize⟩ := of_decide_eq_true h
    refine ⟨fun _ => ⟨hflag, ?_, fun hfull => absurd hfull hf⟩, fun _ hfull => absurd hfull hf,
      fun _ hfull => absurd hfull hf, fun hstop => ?_⟩
    · simp only [storeBufMaxSize, sizeofStoreInfo]
      omega
    · rw [hflag] at hstop
      cases hstop
  | serve => trivial

/-- a key frame and another frame on zeroed buffers -/
theorem removal_iff_pair :
    ∃ s, run (Tracked.step fun t => t) (removeStart "" (fun _ => 0) (fun _ => 0) 0) (pairCalls.map .call) = some s ∧
      s.frames.length = 2 ∧ RemovesOutstanding s := by
  have hfits : Steps (Tracked.step fun t => t) (fun s a => fitsAct s a = true)
      (removeStart "" (fun _ => 0) (fun _ => 0) 0) (pairCalls.map .call) := by
    decide +kernel
  have heval : (run (Tracked.step fun t => t) (removeStart "" (fun _ => 0) (fun _ => 0) 0) (pairCalls.map .call)).map
      (fun s => (s.frames.length, (readInfo s.dev.cur.storeBuf s.dev.cur.storeInfoOffset).head)) = some (2, 0) := by
    decide +kernel
  obtain ⟨s, hs, hiff⟩ := removal_iff (fun t => t) "" (fun _ => 0) (fun _ => 0) 0 (pairCalls.map .call)
    (Steps.mono (fun _ _ ha => callOk_of_fits ha) hfits)
  rw [hs, Option.map_some, Option.some.injEq, Prod.mk.injEq] at heval
  refine ⟨s, hs, heval.1, hiff.2 fun hstale => ?_⟩
  rw [StaleSlot, heval.2] at hstale
  exact absurd hstale (by decide)

/-- a memset that reaches the first slot clears the first byte of its head -/
theorem head_ne_of_memset {m : Mem} {a n : ℕ} (ha : a ≤ slotPos 0) (hn : slotPos 0 < a + n) :
    (readInfo (memset m a 0 n) (slotPos 0)).head ≠ storeInfoHead :=
  head_ne_of_zero_byte 0 (by omega) (memset_of_mem (by omega) (by omega))

section FlushHead

variable {d d' : StoreDevice} {L : List Entry} {c : Call}

theorem flush_full_head (h : Holds d.cur L) (hf : d.Full c) (hd : d.stopSeal c = some d') :
    (readInfo d'.cur.storeBuf (slotPos 0)).head = storeInfoHead ↔ L ≠ [] := by
  have hslot := slotPos_zero_add
  have htop := h.sealed_top
  rw [StoreDevice.stopSeal_full hf hd, ← List.length_pos_iff]
  by_cases hpos : 0 < L.length
  · exact iff_of_true ((head_memset (by omega)).trans (h.head_slot 0 hpos)) hpos
  · have hroom := h.room
    have hoff := h.offset
    exact iff_of_false (head_ne_of_memset (by omega) (by omega)) hpos

theorem flush_fits_head (h : Holds d.cur L) (hf : ¬ d.Full c) (hd : d.stopSeal c = some d') :
    (readInfo d'.cur.storeBuf (slotPos 0)).head = storeInfoHead ↔
      d.cur.storeInfoOffset + c.frame.size + 2 * sizeofStoreInfo ≤ storeBufMaxSize := by
  obtain ⟨b, -, hholds, hmem, hend, -⟩ := StoreDevice.stopSeal_appends h hf hd
  have hslot := slotPos_zero_add
  rw [StoreDevice.full_iff h] at hf
  rw [hmem]
  simp only [sizeofStoreInfo] at hend ⊢
  by_cases hreach : d.cur.storeInfoOffset + c.frame.size + 2 * 96 ≤ storeBufMaxSize
  · exact iff_of_true ((head_memset (by omega)).trans (hholds.head_slot 0 (by simp))) hreach
  · exact iff_of_false (head_ne_of_memset (by omega) (by omega)) hreach

end FlushHead

/-- **A flush and then the removal**, as `DeleteRecodeDevice` does it: the flush leaves an old record under the rewound
offset exactly if there were frames and its memset has not reached the first record. -/
theorem staleSlot_after_flush {noRet : ℕ → ℤ} {s t : Tracked} {c : Call} (h : RemoveInv s) (hflag : c.flag = true)
    (ht : track noRet s c = some t) :
    StaleSlot t.dev ↔ s.frames ≠ [] ∧
      (¬ s.dev.Full c → s.dev.cur.storeInfoOffset + c.frame.size + 2 * sizeofStoreInfo ≤ storeBufMaxSize) := by
  obtain ⟨d', hd', rfl⟩ := Option.map_eq_some_iff.1 ht
  rw [StoreDevice.writeFrameToBuf, if_pos hflag] at hd'
  obtain ⟨d1, hd1, rfl⟩ := Option.map_eq_some_iff.1 hd'
  have hstale : StaleSlot d1.stopReset ↔ (readInfo d1.cur.storeBuf (slotPos 0)).head = storeInfoHead := by
    rw [StaleSlot, StoreDevice.stopReset_cur]
    rfl
  rw [hstale]
  by_cases hf : s.dev.Full c
  · rw [flush_full_head (d := { s.dev with pStoreBufWr := none }) h.holds hf hd1]
    exact ⟨fun hne => ⟨hne, fun hnf => absurd hf hnf⟩, fun hboth => hboth.1⟩
  · rw [flush_fits_head (d := { s.dev with pStoreBufWr := none }) h.holds hf hd1]
    refine ⟨fun hle => ⟨?_, fun _ => hle⟩, fun hboth => hboth.2 hf⟩
    -- the memset of a flush on an empty buffer reaches the first slot
    have hinfo := h.holds.infoOffset_add
    have hle' : s.dev.cur.storeInfoOffset + c.frame.size + 2 * sizeofStoreInfo ≤ storeBufMaxSize := hle
    simp only [sizeofStoreInfo] at hle'
    exact List.length_pos_iff.1 (by omega)

/-- **A frame is written twice**: two frames of 10 bytes, the stop flush with one of 50, and the removal. Nothing is
outstanding, and the removal writes a file in which the reader finds the first frame again. -/
theorem removal_repeats :
    ∃ s m, run (Tracked.step fun t => t) (removeStart "" (fun _ => 0) (fun _ => 0) 0) (staleCalls.map .call) = some s ∧
      s.frames = [] ∧ s.dev.removeStoreDevice.2 = [m] ∧ decode m 100 = some [(List.replicate 10 0, 1000)] ∧
      ¬ RemovesOutstanding s := by
  have hlen : (run (Tracked.step fun t => t) (removeStart "" (fun _ => 0) (fun _ => 0) 0) (staleCalls.map .call)).map
      (fun s => (s.frames.length, s.dev.removeStoreDevice.2.length)) = some (0, 1) := by
    decide +kernel
  have hread : (run (Tracked.step fun t => t) (removeStart "" (fun _ => 0) (fun _ => 0) 0) (staleCalls.map .call)).bind
      (fun s => s.dev.removeStoreDevice.2.head?.bind fun m => decode m 100) = some [(List.replicate 10 0, 1000)] := by
    decide +kernel
  obtain ⟨s, hs, hproj⟩ := Option.map_eq_some_iff.1 hlen
  rw [Prod.mk.injEq, List.length_eq_zero_iff, List.length_eq_one_iff] at hproj
  obtain ⟨hnil, m, hm⟩ := hproj
  rw [hs, Option.bind_some, hm, List.head?_cons, Option.bind_some] at hread
  refine ⟨s, m, hs, hnil, hm, hread, fun h => ?_⟩
  rw [h.noFile hnil] at hm
  cases hm

end StoreService.Store
