/-
The one-slot hand-off between the recorder and the writer thread (`WriteFrameToBuf`, `WriteToFileProc`).

A rotation seals the current buffer and stores its address in `pStoreBufWr`; the writer sees the slot, copies the buffer
out in blocks of WRITE_FILE_BLOCK_SIZE bytes and sets the slot back to null. The recorder does not take the writer's
mutex and, unless it stops the recording, does not look at the slot.

Model: one device, the file being written (if any), and two ghost lists: the images sealed so far, in order, and the
files written so far. Recorder calls (flag 0) and writer steps interleave freely. The writer reads the slot again for
every block, as the source does. Disk calls succeed, and a `write` takes its whole block.

- `Sys.scan_cases`, `Sys.block_cases`, `Sys.finish_cases`: what a step of the writer does. Invariants of the writer,
  also those of `Recorder` and `Lossless`, are case analyses of them.
- `handOff_lossless`: if every rotation finds the slot empty and leaves the record in the last slot of the buffer it
  seals (the writer drops a buffer without one), then every sealed image is in its file, once and unchanged, or is still
  in the buffer the slot names, which is not the current one; and the writer alone brings it to its file.
- `slot_overwritten`: three key frames while the writer sleeps, and the first sealed buffer is never written.
-/
import StoreService.Store.Decode

namespace StoreService.Store

open StoreService.ByteMem StoreService.KeyFrame StoreService.Runs

def writeFileBlockSize : ℕ := 4096

/-- all the bytes of a buffer -/
def StoreBuf.image (b : StoreBuf) : List UInt8 := slice b.storeBuf 0 storeBufMaxSize

@[simp] theorem StoreBuf.length_image (b : StoreBuf) : b.image.length = storeBufMaxSize := by
  rw [StoreBuf.image, length_slice]

structure Sys where
  dev : StoreDevice
  /-- what the writer has copied to the file it has open; its length is `total_wr_size` -/
  writer : Option (List UInt8)
  /-- images sealed by rotations -/
  sealedImages : List (List UInt8)
  /-- files written and closed -/
  files : List (List UInt8)

inductive Act where
  /-- a call of `WriteFrameToBuf` with flag 0 -/
  | call (c : Call)
  /-- the writer comes to the device: looks at the slot and opens a file -/
  | scan
  /-- one `write` -/
  | block
  /-- the copy is complete: the file is closed and the slot set to null -/
  | finish

def Act.isWriter : Act → Bool
  | .call _ => false
  | _ => true

def Sys.call (noRet : ℕ → ℤ) (s : Sys) (c : Call) : Option Sys :=
  if c.flag then none
  else (s.dev.writeFrameToBuf noRet c).map fun d =>
    { s with
      dev := d
      sealedImages :=
        if s.dev.Full c then s.sealedImages ++ [(d.buf s.dev.pCurStoreBuf).image] else s.sealedImages }

def Sys.scan (s : Sys) : Option Sys :=
  match s.writer, s.dev.pStoreBufWr with
  | some _, _ => none
  | none, none => some s
  | none, some i =>
    let b := s.dev.buf i
    if (readInfo b.storeBuf (b.storeSize - sizeofStoreInfo)).head ≠ storeInfoHead then
      some { s with dev := { s.dev with pStoreBufWr := none } }
    else some { s with writer := some [] }

def Sys.block (s : Sys) : Option Sys :=
  match s.writer, s.dev.pStoreBufWr with
  | some out, some i =>
    if out.length < storeBufMaxSize then
      some { s with writer := some (out ++ slice (s.dev.buf i).storeBuf out.length writeFileBlockSize) }
    else none
  | _, _ => none

def Sys.finish (s : Sys) : Option Sys :=
  match s.writer with
  | some out =>
    if out.length < storeBufMaxSize then none
    else some { s with writer := none, files := s.files ++ [out], dev := { s.dev with pStoreBufWr := none } }
  | none => none

def Sys.step (noRet : ℕ → ℤ) (s : Sys) : Act → Option Sys
  | .call c => s.call noRet c
  | .scan => s.scan
  | .block => s.block
  | .finish => s.finish

def Sys.init (d : StoreDevice) : Sys := ⟨d, none, [], []⟩

/-- every sealed image has been written, in order and once each, except perhaps the last; that one is unchanged in the
buffer the slot names, and this buffer is not the one frames are appended to -/
def HandOffOk (s : Sys) : Prop :=
  (s.dev.pStoreBufWr = none ∧ s.sealedImages = s.files) ∨
    ∃ i, s.dev.pStoreBufWr = some i ∧ i ≠ s.dev.pCurStoreBuf ∧ s.sealedImages = s.files ++ [(s.dev.buf i).image]

/-- the seal of the current buffer leaves a record in its last slot -/
structure SealKeeps (noRet : ℕ → ℤ) (d : StoreDevice) (c : Call) : Prop where
  first : (readInfo d.cur.storeBuf (slotPos 0)).head = storeInfoHead
  key : parseKeyFrame noRet c.frame.data 0 c.frame.size = 0 →
    d.cur.storeOffset + d.cur.remain + 2 * sizeofStoreInfo ≤ storeBufMaxSize
  move : parseKeyFrame noRet c.frame.data 0 c.frame.size ≠ 0 → ∀ pos, d.search noRet = some (pos, some pos) →
    pos + 2 * sizeofStoreInfo ≤ storeBufMaxSize

/-- a rotation finds the slot empty, and seals a buffer the writer will accept -/
def SlotFree (noRet : ℕ → ℤ) (s : Sys) : Act → Prop
  | .call c => s.dev.Full c → s.dev.pStoreBufWr = none ∧ SealKeeps noRet s.dev c
  | _ => True

/-! ## The invariant -/

structure HandOffInv (s : Sys) : Prop where
  size : ∀ i, (s.dev.buf i).storeSize = storeBufMaxSize
  ok : HandOffOk s
  head : ∀ i, s.dev.pStoreBufWr = some i → (readInfo (s.dev.buf i).storeBuf (slotPos 0)).head = storeInfoHead
  /-- an open file holds whole blocks of the buffer the slot names -/
  copied : ∀ out, s.writer = some out → ∃ i n, s.dev.pStoreBufWr = some i ∧ writeFileBlockSize * n ≤ storeBufMaxSize ∧
    out = slice (s.dev.buf i).storeBuf 0 (writeFileBlockSize * n)

theorem init_handOffInv (path : String) (type : RecodeType) (ping pong : Mem) (pongStart : ℕ) :
    HandOffInv (Sys.init (addStoreDevice path type ping pong pongStart)) :=
  ⟨fun i => by cases i <;> rfl, Or.inl ⟨rfl, rfl⟩, nofun, nofun⟩

/-- the seal of a rotation keeps the head of the first record -/
theorem rotate_head {noRet : ℕ → ℤ} {d d' : StoreDevice} {c : Call} (hk : SealKeeps noRet d c)
    (h : d.rotate noRet c = some d') :
    (readInfo (d'.buf d.pCurStoreBuf).storeBuf (slotPos 0)).head = storeInfoHead := by
  have hslot := slotPos_zero_add
  unfold StoreDevice.rotate at h
  split_ifs at h with hkey
  · obtain ⟨pos, next, hs, hle, -, rfl⟩ := StoreDevice.rotateMove_some h
    have := hk.move hkey pos hs
    rw [StoreDevice.handOver_buf]
    simp only [sizeofStoreInfo] at this hle ⊢
    exact (head_memset (by omega)).trans hk.first
  · obtain ⟨-, rfl⟩ := StoreDevice.rotateKey_some h
    have := hk.key (by simpa using hkey)
    rw [StoreDevice.handOver_buf, StoreBuf.sealed]
    simp only [sizeofStoreInfo] at this ⊢
    exact (head_memset (by omega)).trans hk.first

/-! ## What a step of the writer does -/

/-- the slot is empty, or names a buffer without a record, or one to write -/
theorem Sys.scan_cases {s t : Sys} (ht : s.scan = some t) : s.writer = none ∧
    ((s.dev.pStoreBufWr = none ∧ t = s) ∨ ∃ i, s.dev.pStoreBufWr = some i ∧
      (((readInfo (s.dev.buf i).storeBuf ((s.dev.buf i).storeSize - sizeofStoreInfo)).head ≠ storeInfoHead ∧
          t = { s with dev := { s.dev with pStoreBufWr := none } }) ∨
        ((readInfo (s.dev.buf i).storeBuf ((s.dev.buf i).storeSize - sizeofStoreInfo)).head = storeInfoHead ∧
          t = { s with writer := some [] }))) := by
  unfold Sys.scan at ht
  split at ht
  · cases ht
  · rename_i hw hi
    exact ⟨hw, Or.inl ⟨hi, (Option.some.inj ht).symm⟩⟩
  · rename_i i hw hi
    dsimp only at ht
    split_ifs at ht with hhead
    · exact ⟨hw, Or.inr ⟨i, hi, Or.inl ⟨hhead, (Option.some.inj ht).symm⟩⟩⟩
    · exact ⟨hw, Or.inr ⟨i, hi, Or.inr ⟨not_not.1 hhead, (Option.some.inj ht).symm⟩⟩⟩

theorem Sys.block_cases {s t : Sys} (ht : s.block = some t) : ∃ out i, s.writer = some out ∧
    s.dev.pStoreBufWr = some i ∧ out.length < storeBufMaxSize ∧
      t = { s with writer := some (out ++ slice (s.dev.buf i).storeBuf out.length writeFileBlockSize) } := by
  unfold Sys.block at ht
  split at ht
  · rename_i out i hw hi
    obtain ⟨hlt, ht⟩ := Option.ite_none_right_eq_some.1 ht
    exact ⟨out, i, hw, hi, hlt, (Option.some.inj ht).symm⟩
  · cases ht

theorem Sys.finish_cases {s t : Sys} (ht : s.finish = some t) : ∃ out, s.writer = some out ∧
    storeBufMaxSize ≤ out.length ∧
      t = { s with writer := none, files := s.files ++ [out], dev := { s.dev with pStoreBufWr := none } } := by
  unfold Sys.finish at ht
  split at ht
  · rename_i out hw
    obtain ⟨hfull, ht⟩ := Option.ite_none_left_eq_some.1 ht
    exact ⟨out, hw, not_lt.1 hfull, (Option.some.inj ht).symm⟩
  · cases ht

/-- one block more of the buffer the slot names -/
theorem Sys.block_some {s : Sys} {i : BufId} {n : ℕ} (hi : s.dev.pStoreBufWr = some i)
    (hn : writeFileBlockSize * (n + 1) ≤ storeBufMaxSize)
    (hw : s.writer = some (slice (s.dev.buf i).storeBuf 0 (writeFileBlockSize * n))) :
    s.block = some { s with writer := some (slice (s.dev.buf i).storeBuf 0 (writeFileBlockSize * (n + 1))) } := by
  simp only [Sys.block, hw, hi, length_slice]
  rw [if_pos (by simp only [writeFileBlockSize] at hn ⊢; omega), mul_add, mul_one, slice_add, zero_add]

/-- the file of buffer `i` is complete -/
def Sys.written (s : Sys) (i : BufId) : Sys :=
  { s with writer := none, files := s.files ++ [(s.dev.buf i).image], dev := { s.dev with pStoreBufWr := none } }

theorem Sys.finish_some {s : Sys} {i : BufId} (hw : s.writer = some (s.dev.buf i).image) :
    s.finish = some (s.written i) := by
  simp only [Sys.finish, hw, StoreBuf.length_image, lt_irrefl, if_false, Sys.written]

namespace HandOffInv

variable {noRet : ℕ → ℤ} {s t : Sys}

/-- an append does not touch the buffer the slot names -/
theorem append {c : Call} {d : StoreDevice} (h : HandOffInv s) (hf : ¬ s.dev.Full c)
    (hd : s.dev.writeFrame noRet c = some d) : HandOffInv { s with dev := d } := by
  have hsize := StoreDevice.writeFrame_storeSize hd
  rw [StoreDevice.writeFrame_append hf] at hd
  obtain ⟨hcur, hwr, -, hother, -⟩ := StoreDevice.store_frame hd
  have hbuf : ∀ i, s.dev.pStoreBufWr = some i → d.buf i = s.dev.buf i ∧ i ≠ s.dev.pCurStoreBuf := by
    intro i hi
    rcases h.ok with ⟨hnone, -⟩ | ⟨j, hj, hne, -⟩
    · rw [hnone] at hi
      cases hi
    · rw [hj] at hi
      cases hi
      rw [StoreDevice.eq_other_of_ne hne]
      exact ⟨hother, StoreDevice.other_ne _⟩
  refine ⟨fun i => (hsize i).trans (h.size i), ?_, ?_, ?_⟩
  · rcases h.ok with ⟨hnone, hlog⟩ | ⟨i, hi, hne, hlog⟩
    · exact Or.inl ⟨hwr.trans hnone, hlog⟩
    · refine Or.inr ⟨i, hwr.trans hi, by rw [hcur]; exact hne, ?_⟩
      rw [(hbuf i hi).1]
      exact hlog
  · intro i hi
    rw [hwr] at hi
    rw [(hbuf i hi).1]
    exact h.head i hi
  · intro out hout
    obtain ⟨i, n, hi, hn, rfl⟩ := h.copied out hout
    exact ⟨i, n, hwr.trans hi, hn, by rw [(hbuf i hi).1]⟩

/-- a rotation that finds the slot empty puts the sealed buffer there -/
theorem rotation {c : Call} {d : StoreDevice} (h : HandOffInv s) (hf : s.dev.Full c)
    (hfree : s.dev.pStoreBufWr = none) (hk : SealKeeps noRet s.dev c) (hd : s.dev.writeFrame noRet c = some d) :
    HandOffInv { s with dev := d, sealedImages := s.sealedImages ++ [(d.buf s.dev.pCurStoreBuf).image] } := by
  obtain ⟨d1, hd1, -, hcur, hwr, hbuf⟩ := StoreDevice.writeFrame_rotates hf hd
  refine ⟨fun i => (StoreDevice.writeFrame_storeSize hd i).trans (h.size i), ?_, ?_, ?_⟩
  · rcases h.ok with ⟨-, hlog⟩ | ⟨i, hi, -⟩
    · refine Or.inr ⟨_, hwr, ?_, ?_⟩
      · rw [hcur]
        exact StoreDevice.ne_other _
      · rw [hlog]
    · rw [hfree] at hi
      cases hi
  · intro i hi
    rw [hwr] at hi
    cases hi
    rw [hbuf]
    exact rotate_head hk hd1
  · intro out hout
    obtain ⟨i, -, hi, -⟩ := h.copied out hout
    rw [hfree] at hi
    cases hi

theorem call {c : Call} (h : HandOffInv s) (hp : SlotFree noRet s (.call c)) (ht : s.call noRet c = some t) :
    HandOffInv t := by
  simp only [Sys.call] at ht
  cases hflag : c.flag with
  | true => simp [hflag] at ht
  | false =>
    rw [if_neg (by simp [hflag])] at ht
    obtain ⟨d, hd, rfl⟩ := Option.map_eq_some_iff.1 ht
    rw [StoreDevice.writeFrameToBuf_of_flag_false hflag] at hd
    by_cases hf : s.dev.Full c
    · rw [if_pos hf]
      exact h.rotation hf (hp hf).1 (hp hf).2 hd
    · rw [if_neg hf]
      exact h.append hf hd

/-- the writer accepts the buffer the slot names -/
theorem scan_some (h : HandOffInv s) {i : BufId} (hw : s.writer = none) (hi : s.dev.pStoreBufWr = some i) :
    s.scan = some { s with writer := some [] } := by
  have hhead := h.head i hi
  rw [slotPos_zero] at hhead
  simp only [Sys.scan, hw, hi, h.size i]
  rw [if_neg (not_not.2 hhead)]

theorem scan (h : HandOffInv s) (ht : s.scan = some t) : HandOffInv t := by
  obtain ⟨hw, ⟨-, rfl⟩ | ⟨i, hi, -⟩⟩ := Sys.scan_cases ht
  · exact h
  · rw [h.scan_some hw hi] at ht
    cases ht
    refine ⟨h.size, h.ok, h.head, ?_⟩
    intro out hout
    cases hout
    exact ⟨i, 0, hi, Nat.zero_le _, rfl⟩

theorem block (h : HandOffInv s) (ht : s.block = some t) : HandOffInv t := by
  obtain ⟨out, -, hw, -, hlen, -⟩ := Sys.block_cases ht
  obtain ⟨i, n, hi, hn, rfl⟩ := h.copied out hw
  -- the buffer is a whole number of blocks, so a file that is not complete has room for one
  have hlt : writeFileBlockSize * (n + 1) ≤ storeBufMaxSize := by
    rw [length_slice] at hlen
    simp only [writeFileBlockSize, storeBufMaxSize] at hlen ⊢
    omega
  rw [Sys.block_some hi hlt hw] at ht
  cases ht
  exact ⟨h.size, h.ok, h.head, fun out hout => ⟨i, n + 1, hi, hlt, (Option.some.inj hout).symm⟩⟩

theorem finish (h : HandOffInv s) (ht : s.finish = some t) : HandOffInv t := by
  obtain ⟨out, hw, hlen, -⟩ := Sys.finish_cases ht
  obtain ⟨i, n, hi, hn, rfl⟩ := h.copied out hw
  have hfull : writeFileBlockSize * n = storeBufMaxSize := by
    rw [length_slice] at hlen
    omega
  rw [hfull] at hw
  rw [Sys.finish_some hw] at ht
  cases ht
  refine ⟨fun i => h.size i, Or.inl ⟨rfl, ?_⟩, nofun, nofun⟩
  rcases h.ok with ⟨hnone, -⟩ | ⟨j, hj, -, hlog⟩
  · rw [hnone] at hi
    cases hi
  · cases hj.symm.trans hi
    exact hlog

theorem step {a : Act} (h : HandOffInv s) (hp : SlotFree noRet s a) (ht : s.step noRet a = some t) : HandOffInv t := by
  cases a with
  | call c => exact h.call hp ht
  | scan => exact h.scan ht
  | block => exact h.block ht
  | finish => exact h.finish ht

/-! ## The writer finishes -/

/-- from any number of copied blocks, the writer's remaining steps complete the file -/
theorem drain_blocks (noRet : ℕ → ℤ) {i : BufId} (k : ℕ) : ∀ {s : Sys} {n : ℕ}, s.dev.pStoreBufWr = some i →
    s.writer = some (slice (s.dev.buf i).storeBuf 0 (writeFileBlockSize * n)) →
    writeFileBlockSize * (n + k) = storeBufMaxSize →
    run (Sys.step noRet) s (List.replicate k .block ++ [.finish]) = some (s.written i) := by
  induction k with
  | zero =>
    intro s n hi hw hn
    rw [add_zero] at hn
    rw [hn] at hw
    exact run_cons_some (Sys.finish_some hw) rfl
  | succ k ih =>
    intro s n hi hw hn
    have hblock : s.block = _ := Sys.block_some hi (by rw [← hn]; exact Nat.mul_le_mul_left _ (by omega)) hw
    rw [List.replicate_succ, List.cons_append]
    exact run_cons_some hblock (ih (n := n + 1) hi rfl (by rw [← hn]; congr 1; omega))

/-- the writer alone brings every sealed image to its file -/
theorem drain (h : HandOffInv s) : ∃ acts t, (∀ a ∈ acts, Act.isWriter a = true) ∧
    run (Sys.step noRet) s acts = some t ∧ t.sealedImages = s.sealedImages ∧ t.files = s.sealedImages := by
  have writers : ∀ k, ∀ a ∈ List.replicate k Act.block ++ [Act.finish], Act.isWriter a = true := by
    intro k a ha
    rcases List.mem_append.1 ha with ha | ha
    · rw [(List.mem_replicate.1 ha).2]
      rfl
    · rw [List.mem_singleton.1 ha]
      rfl
  rcases h.ok with ⟨-, hlog⟩ | ⟨i, hi, -, hlog⟩
  · exact ⟨[], s, nofun, rfl, rfl, hlog.symm⟩
  · cases hw : s.writer with
    | none =>
      have hrun := drain_blocks noRet (s := { s with writer := some [] }) (n := 0) 16384 hi rfl (by decide)
      refine ⟨.scan :: (List.replicate 16384 .block ++ [.finish]), s.written i, ?_,
        run_cons_some (h.scan_some hw hi) hrun, rfl, hlog.symm⟩
      intro a ha
      rcases List.mem_cons.1 ha with rfl | ha
      · rfl
      · exact writers _ a ha
    | some out =>
      obtain ⟨j, n, hj, hn, rfl⟩ := h.copied out hw
      cases hj.symm.trans hi
      have hrun := drain_blocks noRet (16384 - n) hi hw
        (by simp only [writeFileBlockSize, storeBufMaxSize] at hn ⊢; omega)
      exact ⟨_, s.written i, writers (16384 - n), hrun, rfl, hlog.symm⟩

end HandOffInv

/-- **Hand-off.** In every interleaving of calls and writer steps in which each rotation finds the slot empty and leaves
a record in the last slot of the buffer it seals, every sealed image is written once and unchanged before its buffer is
used again, and the writer's own steps are enough to write what is still waiting. -/
theorem handOff_lossless (noRet : ℕ → ℤ) (path : String) (type : RecodeType) (ping pong : Mem) (pongStart : ℕ)
    (acts : List Act)
    (h : Steps (Sys.step noRet) (SlotFree noRet) (Sys.init (addStoreDevice path type ping pong pongStart)) acts)
    (s : Sys) (hr : run (Sys.step noRet) (Sys.init (addStoreDevice path type ping pong pongStart)) acts = some s) :
    HandOffOk s ∧ ∃ ws t, (∀ a ∈ ws, Act.isWriter a = true) ∧ run (Sys.step noRet) s ws = some t ∧
      t.sealedImages = s.sealedImages ∧ t.files = s.sealedImages := by
  have hinv : HandOffInv s := run_inv (fun _ _ _ hi hp ht => hi.step hp ht) (init_handOffInv _ _ _ _ _) h hr
  exact ⟨hinv.ok, hinv.drain⟩

/-! ## Key frames of more than half a buffer: every call rotates -/

theorem idr_first (noRet : ℕ → ℤ) {d : StoreDevice} {n : ℕ} (h : Holds d.cur []) (hn : n + 192 ≤ storeBufMaxSize) :
    ¬ d.Full (idrCall n) ∧ ∃ d', d.writeFrameToBuf noRet (idrCall n) = some d' ∧
      Holds d'.cur (entries d.frameIndex [idrCall n]) ∧ d'.pStoreBufWr = d.pStoreBufWr := by
  have hf : ¬ d.Full (idrCall n) := by
    rw [StoreDevice.full_iff h]
    simp only [total_nil, List.length_nil, idrCall]
    omega
  obtain ⟨d', hd', h', -⟩ := StoreDevice.store_holds h (idrCall n) (by rw [StoreDevice.full_iff h] at hf; omega)
  refine ⟨hf, d', ?_, h', (StoreDevice.store_frame hd').2.1⟩
  rw [StoreDevice.writeFrameToBuf_of_flag_false rfl, StoreDevice.writeFrame_append hf, hd']

theorem idr_next (noRet : ℕ → ℤ) {d : StoreDevice} {i n : ℕ} (h : Holds d.cur (entries i [idrCall n]))
    (hfull : storeBufMaxSize < 2 * n + 288) (hn : n + 192 ≤ storeBufMaxSize) :
    d.Full (idrCall n) ∧ SealKeeps noRet d (idrCall n) ∧ ∃ d', d.writeFrameToBuf noRet (idrCall n) = some d' ∧
      Holds d'.cur (entries d.frameIndex [idrCall n]) := by
  have hf := full_of_idr h hfull
  have hk := parse_idrCall noRet (show 0 < n by simp only [storeBufMaxSize] at hfull; omega)
  refine ⟨hf, ⟨h.head_slot 0 (by simp), fun _ => ?_, fun hne => absurd hk hne⟩, ?_⟩
  · have := h.sealed_top
    simp only [length_entries, List.length_singleton, sizeofStoreInfo] at this ⊢
    omega
  · set d1 := d.handOver d.cur.sealed ((d.buf d.pCurStoreBuf.other).reset (idrCall n).time)
    have h1 : Holds d1.cur [] := by rw [StoreDevice.handOver_cur]; exact Holds.reset_nil _ _
    obtain ⟨d', hd', h', -⟩ := StoreDevice.store_holds h1 (idrCall n)
      (by simp only [total_nil, List.length_nil, idrCall]; omega)
    rw [StoreDevice.handOver_frameIndex] at h'
    refine ⟨d', ?_, h'⟩
    rw [StoreDevice.writeFrameToBuf_of_flag_false rfl, StoreDevice.writeFrame_key h hf hk, hd']

/-- a call of the model that is not a stop call returns what the device returns -/
theorem Sys.call_some {noRet : ℕ → ℤ} {s : Sys} {c : Call} {d : StoreDevice} (hflag : c.flag = false)
    (hd : s.dev.writeFrameToBuf noRet c = some d) :
    s.step noRet (.call c) = some { s with
      dev := d
      sealedImages :=
        if s.dev.Full c then s.sealedImages ++ [(d.buf s.dev.pCurStoreBuf).image] else s.sealedImages } := by
  rw [Sys.step, Sys.call, if_neg (by simp [hflag]), hd, Option.map_some]

/-- two 40 MB key frames: one rotation, into an empty slot -/
theorem handOff_lossless_idr :
    ∃ s, run (Sys.step fun t => t) (Sys.init (addStoreDevice "" .planned (fun _ => 0) (fun _ => 0) 0))
        [.call (idrCall 40000000), .call (idrCall 40000000)] = some s ∧ s.sealedImages.length = 1 ∧ HandOffOk s := by
  obtain ⟨hf1, d1, hd1, h1, hwr⟩ := idr_first (fun t => t) (n := 40000000)
    (addStoreDevice_holds "" .planned (fun _ => 0) (fun _ => 0) 0) (by decide)
  obtain ⟨hf2, hk2, d2, hd2, -⟩ := idr_next (fun t => t) h1 (by decide) (by decide)
  have ht1 := Sys.call_some (s := Sys.init (addStoreDevice "" .planned (fun _ => 0) (fun _ => 0) 0)) rfl hd1
  simp only [Sys.init, hf1, if_false] at ht1
  have ht2 := Sys.call_some (s := ⟨d1, none, [], []⟩) rfl hd2
  simp only [hf2, if_true] at ht2
  have hr := run_cons_some ht1 (run_cons_some (l := []) ht2 rfl)
  refine ⟨_, hr, rfl, (handOff_lossless (fun t => t) "" .planned (fun _ => 0) (fun _ => 0) 0
    [.call (idrCall 40000000), .call (idrCall 40000000)] ?_ _ hr).1⟩
  refine ⟨fun hf => absurd hf hf1, fun t ht => ?_⟩
  cases ht1.symm.trans ht
  exact ⟨fun _ => ⟨hwr, hk2⟩, fun _ _ => trivial⟩

/-- three 40 MB key frames before the writer looks: the second rotation takes the slot and rewinds the first buffer -/
theorem slot_overwritten :
    ∃ s, run (Sys.step fun t => t) (Sys.init (addStoreDevice "" .planned (fun _ => 0) (fun _ => 0) 0))
        [.call (idrCall 40000000), .call (idrCall 40000000), .call (idrCall 40000000)] = some s ∧
      s.sealedImages.length = 2 ∧ s.files = [] ∧ ¬ HandOffOk s := by
  obtain ⟨hf1, d1, hd1, h1, -⟩ := idr_first (fun t => t) (n := 40000000)
    (addStoreDevice_holds "" .planned (fun _ => 0) (fun _ => 0) 0) (by decide)
  obtain ⟨hf2, -, d2, hd2, h2⟩ := idr_next (fun t => t) h1 (by decide) (by decide)
  obtain ⟨hf3, -, d3, hd3, -⟩ := idr_next (fun t => t) h2 (by decide) (by decide)
  have ht1 := Sys.call_some (s := Sys.init (addStoreDevice "" .planned (fun _ => 0) (fun _ => 0) 0)) rfl hd1
  simp only [Sys.init, hf1, if_false] at ht1
  have ht2 := Sys.call_some (s := ⟨d1, none, [], []⟩) rfl hd2
  simp only [hf2, if_true] at ht2
  have ht3 := Sys.call_some (s := ⟨d2, none, [] ++ [(d2.buf d1.pCurStoreBuf).image], []⟩) rfl hd3
  simp only [hf3, if_true] at ht3
  refine ⟨_, run_cons_some ht1 (run_cons_some ht2 (run_cons_some (l := []) ht3 rfl)), rfl, rfl, ?_⟩
  rintro (⟨-, hlog⟩ | ⟨i, -, -, hlog⟩)
  all_goals
    have := congrArg List.length hlog
    simp at this

end StoreService.Store
