/-
Reading a sealed image back (`GetOneFrameByIndex`).

The reader gets the bytes of a store file, finds record `idx` from the end of the image, and copies the frame out.
- `appends_hold`: calls whose frames fit append their entries in order (induction over the calls), whatever the buffer
  contained before; `fits_of_room`: they fit if there is room for all of them;
- `getOneFrameByIndex_get`, `getOneFrameByIndex_end`: on an image that holds a list and has a cleared free slot, index
  `k` is entry `k` and the index after the last is an error;
- `sealed_image_decodes` puts them together for a buffer sealed by a key frame.
-/
import StoreService.Store.Rotation

namespace StoreService.Store

open StoreService.ByteMem StoreService.KeyFrame StoreService.Runs

/-- a uint32_t returned as an int32_t -/
def int32 (x : ℕ) : ℤ := if x < 2 ^ 31 then x else (x : ℤ) - 2 ^ 32

/-- `GetOneFrameByIndex`: the return value, the output buffer and `*sys_time` afterwards. The pointers may be null;
`none` is a read outside the image. -/
def getOneFrameByIndex (idx : ℕ) (frames : Option Mem) (framesSize : ℕ) (out : Option Mem) (outSize : ℕ)
    (sysTime : Option ℕ) : Option (ℤ × Option Mem × Option ℕ) :=
  match frames, out, sysTime with
  | some f, some o, some _ =>
    if sizeofStoreInfo * (idx + 1) ≤ framesSize then
      let r := readInfo f (framesSize - sizeofStoreInfo - sizeofStoreInfo * idx)
      if r.head ≠ storeInfoHead then some (-1, out, sysTime)
      else if r.frameSize > outSize then some (-1, out, sysTime)
      else if r.frameOffset + r.frameSize ≤ framesSize then
        some (int32 r.frameSize, some (memcpy o 0 f r.frameOffset r.frameSize), some r.frameStartTime)
      else none
    else none
  | _, _, _ => some (-1, out, sysTime)

/-! ## The appended list -/

/-- the entries of a list of calls, the first with frame index `i` -/
def entries : ℕ → List Call → List Entry
  | _, [] => []
  | i, c :: calls => c.frame.entry c.ms i :: entries (u32 (i + 1)) calls

@[simp] theorem length_entries (i : ℕ) (calls : List Call) : (entries i calls).length = calls.length := by
  induction calls generalizing i with
  | nil => rfl
  | cons c calls ih => simp [entries, ih]

theorem total_entries (i : ℕ) (calls : List Call) : total (entries i calls) = (calls.map (·.frame.size)).sum := by
  induction calls generalizing i with
  | nil => rfl
  | cons c calls ih => rw [entries, total_cons, Frame.entry_size, ih, List.map_cons, List.sum_cons]

theorem getElem?_entries (i : ℕ) (calls : List Call) (k : ℕ) :
    (entries i calls)[k]? = calls[k]?.map fun c => c.frame.entry c.ms (i + k) := by
  induction calls generalizing i k with
  | nil => simp [entries]
  | cons c calls ih =>
    cases k with
    | zero => simp [entries]
    | succ k =>
      have hidx : ∀ c : Call, c.frame.entry c.ms (u32 (i + 1) + k) = c.frame.entry c.ms (i + (k + 1)) := by
        intro c
        simp only [Frame.entry, u32, Entry.mk.injEq, true_and]
        omega
      simp only [entries, List.getElem?_cons_succ, ih, hidx]

/-- a call whose frame fits -/
def Fits (d : StoreDevice) (c : Call) : Prop := c.flag = false ∧ ¬ d.Full c

instance (d : StoreDevice) (c : Call) : Decidable (Fits d c) := inferInstanceAs (Decidable (_ ∧ _))

/-- a fitting call appends its entry -/
theorem append_holds {noRet : ℕ → ℤ} {d : StoreDevice} {c : Call} {L : List Entry} (h : Holds d.cur L)
    (hfit : Fits d c) :
    ∃ d', d.writeFrameToBuf noRet c = some d' ∧ Holds d'.cur (L ++ [c.frame.entry c.ms d.frameIndex]) ∧
      d'.pCurStoreBuf = d.pCurStoreBuf ∧ d'.frameIndex = u32 (d.frameIndex + 1) := by
  obtain ⟨hflag, hfull⟩ := hfit
  obtain ⟨d1, hd1, h1, -⟩ := StoreDevice.store_holds h c (by rw [StoreDevice.full_iff h] at hfull; omega)
  obtain ⟨hcur, -, hidx, -, -⟩ := StoreDevice.store_frame hd1
  refine ⟨d1, ?_, h1, hcur, hidx⟩
  rw [StoreDevice.writeFrameToBuf_of_flag_false hflag, StoreDevice.writeFrame_append hfull, hd1]

/-- fitting calls append their entries, in order, to what the current buffer holds -/
theorem appends_hold {noRet : ℕ → ℤ} {d : StoreDevice} {calls : List Call} {L : List Entry} (h : Holds d.cur L)
    (hfit : Steps (StoreDevice.writeFrameToBuf noRet) Fits d calls) :
    ∃ d', run (StoreDevice.writeFrameToBuf noRet) d calls = some d' ∧ Holds d'.cur (L ++ entries d.frameIndex calls) ∧
      d'.pCurStoreBuf = d.pCurStoreBuf := by
  induction calls generalizing d L with
  | nil => exact ⟨d, rfl, by simpa [entries] using h, rfl⟩
  | cons c calls ih =>
    obtain ⟨hc, hrest⟩ := hfit
    obtain ⟨d1, hw, h1, hcur, hidx⟩ := append_holds h hc
    obtain ⟨d2, hr, h2, hcur2⟩ := ih h1 (hrest d1 hw)
    refine ⟨d2, run_cons_some hw hr, ?_, hcur2.trans hcur⟩
    rw [entries, ← hidx]
    simpa using h2

/-- calls fit one after the other if there is room for all their frames and records -/
theorem fits_of_room {noRet : ℕ → ℤ} {d : StoreDevice} {calls : List Call} {L : List Entry} (h : Holds d.cur L)
    (hflag : ∀ c ∈ calls, c.flag = false)
    (hroom : total L + (calls.map (·.frame.size)).sum + 96 * (L.length + calls.length + 1) ≤ storeBufMaxSize) :
    Steps (StoreDevice.writeFrameToBuf noRet) Fits d calls := by
  induction calls generalizing d L with
  | nil => trivial
  | cons c calls ih =>
    simp only [List.map_cons, List.sum_cons, List.length_cons] at hroom
    have hfit : Fits d c := ⟨hflag c List.mem_cons_self, by rw [StoreDevice.full_iff h]; omega⟩
    refine ⟨hfit, fun t ht => ?_⟩
    obtain ⟨d1, hd1, h1, -, -⟩ := append_holds h hfit
    cases hd1.symm.trans ht
    refine ih h1 (fun c hc => hflag c (List.mem_cons_of_mem _ hc)) ?_
    rw [total_append, total_cons, total_nil, List.length_append, List.length_singleton, Frame.entry_size]
    omega

/-! ## Reading one record -/

theorem slot_addr {k : ℕ} : storeBufMaxSize - sizeofStoreInfo - sizeofStoreInfo * k = slotPos k := by
  simp only [slotPos, sizeofStoreInfo]; omega

theorem getOneFrameByIndex_get {b : StoreBuf} {L : List Entry} (h : Holds b L) {k : ℕ} (hk : k < L.length) (out : Mem)
    {outSize : ℕ} (hout : (L[k]).size ≤ outSize) (t : ℕ) :
    getOneFrameByIndex k (some b.storeBuf) storeBufMaxSize (some out) outSize (some t) =
      some (((L[k]).size : ℤ), some (memcpy out 0 b.storeBuf (total (L.take k)) (L[k]).size), some (L[k]).time) := by
  have hroom := h.room
  have hmax : storeBufMaxSize < 2 ^ 31 := by decide
  have hend := total_take_le L (k + 1)
  rw [total_take_succ hk] at hend
  simp only [getOneFrameByIndex, slot_addr, h.info_slot k hk, Entry.info]
  rw [if_pos (by simp only [sizeofStoreInfo]; omega), if_neg (by simp), if_neg (by omega), if_pos (by omega), int32,
    if_pos (by omega)]

/-- what the reader has copied out is the frame -/
theorem Holds.slice_copy {b : StoreBuf} {L : List Entry} (h : Holds b L) {k : ℕ} (hk : k < L.length) (out : Mem) :
    slice (memcpy out 0 b.storeBuf (total (L.take k)) (L[k]).size) 0 (L[k]).size = (L[k]).bytes := by
  rw [slice_memcpy, h.frame_bytes k hk]

theorem getOneFrameByIndex_end {m : Mem} {n : ℕ} (hn : 96 * (n + 1) ≤ storeBufMaxSize)
    (hfree : (readInfo m (slotPos n)).head ≠ storeInfoHead) (out : Mem) (outSize t : ℕ) :
    getOneFrameByIndex n (some m) storeBufMaxSize (some out) outSize (some t) = some (-1, some out, some t) := by
  simp only [getOneFrameByIndex, slot_addr]
  rw [if_pos (by simp only [sizeofStoreInfo]; omega), if_pos hfree]

/-! ## A sealed image -/

/-- what the reader gets for index `k` of an image into which the calls were appended, the first with frame index `i` -/
structure Decodes (image : Mem) (i : ℕ) (calls : List Call) : Prop where
  frame : ∀ k (hk : k < calls.length) (out : Mem) (outSize t : ℕ), (calls[k]).frame.size ≤ outSize →
    getOneFrameByIndex k (some image) storeBufMaxSize (some out) outSize (some t) =
      some (((calls[k]).frame.size : ℤ), some (memcpy out 0 (calls[k]).frame.data 0 (calls[k]).frame.size),
        some ((calls[k]).ms % 2 ^ 64))
  index : ∀ k < calls.length, (readInfo image (slotPos k)).frameIdx = (i + k) % 2 ^ 32
  stop : ∀ (out : Mem) (outSize t : ℕ),
    getOneFrameByIndex calls.length (some image) storeBufMaxSize (some out) outSize (some t)
      = some (-1, some out, some t)

theorem decodes_of_holds {b : StoreBuf} {i : ℕ} {calls : List Call} (h : Holds b (entries i calls))
    (hfree : (readInfo b.storeBuf (slotPos calls.length)).head ≠ storeInfoHead) : Decodes b.storeBuf i calls := by
  have hroom := h.room
  rw [length_entries] at hroom
  have hget : ∀ k (hk : k < calls.length), ∃ hk' : k < (entries i calls).length,
      (entries i calls)[k] = (calls[k]).frame.entry (calls[k]).ms (i + k) := by
    intro k hk
    have := getElem?_entries i calls k
    rw [List.getElem?_eq_getElem hk, Option.map_some] at this
    exact List.getElem?_eq_some_iff.1 this
  refine ⟨?_, ?_, ?_⟩
  · intro k hk out outSize t hout
    obtain ⟨hk', he⟩ := hget k hk
    have hs := h.frame_bytes k hk'
    rw [getOneFrameByIndex_get h hk' out (by rw [he, Frame.entry_size]; exact hout) t]
    rw [he, Frame.entry_size, Frame.entry_bytes, slice_eq_iff] at hs
    -- both copies take the same bytes
    have hcopy : memcpy out 0 b.storeBuf (total ((entries i calls).take k)) (calls[k]).frame.size =
        memcpy out 0 (calls[k]).frame.data 0 (calls[k]).frame.size := by
      funext a
      by_cases ha : a < (calls[k]).frame.size
      · rw [memcpy_of_mem (by omega) (by omega), memcpy_of_mem (by omega) (by omega)]
        exact hs _ (by omega)
      · rw [sameOn_memcpy (b := a) (k := 1) (by omega) a le_rfl (by omega),
          sameOn_memcpy (b := a) (k := 1) (by omega) a le_rfl (by omega)]
    rw [he, Frame.entry_size, hcopy]
    rfl
  · intro k hk
    obtain ⟨hk', he⟩ := hget k hk
    rw [h.info_slot k hk', he]
    rfl
  · intro out outSize t
    exact getOneFrameByIndex_end (by omega) hfree out outSize t

/-- **Decoding.** On a rewound buffer with any old content, append frames while they fit, then let a key frame that does
not fit rotate the device. The rotation succeeds, and the image it seals decodes to exactly the appended frames; the
rest of the call does not touch that image. -/
theorem sealed_image_decodes (noRet : ℕ → ℤ) (d : StoreDevice) (calls : List Call) (hoff : d.cur.storeOffset = 0)
    (hinfo : d.cur.storeInfoOffset = storeBufMaxSize - sizeofStoreInfo)
    (hfit : Steps (StoreDevice.writeFrameToBuf noRet) Fits d calls) :
    ∃ d1, run (StoreDevice.writeFrameToBuf noRet) d calls = some d1 ∧
      ∀ c : Call, c.flag = false → d1.Full c → parseKeyFrame noRet c.frame.data 0 c.frame.size = 0 →
        ∃ d2, d1.rotate noRet c = some d2 ∧ d2.pStoreBufWr = some d.pCurStoreBuf ∧
          Decodes (d2.buf d.pCurStoreBuf).storeBuf d.frameIndex calls ∧
          (∀ d3, d1.writeFrameToBuf noRet c = some d3 → d3.buf d.pCurStoreBuf = d2.buf d.pCurStoreBuf) ∧
          (c.frame.size + 2 * sizeofStoreInfo ≤ storeBufMaxSize → ∃ d3, d1.writeFrameToBuf noRet c = some d3) := by
  have h0 : Holds d.cur [] := ⟨hoff, hinfo, by decide, trivial⟩
  obtain ⟨d1, hr, h1, hcur⟩ := appends_hold h0 hfit
  rw [List.nil_append] at h1
  refine ⟨d1, hr, fun c hflag hfull hkey => ?_⟩
  set d2 := d1.handOver d1.cur.sealed ((d1.buf d1.pCurStoreBuf.other).reset c.time)
  have hbuf : d2.buf d.pCurStoreBuf = d1.cur.sealed := by rw [← hcur]; exact StoreDevice.handOver_buf _ _ _
  have hw : d1.writeFrameToBuf noRet c = (d2.stampStart c).store c := by
    rw [StoreDevice.writeFrameToBuf_of_flag_false hflag, StoreDevice.writeFrame_key h1 hfull hkey]
  refine ⟨d2, ?_, ?_, ?_, ?_, ?_⟩
  · rw [StoreDevice.rotate, if_neg (by simpa using hkey), StoreDevice.rotateKey_eq h1]
  · rw [← hcur]
    exact StoreDevice.handOver_pStoreBufWr _ _ _
  · rw [hbuf]
    have hfree := h1.sealed_free
    rw [length_entries] at hfree
    exact decodes_of_holds h1.sealed_holds (by rw [hfree]; decide)
  · intro d3 hd3
    rw [hw] at hd3
    have := (StoreDevice.store_frame hd3).2.2.2.1
    rwa [StoreDevice.handOver_pCurStoreBuf, StoreDevice.other_other, hcur] at this
  · intro hsize
    have hnext : Holds d2.cur [] := by rw [StoreDevice.handOver_cur]; exact Holds.reset_nil _ _
    simp only [sizeofStoreInfo] at hsize
    obtain ⟨d3, hd3, -⟩ := StoreDevice.store_holds hnext c (by simp; omega)
    exact ⟨d3, by rw [hw, hd3]⟩

/-- a buffer with one key frame of more than half its size is full for another -/
theorem full_of_idr {d : StoreDevice} {i n : ℕ} (h : Holds d.cur (entries i [idrCall n]))
    (hn : storeBufMaxSize < 2 * n + 288) : d.Full (idrCall n) := by
  rw [StoreDevice.full_iff h]
  simp only [entries, total_cons, total_nil, Frame.entry_size, List.length_singleton, idrCall]
  omega

/-- a key frame and another frame -/
def pairCalls : List Call := [idrCall 16, zeroCall 10]

/-- two frames over a buffer of stale 0x7a bytes, sealed by a key frame that would fill an empty one -/
theorem sealed_image_decodes_pair :
    ∃ d1, run (StoreDevice.writeFrameToBuf fun t => t) (addStoreDevice "" .planned (fun _ => 0x7a) (fun _ => 0x7a) 0)
        pairCalls = some d1 ∧
      ∃ d2, d1.rotate (fun t => t) (idrCall (storeBufMaxSize - 192)) = some d2 ∧
        Decodes (d2.buf .ping).storeBuf 0 pairCalls := by
  have hfit : Steps (StoreDevice.writeFrameToBuf fun t => t) Fits
      (addStoreDevice "" .planned (fun _ => 0x7a) (fun _ => 0x7a) 0) pairCalls := by
    decide +kernel
  obtain ⟨d1, hr, himage⟩ := sealed_image_decodes (fun t => t) _ _ rfl rfl hfit
  obtain ⟨d1', hr', h1, -⟩ := appends_hold (addStoreDevice_holds "" .planned (fun _ => 0x7a) (fun _ => 0x7a) 0) hfit
  cases hr'.symm.trans hr
  have hfull : d1.Full (idrCall (storeBufMaxSize - 192)) := by
    rw [StoreDevice.full_iff h1]
    decide
  have hkey := parse_idrCall (fun t => t) (by decide : 0 < storeBufMaxSize - 192)
  obtain ⟨d2, h2, -, h3, -⟩ := himage (idrCall (storeBufMaxSize - 192)) rfl hfull hkey
  exact ⟨d1, hr, d2, h2, h3⟩

end StoreService.Store
