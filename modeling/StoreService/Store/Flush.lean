/-
The stop flush (`WriteFrameToBuf` with `flag` = 1), read back.

A flush appends its frame if it fits, clears the gap, and hands the buffer to the writer. The memset starts behind the
appended frame but has the length of the gap before the append, so it ends `frameSize` bytes too far: always over the
record just written, over records above it if the frame is large, and behind the buffer if it is larger still.

- `flush_keeps_iff`: the image a flush hands over is read back as the frames of the buffer, with its own frame if that
  fits, exactly if it does not fit.
- `flush_loses`: of two frames of 10 bytes and a final one of 50 the reader gets the first; on an empty buffer the same
  flush writes outside the buffer.

The buffer is any one that holds frames (`Holds`), with any bytes elsewhere. A reader takes every frame of its buffer
size or smaller.
-/
import StoreService.Store.Remove

namespace StoreService.Store

open StoreService.ByteMem StoreService.KeyFrame StoreService.Runs

/-- the frames that should be in the image of a flush -/
def flushed (d : StoreDevice) (L : List Entry) (c : Call) : List Entry :=
  if d.Full c then L else L ++ [c.frame.entry c.ms d.frameIndex]

/-- **What a flush should do**, when the first wait has found the slot empty: stay in the buffer, and hand the writer an
image that is read back as these frames -/
def FlushKeeps (d : StoreDevice) (L : List Entry) (c : Call) : Prop :=
  ∃ d' i, { d with pStoreBufWr := none }.stopSeal c = some d' ∧ d'.pStoreBufWr = some i ∧
    ∀ outSize < 2 ^ 32, (∀ e ∈ flushed d L c, e.size ≤ outSize) →
      decode (d'.buf i).storeBuf outSize = some ((flushed d L c).map Entry.read)

section Flush

variable {d d' : StoreDevice} {L : List Entry} {c : Call}

/-- a flush whose frame does not fit leaves an image of the frames -/
theorem flush_full_image (h : Holds d.cur L) (hf : d.Full c) (hd : d.stopSeal c = some d') :
    Image d'.cur.storeBuf L := by
  rw [StoreDevice.stopSeal_full hf hd]
  exact image_sealed h

/-- a flush that appends its frame clears the record of it -/
theorem flush_fits_free (h : Holds d.cur L) (hf : ¬ d.Full c) (hd : d.stopSeal c = some d') :
    (readInfo d'.cur.storeBuf (slotPos L.length)).head ≠ storeInfoHead := by
  obtain ⟨b, -, -, hmem, hend, -⟩ := StoreDevice.stopSeal_appends h hf hd
  have hinfo := h.infoOffset_add
  have hremain := h.remain_add
  have hslot : d.cur.storeInfoOffset = slotPos L.length := h.infoOffset
  rw [StoreDevice.full_iff h] at hf
  simp only [sizeofStoreInfo] at hend
  rw [hmem]
  exact head_ne_of_zero_byte 0 (by omega) (memset_of_mem (by omega) (by simp only [sizeofStoreInfo]; omega))

/-- **The flush keeps every frame** of a buffer with any frames and any stale bytes exactly if the final frame does not
fit. -/
theorem flush_keeps_iff (d : StoreDevice) (L : List Entry) (c : Call) (h : Holds d.cur L) :
    FlushKeeps d L c ↔ d.Full c := by
  have hlocal : Holds { d with pStoreBufWr := none }.cur L := h
  constructor
  · rintro ⟨d', i, hd, hwr, hdecode⟩
    by_contra hf
    -- the frame that fits is answered from a slot the memset has cleared
    obtain ⟨hcur, hslot, -, -⟩ := StoreDevice.stopSeal_frame hd
    cases hwr.symm.trans hslot
    have hfit := hf
    rw [StoreDevice.full_iff h] at hfit
    obtain ⟨b, -, hb, -⟩ := storeFrame_holds h c.frame c.ms d.frameIndex (by omega)
    rw [flushed, if_neg hf] at hdecode
    have hread := hdecode (2 ^ 32 - 1) (by norm_num) fun e he => hb.size_lt he
    have hhead := decodeFrom_head hread L.length (by simp)
    rw [zero_add] at hhead
    apply flush_fits_free hlocal hf hd
    rw [StoreDevice.cur, hcur]
    exact hhead
  · intro hf
    obtain ⟨d', hd⟩ := stopSeal_returns (c := c) hlocal fun hnf => absurd hf hnf
    obtain ⟨hcur, hslot, -, -⟩ := StoreDevice.stopSeal_frame hd
    have himage := flush_full_image hlocal hf hd
    rw [StoreDevice.cur, hcur] at himage
    refine ⟨d', _, hd, hslot, fun outSize _ hout => ?_⟩
    rw [flushed, if_pos hf] at hout ⊢
    exact himage.decode hout

end Flush

/-- two frames of 10 bytes on zeroed buffers -/
theorem two_appended :
    ∃ d, run (StoreDevice.writeFrameToBuf fun t => t) (addStoreDevice "" .planned (fun _ => 0) (fun _ => 0) 0)
        [zeroCall 10, zeroCall 10] = some d ∧ Holds d.cur (entries 0 [zeroCall 10, zeroCall 10]) := by
  have hfit : Steps (StoreDevice.writeFrameToBuf fun t => t) Fits
      (addStoreDevice "" .planned (fun _ => 0) (fun _ => 0) 0) [zeroCall 10, zeroCall 10] := by
    decide +kernel
  obtain ⟨d, hd, hholds, -⟩ := appends_hold (addStoreDevice_holds _ _ _ _ _) hfit
  exact ⟨d, hd, hholds⟩

/-- with a final frame as large as the buffer both frames are kept -/
theorem flush_keeps_two :
    ∃ d, Holds d.cur (entries 0 [zeroCall 10, zeroCall 10]) ∧
      FlushKeeps d (entries 0 [zeroCall 10, zeroCall 10]) (zeroCall storeBufMaxSize) := by
  obtain ⟨d, -, hholds⟩ := two_appended
  refine ⟨d, hholds, (flush_keeps_iff d _ (zeroCall storeBufMaxSize) hholds).2 ?_⟩
  rw [StoreDevice.full_iff hholds]
  show storeBufMaxSize < _ + storeBufMaxSize + _
  omega

/-- **Frames are lost**: two frames of 10 bytes and a final one of 50, which fits. The reader gets the first frame and
no more. Without frames before it, the same final frame makes the memset leave the buffer. -/
theorem flush_loses :
    (∃ d d', run (StoreDevice.writeFrameToBuf fun t => t) (addStoreDevice "" .planned (fun _ => 0) (fun _ => 0) 0)
        [zeroCall 10, zeroCall 10] = some d ∧
      Holds d.cur (entries 0 [zeroCall 10, zeroCall 10]) ∧ ¬ d.Full (zeroCall 50) ∧
      { d with pStoreBufWr := none }.stopSeal (zeroCall 50) = some d' ∧
      decode d'.cur.storeBuf 100 = some [(List.replicate 10 0, 1000)] ∧
      ¬ FlushKeeps d (entries 0 [zeroCall 10, zeroCall 10]) (zeroCall 50)) ∧
    (addStoreDevice "" .planned (fun _ => 0) (fun _ => 0) 0).stopSeal (zeroCall 50) = none := by
  have hread : (run (StoreDevice.writeFrameToBuf fun t => t)
      (addStoreDevice "" .planned (fun _ => 0) (fun _ => 0) 0) [zeroCall 10, zeroCall 10]).bind
      (fun d => ({ d with pStoreBufWr := none }.stopSeal (zeroCall 50)).bind
        fun d' : StoreDevice => decode d'.cur.storeBuf 100) =
        some [(List.replicate 10 0, 1000)] := by
    decide +kernel
  have hout : ((addStoreDevice "" .planned (fun _ => 0) (fun _ => 0) 0).stopSeal (zeroCall 50)).isNone := by
    decide +kernel
  obtain ⟨d, hd, hholds⟩ := two_appended
  rw [hd, Option.bind_some] at hread
  obtain ⟨d', hd', hread⟩ := Option.bind_eq_some_iff.1 hread
  have hf : ¬ d.Full (zeroCall 50) := by
    rw [StoreDevice.full_iff hholds]
    decide
  refine ⟨⟨d, d', hd, hholds, hf, hd', hread, fun hkeeps => ?_⟩, Option.isNone_iff_eq_none.1 hout⟩
  obtain ⟨d1, i, hd1, hwr, hdecode⟩ := hkeeps
  cases hd'.symm.trans hd1
  obtain ⟨hcur, hslot, -, -⟩ := StoreDevice.stopSeal_frame hd'
  cases hwr.symm.trans hslot
  have hsizes : ∀ e ∈ flushed d (entries 0 [zeroCall 10, zeroCall 10]) (zeroCall 50), e.size ≤ 100 := by
    intro e he
    simp only [flushed, if_neg hf, entries, List.cons_append, List.nil_append, List.mem_cons, List.not_mem_nil,
      or_false] at he
    rcases he with rfl | rfl | rfl <;> rw [Frame.entry_size] <;> decide
  have hall := hdecode 100 (by norm_num) hsizes
  rw [StoreDevice.cur, hcur] at hread
  have hlen := congrArg List.length (Option.some.inj (hread.symm.trans hall))
  simp [flushed, if_neg hf] at hlen

end StoreService.Store
