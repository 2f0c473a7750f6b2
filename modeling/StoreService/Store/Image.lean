/-
Sealed images: what the writer gets, and what it makes of it.

`Image m F` says that the bytes `m` index exactly the frames `F`: the records of `F` stand in the slots from the last
one down, and the slot under them does not carry STORE_INFO_HEAD. `sealedFrames` are the frames a call of
`WriteFrameToBuf` seals, and `StoreDevice.written` is what the writer makes of the buffer in the slot.

- `image_rotate`: a rotation, on a key frame or with a tail move, leaves an image of these frames.
- `image_stop`: so does a stop flush whose frame does not fit.
- `stop_clears_record`: a stop flush that appends its frame clears the record of this frame.
-/
import StoreService.Store.Decode
import StoreService.Store.Terminated

namespace StoreService.Store

open StoreService.ByteMem StoreService.KeyFrame StoreService.Runs

/-! ## Images -/

/-- the bytes index the frames `F`, and no more -/
structure Image (m : Mem) (F : List Entry) : Prop where
  indexed : Indexed m 0 0 F
  room : total F + 96 * (F.length + 1) ≤ storeBufMaxSize
  stop : (readInfo m (slotPos F.length)).head ≠ storeInfoHead

/-- a buffer that holds the frames of an image -/
theorem Image.holds {m : Mem} {F : List Entry} (h : Image m F) :
    Holds ⟨m, storeBufMaxSize, total F, slotPos F.length, 0⟩ F := ⟨rfl, rfl, h.room, h.indexed⟩

/-- the files the writer makes of the slot: the buffer it names, unless there is no record in its last slot -/
def StoreDevice.written (d : StoreDevice) : List Mem :=
  match d.pStoreBufWr with
  | some i =>
    let b := d.buf i
    if (readInfo b.storeBuf (b.storeSize - sizeofStoreInfo)).head = storeInfoHead then [b.storeBuf] else []
  | none => []

/-! ## Sealing -/

/-- the frames accepted into the image a call seals, from those the buffer holds: a rotation on a key frame seals them
all, a tail move those before the key frame it found, a stop flush all and its own frame if that fits -/
def sealedFrames (noRet : ℕ → ℤ) (d : StoreDevice) (L : List Entry) (c : Call) : List Entry :=
  if c.flag then if d.Full c then L else L ++ [c.frame.entry c.ms d.frameIndex]
  else if parseKeyFrame noRet c.frame.data 0 c.frame.size = 0 then L
  else
    match d.search noRet with
    | some (pos, _) => L.take (slotOf pos)
    | none => L

/-- a call that seals the current buffer -/
def Seals (d : StoreDevice) (c : Call) : Prop := c.flag = true ∨ d.Full c

section Seal

variable {noRet : ℕ → ℤ} {d d' : StoreDevice} {L : List Entry} {c : Call}

theorem image_sealed {b : StoreBuf} (h : Holds b L) : Image b.sealed.storeBuf L :=
  ⟨h.sealed_holds.indexed, h.room, by rw [h.sealed_free]; decide⟩

/-- a tail move leaves an image of the frames before the key frame -/
theorem image_moved {b : StoreBuf} (h : Holds b L) {k : ℕ} (hk : k < L.length) :
    Image (memset b.storeBuf (total (L.take k)) 0 (slotPos k + sizeofStoreInfo - total (L.take k))) (L.take k) := by
  have hroom := h.room
  have hle := total_take_le L k
  have hslot : slotPos k + 96 * (k + 1) = storeBufMaxSize := slotPos_add (by omega)
  have hlen : (L.take k).length = k := by simp; omega
  have hidx : Indexed b.storeBuf 0 0 (L.take k) := by
    have := h.indexed
    rw [← List.take_append_drop k L, indexed_append] at this
    exact this.1
  refine ⟨hidx.congr (by omega) (sameOn_memset (Or.inl (by omega))) (sameOn_memset (Or.inr ?_)), by omega, ?_⟩
  · simp only [sizeofStoreInfo]
    omega
  · rw [hlen, show (readInfo (memset b.storeBuf (total (L.take k)) 0
      (slotPos k + sizeofStoreInfo - total (L.take k))) (slotPos k)).head = 0 from
        readLE_memset_zero (by omega) (by simp only [sizeofStoreInfo]; omega)]
    decide

theorem image_rotate (h : Holds d.cur L) (hflag : c.flag = false) (hf : d.Full c)
    (hd : d.writeFrameToBuf noRet c = some d') :
    Image (d'.buf d.pCurStoreBuf).storeBuf (sealedFrames noRet d L c) := by
  rw [StoreDevice.writeFrameToBuf_of_flag_false hflag] at hd
  obtain ⟨d1, hd1, -, -, -, hbuf⟩ := StoreDevice.writeFrame_rotates hf hd
  rw [hbuf, sealedFrames, if_neg (by simp [hflag])]
  by_cases hk : parseKeyFrame noRet c.frame.data 0 c.frame.size = 0
  · rw [StoreDevice.rotate, if_neg (by simpa using hk)] at hd1
    obtain ⟨-, rfl⟩ := StoreDevice.rotateKey_some hd1
    rw [if_pos hk, StoreDevice.handOver_buf]
    exact image_sealed h
  · rw [StoreDevice.rotate, if_pos hk] at hd1
    obtain ⟨pos, next, hs, -, -, rfl⟩ := StoreDevice.rotateMove_some hd1
    obtain ⟨k, hkL, rfl, -⟩ := StoreDevice.search_slot h hs
    rw [if_neg hk, hs, StoreDevice.handOver_buf, h.info_slot k hkL]
    simp only [h.slotOf_slotPos hkL, Entry.info]
    exact image_moved h hkL

/-- a flush returns if its memset, which starts behind the frame it appends, ends in the buffer -/
theorem stopSeal_returns (h : Holds d.cur L)
    (hend : ¬ d.Full c → d.cur.storeInfoOffset + c.frame.size + sizeofStoreInfo ≤ storeBufMaxSize) :
    ∃ d', d.stopSeal c = some d' := by
  have htop := h.sealed_top
  by_cases hf : d.Full c
  · rw [StoreDevice.stopSeal, if_pos hf, Option.bind_some, if_pos (by omega)]
    exact ⟨_, rfl⟩
  · have hinfo := h.infoOffset_add
    have hremain := h.remain_add
    have hle := hend hf
    have hfit := hf
    rw [StoreDevice.full_iff h] at hfit
    obtain ⟨b, hb, hholds, -, -⟩ := storeFrame_holds h c.frame c.ms d.frameIndex (by omega)
    obtain ⟨d1, hd1, hcur⟩ := StoreDevice.store_some hb
    have hoff : b.storeOffset = total L + c.frame.size := by
      rw [hholds.offset]
      simp
    rw [StoreDevice.stopSeal, if_neg hf, hd1, Option.bind_some, hcur, if_pos (by omega)]
    exact ⟨_, rfl⟩

/-- the bytes a stop flush hands over -/
theorem stop_storeBuf (hflag : c.flag = true) (hd : d.writeFrameToBuf noRet c = some d') :
    ∃ d1, { d with pStoreBufWr := none }.stopSeal c = some d1 ∧ (d'.buf d.pCurStoreBuf).storeBuf = d1.cur.storeBuf := by
  rw [StoreDevice.writeFrameToBuf, if_pos hflag] at hd
  obtain ⟨d1, hd1, rfl⟩ := Option.map_eq_some_iff.1 hd
  have hcur : d1.pCurStoreBuf = d.pCurStoreBuf := (StoreDevice.stopSeal_frame hd1).1
  refine ⟨d1, hd1, ?_⟩
  rw [← hcur]
  show ((d1.setBuf d1.pCurStoreBuf (d1.cur.reset 0)).buf d1.pCurStoreBuf).storeBuf = _
  rw [StoreDevice.buf_setBuf, Holds.reset_storeBuf]

theorem image_stop (h : Holds d.cur L) (hflag : c.flag = true) (hf : d.Full c)
    (hd : d.writeFrameToBuf noRet c = some d') :
    Image (d'.buf d.pCurStoreBuf).storeBuf (sealedFrames noRet d L c) := by
  obtain ⟨d1, hd1, hbuf⟩ := stop_storeBuf hflag hd
  rw [sealedFrames, if_pos hflag, if_pos hf, hbuf,
    StoreDevice.stopSeal_full (d := { d with pStoreBufWr := none }) hf hd1]
  exact image_sealed h

/-- a stop flush that appends its frame clears the record of that frame -/
theorem stop_clears_record (h : Holds d.cur L) (hflag : c.flag = true) (hf : ¬ d.Full c)
    (hd : d.writeFrameToBuf noRet c = some d') :
    (readInfo (d'.buf d.pCurStoreBuf).storeBuf (slotPos L.length)).head = 0 := by
  obtain ⟨d1, hd1, hbuf⟩ := stop_storeBuf hflag hd
  obtain ⟨b, -, -, hmem, hend, -⟩ := StoreDevice.stopSeal_appends (d := { d with pStoreBufWr := none }) h hf hd1
  have hinfo : d.cur.storeInfoOffset = slotPos L.length := h.infoOffset
  have hremain := h.remain_add
  have hroom := h.infoOffset_add
  rw [StoreDevice.full_iff h] at hf
  rw [hbuf, hmem]
  refine readLE_memset_zero (by omega) ?_
  rw [hend]
  show slotPos L.length + 4 ≤ d.cur.storeInfoOffset + c.frame.size + sizeofStoreInfo
  simp only [sizeofStoreInfo]
  omega

end Seal

end StoreService.Store
