/-
The tail move (`MoveFramesToNextBuf` and the memset behind it in `WriteFrameToBuf`): where it splits a recording, and
when there is something to split at.

When a frame that is no key frame does not fit, the frames from the last key frame on are copied to the other buffer and
cleared in this one. The search walks the index from the last record towards the first and asks `ParseKeyFrame` about
each frame in place. It has no bound of its own: without a key frame it leaves the buffer.

- `searchKey_last`: the search stops on the record of the last frame that is accepted in place.
- `tail_split`: with an accepted frame and a terminated index the source is read back as the frames before it, and the
  other buffer holds the rest, with the same bytes, sizes, times and indices.
- `search_finds`: from an empty buffer on, in every run of frames that meet `StreamOk` the next tail move finds a record
  iff one of the frames in the buffer has an IDR slice. `StreamOk`: this was so at the tail moves of the run,
  `ParseKeyFrame` decides by the bytes of a frame alone, and tails fit and are terminated. A buffer may begin inside a
  group of pictures.
- `search_escapes`: a stream without key frames; the search runs out of the buffer.
-/
import StoreService.Store.Remove
import StoreService.Playback.Nalu

namespace StoreService.Store

open StoreService.ByteMem StoreService.KeyFrame StoreService.Runs StoreService.Playback

/-! ## The search -/

/-- `ParseKeyFrame` accepts frame `j` at its place in the buffer -/
def KeyAt (noRet : ℕ → ℤ) (b : StoreBuf) (L : List Entry) (j : ℕ) : Prop :=
  ∃ e, L[j]? = some e ∧ parseKeyFrame noRet b.storeBuf (total (L.take j)) e.size = 0

/-- frame `k` is the last one that is accepted in place -/
structure LastKey (noRet : ℕ → ℤ) (b : StoreBuf) (L : List Entry) (k : ℕ) : Prop where
  key : KeyAt noRet b L k
  last : ∀ j, k < j → ¬ KeyAt noRet b L j

section Search

variable {noRet : ℕ → ℤ} {b : StoreBuf} {L : List Entry} {j k : ℕ}

theorem KeyAt.lt (h : KeyAt noRet b L j) : j < L.length := by
  obtain ⟨e, he, -⟩ := h
  exact (List.getElem?_eq_some_iff.1 he).1

theorem exists_lastKey (h : KeyAt noRet b L j) : ∃ k, LastKey noRet b L k := by
  classical
  refine ⟨Nat.findGreatest (KeyAt noRet b L) L.length, Nat.findGreatest_spec h.lt.le h, fun i hi hkey => ?_⟩
  exact Nat.findGreatest_is_greatest hi hkey.lt.le hkey

/-- what the search asks about slot `j` -/
theorem keyAt_iff (h : Holds b L) (hj : j < L.length) : KeyAt noRet b L j ↔
    parseKeyFrame noRet b.storeBuf (readInfo b.storeBuf (slotPos j)).frameOffset
      (readInfo b.storeBuf (slotPos j)).frameSize = 0 := by
  rw [h.info_slot j hj, KeyAt, List.getElem?_eq_getElem hj]
  constructor
  · rintro ⟨e, he, hkey⟩
    cases he
    exact hkey
  · intro hkey
    exact ⟨_, rfl, hkey⟩

theorem searchKey_last (h : Holds b L) (hk : LastKey noRet b L k) {i fuel : ℕ} (hki : k ≤ i) (hi : i < L.length)
    (hfuel : i - k < fuel) : searchKey noRet b.storeBuf fuel (slotPos i) = some (slotPos k, some (slotPos k)) := by
  have hroom := h.room
  -- induction along the walk, from slot `i` up to slot `k`
  induction fuel generalizing i with
  | zero => omega
  | succ fuel ih =>
    have hslot : slotPos i + 96 * (i + 1) = storeBufMaxSize := slotPos_add (by omega)
    have hin : slotPos i + sizeofStoreInfo ≤ storeBufMaxSize := by simp only [sizeofStoreInfo]; omega
    simp only [searchKey, if_pos hin, if_pos (h.head_slot i hi)]
    rcases hki.eq_or_lt with rfl | hlt
    · rw [if_neg (not_not.2 ((keyAt_iff h hi).1 hk.key))]
    · rw [if_pos (mt (keyAt_iff h hi).2 (hk.last i hlt))]
      have hup : slotPos i + sizeofStoreInfo = slotPos (i - 1) := by simp only [slotPos, sizeofStoreInfo]; omega
      rw [hup]
      exact ih (by omega) (by omega) (by omega)

/-- the search of a rotation -/
theorem search_last {d : StoreDevice} (h : Holds d.cur L) (hk : LastKey noRet d.cur L k) :
    d.search noRet = some (slotPos k, some (slotPos k)) := by
  have hinfo := h.infoOffset_add
  have hroom := h.room
  have hlt := hk.key.lt
  have hstart : d.cur.storeInfoOffset + sizeofStoreInfo = slotPos (L.length - 1) := by
    simp only [slotPos, sizeofStoreInfo]
    omega
  rw [StoreDevice.search, hstart]
  exact searchKey_last h hk (by omega) (by omega) (by simp only [sizeofStoreInfo]; omega)

/-- the records of a list name bytes of its frames -/
theorem infos_inside {off : ℕ} {r : StoreInfo} (h : r ∈ infos off L) :
    r.frameOffset + r.frameSize ≤ off + total L := by
  induction L generalizing off with
  | nil => cases h
  | cons e L ih =>
    rw [total_cons]
    rcases List.mem_cons.1 h with rfl | h
    · exact Nat.add_le_add_left (Nat.le_add_right _ _) _
    · exact (ih h).trans_eq (add_assoc _ _ _)

end Search

/-! ## The split -/

/-- **The tail move splits the recording.** Any buffer with at least one accepted frame and a slot under the last record
without the head, and any other buffer: the move and the memset return. With `k` the last accepted frame, the source is
read back as the frames before `k`; the other buffer, which is current now, holds the frames from `k` on with their
bytes, sizes, times and indices, and its offsets stand behind them. -/
theorem tail_split (noRet : ℕ → ℤ) (d : StoreDevice) (c : Call) (L : List Entry) (h : Holds d.cur L)
    (hkey : ∃ j, KeyAt noRet d.cur L j)
    (hfree : (readInfo d.cur.storeBuf d.cur.storeInfoOffset).head ≠ storeInfoHead) :
    ∃ k d', LastKey noRet d.cur L k ∧ d.rotateMove noRet c = some d' ∧
      (∀ outSize, (∀ e ∈ L.take k, e.size ≤ outSize) →
        decode (d'.buf d.pCurStoreBuf).storeBuf outSize = some ((L.take k).map Entry.read)) ∧
      d'.pCurStoreBuf = d.pCurStoreBuf.other ∧
      (∀ (j : ℕ) (hj : k + j < L.length),
        readInfo d'.cur.storeBuf (slotPos j) = (L[k + j]).info (total ((L.drop k).take j)) ∧
        slice d'.cur.storeBuf (total ((L.drop k).take j)) (L[k + j]).size = (L[k + j]).bytes) ∧
      d'.cur.storeOffset = total (L.drop k) ∧
      d'.cur.storeInfoOffset = storeBufMaxSize - (L.length - k + 1) * sizeofStoreInfo := by
  obtain ⟨j, hj⟩ := hkey
  obtain ⟨k, hk⟩ := exists_lastKey hj
  have hlt := hk.key.lt
  have hroom := h.room
  have hdrop : total (L.take k) + total (L.drop k) = total L := by
    rw [← total_append, List.take_append_drop]
  have hlen : (L.drop k).length = L.length - k := List.length_drop
  rw [show d.cur.storeInfoOffset = slotPos L.length from h.infoOffset] at hfree
  have hidx := h.indexed.drop hlt.le
  obtain ⟨next, hmove, hnext, -, -⟩ := StoreDevice.rotateMove_holds h c hlt (search_last h hk) (tail_eq h hfree hlt.le)
    (fun r hr => (infos_inside hr).trans (by omega)) (by rw [sizes_infos, length_infos]; omega)
  rw [hidx.moved_infos] at hnext
  refine ⟨k, _, hk, hmove, fun outSize hout => ?_, ?_, fun j hj => ?_, ?_, ?_⟩
  · rw [StoreDevice.handOver_buf]
    exact (image_moved h hlt).decode hout
  · rfl
  · rw [StoreDevice.handOver_cur]
    have hj' : j < (L.drop k).length := by omega
    have hget : (L.drop k)[j] = L[k + j] := List.getElem_drop
    rw [← hget]
    exact ⟨hnext.info_slot j hj', hnext.frame_bytes j hj'⟩
  · rw [StoreDevice.handOver_cur]
    exact hnext.offset
  · rw [StoreDevice.handOver_cur, hnext.infoOffset, hlen, slotPos, mul_comm]

/-- a call with a frame without zero bytes: no start code, no key frame -/
def plainCall (size : ℕ) : Call := ⟨⟨fun _ => 0xff, size⟩, false, 1, 1, 0⟩

theorem parse_plain (noRet : ℕ → ℤ) (size : ℕ) :
    parseKeyFrame noRet (plainCall size).frame.data 0 (plainCall size).frame.size = noRet size := by
  apply parseKeyFrame_no_code
  intro i _
  have hload : readLE (plainCall size).frame.data (0 + i) 4 = 0xffffffff := by simp [readLE_four, plainCall]
  rw [hload]
  decide

/-- two groups of a key frame and another frame -/
def gopCalls : List Call := [idrCall 16, plainCall 16, idrCall 16, plainCall 16]

/-- a frame from inside a group, then a group -/
def joinedCalls : List Call := [plainCall 16, idrCall 16, plainCall 16]

/-- the second group is moved: the source is read back as the first two frames -/
theorem tail_split_gops :
    ∃ d d', run (StoreDevice.writeFrameToBuf fun t => t) (addStoreDevice "" .planned (fun _ => 0) (fun _ => 0) 0)
        gopCalls = some d ∧ d.rotateMove (fun t => t) (plainCall 16) = some d' ∧
      decode (d'.buf .ping).storeBuf 100 = some [(slice idrData 0 16, 1000), (List.replicate 16 0xff, 1000)] ∧
      d'.cur.storeOffset = 32 ∧ d'.cur.storeInfoOffset = storeBufMaxSize - 288 := by
  have hfit : Steps (StoreDevice.writeFrameToBuf fun t => t) Fits
      (addStoreDevice "" .planned (fun _ => 0) (fun _ => 0) 0) gopCalls := by
    decide +kernel
  have heval : (run (StoreDevice.writeFrameToBuf fun t => t) (addStoreDevice "" .planned (fun _ => 0) (fun _ => 0) 0)
      gopCalls).map (fun d => ((readInfo d.cur.storeBuf d.cur.storeInfoOffset).head,
        parseKeyFrame (fun t => t) d.cur.storeBuf 32 16, parseKeyFrame (fun t => t) d.cur.storeBuf 48 16)) =
      some (0, 0, 16) := by
    decide +kernel
  obtain ⟨d, hd, hholds, hcur⟩ := appends_hold (addStoreDevice_holds _ _ _ _ _) hfit
  rw [hd, Option.map_some, Option.some.injEq, Prod.mk.injEq, Prod.mk.injEq] at heval
  obtain ⟨hfree, hkey, hplain⟩ := heval
  set L := [] ++ entries (addStoreDevice "" .planned (fun _ => 0) (fun _ => 0) 0).frameIndex gopCalls with hL
  have hkey2 : KeyAt (fun t => t) d.cur L 2 := ⟨(idrCall 16).frame.entry (idrCall 16).ms 2, rfl, hkey⟩
  obtain ⟨k, d', hk, hd', hread, -, -, hoff, hinfo⟩ := tail_split (fun t => t) d (plainCall 16) L hholds ⟨2, hkey2⟩
    (by rw [hfree]; decide)
  have hk2 : k = 2 := by
    have hlt : k < 4 := hk.key.lt
    have hge : ¬ k < 2 := fun hk2 => hk.last 2 hk2 hkey2
    have hne : k ≠ 3 := by
      rintro rfl
      obtain ⟨e, he, hzero⟩ := hk.key
      cases he
      have hval : (16 : ℤ) = 0 := hplain.symm.trans hzero
      exact absurd hval (by decide)
    omega
  subst hk2
  rw [show d.pCurStoreBuf = .ping from hcur] at hread
  refine ⟨d, d', hd, hd', ?_, hoff.trans (by decide), hinfo.trans (by decide)⟩
  exact (hread 100 (by decide)).trans (by decide +kernel)

/-! ## Runs -/

/-- `ParseKeyFrame` answers by the bytes of the frame alone, wherever they stand: 0 exactly for an IDR slice -/
def Decided (noRet : ℕ → ℤ) (bytes : List UInt8) : Prop :=
  ∀ m a, slice m a bytes.length = bytes → (parseKeyFrame noRet m a bytes.length = 0 ↔ HasIdr (nalUnits bytes))

theorem decided_of_hasIdr {noRet : ℕ → ℤ} {bytes : List UInt8} (h : HasIdr (nalUnits bytes)) : Decided noRet bytes := by
  intro m a hslice
  refine iff_of_true (parseKeyFrame_zero_iff.2 (Or.inl ?_)) h
  rw [hslice]
  exact h

/-- a frame without zero bytes has no start code -/
theorem decided_of_nonzero {noRet : ℕ → ℤ} {bytes : List UInt8} (h : ∀ x ∈ bytes, x ≠ 0)
    (hret : noRet bytes.length ≠ 0) : Decided noRet bytes := by
  intro m a hslice
  have hparse : parseKeyFrame noRet m a bytes.length = noRet bytes.length := by
    apply parseKeyFrame_no_code
    intro i hi
    have hbyte : m (a + i) ≠ 0 := by
      apply h
      rw [← hslice]
      exact List.mem_map.2 ⟨i, List.mem_range.2 hi, rfl⟩
    have hlow : (m (a + i)).toNat ≠ 0 := fun h0 => hbyte (UInt8.toNat_inj.1 h0)
    have hlt := (m (a + i)).toNat_lt
    rw [readLE_four]
    constructor <;> omega
  have hne : parseKeyFrame noRet m a bytes.length ≠ 0 := by
    rw [hparse]
    exact hret
  refine iff_of_false hne fun hidr => hne (parseKeyFrame_zero_iff.2 (Or.inl ?_))
  rw [hslice]
  exact hidr

/-- a frame over whose end no start code can run -/
theorem decided_of_closed {noRet : ℕ → ℤ} {bytes : List UInt8} (h : Closed bytes) (hret : noRet bytes.length ≠ 0) :
    Decided noRet bytes := by
  intro m a hslice
  rw [parseKeyFrame_zero_iff, hslice, h.beyond_eq_none hslice _ _ (Nat.zero_le _) (by omega)]
  constructor
  · rintro (hidr | hzero)
    · exact hidr
    · exact absurd hzero hret
  · exact Or.inl

/-- **What a tail move needs**: a call with a frame that is no key frame and does not fit finds a record -/
def Finds (noRet : ℕ → ℤ) (d : StoreDevice) (c : Call) : Prop :=
  d.Full c → parseKeyFrame noRet c.frame.data 0 c.frame.size ≠ 0 → ∃ pos, d.search noRet = some (pos, some pos)

/-- the frames that the records of a buffer name -/
def StoreBuf.fill (b : StoreBuf) : List (List UInt8) :=
  (List.range ((slotPos 0 - b.storeInfoOffset) / sizeofStoreInfo)).map fun j =>
    slice b.storeBuf (readInfo b.storeBuf (slotPos j)).frameOffset (readInfo b.storeBuf (slotPos j)).frameSize

/-- one of them has an IDR slice -/
def StoreBuf.HasKey (b : StoreBuf) : Prop := ∃ bytes ∈ b.fill, HasIdr (nalUnits bytes)

instance (b : StoreBuf) : Decidable b.HasKey := by
  unfold StoreBuf.HasKey
  infer_instance

theorem Holds.fill_eq {b : StoreBuf} {L : List Entry} (h : Holds b L) : b.fill = L.map Entry.bytes := by
  have hinfo := h.infoOffset_add
  have hroom := h.room
  have hcount : (slotPos 0 - b.storeInfoOffset) / sizeofStoreInfo = L.length := by
    have hzero := slotPos_zero_add
    simp only [sizeofStoreInfo]
    omega
  rw [StoreBuf.fill, hcount]
  refine List.ext_getElem (by simp) fun j hj hj' => ?_
  have hlt : j < L.length := by simpa using hj
  rw [List.getElem_map, List.getElem_map, List.getElem_range, h.info_slot j hlt]
  exact h.frame_bytes j hlt

/-- a frame that fits an empty buffer, with an answer of `ParseKeyFrame` that does not depend on its place; a tail move
has a key frame to start from, room for the new frame and a terminated index -/
structure StreamOk (noRet : ℕ → ℤ) (d : StoreDevice) (c : Call) : Prop where
  flag : c.flag = false
  fits : c.frame.size + 2 * sizeofStoreInfo ≤ storeBufMaxSize
  decided : Decided noRet (slice c.frame.data 0 c.frame.size)
  key : d.Full c → parseKeyFrame noRet c.frame.data 0 c.frame.size ≠ 0 → d.cur.HasKey
  tail : TailFits noRet d c
  index : d.Full c → parseKeyFrame noRet c.frame.data 0 c.frame.size ≠ 0 → ¬ StaleSlot d

/-- the frames in the current buffer, the places of which do not matter -/
structure StreamInv (noRet : ℕ → ℤ) (d : StoreDevice) (L : List Entry) : Prop where
  holds : Holds d.cur L
  decided : ∀ e ∈ L, Decided noRet e.bytes

namespace StreamInv

variable {noRet : ℕ → ℤ} {d : StoreDevice} {L : List Entry} {c : Call}

/-- acceptance in place is a matter of the bytes -/
theorem keyAt_iff_hasIdr (h : StreamInv noRet d L) {j : ℕ} (hj : j < L.length) :
    KeyAt noRet d.cur L j ↔ HasIdr (nalUnits (L[j]).bytes) := by
  have hdec := h.decided _ (List.getElem_mem hj) d.cur.storeBuf (total (L.take j)) (h.holds.frame_bytes j hj)
  rw [← hdec, KeyAt, List.getElem?_eq_getElem hj]
  constructor
  · rintro ⟨e, he, hkey⟩
    cases he
    exact hkey
  · intro hkey
    exact ⟨_, rfl, hkey⟩

theorem hasKey_iff (h : StreamInv noRet d L) : d.cur.HasKey ↔ ∃ j, KeyAt noRet d.cur L j := by
  rw [StoreBuf.HasKey, h.holds.fill_eq]
  constructor
  · rintro ⟨bytes, hbytes, hidr⟩
    obtain ⟨e, he, rfl⟩ := List.mem_map.1 hbytes
    obtain ⟨j, hj, rfl⟩ := List.getElem_of_mem he
    exact ⟨j, (h.keyAt_iff_hasIdr hj).2 hidr⟩
  · rintro ⟨j, hkey⟩
    exact ⟨_, List.mem_map_of_mem (List.getElem_mem hkey.lt), (h.keyAt_iff_hasIdr hkey.lt).1 hkey⟩

theorem exists_key (h : StreamInv noRet d L) (hkey : d.cur.HasKey) : ∃ k, LastKey noRet d.cur L k := by
  obtain ⟨j, hj⟩ := h.hasKey_iff.1 hkey
  exact exists_lastKey hj

/-- a buffer that is full for a frame that fits an empty one is not empty -/
theorem ne_nil (h : StreamInv noRet d L) (hfits : c.frame.size + 2 * sizeofStoreInfo ≤ storeBufMaxSize)
    (hf : d.Full c) : L ≠ [] := by
  rintro rfl
  rw [StoreDevice.full_iff h.holds] at hf
  simp only [sizeofStoreInfo, total_nil, List.length_nil] at hfits hf
  omega

/-- a record the search stops on names a frame that is accepted -/
theorem hasKey_of_search (h : StreamInv noRet d L) {pos : ℕ} (hs : d.search noRet = some (pos, some pos)) :
    d.cur.HasKey := by
  obtain ⟨j, hj, rfl, -⟩ := StoreDevice.search_slot h.holds hs
  exact h.hasKey_iff.2 ⟨j, (keyAt_iff h.holds hj).2 (searchKey_stop hs).2⟩

theorem finds_iff (h : StreamInv noRet d L) :
    Finds noRet d c ↔ (d.Full c → parseKeyFrame noRet c.frame.data 0 c.frame.size ≠ 0 → d.cur.HasKey) := by
  constructor
  · intro hfinds hf hk
    obtain ⟨pos, hs⟩ := hfinds hf hk
    exact h.hasKey_of_search hs
  · intro hkey hf hk
    obtain ⟨k, hlast⟩ := h.exists_key (hkey hf hk)
    exact ⟨_, search_last h.holds hlast⟩

/-- the frame of a call behind frames `M` -/
theorem snoc {d' : StoreDevice} {M : List Entry} {i : ℕ} (hholds : Holds d'.cur (M ++ [c.frame.entry c.ms i]))
    (hM : ∀ e ∈ M, Decided noRet e.bytes) (hc : Decided noRet (slice c.frame.data 0 c.frame.size)) :
    StreamInv noRet d' (M ++ [c.frame.entry c.ms i]) := by
  refine ⟨hholds, fun e he => ?_⟩
  rcases List.mem_append.1 he with he | he
  · exact hM e he
  · rw [List.mem_singleton.1 he]
    exact hc

theorem append (h : StreamInv noRet d L) (hc : StreamOk noRet d c) (hf : ¬ d.Full c) :
    ∃ d', d.writeFrame noRet c = some d' ∧ StreamInv noRet d' (L ++ [c.frame.entry c.ms d.frameIndex]) := by
  have hfit := hf
  rw [StoreDevice.full_iff h.holds] at hfit
  obtain ⟨d', hd, hholds, -⟩ := StoreDevice.store_holds h.holds c (by omega)
  rw [StoreDevice.writeFrame_append hf]
  exact ⟨d', hd, snoc hholds h.decided hc.decided⟩

/-- the tail fits the other buffer with the new frame, and all frames do not: some stay -/
theorem tail_pos (h : StreamInv noRet d L) (hc : StreamOk noRet d c) (hf : d.Full c)
    (hk : parseKeyFrame noRet c.frame.data 0 c.frame.size ≠ 0) {k : ℕ} (hkL : k < L.length)
    (hs : d.search noRet = some (slotPos k, some (slotPos k))) : 0 < k := by
  have hfree := hc.index hf hk
  rw [staleSlot_iff h.holds] at hfree
  obtain ⟨R, hR, -, hroom⟩ := hc.tail hf hk _ hs
  cases hR.symm.trans (tail_eq h.holds hfree hkL.le)
  rw [sizes_infos, length_infos] at hroom
  rcases Nat.eq_zero_or_pos k with rfl | hpos
  · rw [StoreDevice.full_iff h.holds] at hf
    rw [List.drop_zero] at hroom
    omega
  · exact hpos

/-- a rotation seals the frames before some frame `k`, at least one of them; the new fill goes on with the others -/
theorem rotation_split (h : StreamInv noRet d L) (hc : StreamOk noRet d c) (hf : d.Full c) :
    ∃ d' k, d.writeFrame noRet c = some d' ∧ 0 < k ∧ k ≤ L.length ∧ Image (d'.buf d.pCurStoreBuf).storeBuf (L.take k) ∧
      StreamInv noRet d' (L.drop k ++ [c.frame.entry c.ms d.frameIndex]) := by
  obtain ⟨d', M, hd, hM, hkey, hmove⟩ := rotate_holds h.holds hf ⟨hc.flag, hc.fits, h.finds_iff.2 hc.key⟩ hc.tail
  have himage := image_rotate h.holds hc.flag hf ((StoreDevice.writeFrameToBuf_of_flag_false hc.flag noRet d).trans hd)
  rw [sealedFrames, if_neg (by simp [hc.flag])] at himage
  by_cases hk : parseKeyFrame noRet c.frame.data 0 c.frame.size = 0
  · cases hkey hk
    rw [if_pos hk] at himage
    refine ⟨d', L.length, hd, List.length_pos_iff.2 (h.ne_nil hc.fits hf), le_rfl, ?_, ?_⟩
    · rw [List.take_length]
      exact himage
    · rw [List.drop_length]
      exact snoc hM (fun e he => absurd he List.not_mem_nil) hc.decided
  · obtain ⟨k, hkL, R, hs, hR, rfl⟩ := hmove hk
    have hfree := hc.index hf hk
    rw [staleSlot_iff h.holds] at hfree
    have hpos := h.tail_pos hc hf hk hkL hs
    cases (tail_eq h.holds hfree hkL.le).symm.trans hR
    rw [(h.holds.indexed.drop hkL.le).moved_infos] at hM
    rw [if_neg hk, hs] at himage
    simp only [h.holds.slotOf_slotPos hkL] at himage
    exact ⟨d', k, hd, hpos, hkL.le, himage, snoc hM (fun e he => h.decided e (List.mem_of_mem_drop he)) hc.decided⟩

theorem step (h : StreamInv noRet d L) (hc : StreamOk noRet d c) :
    ∃ d', d.writeFrameToBuf noRet c = some d' ∧ ∃ L', StreamInv noRet d' L' := by
  rw [StoreDevice.writeFrameToBuf_of_flag_false hc.flag]
  by_cases hf : d.Full c
  · obtain ⟨d', k, hd, -, -, -, hinv⟩ := h.rotation_split hc hf
    exact ⟨d', hd, _, hinv⟩
  · obtain ⟨d', hd, hinv⟩ := h.append hc hf
    exact ⟨d', hd, _, hinv⟩

end StreamInv

/-- **When a tail move finds a key frame.** From a buffer that was just created or rewound on, a run that meets
`StreamOk` goes through, and where it ends the search for any frame that fits an empty buffer returns a record iff one
of the frames in the buffer has an IDR slice. -/
theorem search_finds (noRet : ℕ → ℤ) (d : StoreDevice) (h : Holds d.cur []) (calls : List Call)
    (hok : Steps (StoreDevice.writeFrameToBuf noRet) (StreamOk noRet) d calls) :
    ∃ d', run (StoreDevice.writeFrameToBuf noRet) d calls = some d' ∧
      ∀ c : Call, Finds noRet d' c ↔
        (d'.Full c → parseKeyFrame noRet c.frame.data 0 c.frame.size ≠ 0 → d'.cur.HasKey) := by
  have hstep : ∀ d c, (∃ L, StreamInv noRet d L) → StreamOk noRet d c →
      ∃ d', d.writeFrameToBuf noRet c = some d' ∧ ∃ L, StreamInv noRet d' L := fun _ _ ⟨_, hL⟩ hc => hL.step hc
  obtain ⟨d', hd, L, hinv⟩ := run_total hstep ⟨[], h, nofun⟩ hok
  exact ⟨d', hd, fun c => hinv.finds_iff⟩

/-- the camera is met inside a group of pictures: a frame, then a key frame and another frame. The search for a frame
that fills the buffer finds the key frame. -/
theorem search_finds_joined :
    ∃ d, run (StoreDevice.writeFrameToBuf fun t => t) (addStoreDevice "" .planned (fun _ => 0) (fun _ => 0) 0)
        joinedCalls = some d ∧ d.Full (plainCall (storeBufMaxSize - 200)) ∧
      ∃ pos, d.search (fun t => t) = some (pos, some pos) := by
  set d0 := addStoreDevice "" .planned (fun _ => 0) (fun _ => 0) 0 with hd0
  have h0 : Holds d0.cur [] := addStoreDevice_holds _ _ _ _ _
  have hplain : Steps (StoreDevice.writeFrameToBuf fun t => t) (fun d c => Fits d c ∧ c.frame.size = 16 ∧
      (HasIdr (nalUnits (slice c.frame.data 0 c.frame.size)) ∨ ∀ x ∈ slice c.frame.data 0 c.frame.size, x ≠ 0))
      d0 joinedCalls := by
    decide +kernel
  have hok : Steps (StoreDevice.writeFrameToBuf fun t => t) (StreamOk fun t => t) d0 joinedCalls := by
    refine Steps.mono (fun d c ⟨⟨hflag, hf⟩, hsize, hbytes⟩ => ?_) hplain
    refine ⟨hflag, by rw [hsize]; decide, ?_, fun h => absurd h hf, fun h => absurd h hf, fun h => absurd h hf⟩
    rcases hbytes with hidr | hnz
    · exact decided_of_hasIdr hidr
    · exact decided_of_nonzero hnz (by rw [length_slice, hsize]; decide)
  have heval : (run (StoreDevice.writeFrameToBuf fun t => t) d0 joinedCalls).map
      (fun d => (d.cur.remain, decide d.cur.HasKey)) = some (storeBufMaxSize - 432, true) := by
    decide +kernel
  have hparse := parse_plain (fun t => t) (storeBufMaxSize - 200)
  obtain ⟨d, hd, hfinds⟩ := search_finds (fun t => t) d0 h0 joinedCalls hok
  rw [hd, Option.map_some, Option.some.injEq, Prod.mk.injEq, decide_eq_true_eq] at heval
  have hf : d.Full (plainCall (storeBufMaxSize - 200)) := by
    rw [StoreDevice.Full, heval.1]
    decide
  exact ⟨d, hd, hf, (hfinds _).2 (fun _ _ => heval.2) hf (by rw [hparse]; decide)⟩

/-- **The search leaves the buffer**: a stream without key frames, whose second frame fits an empty buffer but not this
one. There is no record to return, and the call faults. -/
theorem search_escapes :
    ∃ d, run (StoreDevice.writeFrameToBuf fun t => t) (addStoreDevice "" .planned (fun _ => 0) (fun _ => 0) 0)
        [plainCall 16] = some d ∧
      (plainCall (storeBufMaxSize - 200)).frame.size + 2 * sizeofStoreInfo ≤ storeBufMaxSize ∧
      d.search (fun t => t) = none ∧ d.writeFrameToBuf (fun t => t) (plainCall (storeBufMaxSize - 200)) = none ∧
      ¬ Finds (fun t => t) d (plainCall (storeBufMaxSize - 200)) := by
  have heval : (run (StoreDevice.writeFrameToBuf fun t => t) (addStoreDevice "" .planned (fun _ => 0) (fun _ => 0) 0)
      [plainCall 16]).map (fun d => (d.cur.remain, d.search fun t => t)) = some (storeBufMaxSize - 208, none) := by
    decide +kernel
  have hparse := parse_plain (fun t => t) (storeBufMaxSize - 200)
  have hne : parseKeyFrame (fun t => t) (plainCall (storeBufMaxSize - 200)).frame.data 0
      (plainCall (storeBufMaxSize - 200)).frame.size ≠ 0 := by
    rw [hparse]
    decide
  obtain ⟨d, hd, hproj⟩ := Option.map_eq_some_iff.1 heval
  rw [Prod.mk.injEq] at hproj
  obtain ⟨hremain, hsearch⟩ := hproj
  have hf : d.Full (plainCall (storeBufMaxSize - 200)) := by
    rw [StoreDevice.Full, hremain]
    decide
  refine ⟨d, hd, by decide, hsearch, ?_, fun hfinds => ?_⟩
  · rw [StoreDevice.writeFrameToBuf_of_flag_false rfl, StoreDevice.writeFrame, if_pos hf, StoreDevice.rotate,
      if_pos hne, StoreDevice.rotateMove, moveFramesToNextBuf, show searchKey _ d.cur.storeBuf _ _ = none from hsearch]
    rfl
  · obtain ⟨pos, hpos⟩ := hfinds hf hne
    rw [hsearch] at hpos
    cases hpos

end StoreService.Store
