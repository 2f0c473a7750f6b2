/-
The layout of a store buffer, and what each operation of `Device` does to it.

Abstract view of a buffer: the list of the frames it indexes, oldest first (`Entry`: bytes, time, index). `Holds b L`
says that buffer `b` is exactly the two-ended layout of `L`:
- the frames stand back to back from byte 0, and `store_offset` is their total length;
- record `k` is in slot `k` from the end, carries the head, time, index, offset and size of frame `k`;
- `store_info_offset` is the slot under the last record, and the frames end at or below it.
Bytes outside the frames and the records are arbitrary (left over from earlier fills).

Operation lemmas (each is stated on `Holds`, and says which bytes stay):
- `storeFrame_holds`: an append that fits adds one entry at the end;
- `Holds.sealed_holds`, `Holds.sealed_free`: the memset of a rotation on a key frame clears the gap and the free slot;
- `moveLoop_holds`: the copy loop writes the layout of the records it walks over (`walk`), leftovers included;
- `searchKey_slot`: the backward search stops on a record of the buffer.
-/
import StoreService.Store.Device

namespace StoreService.Store

open StoreService.ByteMem StoreService.KeyFrame

/-- address of index slot `j`, counted from the end of the buffer -/
def slotPos (j : ℕ) : ℕ := storeBufMaxSize - sizeofStoreInfo * (j + 1)

/-- one indexed frame -/
structure Entry where
  bytes : List UInt8
  time : ℕ
  idx : ℕ
deriving DecidableEq, Repr

namespace Entry

def size (e : Entry) : ℕ := e.bytes.length

/-- the record of an entry whose frame starts at `off` -/
def info (e : Entry) (off : ℕ) : StoreInfo := ⟨storeInfoHead, e.time, e.idx, off, e.size⟩

end Entry

/-- bytes taken by the frames of a list -/
def total (L : List Entry) : ℕ := (L.map Entry.size).sum

/-- `m` indexes the entries of the list from slot `j` down, their frames back to back from byte `off` up -/
def Indexed (m : Mem) : ℕ → ℕ → List Entry → Prop
  | _, _, [] => True
  | off, j, e :: L => readInfo m (slotPos j) = e.info off ∧ slice m off e.size = e.bytes ∧
      Indexed m (off + e.size) (j + 1) L

structure Holds (b : StoreBuf) (L : List Entry) : Prop where
  offset : b.storeOffset = total L
  infoOffset : b.storeInfoOffset = slotPos L.length
  room : total L + 96 * (L.length + 1) ≤ storeBufMaxSize
  indexed : Indexed b.storeBuf 0 0 L

/-! ## Sizes and slots -/

theorem maxSize_lt : storeBufMaxSize < 2 ^ 32 := by decide

@[simp] theorem total_nil : total [] = 0 := rfl

@[simp] theorem total_cons (e : Entry) (L : List Entry) : total (e :: L) = e.size + total L := rfl

@[simp] theorem total_append (L L' : List Entry) : total (L ++ L') = total L + total L' := by simp [total]

theorem slotPos_zero : slotPos 0 = storeBufMaxSize - sizeofStoreInfo := rfl

theorem slotPos_add {j : ℕ} (h : 96 * (j + 1) ≤ storeBufMaxSize) : slotPos j + 96 * (j + 1) = storeBufMaxSize := by
  simp only [slotPos, sizeofStoreInfo]; omega

theorem slotPos_zero_add : slotPos 0 + 96 = storeBufMaxSize := slotPos_add (by decide)

theorem slotPos_succ {j : ℕ} : slotPos (j + 1) = slotPos j - sizeofStoreInfo := by
  simp only [slotPos, sizeofStoreInfo]; omega

/-! ## Records -/

theorem readInfo_congr {m m' : Mem} {a b : ℕ} (h : ∀ i < 28, m (a + i) = m' (b + i)) :
    readInfo m a = readInfo m' b := by
  have part : ∀ o n, o + n ≤ 28 → readLE m (a + o) n = readLE m' (b + o) n := by
    intro o n ho
    apply readLE_congr
    intro i hi
    rw [add_assoc, add_assoc]
    exact h (o + i) (by omega)
  simp only [readInfo]
  rw [part 8 8 (by omega), part 16 4 (by omega), part 20 4 (by omega), part 24 4 (by omega)]
  rw [show readLE m a 4 = readLE m' b 4 from part 0 4 (by omega)]

theorem readInfo_sameOn {m m' : Mem} {a : ℕ} (h : SameOn m m' a 96) : readInfo m a = readInfo m' a :=
  readInfo_congr fun i hi => h (a + i) (by omega) (by omega)

/-- a record read back from its own bytes, with the fields cut to their widths -/
theorem readInfo_bytes (r : StoreInfo) :
    readInfo r.bytes 0 = ⟨r.head % 2 ^ 32, r.frameStartTime % 2 ^ 64, r.frameIdx % 2 ^ 32, r.frameOffset % 2 ^ 32,
      r.frameSize % 2 ^ 32⟩ := by
  have hw : (256 : ℕ) ^ 4 = 2 ^ 32 ∧ (256 : ℕ) ^ 8 = 2 ^ 64 := by norm_num
  have skip : ∀ (m : Mem) (a n v b k : ℕ), b + k ≤ a → readLE (writeLE m a n v) b k = readLE m b k :=
    fun m a n v b k h => readLE_sameOn (sameOn_writeLE (Or.inl h))
  simp only [readInfo, StoreInfo.bytes, zero_add]
  rw [skip _ 24 _ _ 0 4 (by omega), skip _ 20 _ _ 0 4 (by omega), skip _ 16 _ _ 0 4 (by omega),
    skip _ 8 _ _ 0 4 (by omega), skip _ 24 _ _ 8 8 (by omega), skip _ 20 _ _ 8 8 (by omega),
    skip _ 16 _ _ 8 8 (by omega), skip _ 24 _ _ 16 4 (by omega), skip _ 20 _ _ 16 4 (by omega),
    skip _ 24 _ _ 20 4 (by omega)]
  simp only [readLE_writeLE, hw.1, hw.2]

theorem readInfo_memcpy_bytes (m : Mem) (a : ℕ) (r : StoreInfo) :
    readInfo (memcpy m a r.bytes 0 96) a = readInfo r.bytes 0 := by
  apply readInfo_congr
  intro i hi
  rw [memcpy_of_mem (by omega) (by omega)]
  congr 1
  omega

/-- a memset below a record keeps its head -/
theorem head_memset {m : Mem} {a n p : ℕ} (h : a + n ≤ p) :
    (readInfo (memset m a 0 n) p).head = (readInfo m p).head := readLE_sameOn (sameOn_memset (Or.inr h))

/-- overwriting the offset field of a record -/
theorem readInfo_writeOffset (m : Mem) (a v : ℕ) :
    readInfo (writeLE m (a + 20) 4 v) a = { readInfo m a with frameOffset := v % 2 ^ 32 } := by
  have below : ∀ b k, b + k ≤ a + 20 → readLE (writeLE m (a + 20) 4 v) b k = readLE m b k :=
    fun b k h => readLE_sameOn (sameOn_writeLE (Or.inl h))
  simp only [readInfo]
  rw [below a 4 (by omega), below (a + 8) 8 (by omega), below (a + 16) 4 (by omega), readLE_writeLE,
    readLE_sameOn (sameOn_writeLE (Or.inr (show a + 20 + 4 ≤ a + 24 by omega))),
    show (256 : ℕ) ^ 4 = 2 ^ 32 by norm_num]

/-! ## Indexed lists -/

theorem indexed_append {m : Mem} {off j : ℕ} {L L' : List Entry} :
    Indexed m off j (L ++ L') ↔ Indexed m off j L ∧ Indexed m (off + total L) (j + L.length) L' := by
  induction L generalizing off j with
  | nil => simp [Indexed]
  | cons e L ih =>
    simp only [List.cons_append, Indexed, ih, total_cons, List.length_cons, and_assoc]
    rw [show off + e.size + total L = off + (e.size + total L) by omega,
      show j + 1 + L.length = j + (L.length + 1) by omega]

/-- an indexed list only depends on the bytes of its frames and of its records -/
theorem Indexed.congr {m m' : Mem} {off j : ℕ} {L : List Entry} (h : Indexed m off j L)
    (hroom : 96 * (j + L.length) ≤ storeBufMaxSize) (hf : SameOn m' m off (total L))
    (hi : SameOn m' m (storeBufMaxSize - 96 * (j + L.length)) (96 * L.length)) : Indexed m' off j L := by
  induction L generalizing off j with
  | nil => trivial
  | cons e L ih =>
    obtain ⟨h1, h2, h3⟩ := h
    simp only [List.length_cons, total_cons] at hroom hf hi
    refine ⟨?_, ?_, ih h3 (by omega) (hf.mono (by omega) (by omega)) (hi.mono (by omega) (by omega))⟩
    · rw [← h1]
      apply readInfo_sameOn
      exact hi.mono (by simp only [slotPos, sizeofStoreInfo]; omega) (by simp only [slotPos, sizeofStoreInfo]; omega)
    · rw [← h2]
      exact slice_sameOn (hf.mono le_rfl (by omega))

theorem Indexed.get {m : Mem} {off j : ℕ} {L : List Entry} (h : Indexed m off j L) (k : ℕ) (hk : k < L.length) :
    readInfo m (slotPos (j + k)) = (L[k]).info (off + total (L.take k)) ∧
      slice m (off + total (L.take k)) (L[k]).size = (L[k]).bytes := by
  induction L generalizing off j k with
  | nil => simp at hk
  | cons e L ih =>
    obtain ⟨h1, h2, h3⟩ := h
    cases k with
    | zero => exact ⟨h1, h2⟩
    | succ k =>
      have := ih h3 k (by simpa using hk)
      rwa [show j + 1 + k = j + (k + 1) by omega, add_assoc off] at this

/-! ## A buffer that holds a list -/

theorem total_take_le (L : List Entry) (k : ℕ) : total (L.take k) ≤ total L := by
  have h := congrArg total (List.take_append_drop k L)
  rw [total_append] at h
  omega

namespace Holds

variable {b : StoreBuf} {L : List Entry}

theorem infoOffset_add (h : Holds b L) : b.storeInfoOffset + 96 * (L.length + 1) = storeBufMaxSize := by
  rw [h.infoOffset]; exact slotPos_add (by have := h.room; omega)

/-- `remain` is the true distance: the uint32_t subtraction does not wrap -/
theorem remain_eq (h : Holds b L) : b.remain = b.storeInfoOffset - b.storeOffset := by
  have h1 := h.infoOffset_add
  have h2 := h.room
  have h3 := maxSize_lt
  simp only [StoreBuf.remain, u32, h.offset] at *
  omega

theorem remain_add (h : Holds b L) : b.remain + total L + 96 * (L.length + 1) = storeBufMaxSize := by
  have h1 := h.infoOffset_add
  have h2 := h.room
  rw [h.remain_eq, h.offset]
  omega

theorem info_slot (h : Holds b L) (k : ℕ) (hk : k < L.length) :
    readInfo b.storeBuf (slotPos k) = (L[k]).info (total (L.take k)) := by
  have := (h.indexed.get k hk).1
  rwa [zero_add, zero_add] at this

theorem frame_bytes (h : Holds b L) (k : ℕ) (hk : k < L.length) :
    slice b.storeBuf (total (L.take k)) (L[k]).size = (L[k]).bytes := by
  have := (h.indexed.get k hk).2
  rwa [zero_add] at this

theorem head_slot (h : Holds b L) (k : ℕ) (hk : k < L.length) :
    (readInfo b.storeBuf (slotPos k)).head = storeInfoHead := by
  rw [h.info_slot k hk]
  rfl

@[simp] theorem reset_storeBuf (b : StoreBuf) (t : ℕ) : (b.reset t).storeBuf = b.storeBuf := rfl

theorem reset_nil (b : StoreBuf) (t : ℕ) : Holds (b.reset t) [] :=
  ⟨rfl, rfl, by decide, trivial⟩

/-- changing bytes outside the frames and the records keeps the layout -/
theorem congr_mem {m : Mem} (h : Holds b L) (hf : SameOn m b.storeBuf 0 (total L))
    (hi : SameOn m b.storeBuf (storeBufMaxSize - 96 * L.length) (96 * L.length)) :
    Holds { b with storeBuf := m } L := by
  have hr := h.room
  refine ⟨h.offset, h.infoOffset, h.room, h.indexed.congr (by omega) hf ?_⟩
  simpa using hi

end Holds

/-! ## Append -/

/-- the entry an appended frame becomes -/
def Frame.entry (f : Frame) (ms idx : ℕ) : Entry := ⟨slice f.data 0 f.size, ms % 2 ^ 64, idx % 2 ^ 32⟩

theorem Frame.entry_bytes (f : Frame) (ms idx : ℕ) : (f.entry ms idx).bytes = slice f.data 0 f.size := rfl

@[simp] theorem Frame.entry_size (f : Frame) (ms idx : ℕ) : (f.entry ms idx).size = f.size := by
  simp [Frame.entry, Entry.size]

/-- **Append.** A frame that fits is added at the end of the list, and the bytes between it and its record stay. -/
theorem storeFrame_holds {b : StoreBuf} {L : List Entry} (h : Holds b L) (f : Frame) (ms idx : ℕ)
    (hfit : total L + f.size + 96 * (L.length + 2) ≤ storeBufMaxSize) :
    ∃ b', b.storeFrame f ms idx = some b' ∧ Holds b' (L ++ [f.entry ms idx]) ∧ b'.storeStartTime = b.storeStartTime ∧
      SameOn b'.storeBuf b.storeBuf (total L + f.size) (b.storeInfoOffset - (total L + f.size)) := by
  have hinfo := h.infoOffset_add
  have hmax := maxSize_lt
  have hoff := h.offset
  set o := b.storeInfoOffset
  set r : StoreInfo := ⟨storeInfoHead, ms, idx, b.storeOffset, f.size⟩
  set m1 := memcpy b.storeBuf b.storeOffset f.data 0 f.size
  set m2 := memcpy m1 o r.bytes 0 96
  have hm1 : ∀ a n, a + n ≤ total L ∨ total L + f.size ≤ a → SameOn m1 b.storeBuf a n := fun a n hn =>
    sameOn_memcpy (by rw [hoff]; exact hn)
  have hm2 : ∀ a n, a + n ≤ o ∨ o + 96 ≤ a → SameOn m2 m1 a n := fun a n hn => sameOn_memcpy hn
  refine ⟨⟨m2, b.storeSize, u32 (b.storeOffset + f.size), u32 (o + 2 ^ 32 - sizeofStoreInfo), b.storeStartTime⟩, ?_,
    ⟨?_, ?_, ?_, ?_⟩, rfl, ?_⟩
  · rw [StoreBuf.storeFrame, if_pos ⟨by omega, by simp only [sizeofStoreInfo]; omega⟩]
    rfl
  · simp only [hoff, total_append, total_cons, total_nil, Frame.entry_size, u32]
    omega
  · simp only [List.length_append, List.length_singleton, slotPos, sizeofStoreInfo, u32]
    omega
  · simp only [total_append, total_cons, total_nil, Frame.entry_size, List.length_append, List.length_singleton]
    omega
  · rw [indexed_append, zero_add, zero_add]
    refine ⟨h.indexed.congr (by omega) ?_ ?_, ?_, ?_, trivial⟩
    · exact (hm2 _ _ (by omega)).trans (hm1 _ _ (by omega))
    · exact (hm2 _ _ (by omega)).trans (hm1 _ _ (by omega))
    · -- the new record, written into the free slot
      have hslot : slotPos L.length = o := by rw [← h.infoOffset]
      rw [hslot, readInfo_memcpy_bytes, readInfo_bytes]
      simp only [Entry.info, Frame.entry, r, hoff]
      rw [Nat.mod_eq_of_lt (show storeInfoHead < 2 ^ 32 by decide), Nat.mod_eq_of_lt (show total L < 2 ^ 32 by omega),
        Nat.mod_eq_of_lt (show f.size < 2 ^ 32 by omega)]
      simp [Entry.size]
    · rw [Frame.entry_size, slice_sameOn (hm2 _ _ (by omega)), ← hoff]
      exact slice_memcpy _ _ _ _ _
  · exact (hm2 _ _ (by omega)).trans (hm1 _ _ (by omega))

/-- below the record's slot an append only writes the frame -/
theorem storeFrame_sameOn {b b' : StoreBuf} {f : Frame} {ms idx a n : ℕ} (h : b.storeFrame f ms idx = some b')
    (ha : a + n ≤ b.storeInfoOffset) : SameOn b'.storeBuf (memcpy b.storeBuf b.storeOffset f.data 0 f.size) a n := by
  rw [← Option.some.inj (Option.ite_none_right_eq_some.1 h).2]
  exact sameOn_memcpy (Or.inl ha)

/-! ## Seal -/

/-- what clearing the gap and the free slot leaves behind -/
def StoreBuf.sealed (b : StoreBuf) : StoreBuf :=
  { b with storeBuf := memset b.storeBuf b.storeOffset 0 (b.remain + sizeofStoreInfo) }

namespace Holds

variable {b : StoreBuf} {L : List Entry}

theorem sealed_top (h : Holds b L) :
    b.storeOffset + (b.remain + sizeofStoreInfo) + 96 * L.length = storeBufMaxSize := by
  have := h.remain_add
  simp only [h.offset, sizeofStoreInfo]
  omega

/-- the frames and the records are not touched by the seal -/
theorem sealed_holds (h : Holds b L) : Holds b.sealed L := by
  have htop := h.sealed_top
  apply h.congr_mem
  · exact sameOn_memset (Or.inl (by rw [h.offset]; omega))
  · exact sameOn_memset (Or.inr (by omega))

/-- the seal clears the free slot -/
theorem sealed_free (h : Holds b L) : (readInfo b.sealed.storeBuf (slotPos L.length)).head = 0 := by
  have htop := h.sealed_top
  have hslot := h.infoOffset_add
  have hroom := h.room
  rw [h.infoOffset] at hslot
  exact readLE_memset_zero (by rw [h.offset]; omega) (by omega)

end Holds

/-! ## Walks down the index -/

/-- the records a loop `while (STORE_INFO_HEAD == p->head) p--` visits from `pos`; `none` when it leaves the buffer -/
def walk (m : Mem) : ℕ → ℕ → Option (List StoreInfo)
  | 0, _ => none
  | fuel + 1, pos =>
    let r := readInfo m pos
    if r.head = storeInfoHead then
      if sizeofStoreInfo ≤ pos then (walk m fuel (pos - sizeofStoreInfo)).map (r :: ·) else none
    else some []

/-- the records of a list whose frames start at `off` -/
def infos : ℕ → List Entry → List StoreInfo
  | _, [] => []
  | off, e :: L => e.info off :: infos (off + e.size) L

/-- the entry a record of `src` becomes when it is moved -/
def StoreInfo.moved (src : Mem) (r : StoreInfo) : Entry :=
  ⟨slice src r.frameOffset r.frameSize, r.frameStartTime, r.frameIdx⟩

@[simp] theorem StoreInfo.moved_size (src : Mem) (r : StoreInfo) : (r.moved src).size = r.frameSize := by
  simp [StoreInfo.moved, Entry.size]

/-- bytes taken by the frames of a list of records -/
def sizes (R : List StoreInfo) : ℕ := (R.map StoreInfo.frameSize).sum

@[simp] theorem sizes_nil : sizes [] = 0 := rfl

@[simp] theorem sizes_cons (r : StoreInfo) (R : List StoreInfo) : sizes (r :: R) = r.frameSize + sizes R := rfl

theorem total_moved (src : Mem) (R : List StoreInfo) : total (R.map (StoreInfo.moved src)) = sizes R := by
  simp [total, sizes, Function.comp_def]

@[simp] theorem length_infos (off : ℕ) (L : List Entry) : (infos off L).length = L.length := by
  induction L generalizing off with
  | nil => rfl
  | cons e L ih => simp [infos, ih]

theorem sizes_infos (off : ℕ) (L : List Entry) : sizes (infos off L) = total L := by
  induction L generalizing off with
  | nil => rfl
  | cons e L ih => simp [infos, ih, Entry.info]

/-- moving an indexed list gives the list back -/
theorem Indexed.moved_infos {m : Mem} {off j : ℕ} {L : List Entry} (h : Indexed m off j L) :
    (infos off L).map (StoreInfo.moved m) = L := by
  induction L generalizing off j with
  | nil => rfl
  | cons e L ih =>
    obtain ⟨-, h2, h3⟩ := h
    rw [infos, List.map_cons, ih h3]
    simp [StoreInfo.moved, Entry.info, h2]

/-- a walk over an indexed list visits its records, then goes on below them -/
theorem Indexed.walk_append {m : Mem} {off j : ℕ} {L : List Entry} (h : Indexed m off j L)
    (hroom : 96 * (j + L.length + 1) ≤ storeBufMaxSize) (fuel : ℕ) :
    walk m (fuel + L.length) (slotPos j) = (walk m fuel (slotPos (j + L.length))).map (infos off L ++ ·) := by
  induction L generalizing off j with
  | nil => simp [infos]
  | cons e L ih =>
    obtain ⟨h1, -, h3⟩ := h
    simp only [List.length_cons] at hroom ⊢
    have hpos : sizeofStoreInfo ≤ slotPos j := by simp only [slotPos, sizeofStoreInfo]; omega
    rw [← add_assoc, walk, h1, if_pos (show (e.info off).head = storeInfoHead from rfl), if_pos hpos, ← slotPos_succ,
      ih h3 (by omega), show j + 1 + L.length = j + (L.length + 1) by omega, Option.map_map]
    rfl

/-! ## The tail move -/

/-- the writes of one round of the copy loop: the frame, its record, the record's offset, the next record's offset -/
def moveStep (src : Mem) (r : StoreInfo) (srcPos : ℕ) (m : Mem) (dstPos off : ℕ) : Mem :=
  writeLE (writeLE (memcpy (memcpy m off src r.frameOffset r.frameSize) dstPos src srcPos sizeofStoreInfo)
    (dstPos + 20) 4 off) (dstPos - sizeofStoreInfo + 20) 4 (off + r.frameSize)

theorem sameOn_moveStep {src m : Mem} {r : StoreInfo} {srcPos dstPos off a n : ℕ} (h96 : 96 ≤ dstPos)
    (hf : a + n ≤ off ∨ off + r.frameSize ≤ a) (hi : a + n ≤ dstPos - 76 ∨ dstPos + 96 ≤ a) :
    SameOn (moveStep src r srcPos m dstPos off) m a n := by
  simp only [moveStep, sizeofStoreInfo]
  refine (sameOn_writeLE (by omega)).trans ((sameOn_writeLE (by omega)).trans ?_)
  exact (sameOn_memcpy (by omega)).trans (sameOn_memcpy (by omega))

/-- one round adds the record's entry at the end of the destination and leaves the next frame's offset ready -/
theorem moveStep_indexed {src m : Mem} {srcPos : ℕ} {L : List Entry} (hidx : Indexed m 0 0 L)
    (hhead : (readInfo src srcPos).head = storeInfoHead)
    (hroom : total L + (readInfo src srcPos).frameSize + 96 * (L.length + 2) ≤ storeBufMaxSize) :
    Indexed (moveStep src (readInfo src srcPos) srcPos m (slotPos L.length) (total L)) 0 0
        (L ++ [(readInfo src srcPos).moved src]) ∧
      (readInfo (moveStep src (readInfo src srcPos) srcPos m (slotPos L.length) (total L))
        (slotPos (L.length + 1))).frameOffset = total L + (readInfo src srcPos).frameSize := by
  have hmax := maxSize_lt
  have hslot : slotPos L.length + 96 * (L.length + 1) = storeBufMaxSize := slotPos_add (by omega)
  have hnext : slotPos (L.length + 1) = slotPos L.length - sizeofStoreInfo := slotPos_succ
  set r := readInfo src srcPos with hr
  set p := slotPos L.length
  refine ⟨?_, ?_⟩
  · rw [indexed_append, zero_add, zero_add]
    refine ⟨hidx.congr (by omega) ?_ ?_, ?_, ?_, trivial⟩
    · exact sameOn_moveStep (by omega) (by omega) (by omega)
    · exact sameOn_moveStep (by omega) (by omega) (by omega)
    · -- the record is the source's, except for its offset
      have hcopy : ∀ m' : Mem, readInfo (memcpy m' p src srcPos sizeofStoreInfo) p = r := by
        intro m'
        apply readInfo_congr
        intro i hi
        rw [memcpy_of_mem (by omega) (by simp only [sizeofStoreInfo]; omega), Nat.add_sub_cancel_left]
      have hrec : readInfo (moveStep src r srcPos m p (total L)) p = { r with frameOffset := total L % 2 ^ 32 } := by
        rw [moveStep, readInfo_sameOn (sameOn_writeLE (by simp only [sizeofStoreInfo]; omega)), readInfo_writeOffset,
          hcopy]
      rw [hrec, Nat.mod_eq_of_lt (show total L < 2 ^ 32 by omega)]
      simp [Entry.info, Entry.size, StoreInfo.moved, ← hhead]
    · rw [StoreInfo.moved_size, moveStep, slice_sameOn (sameOn_writeLE (by simp only [sizeofStoreInfo]; omega)),
        slice_sameOn (sameOn_writeLE (by omega)), slice_sameOn (sameOn_memcpy (by omega))]
      exact slice_memcpy _ _ _ _ _
  · rw [hnext, moveStep, readInfo_writeOffset]
    exact Nat.mod_eq_of_lt (by omega)

/-- **Copy loop.** The loop appends an entry for every record it walks over, whether the record belongs to this fill of
the source or not; the bytes between the moved frames and the free slot's offset field stay. -/
theorem moveLoop_holds {src : Mem} {fuel srcPos : ℕ} {R : List StoreInfo} (hw : walk src fuel srcPos = some R)
    (hin : ∀ r ∈ R, r.frameOffset + r.frameSize ≤ storeBufMaxSize) (dst : StoreBuf) (L : List Entry)
    (hoff : dst.storeOffset = total L) (hidx : Indexed dst.storeBuf 0 0 L)
    (hnext : (readInfo dst.storeBuf (slotPos L.length)).frameOffset = total L)
    (hroom : total L + sizes R + 96 * (L.length + R.length + 1) ≤ storeBufMaxSize) :
    ∃ dst', moveLoop src fuel srcPos dst (slotPos L.length) = some (dst', slotPos (L.length + R.length)) ∧
      Holds { dst' with storeInfoOffset := slotPos (L.length + R.length) } (L ++ R.map (StoreInfo.moved src)) ∧
      dst'.storeStartTime = dst.storeStartTime ∧
      SameOn dst'.storeBuf dst.storeBuf (total L + sizes R)
        (slotPos (L.length + R.length) + 20 - (total L + sizes R)) := by
  induction fuel generalizing srcPos R dst L with
  | zero => simp [walk] at hw
  | succ fuel ih =>
    simp only [walk] at hw
    simp only [moveLoop]
    by_cases hhead : (readInfo src srcPos).head = storeInfoHead
    · rw [if_pos hhead] at hw ⊢
      by_cases hpos : sizeofStoreInfo ≤ srcPos
      · rw [if_pos hpos] at hw
        obtain ⟨R', hw', rfl⟩ := Option.map_eq_some_iff.1 hw
        have hmax := maxSize_lt
        have hr := hin (readInfo src srcPos) List.mem_cons_self
        simp only [List.length_cons, sizes_cons] at hroom ⊢
        have hslot : slotPos L.length + 96 * (L.length + 1) = storeBufMaxSize := slotPos_add (by omega)
        obtain ⟨hidx', hnext'⟩ := moveStep_indexed (L := L) hidx hhead (by omega)
        rw [hnext, if_pos ⟨by omega, hr, hpos, by simp only [sizeofStoreInfo]; omega⟩]
        obtain ⟨dst', h1, h2, h3, h4⟩ := ih hw' (fun r h => hin r (List.mem_cons_of_mem _ h))
          ⟨moveStep src (readInfo src srcPos) srcPos dst.storeBuf (slotPos L.length) (total L), dst.storeSize,
            u32 (dst.storeOffset + (readInfo src srcPos).frameSize), dst.storeInfoOffset, dst.storeStartTime⟩
          (L ++ [(readInfo src srcPos).moved src])
          (by simp only [hoff, total_append, total_cons, total_nil, StoreInfo.moved_size, u32]; omega) hidx'
          (by simpa using hnext') (by simp; omega)
        have hn : L.length + 1 + R'.length = L.length + (R'.length + 1) := by omega
        have hfree : slotPos (L.length + (R'.length + 1)) + 96 * (L.length + (R'.length + 1) + 1) = storeBufMaxSize :=
          slotPos_add (by omega)
        simp only [List.length_append, List.length_singleton, hn, total_append, total_cons, total_nil, add_zero,
          StoreInfo.moved_size, add_assoc (total L)] at h1 h2 h4
        rw [slotPos_succ] at h1
        refine ⟨dst', h1, by simpa using h2, h3, h4.trans ?_⟩
        exact sameOn_moveStep (by omega) (by omega) (by omega)
      · rw [if_neg hpos] at hw
        cases hw
    · rw [if_neg hhead] at hw ⊢
      cases hw
      exact ⟨dst, rfl, by simpa using ⟨hoff, rfl, by simpa using hroom, hidx⟩, rfl, SameOn.refl _ _ _⟩

/-- the copy loop touches neither the size nor the start time of the destination -/
theorem moveLoop_frame {src : Mem} {fuel srcPos dstPos pos : ℕ} {dst dst' : StoreBuf}
    (h : moveLoop src fuel srcPos dst dstPos = some (dst', pos)) :
    dst'.storeSize = dst.storeSize ∧ dst'.storeStartTime = dst.storeStartTime := by
  induction fuel generalizing srcPos dst dstPos with
  | zero => simp [moveLoop] at h
  | succ fuel ih =>
    simp only [moveLoop] at h
    split_ifs at h
    · exact (ih h :)
    · simp only [Option.some.injEq, Prod.mk.injEq] at h
      rw [h.1]
      exact ⟨rfl, rfl⟩

theorem moveFramesToNextBuf_frame {noRet : ℕ → ℤ} {src dst dst' : StoreBuf} {ret : Option ℕ}
    (h : moveFramesToNextBuf noRet src dst = some (dst', ret)) :
    dst'.storeSize = dst.storeSize ∧ dst'.storeStartTime = dst.storeStartTime := by
  obtain ⟨⟨stop, ret'⟩, -, hm⟩ := Option.bind_eq_some_iff.1 h
  obtain ⟨⟨b, p⟩, hl, hres⟩ := Option.map_eq_some_iff.1 hm
  rw [Prod.mk.injEq] at hres
  rw [← hres.1]
  exact (moveLoop_frame hl :)

/-- the backward search stops on a slot at or above the one it starts from, and that slot holds the record of a key
frame -/
theorem searchKey_slot {noRet : ℕ → ℤ} {m : Mem} {fuel k pos ret : ℕ} (hk : 96 * (k + 1) ≤ storeBufMaxSize)
    (h : searchKey noRet m fuel (slotPos k) = some (pos, some ret)) :
    ∃ k' ≤ k, pos = slotPos k' ∧ ret = slotPos k' ∧ (readInfo m (slotPos k')).head = storeInfoHead := by
  induction fuel generalizing k with
  | zero => simp [searchKey] at h
  | succ fuel ih =>
    have hslot := slotPos_add hk
    simp only [searchKey] at h
    rw [if_pos (by simp only [sizeofStoreInfo]; omega)] at h
    split_ifs at h with hhead hkey
    · cases k with
      | zero =>
        -- past slot 0 the search is outside the buffer
        have hout : ¬ slotPos 0 + sizeofStoreInfo + sizeofStoreInfo ≤ storeBufMaxSize := by decide
        cases fuel with
        | zero => simp [searchKey] at h
        | succ fuel => simp [searchKey, hout] at h
      | succ k =>
        have hup : slotPos (k + 1) + sizeofStoreInfo = slotPos k := by simp only [slotPos, sizeofStoreInfo]; omega
        rw [hup] at h
        obtain ⟨k', hle, hpos⟩ := ih (by omega) h
        exact ⟨k', by omega, hpos⟩
    · simp only [Option.some.injEq, Prod.mk.injEq] at h
      exact ⟨k, le_rfl, h.1.symm, h.2.symm, hhead⟩
    · simp at h

/-- a record the search returns is where it stopped, and names an accepted frame -/
theorem searchKey_stop {noRet : ℕ → ℤ} {m : Mem} {fuel start pos ret : ℕ}
    (h : searchKey noRet m fuel start = some (pos, some ret)) :
    pos = ret ∧ parseKeyFrame noRet m (readInfo m ret).frameOffset (readInfo m ret).frameSize = 0 := by
  induction fuel generalizing start with
  | zero => simp [searchKey] at h
  | succ fuel ih =>
    simp only [searchKey] at h
    split_ifs at h with hin hhead hkey
    · exact ih h
    · simp only [Option.some.injEq, Prod.mk.injEq] at h
      rw [← h.2, ← h.1]
      exact ⟨rfl, not_not.1 hkey⟩
    · simp at h

/-- **Tail move.** With a key frame found in slot `k`, the moved buffer holds the entries of the records from slot `k`
down to the first slot without the head. -/
theorem moveFramesToNextBuf_holds {noRet : ℕ → ℤ} {src : StoreBuf} (dst : StoreBuf) (t : ℕ) {k : ℕ} {R : List StoreInfo}
    (hs : searchKey noRet src.storeBuf (storeBufMaxSize / sizeofStoreInfo + 1) (src.storeInfoOffset + sizeofStoreInfo) =
      some (slotPos k, some (slotPos k)))
    (hw : walk src.storeBuf (storeBufMaxSize / sizeofStoreInfo + 1) (slotPos k) = some R)
    (hin : ∀ r ∈ R, r.frameOffset + r.frameSize ≤ storeBufMaxSize)
    (hroom : sizes R + 96 * (R.length + 1) ≤ storeBufMaxSize) :
    ∃ dst', moveFramesToNextBuf noRet src (dst.reset t) = some (dst', some (slotPos k)) ∧
      Holds dst' (R.map (StoreInfo.moved src.storeBuf)) ∧ dst'.storeStartTime = t ∧
      SameOn dst'.storeBuf dst.storeBuf (sizes R) (slotPos R.length + 20 - sizes R) := by
  have hslot : slotPos R.length + 96 * (R.length + 1) = storeBufMaxSize := slotPos_add (by omega)
  have hfirst := slotPos_zero_add
  obtain ⟨dst', h1, h2, h3, h4⟩ := moveLoop_holds hw hin
    { dst.reset t with storeBuf := writeLE dst.storeBuf (slotPos 0 + 20) 4 0 } [] rfl trivial
    (by rw [List.length_nil, readInfo_writeOffset]; rfl) (by simpa using hroom)
  simp only [List.length_nil, zero_add, total_nil, List.nil_append] at h1 h2 h3 h4
  refine ⟨{ dst' with storeInfoOffset := slotPos R.length }, ?_, h2, h3, h4.trans ?_⟩
  · rw [moveFramesToNextBuf, hs, Option.bind_some]
    show Option.map _ (moveLoop src.storeBuf _ (slotPos k) { dst.reset t with
      storeBuf := writeLE dst.storeBuf (slotPos 0 + 20) 4 0 } (slotPos 0)) = _
    rw [h1]
    rfl
  · exact sameOn_writeLE (Or.inl (by omega))

end StoreService.Store
