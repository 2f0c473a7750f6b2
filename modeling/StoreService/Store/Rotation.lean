/-
`WriteFrameToBuf` on a whole device: one lemma per branch, and the layout of the current buffer over every run.

Branch lemmas, on a device whose current buffer holds a list of frames (`Holds`):
- `store_holds`: the append at the end of every call that does not stop the recording;
- `rotateKey_eq`: the rotation on a key frame;
- `rotateMove_holds`: the rotation that moves the tail;
- `rotate_holds`: a whole call that rotates, with what the new current buffer holds.
`store_frame` and `rotate_frame` say what a call leaves alone, for any device.

Layout (`LayoutOk`): the offsets are in order, the frames of the index are pairwise disjoint and end below the free
slot, and `remain` is a true difference. After a tail move the frame is appended without a second look at the room that
is left, so the layout is kept when the moved frames leave room for it (`TailFits`) and is lost otherwise
(`layout_overrun`).
-/
import StoreService.Core.Runs
import StoreService.Store.Layout
import Mathlib.Order.CompletePartialOrder

namespace StoreService.Store

open StoreService.ByteMem StoreService.KeyFrame StoreService.Runs

/-! ## Buffers of a device -/

namespace StoreDevice

@[simp] theorem other_ne (i : BufId) : i.other ≠ i := by cases i <;> decide

@[simp] theorem ne_other (i : BufId) : i ≠ i.other := by cases i <;> decide

theorem eq_other_of_ne {i j : BufId} (h : i ≠ j) : i = j.other := by
  cases i <;> cases j <;> first | rfl | exact absurd rfl h

@[simp] theorem other_other (i : BufId) : i.other.other = i := by cases i <;> rfl

@[simp] theorem buf_setBuf (d : StoreDevice) (i : BufId) (b : StoreBuf) : (d.setBuf i b).buf i = b := by
  cases i <;> rfl

theorem buf_setBuf_of_ne (d : StoreDevice) {i j : BufId} (b : StoreBuf) (h : j ≠ i) :
    (d.setBuf i b).buf j = d.buf j := by
  cases i <;> cases j <;> first | rfl | exact absurd rfl h

/-- what holds of the new buffer and of the other one holds of each buffer -/
theorem forall_buf_setBuf {d : StoreDevice} {i : BufId} {b : StoreBuf} {P : BufId → StoreBuf → Prop} (hb : P i b)
    (h : ∀ j, j ≠ i → P j (d.buf j)) (j : BufId) : P j ((d.setBuf i b).buf j) := by
  by_cases hj : j = i
  · subst hj
    rw [buf_setBuf]
    exact hb
  · rw [buf_setBuf_of_ne d b hj]
    exact h j hj

@[simp] theorem setBuf_pCurStoreBuf (d : StoreDevice) (i : BufId) (b : StoreBuf) :
    (d.setBuf i b).pCurStoreBuf = d.pCurStoreBuf := by
  cases i <;> rfl

@[simp] theorem setBuf_pStoreBufWr (d : StoreDevice) (i : BufId) (b : StoreBuf) :
    (d.setBuf i b).pStoreBufWr = d.pStoreBufWr := by
  cases i <;> rfl

@[simp] theorem setBuf_frameIndex (d : StoreDevice) (i : BufId) (b : StoreBuf) :
    (d.setBuf i b).frameIndex = d.frameIndex := by
  cases i <;> rfl

@[simp] theorem setBuf_storePath (d : StoreDevice) (i : BufId) (b : StoreBuf) :
    (d.setBuf i b).storePath = d.storePath := by
  cases i <;> rfl

@[simp] theorem handOver_storePath (d : StoreDevice) (b next : StoreBuf) :
    (d.handOver b next).storePath = d.storePath := by
  simp [handOver]

@[simp] theorem handOver_pCurStoreBuf (d : StoreDevice) (b next : StoreBuf) :
    (d.handOver b next).pCurStoreBuf = d.pCurStoreBuf.other := rfl

@[simp] theorem handOver_pStoreBufWr (d : StoreDevice) (b next : StoreBuf) :
    (d.handOver b next).pStoreBufWr = some d.pCurStoreBuf := rfl

@[simp] theorem handOver_frameIndex (d : StoreDevice) (b next : StoreBuf) :
    (d.handOver b next).frameIndex = d.frameIndex := by
  simp [handOver]

@[simp] theorem handOver_cur (d : StoreDevice) (b next : StoreBuf) : (d.handOver b next).cur = next := by
  simp only [cur, handOver_pCurStoreBuf]
  exact buf_setBuf _ _ _

@[simp] theorem handOver_buf (d : StoreDevice) (b next : StoreBuf) : (d.handOver b next).buf d.pCurStoreBuf = b := by
  show ((d.setBuf d.pCurStoreBuf b).setBuf d.pCurStoreBuf.other next).buf d.pCurStoreBuf = b
  rw [buf_setBuf_of_ne _ _ (ne_other _), buf_setBuf]

/-! ## What a call leaves alone -/

theorem stampStart_eq (d : StoreDevice) (c : Call) :
    d.stampStart c = d.setBuf d.pCurStoreBuf
      { d.cur with storeStartTime := if d.cur.storeStartTime = 0 then c.time else d.cur.storeStartTime } := by
  unfold stampStart
  split_ifs
  · rfl
  · simp only [cur]
    cases h : d.pCurStoreBuf <;> rfl

@[simp] theorem stampStart_cur (d : StoreDevice) (c : Call) :
    (d.stampStart c).cur =
      { d.cur with storeStartTime := if d.cur.storeStartTime = 0 then c.time else d.cur.storeStartTime } := by
  rw [stampStart_eq, cur, setBuf_pCurStoreBuf, buf_setBuf]

@[simp] theorem stampStart_frameIndex (d : StoreDevice) (c : Call) : (d.stampStart c).frameIndex = d.frameIndex := by
  rw [stampStart_eq, setBuf_frameIndex]

theorem store_some {d : StoreDevice} {c : Call} {b : StoreBuf}
    (h : d.cur.storeFrame c.frame c.ms d.frameIndex = some b) : ∃ d', d.store c = some d' ∧ d'.cur = b := by
  refine ⟨{ d.setBuf d.pCurStoreBuf b with frameIndex := u32 (d.frameIndex + 1) },
    by rw [store, h, Option.map_some], ?_⟩
  show (d.setBuf d.pCurStoreBuf b).buf (d.setBuf d.pCurStoreBuf b).pCurStoreBuf = b
  rw [setBuf_pCurStoreBuf, buf_setBuf]

/-- an append keeps all but the current buffer's content and the counter -/
theorem store_fields {d d' : StoreDevice} {c : Call} (h : d.store c = some d') :
    d'.pCurStoreBuf = d.pCurStoreBuf ∧ d'.storePath = d.storePath ∧
      ∀ i, (d'.buf i).storeSize = (d.buf i).storeSize ∧ (d'.buf i).storeStartTime = (d.buf i).storeStartTime := by
  obtain ⟨b, hb, rfl⟩ := Option.map_eq_some_iff.1 h
  have hfields : b.storeSize = d.cur.storeSize ∧ b.storeStartTime = d.cur.storeStartTime := by
    rw [← Option.some.inj (Option.ite_none_right_eq_some.1 hb).2]
    exact ⟨rfl, rfl⟩
  refine ⟨by simp, by simp, fun i => ?_⟩
  exact forall_buf_setBuf
    (P := fun j b => b.storeSize = (d.buf j).storeSize ∧ b.storeStartTime = (d.buf j).storeStartTime) hfields
    (fun _ _ => ⟨rfl, rfl⟩) i

/-- an append touches the current buffer and the frame counter only -/
theorem store_frame {d d' : StoreDevice} {c : Call} (h : (d.stampStart c).store c = some d') :
    d'.pCurStoreBuf = d.pCurStoreBuf ∧ d'.pStoreBufWr = d.pStoreBufWr ∧ d'.frameIndex = u32 (d.frameIndex + 1) ∧
      d'.buf d.pCurStoreBuf.other = d.buf d.pCurStoreBuf.other ∧ d'.storePath = d.storePath := by
  rw [stampStart_eq] at h
  obtain ⟨b, -, rfl⟩ := Option.map_eq_some_iff.1 h
  refine ⟨by simp, by simp, by simp, ?_, by simp⟩
  simp only [setBuf_pCurStoreBuf]
  show ((d.setBuf _ _).setBuf _ b).buf _ = _
  rw [buf_setBuf_of_ne _ _ (other_ne _), buf_setBuf_of_ne _ _ (other_ne _)]

theorem rotateKey_some {d d' : StoreDevice} {c : Call} (h : d.rotateKey c = some d') :
    d.cur.storeOffset + (d.cur.remain + sizeofStoreInfo) ≤ storeBufMaxSize ∧
      d' = d.handOver d.cur.sealed ((d.buf d.pCurStoreBuf.other).reset c.time) := by
  obtain ⟨hle, h⟩ := Option.ite_none_right_eq_some.1 h
  exact ⟨hle, (Option.some.inj h).symm⟩

/-- the search of a tail move, over the index of the current buffer -/
def search (noRet : ℕ → ℤ) (d : StoreDevice) : Option (ℕ × Option ℕ) :=
  searchKey noRet d.cur.storeBuf (storeBufMaxSize / sizeofStoreInfo + 1) (d.cur.storeInfoOffset + sizeofStoreInfo)

/-- a tail move that returns has found a record, and clears from the record's frame to the record -/
theorem rotateMove_some {noRet : ℕ → ℤ} {d d' : StoreDevice} {c : Call} (h : d.rotateMove noRet c = some d') :
    ∃ pos next, d.search noRet = some (pos, some pos) ∧
      (readInfo d.cur.storeBuf pos).frameOffset ≤ pos + sizeofStoreInfo ∧
      moveFramesToNextBuf noRet d.cur ((d.buf d.pCurStoreBuf.other).reset c.time) = some (next, some pos) ∧
      d' = d.handOver
        { d.cur with
          storeBuf := memset d.cur.storeBuf (readInfo d.cur.storeBuf pos).frameOffset 0
            (pos + sizeofStoreInfo - (readInfo d.cur.storeBuf pos).frameOffset) }
        next := by
  obtain ⟨⟨next, ret⟩, hm, h⟩ := Option.bind_eq_some_iff.1 h
  obtain ⟨pos, rfl, h⟩ := Option.bind_eq_some_iff.1 h
  obtain ⟨hle, h⟩ := Option.ite_none_right_eq_some.1 h
  obtain ⟨⟨stop, ret'⟩, hs, hm'⟩ := Option.bind_eq_some_iff.1 hm
  obtain ⟨_, _, hres⟩ := Option.map_eq_some_iff.1 hm'
  rw [Prod.mk.injEq] at hres
  obtain rfl : ret' = some pos := hres.2
  obtain ⟨rfl, -⟩ := searchKey_stop hs
  exact ⟨stop, next, hs, hle, hm, (Option.some.inj h).symm⟩

/-- a rotation is a hand-over of the current buffer -/
theorem rotate_frame {noRet : ℕ → ℤ} {d d' : StoreDevice} {c : Call} (h : d.rotate noRet c = some d') :
    ∃ m next, d' = d.handOver { d.cur with storeBuf := m } next := by
  unfold rotate at h
  split_ifs at h
  · obtain ⟨pos, next, -, -, -, rfl⟩ := rotateMove_some h
    exact ⟨_, _, rfl⟩
  · obtain ⟨-, rfl⟩ := rotateKey_some h
    exact ⟨_, _, rfl⟩

theorem writeFrame_rotates {noRet : ℕ → ℤ} {d d' : StoreDevice} {c : Call} (hf : d.Full c)
    (h : d.writeFrame noRet c = some d') :
    ∃ d1, d.rotate noRet c = some d1 ∧ (d1.stampStart c).store c = some d' ∧ d'.pCurStoreBuf = d.pCurStoreBuf.other ∧
      d'.pStoreBufWr = some d.pCurStoreBuf ∧ d'.buf d.pCurStoreBuf = d1.buf d.pCurStoreBuf := by
  rw [writeFrame, if_pos hf] at h
  obtain ⟨d1, hd1, hs⟩ := Option.bind_eq_some_iff.1 h
  obtain ⟨m, next, rfl⟩ := rotate_frame hd1
  obtain ⟨hcur, hwr, -, hbuf, -⟩ := store_frame hs
  rw [handOver_pCurStoreBuf, other_other] at hbuf
  exact ⟨_, hd1, hs, hcur, hwr, hbuf⟩

/-! ## Sizes and start times -/

theorem store_storeSize {d d' : StoreDevice} {c : Call} (h : (d.stampStart c).store c = some d') (i : BufId) :
    (d'.buf i).storeSize = (d.buf i).storeSize := by
  rw [((store_fields h).2.2 i).1, stampStart_eq]
  refine forall_buf_setBuf (P := fun j b => b.storeSize = (d.buf j).storeSize) ?_ (fun _ _ => rfl) i
  rfl

theorem rotate_storeSize {noRet : ℕ → ℤ} {d d' : StoreDevice} {c : Call} (h : d.rotate noRet c = some d') (i : BufId) :
    (d'.buf i).storeSize = (d.buf i).storeSize := by
  have key : ∀ m next, next.storeSize = (d.buf d.pCurStoreBuf.other).storeSize →
      ((d.handOver { d.cur with storeBuf := m } next).buf i).storeSize = (d.buf i).storeSize := by
    intro m next hnext
    refine forall_buf_setBuf (P := fun j b => b.storeSize = (d.buf j).storeSize) hnext (fun j _ => ?_) i
    refine forall_buf_setBuf (P := fun j b => b.storeSize = (d.buf j).storeSize) ?_ (fun _ _ => rfl) j
    rfl
  unfold rotate at h
  split_ifs at h
  · obtain ⟨pos, next, -, -, hm, rfl⟩ := rotateMove_some h
    exact key _ _ (moveFramesToNextBuf_frame hm).1
  · obtain ⟨-, rfl⟩ := rotateKey_some h
    exact key _ _ rfl

theorem rotate_start {noRet : ℕ → ℤ} {d d' : StoreDevice} {c : Call} (h : d.rotate noRet c = some d') :
    d'.cur.storeStartTime = c.time ∧ (d'.buf d.pCurStoreBuf).storeStartTime = d.cur.storeStartTime := by
  unfold rotate at h
  split_ifs at h
  · obtain ⟨pos, next, -, -, hm, rfl⟩ := rotateMove_some h
    rw [handOver_cur, handOver_buf]
    exact ⟨(moveFramesToNextBuf_frame hm).2, rfl⟩
  · obtain ⟨-, rfl⟩ := rotateKey_some h
    rw [handOver_cur, handOver_buf]
    exact ⟨rfl, rfl⟩

theorem store_start {d d' : StoreDevice} {c : Call} (h : (d.stampStart c).store c = some d') :
    d'.cur.storeStartTime = if d.cur.storeStartTime = 0 then c.time else d.cur.storeStartTime := by
  obtain ⟨hcur, -, hfields⟩ := store_fields h
  rw [cur, hcur, (hfields _).2]
  exact congrArg StoreBuf.storeStartTime (stampStart_cur d c)

theorem writeFrame_storeSize {noRet : ℕ → ℤ} {d d' : StoreDevice} {c : Call} (h : d.writeFrame noRet c = some d')
    (i : BufId) : (d'.buf i).storeSize = (d.buf i).storeSize := by
  by_cases hf : d.Full c
  · obtain ⟨d1, hd1, hs, -⟩ := writeFrame_rotates hf h
    rw [store_storeSize hs, rotate_storeSize hd1]
  · rw [writeFrame, if_neg hf, Option.bind_some] at h
    exact store_storeSize h i

/-! ## Branches -/

theorem writeFrameToBuf_of_flag_false {c : Call} (h : c.flag = false) (noRet : ℕ → ℤ) (d : StoreDevice) :
    d.writeFrameToBuf noRet c = d.writeFrame noRet c := by
  rw [writeFrameToBuf, if_neg (by simp [h])]

/-- the test of the source, on the abstract list -/
theorem full_iff {d : StoreDevice} {L : List Entry} (h : Holds d.cur L) (c : Call) :
    d.Full c ↔ storeBufMaxSize < total L + c.frame.size + 96 * (L.length + 2) := by
  have := h.remain_add
  simp only [Full, sizeofStoreInfo]
  omega

theorem store_holds {d : StoreDevice} {L : List Entry} (h : Holds d.cur L) (c : Call)
    (hfit : total L + c.frame.size + 96 * (L.length + 2) ≤ storeBufMaxSize) :
    ∃ d', (d.stampStart c).store c = some d' ∧ Holds d'.cur (L ++ [c.frame.entry c.ms d.frameIndex]) ∧
      SameOn d'.cur.storeBuf d.cur.storeBuf (total L + c.frame.size)
        (d.cur.storeInfoOffset - (total L + c.frame.size)) := by
  have hb : Holds (d.stampStart c).cur L := by
    rw [stampStart_cur]
    exact ⟨h.offset, h.infoOffset, h.room, h.indexed⟩
  obtain ⟨b', h1, h2, -, h4⟩ := storeFrame_holds hb c.frame c.ms (d.stampStart c).frameIndex hfit
  obtain ⟨d', hd', rfl⟩ := store_some h1
  rw [stampStart_cur] at h4
  rw [stampStart_frameIndex] at h2
  exact ⟨d', hd', h2, h4⟩

/-- the offsets after an append that stays inside the allocation, whether the frame and its record collide or not -/
theorem store_offsets {d : StoreDevice} {c : Call} (h1 : d.cur.storeOffset + c.frame.size ≤ storeBufMaxSize)
    (h2 : d.cur.storeInfoOffset + sizeofStoreInfo ≤ storeBufMaxSize) :
    ∃ d', (d.stampStart c).store c = some d' ∧ d'.cur.storeOffset = u32 (d.cur.storeOffset + c.frame.size) ∧
      d'.cur.storeInfoOffset = u32 (d.cur.storeInfoOffset + 2 ^ 32 - sizeofStoreInfo) := by
  obtain ⟨b, hb, hoff, hio⟩ : ∃ b, (d.stampStart c).cur.storeFrame c.frame c.ms (d.stampStart c).frameIndex = some b ∧
      b.storeOffset = u32 (d.cur.storeOffset + c.frame.size) ∧
      b.storeInfoOffset = u32 (d.cur.storeInfoOffset + 2 ^ 32 - sizeofStoreInfo) := by
    rw [stampStart_cur, StoreBuf.storeFrame, if_pos ⟨h1, h2⟩]
    exact ⟨_, rfl, rfl, rfl⟩
  obtain ⟨d', hd', rfl⟩ := store_some hb
  exact ⟨d', hd', hoff, hio⟩

theorem rotateKey_eq {d : StoreDevice} {L : List Entry} (h : Holds d.cur L) (c : Call) :
    d.rotateKey c = some (d.handOver d.cur.sealed ((d.buf d.pCurStoreBuf.other).reset c.time)) := by
  have := h.sealed_top
  rw [rotateKey, if_pos (by omega)]
  rfl

/-- the records a tail move from the record at `pos` copies -/
def tail (d : StoreDevice) (pos : ℕ) : Option (List StoreInfo) :=
  walk d.cur.storeBuf (storeBufMaxSize / sizeofStoreInfo + 1) pos

/-- what a search finds is the record of a frame the buffer holds -/
theorem search_slot {noRet : ℕ → ℤ} {d : StoreDevice} {L : List Entry} (h : Holds d.cur L) {pos ret : ℕ}
    (hs : d.search noRet = some (pos, some ret)) : ∃ k < L.length, pos = slotPos k ∧ ret = slotPos k := by
  have hinfo := h.infoOffset_add
  have hroom := h.room
  cases hL : L.length with
  | zero =>
    have hout : ¬ d.cur.storeInfoOffset + sizeofStoreInfo + sizeofStoreInfo ≤ storeBufMaxSize := by
      simp only [sizeofStoreInfo]; omega
    simp [search, searchKey, hout] at hs
  | succ n =>
    have hpos : d.cur.storeInfoOffset + sizeofStoreInfo = slotPos n := by
      simp only [slotPos, sizeofStoreInfo]; omega
    rw [search, hpos] at hs
    obtain ⟨k, hk, h1, h2, -⟩ := searchKey_slot (by omega) hs
    exact ⟨k, by omega, h1, h2⟩

theorem rotateMove_holds {noRet : ℕ → ℤ} {d : StoreDevice} {L : List Entry} (h : Holds d.cur L) (c : Call) {k : ℕ}
    (hk : k < L.length) (hs : d.search noRet = some (slotPos k, some (slotPos k))) {R : List StoreInfo}
    (hw : d.tail (slotPos k) = some R) (hin : ∀ r ∈ R, r.frameOffset + r.frameSize ≤ storeBufMaxSize)
    (hroom : sizes R + 96 * (R.length + 1) ≤ storeBufMaxSize) :
    ∃ next, d.rotateMove noRet c = some (d.handOver
        { d.cur with
          storeBuf := memset d.cur.storeBuf (total (L.take k)) 0 (slotPos k + sizeofStoreInfo - total (L.take k)) }
        next) ∧
      Holds next (R.map (StoreInfo.moved d.cur.storeBuf)) ∧ next.storeStartTime = c.time ∧
      SameOn next.storeBuf (d.buf d.pCurStoreBuf.other).storeBuf (sizes R) (slotPos R.length + 20 - sizes R) := by
  obtain ⟨next, h1, h2, h3, h4⟩ :=
    moveFramesToNextBuf_holds (d.buf d.pCurStoreBuf.other) c.time hs hw hin hroom
  have hL := h.room
  have hslot : slotPos k + 96 * (k + 1) = storeBufMaxSize := slotPos_add (by omega)
  have hoff : (readInfo d.cur.storeBuf (slotPos k)).frameOffset = total (L.take k) := by
    rw [h.info_slot k hk, Entry.info]
  have hle := total_take_le L k
  refine ⟨next, ?_, h2, h3, h4⟩
  simp only [rotateMove, h1, Option.bind_some, hoff]
  rw [if_pos (by simp only [sizeofStoreInfo]; omega)]

theorem writeFrame_append {noRet : ℕ → ℤ} {d : StoreDevice} {c : Call} (hf : ¬ d.Full c) :
    d.writeFrame noRet c = (d.stampStart c).store c := by
  rw [writeFrame, if_neg hf, Option.bind_some]

theorem writeFrame_key {noRet : ℕ → ℤ} {d : StoreDevice} {c : Call} {L : List Entry} (h : Holds d.cur L) (hf : d.Full c)
    (hk : parseKeyFrame noRet c.frame.data 0 c.frame.size = 0) :
    d.writeFrame noRet c =
      ((d.handOver d.cur.sealed ((d.buf d.pCurStoreBuf.other).reset c.time)).stampStart c).store c := by
  rw [writeFrame, if_pos hf, rotate, if_neg (by simpa using hk), rotateKey_eq h, Option.bind_some]

theorem writeFrame_move {noRet : ℕ → ℤ} {d d' : StoreDevice} {c : Call} (hf : d.Full c)
    (hk : parseKeyFrame noRet c.frame.data 0 c.frame.size ≠ 0) (hr : d.rotateMove noRet c = some d') :
    d.writeFrame noRet c = (d'.stampStart c).store c := by
  rw [writeFrame, if_pos hf, rotate, if_pos hk, hr, Option.bind_some]

end StoreDevice

/-! ## Stop flushes -/

namespace StoreDevice

theorem stopReset_cur (d : StoreDevice) : d.stopReset.cur = d.cur.reset 0 := by
  show (d.setBuf d.pCurStoreBuf (d.cur.reset 0)).buf (d.setBuf d.pCurStoreBuf (d.cur.reset 0)).pCurStoreBuf = _
  rw [setBuf_pCurStoreBuf, buf_setBuf]

/-- a flush hands over the current buffer and keeps what is not content -/
theorem stopSeal_frame {d d' : StoreDevice} {c : Call} (h : d.stopSeal c = some d') :
    d'.pCurStoreBuf = d.pCurStoreBuf ∧ d'.pStoreBufWr = some d.pCurStoreBuf ∧ d'.storePath = d.storePath ∧
      ∀ i, (d'.buf i).storeSize = (d.buf i).storeSize ∧ (d'.buf i).storeStartTime = (d.buf i).storeStartTime := by
  obtain ⟨d1, hd1, h⟩ := Option.bind_eq_some_iff.1 h
  have h1 : d1.pCurStoreBuf = d.pCurStoreBuf ∧ d1.storePath = d.storePath ∧
      ∀ i, (d1.buf i).storeSize = (d.buf i).storeSize ∧ (d1.buf i).storeStartTime = (d.buf i).storeStartTime := by
    split_ifs at hd1
    · cases hd1
      exact ⟨rfl, rfl, fun _ => ⟨rfl, rfl⟩⟩
    · exact store_fields hd1
  rw [← Option.some.inj (Option.ite_none_right_eq_some.1 h).2]
  refine ⟨?_, congrArg some h1.1, ?_, fun i => ?_⟩
  · exact (setBuf_pCurStoreBuf _ _ _).trans h1.1
  · exact (setBuf_storePath _ _ _).trans h1.2.1
  · rw [← (h1.2.2 i).1, ← (h1.2.2 i).2]
    refine forall_buf_setBuf
      (P := fun j b => b.storeSize = (d1.buf j).storeSize ∧ b.storeStartTime = (d1.buf j).storeStartTime)
      ?_ (fun _ _ => ⟨rfl, rfl⟩) i
    exact ⟨rfl, rfl⟩

/-- a flush whose frame does not fit clears the gap and the free slot -/
theorem stopSeal_full {d d' : StoreDevice} {c : Call} (hf : d.Full c) (h : d.stopSeal c = some d') :
    d'.cur.storeBuf = memset d.cur.storeBuf d.cur.storeOffset 0 (d.cur.remain + sizeofStoreInfo) := by
  rw [stopSeal, if_pos hf, Option.bind_some] at h
  rw [← Option.some.inj (Option.ite_none_right_eq_some.1 h).2]
  show ((d.setBuf d.pCurStoreBuf _).buf (d.setBuf d.pCurStoreBuf _).pCurStoreBuf).storeBuf = _
  rw [setBuf_pCurStoreBuf, buf_setBuf]

/-- a flush whose frame fits appends it, then clears from the new offset on over the old length -/
theorem stopSeal_fits {d d' : StoreDevice} {c : Call} (hf : ¬ d.Full c) (h : d.stopSeal c = some d') :
    ∃ b, d.cur.storeFrame c.frame c.ms d.frameIndex = some b ∧
      d'.cur.storeBuf = memset b.storeBuf b.storeOffset 0 (d.cur.remain + sizeofStoreInfo) ∧
      b.storeOffset + (d.cur.remain + sizeofStoreInfo) ≤ storeBufMaxSize := by
  rw [stopSeal, if_neg hf] at h
  obtain ⟨d1, hd1, h⟩ := Option.bind_eq_some_iff.1 h
  obtain ⟨b, hb, -⟩ := Option.map_eq_some_iff.1 hd1
  obtain ⟨d1', hd1', hcur⟩ := store_some hb
  cases hd1'.symm.trans hd1
  obtain ⟨hle, h⟩ := Option.ite_none_right_eq_some.1 h
  refine ⟨b, hb, ?_, by rw [← hcur]; exact hle⟩
  rw [← Option.some.inj h]
  show ((d1.setBuf d1.pCurStoreBuf _).buf (d1.setBuf d1.pCurStoreBuf _).pCurStoreBuf).storeBuf = _
  rw [setBuf_pCurStoreBuf, buf_setBuf, hcur]

/-- the same on a buffer that holds frames: the memset starts behind the new frame and ends that much further up -/
theorem stopSeal_appends {d d' : StoreDevice} {c : Call} {L : List Entry} (h : Holds d.cur L) (hf : ¬ d.Full c)
    (hd : d.stopSeal c = some d') :
    ∃ b, d.cur.storeFrame c.frame c.ms d.frameIndex = some b ∧ Holds b (L ++ [c.frame.entry c.ms d.frameIndex]) ∧
      d'.cur.storeBuf = memset b.storeBuf (total L + c.frame.size) 0 (d.cur.remain + sizeofStoreInfo) ∧
      total L + c.frame.size + (d.cur.remain + sizeofStoreInfo) =
        d.cur.storeInfoOffset + c.frame.size + sizeofStoreInfo ∧
      d.cur.storeInfoOffset + c.frame.size + sizeofStoreInfo ≤ storeBufMaxSize := by
  have hinfo := h.infoOffset_add
  have hremain := h.remain_add
  obtain ⟨b, hb, hmem, hle⟩ := stopSeal_fits hf hd
  rw [full_iff h] at hf
  obtain ⟨b', hb', hholds, -, -⟩ := storeFrame_holds h c.frame c.ms d.frameIndex (by omega)
  cases hb'.symm.trans hb
  have hoff : b.storeOffset = total L + c.frame.size := by
    rw [hholds.offset]
    simp
  rw [hoff] at hmem hle
  exact ⟨b, hb, hholds, hmem, by omega, by omega⟩

end StoreDevice

/-! ## The layout invariant -/

/-- the bytes of a record's frame -/
def StoreInfo.range (r : StoreInfo) : Set ℕ := Set.Ico r.frameOffset (r.frameOffset + r.frameSize)

/-- the number of records above the free slot -/
def StoreBuf.numInfos (b : StoreBuf) : ℕ := (storeBufMaxSize - sizeofStoreInfo - b.storeInfoOffset) / sizeofStoreInfo

/-- record `j` of a buffer -/
def StoreBuf.info (b : StoreBuf) (j : ℕ) : StoreInfo := readInfo b.storeBuf (slotPos j)

structure LayoutOk (b : StoreBuf) : Prop where
  ordered : b.storeOffset ≤ b.storeInfoOffset
  inBuf : b.storeInfoOffset ≤ storeBufMaxSize - sizeofStoreInfo
  disjoint : ∀ i j, i < j → j < b.numInfos → Disjoint (b.info i).range (b.info j).range
  below : ∀ j < b.numInfos, ∀ x ∈ (b.info j).range, x < b.storeInfoOffset
  noWrap : b.remain + b.storeOffset = b.storeInfoOffset

theorem total_take_succ {L : List Entry} {k : ℕ} (hk : k < L.length) :
    total (L.take (k + 1)) = total (L.take k) + (L[k]).size := by
  rw [← List.take_concat_get' L k hk, total_append, total_cons, total_nil, add_zero]

theorem total_take_mono (L : List Entry) {i j : ℕ} (h : i ≤ j) : total (L.take i) ≤ total (L.take j) := by
  have := total_take_le (L.take j) i
  rwa [List.take_take, min_eq_left h] at this

theorem Holds.layoutOk {b : StoreBuf} {L : List Entry} (h : Holds b L) : LayoutOk b := by
  have hinfo := h.infoOffset_add
  have hroom := h.room
  have hn : b.numInfos = L.length := by
    simp only [StoreBuf.numInfos, sizeofStoreInfo]; omega
  have hrange : ∀ j (hj : j < L.length),
      (b.info j).range = Set.Ico (total (L.take j)) (total (L.take (j + 1))) := by
    intro j hj
    rw [StoreBuf.info, h.info_slot j hj, StoreInfo.range, total_take_succ hj]
    rfl
  refine ⟨?_, ?_, ?_, ?_, ?_⟩
  · rw [h.offset]; omega
  · simp only [sizeofStoreInfo]; omega
  · intro i j hij hj
    rw [hn] at hj
    rw [hrange i (by omega), hrange j hj, Set.disjoint_left]
    intro x hx hx'
    have := total_take_mono L (show i + 1 ≤ j by omega)
    simp only [Set.mem_Ico] at hx hx'
    omega
  · intro j hj x hx
    rw [hn] at hj
    rw [hrange j hj, Set.mem_Ico] at hx
    have := total_take_le L (j + 1)
    omega
  · rw [h.remain_eq, h.offset]; omega

/-- a call the recorder may make: it does not stop the recording, its frame fits an empty buffer, and a rotation on a
frame that is no key frame finds a key frame to move -/
structure Admissible (noRet : ℕ → ℤ) (d : StoreDevice) (c : Call) : Prop where
  flag : c.flag = false
  fits : c.frame.size + 2 * sizeofStoreInfo ≤ storeBufMaxSize
  finds : d.Full c → parseKeyFrame noRet c.frame.data 0 c.frame.size ≠ 0 → ∃ pos, d.search noRet = some (pos, some pos)

/-- the frames a tail move copies are in the buffer, and leave room for the new frame and for its record in an empty
one -/
def TailFits (noRet : ℕ → ℤ) (d : StoreDevice) (c : Call) : Prop :=
  d.Full c → parseKeyFrame noRet c.frame.data 0 c.frame.size ≠ 0 → ∀ pos, d.search noRet = some (pos, some pos) →
    ∃ R, d.tail pos = some R ∧ (∀ r ∈ R, r.frameOffset + r.frameSize ≤ storeBufMaxSize) ∧
      sizes R + c.frame.size + 96 * (R.length + 2) ≤ storeBufMaxSize

/-- a rotation that can be made: the other buffer holds the frames the tail move has copied, if it was one, and the new
frame -/
theorem rotate_holds {noRet : ℕ → ℤ} {d : StoreDevice} {c : Call} {L : List Entry} (h : Holds d.cur L) (hf : d.Full c)
    (ha : Admissible noRet d c) (ht : TailFits noRet d c) :
    ∃ d' M, d.writeFrame noRet c = some d' ∧ Holds d'.cur (M ++ [c.frame.entry c.ms d.frameIndex]) ∧
      (parseKeyFrame noRet c.frame.data 0 c.frame.size = 0 → M = []) ∧
      (parseKeyFrame noRet c.frame.data 0 c.frame.size ≠ 0 → ∃ k < L.length, ∃ R,
        d.search noRet = some (slotPos k, some (slotPos k)) ∧ d.tail (slotPos k) = some R ∧
          M = R.map (StoreInfo.moved d.cur.storeBuf)) := by
  have hfits := ha.fits
  simp only [sizeofStoreInfo] at hfits
  by_cases hk : parseKeyFrame noRet c.frame.data 0 c.frame.size = 0
  · obtain ⟨d', h1, h2, -⟩ := StoreDevice.store_holds (L := []) (c := c)
      (d := d.handOver d.cur.sealed ((d.buf d.pCurStoreBuf.other).reset c.time))
      (by rw [StoreDevice.handOver_cur]; exact Holds.reset_nil _ _) (by simp; omega)
    rw [StoreDevice.handOver_frameIndex] at h2
    exact ⟨d', [], by rw [StoreDevice.writeFrame_key h hf hk, h1], h2, fun _ => rfl, fun hne => absurd hk hne⟩
  · obtain ⟨pos, hs⟩ := ha.finds hf hk
    obtain ⟨k, hkL, rfl, -⟩ := StoreDevice.search_slot h hs
    obtain ⟨R, hw, hin, hroom⟩ := ht hf hk _ hs
    obtain ⟨next, h1, h2, -, -⟩ := StoreDevice.rotateMove_holds h c hkL hs hw hin (by omega)
    set d1 := d.handOver { d.cur with
      storeBuf := memset d.cur.storeBuf (total (L.take k)) 0 (slotPos k + sizeofStoreInfo - total (L.take k)) } next
    obtain ⟨d', h3, h4, -⟩ := StoreDevice.store_holds (d := d1) (c := c) (by rw [StoreDevice.handOver_cur]; exact h2)
      (by rw [total_moved, List.length_map]; exact hroom)
    rw [StoreDevice.handOver_frameIndex] at h4
    exact ⟨d', _, by rw [StoreDevice.writeFrame_move hf hk h1, h3], h4, fun h0 => absurd h0 hk,
      fun _ => ⟨k, hkL, R, hs, hw, rfl⟩⟩

/-- one call keeps the layout -/
theorem writeFrame_holds {noRet : ℕ → ℤ} {d : StoreDevice} {c : Call} {L : List Entry} (h : Holds d.cur L)
    (ha : Admissible noRet d c) (ht : TailFits noRet d c) :
    ∃ d', d.writeFrame noRet c = some d' ∧ ∃ L', Holds d'.cur L' := by
  by_cases hf : d.Full c
  · obtain ⟨d', M, hd', hM, -, -⟩ := rotate_holds h hf ha ht
    exact ⟨d', hd', _, hM⟩
  · rw [StoreDevice.writeFrame_append hf]
    obtain ⟨d', h1, h2, -⟩ := StoreDevice.store_holds h c (by rw [StoreDevice.full_iff h] at hf; omega)
    exact ⟨d', h1, _, h2⟩

theorem addStoreDevice_holds (path : String) (type : RecodeType) (ping pong : Mem) (pongStart : ℕ) :
    Holds (addStoreDevice path type ping pong pongStart).cur [] :=
  ⟨rfl, rfl, by decide, trivial⟩

/-- **Layout.** From the state `AddStoreDevice` builds, on buffers with any content: if every frame fits an empty
buffer, every rotation on another frame finds a key frame, and the frames it moves leave room for the new one, then
every call returns and leaves the current buffer laid out. -/
theorem layout_kept (noRet : ℕ → ℤ) (path : String) (type : RecodeType) (ping pong : Mem) (pongStart : ℕ)
    (calls : List Call)
    (h : Steps (StoreDevice.writeFrameToBuf noRet) (fun d c => Admissible noRet d c ∧ TailFits noRet d c)
      (addStoreDevice path type ping pong pongStart) calls) :
    ∃ d, run (StoreDevice.writeFrameToBuf noRet) (addStoreDevice path type ping pong pongStart) calls = some d ∧
      LayoutOk d.cur := by
  have step : ∀ d c, (∃ L, Holds d.cur L) → Admissible noRet d c ∧ TailFits noRet d c →
      ∃ d', d.writeFrameToBuf noRet c = some d' ∧ ∃ L, Holds d'.cur L := by
    rintro d c ⟨L, hL⟩ ⟨ha, ht⟩
    rw [StoreDevice.writeFrameToBuf_of_flag_false ha.flag]
    exact writeFrame_holds hL ha ht
  obtain ⟨d, hr, L, hL⟩ := run_total step ⟨[], addStoreDevice_holds path type ping pong pongStart⟩ h
  exact ⟨d, hr, hL.layoutOk⟩

/-! ## A run that loses the layout -/

/-- an IDR slice behind a four-byte start code, then zeros -/
def idrData : Mem := fun i => if i = 3 then 1 else if i = 4 then 0x65 else 0

/-- a call with a key frame of the given size -/
def idrCall (size : ℕ) : Call := ⟨⟨idrData, size⟩, false, 1, 1, 0⟩

/-- a call with a frame of zeros: no start code, no key frame -/
def zeroCall (size : ℕ) : Call := ⟨⟨fun _ => 0, size⟩, false, 1, 1, 0⟩

theorem parse_idrData (noRet : ℕ → ℤ) {m : Mem} {data size : ℕ} (hs : 0 < size)
    (h : ∀ i < 5, m (data + i) = idrData i) : parseKeyFrame noRet m data size = 0 := by
  apply parseKeyFrame_idr noRet m data size hs
  · have hload : readLE m data 4 = readLE idrData 0 4 :=
      readLE_congr 4 fun i hi => by rw [h i (by omega), zero_add]
    rw [hload]
    decide
  · rw [h 4 (by omega)]
    decide

theorem parse_idrCall (noRet : ℕ → ℤ) {n : ℕ} (hn : 0 < n) :
    parseKeyFrame noRet (idrCall n).frame.data 0 (idrCall n).frame.size = 0 :=
  parse_idrData noRet hn fun i _ => by simp only [idrCall, zero_add]

theorem parse_zero (noRet : ℕ → ℤ) (size : ℕ) : parseKeyFrame noRet (fun _ => 0) 0 size = noRet size := by
  have hz : ∀ a, readLE (fun _ => 0) a 4 = 0 := fun a => by simp [readLE]
  exact parseKeyFrame_no_code noRet _ _ _ fun i _ => by rw [hz]; decide

/-- what a tail move to an empty buffer needs, as far as the new frame itself is not looked at -/
def StoreDevice.tailReady (noRet : ℕ → ℤ) (d : StoreDevice) (c : Call) : Bool :=
  d.Full c ∧ d.search noRet = some (slotPos 1, some (slotPos 1)) ∧ ∃ R ∈ d.tail (slotPos 1),
    (∀ r ∈ R, r.frameOffset + r.frameSize ≤ storeBufMaxSize) ∧
      sizes R + c.frame.size + 96 * (R.length + 2) ≤ storeBufMaxSize

/-- two key frames; a frame for which the second one is moved; a key frame that seals the buffer again -/
theorem layout_kept_moves :
    ∃ d d', run (StoreDevice.writeFrameToBuf fun t => t) (addStoreDevice "" .planned (fun _ => 0) (fun _ => 0) 0)
        [idrCall 16, idrCall 16] = some d ∧ d.Full (zeroCall (storeBufMaxSize - 350)) ∧
      run (StoreDevice.writeFrameToBuf fun t => t) (addStoreDevice "" .planned (fun _ => 0) (fun _ => 0) 0)
        [idrCall 16, idrCall 16, zeroCall (storeBufMaxSize - 350), idrCall 40000000] = some d' ∧ LayoutOk d'.cur := by
  have hkey : ∀ d n, 0 < n → n + 2 * sizeofStoreInfo ≤ storeBufMaxSize →
      Admissible (fun t => t) d (idrCall n) ∧ TailFits (fun t => t) d (idrCall n) := by
    intro d n hpos hfits
    have hk := parse_idrCall (fun t => t) hpos
    exact ⟨⟨rfl, hfits, fun _ h => absurd hk h⟩, fun _ h => absurd hk h⟩
  have heval : (run (StoreDevice.writeFrameToBuf fun t => t) (addStoreDevice "" .planned (fun _ => 0) (fun _ => 0) 0)
      [idrCall 16, idrCall 16]).map (fun d => d.tailReady (fun t => t) (zeroCall (storeBufMaxSize - 350))) =
        some true := by
    decide +kernel
  obtain ⟨d, hd, hready⟩ := Option.map_eq_some_iff.1 heval
  obtain ⟨hf, hs, R, hR, hroom⟩ := of_decide_eq_true hready
  have hmove : Admissible (fun t => t) d (zeroCall (storeBufMaxSize - 350)) ∧
      TailFits (fun t => t) d (zeroCall (storeBufMaxSize - 350)) := by
    refine ⟨⟨rfl, by decide, fun _ _ => ⟨_, hs⟩⟩, fun _ _ pos hpos => ?_⟩
    cases hs.symm.trans hpos
    exact ⟨R, hR, hroom⟩
  have hsteps : Steps (StoreDevice.writeFrameToBuf fun t => t)
      (fun d c => Admissible (fun t => t) d c ∧ TailFits (fun t => t) d c)
      (addStoreDevice "" .planned (fun _ => 0) (fun _ => 0) 0) [idrCall 16, idrCall 16] :=
    ⟨hkey _ 16 (by decide) (by decide), fun _ _ => ⟨hkey _ 16 (by decide) (by decide), fun _ _ => trivial⟩⟩
  obtain ⟨d', hd', hlayout⟩ := layout_kept (fun t => t) "" .planned (fun _ => 0) (fun _ => 0) 0
    ([idrCall 16, idrCall 16] ++ [zeroCall (storeBufMaxSize - 350), idrCall 40000000])
    (hsteps.append hd ⟨hmove, fun _ _ => ⟨hkey _ 40000000 (by decide) (by decide), fun _ _ => trivial⟩⟩)
  exact ⟨d, d', hd, hf, hd', hlayout⟩

/-- the search on a buffer whose only record is that of a key frame -/
theorem StoreDevice.search_single {noRet : ℕ → ℤ} {d : StoreDevice} {e : Entry} (h : Holds d.cur [e])
    (hkey : parseKeyFrame noRet d.cur.storeBuf 0 e.size = 0) : d.search noRet = some (slotPos 0, some (slotPos 0)) := by
  have hpos : d.cur.storeInfoOffset + sizeofStoreInfo = slotPos 0 := by rw [h.infoOffset]; rfl
  have hinfo : readInfo d.cur.storeBuf (slotPos 0) = e.info 0 := h.indexed.1
  rw [StoreDevice.search, hpos, searchKey, if_pos (by decide), hinfo]
  simp only [Entry.info, hkey, ne_eq, not_true_eq_false, if_true, if_false]

/-- a key frame that was appended to an empty buffer is found -/
theorem StoreDevice.search_idr (noRet : ℕ → ℤ) {d : StoreDevice} {n ms i : ℕ} (hn : 5 ≤ n)
    (h : Holds d.cur [(idrCall n).frame.entry ms i]) : d.search noRet = some (slotPos 0, some (slotPos 0)) := by
  have hpos : 0 < ((idrCall n).frame.entry ms i).size := by
    rw [Frame.entry_size]
    exact Nat.lt_of_lt_of_le (by decide) hn
  refine StoreDevice.search_single h (parse_idrData _ hpos fun j hj => ?_)
  have hbytes : slice d.cur.storeBuf 0 ((idrCall n).frame.entry ms i).size = ((idrCall n).frame.entry ms i).bytes :=
    h.indexed.2.1
  simp only [Frame.entry_size, Frame.entry_bytes, idrCall, slice_eq_iff] at hbytes
  rw [hbytes j (by omega), zero_add]

/-- the records from the only one on, if the slot under it was never used -/
theorem StoreDevice.tail_single {d : StoreDevice} {e : Entry} (h : Holds d.cur [e])
    (hfree : (readInfo d.cur.storeBuf (slotPos 1)).head ≠ storeInfoHead) : d.tail (slotPos 0) = some [e.info 0] := by
  have hwalk := h.indexed.walk_append (by rw [List.length_singleton]; decide) 699050
  simp only [List.length_singleton, zero_add] at hwalk
  rw [StoreDevice.tail, show storeBufMaxSize / sizeofStoreInfo + 1 = 699050 + 1 by decide, hwalk, walk, if_neg hfree]
  rfl

/-- a frame as large as the gap the moved key frame leaves, with no room for its record -/
theorem layout_overrun :
    Steps (StoreDevice.writeFrameToBuf fun t => t) (Admissible fun t => t)
        (addStoreDevice "" .planned (fun _ => 0) (fun _ => 0) 0) [idrCall 40000000, zeroCall 27108700] ∧
      ∃ d, run (StoreDevice.writeFrameToBuf fun t => t) (addStoreDevice "" .planned (fun _ => 0) (fun _ => 0) 0)
        [idrCall 40000000, zeroCall 27108700] = some d ∧ ¬ LayoutOk d.cur := by
  set d0 := addStoreDevice "" .planned (fun _ => 0) (fun _ => 0) 0
  have h0 : Holds d0.cur [] := addStoreDevice_holds _ _ _ _ _
  -- first call: the key frame is appended
  obtain ⟨d1, hd1, h1, hgap⟩ := StoreDevice.store_holds h0 (idrCall 40000000) (by decide)
  have hw1 : d0.writeFrameToBuf (fun t => t) (idrCall 40000000) = some d1 := by
    rw [StoreDevice.writeFrameToBuf_of_flag_false rfl, StoreDevice.writeFrame_append, hd1]
    rw [StoreDevice.full_iff h0]
    decide
  set e := (idrCall 40000000).frame.entry (idrCall 40000000).ms d0.frameIndex
  have hsize : e.size = 40000000 := Frame.entry_size _ _ _
  have hfull : d1.Full (zeroCall 27108700) := by
    rw [StoreDevice.full_iff h1, List.nil_append, total_cons, hsize]
    decide
  have hzero : parseKeyFrame (fun t => (t : ℤ)) (zeroCall 27108700).frame.data 0 27108700 ≠ 0 := by
    rw [zeroCall, parse_zero]
    decide
  -- second call: the only record is that of a key frame, and the slot under it was never used
  have hs := StoreDevice.search_idr (fun t => t) (by decide) h1
  have hfree : (readInfo d1.cur.storeBuf (slotPos 1)).head ≠ storeInfoHead := by
    have hsame : (readInfo d1.cur.storeBuf (slotPos 1)).head = readLE (fun _ => 0) (slotPos 1) 4 :=
      readLE_sameOn (hgap.mono (by decide) (by decide))
    rw [hsame]
    decide
  have hw : d1.tail (slotPos 0) = some [e.info 0] := StoreDevice.tail_single h1 hfree
  obtain ⟨next, hmove, hnext, -, -⟩ := StoreDevice.rotateMove_holds h1 (zeroCall 27108700) (by decide) hs hw
    (by simp [Entry.info, hsize]; decide) (by simp [Entry.info, hsize]; decide)
  set d2 := d1.handOver _ next
  have hcur : d2.cur = next := StoreDevice.handOver_cur _ _ _
  have hoff : d2.cur.storeOffset = 40000000 := by rw [hcur, hnext.offset, total_moved]; simp [Entry.info, hsize]
  have hio : d2.cur.storeInfoOffset = 67108672 := by rw [hcur, hnext.infoOffset, List.length_map]; rfl
  obtain ⟨d3, h3, hoff3, hio3⟩ := StoreDevice.store_offsets (d := d2) (c := zeroCall 27108700)
    (by rw [hoff]; decide) (by rw [hio]; decide)
  have hw2 : d1.writeFrameToBuf (fun t => t) (zeroCall 27108700) = some d3 := by
    rw [StoreDevice.writeFrameToBuf_of_flag_false rfl, StoreDevice.writeFrame_move hfull hzero hmove, h3]
  refine ⟨⟨⟨rfl, by decide, fun hf => ?_⟩, fun t ht => ?_⟩, d3, ?_, fun hl => ?_⟩
  · rw [StoreDevice.full_iff h0] at hf
    exact absurd hf (by decide)
  · rw [hw1] at ht
    cases ht
    exact ⟨⟨rfl, by decide, fun _ _ => ⟨_, hs⟩⟩, fun _ _ => trivial⟩
  · exact run_cons_some hw1 (run_cons_some hw2 rfl)
  · have := hl.ordered
    rw [hoff3, hio3, hoff, hio] at this
    exact absurd this (by decide)

end StoreService.Store
