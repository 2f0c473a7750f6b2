/-
The end of the index of a live buffer.

Every loop over an index stops at the first slot without STORE_INFO_HEAD, and nothing else marks the end. A seal clears
the free slot of the buffer it seals; a rewind only moves two offsets, so the records of the fill before it stay where
they are, and come back into sight under the new ones.

`Tracked` pairs a planned device with the frames that were appended to its current buffer since that buffer was last
rewound (those a tail move brings along included). `IndexOk`: the free slot does not carry the head, and a walk from any
record visits the frames from that record on.

- `index_terminated`: `IndexOk` in every state reached by calls that rewind a buffer only when no slot below the records
  the call leaves in it carries the head (`CleanStep`). The invariant is that no slot of the gap carries it (`Clean`).
- `stop_exposes_record`: two small frames and a stop flush, and the first of them is back in the index.
-/
import StoreService.Store.Rotation

namespace StoreService.Store

open StoreService.ByteMem StoreService.KeyFrame StoreService.Runs

/-- a planned device and the frames appended to its current buffer since that was last rewound -/
structure Tracked where
  dev : StoreDevice
  frames : List Entry

/-- the slot of a record address -/
def slotOf (pos : ℕ) : ℕ := (storeBufMaxSize - sizeofStoreInfo - pos) / sizeofStoreInfo

/-- the frames after a call: a stop flush rewinds the buffer, a rotation on a key frame starts with the new frame, a
tail move keeps the frames from the key frame it found -/
def framesAfter (noRet : ℕ → ℤ) (s : Tracked) (c : Call) : List Entry :=
  let e := c.frame.entry c.ms s.dev.frameIndex
  if c.flag then []
  else if s.dev.Full c then
    if parseKeyFrame noRet c.frame.data 0 c.frame.size = 0 then [e]
    else
      match s.dev.search noRet with
      | some (pos, _) => s.frames.drop (slotOf pos) ++ [e]
      | none => [e]
  else s.frames ++ [e]

def track (noRet : ℕ → ℤ) (s : Tracked) (c : Call) : Option Tracked :=
  (s.dev.writeFrameToBuf noRet c).map fun d => ⟨d, framesAfter noRet s c⟩

structure IndexOk (s : Tracked) : Prop where
  free : (readInfo s.dev.cur.storeBuf s.dev.cur.storeInfoOffset).head ≠ storeInfoHead
  visits : ∀ k ≤ s.frames.length,
    (s.dev.tail (slotPos k)).map (List.map (StoreInfo.moved s.dev.cur.storeBuf)) = some (s.frames.drop k)

/-! ## Gaps without stale records -/

/-- no slot from slot `n` down to byte `lo` carries the head -/
def Clean (m : Mem) (lo n : ℕ) : Prop :=
  ∀ j, n ≤ j → 96 * (j + 1) ≤ storeBufMaxSize → lo ≤ slotPos j → (readInfo m (slotPos j)).head ≠ storeInfoHead

theorem Clean.mono {m : Mem} {lo lo' n n' : ℕ} (h : Clean m lo n) (hlo : lo ≤ lo') (hn : n ≤ n') : Clean m lo' n' :=
  fun j hj hj' hs => h j (hn.trans hj) hj' (hlo.trans hs)

/-- a gap only depends on the bytes between its ends -/
theorem Clean.congr {m m' : Mem} {lo n : ℕ} (h : Clean m lo (n + 1)) (hs : SameOn m' m lo (slotPos n - lo)) :
    Clean m' lo (n + 1) := by
  intro j hj hj' hlo
  have h1 : slotPos j + 96 * (j + 1) = storeBufMaxSize := slotPos_add hj'
  have h2 : slotPos n + 96 * (n + 1) = storeBufMaxSize := slotPos_add (by omega)
  have hsame : (readInfo m' (slotPos j)).head = (readInfo m (slotPos j)).head :=
    readLE_sameOn (hs.mono hlo (by omega))
  rw [hsame]
  exact h j hj hj' hlo

theorem clean_zero (lo n : ℕ) : Clean (fun _ => 0) lo n := by
  intro j _ _ _
  simp [readInfo, readLE, storeInfoHead]

/-- every byte of the head counts -/
theorem head_ne_of_zero_byte {m : Mem} {a : ℕ} (i : ℕ) (hi : i < 4) (h : m (a + i) = 0) :
    (readInfo m a).head ≠ storeInfoHead := by
  have b0 := (m a).toNat_lt
  have b1 := (m (a + 1)).toNat_lt
  have b2 := (m (a + 2)).toNat_lt
  have b3 := (m (a + 3)).toNat_lt
  have hz : (m (a + i)).toNat = 0 := by rw [h]; rfl
  simp only [readInfo, readLE, add_assoc, storeInfoHead]
  norm_num
  rcases (show i = 0 ∨ i = 1 ∨ i = 2 ∨ i = 3 by omega) with rfl | rfl | rfl | rfl
  · rw [add_zero] at hz
    omega
  all_goals omega

/-! ## The calls -/

/-- a call that leaves no stale record under the ones it leaves in the current buffer -/
structure CleanStep (noRet : ℕ → ℤ) (d : StoreDevice) (c : Call) : Prop where
  fits : c.flag = false → c.frame.size + 2 * sizeofStoreInfo ≤ storeBufMaxSize
  tail : c.flag = false → TailFits noRet d c
  /-- a rotation on a key frame: the other buffer, under the first slot and over the new frame -/
  key : c.flag = false → d.Full c → parseKeyFrame noRet c.frame.data 0 c.frame.size = 0 →
    Clean (d.buf d.pCurStoreBuf.other).storeBuf c.frame.size 1
  /-- a tail move: the other buffer, under the moved records and the new one, and over their frames -/
  move : c.flag = false → d.Full c → parseKeyFrame noRet c.frame.data 0 c.frame.size ≠ 0 → ∀ pos R,
    d.search noRet = some (pos, some pos) → d.tail pos = some R →
    Clean (d.buf d.pCurStoreBuf.other).storeBuf (sizes R + c.frame.size) (R.length + 1)
  /-- a stop flush that drops its frame: the buffer has no record -/
  stopFull : c.flag = true → d.Full c → d.cur.storeInfoOffset = storeBufMaxSize - sizeofStoreInfo
  /-- a stop flush that appends its frame: the memset reaches the head of the first record, since it starts at the new
  offset and has the old length, and no slot over the frames spells the head -/
  stopFits : c.flag = true → ¬ d.Full c → storeBufMaxSize < d.cur.storeInfoOffset + c.frame.size + 2 * sizeofStoreInfo ∧
    ∀ j, 96 * (j + 1) ≤ storeBufMaxSize → slotPos j + 4 ≤ d.cur.storeOffset + c.frame.size →
      (readInfo (memcpy d.cur.storeBuf d.cur.storeOffset c.frame.data 0 c.frame.size) (slotPos j)).head ≠ storeInfoHead

/-- the current buffer holds the tracked frames, and its gap is clean -/
structure TrackInv (s : Tracked) : Prop where
  holds : Holds s.dev.cur s.frames
  clean : Clean s.dev.cur.storeBuf (total s.frames) s.frames.length

theorem slotOf_slotPos {k : ℕ} (h : 96 * (k + 1) ≤ storeBufMaxSize) : slotOf (slotPos k) = k := by
  have := slotPos_add h
  simp only [slotOf, sizeofStoreInfo]
  omega

theorem Holds.slotOf_slotPos {b : StoreBuf} {L : List Entry} (h : Holds b L) {k : ℕ} (hk : k < L.length) :
    slotOf (slotPos k) = k := by
  have := h.room
  exact StoreService.Store.slotOf_slotPos (by omega)

theorem Indexed.drop {m : Mem} {L : List Entry} (h : Indexed m 0 0 L) {k : ℕ} (hk : k ≤ L.length) :
    Indexed m (total (L.take k)) k (L.drop k) := by
  rw [← List.take_append_drop k L, indexed_append, zero_add, zero_add, List.length_take, min_eq_left hk] at h
  exact h.2

/-- with a terminated index, the walk from record `k` visits the frames from `k` on and no others -/
theorem tail_eq {d : StoreDevice} {L : List Entry} (h : Holds d.cur L)
    (hfree : (readInfo d.cur.storeBuf (slotPos L.length)).head ≠ storeInfoHead) {k : ℕ} (hk : k ≤ L.length) :
    d.tail (slotPos k) = some (infos (total (L.take k)) (L.drop k)) := by
  have hroom := h.room
  have hlen : (L.drop k).length = L.length - k := List.length_drop
  obtain ⟨fuel, hfuel⟩ : ∃ fuel, storeBufMaxSize / sizeofStoreInfo + 1 = fuel + 1 + (L.drop k).length :=
    ⟨storeBufMaxSize / sizeofStoreInfo - (L.drop k).length, by simp only [sizeofStoreInfo]; omega⟩
  rw [StoreDevice.tail, hfuel, (h.indexed.drop hk).walk_append (by omega), hlen, Nat.add_sub_cancel' hk, walk,
    if_neg hfree, Option.map_some, List.append_nil]

theorem TrackInv.free {s : Tracked} (h : TrackInv s) :
    (readInfo s.dev.cur.storeBuf (slotPos s.frames.length)).head ≠ storeInfoHead := by
  have hroom := h.holds.room
  have hslot : slotPos s.frames.length + 96 * (s.frames.length + 1) = storeBufMaxSize := slotPos_add (by omega)
  exact h.clean _ le_rfl (by omega) (by omega)

theorem TrackInv.indexOk {s : Tracked} (h : TrackInv s) : IndexOk s := by
  refine ⟨?_, fun k hk => ?_⟩
  · rw [h.holds.infoOffset]
    exact h.free
  · rw [tail_eq h.holds h.free hk, Option.map_some, (h.holds.indexed.drop hk).moved_infos]

/-! ## One call -/

/-- an append over a clean gap leaves a clean gap -/
theorem store_trackInv {d : StoreDevice} {L : List Entry} {c : Call} (h : Holds d.cur L)
    (hc : Clean d.cur.storeBuf (total L + c.frame.size) (L.length + 1))
    (hfit : total L + c.frame.size + 96 * (L.length + 2) ≤ storeBufMaxSize) {d' : StoreDevice}
    (hd : (d.stampStart c).store c = some d') : TrackInv ⟨d', L ++ [c.frame.entry c.ms d.frameIndex]⟩ := by
  obtain ⟨d'', h1, h2, h3⟩ := StoreDevice.store_holds h c hfit
  cases h1.symm.trans hd
  rw [h.infoOffset] at h3
  refine ⟨h2, ?_⟩
  simp only [total_append, total_cons, total_nil, Frame.entry_size, List.length_append, List.length_singleton, add_zero]
  exact hc.congr h3

/-- the same on the buffer a rotation has made current -/
theorem handOver_store_trackInv {d : StoreDevice} {b next : StoreBuf} {L : List Entry} {c : Call} (h : Holds next L)
    (hc : Clean next.storeBuf (total L + c.frame.size) (L.length + 1))
    (hfit : total L + c.frame.size + 96 * (L.length + 2) ≤ storeBufMaxSize) {d' : StoreDevice}
    (hd : ((d.handOver b next).stampStart c).store c = some d') :
    TrackInv ⟨d', L ++ [c.frame.entry c.ms d.frameIndex]⟩ := by
  rw [← StoreDevice.handOver_cur d b next] at h hc
  have := store_trackInv h hc hfit hd
  rwa [StoreDevice.handOver_frameIndex] at this

theorem append_trackInv {noRet : ℕ → ℤ} {s : Tracked} {c : Call} (h : TrackInv s) (hf : ¬ s.dev.Full c)
    {d' : StoreDevice} (hd : s.dev.writeFrame noRet c = some d') :
    TrackInv ⟨d', s.frames ++ [c.frame.entry c.ms s.dev.frameIndex]⟩ := by
  rw [StoreDevice.writeFrame_append hf] at hd
  rw [StoreDevice.full_iff h.holds] at hf
  exact store_trackInv h.holds (h.clean.mono (by omega) (by omega)) (by omega) hd

theorem key_trackInv {noRet : ℕ → ℤ} {s : Tracked} {c : Call} (h : TrackInv s) (hf : s.dev.Full c)
    (hk : parseKeyFrame noRet c.frame.data 0 c.frame.size = 0)
    (hfits : c.frame.size + 2 * sizeofStoreInfo ≤ storeBufMaxSize)
    (hc : Clean (s.dev.buf s.dev.pCurStoreBuf.other).storeBuf c.frame.size 1) {d' : StoreDevice}
    (hd : s.dev.writeFrame noRet c = some d') : TrackInv ⟨d', [c.frame.entry c.ms s.dev.frameIndex]⟩ := by
  rw [StoreDevice.writeFrame_key h.holds hf hk] at hd
  simp only [sizeofStoreInfo] at hfits
  exact handOver_store_trackInv (L := []) (Holds.reset_nil _ _) (by simpa using hc) (by simp; omega) hd

/-- a tail move that returns has found a key frame -/
theorem writeFrame_search {noRet : ℕ → ℤ} {d d' : StoreDevice} {c : Call} (hf : d.Full c)
    (hk : parseKeyFrame noRet c.frame.data 0 c.frame.size ≠ 0) (hd : d.writeFrame noRet c = some d') :
    ∃ pos, d.search noRet = some (pos, some pos) := by
  rw [StoreDevice.writeFrame, if_pos hf, StoreDevice.rotate, if_pos hk] at hd
  obtain ⟨d1, hd1, -⟩ := Option.bind_eq_some_iff.1 hd
  obtain ⟨pos, -, hs, -⟩ := StoreDevice.rotateMove_some hd1
  exact ⟨pos, hs⟩

theorem move_trackInv {noRet : ℕ → ℤ} {s : Tracked} {c : Call} (h : TrackInv s) (hf : s.dev.Full c)
    (hk : parseKeyFrame noRet c.frame.data 0 c.frame.size ≠ 0) (ht : TailFits noRet s.dev c) {k : ℕ}
    (hkL : k < s.frames.length) (hs : s.dev.search noRet = some (slotPos k, some (slotPos k)))
    (hc : ∀ R, s.dev.tail (slotPos k) = some R →
      Clean (s.dev.buf s.dev.pCurStoreBuf.other).storeBuf (sizes R + c.frame.size) (R.length + 1))
    {d' : StoreDevice} (hd : s.dev.writeFrame noRet c = some d') :
    TrackInv ⟨d', s.frames.drop k ++ [c.frame.entry c.ms s.dev.frameIndex]⟩ := by
  -- the index is terminated, so the move copies the tracked frames from `k` on
  have htail := tail_eq h.holds h.free hkL.le
  obtain ⟨R, hR, hin, hroom⟩ := ht hf hk _ hs
  cases htail.symm.trans hR
  obtain ⟨next, hmove, hnext, -, hsame⟩ := StoreDevice.rotateMove_holds h.holds c hkL hs htail hin (by omega)
  rw [StoreDevice.writeFrame_move hf hk hmove] at hd
  have hclean := hc _ htail
  rw [(h.holds.indexed.drop hkL.le).moved_infos] at hnext
  rw [sizes_infos, length_infos] at hroom hclean hsame
  have hslot : slotPos (s.frames.drop k).length + 96 * ((s.frames.drop k).length + 1) = storeBufMaxSize :=
    slotPos_add (by omega)
  exact handOver_store_trackInv hnext (hclean.congr (hsame.mono (by omega) (by omega))) hroom hd

/-- a stop flush leaves an empty buffer; its slots are clean if the flush cleared the first record, and so all of them,
and nothing over the frames spells the head -/
theorem stop_trackInv {s : Tracked} {c : Call} (h : TrackInv s)
    (hfull : s.dev.Full c → s.dev.cur.storeInfoOffset = storeBufMaxSize - sizeofStoreInfo)
    (hfits : ¬ s.dev.Full c → storeBufMaxSize < s.dev.cur.storeInfoOffset + c.frame.size + 2 * sizeofStoreInfo ∧
      ∀ j, 96 * (j + 1) ≤ storeBufMaxSize → slotPos j + 4 ≤ s.dev.cur.storeOffset + c.frame.size →
        (readInfo (memcpy s.dev.cur.storeBuf s.dev.cur.storeOffset c.frame.data 0 c.frame.size) (slotPos j)).head ≠
          storeInfoHead)
    {d' : StoreDevice} (hd : s.dev.stopSeal c = some d') : TrackInv ⟨d'.stopReset, []⟩ := by
  have htop := h.holds.sealed_top
  have hinfo := h.holds.infoOffset_add
  have hremain := h.holds.remain_add
  have hroom := h.holds.room
  have hoff := h.holds.offset
  have hmax := maxSize_lt
  refine ⟨by rw [StoreDevice.stopReset_cur]; exact Holds.reset_nil _ _, ?_⟩
  rw [StoreDevice.stopReset_cur, Holds.reset_storeBuf]
  intro j _ hj _
  have hslot := slotPos_add hj
  by_cases hf : s.dev.Full c
  · -- no record: everything is cleared
    have hn := hfull hf
    simp only [sizeofStoreInfo] at hn htop
    have hnil : s.frames = [] := List.length_eq_zero_iff.1 (by omega)
    rw [hnil, total_nil] at hoff
    rw [StoreDevice.stopSeal_full hf hd]
    apply head_ne_of_zero_byte 0 (by omega)
    exact memset_of_mem (by omega) (by simp only [sizeofStoreInfo]; omega)
  · obtain ⟨hreach, hframes⟩ := hfits hf
    obtain ⟨b, hb, -, hmem, hend, htop'⟩ := StoreDevice.stopSeal_appends h.holds hf hd
    rw [StoreDevice.full_iff h.holds] at hf
    simp only [sizeofStoreInfo] at hreach htop' hend
    rw [hmem]
    by_cases hp : slotPos j + 4 ≤ total s.frames + c.frame.size
    · -- the slot lies in the frames, which the flush does not clear
      have hsame : SameOn b.storeBuf (memcpy s.dev.cur.storeBuf s.dev.cur.storeOffset c.frame.data 0 c.frame.size)
          (slotPos j) 4 := storeFrame_sameOn hb (by omega)
      have hhead := hframes j hj (by omega)
      rw [show (readInfo (memset b.storeBuf (total s.frames + c.frame.size) 0 (s.dev.cur.remain + sizeofStoreInfo))
        (slotPos j)).head = _ from readLE_sameOn ((sameOn_memset (by omega)).trans hsame)]
      exact hhead
    · by_cases hq : total s.frames + c.frame.size ≤ slotPos j
      · apply head_ne_of_zero_byte 0 (by omega)
        exact memset_of_mem (by omega) (by simp only [sizeofStoreInfo]; omega)
      · apply head_ne_of_zero_byte (total s.frames + c.frame.size - slotPos j) (by omega)
        exact memset_of_mem (by omega) (by simp only [sizeofStoreInfo]; omega)

theorem track_trackInv {noRet : ℕ → ℤ} {s t : Tracked} {c : Call} (h : TrackInv s) (hc : CleanStep noRet s.dev c)
    (ht : track noRet s c = some t) : TrackInv t := by
  obtain ⟨d', hd, rfl⟩ := Option.map_eq_some_iff.1 ht
  cases hflag : c.flag with
  | true =>
    rw [StoreDevice.writeFrameToBuf, if_pos hflag] at hd
    obtain ⟨d1, hd1, rfl⟩ := Option.map_eq_some_iff.1 hd
    rw [framesAfter, if_pos hflag]
    -- waiting for the writer does not change the buffers
    exact stop_trackInv (s := ⟨{ s.dev with pStoreBufWr := none }, s.frames⟩) ⟨h.holds, h.clean⟩
      (hc.stopFull hflag) (hc.stopFits hflag) hd1
  | false =>
    rw [StoreDevice.writeFrameToBuf_of_flag_false hflag] at hd
    rw [framesAfter, if_neg (by simp [hflag])]
    by_cases hf : s.dev.Full c
    · rw [if_pos hf]
      by_cases hk : parseKeyFrame noRet c.frame.data 0 c.frame.size = 0
      · rw [if_pos hk]
        exact key_trackInv h hf hk (hc.fits hflag) (hc.key hflag hf hk) hd
      · rw [if_neg hk]
        obtain ⟨pos, hs⟩ := writeFrame_search hf hk hd
        obtain ⟨k, hkL, rfl, -⟩ := StoreDevice.search_slot h.holds hs
        rw [hs]
        simp only [h.holds.slotOf_slotPos hkL]
        exact move_trackInv h hf hk (hc.tail hflag) hkL hs (fun R hR => hc.move hflag hf hk _ R hs hR) hd
    · rw [if_neg hf]
      exact append_trackInv h hf hd

/-- the device `AddStoreDevice` builds on zeroed buffers, before any frame -/
def trackStart (path : String) (pongStart : ℕ) : Tracked :=
  ⟨addStoreDevice path .planned (fun _ => 0) (fun _ => 0) pongStart, []⟩

theorem trackStart_trackInv (path : String) (pongStart : ℕ) : TrackInv (trackStart path pongStart) :=
  ⟨addStoreDevice_holds _ _ _ _ _, clean_zero _ _⟩

/-- **Termination of the index.** On buffers that start zeroed, in every state reached by appends, rotations, tail moves
and stop flushes that meet `CleanStep`, the free slot does not carry the head and the index lists exactly the frames
appended since the buffer was last rewound. -/
theorem index_terminated (noRet : ℕ → ℤ) (path : String) (pongStart : ℕ) (calls : List Call)
    (h : Steps (track noRet) (fun s c => CleanStep noRet s.dev c) (trackStart path pongStart) calls) (s : Tracked)
    (hr : run (track noRet) (trackStart path pongStart) calls = some s) : IndexOk s :=
  (run_inv (fun _ _ _ hi hp ht => track_trackInv hi hp ht) (trackStart_trackInv path pongStart) h hr).indexOk

/-- two key frames of 40 MB: the second rotates to a buffer that was never used -/
theorem index_terminated_idr :
    ∃ s, run (track fun t => t) (trackStart "" 0) [idrCall 40000000, idrCall 40000000] = some s ∧ IndexOk s := by
  have hk := parse_idrCall (fun t => t) (by decide : 0 < 40000000)
  have step : ∀ s : Tracked, (s.dev.buf s.dev.pCurStoreBuf.other).storeBuf = (fun _ => 0) →
      CleanStep (fun t => t) s.dev (idrCall 40000000) := fun s hs =>
    ⟨fun _ => by decide, fun _ _ h => absurd hk h, fun _ _ _ => by rw [hs]; exact clean_zero _ _,
      fun _ _ h => absurd hk h, fun h => absurd h (by decide), fun h => absurd h (by decide)⟩
  have h0 := (trackStart_trackInv "" 0).holds
  have hnot : ¬ (trackStart "" 0).dev.Full (idrCall 40000000) := by
    rw [StoreDevice.full_iff h0]
    decide
  obtain ⟨d1, hd1, h1, -⟩ := StoreDevice.store_holds h0 (idrCall 40000000) (by decide)
  obtain ⟨hcur, -, -, hother, -⟩ := StoreDevice.store_frame hd1
  obtain ⟨d2, hd2, -⟩ := writeFrame_holds h1 ⟨rfl, by decide, fun _ h => absurd hk h⟩ fun _ h => absurd hk h
  have ht1 : track (fun t => t) (trackStart "" 0) (idrCall 40000000) =
      some ⟨d1, framesAfter (fun t => t) (trackStart "" 0) (idrCall 40000000)⟩ := by
    rw [track, StoreDevice.writeFrameToBuf_of_flag_false rfl, StoreDevice.writeFrame_append hnot, hd1, Option.map_some]
  have ht2 : ∀ L, track (fun t => t) ⟨d1, L⟩ (idrCall 40000000) =
      some ⟨d2, framesAfter (fun t => t) ⟨d1, L⟩ (idrCall 40000000)⟩ := by
    intro L
    rw [track, StoreDevice.writeFrameToBuf_of_flag_false rfl, hd2, Option.map_some]
  have hr := run_cons_some ht1 (run_cons_some (l := []) (ht2 _) rfl)
  refine ⟨_, hr, index_terminated (fun t => t) "" 0 [idrCall 40000000, idrCall 40000000] ?_ _ hr⟩
  refine ⟨step _ rfl, fun t ht => ?_⟩
  cases ht1.symm.trans ht
  exact ⟨step _ (by rw [hcur, hother]; rfl), fun _ _ => trivial⟩

/-! ## A stop flush -/

/-- two frames of 10 bytes, then a stop flush with a frame of 50 -/
def staleCalls : List Call := [zeroCall 10, zeroCall 10, { zeroCall 50 with flag := true }]

/-- the flush clears its own record and half of the one above it; the first record survives the rewind -/
theorem stop_exposes_record :
    ∃ s, run (track fun t => t) (trackStart "" 0) staleCalls = some s ∧ s.frames = [] ∧ ¬ IndexOk s := by
  have hhead : (run (track fun t => t) (trackStart "" 0) staleCalls).map (fun s =>
      (s.frames.length, (readInfo s.dev.cur.storeBuf s.dev.cur.storeInfoOffset).head)) = some (0, storeInfoHead) := by
    decide +kernel
  obtain ⟨s, hs, hfree⟩ := Option.map_eq_some_iff.1 hhead
  rw [Prod.mk.injEq] at hfree
  exact ⟨s, hs, List.length_eq_zero_iff.1 hfree.1, fun h => h.free hfree.2⟩

end StoreService.Store
