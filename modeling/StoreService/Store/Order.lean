/-
The order of a camera's rows.

A row carries the second in which its buffer was started; rows are inserted when buffers are flushed. The date search
bisects the rows of `SELECT *`, so it needs them in order of start.

- `rows_sorted`: the rows are in nondecreasing order of start time in every state reached by steps in which, whenever
  the writer takes a buffer of one recording type, no buffer of the other types that is being filled or waits for the
  writer was started before it (`InOrder`). One recording type alone needs no condition, and neither does the monitor.
- `overlapping_recordings`: an alarm recording inside a planned one is flushed first, and its row comes first.
The invariant per device is `DeviceOrder`: whatever buffer will get a row was started no earlier than every row.
-/
import StoreService.Store.Catalogue

namespace StoreService.Store

open StoreService.ByteMem StoreService.KeyFrame StoreService.Runs

/-- what `SearchClosestTimeFromDB` presupposes -/
def Sorted (s : Camera) : Prop := s.rows.Pairwise fun a b => a.startTimeMs ≤ b.startTimeMs

/-- when the writer takes a buffer, the live buffers of the other recordings are not older -/
def InOrder (s : Camera) : Op → Prop
  | .flush type => ∀ d i, s.dev type = some d → d.pStoreBufWr = some i → Camera.Accepted (d.buf i) →
      ∀ type' ≠ type, ∀ d', s.dev type' = some d' →
        (d'.cur.storeStartTime ≠ 0 → (d.buf i).storeStartTime ≤ d'.cur.storeStartTime) ∧
        ∀ j, d'.pStoreBufWr = some j → Camera.Accepted (d'.buf j) →
          (d.buf i).storeStartTime ≤ (d'.buf j).storeStartTime
  | _ => True

instance : Fintype RecodeType := ⟨{.planned, .manual, .alarm}, fun type => by cases type <;> decide⟩

instance decidableInOrder (s : Camera) : (o : Op) → Decidable (InOrder s o)
  | .flush type =>
    decidable_of_iff (∀ d ∈ s.dev type, ∀ i ∈ d.pStoreBufWr, Camera.Accepted (d.buf i) →
      ∀ type' ≠ type, ∀ d' ∈ s.dev type',
        (d'.cur.storeStartTime ≠ 0 → (d.buf i).storeStartTime ≤ d'.cur.storeStartTime) ∧
        ∀ j ∈ d'.pStoreBufWr, Camera.Accepted (d'.buf j) →
          (d.buf i).storeStartTime ≤ (d'.buf j).storeStartTime)
      ⟨fun h d i hd hi => h d hd i hi, fun h d hd i hi => h d i hd hi⟩
  | .tick _ | .add .. | .frame .. | .stop .. | .stopped _ | .cleanup => .isTrue trivial

/-! ## One device -/

/-- a buffer without a frame -/
def Fresh (b : StoreBuf) : Prop :=
  b.storeStartTime = 0 ∧ b.storeOffset = 0 ∧ b.storeInfoOffset = storeBufMaxSize - sizeofStoreInfo

/-- a buffer with frames, started after every buffer that has a row -/
structure Started (rows : List Row) (now : ℕ) (b : StoreBuf) : Prop where
  started : b.storeStartTime ≠ 0
  rows : ∀ r ∈ rows, r.startTimeMs ≤ b.storeStartTime
  past : b.storeStartTime ≤ now

structure DeviceOrder (rows : List Row) (now : ℕ) (stopping : Bool) (d : StoreDevice) : Prop where
  size : ∀ i, (d.buf i).storeSize = storeBufMaxSize
  cur : stopping = false → Fresh d.cur ∨ Started rows now d.cur
  away : stopping = false → ∀ i, d.pStoreBufWr = some i → i ≠ d.pCurStoreBuf
  slot : ∀ i, d.pStoreBufWr = some i → Camera.Accepted (d.buf i) →
    Started rows now (d.buf i) ∧ (d.buf i).storeStartTime ≤ d.cur.storeStartTime

/-- a buffer that is started now -/
theorem started_now {rows : List Row} {now : ℕ} {b : StoreBuf} (hnow : 0 < now)
    (hrows : ∀ r ∈ rows, r.startTimeMs ≤ now) (h : b.storeStartTime = now) : Started rows now b := by
  refine ⟨?_, ?_, h.le⟩
  · rw [h]
    exact hnow.ne'
  · rw [h]
    exact hrows

theorem Started.of_start {rows : List Row} {now : ℕ} {b b' : StoreBuf} (hb : Started rows now b)
    (h : b'.storeStartTime = b.storeStartTime) : Started rows now b' := by
  refine ⟨?_, ?_, ?_⟩
  · rw [h]
    exact hb.started
  · rw [h]
    exact hb.rows
  · rw [h]
    exact hb.past

/-- the writer drops a buffer whose last slot was cleared -/
theorem not_accepted_of_memset {b : StoreBuf} {m : Mem} {a n : ℕ} (hsize : b.storeSize = storeBufMaxSize)
    (hmem : b.storeBuf = memset m a 0 n) (ha : a = 0) (hn : n = storeBufMaxSize) : ¬ Camera.Accepted b := by
  have hzero : (readInfo b.storeBuf (b.storeSize - sizeofStoreInfo)).head = 0 := by
    rw [hmem, hsize, ha, hn]
    exact readLE_memset_zero (Nat.zero_le _) (by decide)
  rw [Camera.Accepted, hzero]
  decide

theorem Fresh.remain {b : StoreBuf} (h : Fresh b) : b.remain + sizeofStoreInfo = storeBufMaxSize := by
  rw [StoreBuf.remain, h.2.1, h.2.2]
  decide

/-- sealing a buffer without a frame clears all of it -/
theorem rotate_fresh {noRet : ℕ → ℤ} {d d' : StoreDevice} {c : Call} (hf : Fresh d.cur)
    (hsize : (d'.buf d.pCurStoreBuf).storeSize = storeBufMaxSize) (h : d.rotate noRet c = some d') :
    ¬ Camera.Accepted (d'.buf d.pCurStoreBuf) := by
  unfold StoreDevice.rotate at h
  split_ifs at h
  · -- there is no record to search
    obtain ⟨pos, -, hs, -⟩ := StoreDevice.rotateMove_some h
    have hout : ¬ d.cur.storeInfoOffset + sizeofStoreInfo + sizeofStoreInfo ≤ storeBufMaxSize := by
      rw [hf.2.2]
      decide
    simp [StoreDevice.search, searchKey, hout] at hs
  · obtain ⟨-, rfl⟩ := StoreDevice.rotateKey_some h
    rw [StoreDevice.handOver_buf] at hsize ⊢
    exact not_accepted_of_memset hsize rfl hf.2.1 hf.remain

theorem stopSeal_fresh {d d' : StoreDevice} {c : Call} (hf : Fresh d.cur) (hsize : d'.cur.storeSize = storeBufMaxSize)
    (h : d.stopSeal c = some d') : ¬ Camera.Accepted d'.cur := by
  by_cases hfull : d.Full c
  · exact not_accepted_of_memset hsize (StoreDevice.stopSeal_full hfull h) hf.2.1 hf.remain
  · -- an appended frame pushes the memset out of the buffer, unless it is empty
    obtain ⟨b, hb, hmem, htop⟩ := StoreDevice.stopSeal_fits hfull h
    obtain ⟨⟨hle, -⟩, hb⟩ := Option.ite_none_right_eq_some.1 hb
    have hoff : b.storeOffset = c.frame.size := by
      have hmax := maxSize_lt
      rw [← Option.some.inj hb]
      simp only [u32, hf.2.1, zero_add] at hle ⊢
      omega
    rw [hf.remain] at hmem htop
    exact not_accepted_of_memset hsize hmem (by omega) rfl

namespace DeviceOrder

variable {rows : List Row} {now : ℕ} {d d' : StoreDevice}

theorem add (path : String) (type : RecodeType) (ping pong : Mem) (pongStart : ℕ) :
    DeviceOrder rows now false (addStoreDevice path type ping pong pongStart) :=
  ⟨fun i => by cases i <;> rfl, fun _ => Or.inl ⟨rfl, rfl, rfl⟩, nofun, nofun⟩

/-- a stored frame -/
theorem frame {noRet : ℕ → ℤ} {c : Call} (h : DeviceOrder rows now false d) (hnow : 0 < now)
    (hrows : ∀ r ∈ rows, r.startTimeMs ≤ now) (hd : d.writeFrame noRet { c with time := now } = some d') :
    DeviceOrder rows now false d' := by
  have hsize : ∀ i, (d'.buf i).storeSize = storeBufMaxSize := fun i =>
    (StoreDevice.writeFrame_storeSize hd i).trans (h.size i)
  by_cases hf : d.Full { c with time := now }
  · obtain ⟨d1, hd1, hs, hcur, hwr, hbuf⟩ := StoreDevice.writeFrame_rotates hf hd
    obtain ⟨hst1, hst⟩ := StoreDevice.rotate_start hd1
    have hstart : d'.cur.storeStartTime = now := by
      rw [StoreDevice.store_start hs, hst1, if_neg (by simp; omega)]
    refine ⟨hsize, fun _ => Or.inr (started_now hnow hrows hstart), ?_, ?_⟩
    · intro _ i hi
      rw [hwr] at hi
      cases hi
      rw [hcur]
      exact StoreDevice.ne_other _
    · intro i hi ha
      rw [hwr] at hi
      cases hi
      rw [hbuf] at ha ⊢
      rcases h.cur rfl with hfresh | hstarted
      · exact absurd ha (rotate_fresh hfresh ((StoreDevice.rotate_storeSize hd1 _).trans (h.size _)) hd1)
      · refine ⟨hstarted.of_start hst, ?_⟩
        rw [hst, hstart]
        exact hstarted.past
  · rw [StoreDevice.writeFrame_append hf] at hd
    obtain ⟨hcur, hwr, -, hother, -⟩ := StoreDevice.store_frame hd
    have hstart := StoreDevice.store_start hd
    simp only at hstart
    refine ⟨hsize, fun _ => Or.inr ?_, ?_, ?_⟩
    · rcases h.cur rfl with hfresh | hstarted
      · rw [if_pos hfresh.1] at hstart
        exact started_now hnow hrows hstart
      · rw [if_neg hstarted.started] at hstart
        exact hstarted.of_start hstart
    · rw [hwr, hcur]
      exact h.away
    · intro i hi ha
      rw [hwr] at hi
      rw [StoreDevice.eq_other_of_ne (h.away rfl i hi), hother, ← StoreDevice.eq_other_of_ne (h.away rfl i hi)] at ha ⊢
      obtain ⟨h1, h2⟩ := h.slot i hi ha
      refine ⟨h1, h2.trans ?_⟩
      rw [hstart]
      split_ifs with hz
      · omega
      · exact le_rfl

/-- a stop call hands over its buffer -/
theorem stop {c : Call} (h : DeviceOrder rows now false d) (hd : d.stopSeal c = some d') :
    DeviceOrder rows now true d' := by
  obtain ⟨hcur, hwr, -, hbufs⟩ := StoreDevice.stopSeal_frame hd
  have hsize : ∀ i, (d'.buf i).storeSize = storeBufMaxSize := fun i => (hbufs i).1.trans (h.size i)
  refine ⟨hsize, nofun, nofun, ?_⟩
  intro i hi ha
  rw [hwr] at hi
  cases hi
  have hself : d'.buf d.pCurStoreBuf = d'.cur := by rw [StoreDevice.cur, hcur]
  have hst : d'.cur.storeStartTime = d.cur.storeStartTime := by rw [← hself]; exact (hbufs _).2
  rw [hself] at ha ⊢
  rcases h.cur rfl with hfresh | hstarted
  · exact absurd ha (stopSeal_fresh hfresh (hsize _) hd)
  · exact ⟨hstarted.of_start hst, le_rfl⟩

/-- a device that was rewound after a stop call -/
theorem stopReset {stopping : Bool} (h : DeviceOrder rows now stopping d) : DeviceOrder rows now false d.stopReset := by
  have hcur := StoreDevice.stopReset_cur d
  refine ⟨fun i => ?_, fun _ => Or.inl (by rw [hcur]; exact ⟨rfl, rfl, rfl⟩), nofun, nofun⟩
  refine StoreDevice.forall_buf_setBuf (P := fun _ b => b.storeSize = storeBufMaxSize) ?_ (fun j _ => h.size j) i
  exact h.size _

/-- time passes, rows are deleted -/
theorem mono {stopping : Bool} {rows' : List Row} {now' : ℕ} (h : DeviceOrder rows now stopping d)
    (hrows : ∀ r ∈ rows', r ∈ rows) (hnow : now ≤ now') : DeviceOrder rows' now' stopping d := by
  have started : ∀ b, Started rows now b → Started rows' now' b := fun b hb =>
    ⟨hb.started, fun r hr => hb.rows r (hrows r hr), hb.past.trans hnow⟩
  refine ⟨h.size, fun hs => (h.cur hs).imp_right (started _), h.away, fun i hi ha => ?_⟩
  exact ⟨started _ (h.slot i hi ha).1, (h.slot i hi ha).2⟩

/-- a row is inserted that is not newer than the live buffers of the device -/
theorem insert {stopping : Bool} {r : Row} (h : DeviceOrder rows now stopping d)
    (hcur : d.cur.storeStartTime ≠ 0 → r.startTimeMs ≤ d.cur.storeStartTime)
    (hslot : ∀ j, d.pStoreBufWr = some j → Camera.Accepted (d.buf j) → r.startTimeMs ≤ (d.buf j).storeStartTime) :
    DeviceOrder (rows ++ [r]) now stopping d := by
  have started : ∀ b, Started rows now b → r.startTimeMs ≤ b.storeStartTime → Started (rows ++ [r]) now b := by
    intro b hb hr
    refine ⟨hb.started, fun q hq => ?_, hb.past⟩
    rcases List.mem_append.1 hq with hq | hq
    · exact hb.rows q hq
    · rw [List.mem_singleton.1 hq]
      exact hr
  refine ⟨h.size, fun hs => ?_, h.away, fun i hi ha => ?_⟩
  · rcases h.cur hs with hfresh | hstarted
    · exact Or.inl hfresh
    · exact Or.inr (started _ hstarted (hcur hstarted.started))
  · exact ⟨started _ (h.slot i hi ha).1 (hslot i hi ha), (h.slot i hi ha).2⟩

/-- the slot is emptied -/
theorem clear {stopping : Bool} (h : DeviceOrder rows now stopping d) :
    DeviceOrder rows now stopping { d with pStoreBufWr := none } :=
  ⟨fun i => h.size i, h.cur, nofun, nofun⟩

end DeviceOrder

/-! ## The camera -/

structure OrderInv (s : Camera) : Prop where
  sorted : Sorted s
  past : ∀ r ∈ s.rows, r.startTimeMs ≤ s.now
  clock : 0 < s.now
  devs : ∀ type d, s.dev type = some d → DeviceOrder s.rows s.now (s.stopping type) d
  idle : ∀ type, s.dev type = none → s.stopping type = false

theorem init_orderInv {now : ℕ} (h : 0 < now) : OrderInv (Camera.init now) :=
  ⟨List.Pairwise.nil, nofun, h, nofun, fun _ _ => rfl⟩

namespace OrderInv

variable {cfg : Config} {s t : Camera}

/-- one device changes, the table does not -/
theorem of_update (h : OrderInv s) (type : RecodeType) {o : Option StoreDevice} {stop : Bool}
    (ho : ∀ d, o = some d → DeviceOrder s.rows s.now stop d) (hidle : o = none → stop = false) :
    OrderInv ⟨Function.update s.dev type o, Function.update s.stopping type stop, s.rows, s.files, s.now⟩ := by
  refine ⟨h.sorted, h.past, h.clock, fun type' d hd => ?_, fun type' hn => ?_⟩
  · by_cases ht : type' = type
    · subst ht
      simp only [Function.update_self] at hd ⊢
      exact ho d hd
    · simp only [Function.update_of_ne ht] at hd ⊢
      exact h.devs type' d hd
  · by_cases ht : type' = type
    · subst ht
      simp only [Function.update_self] at hn ⊢
      exact hidle hn
    · simp only [Function.update_of_ne ht] at hn ⊢
      exact h.idle type' hn

/-- one device changes, its recording goes on -/
theorem setDev (h : OrderInv s) {type : RecodeType} {d : StoreDevice}
    (hd : DeviceOrder s.rows s.now (s.stopping type) d) : OrderInv (s.setDev type d) := by
  have := h.of_update type (o := some d) (fun e he => Option.some.inj he ▸ hd) nofun
  rwa [Function.update_eq_self] at this

/-- the writer inserts the row of the oldest live buffer -/
theorem flush {type : RecodeType} (h : OrderInv s) (hp : InOrder s (.flush type)) (ht : s.flush cfg type = some t) :
    OrderInv t := by
  rcases Camera.flush_cases ht with rfl | ⟨d, i, hd, hi, hcase⟩
  · exact h
  · have hdev := h.setDev (h.devs type d hd).clear
    rcases hcase with ⟨-, rfl⟩ | ⟨ha, rfl⟩
    · exact hdev
    · obtain ⟨hst, hle⟩ := (h.devs type d hd).slot i hi ha
      refine ⟨?_, ?_, h.clock, ?_, hdev.idle⟩
      · refine List.pairwise_append.2 ⟨h.sorted, List.pairwise_singleton _ _, fun a ha' b hb => ?_⟩
        rw [List.mem_singleton.1 hb]
        exact hst.rows a ha'
      · intro r hr
        rcases List.mem_append.1 hr with hr | hr
        · exact h.past r hr
        · rw [List.mem_singleton.1 hr]
          exact hst.past
      · intro type' d' hd'
        have hkeep := hdev.devs type' d' hd'
        by_cases htt : type' = type
        · -- the buffer that the device fills now was started after the flushed one
          subst htt
          simp only [Camera.record, Camera.setDev, Function.update_self, Option.some.injEq] at hd'
          subst hd'
          refine hkeep.insert (fun _ => hle) ?_
          intro j hj
          cases hj
        · have hd'' : s.dev type' = some d' := by
            simpa only [Camera.record, Camera.setDev, Function.update_of_ne htt] using hd'
          obtain ⟨h1, h2⟩ := hp d i hd hi ha type' htt d' hd''
          exact hkeep.insert h1 h2

theorem step {o : Op} (h : OrderInv s) (hp : InOrder s o) (ht : s.step cfg o = some t) : OrderInv t := by
  cases o with
  | tick n =>
    cases ht
    have hle : s.now ≤ s.now + n := Nat.le_add_right _ _
    exact ⟨h.sorted, fun r hr => (h.past r hr).trans hle, Nat.lt_of_lt_of_le h.clock hle,
      fun type d hd => (h.devs type d hd).mono (fun _ hr => hr) hle, h.idle⟩
  | add type ping pong pongStart =>
    have hnone : s.dev type = none := by
      by_contra hne
      obtain ⟨d, hd⟩ := Option.ne_none_iff_exists'.1 hne
      simp [Camera.step, Camera.add, hd] at ht
    rw [Camera.add_cases ht]
    exact h.setDev (by rw [h.idle type hnone]; exact DeviceOrder.add _ _ _ _ _)
  | frame type c =>
    obtain ⟨d, d', hd, hs, hw, rfl⟩ := Camera.frame_cases ht
    have hdo := h.devs type d hd
    rw [hs] at hdo
    exact h.setDev (by rw [hs]; exact hdo.frame h.clock h.past hw)
  | stop type c =>
    obtain ⟨d, d', hd, hs, -, hw, rfl⟩ := Camera.stop_cases ht
    have hdo := h.devs type d hd
    rw [hs] at hdo
    exact h.of_update _ (o := some d') (fun e he => Option.some.inj he ▸ hdo.stop hw) nofun
  | stopped type =>
    obtain ⟨d, hd, -, -, rfl⟩ := Camera.stopped_cases ht
    refine h.of_update _ (fun e he => ?_) fun _ => rfl
    split_ifs at he
    · rw [← Option.some.inj he]
      exact (h.devs type d hd).stopReset
  | flush type => exact h.flush hp ht
  | cleanup =>
    cases ht
    rcases Camera.cleanup_cases cfg s with ⟨-, heq⟩ | ⟨r, -, heq⟩
    · rw [heq]
      exact h
    · rw [heq]
      have hsub : (s.rows.eraseP fun q => q.fileName = r.fileName).Sublist s.rows := List.eraseP_sublist
      exact ⟨h.sorted.sublist hsub, fun q hq => h.past q (hsub.subset hq), h.clock,
        fun type d hd => (h.devs type d hd).mono (fun q hq => hsub.subset hq) le_rfl, h.idle⟩

end OrderInv

/-- **Order of the rows.** Whenever the writer takes a buffer, let no live buffer of another recording type be older.
Then the table is sorted by start time in every state, through rotations, stops, restarts and clean-ups. -/
theorem rows_sorted (cfg : Config) (now : ℕ) (hnow : 0 < now) (ops : List Op)
    (h : Steps (Camera.step cfg) InOrder (Camera.init now) ops) (s : Camera)
    (hr : run (Camera.step cfg) (Camera.init now) ops = some s) : Sorted s :=
  (run_inv (fun _ _ _ hi hp ht => hi.step hp ht) (init_orderInv hnow) h hr).sorted

/-- a planned recording is flushed while an alarm recording, begun later, goes on -/
theorem rows_sorted_alarm :
    ∃ s, run (Camera.step oneDay) (Camera.init 1) alarmAfter = some s ∧ s.rows.map Row.startTimeMs = [1, 2] ∧
      Sorted s := by
  have hstarts : (run (Camera.step oneDay) (Camera.init 1) alarmAfter).map (fun s => s.rows.map Row.startTimeMs) =
      some [1, 2] := by
    decide +kernel
  obtain ⟨s, hs, hn⟩ := Option.map_eq_some_iff.1 hstarts
  exact ⟨s, hs, hn, rows_sorted oneDay 1 (by decide) alarmAfter (by decide +kernel) s hs⟩

/-- an alarm recording from second 2, flushed while a planned recording from second 1 goes on -/
def alarmInside : List Op :=
  beginRecord .planned ++ [.tick 1] ++ beginRecord .alarm ++ endRecord .alarm ++ endRecord .planned

theorem overlapping_recordings :
    ∃ s, run (Camera.step oneDay) (Camera.init 1) alarmInside = some s ∧ ¬ Sorted s := by
  have hstarts : (run (Camera.step oneDay) (Camera.init 1) alarmInside).map
      (fun s => s.rows.map Row.startTimeMs) = some [2, 1] := by
    decide +kernel
  obtain ⟨s, hs, hn⟩ := Option.map_eq_some_iff.1 hstarts
  refine ⟨s, hs, fun h => ?_⟩
  have hp : (s.rows.map Row.startTimeMs).Pairwise (· ≤ ·) := List.pairwise_map.2 h
  rw [hn] at hp
  exact absurd hp (by decide)

end StoreService.Store
