/-
Rows and files of one camera.

A row names a file by its name alone; readers open STORE_PATH/id/name. `Catalogue`: distinct rows have distinct names,
and the file of a row is there and holds the buffer for which the row was inserted.

- `catalogue_kept`: it holds in every state reached by steps in which the writer never formats a name that a row already
  has, nor a path that `snprintf` cuts (`FreshName`). Clean-ups need no condition: the row the monitor deletes is the
  only one with its name, and `unlink` can hit no other file of the directory.
- `same_second`: a planned and an alarm recording that start in one second share a name; the second buffer overwrites
  the first and both rows stay.
-/
import StoreService.Store.Camera

namespace StoreService.Store

open StoreService.ByteMem StoreService.KeyFrame StoreService.Runs StoreService.FileSys

/-! ## Names -/

theorem decimal_no_slash {fill : Char} (hfill : fill ≠ '/') (width n : ℕ) : '/' ∉ decimal fill width n := by
  intro h
  rcases List.mem_append.1 h with h | h
  · exact hfill (List.eq_of_mem_replicate h).symm
  · exact absurd (Nat.isDigit_of_mem_toDigits (by norm_num) le_rfl h) (by decide)

theorem fileName_no_slash (t : Tm) : '/' ∉ fileName t := by
  have h0 : ∀ width n, '/' ∉ decimal '0' width n := decimal_no_slash (by decide)
  have h4 : ∀ width n, '/' ∉ decimal ' ' width n := decimal_no_slash (by decide)
  simp [fileName, h0, h4]

theorem fileName_ne_nil (t : Tm) : fileName t ≠ [] := by simp [fileName]

/-- the file a row names -/
def rowPath (cfg : Config) (name : List Char) : List (List Char) :=
  resolve ((cfg.storePath ++ cfg.cameraId).toList ++ '/' :: name)

theorem rowPath_eq (cfg : Config) {name : List Char} (h : '/' ∉ name) (hne : name ≠ []) :
    rowPath cfg name = resolve (cfg.storePath ++ cfg.cameraId).toList ++ [name] := by
  rw [rowPath, resolve_append_slash, resolve_name h hne]

structure Catalogue (cfg : Config) (s : Camera) : Prop where
  distinct : (s.rows.map Row.fileName).Nodup
  stored : ∀ r ∈ s.rows, s.files (rowPath cfg r.fileName) = some r.image

/-- the writer formats a name that no row has, and a path that fits `file_path` -/
def FreshName (cfg : Config) (s : Camera) : Op → Prop
  | .flush type => ∀ d i, s.dev type = some d → d.pStoreBufWr = some i → Camera.Accepted (d.buf i) →
      (∀ r ∈ s.rows, r.fileName ≠ fileName (cfg.localtime (d.buf i).storeStartTime)) ∧
      (d.storePath.toList ++ '/' :: fileName (cfg.localtime (d.buf i).storeStartTime)).length ≤ 127
  | _ => True

instance decidableFreshName (cfg : Config) (s : Camera) : (o : Op) → Decidable (FreshName cfg s o)
  | .flush type =>
    decidable_of_iff (∀ d ∈ s.dev type, ∀ i ∈ d.pStoreBufWr, Camera.Accepted (d.buf i) →
      (∀ r ∈ s.rows, r.fileName ≠ fileName (cfg.localtime (d.buf i).storeStartTime)) ∧
      (d.storePath.toList ++ '/' :: fileName (cfg.localtime (d.buf i).storeStartTime)).length ≤ 127)
      ⟨fun h d i hd hi => h d hd i hi, fun h d hd i hi => h d i hd hi⟩
  | .tick _ | .add .. | .frame .. | .stop .. | .stopped _ | .cleanup => .isTrue trivial

/-! ## The invariant -/

structure CatalogueInv (cfg : Config) (s : Camera) : Prop where
  catalogue : Catalogue cfg s
  names : ∀ r ∈ s.rows, '/' ∉ r.fileName ∧ r.fileName ≠ []
  lengths : ∀ p c, s.files p = some c → c.length = storeBufMaxSize
  paths : ∀ type d, s.dev type = some d → d.storePath = cfg.storePath ++ cfg.cameraId

theorem init_catalogueInv (cfg : Config) (now : ℕ) : CatalogueInv cfg (Camera.init now) :=
  ⟨⟨List.nodup_nil, nofun⟩, nofun, nofun, nofun⟩

namespace StoreDevice

theorem writeFrame_storePath {noRet : ℕ → ℤ} {d d' : StoreDevice} {c : Call} (h : d.writeFrame noRet c = some d') :
    d'.storePath = d.storePath := by
  by_cases hf : d.Full c
  · obtain ⟨d1, hd1, hs, -⟩ := writeFrame_rotates hf h
    obtain ⟨m, next, rfl⟩ := rotate_frame hd1
    rw [(store_frame hs).2.2.2.2, handOver_storePath]
  · rw [writeFrame_append hf] at h
    exact (store_frame h).2.2.2.2

end StoreDevice

namespace CatalogueInv

variable {cfg : Config} {s t : Camera}

/-- a step that keeps the table and the disk -/
theorem of_dev {dev : RecodeType → Option StoreDevice} {stopping : RecodeType → Bool} {now : ℕ} (h : CatalogueInv cfg s)
    (hp : ∀ type d, dev type = some d → d.storePath = cfg.storePath ++ cfg.cameraId) :
    CatalogueInv cfg ⟨dev, stopping, s.rows, s.files, now⟩ :=
  ⟨⟨h.catalogue.distinct, h.catalogue.stored⟩, h.names, h.lengths, hp⟩

theorem update_paths (h : CatalogueInv cfg s) {type : RecodeType} {o : Option StoreDevice}
    (ho : ∀ d, o = some d → d.storePath = cfg.storePath ++ cfg.cameraId) (type' : RecodeType) (d : StoreDevice)
    (hd : Function.update s.dev type o type' = some d) : d.storePath = cfg.storePath ++ cfg.cameraId := by
  by_cases ht : type' = type
  · subst ht
    rw [Function.update_self] at hd
    exact ho d hd
  · rw [Function.update_of_ne ht] at hd
    exact h.paths type' d hd

/-- a written buffer: its file is new in the directory, so the others keep theirs -/
theorem record {r : Row} (h : CatalogueInv cfg s) (hname : '/' ∉ r.fileName ∧ r.fileName ≠ [])
    (hfresh : ∀ q ∈ s.rows, q.fileName ≠ r.fileName) (hlen : r.image.length = storeBufMaxSize) :
    CatalogueInv cfg (s.record (rowPath cfg r.fileName) r) := by
  have hsame : overwrite s.files (rowPath cfg r.fileName) r.image (rowPath cfg r.fileName) = some r.image :=
    overwrite_same fun old hold => by rw [h.lengths _ old hold, hlen]
  refine ⟨⟨?_, ?_⟩, ?_, ?_, h.paths⟩
  · simp only [Camera.record, List.map_append, List.map_cons, List.map_nil]
    refine List.nodup_append.2 ⟨h.catalogue.distinct, List.nodup_singleton _, ?_⟩
    intro a ha b hb
    obtain ⟨q, hq, rfl⟩ := List.mem_map.1 ha
    rw [List.mem_singleton.1 hb]
    exact hfresh q hq
  · intro q hq
    simp only [Camera.record] at hq ⊢
    rcases List.mem_append.1 hq with hq | hq
    · -- another row: another name in the same directory
      have hne : rowPath cfg q.fileName ≠ rowPath cfg r.fileName := by
        rw [rowPath_eq cfg (h.names q hq).1 (h.names q hq).2, rowPath_eq cfg hname.1 hname.2]
        intro heq
        exact hfresh q hq (by simpa using heq)
      rw [overwrite_of_ne hne]
      exact h.catalogue.stored q hq
    · rw [List.mem_singleton.1 hq]
      exact hsame
  · intro q hq
    rcases List.mem_append.1 hq with hq | hq
    · exact h.names q hq
    · rw [List.mem_singleton.1 hq]
      exact hname
  · intro p c hc
    simp only [Camera.record] at hc
    by_cases hp : p = rowPath cfg r.fileName
    · rw [hp, hsame] at hc
      rw [← Option.some.inj hc, hlen]
    · rw [overwrite_of_ne hp] at hc
      exact h.lengths p c hc

theorem flush {type : RecodeType} (h : CatalogueInv cfg s) (hp : FreshName cfg s (.flush type))
    (ht : s.flush cfg type = some t) : CatalogueInv cfg t := by
  rcases Camera.flush_cases ht with rfl | ⟨d, i, hd, hi, hcase⟩
  · exact h
  · have hdev : CatalogueInv cfg (s.setDev type { d with pStoreBufWr := none }) :=
      h.of_dev (h.update_paths fun d' hd' => by cases hd'; exact h.paths type d hd)
    rcases hcase with ⟨-, rfl⟩ | ⟨ha, rfl⟩
    · exact hdev
    · obtain ⟨hfresh, hlen⟩ := hp d i hd hi ha
      have hpath : resolve (d.filePath (fileName (cfg.localtime (d.buf i).storeStartTime))) =
          rowPath cfg (Camera.newRow cfg d (d.buf i)).fileName := by
        rw [StoreDevice.filePath, List.take_of_length_le hlen, h.paths type d hd]
        rfl
      rw [hpath]
      exact hdev.record ⟨fileName_no_slash _, fileName_ne_nil _⟩ hfresh (by rw [Camera.newRow, StoreBuf.length_image])

/-- a clean-up: the deleted row is the only one with its name, and the unlinked file is at most that row's -/
theorem cleanup (h : CatalogueInv cfg s) : CatalogueInv cfg (s.cleanup cfg) := by
  rcases Camera.cleanup_cases cfg s with ⟨-, heq⟩ | ⟨r, hr, heq⟩
  · rw [heq]
    exact h
  · rw [heq]
    have hsub : (s.rows.eraseP fun q => q.fileName = r.fileName).Sublist s.rows := List.eraseP_sublist
    -- the names that stay are different from the deleted one
    have hgone : ∀ q ∈ s.rows.eraseP fun q => q.fileName = r.fileName, q.fileName ≠ r.fileName := by
      obtain ⟨a, l₁, l₂, h1, ha, hl, he⟩ := List.exists_of_eraseP (p := fun q => q.fileName = r.fileName) hr (by simp)
      rw [he]
      have hnd := h.catalogue.distinct
      rw [hl, List.map_append, List.map_cons, List.nodup_append, List.nodup_cons] at hnd
      intro q hq
      have haf : a.fileName = r.fileName := by simpa using ha
      rcases List.mem_append.1 hq with hq | hq
      · simpa using h1 q hq
      · rw [← haf]
        intro hqa
        exact hnd.2.1.1 (hqa ▸ List.mem_map_of_mem hq)
    refine ⟨⟨(hsub.map _).nodup h.catalogue.distinct, ?_⟩, fun q hq => h.names q (hsub.subset hq), ?_, h.paths⟩
    · intro q hq
      have hqr := h.names q (hsub.subset hq)
      have hrr := h.names r hr
      have hne : rowPath cfg q.fileName ≠
          resolve (cfg.storePath.toList ++ '/' :: cfg.cameraId.toList ++ '/' :: r.fileName) := by
        rw [rowPath_eq cfg hqr.1 hqr.2, resolve_append_slash, resolve_name hrr.1 hrr.2]
        intro heq
        have := congrArg List.getLast? heq
        rw [List.getLast?_append, List.getLast?_append] at this
        exact hgone q hq (by simpa using this)
      show unlink s.files _ _ = _
      rw [unlink_of_ne hne]
      exact h.catalogue.stored q (hsub.subset hq)
    · intro p c hc
      by_cases hp : p = resolve (cfg.storePath.toList ++ '/' :: cfg.cameraId.toList ++ '/' :: r.fileName)
      · subst hp
        simp [unlink] at hc
      · exact h.lengths p c ((unlink_of_ne hp).symm.trans hc)

theorem step {o : Op} (h : CatalogueInv cfg s) (hp : FreshName cfg s o) (ht : s.step cfg o = some t) :
    CatalogueInv cfg t := by
  cases o with
  | tick n =>
    cases ht
    exact h.of_dev h.paths
  | add type ping pong pongStart =>
    rw [Camera.add_cases ht]
    exact h.of_dev (h.update_paths fun d hd => by cases hd; rfl)
  | frame type c =>
    obtain ⟨d, d', hd, -, hw, rfl⟩ := Camera.frame_cases ht
    refine h.of_dev (h.update_paths fun e he => ?_)
    cases he
    exact (StoreDevice.writeFrame_storePath hw).trans (h.paths type d hd)
  | stop type c =>
    obtain ⟨d, d', hd, -, -, hw, rfl⟩ := Camera.stop_cases ht
    refine h.of_dev (h.update_paths fun e he => ?_)
    cases he
    exact (StoreDevice.stopSeal_frame hw).2.2.1.trans (h.paths type d hd)
  | stopped type =>
    obtain ⟨d, hd, -, -, rfl⟩ := Camera.stopped_cases ht
    refine h.of_dev (h.update_paths fun e he => ?_)
    split_ifs at he
    · cases he
      exact (StoreDevice.setBuf_storePath _ _ _).trans (h.paths type d hd)
  | flush type => exact h.flush hp ht
  | cleanup =>
    cases ht
    exact h.cleanup

end CatalogueInv

/-- **Rows and files.** In every run in which the writer never meets a name that a row already has, nor a path that is
cut, distinct rows name distinct files, and the file of each row exists and holds the buffer it was inserted for. -/
theorem catalogue_kept (cfg : Config) (now : ℕ) (ops : List Op)
    (h : Steps (Camera.step cfg) (FreshName cfg) (Camera.init now) ops) (s : Camera)
    (hr : run (Camera.step cfg) (Camera.init now) ops = some s) : Catalogue cfg s :=
  (run_inv (fun _ _ _ hi hp ht => hi.step hp ht) (init_catalogueInv cfg now) h hr).catalogue

/-! ## Two recordings -/

/-- a fixed local time, so that names can be computed -/
def oneDay : Config := ⟨fun t => t, "/data/", "7", fun t => ⟨126, 0, 1, 0, t / 60 % 60, t % 60⟩⟩

/-- a recording is begun: a device and two frames -/
def beginRecord (type : RecodeType) : List Op :=
  [.add type (fun _ => 0) (fun _ => 0) 0, .frame type (zeroCall 10), .frame type (zeroCall 10)]

/-- it is ended: a stop call, which returns behind the writer -/
def endRecord (type : RecodeType) : List Op := [.stop type (zeroCall 50), .flush type, .stopped type]

/-- a planned recording from second 1 and an alarm recording from second 2, which end in this order -/
def alarmAfter : List Op :=
  beginRecord .planned ++ [.tick 1] ++ beginRecord .alarm ++ endRecord .planned ++ endRecord .alarm

theorem catalogue_kept_twice :
    ∃ s, run (Camera.step oneDay) (Camera.init 1) alarmAfter = some s ∧
      s.rows.map Row.fileName = ["2026-01-01 00:00:01.store".toList, "2026-01-01 00:00:02.store".toList] ∧
      Catalogue oneDay s := by
  have hnames : (run (Camera.step oneDay) (Camera.init 1) alarmAfter).map (fun s => s.rows.map Row.fileName) =
      some ["2026-01-01 00:00:01.store".toList, "2026-01-01 00:00:02.store".toList] := by
    decide +kernel
  obtain ⟨s, hs, hn⟩ := Option.map_eq_some_iff.1 hnames
  exact ⟨s, hs, hn, catalogue_kept oneDay 1 alarmAfter (by decide +kernel) s hs⟩

/-- a planned and an alarm recording started in second 1: two rows with one name -/
theorem same_second :
    ∃ s, run (Camera.step oneDay) (Camera.init 1)
        (beginRecord .planned ++ endRecord .planned ++ beginRecord .alarm ++ endRecord .alarm) = some s ∧
      s.rows.length = 2 ∧ ¬ Catalogue oneDay s := by
  have hnames : (run (Camera.step oneDay) (Camera.init 1)
      (beginRecord .planned ++ endRecord .planned ++ beginRecord .alarm ++ endRecord .alarm)).map
      (fun s => s.rows.map Row.fileName) =
        some ["2026-01-01 00:00:01.store".toList, "2026-01-01 00:00:01.store".toList] := by
    decide +kernel
  obtain ⟨s, hs, hn⟩ := Option.map_eq_some_iff.1 hnames
  refine ⟨s, hs, by simpa using congrArg List.length hn, fun h => ?_⟩
  have := h.distinct
  rw [hn] at this
  exact absurd this (by decide)

end StoreService.Store
