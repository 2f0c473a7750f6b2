/-
A schedule update that fails, and one that succeeds (`UpdateSchedule`).

The request may bring a recording schedule, a backup schedule or both. The two are parsed, stored in the table and put
into the lists one after the other, so the second may be refused when the first is already in place. A stream or a
backup entry that is missing makes the response a failure as well, after the table was changed. Of `cameraInfoList` only
the first entry with the id is changed, where the UPDATE changes every row whose id its collation takes for this one.

Model: `Verdict` is what becomes of a schedule of the request, `changes` says which of the two are written and whether
the request comes to its end, `Schedules.written` is what the writes leave. `reschedule_written` derives all this from
`Registries.reschedule`.

Results, for a request whose texts get into the columns as they are (`Written`):
- `update_iff`: a failed request leaves the schedules as they were, and a successful one replaces exactly those of the
  request, everywhere and for that camera only (`FailsOrReplaces`), exactly if: where it fails, everything that it wrote
  before was there already (`HadAlready`); where it succeeds, further entries of `cameraInfoList` with the id and rows
  of other ids that the collation does not tell from it have the new texts already (`OthersHad`).
- `cleanUpdate_of_agree`: where the registries agree, an update with valid schedules is one of these.
- `update_half_done`: a valid recording schedule with an invalid backup schedule: the response is a failure, and the
  recording schedule is replaced.
-/
import StoreService.Http.Agreement

namespace StoreService.Http

open StoreService.Json StoreService.Schedule StoreService.Stream StoreService.Keyed

/-! ## The schedules of the registries -/

/-- a schedule: its text and the table it parses to -/
abbrev Parsed := Str × Week

structure Schedules where
  /-- `camera_info` -/
  table : List Key
  /-- `cameraInfoList` -/
  list : List Key
  /-- `streamThreadList` -/
  streams : Str → Option Week
  /-- `bakScheduleList` -/
  backups : Str → Option Week

def Registries.schedules (s : Registries) : Schedules where
  table := s.keys
  list := s.cameraInfoList.map CameraInfo.key
  streams id := (s.streamThreadList id).map (·.recSchedule)
  backups := s.bakScheduleList

/-- new schedules for a camera -/
@[ext] structure Changes where
  recording : Option Parsed
  backup : Option Parsed

def Changes.edit (ch : Changes) (k : Key) : Key where
  id := k.id
  recSchedule := (ch.recording.map Prod.fst).getD k.recSchedule
  bakSchedule := (ch.backup.map Prod.fst).getD k.bakSchedule

/-- the new schedules in place of the old ones, everywhere -/
def Schedules.replaced (v : Schedules) (id : Str) (ch : Changes) : Schedules where
  table := v.table.map fun k => if k.id = id then ch.edit k else k
  list := v.list.map fun k => if k.id = id then ch.edit k else k
  streams := ch.recording.elim v.streams fun p => Function.update v.streams id (some p.2)
  backups := ch.backup.elim v.backups fun p => Function.update v.backups id (some p.2)

/-! ## Requests -/

/-- the schedule an item brings, which has to be valid -/
def Brings (J : Codec) : Option CJson → Option Parsed → Prop
  | none, c => c = none
  | some obj, c => ∃ week, accepted J (J.print obj) = some week ∧ c = some (J.print obj, week)

/-- a failed request changes no schedule, and a successful one replaces exactly those it brings -/
structure FailsOrReplaces (env : Env) (f : Faults) (s : Registries) (info : Str) : Prop where
  failed : ∀ t response, s.updateSchedule env f info = some (t, response) → response.code = false →
    t.schedules = s.schedules
  replaced : ∀ t response, s.updateSchedule env f info = some (t, response) → response.code = true →
    ∃ r ch, parseUpdate env.codec info = some r ∧ Brings env.codec r.recSchedule ch.recording ∧
      Brings env.codec r.bakSchedule ch.backup ∧ t.schedules = s.schedules.replaced r.devId ch

/-- what becomes of a schedule of a request -/
inductive Verdict where
  /-- parsing it reads past its end -/
  | crashes
  /-- it is invalid, or the database fails -/
  | refused
  /-- it is absent, or written -/
  | passes (p : Option Parsed)

def verdict (J : Codec) (dbFails : Bool) : Option CJson → Verdict
  | none => .passes none
  | some obj =>
    match parseSchedule J (J.print obj) with
    | none => .crashes
    | some (.error _) => .refused
    | some (.ok week) => if dbFails then .refused else .passes (some (J.print obj, week))

/-- the schedules a request writes, and whether it comes to its end -/
def changes : Verdict → Verdict → Option (Changes × Bool)
  | .crashes, _ => none
  | .refused, _ => some (⟨none, none⟩, false)
  | .passes _, .crashes => none
  | .passes r, .refused => some (⟨r, none⟩, false)
  | .passes r, .passes b => some (⟨r, b⟩, true)

/-- the lists have entries for what is written -/
structure Changes.Known (ch : Changes) (v : Schedules) (id : Str) : Prop where
  recording : ch.recording ≠ none → v.streams id ≠ none
  backup : ch.backup ≠ none → v.backups id ≠ none

/-- what a request writes is there already -/
structure HadAlready (db : Database) (v : Schedules) (id : Str) (cameraIdx : ℕ) (ch : Changes) : Prop where
  table : ∀ k ∈ v.table, db.same k.id id → ch.edit k = k
  entry : ∀ k, v.list[cameraIdx]? = some k → ch.edit k = k
  streams : ∀ p, ch.recording = some p → ∀ week, v.streams id = some week → week = p.2
  backups : ∀ p, ch.backup = some p → ∀ week, v.backups id = some week → week = p.2

/-- further entries of `cameraInfoList` with the id, and rows that match with another id, have the new texts already -/
structure OthersHad (db : Database) (v : Schedules) (id : Str) (cameraIdx : ℕ) (ch : Changes) : Prop where
  list : ∀ m, m ≠ cameraIdx → ∀ k, v.list[m]? = some k → k.id = id → ch.edit k = k
  table : ∀ k ∈ v.table, db.same k.id id → k.id ≠ id → ch.edit k = k

/-- the request does all it is asked for, or nothing that can be seen -/
def CleanUpdate (env : Env) (f : Faults) (s : Registries) (r : UpdateRequest) : Prop :=
  ∀ cameraIdx, s.cameraInfoList.findIdx? (·.id = r.devId) = some cameraIdx → ∀ ch complete,
    changes (verdict env.codec f.updateRec r.recSchedule) (verdict env.codec f.updateBak r.bakSchedule) =
      some (ch, complete) →
    (complete = true ∧ ch.Known s.schedules r.devId → OthersHad env.db s.schedules r.devId cameraIdx ch) ∧
    (¬ (complete = true ∧ ch.Known s.schedules r.devId) → HadAlready env.db s.schedules r.devId cameraIdx ch)

/-! ## What the code writes -/

/-- `UpdateRecodeSchedule` and `UpdateBakSchedule`: an entry that is there gets the new table -/
def setWeek (m : Str → Option Week) (id : Str) : Option Parsed → Str → Option Week
  | none => m
  | some p => Function.update m id ((m id).map fun _ => p.2)

/-- as the code leaves it -/
def Schedules.written (db : Database) (v : Schedules) (id : Str) (cameraIdx : ℕ) (ch : Changes) : Schedules where
  table := v.table.map fun k => if db.same k.id id then ch.edit k else k
  list := v.list.modify cameraIdx ch.edit
  streams := setWeek v.streams id ch.recording
  backups := setWeek v.backups id ch.backup

section Written

variable {db : Database} {v : Schedules} {id : Str} {n : ℕ} {ch : Changes}

theorem setWeek_eq_self_iff {m : Str → Option Week} {c : Option Parsed} :
    setWeek m id c = m ↔ ∀ p, c = some p → ∀ week, m id = some week → week = p.2 := by
  cases c with
  | none => simp [setWeek]
  | some p =>
    rw [setWeek, Function.update_eq_self_iff]
    cases hm : m id with
    | none => simp
    | some w => simp [eq_comm]

theorem setWeek_known {m : Str → Option Week} {c : Option Parsed} (h : c ≠ none → m id ≠ none) :
    setWeek m id c = c.elim m fun p => Function.update m id (some p.2) := by
  cases c with
  | none => rfl
  | some p =>
    obtain ⟨w, hw⟩ := Option.ne_none_iff_exists'.1 (h (by simp))
    simp [setWeek, hw]

theorem map_edit_eq_self_iff {p : Key → Prop} [DecidablePred p] {l : List Key} :
    (l.map fun k => if p k then ch.edit k else k) = l ↔ ∀ k ∈ l, p k → ch.edit k = k := by
  rw [map_eq_self_iff]
  refine forall₂_congr fun k _ => ?_
  by_cases hk : p k
  · simp [hk]
  · simp [hk]

theorem written_eq_self_iff : v.written db id n ch = v ↔ HadAlready db v id n ch := by
  have hlist := modify_eq_self_iff (f := ch.edit) (n := n) (l := v.list)
  constructor
  · intro h
    exact ⟨map_edit_eq_self_iff.1 (congrArg Schedules.table h), hlist.1 (congrArg Schedules.list h),
      setWeek_eq_self_iff.1 (congrArg Schedules.streams h), setWeek_eq_self_iff.1 (congrArg Schedules.backups h)⟩
  · intro h
    rw [Schedules.written, map_edit_eq_self_iff.2 h.table, hlist.2 h.entry, setWeek_eq_self_iff.2 h.streams,
      setWeek_eq_self_iff.2 h.backups]

/-- the rows that match are those with the id, as far as it can be seen -/
theorem table_eq_replaced_iff {l : List Key} : (l.map fun k => if db.same k.id id then ch.edit k else k) =
    (l.map fun k => if k.id = id then ch.edit k else k) ↔ ∀ k ∈ l, db.same k.id id → k.id ≠ id → ch.edit k = k := by
  rw [List.map_inj_left]
  refine forall₂_congr fun k _ => ?_
  by_cases hid : k.id = id
  · simp [hid, db.same_refl]
  · by_cases hsame : db.same k.id id
    · simp [hid, hsame]
    · simp [hid, hsame]

theorem written_eq_replaced_iff (hn : v.list.findIdx? (·.id = id) = some n) (hk : ch.Known v id) :
    v.written db id n ch = v.replaced id ch ↔ OthersHad db v id n ch := by
  have hlist := modify_eq_map_iff hn ch.edit
  constructor
  · intro h
    exact ⟨hlist.1 (congrArg Schedules.list h), table_eq_replaced_iff.1 (congrArg Schedules.table h)⟩
  · intro h
    rw [Schedules.written, Schedules.replaced, hlist.2 h.list, table_eq_replaced_iff.2 h.table,
      setWeek_known hk.recording, setWeek_known hk.backup]

theorem written_nothing : v.written db id n ⟨none, none⟩ = v :=
  written_eq_self_iff.2 ⟨fun _ _ _ => rfl, fun _ _ => rfl, nofun, nofun⟩

/-- the recording schedule, then the backup schedule -/
theorem written_written (r b : Option Parsed) :
    (v.written db id n ⟨r, none⟩).written db id n ⟨none, b⟩ = v.written db id n ⟨r, b⟩ := by
  have hedit : (Changes.edit ⟨none, b⟩) ∘ (Changes.edit ⟨r, none⟩) = Changes.edit ⟨r, b⟩ := rfl
  simp only [Schedules.written, List.modify_modify_eq, hedit, List.map_map, setWeek]
  congr 1
  refine List.map_congr_left fun k _ => ?_
  have hid : (Changes.edit ⟨r, none⟩ k).id = k.id := rfl
  by_cases hk : db.same k.id id
  · simp only [Function.comp_apply, hk, if_true, hid]
    rfl
  · simp [hk]

end Written

/-! ## The two parts of the request -/

/-- one camera changes in the table and in `cameraInfoList`, and the lists follow -/
theorem schedules_change {db : Database} {s : Registries} {id : Str} {n : ℕ} {ch : Changes}
    {g : CameraInfo → CameraInfo} (hg : ∀ c, (g c).key = ch.edit c.key) {baks : Str → Option Week}
    {streams : StreamList}
    (hstreams : (fun i => (streams i).map (·.recSchedule)) = setWeek s.schedules.streams id ch.recording)
    (hbaks : baks = setWeek s.schedules.backups id ch.backup) :
    Registries.schedules ⟨s.cameraInfo.map fun c => if db.same c.id id then g c else c, s.cameraInfoList.modify n g,
      baks, s.storeDeviceList, streams⟩ = s.schedules.written db id n ch := by
  simp only [Registries.schedules, Schedules.written, Registries.keys, keys_change (p := (db.same · id)) hg,
    map_modify hg]
  rw [hstreams, hbaks]
  rfl

theorem updateRecodeSchedule_schedules (l : StreamList) (id text : Str) (week : Week) :
    (fun i => (((l.updateRecodeSchedule id week).toOption.getD l) i).map (·.recSchedule)) =
      setWeek (fun i => (l i).map (·.recSchedule)) id (some (text, week)) := by
  rw [setWeek, StreamList.updateRecodeSchedule]
  cases hl : l id with
  | none => exact (Function.update_eq_self_iff.2 (by simp [hl, Except.toOption])).symm
  | some e =>
    exact Function.comp_update (Option.map (·.recSchedule)) l id (some { e with recSchedule := week })

theorem updateBakSchedule_eq (l : Str → Option Week) (id text : Str) (week : Week) :
    (updateBakSchedule l id week).toOption.getD l = setWeek l id (some (text, week)) := by
  rw [updateBakSchedule, setWeek]
  cases hl : l id with
  | none => exact (Function.update_eq_self_iff.2 hl.symm).symm
  | some w => rfl

section Parts

variable {env : Env} {id : Str} (hid : 0 ∉ id) (f : Faults) (s : Registries) (n : ℕ) {item : Option CJson}

include hid

theorem updateRec_spec (hsets : ∀ obj ∈ item, (accepted env.codec (env.codec.print obj)).isSome →
      env.db.Sets .recSchedule .updateRecSchedule id (env.codec.print obj)) :
    match verdict env.codec f.updateRec item with
    | .crashes => s.updateRec env f id n item = none
    | .refused => ∃ e, s.updateRec env f id n item = some ⟨s, some e, false⟩
    | .passes r => ∃ reg err, s.updateRec env f id n item = some ⟨reg, err, true⟩ ∧
        reg.schedules = s.schedules.written env.db id n ⟨r, none⟩ ∧
        (err = none ↔ (r ≠ none → s.schedules.streams id ≠ none)) := by
  cases item with
  | none => exact ⟨s, none, rfl, written_nothing.symm, by simp⟩
  | some obj =>
    cases hparse : parseSchedule env.codec (env.codec.print obj) with
    | none => simp [verdict, hparse, Registries.updateRec]
    | some result =>
      cases result with
      | error e => simp [verdict, hparse, Registries.updateRec]
      | ok week =>
        cases hdb : f.updateRec with
        | true => simp [verdict, hparse, Registries.updateRec, hdb, updateRecScheduleToCameraTable, Database.send]
        | false =>
          have hset := hsets obj rfl (Option.isSome_iff_exists.2 ⟨week, accepted_of_ok hparse⟩)
          simp only [verdict, hparse]
          refine ⟨_, _, by simp only [Registries.updateRec, hparse, hdb, Database.exec_setRec hset hid]; rfl,
            schedules_change (fun _ => rfl) (updateRecodeSchedule_schedules _ id _ week) rfl, ?_⟩
          cases hl : s.streamThreadList id with
          | none => simp [StreamList.updateRecodeSchedule, hl, Registries.schedules]
          | some e => simp [StreamList.updateRecodeSchedule, hl, Registries.schedules]

theorem updateBak_spec (hsets : ∀ obj ∈ item, (accepted env.codec (env.codec.print obj)).isSome →
      env.db.Sets .bakSchedule .updateBakSchedule id (env.codec.print obj)) :
    match verdict env.codec f.updateBak item with
    | .crashes => s.updateBak env f id n item = none
    | .refused => ∃ e, s.updateBak env f id n item = some ⟨s, some e, false⟩
    | .passes b => ∃ reg err, s.updateBak env f id n item = some ⟨reg, err, true⟩ ∧
        reg.schedules = s.schedules.written env.db id n ⟨none, b⟩ ∧
        (err = none ↔ (b ≠ none → s.schedules.backups id ≠ none)) := by
  cases item with
  | none => exact ⟨s, none, rfl, written_nothing.symm, by simp⟩
  | some obj =>
    cases hparse : parseSchedule env.codec (env.codec.print obj) with
    | none => simp [verdict, hparse, Registries.updateBak]
    | some result =>
      cases result with
      | error e => simp [verdict, hparse, Registries.updateBak]
      | ok week =>
        cases hdb : f.updateBak with
        | true => simp [verdict, hparse, Registries.updateBak, hdb, updateBakScheduleToCameraTable, Database.send]
        | false =>
          have hset := hsets obj rfl (Option.isSome_iff_exists.2 ⟨week, accepted_of_ok hparse⟩)
          simp only [verdict, hparse]
          refine ⟨_, _, by simp only [Registries.updateBak, hparse, hdb, Database.exec_setBak hset hid]; rfl,
            schedules_change (fun _ => rfl) rfl (updateBakSchedule_eq _ id _ week), ?_⟩
          cases hl : s.bakScheduleList id with
          | none => simp [updateBakSchedule, hl, Registries.schedules]
          | some w => simp [updateBakSchedule, hl, Registries.schedules]

end Parts

/-! ## The whole request -/

section Whole

variable {env : Env} {f : Faults} {s : Registries} {r : UpdateRequest} {n : ℕ}

theorem updateSchedule_of_parse {info : Str} (h : parseUpdate env.codec info = some r) :
    s.updateSchedule env f info = (s.reschedule env f r.devId r.recSchedule r.bakSchedule).map fun p =>
      (p.1, respondUpdate r.devId p.2) := by
  unfold parseUpdate at h
  unfold Registries.updateSchedule
  cases hpost : postIds env.codec info with
  | error e => simp [hpost] at h
  | ok items =>
    simp only [hpost] at h
    obtain ⟨devId, hid, rfl⟩ := Option.map_eq_some_iff.1 h
    simp only [hid, Option.bind_eq_bind, Option.bind_some]
    exact Option.map_eq_bind.symm

theorem updateSchedule_unread {info : Str} (h : parseUpdate env.codec info = none) :
    s.updateSchedule env f info = none ∨ ∃ e, s.updateSchedule env f info = some (s, respondUpdate [] (some e)) := by
  unfold parseUpdate at h
  unfold Registries.updateSchedule
  cases hpost : postIds env.codec info with
  | error e => exact .inr ⟨storeApiRet e, rfl⟩
  | ok items =>
    simp only [hpost] at h
    left
    simp [Option.map_eq_none_iff.1 h]

/-- **What a request leaves** once its camera was found, and how it is answered. -/
theorem reschedule_written (f : Faults) (hw : Written env r) (hid : 0 ∉ r.devId)
    (hn : s.cameraInfoList.findIdx? (·.id = r.devId) = some n)
    (hsome : ¬ (r.recSchedule.isNone ∧ r.bakSchedule.isNone)) :
    match changes (verdict env.codec f.updateRec r.recSchedule) (verdict env.codec f.updateBak r.bakSchedule) with
    | none => s.reschedule env f r.devId r.recSchedule r.bakSchedule = none
    | some (ch, complete) => ∃ t err, s.reschedule env f r.devId r.recSchedule r.bakSchedule = some (t, err) ∧
        t.schedules = s.schedules.written env.db r.devId n ch ∧
        (err = none ↔ complete = true ∧ ch.Known s.schedules r.devId) := by
  have hrec := updateRec_spec hid f s n hw.recording
  simp only [Registries.reschedule, hn, if_neg hsome]
  cases hr : verdict env.codec f.updateRec r.recSchedule with
  | crashes =>
    rw [hr] at hrec
    simp only [changes, hrec]
    rfl
  | refused =>
    rw [hr] at hrec
    obtain ⟨e, he⟩ := hrec
    exact ⟨s, some e, by simp [he], written_nothing.symm, by simp⟩
  | passes p =>
    rw [hr] at hrec
    obtain ⟨reg, err, hreg, hwritten, herr⟩ := hrec
    have hbackups : reg.schedules.backups = s.schedules.backups := by
      rw [hwritten]
      rfl
    have hbak := updateBak_spec hid f reg n hw.backup
    simp only [hreg, Option.bind_eq_bind, Option.bind_some, if_true]
    cases hb : verdict env.codec f.updateBak r.bakSchedule with
    | crashes =>
      rw [hb] at hbak
      simp only [changes, hbak]
      rfl
    | refused =>
      -- what was written for the recording schedule stays
      rw [hb] at hbak
      obtain ⟨e, he⟩ := hbak
      exact ⟨reg, some e, by simp [he], hwritten, by simp⟩
    | passes b =>
      rw [hb] at hbak
      obtain ⟨reg', err', hreg', hwritten', herr'⟩ := hbak
      refine ⟨reg', err'.or err, by simp [hreg'], ?_, ?_⟩
      · rw [hwritten', hwritten, written_written]
      · rw [Option.or_eq_none_iff, herr, herr', hbackups]
        exact ⟨fun h => ⟨rfl, h.2, h.1⟩, fun h => ⟨h.2.backup, h.2.recording⟩⟩

theorem verdict_brings {J : Codec} {dbFails : Bool} {item : Option CJson} {c : Option Parsed}
    (h : verdict J dbFails item = .passes c) : Brings J item c := by
  cases item with
  | none => exact (Verdict.passes.inj h).symm
  | some obj =>
    simp only [verdict] at h
    split at h
    · cases h
    · cases h
    · rename_i week hparse
      split_ifs at h
      exact ⟨week, accepted_of_ok hparse, (Verdict.passes.inj h).symm⟩

theorem Brings.unique {J : Codec} {item : Option CJson} {c c' : Option Parsed} (h : Brings J item c)
    (h' : Brings J item c') : c = c' := by
  cases item with
  | none => exact Eq.trans h (Eq.symm h')
  | some obj =>
    obtain ⟨week, hw, rfl⟩ := h
    obtain ⟨week', hw', rfl⟩ := h'
    rw [Option.some.inj (hw.symm.trans hw')]

/-- a request that comes to its end has written all it brings -/
theorem changes_complete {J : Codec} {db db' : Bool} {item item' : Option CJson} {ch : Changes}
    (h : changes (verdict J db item) (verdict J db' item') = some (ch, true)) :
    Brings J item ch.recording ∧ Brings J item' ch.backup := by
  cases hr : verdict J db item with
  | crashes => simp [hr, changes] at h
  | refused => simp [hr, changes] at h
  | passes p =>
    cases hb : verdict J db' item' with
    | crashes => simp [hr, hb, changes] at h
    | refused => simp [hr, hb, changes] at h
    | passes b =>
      obtain rfl : (⟨p, b⟩ : Changes) = ch := by simpa [hr, hb, changes] using h
      exact ⟨verdict_brings hr, verdict_brings hb⟩

theorem failsOrReplaces_of_unchanged {info id : Str} {e : String}
    (h : s.updateSchedule env f info = some (s, respondUpdate id (some e))) : FailsOrReplaces env f s info where
  failed t response ht _ := by
    obtain ⟨rfl, -⟩ := Prod.mk.inj (Option.some.inj (h.symm.trans ht))
    rfl
  replaced t response ht hcode := by
    obtain ⟨-, rfl⟩ := Prod.mk.inj (Option.some.inj (h.symm.trans ht))
    simp [respondUpdate, respond] at hcode

/-- the property for an answer that is known -/
theorem failsOrReplaces_iff {info : Str} (hparse : parseUpdate env.codec info = some r) {t : Registries}
    {err : Option String} (h : s.reschedule env f r.devId r.recSchedule r.bakSchedule = some (t, err)) :
    FailsOrReplaces env f s info ↔ (err ≠ none → t.schedules = s.schedules) ∧ (err = none → ∃ ch : Changes,
      Brings env.codec r.recSchedule ch.recording ∧ Brings env.codec r.bakSchedule ch.backup ∧
      t.schedules = s.schedules.replaced r.devId ch) := by
  have hupdate : s.updateSchedule env f info = some (t, respondUpdate r.devId err) := by
    rw [updateSchedule_of_parse hparse, h, Option.map_some]
  have hcode : (respondUpdate r.devId err).code = err.isNone := rfl
  constructor
  · intro hp
    refine ⟨fun hne => hp.failed t _ hupdate ?_, fun hnone => ?_⟩
    · rw [hcode]
      simpa using Option.isSome_iff_ne_none.2 hne
    · obtain ⟨r', ch, hr', hrec, hbak, ht⟩ := hp.replaced t _ hupdate (by rw [hcode, hnone]; rfl)
      obtain rfl := Option.some.inj (hparse.symm.trans hr')
      exact ⟨ch, hrec, hbak, ht⟩
  · rintro ⟨hfailed, hreplaced⟩
    refine ⟨fun t' response ht hfail => ?_, fun t' response ht hok => ?_⟩
    · obtain ⟨rfl, rfl⟩ := Prod.mk.inj (Option.some.inj (hupdate.symm.trans ht))
      refine hfailed fun hnone => ?_
      rw [hcode, hnone] at hfail
      cases hfail
    · obtain ⟨rfl, rfl⟩ := Prod.mk.inj (Option.some.inj (hupdate.symm.trans ht))
      obtain ⟨ch, hch⟩ := hreplaced (by simpa [hcode] using hok)
      exact ⟨r, ch, hparse, hch⟩

/-- a request without schedules is refused as it is -/
theorem cleanUpdate_empty (hrec : r.recSchedule = none) (hbak : r.bakSchedule = none) : CleanUpdate env f s r := by
  intro n _ ch complete hch
  simp only [hrec, hbak, verdict, changes, Option.some.injEq, Prod.mk.injEq] at hch
  obtain ⟨rfl, rfl⟩ := hch
  exact ⟨fun _ => ⟨fun _ _ _ _ _ => rfl, fun _ _ _ _ => rfl⟩,
    fun _ => ⟨fun _ _ _ => rfl, fun _ _ => rfl, nofun, nofun⟩⟩

theorem cleanUpdate_iff (hn : s.cameraInfoList.findIdx? (·.id = r.devId) = some n) {ch : Changes} {complete : Bool}
    (hch : changes (verdict env.codec f.updateRec r.recSchedule) (verdict env.codec f.updateBak r.bakSchedule) =
      some (ch, complete)) :
    CleanUpdate env f s r ↔
      (complete = true ∧ ch.Known s.schedules r.devId → OthersHad env.db s.schedules r.devId n ch) ∧
      (¬ (complete = true ∧ ch.Known s.schedules r.devId) → HadAlready env.db s.schedules r.devId n ch) := by
  constructor
  · intro h
    exact h n hn ch complete hch
  · intro h n' hn' ch' complete' hch'
    obtain rfl := Option.some.inj (hn.symm.trans hn')
    obtain ⟨rfl, rfl⟩ := Prod.mk.inj (Option.some.inj (hch.symm.trans hch'))
    exact h

/-- the camera is found, and there is something to write -/
theorem update_found_iff {info : Str} (hparse : parseUpdate env.codec info = some r) (hw : Written env r)
    (hn : s.cameraInfoList.findIdx? (·.id = r.devId) = some n)
    (hsome : ¬ (r.recSchedule.isNone ∧ r.bakSchedule.isNone)) :
    FailsOrReplaces env f s info ↔ CleanUpdate env f s r := by
  have hwritten := reschedule_written f hw (parseUpdate_no_zero hparse) hn hsome
  have hlist : s.schedules.list.findIdx? (·.id = r.devId) = some n := by
    rw [← hn, Registries.schedules, List.findIdx?_map]
    rfl
  cases hch : changes (verdict env.codec f.updateRec r.recSchedule) (verdict env.codec f.updateBak r.bakSchedule) with
  | none =>
    rw [hch] at hwritten
    have hcrash : s.updateSchedule env f info = none := by
      rw [updateSchedule_of_parse hparse, hwritten, Option.map_none]
    refine iff_of_true ⟨fun t response ht => ?_, fun t response ht => ?_⟩ fun n' _ ch complete hch' => ?_
    · cases hcrash.symm.trans ht
    · cases hcrash.symm.trans ht
    · cases hch.symm.trans hch'
  | some p =>
    obtain ⟨ch, complete⟩ := p
    rw [hch] at hwritten
    obtain ⟨t, err, ht, hsched, herr⟩ := hwritten
    rw [failsOrReplaces_iff hparse ht, cleanUpdate_iff hn hch, hsched, and_comm]
    refine and_congr (imp_congr_ctx herr fun hdone => ?_) (imp_congr_ctx (not_congr herr) fun _ => written_eq_self_iff)
    obtain ⟨rfl, hknown⟩ := hdone
    obtain ⟨hrec, hbak⟩ := changes_complete hch
    rw [← written_eq_replaced_iff hlist hknown]
    constructor
    · rintro ⟨ch', hrec', hbak', heq⟩
      obtain rfl : ch' = ch := Changes.ext (hrec'.unique hrec) (hbak'.unique hbak)
      exact heq
    · intro heq
      exact ⟨ch, hrec, hbak, heq⟩

/-- **When an update is all or nothing.** -/
theorem update_iff {env : Env} (f : Faults) (s : Registries) {info : Str}
    (hw : ∀ r, parseUpdate env.codec info = some r → Written env r) :
    FailsOrReplaces env f s info ↔ ∀ r, parseUpdate env.codec info = some r → CleanUpdate env f s r := by
  cases hparse : parseUpdate env.codec info with
  | none =>
    refine iff_of_true ?_ nofun
    rcases updateSchedule_unread (f := f) (s := s) hparse with h | ⟨e, h⟩
    · exact ⟨fun t response ht => by simp [h] at ht, fun t response ht => by simp [h] at ht⟩
    · exact failsOrReplaces_of_unchanged h
  | some r =>
    simp only [Option.some.injEq, forall_eq']
    have hupdate := updateSchedule_of_parse (f := f) (s := s) hparse
    cases hn : s.cameraInfoList.findIdx? (·.id = r.devId) with
    | none =>
      have hfail : s.updateSchedule env f info =
          some (s, respondUpdate r.devId (some (storeApiRet .doNotFindCamera))) := by
        rw [hupdate, Registries.reschedule, hn]
        rfl
      exact iff_of_true (failsOrReplaces_of_unchanged hfail) fun n hn' => nomatch hn.symm.trans hn'
    | some n =>
      by_cases hempty : r.recSchedule.isNone ∧ r.bakSchedule.isNone
      · have hfail : s.updateSchedule env f info =
            some (s, respondUpdate r.devId (some (storeApiRet .noScheduleInJson))) := by
          rw [hupdate, Registries.reschedule, hn]
          simp only [if_pos hempty, Option.map_some]
        exact iff_of_true (failsOrReplaces_of_unchanged hfail)
          (cleanUpdate_empty (Option.isNone_iff_eq_none.1 hempty.1) (Option.isNone_iff_eq_none.1 hempty.2))
      · exact update_found_iff hparse (hw r hparse) hn hempty

/-- a valid schedule, and a database call that does not fail -/
theorem verdict_valid {J : Codec} {item : Option CJson} (h : ∀ obj ∈ item, (accepted J (J.print obj)).isSome) :
    ∃ p, verdict J false item = .passes p := by
  cases item with
  | none => exact ⟨none, rfl⟩
  | some obj =>
    obtain ⟨week, hweek⟩ := Option.isSome_iff_exists.1 (h obj rfl)
    obtain ⟨result, hparse, hok⟩ := Option.bind_eq_some_iff.1 hweek
    cases result with
    | error e => cases hok
    | ok w => exact ⟨some (J.print obj, w), by simp [verdict, hparse]⟩

/-- **Where the registries agree, an update with valid schedules is clean.** -/
theorem cleanUpdate_of_agree (h : Agree env s) (htells : env.db.Tells s.cameraInfo r.devId)
    (hrec : ∀ obj ∈ r.recSchedule, (accepted env.codec (env.codec.print obj)).isSome)
    (hbak : ∀ obj ∈ r.bakSchedule, (accepted env.codec (env.codec.print obj)).isSome) : CleanUpdate env .none s r := by
  intro n hn ch complete hch
  obtain ⟨p, hp⟩ := verdict_valid hrec
  obtain ⟨b, hb⟩ := verdict_valid hbak
  obtain ⟨rfl, rfl⟩ : (⟨p, b⟩ : Changes) = ch ∧ true = complete := by
    simpa [show Faults.none.updateRec = false from rfl, show Faults.none.updateBak = false from rfl, hp, hb,
      changes] using hch
  obtain ⟨k, hk, hid⟩ := Coherent.exists_key hn
  obtain ⟨w, -, hw⟩ := h.coherent.recording.present k hk
  obtain ⟨v, -, hv⟩ := h.coherent.backup.present k hk
  rw [hid] at hw hv
  have hknown : Changes.Known ⟨p, b⟩ s.schedules r.devId := by
    refine ⟨fun _ hnone => ?_, fun _ hnone => by cases hnone.symm.trans hv⟩
    have hstream : s.streamThreadList r.devId = none := Option.map_eq_none_iff.1 hnone
    simp [StreamList.registered, hstream] at hw
  refine ⟨fun _ => ⟨?_, fun k hk hsame hne => ?_⟩, fun hno => absurd ⟨rfl, hknown⟩ hno⟩
  · have hlist : s.listKeys.findIdx? (·.id = r.devId) = some n := by
      rw [← hn, Registries.listKeys, List.findIdx?_map]
      rfl
    exact (modify_eq_map_iff hlist _).1 (modify_eq_map h.coherent.once hlist _)
  · obtain ⟨c, hc, rfl⟩ := List.mem_map.1 hk
    exact absurd (htells c hc hsame) hne

end Whole

/-! ## A backup schedule without days -/

/-- a recording schedule, and a backup schedule that is an empty list -/
def updateText : Str :=
  bytes "\x7b\"mainId\":\"1\",\"subId\":\"1\",\"recSchedule\":" ++ printWeek officeWeek ++
    bytes ",\"bakSchedule\":[]\x7d"

def updatePost : Str := bytes "POST /UpdateSchedule HTTP/1.1\r\n\r\n" ++ updateText

/-- the recording schedule alone -/
def recordingPost : Str := bytes "POST /UpdateSchedule HTTP/1.1\r\n\r\n" ++ scheduledText

/-- JSON as far as the two requests need it -/
def updateEnv : Env where
  storePath := bytes "/store/"
  db := tableDb
  codec :=
    { parse := fun s =>
        if s = updateText then
          some (.object (gateIds ++ [officeWeek.named "recSchedule", (CJson.array []).named "bakSchedule"]))
        else if s = scheduledText then
          some (.object (gateIds ++ [officeWeek.named "recSchedule"]))
        else if s = printWeek createDefaultSchedule then some createDefaultSchedule
        else if s = printWeek officeWeek then some officeWeek
        else if s = bytes "[]" then some (.array [])
        else none
      print := printWeek
      parse_nil := by decide +kernel }

/-- a new recording schedule for the one camera of the service is written everywhere -/
theorem update_iff_recording : ∃ s t response, load updateEnv [gateRow] = some s ∧
    s.updateSchedule updateEnv .none recordingPost = some (t, response) ∧ response.code = true ∧
    t.schedules.table.map Key.recSchedule = [printWeek officeWeek] ∧
    FailsOrReplaces updateEnv .none s recordingPost := by
  have hrun : ((load updateEnv [gateRow]).bind fun s => (parseUpdate updateEnv.codec recordingPost).bind fun r =>
      (s.updateSchedule updateEnv .none recordingPost).map fun t =>
        (t.2.code, t.1.schedules.table.map Key.recSchedule, decide (Written updateEnv r),
          decide (updateEnv.db.Tells s.cameraInfo r.devId),
          decide (∀ obj ∈ r.recSchedule, (accepted updateEnv.codec (updateEnv.codec.print obj)).isSome),
          r.bakSchedule.isNone)) =
      some (true, [printWeek officeWeek], true, true, true, true) := by decide +kernel
  obtain ⟨s, hs, hrun⟩ := Option.bind_eq_some_iff.1 hrun
  obtain ⟨r, hr, hrun⟩ := Option.bind_eq_some_iff.1 hrun
  obtain ⟨⟨t, response⟩, ht, hout⟩ := Option.map_eq_some_iff.1 hrun
  simp only [Prod.mk.injEq, decide_eq_true_eq, Option.isNone_iff_eq_none] at hout
  obtain ⟨hcode, htable, hw, htells, hvalid, hnone⟩ := hout
  have hall : ∀ r', parseUpdate updateEnv.codec recordingPost = some r' → r' = r := fun r' hr' =>
    Option.some.inj (hr'.symm.trans hr)
  refine ⟨s, t, response, hs, ht, hcode, htable, (update_iff .none s fun r' hr' => hall r' hr' ▸ hw).2 fun r' hr' => ?_⟩
  rw [hall r' hr']
  refine cleanUpdate_of_agree (load_agree hs).1 htells hvalid fun obj hobj => ?_
  rw [hnone] at hobj
  cases hobj

/-- the response is a failure, and the recording schedule of the table is the new one -/
theorem update_half_done : ∃ s t response, load updateEnv [gateRow] = some s ∧
    s.updateSchedule updateEnv .none updatePost = some (t, response) ∧ response.code = false ∧
    s.schedules.table.map Key.recSchedule = [printWeek createDefaultSchedule] ∧
    t.schedules.table.map Key.recSchedule = [printWeek officeWeek] ∧
    ¬ FailsOrReplaces updateEnv .none s updatePost := by
  have hrun : ((load updateEnv [gateRow]).bind fun s => (s.updateSchedule updateEnv .none updatePost).map fun t =>
      (t.2.code, s.schedules.table.map Key.recSchedule, t.1.schedules.table.map Key.recSchedule)) =
      some (false, [printWeek createDefaultSchedule], [printWeek officeWeek]) := by decide +kernel
  obtain ⟨s, hs, hupdate⟩ := Option.bind_eq_some_iff.1 hrun
  obtain ⟨⟨t, response⟩, ht, hout⟩ := Option.map_eq_some_iff.1 hupdate
  obtain ⟨hcode, hbefore, hafter⟩ : response.code = false ∧
      s.schedules.table.map Key.recSchedule = [printWeek createDefaultSchedule] ∧
      t.schedules.table.map Key.recSchedule = [printWeek officeWeek] := by simpa using hout
  refine ⟨s, t, response, hs, ht, hcode, hbefore, hafter, fun h => ?_⟩
  rw [h.failed t response ht hcode, hbefore] at hafter
  exact absurd hafter (by decide +kernel)

end StoreService.Http
