/-
An add request that fails, and what its rollback leaves (`AddRecodeDevice`, labels `remove_store_dev`,
`delete_bak_sche` and `delete_camera_info`).

The request changes the table, `bakScheduleList`, `storeDeviceList` and `streamThreadList` one after the other. Where
one refuses, what came before is undone by id (`register_cases`).

Results, for a request whose row is stored as it is and whose DELETE is sent whole:
- `add_undone_iff`: a failed request leaves the registries as they were exactly if no entry is left half built and,
  where a list refuses, deleting a row takes back the insert: the DELETE works, and if the table has a row whose id the
  collation does not tell from this one, it has nothing but copies of the new row from there on (`SameRow`).
- `add_not_undone`: a camera added a second time with another schedule loses its old row; an entry whose buffers
  could not be allocated stays; and a camera whose id differs in case loses its row to the rollback of another.
-/
import StoreService.Http.Agreement
import StoreService.Core.Checked

namespace StoreService.Http

open StoreService.Json StoreService.Schedule StoreService.Stream StoreService.Keyed StoreService.Check

/-! ## All or nothing -/

/-- the request is answered, and a failed one leaves the registries as they were -/
def AllOrNothing (env : Env) (f : Faults) (s : Registries) (info : Str) : Prop :=
  ∃ t response, s.addRecodeDevice env f info = some (t, response) ∧ (response.code = false → t = s)

/-- from the first row that the DELETE matches on, the table has the row of the request only -/
def SameRow (db : Database) (s : Registries) (r : AddRequest) : Prop :=
  ∀ c ∈ s.cameraInfo.dropWhile (!db.same ·.id r.devId), c = r.info

instance (db : Database) (s : Registries) (r : AddRequest) : Decidable (SameRow db s r) :=
  inferInstanceAs (Decidable (∀ c ∈ s.cameraInfo.dropWhile (!db.same ·.id r.devId), c = r.info))

section AllOrNothing

variable {env : Env} {f : Faults} {s : Registries} {r : AddRequest}

theorem rowsUndone_eq_iff (hdeletes : (Command.deleteCameraInfo (cStr r.devId)).Carried) (hid : 0 ∉ r.devId) :
    rowsUndone env f (s.cameraInfo ++ [r.info]) r.devId = s.cameraInfo ↔
      f.deleteInfo = false ∧ SameRow env.db s r := by
  unfold rowsUndone
  cases hdel : f.deleteInfo with
  | true => simp [deleteCameraInfoInTable, Database.send]
  | false =>
    rw [Database.exec_delete hdeletes hid, Option.getD_some,
      eraseP_append_eq_self_iff (p := fun c : CameraInfo => env.db.same c.id r.devId) (env.db.same_refl r.devId)]
    exact (and_iff_right rfl).symm

theorem addRecodeDevice_of_register {info : Str} (hparse : parseAdd env.codec info = some (.ok r)) {t : Registries}
    {err : Option String} (h : s.register env f r = some (t, err)) :
    s.addRecodeDevice env f info = some (t, respondAdd r.devId err) := by
  simp [Registries.addRecodeDevice, hparse, h]

theorem allOrNothing_iff {info : Str} (hparse : parseAdd env.codec info = some (.ok r)) {t : Registries}
    {err : Option String} (h : s.register env f r = some (t, err)) :
    AllOrNothing env f s info ↔ (err ≠ none → t = s) := by
  have hadd := addRecodeDevice_of_register hparse h
  have hcode : (respondAdd r.devId err).code = false ↔ err ≠ none := by
    cases err with
    | none => simp [respondAdd, respond]
    | some e => simp [respondAdd, respond]
  constructor
  · rintro ⟨t', response, ht, hsame⟩ herr
    obtain ⟨rfl, rfl⟩ := Prod.mk.inj (Option.some.inj (hadd.symm.trans ht))
    exact hsame (hcode.2 herr)
  · intro hsame
    exact ⟨t, _, hadd, fun hfail => hsame (hcode.1 hfail)⟩

/-- **When a failed add request leaves everything as it was.** -/
theorem add_undone_iff {info : Str} (hparse : parseAdd env.codec info = some (.ok r)) (hstores : env.db.Stores r.info)
    (hdeletes : (Command.deleteCameraInfo (cStr r.devId)).Carried) :
    AllOrNothing env f s info ↔ f.createTable ∨ f.insertInfo ∨
      (¬ HalfBuilt f s r ∧ (Refused f s r → f.deleteInfo = false ∧ SameRow env.db s r)) := by
  have hinsert : insertCameraInfoToTable env.db f.insertInfo s.cameraInfo r.info =
      if f.insertInfo then none else some (s.cameraInfo ++ [r.info]) := by
    cases f.insertInfo with
    | true => rfl
    | false => exact Database.exec_insert hstores s.cameraInfo
  rw [← or_assoc]
  rcases register_cases env f s r with ⟨hdb, h⟩ | ⟨rows, hins, hend⟩
  · rw [allOrNothing_iff hparse h]
    refine iff_of_true (fun _ => rfl) (.inl (hdb.imp_right fun hnone => ?_))
    rw [hinsert] at hnone
    by_contra hi
    rw [if_neg hi] at hnone
    cases hnone
  have hi : ¬ f.insertInfo := by
    intro hi
    have hsome := hins.inserted
    rw [hinsert, if_pos hi] at hsome
    cases hsome
  obtain rfl : s.cameraInfo ++ [r.info] = rows := by
    have hsome := hins.inserted
    rw [hinsert, if_neg hi] at hsome
    exact Option.some.inj hsome
  have hdb : ¬ (f.createTable ∨ f.insertInfo) := by simp [hins.created, hi]
  rw [or_iff_right hdb]
  generalize hresult : s.register env f r = result at hend
  cases hend with
  | refused hrefused hbuilt e =>
    have hrows : ({ s with cameraInfo := rowsUndone env f (s.cameraInfo ++ [r.info]) r.devId } : Registries) = s ↔
        rowsUndone env f (s.cameraInfo ++ [r.info]) r.devId = s.cameraInfo :=
      ⟨fun he => congrArg Registries.cameraInfo he, fun he => by rw [he]⟩
    rw [allOrNothing_iff hparse hresult, hrows, rowsUndone_eq_iff hdeletes (parseAdd_ok hparse).no_zero]
    simp [hrefused, hbuilt]
  | halfBuilt hbuilt e =>
    rw [allOrNothing_iff hparse hresult]
    refine iff_of_false (fun hsame => ?_) fun hno => hno.1 hbuilt
    have hentry := congrFun (congrArg Registries.storeDeviceList (hsame (by simp))) r.devId
    simp [hbuilt.store] at hentry
  | granted hrefused hbuilt _ =>
    rw [allOrNothing_iff hparse hresult]
    exact iff_of_true (fun hne => absurd rfl hne) ⟨hbuilt, fun hr => absurd hr hrefused⟩

end AllOrNothing

/-! ## Cameras that fail to be added -/

/-- the directory of a second camera cannot be made: everything is taken back -/
theorem add_undone_directory : ∃ s r, noCameras.addRecodeDevice caseEnv .none (post (caseText "A")) = some s ∧
    s.1.cameraInfo.map (·.id) = [bytes "A-1"] ∧ parseAdd caseEnv.codec (post (caseText "B")) = some (.ok r) ∧
    Refused { Faults.none with mkdir := true } s.1 r ∧
    AllOrNothing caseEnv { Faults.none with mkdir := true } s.1 (post (caseText "B")) := by
  have hrun : ((noCameras.addRecodeDevice caseEnv .none (post (caseText "A"))).bind fun s =>
      ((parseAdd caseEnv.codec (post (caseText "B"))).bind Except.toOption).map fun r =>
        (s.1.cameraInfo.map (·.id), decide (SentAdd tableDb s.1 r), decide (SameRow tableDb s.1 r))) =
      some ([bytes "A-1"], true, true) := by decide +kernel
  obtain ⟨s, hs, hparse⟩ := Option.bind_eq_some_iff.1 hrun
  obtain ⟨r, hr, hout⟩ := Option.map_eq_some_iff.1 hparse
  obtain ⟨hids, hout⟩ := Prod.mk.inj hout
  obtain ⟨hsent, hrow⟩ := Prod.mk.inj hout
  have hparse : parseAdd caseEnv.codec (post (caseText "B")) = some (.ok r) := ok_of_toOption hr
  have hsent : SentAdd caseEnv.db s.1 r := of_decide_eq_true hsent
  have hbuilt : ¬ HalfBuilt { Faults.none with mkdir := true } s.1 r := fun h => absurd h.directory (by decide)
  exact ⟨s, r, hs, hids, hparse, .inr (.inr (.inl rfl)), (add_undone_iff hparse hsent.stores hsent.deletes).2
    (.inr (.inr ⟨hbuilt, fun _ => ⟨rfl, of_decide_eq_true hrow⟩⟩))⟩

/-- a second add with another schedule is refused and takes the old row; a failed malloc leaves its entry; and a failed
mkdir for "a-1" takes the row of "A-1" -/
theorem add_not_undone :
    (∃ s t response, noCameras.addRecodeDevice gateEnv .none (post plainText) = some s ∧
      s.1.addRecodeDevice gateEnv .none (post scheduledText) = some (t, response) ∧ response.code = false ∧
      s.1.cameraInfo.map (·.recSchedule) = [printWeek createDefaultSchedule] ∧
      t.cameraInfo.map (·.recSchedule) = [printWeek officeWeek] ∧
      ¬ AllOrNothing gateEnv .none s.1 (post scheduledText)) ∧
    (∃ t response,
      noCameras.addRecodeDevice gateEnv { Faults.none with malloc := true } (post plainText) = some (t, response) ∧
      response.code = false ∧ noCameras.storeDeviceList (bytes "1-1") = none ∧
      t.storeDeviceList (bytes "1-1") = some (halfEntry gateEnv (bytes "1-1"))) ∧
    ∃ s t response, noCameras.addRecodeDevice caseEnv .none (post (caseText "A")) = some s ∧
      s.1.addRecodeDevice caseEnv { Faults.none with mkdir := true } (post (caseText "a")) = some (t, response) ∧
      response.code = false ∧ s.1.cameraInfo.map (·.id) = [bytes "A-1"] ∧ t.cameraInfo.map (·.id) = [bytes "a-1"] := by
  have htwice : ((noCameras.addRecodeDevice gateEnv .none (post plainText)).bind fun s =>
      (s.1.addRecodeDevice gateEnv .none (post scheduledText)).map fun t =>
        (t.2.code, s.1.cameraInfo.map (·.recSchedule), t.1.cameraInfo.map (·.recSchedule))) =
      some (false, [printWeek createDefaultSchedule], [printWeek officeWeek]) := by decide +kernel
  have hmalloc : (noCameras.addRecodeDevice gateEnv { Faults.none with malloc := true } (post plainText)).map
      (fun t => (t.2.code, t.1.storeDeviceList (bytes "1-1"))) =
      some (false, some (halfEntry gateEnv (bytes "1-1"))) := by decide +kernel
  have hcase : ((noCameras.addRecodeDevice caseEnv .none (post (caseText "A"))).bind fun s =>
      (s.1.addRecodeDevice caseEnv { Faults.none with mkdir := true } (post (caseText "a"))).map fun t =>
        (t.2.code, s.1.cameraInfo.map (·.id), t.1.cameraInfo.map (·.id))) =
      some (false, [bytes "A-1"], [bytes "a-1"]) := by decide +kernel
  obtain ⟨s, hs, hadd⟩ := Option.bind_eq_some_iff.1 htwice
  obtain ⟨⟨t, response⟩, ht, hout⟩ := Option.map_eq_some_iff.1 hadd
  obtain ⟨⟨u, response'⟩, hu, hout'⟩ := Option.map_eq_some_iff.1 hmalloc
  obtain ⟨hcode, hbefore, hafter⟩ : response.code = false ∧
      s.1.cameraInfo.map (·.recSchedule) = [printWeek createDefaultSchedule] ∧
      t.cameraInfo.map (·.recSchedule) = [printWeek officeWeek] := by simpa using hout
  obtain ⟨hcode', hentry⟩ := Prod.mk.inj hout'
  obtain ⟨v, hv, hadd⟩ := Option.bind_eq_some_iff.1 hcase
  obtain ⟨⟨x, answer⟩, hx, hout⟩ := Option.map_eq_some_iff.1 hadd
  obtain ⟨hfailed, hupper, hlower⟩ : answer.code = false ∧ v.1.cameraInfo.map (·.id) = [bytes "A-1"] ∧
      x.cameraInfo.map (·.id) = [bytes "a-1"] := by simpa using hout
  refine ⟨⟨s, t, response, hs, ht, hcode, hbefore, hafter, ?_⟩, ⟨u, response', hu, hcode', rfl, hentry⟩, v, x, answer,
    hv, hx, hfailed, hupper, hlower⟩
  rintro ⟨t', response'', ht', hsame⟩
  obtain ⟨rfl, rfl⟩ := Prod.mk.inj (Option.some.inj (ht.symm.trans ht'))
  rw [hsame hcode, hbefore] at hafter
  exact absurd hafter (by decide +kernel)

end StoreService.Http
