/-
How a request to the registries ends (`AddRecodeDevice`, `DeleteRecodeDevice`, `UpdateSchedule`, http.cpp).

What one request can do is said here once, for every state, every choice of failing calls and any database; the results
about the registries are derived from it.

- `step_cases`: a request leaves everything as it is, or comes to one of the three functions behind the parsing.
- `register_cases`: an add request. The table refuses the row; or one of the lists refuses the camera (`Refused`), and
  the lists are as before with a DELETE sent; or a malloc fails (`HalfBuilt`), and the new entry of `storeDeviceList`
  stays as well; or all of them take the camera.
- `unregister_cases`: a delete request.
- `updateRec_cases`, `updateBak_cases`: the two halves of an update.
-/
import StoreService.Http.Registry

namespace StoreService.Http

open StoreService.Json StoreService.Schedule StoreService.Stream

/-! ## Requests -/

section Requests

variable {env : Env} {f : Faults} {s t : Registries} {info : Str} {response : Response}

theorem addRecodeDevice_cases (h : s.addRecodeDevice env f info = some (t, response)) :
    t = s ∨ ∃ r err, parseAdd env.codec info = some (.ok r) ∧ s.register env f r = some (t, err) := by
  unfold Registries.addRecodeDevice at h
  split at h
  · cases h
  · exact .inl (Prod.mk.inj (Option.some.inj h)).1.symm
  · rename_i r hparse
    obtain ⟨⟨t', err⟩, hreg, h⟩ := Option.map_eq_some_iff.1 h
    obtain ⟨rfl, -⟩ := Prod.mk.inj h
    exact .inr ⟨r, err, hparse, hreg⟩

theorem deleteRecodeDevice_cases (h : s.deleteRecodeDevice env f info = some (t, response)) :
    t = s ∨ ∃ id err, parseDelete env.codec info = some id ∧ s.unregister env f id = some (t, err) := by
  unfold Registries.deleteRecodeDevice at h
  split at h
  · exact .inl (Prod.mk.inj (Option.some.inj h)).1.symm
  · rename_i obj main sub hpost
    obtain ⟨id, hid, h⟩ := Option.bind_eq_some_iff.1 h
    obtain ⟨⟨t', err⟩, hreg, h⟩ := Option.bind_eq_some_iff.1 h
    obtain ⟨rfl, -⟩ := Prod.mk.inj (Option.some.inj h)
    exact .inr ⟨id, err, by rw [parseDelete, hpost]; exact hid, hreg⟩

theorem updateSchedule_cases (h : s.updateSchedule env f info = some (t, response)) :
    t = s ∨ ∃ r err, parseUpdate env.codec info = some r ∧
      s.reschedule env f r.devId r.recSchedule r.bakSchedule = some (t, err) := by
  unfold Registries.updateSchedule at h
  split at h
  · exact .inl (Prod.mk.inj (Option.some.inj h)).1.symm
  · rename_i obj main sub hpost
    obtain ⟨id, hid, h⟩ := Option.bind_eq_some_iff.1 h
    obtain ⟨⟨t', err⟩, hresched, h⟩ := Option.bind_eq_some_iff.1 h
    obtain ⟨rfl, -⟩ := Prod.mk.inj (Option.some.inj h)
    refine .inr ⟨⟨id, _, _⟩, err, ?_, hresched⟩
    rw [parseUpdate, hpost]
    exact Option.map_eq_some_iff.2 ⟨id, hid, rfl⟩

/-- what one request can do to the registries -/
theorem step_cases {q : Request} (ht : step env s q = some t) :
    t = s ∨
    (∃ info r err, q = .add info ∧ parseAdd env.codec info = some (.ok r) ∧ s.register env .none r = some (t, err)) ∨
    (∃ info id err, q = .delete info ∧ parseDelete env.codec info = some id ∧
      s.unregister env .none id = some (t, err)) ∨
    (∃ info r err, q = .update info ∧ parseUpdate env.codec info = some r ∧
      s.reschedule env .none r.devId r.recSchedule r.bakSchedule = some (t, err)) ∨
    ∃ now, t = { s with streamThreadList := s.streamThreadList.tick now } := by
  cases q with
  | add info =>
    obtain ⟨⟨t, response⟩, hr, rfl⟩ := Option.map_eq_some_iff.1 ht
    rcases addRecodeDevice_cases hr with heq | ⟨r, err, hparse, hreg⟩
    · exact .inl heq
    · exact .inr (.inl ⟨info, r, err, rfl, hparse, hreg⟩)
  | delete info =>
    obtain ⟨⟨t, response⟩, hr, rfl⟩ := Option.map_eq_some_iff.1 ht
    rcases deleteRecodeDevice_cases hr with heq | ⟨id, err, hparse, hunreg⟩
    · exact .inl heq
    · exact .inr (.inr (.inl ⟨info, id, err, rfl, hparse, hunreg⟩))
  | update info =>
    obtain ⟨⟨t, response⟩, hr, rfl⟩ := Option.map_eq_some_iff.1 ht
    rcases updateSchedule_cases hr with heq | ⟨r, err, hparse, hresched⟩
    · exact .inl heq
    · exact .inr (.inr (.inr (.inl ⟨info, r, err, rfl, hparse, hresched⟩)))
  | tick now => exact .inr (.inr (.inr (.inr ⟨now, (Option.some.inj ht).symm⟩)))

end Requests

/-- ids are made of C strings -/
theorem zero_not_mem_deviceId {main sub : CJson} {id : Str} (h : deviceId main sub = some id) : 0 ∉ id := by
  obtain ⟨m, -, h⟩ := Option.bind_eq_some_iff.1 h
  obtain ⟨c, -, h⟩ := Option.bind_eq_some_iff.1 h
  obtain rfl := Option.some.inj h
  have hdash : 0 ∉ bytes "-" := by decide
  simp only [List.mem_append, not_or]
  exact ⟨⟨zero_not_mem_text m, hdash⟩, zero_not_mem_text c⟩

theorem deviceId_ne_nil {main sub : CJson} {id : Str} (h : deviceId main sub = some id) : id ≠ [] := by
  obtain ⟨m, -, h⟩ := Option.bind_eq_some_iff.1 h
  obtain ⟨c, -, h⟩ := Option.bind_eq_some_iff.1 h
  obtain rfl := Option.some.inj h
  have hdash : bytes "-" ≠ [] := by decide
  exact List.append_ne_nil_of_left_ne_nil (List.append_ne_nil_of_right_ne_nil _ hdash) _

theorem accepted_of_ok {J : Codec} {json : Str} {week : Week} (h : parseSchedule J json = some (.ok week)) :
    accepted J json = some week := by
  simp [accepted, h, Except.toOption]

/-- what is known of an add request that was read -/
structure AddRequest.Ok (J : Codec) (r : AddRequest) : Prop where
  named : r.devId ≠ []
  no_zero : 0 ∉ r.devId
  recording : accepted J r.recScheduleCjson = some r.recSchedule
  backup : accepted J r.bakScheduleCjson = some r.bakSchedule

/-- what an add request was made from -/
structure Posted (J : Codec) (info : Str) (r : AddRequest) (obj : CJson) : Prop where
  ids : ∃ main sub, postIds J info = .ok (obj, main, sub) ∧ deviceId main sub = some r.devId
  recText : r.recScheduleCjson = J.print ((obj.getObjectItem (bytes "recSchedule")).getD createDefaultSchedule)
  bakText : r.bakScheduleCjson = J.print ((obj.getObjectItem (bytes "bakSchedule")).getD createDefaultSchedule)
  recording : parseSchedule J r.recScheduleCjson = some (.ok r.recSchedule)
  backup : parseSchedule J r.bakScheduleCjson = some (.ok r.bakSchedule)

theorem parseAdd_posted {J : Codec} {info : Str} {r : AddRequest} (h : parseAdd J info = some (.ok r)) :
    ∃ obj, Posted J info r obj := by
  unfold parseAdd at h
  split at h
  · simp at h
  · rename_i obj main sub hids
    split at h
    · simp at h
    · obtain ⟨devId, hid, h⟩ := Option.bind_eq_some_iff.1 h
      obtain ⟨name, -, h⟩ := Option.bind_eq_some_iff.1 h
      obtain ⟨recording, hrec, h⟩ := Option.bind_eq_some_iff.1 h
      cases recording with
      | error e => simp at h
      | ok recSchedule =>
        obtain ⟨backup, hbak, h⟩ := Option.bind_eq_some_iff.1 h
        cases backup with
        | error e => simp at h
        | ok bakSchedule =>
          obtain rfl := Except.ok.inj (Option.some.inj h)
          exact ⟨obj, ⟨main, sub, hids, hid⟩, rfl, rfl, hrec, hbak⟩

theorem parseAdd_ok {J : Codec} {info : Str} {r : AddRequest} (h : parseAdd J info = some (.ok r)) : r.Ok J := by
  obtain ⟨obj, hposted⟩ := parseAdd_posted h
  obtain ⟨main, sub, -, hid⟩ := hposted.ids
  exact ⟨deviceId_ne_nil hid, zero_not_mem_deviceId hid, accepted_of_ok hposted.recording,
    accepted_of_ok hposted.backup⟩

theorem parseDelete_no_zero {J : Codec} {info id : Str} (h : parseDelete J info = some id) : 0 ∉ id := by
  unfold parseDelete at h
  split at h
  · cases h
  · exact zero_not_mem_deviceId h

theorem parseUpdate_no_zero {J : Codec} {info : Str} {r : UpdateRequest} (h : parseUpdate J info = some r) :
    0 ∉ r.devId := by
  unfold parseUpdate at h
  split at h
  · cases h
  · obtain ⟨id, hid, rfl⟩ := Option.map_eq_some_iff.1 h
    exact zero_not_mem_deviceId hid

/-! ## How an add request ends -/

def plannedEntry (env : Env) (id : Str) : StoreEntry := ⟨env.storePath ++ id, .planned, true⟩

def halfEntry (env : Env) (id : Str) : StoreEntry := ⟨env.storePath ++ id, .planned, false⟩

/-- a list refuses the camera, or its directory cannot be made -/
def Refused (f : Faults) (s : Registries) (r : AddRequest) : Prop :=
  s.bakScheduleList r.devId ≠ none ∨ s.storeDeviceList r.devId ≠ none ∨ f.mkdir ∨
    s.streamThreadList.registered r.devId ≠ none

/-- `AddStoreDevice` makes an entry and cannot allocate its buffers -/
structure HalfBuilt (f : Faults) (s : Registries) (r : AddRequest) : Prop where
  backup : s.bakScheduleList r.devId = none
  store : s.storeDeviceList r.devId = none
  directory : f.mkdir = false
  malloc : f.malloc = true

/-- the rows behind label `delete_camera_info` -/
def rowsUndone (env : Env) (f : Faults) (rows : List CameraInfo) (devId : Str) : List CameraInfo :=
  (deleteCameraInfoInTable env.db f.deleteInfo rows devId).getD rows

/-- the row is in the table -/
structure Inserted (env : Env) (f : Faults) (s : Registries) (r : AddRequest) (rows : List CameraInfo) : Prop where
  created : f.createTable = false
  inserted : insertCameraInfoToTable env.db f.insertInfo s.cameraInfo r.info = some rows

/-- all lists take the camera -/
structure Granted (env : Env) (s : Registries) (r : AddRequest) (rows : List CameraInfo) (t : Registries) : Prop where
  table : t.cameraInfo = rows
  list : t.cameraInfoList = s.cameraInfoList ++ [r.info]
  backup : t.bakScheduleList = Function.update s.bakScheduleList r.devId (some r.bakSchedule)
  store : t.storeDeviceList = Function.update s.storeDeviceList r.devId (some (plannedEntry env r.devId))
  recording : t.streamThreadList.registered =
    Function.update s.streamThreadList.registered r.devId (some r.recSchedule)

section Add

variable {env : Env} {f : Faults} {s : Registries} {r : AddRequest} {rows : List CameraInfo}

/-- `RemoveBakSchedule` takes back what `AddBakSchedule` did -/
theorem update_update_none {V : Type} {l : Str → Option V} {id : Str} (h : l id = none) (v : Option V) :
    Function.update (Function.update l id v) id none = l := by
  rw [Function.update_idem, Function.update_eq_self_iff.2 h.symm]

theorem addStream_refused {w : Week} {cb : StreamCb} {l : StreamList} {id : Str} (h : l.registered id ≠ none) :
    l.addStream id w cb = .error .deviceAlreadyExist := by
  unfold StreamList.registered at h
  unfold StreamList.addStream
  cases hl : l id with
  | none => simp [hl] at h
  | some e =>
    have hstate : e.threadState ≠ .cancel := by
      intro hcancel
      simp [hl, hcancel] at h
    simp [hstate]

theorem register_refused_backup (hi : Inserted env f s r rows) {w : Week}
    (hb : s.bakScheduleList r.devId = some w) :
    ∃ e, s.register env f r = some ({ s with cameraInfo := rowsUndone env f rows r.devId }, some e) := by
  simp only [Registries.register, hi.created, hi.inserted, addBakSchedule, hb]
  exact ⟨_, rfl⟩

/-- with the schedule in `bakScheduleList` -/
theorem register_store (hi : Inserted env f s r rows) (hb : s.bakScheduleList r.devId = none)
    {store : Str → Option StoreEntry} {e : ErrorNo}
    (hs : addStoreDevice env f s.storeDeviceList r.devId = (store, some e)) :
    s.register env f r = some ({ s with cameraInfo := rowsUndone env f rows r.devId, storeDeviceList := store },
      some (storeApiRet e)) := by
  simp [Registries.register, hi.created, hi.inserted, addBakSchedule, hb, hs, Registries.deleteBakSche,
    removeBakSchedule, Registries.deleteCameraInfo, rowsUndone, update_update_none hb]

theorem addStoreDevice_known {e : StoreEntry} (hs : s.storeDeviceList r.devId = some e) :
    addStoreDevice env f s.storeDeviceList r.devId = (s.storeDeviceList, some .deviceAlreadyExist) := by
  simp [addStoreDevice, hs]

theorem addStoreDevice_mkdir (hs : s.storeDeviceList r.devId = none) (hd : f.mkdir = true) :
    addStoreDevice env f s.storeDeviceList r.devId = (s.storeDeviceList, some .createStoreDirectoryFail) := by
  simp [addStoreDevice, hs, hd]

theorem addStoreDevice_malloc (hs : s.storeDeviceList r.devId = none) (hd : f.mkdir = false) (hm : f.malloc = true) :
    addStoreDevice env f s.storeDeviceList r.devId =
      (Function.update s.storeDeviceList r.devId (some (halfEntry env r.devId)), some .mallocMemoryFail) := by
  simp [addStoreDevice, hs, hd, hm, halfEntry]

theorem addStoreDevice_ok (hs : s.storeDeviceList r.devId = none) (hd : f.mkdir = false) (hm : f.malloc = false) :
    addStoreDevice env f s.storeDeviceList r.devId =
      (Function.update s.storeDeviceList r.devId (some (plannedEntry env r.devId)), none) := by
  simp [addStoreDevice, hs, hd, hm, plannedEntry]

theorem register_refused_stream (hi : Inserted env f s r rows) (hb : s.bakScheduleList r.devId = none)
    (hs : s.storeDeviceList r.devId = none) (hd : f.mkdir = false) (hm : f.malloc = false)
    (hst : s.streamThreadList.registered r.devId ≠ none) :
    ∃ e, s.register env f r = some ({ s with cameraInfo := rowsUndone env f rows r.devId }, some e) := by
  refine ⟨storeApiRet .deviceAlreadyExist, ?_⟩
  simp [Registries.register, hi.created, hi.inserted, addBakSchedule, hb, addStoreDevice_ok hs hd hm,
    addStream_refused hst, Registries.removeStoreDev, removeStoreDevice, plannedEntry, Registries.deleteBakSche,
    removeBakSchedule, Registries.deleteCameraInfo, rowsUndone, update_update_none hb, update_update_none hs]

theorem register_granted (hi : Inserted env f s r rows) (hb : s.bakScheduleList r.devId = none)
    (hs : s.storeDeviceList r.devId = none) (hd : f.mkdir = false) (hm : f.malloc = false)
    (hst : s.streamThreadList.registered r.devId = none) :
    ∃ t, s.register env f r = some (t, none) ∧ Granted env s r rows t := by
  obtain ⟨streams, hadd, hreg⟩ := StreamList.addStream_of_none (w := r.recSchedule) .storePlannedStream hst
  refine ⟨⟨rows, s.cameraInfoList ++ [r.info], Function.update s.bakScheduleList r.devId (some r.bakSchedule),
    Function.update s.storeDeviceList r.devId (some (plannedEntry env r.devId)), streams⟩, ?_, rfl, rfl, rfl, rfl, hreg⟩
  simp only [Registries.register, hi.created, hi.inserted, addBakSchedule, hb, addStoreDevice_ok hs hd hm, hadd]
  rfl

/-- an add request with the row inserted -/
inductive AddEnd (env : Env) (f : Faults) (s : Registries) (r : AddRequest) (rows : List CameraInfo) :
    Option (Registries × Option String) → Prop where
  | refused (hr : Refused f s r) (hb : ¬ HalfBuilt f s r) (e : String) :
    AddEnd env f s r rows (some ({ s with cameraInfo := rowsUndone env f rows r.devId }, some e))
  | halfBuilt (hb : HalfBuilt f s r) (e : String) :
    AddEnd env f s r rows (some ({ s with
      cameraInfo := rowsUndone env f rows r.devId
      storeDeviceList := Function.update s.storeDeviceList r.devId (some (halfEntry env r.devId)) }, some e))
  | granted (hr : ¬ Refused f s r) (hb : ¬ HalfBuilt f s r) {t : Registries} (ht : Granted env s r rows t) :
    AddEnd env f s r rows (some (t, none))

/-- an add request for a camera that neither list has -/
theorem register_new (hi : Inserted env f s r rows) (hb : s.bakScheduleList r.devId = none)
    (hs : s.storeDeviceList r.devId = none) : AddEnd env f s r rows (s.register env f r) := by
  cases hd : f.mkdir with
  | true =>
    have hbuilt : ¬ HalfBuilt f s r := fun h => absurd h.directory (by simp [hd])
    rw [register_store hi hb (addStoreDevice_mkdir hs hd)]
    exact .refused (.inr (.inr (.inl hd))) hbuilt _
  | false =>
    cases hm : f.malloc with
    | true =>
      -- AddStoreDevice has inserted the entry, and label delete_bak_sche does not remove it
      rw [register_store hi hb (addStoreDevice_malloc hs hd hm)]
      exact .halfBuilt ⟨hb, hs, hd, hm⟩ _
    | false =>
      have hbuilt : ¬ HalfBuilt f s r := fun h => absurd h.malloc (by simp [hm])
      by_cases hst : s.streamThreadList.registered r.devId = none
      · obtain ⟨t, ht, hgranted⟩ := register_granted hi hb hs hd hm hst
        rw [ht]
        exact .granted (by simp [Refused, hb, hs, hd, hst]) hbuilt hgranted
      · obtain ⟨e, he⟩ := register_refused_stream hi hb hs hd hm hst
        rw [he]
        exact .refused (.inr (.inr (.inr hst))) hbuilt e

/-- **How an add request ends.** -/
theorem register_cases (env : Env) (f : Faults) (s : Registries) (r : AddRequest) :
    ((f.createTable ∨ insertCameraInfoToTable env.db f.insertInfo s.cameraInfo r.info = none) ∧
      s.register env f r = some (s, some f.dbError)) ∨
    ∃ rows, Inserted env f s r rows ∧ AddEnd env f s r rows (s.register env f r) := by
  cases hc : f.createTable with
  | true => exact .inl ⟨.inl rfl, by simp [Registries.register, hc]⟩
  | false =>
    cases hi : insertCameraInfoToTable env.db f.insertInfo s.cameraInfo r.info with
    | none => exact .inl ⟨.inr rfl, by simp [Registries.register, hc, hi]⟩
    | some rows =>
      have hins : Inserted env f s r rows := ⟨hc, hi⟩
      refine .inr ⟨rows, hins, ?_⟩
      cases hb : s.bakScheduleList r.devId with
      | some w =>
        obtain ⟨e, he⟩ := register_refused_backup hins hb
        rw [he]
        exact .refused (.inl (by simp [hb])) (fun h => absurd h.backup (by simp [hb])) e
      | none =>
        cases hs : s.storeDeviceList r.devId with
        | some entry =>
          rw [register_store hins hb (addStoreDevice_known hs)]
          exact .refused (.inr (.inl (by simp [hs]))) (fun h => absurd h.store (by simp [hs])) _
        | none => exact register_new hins hb hs

end Add

/-! ## How a delete request ends -/

section Delete

variable {env : Env} {f : Faults} {s t : Registries} {id : Str} {err : Option String}

theorem removeStoreDevice_some {l : Str → Option StoreEntry} {p : (Str → Option StoreEntry) × Option ErrorNo}
    (h : removeStoreDevice l id = some p) : p.1 = Function.update l id none := by
  unfold removeStoreDevice at h
  split at h
  · rename_i hl
    rw [← Option.some.inj h, Function.update_eq_self_iff.2 hl.symm]
  · split_ifs at h
    rw [← Option.some.inj h]

/-- the camera is taken from all registries -/
structure Dropped (s : Registries) (id : Str) (rows : List CameraInfo) (t : Registries) : Prop where
  table : t.cameraInfo = rows
  list : t.cameraInfoList = deleteCameraInfoInList s.cameraInfoList id
  backup : t.bakScheduleList = Function.update s.bakScheduleList id none
  store : t.storeDeviceList = Function.update s.storeDeviceList id none
  recording : t.streamThreadList.registered = Function.update s.streamThreadList.registered id none

theorem unregister_cases (ht : s.unregister env f id = some (t, err)) :
    t = s ∨ ∃ rows, deleteCameraInfoInTable env.db f.deleteInfo s.cameraInfo id = some rows ∧ Dropped s id rows t := by
  unfold Registries.unregister at ht
  split at ht
  · exact .inl (Prod.mk.inj (Option.some.inj ht)).1.symm
  · rename_i rows hrows
    obtain ⟨store, hstore, ht⟩ := Option.map_eq_some_iff.1 ht
    obtain ⟨rfl, -⟩ := Prod.mk.inj ht
    exact .inr ⟨rows, hrows, rfl, rfl, rfl, removeStoreDevice_some hstore, StreamList.deleteStream_registered _ _⟩

end Delete

/-! ## How the two halves of an update end -/

section Update

variable {env : Env} {f : Faults} {s : Registries} {id : Str} {n : ℕ} {item : Option CJson} {p : Registries.Progress}

/-- the recording schedule is written -/
structure RecWritten (env : Env) (f : Faults) (s : Registries) (id : Str) (n : ℕ) (text : Str) (week : Week)
    (rows : List CameraInfo) (t : Registries) : Prop where
  updated : updateRecScheduleToCameraTable env.db f.updateRec s.cameraInfo id text = some rows
  table : t.cameraInfo = rows
  list : t.cameraInfoList = s.cameraInfoList.modify n fun c => { c with recSchedule := text }
  backup : t.bakScheduleList = s.bakScheduleList
  store : t.storeDeviceList = s.storeDeviceList
  streams : t.streamThreadList = (s.streamThreadList.updateRecodeSchedule id week).toOption.getD s.streamThreadList

/-- the backup schedule is written -/
structure BakWritten (env : Env) (f : Faults) (s : Registries) (id : Str) (n : ℕ) (text : Str) (week : Week)
    (rows : List CameraInfo) (t : Registries) : Prop where
  updated : updateBakScheduleToCameraTable env.db f.updateBak s.cameraInfo id text = some rows
  table : t.cameraInfo = rows
  list : t.cameraInfoList = s.cameraInfoList.modify n fun c => { c with bakSchedule := text }
  backup : t.bakScheduleList = (updateBakSchedule s.bakScheduleList id week).toOption.getD s.bakScheduleList
  store : t.storeDeviceList = s.storeDeviceList
  streams : t.streamThreadList = s.streamThreadList

theorem updateRec_cases (hp : s.updateRec env f id n item = some p) : p.reg = s ∨ ∃ obj week rows, item = some obj ∧
    accepted env.codec (env.codec.print obj) = some week ∧
    RecWritten env f s id n (env.codec.print obj) week rows p.reg := by
  cases item with
  | none => exact .inl (Option.some.inj hp ▸ rfl)
  | some obj =>
    obtain ⟨result, hparse, hp⟩ := Option.bind_eq_some_iff.1 hp
    cases result with
    | error e => exact .inl (Option.some.inj hp ▸ rfl)
    | ok week =>
      dsimp only at hp
      split at hp
      · exact .inl (Option.some.inj hp ▸ rfl)
      · rename_i rows hrows
        obtain rfl := Option.some.inj hp
        exact .inr ⟨obj, week, rows, rfl, accepted_of_ok hparse, hrows, rfl, rfl, rfl, rfl, rfl⟩

theorem updateBak_cases (hp : s.updateBak env f id n item = some p) : p.reg = s ∨ ∃ obj week rows, item = some obj ∧
    accepted env.codec (env.codec.print obj) = some week ∧
    BakWritten env f s id n (env.codec.print obj) week rows p.reg := by
  cases item with
  | none => exact .inl (Option.some.inj hp ▸ rfl)
  | some obj =>
    obtain ⟨result, hparse, hp⟩ := Option.bind_eq_some_iff.1 hp
    cases result with
    | error e => exact .inl (Option.some.inj hp ▸ rfl)
    | ok week =>
      dsimp only at hp
      split at hp
      · exact .inl (Option.some.inj hp ▸ rfl)
      · rename_i rows hrows
        obtain rfl := Option.some.inj hp
        exact .inr ⟨obj, week, rows, rfl, accepted_of_ok hparse, hrows, rfl, rfl, rfl, rfl, rfl⟩

/-- an update that was granted or not has gone through its two halves -/
theorem reschedule_cases {recObj bakObj : Option CJson} {r : Registries × Option String}
    (hr : s.reschedule env f id recObj bakObj = some r) :
    r.1 = s ∨ ∃ n, s.cameraInfoList.findIdx? (·.id = id) = some n ∧
      ∃ p, s.updateRec env f id n recObj = some p ∧
        (r.1 = p.reg ∨ ∃ q, p.reg.updateBak env f id n bakObj = some q ∧ r.1 = q.reg) := by
  unfold Registries.reschedule at hr
  split at hr
  · exact .inl (Option.some.inj hr ▸ rfl)
  · rename_i n hn
    split_ifs at hr
    · exact .inl (Option.some.inj hr ▸ rfl)
    · obtain ⟨p, hp, hr⟩ := Option.bind_eq_some_iff.1 hr
      refine .inr ⟨n, hn, p, hp, ?_⟩
      split_ifs at hr
      · obtain ⟨q, hq, hr⟩ := Option.bind_eq_some_iff.1 hr
        exact .inr ⟨q, hq, Option.some.inj hr ▸ rfl⟩
      · exact .inl (Option.some.inj hr ▸ rfl)

end Update

end StoreService.Http
