/-
The five registries of cameras agree.

`Agree`: the ids of `camera_info` are distinct, `cameraInfoList` has the same ids and schedule texts, and
`bakScheduleList`, `storeDeviceList` and the streams that are not cancelled have exactly these ids, with the schedules
the texts parse to (`Keyed.Mirrors`).

- `Coherent.step`: the four lists in memory always agree with each other, whatever the database makes of a command.
- `registries_agree`: all five agree in every state reached by add, delete and update requests and scheduler passes in
  which no accepted add request names a registered id with other schedule texts than the registered ones
  (`SameSchedules`), and in which the commands do what they are meant to (`Sent`): the texts have no quote or backslash
  that changes them, fit into the buffers and the columns, and no id of the table differs from the one of the request
  only in what the collation does not see. A restart then rebuilds the registries from the table.
- `readd_splits`: a second add of a camera with another recording schedule. `AddBakSchedule` refuses it, and the
  rollback removes the first row of the camera, which is the old one: the table keeps the new schedule, everything else
  the old.
- `case_splits`: the ids "A-1" and "a-1" are two cameras for the lists and one for the table: deleting the second
  deletes the row of the first.

A repeated add with the same texts goes through the same rollback; it leaves the new row in place of the old one.
-/
import StoreService.Http.Outcomes
import StoreService.Core.Keyed
import StoreService.Core.Runs

namespace StoreService.Http

open StoreService.Json StoreService.Schedule StoreService.Stream StoreService.Runs StoreService.Keyed

/-! ## Agreement -/

/-- what the registries have to agree on for a camera -/
structure Key where
  id : Str
  recSchedule : Str
  bakSchedule : Str
deriving DecidableEq, Repr

def CameraInfo.key (c : CameraInfo) : Key := ⟨c.id, c.recSchedule, c.bakSchedule⟩

@[simp] theorem CameraInfo.key_id (c : CameraInfo) : c.key.id = c.id := rfl

/-- the table -/
def Registries.keys (s : Registries) : List Key := s.cameraInfo.map CameraInfo.key

/-- `cameraInfoList` -/
def Registries.listKeys (s : Registries) : List Key := s.cameraInfoList.map CameraInfo.key

/-- the lists have exactly the cameras `K` -/
structure Registered (env : Env) (K : List Key) (s : Registries) : Prop where
  once : (K.map Key.id).Nodup
  named : ∀ k ∈ K, k.id ≠ []
  backup : Mirrors Key.id (fun k => accepted env.codec k.bakSchedule) K s.bakScheduleList
  store : Mirrors Key.id (fun k => some (plannedEntry env k.id)) K s.storeDeviceList
  recording : Mirrors Key.id (fun k => accepted env.codec k.recSchedule) K s.streamThreadList.registered

/-- the four lists in memory have the same cameras, each once, with the same schedules -/
def Coherent (env : Env) (s : Registries) : Prop := Registered env s.listKeys s

/-- the five registries have the same cameras, each once, with the same schedules -/
structure Agree (env : Env) (s : Registries) : Prop where
  lists : Registered env s.keys s
  same : s.listKeys.Perm s.keys

/-- `t` has the cameras of `s` with their schedules -/
structure Rebuilt (s t : Registries) : Prop where
  table : t.cameraInfo = s.cameraInfo
  list : t.listKeys.Perm s.listKeys
  backup : t.bakScheduleList = s.bakScheduleList
  store : t.storeDeviceList = s.storeDeviceList
  recording : t.streamThreadList.registered = s.streamThreadList.registered

/-- an accepted add request names a new camera, or repeats the schedules of a registered one -/
def SameSchedules (env : Env) (s : Registries) : Request → Prop
  | .add info => ∀ r, parseAdd env.codec info = some (.ok r) → ∀ c ∈ s.cameraInfo, c.id = r.devId →
      c.recSchedule = r.recScheduleCjson ∧ c.bakSchedule = r.bakScheduleCjson
  | _ => True

instance (env : Env) (s : Registries) : ∀ q, Decidable (SameSchedules env s q)
  | .add info =>
    match h : parseAdd env.codec info with
    | none => .isTrue fun r hr => by simp [h] at hr
    | some (.error e) => .isTrue fun r hr => by simp [h] at hr
    | some (.ok r) =>
      decidable_of_iff (∀ c ∈ s.cameraInfo, c.id = r.devId →
          c.recSchedule = r.recScheduleCjson ∧ c.bakSchedule = r.bakScheduleCjson)
        ⟨fun hs r' hr' => by rw [h] at hr'; cases hr'; exact hs, fun hs => hs r h⟩
  | .delete _ | .update _ | .tick _ => .isTrue trivial

/-- the row of an add request is stored as it is, and the rollback removes a row with the id -/
structure SentAdd (db : Database) (s : Registries) (r : AddRequest) : Prop where
  stores : db.Stores r.info
  deletes : (Command.deleteCameraInfo (cStr r.devId)).Carried
  tells : db.Tells s.cameraInfo r.devId

/-- a delete request removes a row with the id -/
structure SentDelete (db : Database) (s : Registries) (id : Str) : Prop where
  deletes : (Command.deleteCameraInfo (cStr id)).Carried
  tells : db.Tells s.cameraInfo id

/-- the accepted schedules of an update get into the columns as they are -/
structure Written (env : Env) (r : UpdateRequest) : Prop where
  recording : ∀ obj ∈ r.recSchedule, (accepted env.codec (env.codec.print obj)).isSome →
    env.db.Sets .recSchedule .updateRecSchedule r.devId (env.codec.print obj)
  backup : ∀ obj ∈ r.bakSchedule, (accepted env.codec (env.codec.print obj)).isSome →
    env.db.Sets .bakSchedule .updateBakSchedule r.devId (env.codec.print obj)

instance (db : Database) (s : Registries) (r : AddRequest) : Decidable (SentAdd db s r) :=
  decidable_of_iff
    (db.Stores r.info ∧ (Command.deleteCameraInfo (cStr r.devId)).Carried ∧ db.Tells s.cameraInfo r.devId)
    ⟨fun h => ⟨h.1, h.2.1, h.2.2⟩, fun h => ⟨h.1, h.2, h.3⟩⟩

instance (db : Database) (s : Registries) (id : Str) : Decidable (SentDelete db s id) :=
  decidable_of_iff ((Command.deleteCameraInfo (cStr id)).Carried ∧ db.Tells s.cameraInfo id)
    ⟨fun h => ⟨h.1, h.2⟩, fun h => ⟨h.1, h.2⟩⟩

instance (env : Env) (r : UpdateRequest) : Decidable (Written env r) :=
  decidable_of_iff ((∀ obj ∈ r.recSchedule, (accepted env.codec (env.codec.print obj)).isSome →
      env.db.Sets .recSchedule .updateRecSchedule r.devId (env.codec.print obj)) ∧
      ∀ obj ∈ r.bakSchedule, (accepted env.codec (env.codec.print obj)).isSome →
        env.db.Sets .bakSchedule .updateBakSchedule r.devId (env.codec.print obj))
    ⟨fun h => ⟨h.1, h.2⟩, fun h => ⟨h.1, h.2⟩⟩

/-- the commands of a request do what they are meant to -/
def Sent (env : Env) (s : Registries) : Request → Prop
  | .add info => ∀ r, parseAdd env.codec info = some (.ok r) → SentAdd env.db s r
  | .delete info => ∀ id, parseDelete env.codec info = some id → SentDelete env.db s id
  | .update info => ∀ r, parseUpdate env.codec info = some r → Written env r ∧ env.db.Tells s.cameraInfo r.devId
  | .tick _ => True

instance (env : Env) (s : Registries) : ∀ q, Decidable (Sent env s q)
  | .add info =>
    match h : parseAdd env.codec info with
    | none => .isTrue fun r hr => by simp [h] at hr
    | some (.error e) => .isTrue fun r hr => by simp [h] at hr
    | some (.ok r) => decidable_of_iff (SentAdd env.db s r)
        ⟨fun hs r' hr' => by rw [h] at hr'; cases hr'; exact hs, fun hs => hs r h⟩
  | .delete info => inferInstanceAs (Decidable (∀ id ∈ parseDelete env.codec info, SentDelete env.db s id))
  | .update info => inferInstanceAs (Decidable (∀ r ∈ parseUpdate env.codec info,
      Written env r ∧ env.db.Tells s.cameraInfo r.devId))
  | .tick _ => .isTrue trivial

/-! ## A camera more -/

namespace Registered

variable {env : Env} {K K' : List Key} {s t : Registries} {a : Key}

theorem perm (h : Registered env K s) (hp : K.Perm K') : Registered env K' s where
  once := (hp.map Key.id).nodup_iff.1 h.once
  named k hk := h.named k (hp.mem_iff.2 hk)
  backup := h.backup.perm hp
  store := h.store.perm hp
  recording := h.recording.perm hp

theorem congr (h : Registered env K s) (hb : t.bakScheduleList = s.bakScheduleList)
    (hs : t.storeDeviceList = s.storeDeviceList)
    (hr : t.streamThreadList.registered = s.streamThreadList.registered) : Registered env K t :=
  ⟨h.once, h.named, hb ▸ h.backup, hs ▸ h.store, hr ▸ h.recording⟩

/-- the three lists have a new camera -/
theorem insert (h : Registered env K s) (hfresh : ∀ k ∈ K, k.id ≠ a.id) (hname : a.id ≠ [])
    {recSchedule bakSchedule : Week} (hrec : accepted env.codec a.recSchedule = some recSchedule)
    (hbak : accepted env.codec a.bakSchedule = some bakSchedule)
    (hb : t.bakScheduleList = Function.update s.bakScheduleList a.id (some bakSchedule))
    (hs : t.storeDeviceList = Function.update s.storeDeviceList a.id (some (plannedEntry env a.id)))
    (hst : t.streamThreadList.registered = Function.update s.streamThreadList.registered a.id (some recSchedule)) :
    Registered env (K ++ [a]) t where
  once := by
    rw [List.map_append]
    refine List.nodup_append.2 ⟨h.once, List.nodup_singleton _, fun i hi j hj => ?_⟩
    obtain ⟨k, hk, rfl⟩ := List.mem_map.1 hi
    rw [List.mem_singleton.1 hj]
    exact hfresh k hk
  named k hk := by
    rcases List.mem_append.1 hk with hk | hk
    · exact h.named k hk
    · rw [List.mem_singleton.1 hk]
      exact hname
  backup := hb ▸ h.backup.insert hfresh hbak
  store := hs ▸ h.store.insert hfresh rfl
  recording := hst ▸ h.recording.insert hfresh hrec

theorem rebuilt (h : Registered env K s) (ht : Registered env K t) : t.bakScheduleList = s.bakScheduleList ∧
    t.storeDeviceList = s.storeDeviceList ∧ t.streamThreadList.registered = s.streamThreadList.registered :=
  ⟨ht.backup.unique h.backup, ht.store.unique h.store, ht.recording.unique h.recording⟩

end Registered

/-! ## Start-up -/

section Load

variable {env : Env} {K : List Key} {s t : Registries} {c : CameraInfo}

theorem accepted_nil (J : Codec) : accepted J [] = none := by
  simp [accepted, parseSchedule, J.parse_nil, Except.toOption]

theorem loadCamera_total (h : Registered env K s) (hfresh : ∀ k ∈ K, k.id ≠ c.id) (hname : c.id ≠ [])
    {recSchedule bakSchedule : Week} (hrec : accepted env.codec c.recSchedule = some recSchedule)
    (hbak : accepted env.codec c.bakSchedule = some bakSchedule) :
    ∃ t, loadCamera env s c = some t ∧ Registered env (K ++ [c.key]) t ∧ t.cameraInfo = s.cameraInfo ∧
      t.cameraInfoList = s.cameraInfoList := by
  have hb : s.bakScheduleList c.id = none := h.backup.absent _ hfresh
  have hs : s.storeDeviceList c.id = none := h.store.absent _ hfresh
  obtain ⟨streams, hadd, hstreams⟩ :=
    StreamList.addStream_of_none (w := recSchedule) .storePlannedStream (h.recording.absent _ hfresh)
  have htext : c.recSchedule ≠ [] := by
    intro hnil
    rw [hnil, accepted_nil] at hrec
    cases hrec
  refine ⟨⟨s.cameraInfo, s.cameraInfoList, Function.update s.bakScheduleList c.id (some bakSchedule),
    Function.update s.storeDeviceList c.id (some (plannedEntry env c.id)), streams⟩, ?_,
    h.insert hfresh hname hrec hbak rfl rfl hstreams, rfl, rfl⟩
  have hadd : s.streamThreadList.addStream c.id recSchedule .storePlannedStream = .ok streams := hadd
  simp [loadCamera, hname, htext, hrec, hbak, addBakSchedule, hb, addStoreDevice, hs, Faults.none, hadd, plannedEntry,
    Except.toOption]

theorem loadCamera_some (h : Registered env K s) (ht : loadCamera env s c = some t) :
    Registered env (K ++ [c.key]) t ∧ t.cameraInfo = s.cameraInfo ∧ t.cameraInfoList = s.cameraInfoList := by
  have hload := ht
  unfold loadCamera at ht
  split_ifs at ht with hne
  rw [not_or] at hne
  obtain ⟨recSchedule, hrec, ht⟩ := Option.bind_eq_some_iff.1 ht
  obtain ⟨bakSchedule, hbak, ht⟩ := Option.bind_eq_some_iff.1 ht
  obtain ⟨baks, hb, -⟩ := Option.bind_eq_some_iff.1 ht
  have hfresh : ∀ k ∈ K, k.id ≠ c.id := by
    refine (h.backup.none_iff c.id).1 ?_
    unfold addBakSchedule at hb
    cases hl : s.bakScheduleList c.id with
    | none => rfl
    | some w => simp [hl, Except.toOption] at hb
  obtain ⟨t', ht', hreg⟩ := loadCamera_total h hfresh hne.1 hrec hbak
  obtain rfl : t' = t := Option.some.inj (ht'.symm.trans hload)
  exact hreg

theorem load_some {rows : List CameraInfo} : ∀ {K : List Key} {s : Registries}, Registered env K s →
    rows.foldlM (loadCamera env) s = some t → Registered env (K ++ rows.map CameraInfo.key) t ∧
      t.cameraInfo = s.cameraInfo ∧ t.cameraInfoList = s.cameraInfoList := by
  induction rows with
  | nil =>
    intro K s h ht
    obtain rfl : s = t := by simpa using ht
    exact ⟨by simpa using h, rfl, rfl⟩
  | cons c rows ih =>
    intro K s h ht
    rw [List.foldlM_cons] at ht
    obtain ⟨u, hu, ht⟩ := Option.bind_eq_some_iff.1 ht
    obtain ⟨hreg, hc, hl⟩ := loadCamera_some h hu
    obtain ⟨hreg, hc', hl'⟩ := ih hreg ht
    exact ⟨by simpa using hreg, hc'.trans hc, hl'.trans hl⟩

theorem load_total {rows : List CameraInfo} : ∀ {K : List Key} {s : Registries}, Registered env K s →
    ((K ++ rows.map CameraInfo.key).map Key.id).Nodup →
    (∀ c ∈ rows, c.id ≠ [] ∧ (∃ w, accepted env.codec c.recSchedule = some w) ∧
      ∃ w, accepted env.codec c.bakSchedule = some w) →
    ∃ t, rows.foldlM (loadCamera env) s = some t := by
  induction rows with
  | nil => intro K s _ _ _; exact ⟨s, rfl⟩
  | cons c rows ih =>
    intro K s h hnodup hrows
    obtain ⟨hname, ⟨recSchedule, hrec⟩, bakSchedule, hbak⟩ := hrows c List.mem_cons_self
    have hfresh : ∀ k ∈ K, k.id ≠ c.id := by
      intro k hk
      rw [List.map_append, List.nodup_append] at hnodup
      exact hnodup.2.2 k.id (List.mem_map_of_mem hk) c.id (by simp [CameraInfo.key])
    obtain ⟨t, ht, hreg, -, -⟩ := loadCamera_total h hfresh hname hrec hbak
    obtain ⟨u, hu⟩ := ih hreg (by simpa using hnodup) fun d hd => hrows d (List.mem_cons_of_mem c hd)
    exact ⟨u, by rw [List.foldlM_cons]; exact Option.bind_eq_some_iff.2 ⟨t, ht, hu⟩⟩

theorem registered_nil (env : Env) (rows list : List CameraInfo) :
    Registered env [] ⟨rows, list, fun _ => none, fun _ => none, fun _ => none⟩ :=
  ⟨List.nodup_nil, nofun, Mirrors.nil, Mirrors.nil, Mirrors.nil⟩

theorem load_coherent {rows : List CameraInfo} (h : load env rows = some s) : Coherent env s := by
  obtain ⟨hreg, -, hl⟩ := load_some (registered_nil env rows rows) h
  rwa [Coherent, Registries.listKeys, hl]

theorem load_agree {rows : List CameraInfo} (h : load env rows = some s) : Agree env s ∧ s.cameraInfo = rows := by
  obtain ⟨hreg, hc, hl⟩ := load_some (registered_nil env rows rows) h
  have hkeys : s.keys = rows.map CameraInfo.key := by rw [Registries.keys, hc]
  exact ⟨⟨by rw [hkeys]; exact hreg, by rw [hkeys, Registries.listKeys, hl]⟩, hc⟩

/-- **A restart rebuilds the registries.** -/
theorem Agree.restart (h : Agree env s) : ∃ t, load env s.cameraInfo = some t ∧ Rebuilt s t := by
  obtain ⟨t, ht⟩ := load_total (registered_nil env s.cameraInfo s.cameraInfo) h.lists.once fun c hc => by
    have hk : c.key ∈ s.keys := List.mem_map_of_mem hc
    obtain ⟨w, hw, -⟩ := h.lists.recording.present _ hk
    obtain ⟨v, hv, -⟩ := h.lists.backup.present _ hk
    exact ⟨h.lists.named _ hk, ⟨w, hw⟩, v, hv⟩
  obtain ⟨hreg, hc, hl⟩ := load_some (registered_nil env s.cameraInfo s.cameraInfo) ht
  obtain ⟨hb, hs, hr⟩ := h.lists.rebuilt hreg
  exact ⟨t, ht, hc, by rw [Registries.listKeys, hl]; exact h.same.symm, hb, hs, hr⟩

end Load

/-! ## The lists in memory -/

/-- a change of the records of one camera, seen in their keys -/
theorem keys_change {f : CameraInfo → CameraInfo} {g : Key → Key} (hfg : ∀ c, (f c).key = g c.key) {p : Str → Prop}
    [DecidablePred p] (l : List CameraInfo) : (l.map fun c => if p c.id then f c else c).map CameraInfo.key =
      (l.map CameraInfo.key).map fun k => if p k.id then g k else k := by
  rw [List.map_map, List.map_map]
  refine List.map_congr_left fun c _ => ?_
  by_cases hc : p c.id
  · simp [hc, hfg]
  · simp [hc]

namespace Coherent

variable {env : Env} {s t : Registries} {id : Str}

theorem list_once (h : Coherent env s) : (s.cameraInfoList.map CameraInfo.id).Nodup := by
  have hp := h.once
  rwa [Registries.listKeys, List.map_map] at hp

/-- an id that one of the lists has is in `cameraInfoList` -/
theorem exists_of_refused (h : Coherent env s) {r : AddRequest} (hr : Refused .none s r) :
    ∃ k ∈ s.listKeys, k.id = r.devId := by
  by_contra hno
  have habsent : ∀ k ∈ s.listKeys, k.id ≠ r.devId := fun k hk he => hno ⟨k, hk, he⟩
  rcases hr with hb | hs | hd | hst
  · exact hb (h.backup.absent _ habsent)
  · exact hs (h.store.absent _ habsent)
  · cases hd
  · exact hst (h.recording.absent _ habsent)

theorem register (h : Coherent env s) {r : AddRequest} (hr : r.Ok env.codec) {err : Option String}
    (ht : s.register env .none r = some (t, err)) : Coherent env t := by
  rcases register_cases env .none s r with ⟨-, hs⟩ | ⟨rows, -, hend⟩
  · obtain ⟨rfl, -⟩ := Prod.mk.inj (Option.some.inj (hs.symm.trans ht))
    exact h
  · rw [ht] at hend
    cases hend with
    | refused => exact Registered.congr h rfl rfl rfl
    | halfBuilt hb => cases hb.malloc
    | granted hnew _ hgranted =>
      have hfresh : ∀ k ∈ s.listKeys, k.id ≠ r.info.key.id :=
        (h.backup.none_iff _).1 (not_not.1 fun hb => hnew (.inl hb))
      rw [Coherent, Registries.listKeys, hgranted.list, List.map_append]
      exact Registered.insert h hfresh hr.named hr.recording hr.backup hgranted.backup hgranted.store hgranted.recording

theorem dropped (h : Coherent env s) {rows : List CameraInfo} (ht : Dropped s id rows t) :
    t.listKeys = s.listKeys.filter (Key.id · ≠ id) := by
  rw [Registries.listKeys, ht.list, deleteCameraInfoInList, eraseP_eq_filter h.list_once, Registries.listKeys,
    List.filter_map]
  rfl

theorem unregister (h : Coherent env s) {err : Option String} (ht : s.unregister env .none id = some (t, err)) :
    Coherent env t := by
  rcases unregister_cases ht with rfl | ⟨rows, -, hdrop⟩
  · exact h
  · rw [Coherent, h.dropped hdrop]
    exact ⟨h.once.sublist (List.filter_sublist.map _), fun k hk => h.named k (List.mem_filter.1 hk).1,
      hdrop.backup ▸ h.backup.erase id, hdrop.store ▸ h.store.erase id, hdrop.recording ▸ h.recording.erase id⟩

/-- a camera found in `cameraInfoList` -/
theorem exists_key {n : ℕ} (hn : s.cameraInfoList.findIdx? (·.id = id) = some n) : ∃ k ∈ s.listKeys, k.id = id := by
  obtain ⟨hlt, hid, -⟩ := List.findIdx?_eq_some_iff_getElem.1 hn
  exact ⟨_, List.mem_map_of_mem (List.getElem_mem hlt), by simpa using hid⟩

/-- what a change of one entry makes of the keys -/
theorem modified (h : Coherent env s) {n : ℕ} (hn : s.cameraInfoList.findIdx? (·.id = id) = some n)
    {f : CameraInfo → CameraInfo} {g : Key → Key} (hfg : ∀ c, (f c).key = g c.key)
    (hlist : t.cameraInfoList = s.cameraInfoList.modify n f) :
    t.listKeys = s.listKeys.map fun k => if k.id = id then g k else k := by
  rw [Registries.listKeys, hlist, modify_eq_map h.list_once hn, Registries.listKeys, ← keys_change (p := (· = id)) hfg]

/-- one camera changes in `cameraInfoList`, and in the lists accordingly -/
theorem change (h : Coherent env s) {g : Key → Key} (hg : ∀ k, (g k).id = k.id)
    (hlist : t.listKeys = s.listKeys.map fun k => if k.id = id then g k else k)
    (hstore : t.storeDeviceList = s.storeDeviceList)
    (hbaks : Mirrors Key.id (fun k => accepted env.codec k.bakSchedule) t.listKeys t.bakScheduleList)
    (hstreams : Mirrors Key.id (fun k => accepted env.codec k.recSchedule) t.listKeys t.streamThreadList.registered) :
    Coherent env t := by
  have hids : ∀ k : Key, (if k.id = id then g k else k).id = k.id := fun k => by
    split_ifs
    · exact hg k
    · rfl
  have honce : t.listKeys.map Key.id = s.listKeys.map Key.id := by
    rw [hlist, List.map_map]
    exact List.map_congr_left fun k _ => hids k
  refine ⟨honce ▸ h.once, fun k hk => ?_, hbaks, ?_, hstreams⟩
  · rw [hlist] at hk
    obtain ⟨a, ha, rfl⟩ := List.mem_map.1 hk
    rw [hids]
    exact h.named a ha
  · rw [hlist, hstore]
    exact h.store.map_other hids fun k => by rw [hids]

/-- ids stay, so the place of a camera in `cameraInfoList` does -/
theorem findIdx_modify (h : Coherent env s) {n : ℕ} (hn : s.cameraInfoList.findIdx? (·.id = id) = some n)
    {f : CameraInfo → CameraInfo} (hf : ∀ c, (f c).id = c.id) :
    (s.cameraInfoList.modify n f).findIdx? (·.id = id) = some n := by
  rw [modify_eq_map h.list_once hn, List.findIdx?_map, ← hn]
  congr 1
  funext c
  by_cases hc : c.id = id
  · simp [hc, hf]
  · simp [hc]

theorem recWritten (h : Coherent env s) {n : ℕ} (hn : s.cameraInfoList.findIdx? (·.id = id) = some n) {text : Str}
    {week : Week} (hweek : accepted env.codec text = some week) {rows : List CameraInfo} {f : Faults}
    (ht : RecWritten env f s id n text week rows t) : Coherent env t := by
  have hlist := h.modified (g := fun k => { k with recSchedule := text }) hn (fun _ => rfl) ht.list
  obtain ⟨k, hk, hid⟩ := exists_key hn
  obtain ⟨w, -, hw⟩ := h.recording.present k hk
  refine h.change (g := fun k => { k with recSchedule := text }) (fun _ => rfl) hlist ht.store ?_ ?_
  · rw [hlist, ht.backup]
    refine h.backup.map_other (fun k => ?_) fun k => ?_
    · split_ifs <;> rfl
    · split_ifs <;> rfl
  · rw [hlist, ht.streams, StreamList.updateRecodeSchedule_registered (hid ▸ hw)]
    refine h.recording.update (fun k => ?_) (fun k hk => ?_) (fun k hk => if_neg hk) ⟨k, hk, hid⟩
    · split_ifs <;> rfl
    · rw [if_pos hk]
      exact hweek

theorem bakWritten (h : Coherent env s) {n : ℕ} (hn : s.cameraInfoList.findIdx? (·.id = id) = some n) {text : Str}
    {week : Week} (hweek : accepted env.codec text = some week) {rows : List CameraInfo} {f : Faults}
    (ht : BakWritten env f s id n text week rows t) : Coherent env t := by
  have hlist := h.modified (g := fun k => { k with bakSchedule := text }) hn (fun _ => rfl) ht.list
  obtain ⟨k, hk, hid⟩ := exists_key hn
  obtain ⟨w, -, hw⟩ := h.backup.present k hk
  have hbak : updateBakSchedule s.bakScheduleList id week =
      .ok (Function.update s.bakScheduleList id (some week)) := by
    rw [updateBakSchedule, ← hid, hw]
  refine h.change (g := fun k => { k with bakSchedule := text }) (fun _ => rfl) hlist ht.store ?_ ?_
  · rw [hlist, ht.backup, hbak]
    refine h.backup.update (fun k => ?_) (fun k hk => ?_) (fun k hk => if_neg hk) ⟨k, hk, hid⟩
    · split_ifs <;> rfl
    · rw [if_pos hk]
      exact hweek
  · rw [hlist, ht.streams]
    refine h.recording.map_other (fun k => ?_) fun k => ?_
    · split_ifs <;> rfl
    · split_ifs <;> rfl

theorem updateRec (h : Coherent env s) {n : ℕ} (hn : s.cameraInfoList.findIdx? (·.id = id) = some n)
    {item : Option CJson} {p : Registries.Progress} (hp : s.updateRec env .none id n item = some p) :
    Coherent env p.reg ∧ p.reg.cameraInfoList.findIdx? (·.id = id) = some n := by
  rcases updateRec_cases hp with hs | ⟨obj, week, rows, -, hweek, hw⟩
  · rw [hs]
    exact ⟨h, hn⟩
  · exact ⟨h.recWritten hn hweek hw, by rw [hw.list]; exact h.findIdx_modify hn fun _ => rfl⟩

theorem updateBak (h : Coherent env s) {n : ℕ} (hn : s.cameraInfoList.findIdx? (·.id = id) = some n)
    {item : Option CJson} {p : Registries.Progress} (hp : s.updateBak env .none id n item = some p) :
    Coherent env p.reg := by
  rcases updateBak_cases hp with hs | ⟨obj, week, rows, -, hweek, hw⟩
  · rw [hs]
    exact h
  · exact h.bakWritten hn hweek hw

theorem reschedule (h : Coherent env s) {recObj bakObj : Option CJson} {r : Registries × Option String}
    (hr : s.reschedule env .none id recObj bakObj = some r) : Coherent env r.1 := by
  rcases reschedule_cases hr with hs | ⟨n, hn, p, hp, hend⟩
  · rw [hs]
    exact h
  · obtain ⟨hco, hn'⟩ := h.updateRec hn hp
    rcases hend with ht | ⟨q, hq, ht⟩
    · rw [ht]
      exact hco
    · rw [ht]
      exact hco.updateBak hn' hq

/-- **The lists in memory stay in step**, whatever the database does. -/
theorem step {q : Request} (h : Coherent env s) (ht : step env s q = some t) : Coherent env t := by
  rcases step_cases ht with rfl | ⟨info, r, err, -, hparse, hreg⟩ | ⟨info, id, err, -, -, hunreg⟩ |
    ⟨info, r, err, -, -, hresched⟩ | ⟨now, rfl⟩
  · exact h
  · exact h.register (parseAdd_ok hparse) hreg
  · exact h.unregister hunreg
  · exact h.reschedule hresched
  · exact Registered.congr h rfl rfl (StreamList.tick_registered _ _)

end Coherent

/-! ## The table -/

namespace Database

variable {db : Database} {rows : List CameraInfo} {id : Str}

/-- where the collation tells the ids apart, DELETE takes the first row with the id -/
theorem Tells.eraseP (h : db.Tells rows id) : rows.eraseP (db.same ·.id id) = rows.eraseP (·.id = id) :=
  eraseP_congr fun _ hc => Bool.eq_iff_iff.2 ((same_iff h hc).trans decide_eq_true_iff.symm)

/-- and UPDATE changes the rows with the id -/
theorem Tells.map (h : db.Tells rows id) (f : CameraInfo → CameraInfo) :
    (rows.map fun c => if db.same c.id id then f c else c) = rows.map fun c => if c.id = id then f c else c :=
  List.map_congr_left fun _ hc => if_congr (same_iff h hc) rfl rfl

end Database

namespace Agree

variable {env : Env} {s t : Registries} {id : Str}

theorem coherent (h : Agree env s) : Coherent env s := h.lists.perm h.same.symm

theorem of_coherent (h : Coherent env s) (hp : s.listKeys.Perm s.keys) : Agree env s := ⟨Registered.perm h hp, hp⟩

theorem table_once (h : Agree env s) : (s.cameraInfo.map CameraInfo.id).Nodup := by
  have hp := h.lists.once
  rwa [Registries.keys, List.map_map] at hp

/-- the row a rollback removes has the schedules of the row that was inserted -/
theorem perm_readd {rows : List CameraInfo} {info c : CameraInfo}
    (hsame : ∀ c ∈ rows, c.id = info.id → c.key = info.key) (hc : c ∈ rows) (hid : c.id = info.id) :
    (rows.map CameraInfo.key).Perm (((rows ++ [info]).eraseP (·.id = info.id)).map CameraInfo.key) := by
  obtain ⟨d, l₁, l₂, -, hd, hrows, herase⟩ := List.exists_of_eraseP (p := (·.id = info.id)) hc (by simpa using hid)
  have hd : d.id = info.id := by simpa using hd
  have hkey : d.key = info.key := hsame d (by rw [hrows]; simp) hd
  rw [List.eraseP_append_left (by simpa using hid) _ hc, herase, hrows]
  simp only [List.map_append, List.map_cons, List.map_nil, hkey]
  exact List.perm_middle.trans (List.perm_append_singleton _ _).symm

theorem undone (h : Agree env s) {r : AddRequest} (hr : r.Ok env.codec) (hsent : SentAdd env.db s r)
    (hsame : ∀ c ∈ s.cameraInfo, c.id = r.devId → c.key = r.info.key) (hrefused : Refused .none s r) :
    s.listKeys.Perm ((rowsUndone env .none (s.cameraInfo ++ [r.info]) r.devId).map CameraInfo.key) := by
  obtain ⟨k, hk, hid⟩ := h.coherent.exists_of_refused hrefused
  obtain ⟨c, hc, rfl⟩ := List.mem_map.1 (h.same.subset hk)
  have htells : env.db.Tells (s.cameraInfo ++ [r.info]) r.devId := by
    intro d hd hsame
    rcases List.mem_append.1 hd with hd | hd
    · exact hsent.tells d hd hsame
    · rw [List.mem_singleton.1 hd]
      rfl
  have hrows : rowsUndone env .none (s.cameraInfo ++ [r.info]) r.devId =
      (s.cameraInfo ++ [r.info]).eraseP (·.id = r.devId) := by
    have hdelete : deleteCameraInfoInTable env.db false (s.cameraInfo ++ [r.info]) r.devId =
        some ((s.cameraInfo ++ [r.info]).eraseP (env.db.same ·.id r.devId)) :=
      Database.exec_delete hsent.deletes hr.no_zero _
    rw [rowsUndone, show Faults.none.deleteInfo = false from rfl, hdelete, Option.getD_some, htells.eraseP]
  rw [hrows]
  have hperm : (s.cameraInfo.map CameraInfo.key).Perm
      (((s.cameraInfo ++ [r.info]).eraseP (·.id = r.info.id)).map CameraInfo.key) := perm_readd hsame hc hid
  exact h.same.trans hperm

theorem register (h : Agree env s) {r : AddRequest} (hr : r.Ok env.codec) (hsent : SentAdd env.db s r)
    (hsame : ∀ c ∈ s.cameraInfo, c.id = r.devId → c.key = r.info.key) {err : Option String}
    (ht : s.register env .none r = some (t, err)) : Agree env t := by
  have hco := h.coherent.register hr ht
  rcases register_cases env .none s r with ⟨-, hs⟩ | ⟨rows, hins, hend⟩
  · obtain ⟨rfl, -⟩ := Prod.mk.inj (Option.some.inj (hs.symm.trans ht))
    exact h
  · obtain rfl : s.cameraInfo ++ [r.info] = rows :=
      Option.some.inj ((Database.exec_insert hsent.stores s.cameraInfo).symm.trans hins.inserted)
    rw [ht] at hend
    refine of_coherent hco ?_
    cases hend with
    | refused hrefused => exact h.undone hr hsent hsame hrefused
    | halfBuilt hb => cases hb.malloc
    | granted _ _ hgranted =>
      rw [Registries.listKeys, Registries.keys, hgranted.list, hgranted.table, List.map_append, List.map_append]
      exact h.same.append_right _

theorem unregister (h : Agree env s) (hsent : SentDelete env.db s id) (hid : 0 ∉ id) {err : Option String}
    (ht : s.unregister env .none id = some (t, err)) : Agree env t := by
  have hco := h.coherent.unregister ht
  rcases unregister_cases ht with rfl | ⟨rows, hrows, hdrop⟩
  · exact h
  · have hdelete : some rows = some (s.cameraInfo.eraseP (·.id = id)) := by
      rw [← hrows, ← hsent.tells.eraseP]
      exact Database.exec_delete hsent.deletes hid s.cameraInfo
    have hkeys : t.keys = s.keys.filter (Key.id · ≠ id) := by
      rw [Registries.keys, hdrop.table, Option.some.inj hdelete, eraseP_eq_filter h.table_once, Registries.keys,
        List.filter_map]
      rfl
    refine of_coherent hco ?_
    rw [h.coherent.dropped hdrop, hkeys]
    exact h.same.filter _

/-- the same change in `cameraInfoList` and in the table -/
theorem change (h : Agree env s) (hco : Coherent env t) {n : ℕ}
    (hn : s.cameraInfoList.findIdx? (·.id = id) = some n) {f : CameraInfo → CameraInfo} {g : Key → Key}
    (hfg : ∀ c, (f c).key = g c.key) (hlist : t.cameraInfoList = s.cameraInfoList.modify n f)
    (htable : t.cameraInfo = s.cameraInfo.map fun c => if c.id = id then f c else c) : Agree env t := by
  refine of_coherent hco ?_
  rw [h.coherent.modified hn hfg hlist, Registries.keys, htable, keys_change (p := (· = id)) hfg]
  exact h.same.map _

theorem updateRec (h : Agree env s) (htells : env.db.Tells s.cameraInfo id) (hid : 0 ∉ id) {n : ℕ}
    (hn : s.cameraInfoList.findIdx? (·.id = id) = some n) {item : Option CJson}
    (hsets : ∀ obj ∈ item, (accepted env.codec (env.codec.print obj)).isSome →
      env.db.Sets .recSchedule .updateRecSchedule id (env.codec.print obj))
    {p : Registries.Progress} (hp : s.updateRec env .none id n item = some p) :
    Agree env p.reg ∧ env.db.Tells p.reg.cameraInfo id := by
  obtain ⟨hco, -⟩ := h.coherent.updateRec hn hp
  rcases updateRec_cases hp with hs | ⟨obj, week, rows, hobj, hweek, hw⟩
  · rw [hs]
    exact ⟨h, htells⟩
  · have hset := hsets obj hobj (Option.isSome_iff_exists.2 ⟨week, hweek⟩)
    have hrows : some rows = some (s.cameraInfo.map fun c =>
        if c.id = id then { c with recSchedule := env.codec.print obj } else c) := by
      rw [← hw.updated, ← htells.map]
      exact Database.exec_setRec hset hid s.cameraInfo
    have htable := hw.table.trans (Option.some.inj hrows)
    refine ⟨h.change (g := fun k => { k with recSchedule := env.codec.print obj }) hco hn (fun _ => rfl) hw.list htable,
      fun c hc hsame => ?_⟩
    rw [htable] at hc
    obtain ⟨d, hd, rfl⟩ := List.mem_map.1 hc
    have hids : (if d.id = id then { d with recSchedule := env.codec.print obj } else d).id = d.id := by
      split_ifs <;> rfl
    rw [hids] at hsame ⊢
    exact htells d hd hsame

theorem updateBak (h : Agree env s) (htells : env.db.Tells s.cameraInfo id) (hid : 0 ∉ id) {n : ℕ}
    (hn : s.cameraInfoList.findIdx? (·.id = id) = some n) {item : Option CJson}
    (hsets : ∀ obj ∈ item, (accepted env.codec (env.codec.print obj)).isSome →
      env.db.Sets .bakSchedule .updateBakSchedule id (env.codec.print obj))
    {p : Registries.Progress} (hp : s.updateBak env .none id n item = some p) : Agree env p.reg := by
  have hco := h.coherent.updateBak hn hp
  rcases updateBak_cases hp with hs | ⟨obj, week, rows, hobj, hweek, hw⟩
  · rw [hs]
    exact h
  · have hset := hsets obj hobj (Option.isSome_iff_exists.2 ⟨week, hweek⟩)
    have hrows : some rows = some (s.cameraInfo.map fun c =>
        if c.id = id then { c with bakSchedule := env.codec.print obj } else c) := by
      rw [← hw.updated, ← htells.map]
      exact Database.exec_setBak hset hid s.cameraInfo
    exact h.change (g := fun k => { k with bakSchedule := env.codec.print obj }) hco hn (fun _ => rfl) hw.list
      (hw.table.trans (Option.some.inj hrows))

theorem reschedule (h : Agree env s) {r : UpdateRequest} (hw : Written env r)
    (htells : env.db.Tells s.cameraInfo r.devId) (hid : 0 ∉ r.devId) {p : Registries × Option String}
    (hp : s.reschedule env .none r.devId r.recSchedule r.bakSchedule = some p) : Agree env p.1 := by
  rcases reschedule_cases hp with hs | ⟨n, hn, q, hq, hend⟩
  · rw [hs]
    exact h
  · obtain ⟨hagree, htells'⟩ := h.updateRec htells hid hn hw.recording hq
    obtain ⟨-, hn'⟩ := h.coherent.updateRec hn hq
    rcases hend with ht | ⟨q', hq', ht⟩
    · rw [ht]
      exact hagree
    · rw [ht]
      exact hagree.updateBak htells' hid hn' hw.backup hq'

theorem step {q : Request} (h : Agree env s) (hq : SameSchedules env s q) (hsent : Sent env s q)
    (ht : step env s q = some t) : Agree env t := by
  rcases step_cases ht with rfl | ⟨info, r, err, rfl, hparse, hreg⟩ | ⟨info, id, err, rfl, hparse, hunreg⟩ |
    ⟨info, r, err, rfl, hparse, hresched⟩ | ⟨now, rfl⟩
  · exact h
  · refine h.register (parseAdd_ok hparse) (hsent r hparse) (fun c hc hid => ?_) hreg
    obtain ⟨hrec, hbak⟩ := hq r hparse c hc hid
    simp only [CameraInfo.key, AddRequest.info, hid, hrec, hbak]
  · exact h.unregister (hsent id hparse) (parseDelete_no_zero hparse) hunreg
  · obtain ⟨hw, htells⟩ := hsent r hparse
    exact h.reschedule hw htells (parseUpdate_no_zero hparse) hresched
  · exact of_coherent (h.coherent.step ht) h.same

end Agree

/-- **The registries agree** in every state reached from start-up by requests that do not give a registered camera other
schedules by adding it again and whose commands do what they should, and a restart rebuilds them from the table. -/
theorem registries_agree {env : Env} {rows : List CameraInfo} {s₀ s : Registries} {requests : List Request}
    (hload : load env rows = some s₀)
    (hl : Steps (step env) (fun s q => SameSchedules env s q ∧ Sent env s q) s₀ requests)
    (hr : run (step env) s₀ requests = some s) :
    Agree env s ∧ ∃ t, load env s.cameraInfo = some t ∧ Rebuilt s t := by
  have hagree : Agree env s := run_inv (fun _ _ _ h hq ht => h.step hq.1 hq.2 ht) (load_agree hload).1 hl hr
  exact ⟨hagree, hagree.restart⟩

/-! ## A camera added twice -/

section Twice

def officeWeek : CJson := .array (List.replicate 7 officeDay)

/-- `cJSON_Print` of a week -/
def printWeek (week : CJson) : Str :=
  let list (items : List Str) : Str := bytes "[" ++ (bytes ", ").intercalate items ++ bytes "]"
  list (week.child.map fun day => list (day.child.map fun item =>
    bytes "\"" ++ (item.valuestring.map CStr.text).getD [] ++ bytes "\""))

/-- the row of a camera with the default schedules -/
def gateRow : CameraInfo :=
  ⟨bytes "1-1", bytes "gate", printWeek createDefaultSchedule, printWeek createDefaultSchedule⟩

def gateIds : List CJson :=
  [(CJson.str (.ofStr (bytes "1") (by decide))).named "mainId",
    (CJson.str (.ofStr (bytes "1") (by decide))).named "subId",
    (CJson.str (.ofStr (bytes "gate") (by decide))).named "name"]

/-- a request with the default schedules -/
def plainText : Str := bytes "\x7b\"mainId\":\"1\",\"subId\":\"1\",\"name\":\"gate\"\x7d"

/-- the request with a recording schedule -/
def scheduledText : Str :=
  bytes "\x7b\"mainId\":\"1\",\"subId\":\"1\",\"name\":\"gate\",\"recSchedule\":" ++ printWeek officeWeek ++
    bytes "\x7d"

/-- a table as the service creates it, in strict mode: ids are compared without regard to case, and a value that is too
long is an error -/
def tableDb : Database where
  same a b := a.map CJson.tolower = b.map CJson.tolower
  same_refl _ := decide_eq_true rfl
  keeps column v := if v.length ≤ column.width then some v else none
  other _ _ := none

/-- JSON as far as the two requests need it -/
def gateEnv : Env where
  storePath := bytes "/store/"
  db := tableDb
  codec :=
    { parse := fun s =>
        if s = plainText then some (.object gateIds)
        else if s = scheduledText then
          some (.object (gateIds ++ [officeWeek.named "recSchedule"]))
        else if s = printWeek createDefaultSchedule then some createDefaultSchedule
        else if s = printWeek officeWeek then some officeWeek
        else none
      print := printWeek
      parse_nil := by decide +kernel }

def post (body : Str) : Str := bytes "POST /AddRecodeDevice HTTP/1.1\r\n\r\n" ++ body

def noCameras : Registries := ⟨[], [], fun _ => none, fun _ => none, fun _ => none⟩

/-- an add, and the same request again -/
theorem registries_agree_twice : ∃ s,
    run (step gateEnv) noCameras [.add (post plainText), .add (post plainText)] = some s ∧ s.cameraInfo.length = 1 ∧
      Agree gateEnv s ∧ ∃ t, load gateEnv s.cameraInfo = some t ∧ Rebuilt s t := by
  have hrun : (run (step gateEnv) noCameras [.add (post plainText), .add (post plainText)]).map
      (·.cameraInfo.length) = some 1 := by decide +kernel
  have hl : Steps (step gateEnv) (fun s q => SameSchedules gateEnv s q ∧ Sent gateEnv s q) noCameras
      [.add (post plainText), .add (post plainText)] := by decide +kernel
  obtain ⟨s, hs, hlen⟩ := Option.map_eq_some_iff.1 hrun
  have hload : load gateEnv [] = some noCameras := rfl
  exact ⟨s, hs, hlen, registries_agree hload hl hs⟩

/-- the same camera with another schedule: the table has the new text, `cameraInfoList` the old one -/
theorem readd_splits : ∃ s, load gateEnv [] = some noCameras ∧
    run (step gateEnv) noCameras [.add (post plainText), .add (post scheduledText)] = some s ∧
      s.cameraInfo.map (·.recSchedule) = [printWeek officeWeek] ∧
      s.cameraInfoList.map (·.recSchedule) = [printWeek createDefaultSchedule] ∧ ¬ Agree gateEnv s := by
  have hrun : (run (step gateEnv) noCameras [.add (post plainText), .add (post scheduledText)]).map
      (fun s => (s.cameraInfo.map (·.recSchedule), s.cameraInfoList.map (·.recSchedule))) =
        some ([printWeek officeWeek], [printWeek createDefaultSchedule]) := by decide +kernel
  obtain ⟨s, hs, htexts⟩ := Option.map_eq_some_iff.1 hrun
  obtain ⟨htable, hlist⟩ := Prod.mk.inj htexts
  refine ⟨s, rfl, hs, htable, hlist, fun h => ?_⟩
  have hp := h.same.map Key.recSchedule
  rw [Registries.keys, Registries.listKeys, List.map_map, List.map_map] at hp
  have heq : [printWeek createDefaultSchedule] = [printWeek officeWeek] := by
    rw [← htable, ← hlist]
    exact List.perm_singleton.1 (htable ▸ hp) |>.trans htable.symm
  exact absurd heq (by decide +kernel)

end Twice

/-! ## Two cameras whose ids differ in case -/

section Case

/-- a request that names camera `main`-1 -/
def caseText (main : String) : Str :=
  bytes "\x7b\"mainId\":\"" ++ bytes main ++ bytes "\",\"subId\":\"1\",\"name\":\"gate\"\x7d"

def caseIds (main : String) (h : 0 ∉ bytes main) : CJson :=
  .object [(CJson.str (.ofStr (bytes main) h)).named "mainId",
    (CJson.str (.ofStr (bytes "1") (by decide))).named "subId",
    (CJson.str (.ofStr (bytes "gate") (by decide))).named "name"]

/-- JSON as far as these requests need it -/
def caseEnv : Env where
  storePath := bytes "/store/"
  db := tableDb
  codec :=
    { parse := fun s =>
        if s = caseText "A" then some (caseIds "A" (by decide))
        else if s = caseText "a" then some (caseIds "a" (by decide))
        else if s = caseText "B" then some (caseIds "B" (by decide))
        else if s = printWeek createDefaultSchedule then some createDefaultSchedule
        else none
      print := printWeek
      parse_nil := by decide +kernel }

/-- "A-1" and "a-1" are added, and "a-1" is deleted: the first row that matches is that of "A-1" -/
theorem case_splits : ∃ s, load caseEnv [] = some noCameras ∧ run (step caseEnv) noCameras
      [.add (post (caseText "A")), .add (post (caseText "a")), .delete (post (caseText "a"))] = some s ∧
    s.cameraInfo.map (·.id) = [bytes "a-1"] ∧ s.cameraInfoList.map (·.id) = [bytes "A-1"] ∧ ¬ Agree caseEnv s := by
  have hrun : (run (step caseEnv) noCameras
      [.add (post (caseText "A")), .add (post (caseText "a")), .delete (post (caseText "a"))]).map
      (fun s => (s.cameraInfo.map (·.id), s.cameraInfoList.map (·.id))) = some ([bytes "a-1"], [bytes "A-1"]) := by
    decide +kernel
  obtain ⟨s, hs, hids⟩ := Option.map_eq_some_iff.1 hrun
  obtain ⟨htable, hlist⟩ := Prod.mk.inj hids
  refine ⟨s, rfl, hs, htable, hlist, fun h => ?_⟩
  have hp : (s.cameraInfoList.map (·.id)).Perm (s.cameraInfo.map (·.id)) := by
    have hkeys := h.same.map Key.id
    rwa [Registries.keys, Registries.listKeys, List.map_map, List.map_map] at hkeys
  rw [htable, hlist] at hp
  exact absurd (List.perm_singleton.1 hp) (by decide +kernel)

end Case

end StoreService.Http
