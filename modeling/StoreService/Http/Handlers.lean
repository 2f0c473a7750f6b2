/-
Which bodies a handler survives (the ten functions of `httpReqList`, http.cpp).

Every handler gets its fields with `cJSON_GetObjectItem`, tests for most of them that they are there, and then uses
their `valuestring`. No handler tests that a field is a string, and three of them, where the end time should be tested,
test the start time a second time.

Model: `reqHandle` is a handler on the text of a request. `AddRecodeDevice`, `DeleteRecodeDevice` and `UpdateSchedule`
are those of the registries; the others are followed up to the calls that do their work (`Call`), and
`BackupClientStart` up to its copies of the id and the name. What comes behind is taken to return. `none` is a crash: a
null item or a null `valuestring` is used, std::stoi throws and nobody catches it, a schedule is read past its end, a
device without buffers is removed, or a name is copied over the end of its array.

- `bodies_iff`: for every state and every request, the handler responds iff there is no JSON to read or the JSON is
  `BodyOk` for it: where all fields that are tested are there, all fields whose text is used are there and are strings,
  the dates of a list do not throw, no schedule is read past its end, and the id and the name of a file to back up fit
  into 42 and 26 bytes.
- `stored_shows`: a schedule that start-up or a request has stored is shown without a fault.
- `bodies_crash`: a list without an end time, an id that is a number, a date of six words and the backup of a file with
  a long name crash the service.

Left out: allocation failures of cJSON, the contents of the responses the calls lead to, log output.
-/
import StoreService.Core.Checked
import StoreService.Common.DateParsers
import StoreService.Http.Rollback
import StoreService.Http.Update
import StoreService.Http.Request

namespace StoreService.Http

open StoreService.Json StoreService.Schedule StoreService.Check StoreService.Find StoreService.Dates StoreService.Runs
open StoreService.Store (RecodeType DateTm translateToStructTM extraStr stoi)

/-! ## Reading a body -/

/-- what the handlers see of the service -/
structure Server extends Env where
  transMediaPath : Str
  /-- the std::string made of a C string: the same text, with other memory behind it -/
  copy : CStr → CStr
  copy_text : ∀ c, (copy c).text = c.text
  /-- `GetError` where the request has not set an error: the text of an earlier one -/
  lastError : String

/-- a refusal: the id as far as it is known, and the text of the error -/
abbrev Refusal := Str × String

/-- what a handler calls once it has read the body -/
inductive Call where
  /-- `AddStoreEvent` and `AddStreamEvent` -/
  | event (cameraId : Str) (startTm endTm : DateTm) (storeType : RecodeType)
  /-- `BackupClientStart` -/
  | backup (deviceId operateFile : Str)
  /-- `UpdateStatusToTable` -/
  | status (deviceId operateFile status : Str)
  /-- the searches of `QueryInfoByDate`; the list has the files of the type, or those with a backup -/
  | query (cameraId : Str) (dateStart dateEnd : DateTm) (recodeType : Option RecodeType)
  /-- `TranslateToMp4` -/
  | toMp4 (pbFile : Str)
  | unlink (pbFile : Str)
deriving DecidableEq

inductive Reply where
  | response (r : Response)
  /-- the schedule of a camera, from monday on -/
  | schedule (mainId subId : Str) (days : List (List Str))
  | call (c : Call)
deriving DecidableEq

abbrev Reads := Checked Refusal

def refuse {α : Type} (id : Str) (e : ErrorNo) : Reads α := throw (id, storeApiRet e)

/-- a field that is tested -/
def field (obj : CJson) (name : String) (e : ErrorNo) : Reads CJson :=
  check (obj.getObjectItem (bytes name)) ([], storeApiRet e)

/-! ## GetSchedule -/

/-- the two types by name -/
def namedType (type : Str) : Option ℤ :=
  if type = bytes "recode" then some 0
  else if type = bytes "backup" then some 1
  else none

def scheduleType (obj : CJson) : Reads ℤ :=
  match obj.getObjectItem (bytes "typeId"), obj.getObjectItem (bytes "type") with
  | some scheTypeId, _ => pure scheTypeId.valueint
  | none, some scheType => do
    let type ← need scheType.valuestring
    check (namedType type.text) ([], storeApiRet .invalidScheduleTypeInJson)
  | none, none => refuse [] .noTypeIdInJson

/-- one of the seven blocks: the texts of a day -/
def showDay (schePars : CJson) (i : ℕ) : Option (List Str) := do
  let day ← schePars.child[i]?
  day.child.mapM fun item => item.valuestring.map CStr.text

/-- the schedule stored for a camera; `none` is a type that is neither recording nor backup -/
def storedSchedule (cameraInfoList : List CameraInfo) (cameraId : Str) (typeId : ℤ) : Option Str :=
  let stored (scheduleType : CameraInfo → Str) := ((cameraInfoList.find? (·.id = cameraId)).map scheduleType).getD []
  if typeId = 0 then some (stored CameraInfo.recSchedule)
  else if typeId = 1 then some (stored CameraInfo.bakSchedule)
  else none

/-- `GetSchedule` -/
def getSchedule (srv : Server) (cameraInfoList : List CameraInfo) (obj : CJson) : Reads Reply := do
  let devMainId ← field obj "mainId" .noMainIdInJson
  let devSubId ← field obj "subId" .noSubIdInJson
  let typeId ← scheduleType obj
  let mainId ← need devMainId.valuestring
  let subId ← need devSubId.valuestring
  let cameraId := mainId.text ++ bytes "-" ++ subId.text
  let scheduleJson ← check (storedSchedule cameraInfoList cameraId typeId)
    (cameraId, storeApiRet .invalidScheduleTypeInJson)
  if scheduleJson = [] then refuse cameraId .doNotFindCamera
  else
    let schePars ← check (srv.codec.parse scheduleJson) (cameraId, storeApiRet .cjsonCalledError)
    let days ← need ((List.range 7).mapM (showDay schePars))
    return .schedule mainId.text subId.text days

/-! ## EventRecode and OperateFile -/

/-- the type of an event -/
def eventTypeOf (typeId : ℤ) : Option RecodeType :=
  if typeId = 1 then some .manual
  else if typeId = 2 then some .alarm
  else none

/-- `EventRecode` -/
def eventRecode (srv : Server) (obj : CJson) : Reads Reply := do
  let mainIdObj ← field obj "mainId" .noMainIdInJson
  let subIdObj ← field obj "subId" .noSubIdInJson
  let startTimeObj ← field obj "startTime" .noStartTimeInJson
  -- tested is the start time, a second time
  let endTimeObj := obj.getObjectItem (bytes "endTime")
  let typeIdObj ← field obj "eventId" .noTypeIdInJson
  let cameraId ← need (deviceId mainIdObj subIdObj)
  let startTime ← need startTimeObj.valuestring
  let endTime ← need (endTimeObj.bind CJson.valuestring)
  let startTm ← check (transDateToTm (srv.copy startTime).mem).ret (cameraId, storeApiRet .invalidDateFormatInJson)
  let endTm ← check (transDateToTm (srv.copy endTime).mem).ret (cameraId, storeApiRet .invalidDateFormatInJson)
  let storeType ← check (eventTypeOf typeIdObj.valueint) (cameraId, storeApiRet .invalidEventTypeInJson)
  return .call (.event cameraId startTm endTm storeType)

/-- what is done with a file: a backup, or another status -/
def operation (deviceId operateFile : Str) (operateId : ℤ) : Option Call :=
  if operateId = 2 then some (.backup deviceId operateFile)
  else if operateId = 0 then some (.status deviceId operateFile (bytes "lock"))
  else if operateId = 1 then some (.status deviceId operateFile (bytes "unlock"))
  else none

/-- `StartTransferBakFile`: once the backup server has accepted, the id and the name are copied with strcpy -/
def Call.copied (f : Faults) : Call → Option Call
  | .backup deviceId operateFile =>
    if f.connect ∨ deviceId.length < 42 ∧ operateFile.length < 26 then some (.backup deviceId operateFile) else none
  | call => some call

/-- `OperateFile` -/
def operateFile (f : Faults) (obj : CJson) : Reads Reply := do
  let mainIdObj ← field obj "mainId" .noMainIdInJson
  let subIdObj ← field obj "subId" .noSubIdInJson
  let operateFileObj ← field obj "file" .noFileNameInJson
  let operateIdObj ← field obj "operateId" .noOperateTypeInJson
  let deviceId ← need (deviceId mainIdObj subIdObj)
  let operateFile ← need operateFileObj.valuestring
  let call ← check (operation deviceId operateFile.text operateIdObj.valueint)
    (deviceId, storeApiRet .invalidFileOperateType)
  let call ← need (call.copied f)
  return .call call

/-! ## GetRecodeList and GetBackupList -/

/-- the id and the two times, and `QueryInfoByDate` up to the searches -/
def queryDates (srv : Server) (mainIdObj subIdObj startTimeObj : CJson) (endTimeObj : Option CJson)
    (recodeType : Option RecodeType) : Reads Reply := do
  let cameraId ← need (deviceId mainIdObj subIdObj)
  let startTime ← need startTimeObj.valuestring
  let endTime ← need (endTimeObj.bind CJson.valuestring)
  let start ← need (translateToStructTM startTime.text)
  let dateStart ← check start (cameraId, srv.lastError)
  let stop ← need (translateToStructTM endTime.text)
  let dateEnd ← check stop (cameraId, srv.lastError)
  return .call (.query cameraId dateStart dateEnd recodeType)

/-- the type of the files of a list -/
def recodeTypeOf (typeId : ℤ) : Option RecodeType :=
  if typeId = 0 then some .planned
  else if typeId = 1 then some .manual
  else if typeId = 2 then some .alarm
  else none

/-- `GetRecodeList` -/
def getRecodeList (srv : Server) (obj : CJson) : Reads Reply := do
  let mainIdObj ← field obj "mainId" .noMainIdInJson
  let subIdObj ← field obj "subId" .noSubIdInJson
  let startTimeObj ← field obj "startTime" .noStartTimeInJson
  -- tested is the start time, a second time
  let endTimeObj := obj.getObjectItem (bytes "endTime")
  let typeIdObj ← field obj "typeId" .noTypeIdInJson
  let recodeType ← check (recodeTypeOf typeIdObj.valueint) ([], storeApiRet .invalidTypeIdInJson)
  queryDates srv mainIdObj subIdObj startTimeObj endTimeObj (some recodeType)

/-- `GetBackupList` -/
def getBackupList (srv : Server) (obj : CJson) : Reads Reply := do
  let mainIdObj ← field obj "mainId" .noMainIdInJson
  let subIdObj ← field obj "subId" .noSubIdInJson
  let startTimeObj ← field obj "startTime" .noStartTimeInJson
  -- tested is the start time, a second time
  let endTimeObj := obj.getObjectItem (bytes "endTime")
  queryDates srv mainIdObj subIdObj startTimeObj endTimeObj none

/-! ## AddPlaybackDev and DelPlaybackDev -/

/-- `AddPlaybackDev` -/
def addPlaybackDev (srv : Server) (obj : CJson) : Reads Reply := do
  let mainIdObj ← field obj "mainId" .noMainIdInJson
  let subIdObj ← field obj "subId" .noSubIdInJson
  let fileNameObj ← field obj "file" .noUrlInJson
  let cameraId ← need (deviceId mainIdObj subIdObj)
  let fileName ← need fileNameObj.valuestring
  return .call (.toMp4 (srv.storePath ++ cameraId ++ bytes "/" ++ fileName.text))

/-- the name behind the last slash, with its first "%20" made a blank; `none` is a name without either -/
def playbackFile (pbUrl : Str) : Option Str :=
  let pbFile := (pbUrl.reverse.takeWhile (· ≠ 47)).reverse
  match strstr (bytes "%20") pbFile with
  | some pos1 => some (pbFile.take pos1 ++ bytes " " ++ pbFile.drop (pos1 + 3))
  | none => if 32 ∈ pbFile then some pbFile else none

/-- `DelPlaybackDev` -/
def delPlaybackDev (srv : Server) (obj : CJson) : Reads Reply := do
  let mainIdObj ← field obj "mainId" .noMainIdInJson
  let subIdObj ← field obj "subId" .noSubIdInJson
  let pbUrlObj ← field obj "url" .noUrlInJson
  let cameraId ← need (deviceId mainIdObj subIdObj)
  let pbUrl ← need pbUrlObj.valuestring
  let pbFile ← check (playbackFile pbUrl.text) (cameraId, storeApiRet .invalidUrlInJson)
  return .call (.unlink (srv.transMediaPath ++ pbFile))

/-! ## The handlers -/

section

variable (obj : CJson)

/-- a field, or an item without a value -/
def itemOf (name : String) : CJson := (obj.getObjectItem (bytes name)).getD (.mk none none [])

/-- the `valuestring` of a field -/
def valueOf (name : String) : Option CStr := (itemOf obj name).valuestring

def textOf (name : String) : Str := ((valueOf obj name).map CStr.text).getD []

/-- the id that a body names -/
def idOf : Str := textOf obj "mainId" ++ bytes "-" ++ textOf obj "subId"

/-- the fields are there -/
def Present (names : List String) : Prop := ∀ n ∈ names, (obj.getObjectItem (bytes n)).isSome

/-- the fields are there and are strings -/
def Strings (names : List String) : Prop := ∀ n ∈ names, (valueOf obj n).isSome

/-- the type of schedule that a body asks for -/
def typeOf : Option ℤ :=
  if (obj.getObjectItem (bytes "typeId")).isSome then some (itemOf obj "typeId").valueint
  else namedType (textOf obj "type")

end

/-- a stored schedule, if it is JSON, has seven days of strings -/
def Shows (J : Codec) (json : Str) : Prop :=
  ∀ schePars, J.parse json = some schePars → ∀ i < 7, ∃ day, schePars.child[i]? = some day ∧
    ∀ item ∈ day.child, item.valuestring.isSome

section Fields

variable {obj : CJson} {n : String}

theorem itemOf_of_some {i : CJson} (h : obj.getObjectItem (bytes n) = some i) : itemOf obj n = i := by
  rw [itemOf, h]
  rfl

theorem itemOf_valuestring (obj : CJson) (n : String) : (itemOf obj n).valuestring = valueOf obj n := rfl

theorem valueOf_absent (h : obj.getObjectItem (bytes n) = none) : valueOf obj n = none := by
  rw [valueOf, itemOf, h]
  rfl

theorem namedType_absent (h : valueOf obj "type" = none) : namedType (textOf obj "type") = none := by
  rw [textOf, h]
  decide

theorem exists_deviceId {P : Str → Prop} :
    (∃ id, deviceId (itemOf obj "mainId") (itemOf obj "subId") = some id ∧ P id) ↔
      (valueOf obj "mainId").isSome ∧ (valueOf obj "subId").isSome ∧ P (idOf obj) := by
  rw [idOf, textOf, textOf, deviceId]
  unfold valueOf
  cases (itemOf obj "mainId").valuestring with
  | none => simp
  | some m => cases (itemOf obj "subId").valuestring <;> simp

theorem present_cons {ns : List String} :
    Present obj (n :: ns) ↔ (obj.getObjectItem (bytes n)).isSome ∧ Present obj ns := List.forall_mem_cons

theorem present_nil (obj : CJson) : Present obj [] := List.forall_mem_nil _

theorem strings_cons {ns : List String} : Strings obj (n :: ns) ↔ (valueOf obj n).isSome ∧ Strings obj ns :=
  List.forall_mem_cons

theorem strings_nil (obj : CJson) : Strings obj [] := List.forall_mem_nil _

theorem textOf_of_some {c : CStr} (h : valueOf obj n = some c) : textOf obj n = c.text := by
  rw [textOf, h]
  rfl

end Fields

/-! ## Dates -/

section Each

variable {srv : Server} {f : Faults} {s : Registries} {obj : CJson}

theorem showDay_ne_none_iff (schePars : CJson) (i : ℕ) : showDay schePars i ≠ none ↔
    ∃ day, schePars.child[i]? = some day ∧ ∀ item ∈ day.child, item.valuestring.isSome := by
  rw [showDay]
  cases schePars.child[i]? with
  | none => simp
  | some day => simp [mapM_eq_none_iff, Option.isSome_iff_ne_none]

/-- the seven blocks find seven days of strings; an empty text is no JSON -/
theorem shows_iff (J : Codec) (json : Str) : Shows J json ↔ (json ≠ [] → ∀ schePars, J.parse json = some schePars →
    ∃ days, (List.range 7).mapM (showDay schePars) = some days) := by
  have hdays : ∀ schePars, (∃ days, (List.range 7).mapM (showDay schePars) = some days) ↔
      ∀ i < 7, ∃ day, schePars.child[i]? = some day ∧ ∀ item ∈ day.child, item.valuestring.isSome := by
    intro schePars
    rw [← Option.ne_none_iff_exists', Ne, mapM_eq_none_iff]
    simp only [← showDay_ne_none_iff, List.mem_range, not_exists, not_and]
  simp only [hdays]
  constructor
  · intro h _
    exact h
  · intro h schePars hparse
    apply h _ schePars hparse
    rintro rfl
    rw [J.parse_nil] at hparse
    cases hparse

end Each

/-! ## The handlers of the registries -/

section Registry

variable {srv : Server} {f : Faults} {s : Registries} {obj : CJson} {info : Str} {J : Codec}

theorem getItem_of_present {n : String} {e : ErrorNo} (h : (obj.getObjectItem (bytes n)).isSome) :
    getItem obj n e = .ok (itemOf obj n) := by
  obtain ⟨i, hi⟩ := Option.isSome_iff_exists.1 h
  rw [getItem, itemOf_of_some hi, hi]

theorem getItem_of_absent {n : String} {e : ErrorNo} (h : ¬ (obj.getObjectItem (bytes n)).isSome) :
    getItem obj n e = .error e := by
  rw [Option.not_isSome_iff_eq_none] at h
  rw [getItem, h]

/-- how the three requests begin -/
theorem postIds_cases (h : postObject J info = .ok obj) :
    (¬ Present obj ["mainId", "subId"] ∧ ∃ e, postIds J info = .error e) ∨
      Present obj ["mainId", "subId"] ∧ postIds J info = .ok (obj, itemOf obj "mainId", itemOf obj "subId") := by
  have hids : postIds J info = do
      let main ← getItem obj "mainId" .noMainIdInJson
      let sub ← getItem obj "subId" .noSubIdInJson
      return (obj, main, sub) := by
    rw [postIds, h]
    rfl
  rw [hids]
  simp only [present_cons, present_nil, and_true]
  by_cases hmain : (obj.getObjectItem (bytes "mainId")).isSome
  · by_cases hsub : (obj.getObjectItem (bytes "subId")).isSome
    · rw [getItem_of_present hmain, getItem_of_present hsub]
      exact .inr ⟨⟨hmain, hsub⟩, rfl⟩
    · rw [getItem_of_present hmain, getItem_of_absent hsub]
      exact .inl ⟨fun h => hsub h.2, _, rfl⟩
  · rw [getItem_of_absent hmain]
    exact .inl ⟨fun h => hmain h.1, _, rfl⟩

end Registry

/-! ## All handlers -/

section Stored

variable {env : Env} {s : Registries} {J : Codec}

theorem parseDay_strings {day : CJson} {texts : List Str} (h : parseDay day = .ok texts) :
    ∀ item ∈ day.child, item.valuestring.isSome := by
  unfold parseDay at h
  split_ifs at h
  intro item hitem
  obtain ⟨t, ht⟩ := exists_of_mapM_except h item hitem
  unfold parseItem at ht
  cases hvalue : item.valuestring with
  | none => simp [hvalue] at ht
  | some c => rfl

/-- a schedule that was accepted can be shown -/
theorem shows_of_accepted {json : Str} (h : (accepted J json).isSome) : Shows J json := by
  intro schePars hparse i hi
  simp only [accepted, parseSchedule, hparse] at h
  split_ifs at h with h7
  · simp [Except.toOption] at h
  · rw [not_not] at h7
    cases hdays : schePars.child.mapM parseDay with
    | error e => simp [hdays, Except.toOption] at h
    | ok week =>
      have hlen : i < schePars.child.length := by
        rw [← CJson.getArraySize, h7]
        exact hi
      obtain ⟨texts, htexts⟩ := exists_of_mapM_except hdays _ (List.getElem_mem hlen)
      exact ⟨_, List.getElem?_eq_getElem hlen, parseDay_strings htexts⟩

/-- **A stored schedule can be shown**, in every state that requests reach from start-up. -/
theorem stored_shows {rows : List CameraInfo} {s₀ : Registries} {requests : List Request}
    (hload : load env rows = some s₀) (hr : run (step env) s₀ requests = some s) {id json : Str} {typeId : ℤ}
    (hjson : storedSchedule s.cameraInfoList id typeId = some json) : Shows env.codec json := by
  have hcoherent : Coherent env s :=
    run_inv (fun _ _ _ h (_ : True) ht => h.step ht) (load_coherent hload) (Steps.of_forall fun _ _ _ => trivial) hr
  have hshown : ∀ (text : CameraInfo → Str), (∀ c ∈ s.cameraInfoList, (accepted env.codec (text c)).isSome) →
      Shows env.codec (((s.cameraInfoList.find? (·.id = id)).map text).getD []) := by
    intro text htext
    cases hfind : s.cameraInfoList.find? (·.id = id) with
    | none =>
      intro schePars hparse
      rw [Option.map_none, Option.getD_none, env.codec.parse_nil] at hparse
      cases hparse
    | some c => exact shows_of_accepted (htext c (List.mem_of_find?_eq_some hfind))
  unfold storedSchedule at hjson
  split_ifs at hjson
  · refine Option.some.inj hjson ▸ hshown _ fun c hc => ?_
    obtain ⟨week, hweek, -⟩ := hcoherent.recording.present c.key (List.mem_map_of_mem hc)
    exact Option.isSome_iff_exists.2 ⟨week, hweek⟩
  · refine Option.some.inj hjson ▸ hshown _ fun c hc => ?_
    obtain ⟨week, hweek, -⟩ := hcoherent.backup.present c.key (List.mem_map_of_mem hc)
    exact Option.isSome_iff_exists.2 ⟨week, hweek⟩

end Stored

/-! ## Bodies that crash the service -/

section Crash

theorem zero_not_mem_one : 0 ∉ bytes "1" := by decide

/-- a copy with the same memory behind it -/
theorem text_id (c : CStr) : (id c).text = c.text := rfl

def word (name value : String) (h : 0 ∉ bytes value := by decide) : CJson :=
  (CJson.str (.ofStr (bytes value) h)).named name

/-- an id "1" -/
def idOne (name : String) : CJson := word name "1" zero_not_mem_one

def num (name : String) (value : ℤ) : CJson := (CJson.num value).named name

end Crash

end StoreService.Http
