/-
The registries of cameras and the requests that change them (`http.cpp`, with the parts of `mysql.cpp`, `backup.cpp`,
`store.cpp`, `stream.cpp` and `main.cpp` they call).

A camera is in five places: the table `camera_info`, `cameraInfoList`, `bakScheduleList`, `storeDeviceList` and
`streamThreadList`. `AddRecodeDevice` writes them one after the other and takes back what it wrote when one refuses;
`DeleteRecodeDevice` and `UpdateSchedule` go through all of them. At start-up `main` fills the lists from the table.

Conventions:
- the table is the list of its rows in insertion order, and the commands go through it as texts (`Sql`): what a value
  with a quote does, and which ids are equal, is up to the database (`Env.db`). Which calls to the database, mkdir and
  malloc fail for another reason is an input of a request (`Faults`);
- waits for other threads end: the writer takes the buffer of a removed device, a capture thread stops, no backup has
  the schedule in use;
- `none` is a crash: a null `valuestring` made into a std::string, a schedule read past its end, or the removal of a
  device whose buffers were never allocated.

Left out: the camera's own table (created if it is not there, never read here), the contents of the buffers, log output.
-/
import StoreService.Store.Device
import StoreService.Stream.Threads
import StoreService.Http.Sql

namespace StoreService.Http

open StoreService.Json StoreService.Schedule StoreService.Stream
open StoreService.Store (RecodeType)

/-! ## The registries -/

/-- what the requests see of a `struct storedevice`: its directory, its type, and whether its buffers were allocated -/
structure StoreEntry where
  storePath : Str
  storeType : RecodeType
  allocated : Bool
deriving DecidableEq, Repr

structure Registries where
  /-- the table `camera_info` -/
  cameraInfo : List CameraInfo
  cameraInfoList : List CameraInfo
  bakScheduleList : Str → Option Week
  storeDeviceList : Str → Option StoreEntry
  streamThreadList : StreamList

structure Env where
  codec : Codec
  storePath : Str
  db : Database

/-- the calls that fail -/
structure Faults where
  createTable : Bool
  insertInfo : Bool
  deleteInfo : Bool
  updateRec : Bool
  updateBak : Bool
  /-- mysql_error -/
  dbError : String
  /-- the directory is not there and cannot be made -/
  mkdir : Bool
  malloc : Bool
  /-- the backup server does not accept the connection -/
  connect : Bool

def Faults.none : Faults := ⟨false, false, false, false, false, "", false, false, false⟩

/-! ## What the requests call -/

/-- `DeleteCameraInfoInList` -/
def deleteCameraInfoInList (list : List CameraInfo) (cameraId : Str) : List CameraInfo :=
  list.eraseP (·.id = cameraId)

/-- `AddBakSchedule` -/
def addBakSchedule (l : Str → Option Week) (id : Str) (schedule : Week) : Except ErrorNo (Str → Option Week) :=
  match l id with
  | none => .ok (Function.update l id (some schedule))
  | some _ => .error .deviceAlreadyExist

/-- `RemoveBakSchedule` -/
def removeBakSchedule (l : Str → Option Week) (id : Str) : Str → Option Week := Function.update l id none

/-- `UpdateBakSchedule` -/
def updateBakSchedule (l : Str → Option Week) (id : Str) (schedule : Week) : Except ErrorNo (Str → Option Week) :=
  match l id with
  | some _ => .ok (Function.update l id (some schedule))
  | none => .error .doNotFindCamera

/-- `AddStoreDevice` for planned recording. A failed malloc leaves the entry in the list. -/
def addStoreDevice (env : Env) (f : Faults) (l : Str → Option StoreEntry) (devId : Str) :
    (Str → Option StoreEntry) × Option ErrorNo :=
  match l devId with
  | some _ => (l, some .deviceAlreadyExist)
  | none =>
    if f.mkdir then (l, some .createStoreDirectoryFail)
    else if f.malloc then
      (Function.update l devId (some ⟨env.storePath ++ devId, .planned, false⟩), some .mallocMemoryFail)
    else (Function.update l devId (some ⟨env.storePath ++ devId, .planned, true⟩), none)

/-- `RemoveStoreDevice` -/
def removeStoreDevice (l : Str → Option StoreEntry) (devId : Str) :
    Option ((Str → Option StoreEntry) × Option ErrorNo) :=
  match l devId with
  | none => some (l, some .doNotFindCamera)
  | some e => if e.allocated then some (Function.update l devId none, none) else none

/-! ## Reading a request -/

/-- `ParsePostData`: what follows the first empty line -/
def parsePostData : Str → Option Str
  | 13 :: 10 :: 13 :: 10 :: data => some data
  | _ :: info => parsePostData info
  | [] => none

/-- `CreateDefaultSchedule` -/
def createDefaultSchedule : CJson :=
  .array (List.replicate 7 (.array [.str (.ofStr (bytes "00:00:00-00:00:00") (by decide))]))

def getItem (obj : CJson) (name : String) (err : ErrorNo) : Except ErrorNo CJson :=
  match obj.getObjectItem (bytes name) with
  | none => .error err
  | some item => .ok item

/-- the JSON of a request -/
def postObject (J : Codec) (info : Str) : Except ErrorNo CJson :=
  match parsePostData info with
  | none => .error .noPostData
  | some data =>
    match J.parse data with
    | none => .error .invalidJsonData
    | some obj => .ok obj

/-- the JSON with its "mainId" and "subId": how the three requests begin -/
def postIds (J : Codec) (info : Str) : Except ErrorNo (CJson × CJson × CJson) := do
  let obj ← postObject J info
  let main ← getItem obj "mainId" .noMainIdInJson
  let sub ← getItem obj "subId" .noSubIdInJson
  return (obj, main, sub)

/-- mainId-subId -/
def deviceId (main sub : CJson) : Option Str := do
  let m ← main.valuestring
  let s ← sub.valuestring
  return m.text ++ bytes "-" ++ s.text

/-! ## Responses -/

structure Response where
  code : Bool
  /-- at most 124 bytes of it -/
  message : Str
deriving DecidableEq, Repr

/-- `snprintf(str, 125, "<head>(<id>)<tail>成功! ")`, or with an error `"...失败:<err>"` -/
def respond (head : String) (id : Str) (tail : String) (err : Option String) : Response where
  code := err.isNone
  message := (bytes head ++ id ++ bytes tail ++
    match err with
    | none => bytes "成功! "
    | some e => bytes "失败:" ++ bytes e).take 124

def respondAdd (devId : Str) (err : Option String) : Response :=
  respond "添加摄像机(" (if devId = [] then bytes "Id未知道" else devId) ")" err

def respondDelete (cameraId : Str) (err : Option String) : Response := respond "删除摄像机(" cameraId ")" err

def respondUpdate (devId : Str) (err : Option String) : Response := respond "更新摄像机(" devId ")计划" err

/-! ## AddRecodeDevice -/

/-- an add request that has been read: the texts and what they parse to -/
structure AddRequest where
  devId : Str
  name : Str
  recScheduleCjson : Str
  bakScheduleCjson : Str
  recSchedule : Week
  bakSchedule : Week

/-- `AddRecodeDevice` up to `CreateCameraTable`. An error comes with the id, as far as it is known. -/
def parseAdd (J : Codec) (info : Str) : Option (Except (Str × ErrorNo) AddRequest) :=
  match postIds J info with
  | .error e => some (.error ([], e))
  | .ok (obj, main, sub) =>
    match getItem obj "name" .noDevNameInJson with
    | .error e => some (.error ([], e))
    | .ok nameObj => do
      let recObj := (obj.getObjectItem (bytes "recSchedule")).getD createDefaultSchedule
      let bakObj := (obj.getObjectItem (bytes "bakSchedule")).getD createDefaultSchedule
      let devId ← deviceId main sub
      let name ← nameObj.valuestring
      match ← parseSchedule J (J.print recObj) with
      | .error e => return .error (devId, e)
      | .ok recSchedule =>
        match ← parseSchedule J (J.print bakObj) with
        | .error e => return .error (devId, e)
        | .ok bakSchedule => return .ok ⟨devId, name.text, J.print recObj, J.print bakObj, recSchedule, bakSchedule⟩

def AddRequest.info (r : AddRequest) : CameraInfo := ⟨r.devId, r.name, r.recScheduleCjson, r.bakScheduleCjson⟩

namespace Registries

/-- label `delete_camera_info`, which does not look whether the DELETE succeeds -/
def deleteCameraInfo (env : Env) (f : Faults) (s : Registries) (devId : Str) : Registries :=
  { s with cameraInfo := (deleteCameraInfoInTable env.db f.deleteInfo s.cameraInfo devId).getD s.cameraInfo }

/-- label `delete_bak_sche` -/
def deleteBakSche (env : Env) (f : Faults) (s : Registries) (devId : Str) : Registries :=
  { s with bakScheduleList := removeBakSchedule s.bakScheduleList devId }.deleteCameraInfo env f devId

/-- label `remove_store_dev` -/
def removeStoreDev (env : Env) (f : Faults) (s : Registries) (devId : Str) : Option Registries :=
  (removeStoreDevice s.storeDeviceList devId).map fun r => { s with storeDeviceList := r.1 }.deleteBakSche env f devId

/-- `AddRecodeDevice` from `CreateCameraTable` on: the registries, and the error if there is one -/
def register (env : Env) (f : Faults) (s : Registries) (r : AddRequest) : Option (Registries × Option String) :=
  if f.createTable then some (s, some f.dbError)
  else
    match insertCameraInfoToTable env.db f.insertInfo s.cameraInfo r.info with
    | none => some (s, some f.dbError)
    | some rows =>
      let s := { s with cameraInfo := rows }
      match addBakSchedule s.bakScheduleList r.devId r.bakSchedule with
      | .error e => some (s.deleteCameraInfo env f r.devId, some (storeApiRet e))
      | .ok bak =>
        let s := { s with bakScheduleList := bak }
        match addStoreDevice env f s.storeDeviceList r.devId with
        | (store, some e) =>
          some ({ s with storeDeviceList := store }.deleteBakSche env f r.devId, some (storeApiRet e))
        | (store, none) =>
          let s := { s with storeDeviceList := store }
          match s.streamThreadList.addStream r.devId r.recSchedule .storePlannedStream with
          | .error e => (s.removeStoreDev env f r.devId).map fun s => (s, some (storeApiRet e))
          | .ok streams =>
            some ({ s with streamThreadList := streams, cameraInfoList := s.cameraInfoList ++ [r.info] }, none)

/-- `AddRecodeDevice` -/
def addRecodeDevice (env : Env) (f : Faults) (s : Registries) (info : Str) : Option (Registries × Response) :=
  match parseAdd env.codec info with
  | none => none
  | some (.error (devId, e)) => some (s, respondAdd devId (some (storeApiRet e)))
  | some (.ok r) => (s.register env f r).map fun p => (p.1, respondAdd r.devId p.2)

/-! ## DeleteRecodeDevice -/

/-- `DeleteRecodeDevice` once the id is known. Only a failed database call stops it. -/
def unregister (env : Env) (f : Faults) (s : Registries) (cameraId : Str) : Option (Registries × Option String) :=
  match deleteCameraInfoInTable env.db f.deleteInfo s.cameraInfo cameraId with
  | none => some (s, some f.dbError)
  | some rows =>
    let streams := s.streamThreadList.deleteStream cameraId
    (removeStoreDevice s.storeDeviceList cameraId).map fun store =>
      ({ cameraInfo := rows
         cameraInfoList := deleteCameraInfoInList s.cameraInfoList cameraId
         bakScheduleList := removeBakSchedule s.bakScheduleList cameraId
         storeDeviceList := store.1
         streamThreadList := streams.toOption.getD s.streamThreadList },
        match store.2, streams with
        | some e, _ => some (storeApiRet e)
        | none, .error e => some (storeApiRet e)
        | none, .ok _ => none)

/-- `DeleteRecodeDevice` -/
def deleteRecodeDevice (env : Env) (f : Faults) (s : Registries) (info : Str) : Option (Registries × Response) :=
  match postIds env.codec info with
  | .error e => some (s, respondDelete [] (some (storeApiRet e)))
  | .ok (_, main, sub) => do
    let cameraId ← deviceId main sub
    let r ← s.unregister env f cameraId
    return (r.1, respondDelete cameraId r.2)

/-! ## UpdateSchedule -/

/-- how far an update came: the registries, the error if there is one, and whether it goes on -/
structure Progress where
  reg : Registries
  err : Option String
  goesOn : Bool

/-- the part of `UpdateSchedule` for "recSchedule" -/
def updateRec (env : Env) (f : Faults) (s : Registries) (devId : Str) (cameraIdx : ℕ) (item : Option CJson) :
    Option Progress :=
  match item with
  | none => some ⟨s, none, true⟩
  | some obj => do
    let text := env.codec.print obj
    match ← parseSchedule env.codec text with
    | .error e => return ⟨s, some (storeApiRet e), false⟩
    | .ok schedule =>
      match updateRecScheduleToCameraTable env.db f.updateRec s.cameraInfo devId text with
      | none => return ⟨s, some f.dbError, false⟩
      | some rows =>
        let streams := s.streamThreadList.updateRecodeSchedule devId schedule
        return {
          reg := { s with
            cameraInfo := rows
            streamThreadList := streams.toOption.getD s.streamThreadList
            cameraInfoList := s.cameraInfoList.modify cameraIdx fun c => { c with recSchedule := text } }
          err := match streams with
            | .error e => some (storeApiRet e)
            | .ok _ => none
          goesOn := true }

/-- the part of `UpdateSchedule` for "bakSchedule" -/
def updateBak (env : Env) (f : Faults) (s : Registries) (devId : Str) (cameraIdx : ℕ) (item : Option CJson) :
    Option Progress :=
  match item with
  | none => some ⟨s, none, true⟩
  | some obj => do
    let text := env.codec.print obj
    match ← parseSchedule env.codec text with
    | .error e => return ⟨s, some (storeApiRet e), false⟩
    | .ok schedule =>
      match updateBakScheduleToCameraTable env.db f.updateBak s.cameraInfo devId text with
      | none => return ⟨s, some f.dbError, false⟩
      | some rows =>
        let baks := updateBakSchedule s.bakScheduleList devId schedule
        return {
          reg := { s with
            cameraInfo := rows
            bakScheduleList := baks.toOption.getD s.bakScheduleList
            cameraInfoList := s.cameraInfoList.modify cameraIdx fun c => { c with bakSchedule := text } }
          err := match baks with
            | .error e => some (storeApiRet e)
            | .ok _ => none
          goesOn := true }

/-- `UpdateSchedule` once the id is known -/
def reschedule (env : Env) (f : Faults) (s : Registries) (devId : Str) (recObj bakObj : Option CJson) :
    Option (Registries × Option String) :=
  match s.cameraInfoList.findIdx? (·.id = devId) with
  | none => some (s, some (storeApiRet .doNotFindCamera))
  | some cameraIdx =>
    if recObj.isNone ∧ bakObj.isNone then some (s, some (storeApiRet .noScheduleInJson))
    else do
      let p ← s.updateRec env f devId cameraIdx recObj
      if p.goesOn then
        let q ← p.reg.updateBak env f devId cameraIdx bakObj
        return (q.reg, q.err.or p.err)
      else return (p.reg, p.err)

/-- `UpdateSchedule` -/
def updateSchedule (env : Env) (f : Faults) (s : Registries) (info : Str) : Option (Registries × Response) :=
  match postIds env.codec info with
  | .error e => some (s, respondUpdate [] (some (storeApiRet e)))
  | .ok (obj, main, sub) => do
    let devId ← deviceId main sub
    let r ← s.reschedule env f devId (obj.getObjectItem (bytes "recSchedule")) (obj.getObjectItem (bytes "bakSchedule"))
    return (r.1, respondUpdate devId r.2)

end Registries

/-! ## What a request asks for -/

/-- the id of a delete request, where no error comes before it -/
def parseDelete (J : Codec) (info : Str) : Option Str :=
  match postIds J info with
  | .error _ => none
  | .ok (_, main, sub) => deviceId main sub

structure UpdateRequest where
  devId : Str
  recSchedule : Option CJson
  bakSchedule : Option CJson

/-- `UpdateSchedule` up to the search for the camera, if there is no error -/
def parseUpdate (J : Codec) (info : Str) : Option UpdateRequest :=
  match postIds J info with
  | .error _ => none
  | .ok (obj, main, sub) => (deviceId main sub).map fun devId =>
      ⟨devId, obj.getObjectItem (bytes "recSchedule"), obj.getObjectItem (bytes "bakSchedule")⟩

/-! ## main -/

/-- the table of a schedule that is accepted -/
def accepted (J : Codec) (json : Str) : Option Week := (parseSchedule J json).bind Except.toOption

/-- the body of the load loop in `main`; `none` is its `goto quit` -/
def loadCamera (env : Env) (s : Registries) (c : CameraInfo) : Option Registries :=
  if c.id = [] ∨ c.recSchedule = [] then none
  else do
    let recSchedule ← accepted env.codec c.recSchedule
    let bakSchedule ← accepted env.codec c.bakSchedule
    let baks ← (addBakSchedule s.bakScheduleList c.id bakSchedule).toOption
    match addStoreDevice env .none s.storeDeviceList c.id with
    | (_, some _) => none
    | (store, none) =>
      let streams ← (s.streamThreadList.addStream c.id recSchedule .storePlannedStream).toOption
      return { s with bakScheduleList := baks, storeDeviceList := store, streamThreadList := streams }

/-- start-up: the lists are filled from the table -/
def load (env : Env) (rows : List CameraInfo) : Option Registries :=
  rows.foldlM (loadCamera env) ⟨rows, rows, fun _ => none, fun _ => none, fun _ => none⟩

/-! ## Runs -/

inductive Request where
  | add (info : Str)
  | delete (info : Str)
  | update (info : Str)
  /-- a pass of the stream scheduler -/
  | tick (now : Str → Clock)

/-- one request, with every call to the database, mkdir and malloc succeeding -/
def step (env : Env) (s : Registries) : Request → Option Registries
  | .add info => (s.addRecodeDevice env .none info).map Prod.fst
  | .delete info => (s.deleteRecodeDevice env .none info).map Prod.fst
  | .update info => (s.updateSchedule env .none info).map Prod.fst
  | .tick now => some { s with streamThreadList := s.streamThreadList.tick now }

end StoreService.Http
