/-
The disk monitor and locked recordings (`MonitorProc` in `monitor.cpp`, `GetFirstStoreInfoFromDB`, `UpdateStatusToTable`
and `DeleteInfoInTable` in `mysql.cpp`, `OperateFile` in `http.cpp`, `StoreFileInfo` in `main.cpp`).

Every camera has a table of recordings and a directory. `StoreFileInfo` inserts the row of a written file as 'unlock';
`OperateFile` sets the status of the first row with a name; the monitor, when the disk is low, goes through the cameras
and for each one fetches the row with the smallest name, deletes the first row of that name and unlinks the file.

Steps (`MonOp`): a file is written and its row inserted; a request of `OperateFile`; a reading of the free space; the
next call of the monitor, which may fail. The monitor's three calls for a camera are three steps, so requests and
inserts fall between them.

- `locked_spared`: in every run in which the monitor never fetches the name of a locked recording, and no recording is
  locked between the fetch of its name and the unlinking, no step of the monitor takes the row or the file of a locked
  recording.
- `oldest_locked`: the monitor fetches the status and does not look at it; a locked recording that is the oldest of its
  camera loses its row and its file.
- `next_cleanup`: the three calls are together the `cleanup` of `Camera`.

Rows come back in insertion order; UPDATE and DELETE with LIMIT 1 take the first match. The list of cameras is fixed.
-/
import StoreService.Core.Keyed
import StoreService.Store.Camera

namespace StoreService.Store

open StoreService.Runs StoreService.FileSys StoreService.Keyed

/-- RECODE_FILE_STATUS_LOCK, RECODE_FILE_STATUS_UNLOCK -/
inductive FileStatus where
  | lock
  | unlock
deriving DecidableEq, Repr

/-- a row with the status that `OperateFile` sets -/
structure Recording extends Row where
  fileStatus : FileStatus

/-- what the monitor reads once and keeps -/
structure Site where
  storePath : String
  cameraInfoList : List String

/-- where `MonitorProc` is: asleep, before camera `i`, or with the name it has fetched for a camera -/
inductive MonPc where
  | asleep
  | camera (i : ℕ)
  | fetched (i : ℕ) (cameraId : String) (name : List Char)
  | deleted (i : ℕ) (cameraId : String) (name : List Char)
deriving DecidableEq, Repr

structure Archive where
  tables : String → List Recording
  files : Files
  pc : MonPc

inductive MonOp where
  | insert (cameraId : String) (r : Row)
  | operate (cameraId : String) (name : List Char) (operateId : ℤ)
  | reading (free : Option ℕ)
  | next (ok : Bool)

/-! ## The calls -/

/-- where the writer puts a recording (`file_path` holds 127 characters) -/
def Site.writtenAt (site : Site) (cameraId : String) (name : List Char) : List (List Char) :=
  resolve (((site.storePath ++ cameraId).toList ++ '/' :: name).take 127)

/-- the path the monitor unlinks -/
def Site.unlinkPath (site : Site) (cameraId : String) (name : List Char) : List (List Char) :=
  resolve (site.storePath.toList ++ '/' :: cameraId.toList ++ '/' :: name)

def Site.minFreeSize (site : Site) : ℕ := storeBufMaxSize * site.cameraInfoList.length * 2 % 2 ^ 64

/-- `SELECT * ... ORDER BY file_name ASC LIMIT 1` -/
def getFirstStoreInfo (rows : List Recording) : Option Recording :=
  (firstName (rows.map Recording.toRow)).bind fun name => rows.find? (·.fileName = name)

/-- `DELETE ... WHERE file_name = name LIMIT 1` -/
def deleteInfo (rows : List Recording) (name : List Char) : List Recording := rows.eraseP (·.fileName = name)

/-- `UPDATE ... SET file_status = status WHERE file_name = name LIMIT 1` -/
def updateStatus (name : List Char) (status : FileStatus) : List Recording → List Recording
  | [] => []
  | r :: rows =>
    if r.fileName = name then { r with fileStatus := status } :: rows else r :: updateStatus name status rows

/-- the operations of `OperateFile` that set a status (2 is a backup) -/
def operateStatus (operateId : ℤ) : Option FileStatus :=
  if operateId = 0 then some .lock else if operateId = 1 then some .unlock else none

namespace Archive

def setTable (s : Archive) (cameraId : String) (rows : List Recording) : Archive :=
  { s with tables := Function.update s.tables cameraId rows }

/-- the next call of a low-space round -/
def next (site : Site) (s : Archive) (ok : Bool) : Option Archive :=
  match s.pc with
  | .asleep => none
  | .camera i =>
    match site.cameraInfoList[i]? with
    | none => some { s with pc := .asleep }
    | some id =>
      match if ok then getFirstStoreInfo (s.tables id) else none with
      | none => some { s with pc := .camera (i + 1) }
      -- the row comes with its status; only the name is used from here on
      | some r => some { s with pc := .fetched i id r.fileName }
  | .fetched i id name =>
    some { (if ok then s.setTable id (deleteInfo (s.tables id) name) else s) with pc := .deleted i id name }
  | .deleted i id name =>
    some { s with
      files := if ok then unlink s.files (site.unlinkPath id name) else s.files
      pc := .camera (i + 1) }

def step (site : Site) (s : Archive) : MonOp → Option Archive
  | .insert id r =>
    some { s.setTable id (s.tables id ++ [{ r with fileStatus := .unlock }]) with
      files := overwrite s.files (site.writtenAt id r.fileName) r.image }
  | .operate id name operateId =>
    match operateStatus operateId with
    | some status => some (s.setTable id (updateStatus name status (s.tables id)))
    | none => some s
  | .reading free =>
    match s.pc, free with
    | .asleep, some free => some (if free ≤ site.minFreeSize then { s with pc := .camera 0 } else s)
    | .asleep, none => some s
    | _, _ => none
  | .next ok => s.next site ok

/-- `StartMonitorProc` on the tables and the disk of earlier runs -/
def start (tables : String → List Recording) (files : Files) : Archive := ⟨tables, files, .asleep⟩

/-- the recordings of a table that are locked -/
def locked (rows : List Recording) : List Recording := rows.filter (·.fileStatus = .lock)

/-- the camera and the name that the monitor is about to delete or to unlink -/
def victim (s : Archive) : Option (String × List Char) :=
  match s.pc with
  | .fetched _ id name => some (id, name)
  | .deleted _ id name => some (id, name)
  | _ => none

end Archive

open Archive

/-- the monitor unlinks where the writer writes -/
theorem addStoreDevice_filePath (cfg : Config) (type : RecodeType) (ping pong : ByteMem.Mem) (pongStart : ℕ)
    (name : List Char) (cams : List String) :
    resolve ((addStoreDevice (cfg.storePath ++ cfg.cameraId) type ping pong pongStart).filePath name) =
      (Site.mk cfg.storePath cams).writtenAt cfg.cameraId name := rfl

/-! ## The monitor's calls and `Camera.cleanup` -/

theorem getFirstStoreInfo_fileName (rows : List Recording) :
    (getFirstStoreInfo rows).map (fun r => r.fileName) = firstName (rows.map Recording.toRow) := by
  unfold getFirstStoreInfo
  cases hf : firstName (rows.map Recording.toRow) with
  | none => rfl
  | some n =>
    obtain ⟨r, hr, hn⟩ := firstName_mem hf
    obtain ⟨q, hq, rfl⟩ := List.mem_map.1 hr
    have hsome : (rows.find? fun p => p.fileName = n).isSome := by
      rw [List.find?_isSome]
      exact ⟨q, hq, by simpa using hn⟩
    obtain ⟨p, hp⟩ := Option.isSome_iff_exists.1 hsome
    simpa [hp] using List.find?_some hp

/-- **One camera of a round.** If all three calls succeed, table and disk are as after `Camera.cleanup`. -/
theorem next_cleanup {site : Site} {s : Archive} {i : ℕ} {cam : Camera} {cfg : Config} (hpc : s.pc = .camera i)
    (hid : site.cameraInfoList[i]? = some cfg.cameraId) (hpath : site.storePath = cfg.storePath)
    (hne : s.tables cfg.cameraId ≠ []) (hrows : cam.rows = (s.tables cfg.cameraId).map Recording.toRow)
    (hfiles : cam.files = s.files) :
    ∃ t, run (Archive.step site) s [.next true, .next true, .next true] = some t ∧ t.pc = .camera (i + 1) ∧
      (t.tables cfg.cameraId).map Recording.toRow = (cam.cleanup cfg).rows ∧ t.files = (cam.cleanup cfg).files := by
  have hname := getFirstStoreInfo_fileName (s.tables cfg.cameraId)
  cases hr : getFirstStoreInfo (s.tables cfg.cameraId) with
  | none =>
    rw [hr, Option.map_none] at hname
    exact absurd (List.map_eq_nil_iff.1 (firstName_none hname.symm)) hne
  | some r =>
    rw [hr, Option.map_some] at hname
    simp only [run, Archive.step, Archive.next, hpc, hid, hr, Option.bind_some, setTable, if_true, Camera.cleanup,
      hrows, hfiles, ← hname, Option.some.injEq, exists_eq_left', true_and, Function.update_self, deleteInfo,
      List.eraseP_map]
    exact ⟨rfl, by rw [Site.unlinkPath, hpath]⟩

/-! ## Locked recordings -/

/-- deleting the row `name` of a camera, or unlinking its path, takes the row `name'` of camera `id'` or its file -/
def Site.Hits (site : Site) (id : String) (name : List Char) (id' : String) (name' : List Char) : Prop :=
  (id' = id ∧ name' = name) ∨ site.writtenAt id' name' = site.unlinkPath id name

/-- the clean-up of a name would take a locked recording -/
def LockedHit (site : Site) (s : Archive) (id : String) (name : List Char) : Prop :=
  ∃ id', ∃ q ∈ locked (s.tables id'), site.Hits id name id' q.fileName

/-- the name the monitor is about to fetch is not that of a locked recording, and a recording that is being locked is
not the one the monitor is about to remove -/
def Spared (site : Site) (s : Archive) : MonOp → Prop
  | .next _ => ∀ i id r, s.pc = .camera i → site.cameraInfoList[i]? = some id →
      getFirstStoreInfo (s.tables id) = some r → ¬ LockedHit site s id r.fileName
  | .operate id name operateId => operateStatus operateId = some .lock → (∃ q ∈ s.tables id, q.fileName = name) →
      ∀ vid vname, s.victim = some (vid, vname) → ¬ site.Hits vid vname id name
  | _ => True

/-- the locked recordings of every camera have their rows and their files as before -/
structure KeepsLocked (site : Site) (s t : Archive) : Prop where
  rows : ∀ id, locked (t.tables id) = locked (s.tables id)
  files : ∀ id, ∀ q ∈ locked (s.tables id),
    t.files (site.writtenAt id q.fileName) = s.files (site.writtenAt id q.fileName)

/-- the steps of `MonitorProc` -/
def MonOp.ByMonitor : MonOp → Prop
  | .reading _ => True
  | .next _ => True
  | _ => False

theorem locked_insert (rows : List Recording) (r : Row) :
    locked (rows ++ [{ r with fileStatus := .unlock }]) = locked rows := by
  simp [locked]

/-- a status update locks at most a row with its name -/
theorem mem_locked_updateStatus {name : List Char} {status : FileStatus} {rows : List Recording} {q : Recording}
    (h : q ∈ locked (updateStatus name status rows)) :
    q ∈ locked rows ∨ (status = .lock ∧ q.fileName = name ∧ ∃ p ∈ rows, p.fileName = name) := by
  induction rows with
  | nil => exact Or.inl h
  | cons r rows ih =>
    rw [updateStatus] at h
    split_ifs at h with hr
    · obtain ⟨hq, hl⟩ := List.mem_filter.1 h
      rcases List.mem_cons.1 hq with rfl | hq
      · exact Or.inr ⟨by simpa using hl, hr, r, List.mem_cons_self, hr⟩
      · exact Or.inl (List.mem_filter.2 ⟨List.mem_cons_of_mem _ hq, hl⟩)
    · obtain ⟨hq, hl⟩ := List.mem_filter.1 h
      rcases List.mem_cons.1 hq with rfl | hq
      · exact Or.inl (List.mem_filter.2 ⟨List.mem_cons_self, hl⟩)
      · rcases ih (List.mem_filter.2 ⟨hq, hl⟩) with hq | ⟨hs, hn, p, hp, hpn⟩
        · exact Or.inl (List.mem_filter.2 ⟨List.mem_cons_of_mem _ (List.mem_filter.1 hq).1, hl⟩)
        · exact Or.inr ⟨hs, hn, p, List.mem_cons_of_mem _ hp, hpn⟩

/-- what the monitor is about to remove is not locked -/
def SparedInv (site : Site) (s : Archive) : Prop :=
  ∀ id name, s.victim = some (id, name) → ¬ LockedHit site s id name

theorem LockedHit.congr {site : Site} {s t : Archive} {id : String} {name : List Char}
    (h : ∀ id, locked (t.tables id) = locked (s.tables id)) (ht : LockedHit site t id name) :
    LockedHit site s id name := by
  obtain ⟨id', q, hq, hhit⟩ := ht
  exact ⟨id', q, h id' ▸ hq, hhit⟩

/-- deleting the fetched name: none of the rows that have it is locked -/
theorem locked_deleteInfo {site : Site} {s : Archive} {id : String} {name : List Char}
    (h : ¬ LockedHit site s id name) :
    locked (deleteInfo (s.tables id) name) = locked (s.tables id) := by
  refine filter_eraseP fun r hr hn hl => h ⟨id, r, List.mem_filter.2 ⟨hr, hl⟩, Or.inl ⟨rfl, ?_⟩⟩
  simpa using hn

/-- a reading of the free space leaves the tables and the disk alone -/
theorem reading_cases {site : Site} {s t : Archive} {free : Option ℕ} (h : s.step site (.reading free) = some t) :
    t = s ∨ t = { s with pc := .camera 0 } := by
  cases hpc : s.pc <;> cases free <;> simp only [Archive.step, hpc, Option.some.injEq, reduceCtorEq] at h
  · exact Or.inl h.symm
  · split_ifs at h
    · exact Or.inr h.symm
    · exact Or.inl h.symm

/-- what one call of the monitor can do -/
theorem next_cases {site : Site} {s t : Archive} {ok : Bool} (h : s.next site ok = some t) :
    (∃ i, t = { s with pc := .camera i }) ∨ t = { s with pc := .asleep } ∨
      (∃ i id r, s.pc = .camera i ∧ site.cameraInfoList[i]? = some id ∧ getFirstStoreInfo (s.tables id) = some r ∧
        t = { s with pc := .fetched i id r.fileName }) ∨
      (∃ i id name, s.pc = .fetched i id name ∧
        (t = { s with pc := .deleted i id name } ∨
          t = { s.setTable id (deleteInfo (s.tables id) name) with pc := .deleted i id name })) ∨
      (∃ i id name, s.pc = .deleted i id name ∧
        t = { s with files := unlink s.files (site.unlinkPath id name), pc := .camera (i + 1) }) := by
  unfold next at h
  cases hpc : s.pc with
  | asleep => simp [hpc] at h
  | camera i =>
    cases hid : site.cameraInfoList[i]? with
    | none =>
      simp only [hpc, hid, Option.some.injEq] at h
      exact Or.inr (Or.inl h.symm)
    | some id =>
      simp only [hpc, hid] at h
      cases hr : if ok then getFirstStoreInfo (s.tables id) else none with
      | none =>
        simp only [hr, Option.some.injEq] at h
        exact Or.inl ⟨i + 1, h.symm⟩
      | some r =>
        simp only [hr, Option.some.injEq] at h
        rw [Option.ite_none_right_eq_some] at hr
        exact Or.inr (Or.inr (Or.inl ⟨i, id, r, rfl, hid, hr.2, h.symm⟩))
  | fetched i id name =>
    simp only [hpc, Option.some.injEq] at h
    refine Or.inr (Or.inr (Or.inr (Or.inl ⟨i, id, name, rfl, ?_⟩)))
    cases ok with
    | false => exact Or.inl h.symm
    | true => exact Or.inr h.symm
  | deleted i id name =>
    simp only [hpc, Option.some.injEq] at h
    cases ok with
    | false => exact Or.inl ⟨i + 1, h.symm⟩
    | true => exact Or.inr (Or.inr (Or.inr (Or.inr ⟨i, id, name, rfl, h.symm⟩)))

theorem start_sparedInv (site : Site) (tables : String → List Recording) (files : Files) :
    SparedInv site (start tables files) := nofun

/-- a request or an insert that locks no row the monitor is about to remove -/
theorem SparedInv.setTable {site : Site} {s : Archive} {id : String} {rows : List Recording} (h : SparedInv site s)
    (hq : ∀ q ∈ locked rows, q ∈ locked (s.tables id) ∨
      ∀ vid vname, s.victim = some (vid, vname) → ¬ site.Hits vid vname id q.fileName) :
    SparedInv site (s.setTable id rows) := by
  rintro vid vname hv ⟨id', q, hmem, hhit⟩
  by_cases hid : id' = id
  · subst hid
    simp only [Archive.setTable, Function.update_self] at hmem
    rcases hq q hmem with hold | hno
    · exact h vid vname hv ⟨id', q, hold, hhit⟩
    · exact hno vid vname hv hhit
  · simp only [Archive.setTable, Function.update_of_ne hid] at hmem
    exact h vid vname hv ⟨id', q, hmem, hhit⟩

theorem locked_setTable {s : Archive} {id : String} {rows : List Recording}
    (h : locked rows = locked (s.tables id)) (id' : String) :
    locked ((s.setTable id rows).tables id') = locked (s.tables id') := by
  by_cases hid : id' = id
  · subst hid
    simpa [Archive.setTable] using h
  · simp [Archive.setTable, Function.update_of_ne hid]

/-- **One call of the monitor** removes nothing that is locked, and its next victim is not locked either. -/
theorem SparedInv.next {site : Site} {s t : Archive} {ok : Bool} (h : SparedInv site s)
    (hp : Spared site s (.next ok)) (ht : s.next site ok = some t) : SparedInv site t ∧ KeepsLocked site s t := by
  have same : ∀ pc : MonPc, KeepsLocked site s { s with pc := pc } := fun _ => ⟨fun _ => rfl, fun _ _ _ => rfl⟩
  rcases next_cases ht with ⟨i, rfl⟩ | rfl | ⟨i, id, r, hpc, hid, hr, rfl⟩ | ⟨i, id, name, hpc, rfl | rfl⟩ |
    ⟨i, id, name, hpc, rfl⟩
  · exact ⟨nofun, same _⟩
  · exact ⟨nofun, same _⟩
  · refine ⟨?_, same _⟩
    rintro vid vname hv
    obtain ⟨rfl, rfl⟩ : id = vid ∧ r.fileName = vname := by simpa [victim] using hv
    exact hp i id r hpc hid hr
  · refine ⟨?_, same _⟩
    rintro vid vname hv
    obtain ⟨rfl, rfl⟩ : id = vid ∧ name = vname := by simpa [victim] using hv
    exact h id name (by simp [victim, hpc])
  · have hno : ¬ LockedHit site s id name := h id name (by simp [victim, hpc])
    have hkeep := locked_setTable (locked_deleteInfo hno)
    refine ⟨?_, hkeep, fun _ _ _ => rfl⟩
    rintro vid vname hv
    obtain ⟨rfl, rfl⟩ : id = vid ∧ name = vname := by simpa [victim] using hv
    exact fun hhit => hno (LockedHit.congr hkeep hhit)
  · have hno : ¬ LockedHit site s id name := h id name (by simp [victim, hpc])
    refine ⟨nofun, fun _ => rfl, fun id' q hq => unlink_of_ne fun he => hno ⟨id', q, hq, Or.inr he⟩⟩

theorem SparedInv.step {site : Site} {s t : Archive} {a : MonOp} (h : SparedInv site s) (hp : Spared site s a)
    (ht : s.step site a = some t) : SparedInv site t ∧ (a.ByMonitor → KeepsLocked site s t) := by
  cases a with
  | insert id r =>
    cases ht
    refine ⟨?_, nofun⟩
    exact h.setTable fun q hq => Or.inl (by rwa [locked_insert] at hq)
  | operate id name operateId =>
    refine ⟨?_, nofun⟩
    simp only [Archive.step] at ht
    cases hs : operateStatus operateId with
    | none =>
      simp only [hs, Option.some.injEq] at ht
      exact ht ▸ h
    | some status =>
      simp only [hs, Option.some.injEq] at ht
      subst ht
      refine h.setTable fun q hq => ?_
      rcases mem_locked_updateStatus hq with hq | ⟨rfl, rfl, hrow⟩
      · exact Or.inl hq
      · exact Or.inr (hp hs hrow)
  | reading free =>
    -- no name has been fetched yet
    rcases reading_cases ht with rfl | rfl
    · exact ⟨h, fun _ => ⟨fun _ => rfl, fun _ _ _ => rfl⟩⟩
    · exact ⟨nofun, fun _ => ⟨fun _ => rfl, fun _ _ _ => rfl⟩⟩
  | next ok =>
    obtain ⟨hi, hk⟩ := h.next hp ht
    exact ⟨hi, fun _ => hk⟩

/-- **Locked recordings are kept.** From any tables and disk, in every run in which the monitor never fetches the name
of a locked recording and none is locked while its removal is under way, every further step of the monitor leaves the
rows and the files of the locked recordings as they are. -/
theorem locked_spared (site : Site) (tables : String → List Recording) (files : Files) (ops : List MonOp)
    (h : Steps (Archive.step site) (Spared site) (start tables files) ops) (s : Archive)
    (hr : run (Archive.step site) (start tables files) ops = some s) (a : MonOp) (ha : a.ByMonitor)
    (hp : Spared site s a) (t : Archive) (ht : s.step site a = some t) : KeepsLocked site s t := by
  have hinv : SparedInv site s :=
    run_inv (fun _ _ _ hi hp ht => (hi.step hp ht).1) (start_sparedInv site tables files) h hr
  exact (hinv.step hp ht).2 ha

/-! ## The oldest recording is locked -/

/-- a site with one camera -/
def oneCamera : Site := ⟨"/data/", ["7"]⟩

def recordingOf (name : String) : Row := ⟨0, name.toList, .planned, [1]⟩

/-- two recordings, the newer one locked, then a low-space round -/
def lockNewer : List MonOp :=
  [.insert "7" (recordingOf "a"), .insert "7" (recordingOf "b"), .operate "7" "b".toList 0, .reading (some 0),
    .next true]

/-- two recordings, the older one locked, then a low-space round -/
def lockOlder : List MonOp :=
  [.insert "7" (recordingOf "a"), .insert "7" (recordingOf "b"), .operate "7" "a".toList 0, .reading (some 0),
    .next true]

def emptyArchive : Archive := start (fun _ => []) (fun _ => none)

theorem locked_spared_newer :
    ∃ s t, run (Archive.step oneCamera) emptyArchive lockNewer = some s ∧ s.step oneCamera (.next true) = some t ∧
      (t.tables "7").map (fun r => r.fileName) = ["b".toList] ∧ KeepsLocked oneCamera s t := by
  have hrun : ((run (Archive.step oneCamera) emptyArchive lockNewer).bind fun s =>
      (s.step oneCamera (.next true)).map fun t => (t.tables "7").map fun r => r.fileName) = some ["b".toList] := by
    decide +kernel
  obtain ⟨s, hs, hrest⟩ := Option.bind_eq_some_iff.1 hrun
  obtain ⟨t, ht, hrows⟩ := Option.map_eq_some_iff.1 hrest
  refine ⟨s, t, hs, ht, hrows, locked_spared oneCamera _ _ lockNewer ?_ s hs (.next true) trivial ?_ t ht⟩
  · refine ⟨trivial, fun t1 h1 => ⟨trivial, fun t2 h2 => ⟨?_, fun t3 h3 => ⟨trivial, fun t4 h4 =>
      ⟨?_, fun _ _ => trivial⟩⟩⟩⟩⟩
    · obtain rfl := Option.some.inj h1
      obtain rfl := Option.some.inj h2
      exact fun _ _ => nofun
    · obtain rfl := Option.some.inj h1
      obtain rfl := Option.some.inj h2
      obtain rfl := Option.some.inj h3
      obtain rfl := Option.some.inj h4
      intro i id r hpc hid hr
      obtain rfl : 0 = i := by simpa using hpc
      obtain rfl : "7" = id := by simpa [oneCamera] using hid
      obtain rfl := Option.some.inj hr
      rintro ⟨id', q, hq, hhit⟩
      by_cases h7 : id' = "7"
      · subst h7
        obtain rfl : q = { recordingOf "b" with fileStatus := .lock } := List.mem_singleton.1 hq
        rcases hhit with ⟨-, hname⟩ | hpath
        · exact absurd hname (by decide)
        · exact absurd hpath (by decide)
      · simp [Archive.setTable, Function.update_of_ne h7, start, locked] at hq
  · have hpc : (run (Archive.step oneCamera) emptyArchive lockNewer).map Archive.pc =
        some (.fetched 0 "7" "a".toList) := by decide +kernel
    obtain ⟨s', hs', hpc⟩ := Option.map_eq_some_iff.1 hpc
    obtain rfl := Option.some.inj (hs'.symm.trans hs)
    exact fun i id r hc => absurd (hpc.symm.trans hc) nofun

/-- the older recording is locked, is the first by name, and loses its row and then its file -/
theorem oldest_locked :
    ∃ s t u, run (Archive.step oneCamera) emptyArchive lockOlder = some s ∧
      s.step oneCamera (.next true) = some t ∧ t.step oneCamera (.next true) = some u ∧ ¬ KeepsLocked oneCamera s t ∧
      s.files (oneCamera.writtenAt "7" "a".toList) = some [1] ∧
      u.files (oneCamera.writtenAt "7" "a".toList) = none := by
  have hrun : ((run (Archive.step oneCamera) emptyArchive lockOlder).bind fun s =>
      (s.step oneCamera (.next true)).bind fun t => (t.step oneCamera (.next true)).map fun u =>
        ((locked (s.tables "7")).length, (locked (t.tables "7")).length,
          s.files (oneCamera.writtenAt "7" "a".toList), u.files (oneCamera.writtenAt "7" "a".toList))) =
      some (1, 0, some [1], none) := by
    decide +kernel
  obtain ⟨s, hs, hrest⟩ := Option.bind_eq_some_iff.1 hrun
  obtain ⟨t, ht, hrest⟩ := Option.bind_eq_some_iff.1 hrest
  obtain ⟨u, hu, hval⟩ := Option.map_eq_some_iff.1 hrest
  obtain ⟨hls, hlt, hfs, hfu⟩ : (locked (s.tables "7")).length = 1 ∧ (locked (t.tables "7")).length = 0 ∧
      s.files (oneCamera.writtenAt "7" "a".toList) = some [1] ∧
      u.files (oneCamera.writtenAt "7" "a".toList) = none := by
    simpa only [Prod.mk.injEq] using hval
  refine ⟨s, t, u, hs, ht, hu, fun hkeep => ?_, hfs, hfu⟩
  rw [hkeep.rows "7", hls] at hlt
  exact absurd hlt (by decide)

end StoreService.Store
