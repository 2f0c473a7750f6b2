/-
The free-space reserve and the set of cameras (`MonitorProc` in `monitor.cpp`, `AddRecodeDevice`, `DeleteRecodeDevice`,
`main`).

The monitor keeps `min_free_size` bytes free, two files for each camera. It computes that number once, from the length
of `cameraInfoList` at the moment its thread starts; the loop of a round goes over the list as it is then.

Steps (`ReserveOp`): an add or a delete request, with any of its calls failing; a recording is written; the thread
starts; a round with what `statfs` says. `main` starts the server before the monitor, so requests may come first. A
round is one step, and its calls succeed; `next_cleanRound` takes it apart.

- `reserve_iff`: every round of a run does what two files for each camera registered at that round ask for
  (`FollowsCameras`), exactly if at every round the free space is on the same side of the number computed at the start
  and of the number the cameras ask for, or no camera has a recording (`SameSide`).
- `reserve_of_no_camera`: a service started without cameras keeps no reserve: a camera is added, the disk runs low, and
  nothing is removed.

Every camera is once in `cameraInfoList` (`ListedOnce`), because `AddBakSchedule` refuses an id that is there; this is
what makes a round take one recording of a camera and not two.
-/
import StoreService.Store.Round
import StoreService.Http.Rollback

namespace StoreService.Http

open StoreService.Json StoreService.Schedule StoreService.Stream StoreService.Runs StoreService.Keyed
open StoreService.Store (Archive Site Row RemovesOldest storeBufMaxSize cleanCameras_removes removesOldest_self_iff
  cleanRound_eq_self_iff)

/-! ## The service with its monitor -/

/-- an id as the name of a table and of a directory -/
def cameraName (id : Str) : String := .ofList (id.map fun b => .ofNat b.toNat)

structure Monitored where
  reg : Registries
  archive : Archive
  /-- `min_free_size` of the thread, once it has started -/
  minFreeSize : Option ℕ

inductive ReserveOp where
  | add (info : Str) (f : Faults)
  | delete (info : Str) (f : Faults)
  | recorded (cameraId : String) (r : Row)
  | startMonitor
  | round (free : Option ℕ)

namespace Monitored

/-- what the monitor sees of the service -/
def site (env : Env) (s : Monitored) : Site where
  storePath := cameraName env.storePath
  cameraInfoList := s.reg.cameraInfoList.map fun c => cameraName c.id

/-- two files for each camera that is registered now -/
def reserve (s : Monitored) : ℕ := 2 * storeBufMaxSize * s.reg.cameraInfoList.length

/-- main, once it has filled the lists -/
def start (reg : Registries) (archive : Archive) : Monitored := ⟨reg, archive, none⟩

def step (env : Env) (s : Monitored) : ReserveOp → Option Monitored
  | .add info f => (s.reg.addRecodeDevice env f info).map fun r => { s with reg := r.1 }
  | .delete info f => (s.reg.deleteRecodeDevice env f info).map fun r => { s with reg := r.1 }
  | .recorded id r => (s.archive.step (s.site env) (.insert id r)).map fun a => { s with archive := a }
  | .startMonitor =>
    match s.minFreeSize with
    | none => some { s with minFreeSize := some (s.site env).minFreeSize }
    | some _ => none
  | .round free => s.minFreeSize.map fun minFreeSize =>
      if free.any (· ≤ minFreeSize) then { s with archive := s.archive.cleanRound (s.site env) } else s

end Monitored

/-- a round takes the oldest recording of every registered camera if the free space is at most the reserve for them, and
otherwise nothing -/
def FollowsCameras (env : Env) (s : Monitored) : ReserveOp → Prop
  | .round free => ∀ t, s.step env (.round free) = some t →
      if free.any (· ≤ s.reserve) then
        RemovesOldest (s.site env) (s.site env).cameraInfoList s.archive t.archive
      else t.archive = s.archive
  | _ => True

/-- the free space is on the same side of what the thread computed and of the reserve, or there is nothing to remove -/
def SameSide (s : Monitored) : ReserveOp → Prop
  | .round free => ∀ minFreeSize ∈ s.minFreeSize,
      (free.any (· ≤ minFreeSize) = free.any (· ≤ s.reserve)) ∨
        ∀ c ∈ s.reg.cameraInfoList, s.archive.tables (cameraName c.id) = []
  | _ => True

instance (s : Monitored) : ∀ op, Decidable (SameSide s op)
  | .round free => inferInstanceAs (Decidable (∀ minFreeSize ∈ s.minFreeSize,
      (free.any (· ≤ minFreeSize) = free.any (· ≤ s.reserve)) ∨
        ∀ c ∈ s.reg.cameraInfoList, s.archive.tables (cameraName c.id) = []))
  | .add _ _ | .delete _ _ | .recorded _ _ | .startMonitor => .isTrue trivial

/-! ## Every camera is listed once -/

structure ListedOnce (s : Registries) : Prop where
  once : (s.cameraInfoList.map CameraInfo.id).Nodup
  backed : ∀ c ∈ s.cameraInfoList, s.bakScheduleList c.id ≠ none

namespace ListedOnce

variable {env : Env} {f : Faults} {s t : Registries}

theorem of_coherent (h : Coherent env s) : ListedOnce s where
  once := h.list_once
  backed c hc := by
    obtain ⟨w, -, hw⟩ := h.backup.present c.key (List.mem_map_of_mem hc)
    intro hnone
    cases hnone.symm.trans hw

theorem register (h : ListedOnce s) {r : AddRequest} {err : Option String}
    (ht : s.register env f r = some (t, err)) : ListedOnce t := by
  rcases register_cases env f s r with ⟨-, hs⟩ | ⟨rows, -, hend⟩
  · obtain ⟨rfl, -⟩ := Prod.mk.inj (Option.some.inj (hs.symm.trans ht))
    exact h
  rw [ht] at hend
  cases hend with
  | refused => exact ⟨h.once, h.backed⟩
  | halfBuilt => exact ⟨h.once, h.backed⟩
  | granted hnew _ hgranted =>
    -- the id is not in bakScheduleList, so it is not in cameraInfoList
    have hbak : s.bakScheduleList r.devId = none := not_not.1 fun hb => hnew (.inl hb)
    have hfresh : ∀ c ∈ s.cameraInfoList, c.id ≠ r.devId := fun c hc he => h.backed c hc (he ▸ hbak)
    refine ⟨?_, fun c hc => ?_⟩
    · rw [hgranted.list, List.map_append]
      refine List.nodup_append.2 ⟨h.once, List.nodup_singleton _, fun i hi j hj => ?_⟩
      obtain ⟨c, hc, rfl⟩ := List.mem_map.1 hi
      rw [List.mem_singleton.1 hj]
      exact hfresh c hc
    · rw [hgranted.list] at hc
      rw [hgranted.backup]
      rcases List.mem_append.1 hc with hc | hc
      · rw [Function.update_of_ne (hfresh c hc)]
        exact h.backed c hc
      · rw [List.mem_singleton.1 hc]
        simp [AddRequest.info]

theorem unregister (h : ListedOnce s) {id : Str} {err : Option String} (ht : s.unregister env f id = some (t, err)) :
    ListedOnce t := by
  rcases unregister_cases ht with rfl | ⟨rows, -, hdrop⟩
  · exact h
  · refine ⟨?_, fun c hc => ?_⟩
    · rw [hdrop.list]
      exact h.once.sublist (List.eraseP_sublist.map _)
    · rw [hdrop.list, deleteCameraInfoInList, eraseP_eq_filter h.once, List.mem_filter] at hc
      have hne : c.id ≠ id := by simpa using hc.2
      rw [hdrop.backup, Function.update_of_ne hne]
      exact h.backed c hc.1

end ListedOnce

theorem Monitored.step_listedOnce {env : Env} {s t : Monitored} {op : ReserveOp} (h : ListedOnce s.reg)
    (ht : s.step env op = some t) : ListedOnce t.reg := by
  cases op with
  | add info f =>
    obtain ⟨⟨reg, response⟩, hr, rfl⟩ := Option.map_eq_some_iff.1 ht
    rcases addRecodeDevice_cases hr with rfl | ⟨r, err, -, hreg⟩
    · exact h
    · exact h.register hreg
  | delete info f =>
    obtain ⟨⟨reg, response⟩, hr, rfl⟩ := Option.map_eq_some_iff.1 ht
    rcases deleteRecodeDevice_cases hr with rfl | ⟨id, err, -, hreg⟩
    · exact h
    · exact h.unregister hreg
  | recorded id r =>
    simp only [Monitored.step] at ht
    obtain ⟨a, -, rfl⟩ := Option.map_eq_some_iff.1 ht
    exact h
  | startMonitor =>
    simp only [Monitored.step] at ht
    split at ht
    · exact Option.some.inj ht ▸ h
    · cases ht
  | round free =>
    obtain ⟨m, -, rfl⟩ := Option.map_eq_some_iff.1 ht
    split_ifs
    · exact h
    · exact h

/-! ## Rounds -/

theorem toNat_ofNat (b : UInt8) : (Char.ofNat b.toNat).toNat = b.toNat := by
  have hb := b.toNat_lt
  have hvalid : b.toNat.isValidChar := .inl (by omega)
  rw [Char.ofNat, dif_pos hvalid]
  rfl

theorem cameraName_injective : Function.Injective cameraName := by
  intro a b hab
  refine List.map_injective_iff.2 (fun x y hxy => ?_) (String.ofList_injective hab)
  have hnat := congrArg Char.toNat hxy
  rw [toNat_ofNat, toNat_ofNat] at hnat
  exact UInt8.toNat_inj.1 hnat

theorem ListedOnce.site_nodup {s : Monitored} (env : Env) (h : ListedOnce s.reg) :
    (s.site env).cameraInfoList.Nodup := by
  have hnames := h.once.map cameraName_injective
  rwa [List.map_map] at hnames

/-- a round does what the cameras ask for exactly if it decides as they do -/
theorem followsCameras_iff {env : Env} {s : Monitored} {op : ReserveOp} (h : ListedOnce s.reg) :
    FollowsCameras env s op ↔ SameSide s op := by
  cases op with
  | add info f => exact Iff.rfl
  | delete info f => exact Iff.rfl
  | recorded id r => exact Iff.rfl
  | startMonitor => exact Iff.rfl
  | round free =>
    have hnodup := h.site_nodup env
    have hempty : (∀ id ∈ (s.site env).cameraInfoList, s.archive.tables id = []) ↔
        ∀ c ∈ s.reg.cameraInfoList, s.archive.tables (cameraName c.id) = [] := by simp [Monitored.site]
    cases hm : s.minFreeSize with
    | none => simp [FollowsCameras, SameSide, Monitored.step, hm]
    | some m =>
      simp only [FollowsCameras, SameSide, Monitored.step, hm, Option.map_some, Option.some.injEq, forall_eq',
        Option.mem_def]
      -- the cases are what the thread decides and what the cameras ask for
      cases free.any (· ≤ m) with
      | true =>
        cases free.any (· ≤ s.reserve) with
        | true => exact iff_of_true (cleanCameras_removes hnodup) (.inl rfl)
        | false => simpa [hempty] using cleanRound_eq_self_iff (s := s.archive) hnodup
      | false =>
        cases free.any (· ≤ s.reserve) with
        | true =>
          rw [hempty.symm]
          simpa using removesOldest_self_iff
        | false => exact iff_of_true rfl (.inl rfl)

/-- **The reserve follows the cameras** in exactly the runs in which, at every round, the free space is on the same side
of the number computed when the thread started and of the reserve for the cameras registered at that round. -/
theorem reserve_iff {env : Env} {rows : List CameraInfo} {reg : Registries} (hload : load env rows = some reg)
    (archive : Archive) (ops : List ReserveOp) :
    Steps (Monitored.step env) (FollowsCameras env) (.start reg archive) ops ↔
      Steps (Monitored.step env) SameSide (.start reg archive) ops := by
  have hrounds (s : Monitored) (op : ReserveOp) (h : ListedOnce s.reg) : FollowsCameras env s op ↔ SameSide s op :=
    followsCameras_iff h
  exact steps_iff hrounds (fun s op t h _ ht => Monitored.step_listedOnce h ht) (.of_coherent (load_coherent hload))

/-! ## A service started with a camera and without one -/

/-- a recording of the camera of `plainText` -/
def gateRecorded : ReserveOp := .recorded "1-1" ⟨0, "20240101100000".toList, .planned, [1, 2, 3]⟩

def emptyArchive : Archive := .start (fun _ => []) fun _ => none

def lowRun : List ReserveOp := [.startMonitor, gateRecorded, .round (some 1)]

/-- started with one camera: the round takes its recording -/
theorem reserve_of_camera : ∃ reg, load gateEnv [gateRow] = some reg ∧
    (run (Monitored.step gateEnv) (.start reg emptyArchive) lowRun).map (fun t => (t.archive.tables "1-1").length) =
      some 0 ∧
    Steps (Monitored.step gateEnv) (FollowsCameras gateEnv) (.start reg emptyArchive) lowRun := by
  have hrun : ((load gateEnv [gateRow]).map fun reg =>
      ((run (Monitored.step gateEnv) (.start reg emptyArchive) lowRun).map fun t =>
        (t.archive.tables "1-1").length,
      decide (Steps (Monitored.step gateEnv) SameSide (.start reg emptyArchive) lowRun))) = some (some 0, true) := by
    decide +kernel
  obtain ⟨reg, hload, hout⟩ := Option.map_eq_some_iff.1 hrun
  obtain ⟨hlen, hsides⟩ := Prod.mk.inj hout
  exact ⟨reg, hload, hlen, (reserve_iff hload emptyArchive lowRun).2 (of_decide_eq_true hsides)⟩

/-- started with none: the camera is added later, and a round that reads one free byte takes nothing -/
theorem reserve_of_no_camera : load gateEnv [] = some noCameras ∧ ∃ s t,
    run (Monitored.step gateEnv) (.start noCameras emptyArchive)
      [.startMonitor, .add (post plainText) .none, gateRecorded] = some s ∧
    s.reserve = 2 * storeBufMaxSize ∧ (s.archive.tables "1-1").length = 1 ∧
    s.step gateEnv (.round (some 1)) = some t ∧ t.archive = s.archive ∧
    ¬ FollowsCameras gateEnv s (.round (some 1)) := by
  have hrun : (run (Monitored.step gateEnv) (.start noCameras emptyArchive)
      [.startMonitor, .add (post plainText) .none, gateRecorded]).map (fun s =>
        (s.minFreeSize, s.reg.cameraInfoList.map (cameraName ·.id), (s.archive.tables "1-1").length)) =
      some (some 0, ["1-1"], 1) := by decide +kernel
  obtain ⟨s, hs, hout⟩ := Option.map_eq_some_iff.1 hrun
  obtain ⟨hmin, hids, hlen⟩ : s.minFreeSize = some 0 ∧ s.reg.cameraInfoList.map (cameraName ·.id) = ["1-1"] ∧
      (s.archive.tables "1-1").length = 1 := by simpa using hout
  have hreserve : s.reserve = 2 * storeBufMaxSize := by
    have hone : s.reg.cameraInfoList.length = 1 := by simpa using congrArg List.length hids
    rw [Monitored.reserve, hone, mul_one]
  have hstep : s.step gateEnv (.round (some 1)) = some s := by simp [Monitored.step, hmin]
  refine ⟨rfl, s, s, hs, hreserve, hlen, hstep, rfl, fun hfollows => ?_⟩
  have hlow : (some 1).any (· ≤ s.reserve) = true := by simp [hreserve, storeBufMaxSize]
  have hremoves := hfollows s hstep
  rw [if_pos hlow, removesOldest_self_iff] at hremoves
  have hnil := hremoves "1-1" (by simp [Monitored.site, hids])
  simp [hnil] at hlen

end StoreService.Http
