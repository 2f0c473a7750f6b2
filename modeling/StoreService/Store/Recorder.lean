/-
The recorder of one camera with its directory (`WriteFrameToBuf`, `WriteToFileProc`, `RemoveStoreDevice`, store.cpp).

The machine is a planned device, the thread of the stream and the writer. The thread appends frames, rotates, moves
tails, stops (flag 1: waits for the slot, seals, waits again, rewinds) and removes the device (the same without a seal).
The writer opens the file that the start second of the buffer in the slot names, without O_TRUNC, and copies the buffer
into it block by block; when `open` or `write` fails it drops the buffer. Steps of the two threads interleave freely.
Nobody else writes to the directory or deletes from it, and a `write` that succeeds takes its whole block.

- `RecordingOk`: the runs that lose nothing (`Lossless`).
- `DiskInv.step`: along such a run the files that were closed have different names and hold what was copied to them.
-/
import StoreService.Store.Catalogue
import StoreService.Store.Split

namespace StoreService.Store

open StoreService.ByteMem StoreService.KeyFrame StoreService.Runs StoreService.FileSys

/-! ## The machine -/

inductive Phase where
  /-- the thread of the stream can make calls -/
  | recording
  /-- a call with flag 1 waits for the writer -/
  | stopping
  /-- `RemoveStoreDevice` waits for the writer -/
  | removing
  /-- the device is erased -/
  | removed
deriving DecidableEq, Repr

structure Recorder where
  sys : Sys
  phase : Phase
  /-- `file_path` of the writer -/
  filePath : List (List Char)
  disk : Files
  /-- the files written so far, in the order in which they were closed -/
  closed : List (List (List Char))

inductive RecordOp where
  /-- a call with flag 0, or a step of the writer -/
  | act (a : Act)
  /-- the writer comes to the device, and `open` fails -/
  | openFails
  /-- a `write` fails -/
  | writeFails
  /-- a call with flag 1, up to its second wait -/
  | stop (c : Call)
  /-- `RemoveStoreDevice`, up to its second wait -/
  | remove
  /-- the second wait is over -/
  | resume

/-- the buffer in the slot is handed over -/
def Sys.flush (s : Sys) (d : StoreDevice) : Sys :=
  { s with dev := d, sealedImages := s.sealedImages ++ d.written.map fun m => slice m 0 storeBufMaxSize }

/-- the file of a buffer: its name is the local time of the second in which the buffer was started -/
def StoreDevice.bufPath (localtime : ℕ → Tm) (d : StoreDevice) (i : BufId) : List (List Char) :=
  resolve (d.filePath (fileName (localtime (d.buf i).storeStartTime)))

/-- the device has become `t`; a step of the writer has opened a file, written a block to it or closed it -/
def Recorder.onDisk (cfg : Config) (s : Recorder) (t : Sys) : Act → Recorder
  | .call _ => { s with sys := t }
  | .scan =>
    match t.writer, s.sys.dev.pStoreBufWr with
    | some _, some i =>
      let path := s.sys.dev.bufPath cfg.localtime i
      { s with sys := t, filePath := path, disk := create s.disk path }
    | _, _ => { s with sys := t }
  | .block =>
    match s.sys.writer, s.sys.dev.pStoreBufWr with
    | some out, some i =>
      let block := slice (s.sys.dev.buf i).storeBuf out.length writeFileBlockSize
      { s with sys := t, disk := write s.disk s.filePath out.length block }
    | _, _ => { s with sys := t }
  | .finish => { s with sys := t, closed := s.closed ++ [s.filePath] }

def Recorder.step (cfg : Config) (s : Recorder) : RecordOp → Option Recorder
  | .act a =>
    if s.phase ≠ .removed ∧ (a.isWriter = false → s.phase = .recording) then
      (s.sys.step cfg.noRet a).map fun t => s.onDisk cfg t a
    else none
  | .openFails =>
    match s.sys.writer, s.sys.dev.pStoreBufWr with
    | none, some i =>
      if Camera.Accepted (s.sys.dev.buf i) then
        some { s with sys := { s.sys with dev := { s.sys.dev with pStoreBufWr := none } } }
      else none
    | _, _ => none
  | .writeFails =>
    match s.sys.writer with
    | some _ =>
      some { s with
        sys := { s.sys with writer := none, dev := { s.sys.dev with pStoreBufWr := none } }
        closed := s.closed ++ [s.filePath] }
    | none => none
  | .stop c =>
    if s.phase = .recording ∧ c.flag = true ∧ s.sys.dev.pStoreBufWr = none then
      (s.sys.dev.stopSeal c).map fun d => { s with sys := s.sys.flush d, phase := .stopping }
    else none
  | .remove =>
    if s.phase = .recording ∧ s.sys.dev.pStoreBufWr = none then
      some { s with
        sys := s.sys.flush { s.sys.dev with pStoreBufWr := some s.sys.dev.pCurStoreBuf }
        phase := .removing }
    else none
  | .resume =>
    if s.sys.dev.pStoreBufWr = none then
      match s.phase with
      | .stopping => some { s with sys := { s.sys with dev := s.sys.dev.stopReset }, phase := .recording }
      | .removing => some { s with phase := .removed }
      | _ => none
    else none

def Recorder.init (cfg : Config) (ping pong : Mem) (pongStart : ℕ) (disk : Files) : Recorder :=
  ⟨Sys.init (addStoreDevice (cfg.storePath ++ cfg.cameraId) .planned ping pong pongStart), .recording, [], disk, []⟩

/-- what an operation adds to the log: a call with flag 0 its frame, with the time of its record. A stop adds nothing:
the source jumps over the store of a frame that does not fit. -/
def RecordOp.recorded : RecordOp → List (List UInt8 × ℕ)
  | .act (.call c) => [(slice c.frame.data 0 c.frame.size, c.ms % 2 ^ 64)]
  | _ => []

/-- the file that the writer opens next is none of this recording, and no older one that is longer than a buffer -/
def NewFile (cfg : Config) (s : Recorder) : Prop :=
  s.sys.writer = none → ∀ i, s.sys.dev.pStoreBufWr = some i → Camera.Accepted (s.sys.dev.buf i) →
    s.sys.dev.bufPath cfg.localtime i ∉ s.closed ∧
      ∀ old, s.disk (s.sys.dev.bufPath cfg.localtime i) = some old → old.length ≤ storeBufMaxSize

instance (cfg : Config) (s : Recorder) : Decidable (NewFile cfg s) :=
  decidable_of_iff (s.sys.writer = none → ∀ i ∈ s.sys.dev.pStoreBufWr, Camera.Accepted (s.sys.dev.buf i) →
    s.sys.dev.bufPath cfg.localtime i ∉ s.closed ∧
      ∀ old ∈ s.disk (s.sys.dev.bufPath cfg.localtime i), old.length ≤ storeBufMaxSize) Iff.rfl

/-- the operation is made in its phase and a wait is over; frames meet `StreamOk`, rotations find the slot empty, a stop
comes with a frame that does not fit, a removal finds no old record, files get new names, and the disk takes them -/
def RecordingOk (cfg : Config) (s : Recorder) : RecordOp → Prop
  | .act (.call c) => s.phase = .recording ∧ StreamOk cfg.noRet s.sys.dev c ∧
      (s.sys.dev.Full c → s.sys.dev.pStoreBufWr = none)
  | .act a => s.phase ≠ .removed ∧ (∃ t, s.sys.step cfg.noRet a = some t) ∧ (a = .scan → NewFile cfg s)
  | .openFails | .writeFails => False
  | .stop c => s.phase = .recording ∧ c.flag = true ∧ s.sys.dev.pStoreBufWr = none ∧
      c.frame.size + 2 * sizeofStoreInfo ≤ storeBufMaxSize ∧ s.sys.dev.Full c
  | .remove => s.phase = .recording ∧ s.sys.dev.pStoreBufWr = none ∧ ¬ StaleSlot s.sys.dev
  | .resume => (s.phase = .stopping ∨ s.phase = .removing) ∧ s.sys.dev.pStoreBufWr = none

/-! ## The disk -/

/-- the closed files have different names and hold what was copied; the file that is open holds what was copied so far,
over an older file that is not longer than a buffer -/
structure DiskInv (s : Recorder) : Prop where
  closed : List.Forall₂ (fun path image => s.disk path = some image) s.closed s.sys.files
  distinct : s.closed.Nodup
  opened : ∀ out, s.sys.writer = some out → s.filePath ∉ s.closed ∧
    ∃ old, old.length ≤ storeBufMaxSize ∧ s.disk s.filePath = some (overlay old out)

@[simp] theorem Recorder.onDisk_sys (cfg : Config) (s : Recorder) (t : Sys) (a : Act) : (s.onDisk cfg t a).sys = t := by
  cases a <;> simp only [Recorder.onDisk] <;> split <;> rfl

@[simp] theorem Recorder.onDisk_phase (cfg : Config) (s : Recorder) (t : Sys) (a : Act) :
    (s.onDisk cfg t a).phase = s.phase := by
  cases a <;> simp only [Recorder.onDisk] <;> split <;> rfl

namespace DiskInv

variable {cfg : Config} {s : Recorder} {t : Sys}

/-- a step that leaves the disk alone -/
theorem congr {r : Recorder} (h : DiskInv s) (hfiles : r.sys.files = s.sys.files)
    (hwriter : r.sys.writer = s.sys.writer) (hpath : r.filePath = s.filePath) (hdisk : r.disk = s.disk)
    (hclosed : r.closed = s.closed) : DiskInv r := by
  refine ⟨?_, ?_, ?_⟩
  · rw [hclosed, hfiles, hdisk]
    exact h.closed
  · rw [hclosed]
    exact h.distinct
  · rw [hwriter, hpath, hclosed, hdisk]
    exact h.opened

/-- a file that is not a closed one changes -/
theorem update (h : DiskInv s) {path : List (List Char)} (hnew : path ∉ s.closed) (file : Option (List UInt8)) :
    List.Forall₂ (fun p image => Function.update s.disk path file p = some image) s.closed s.sys.files := by
  refine List.forall₂_iff_get.2 ⟨h.closed.length_eq, fun k hk hk' => ?_⟩
  have hne : s.closed.get ⟨k, hk⟩ ≠ path := by
    intro heq
    exact hnew (heq ▸ List.get_mem _ _)
  rw [Function.update_of_ne hne]
  exact h.closed.get hk hk'

theorem scan (h : DiskInv s) (hnew : NewFile cfg s) (ht : s.sys.scan = some t) : DiskInv (s.onDisk cfg t .scan) := by
  obtain ⟨hw, ⟨-, rfl⟩ | ⟨i, hi, ⟨-, rfl⟩ | ⟨hhead, rfl⟩⟩⟩ := Sys.scan_cases ht
  · simp only [Recorder.onDisk, hw]
    exact h
  · simp only [Recorder.onDisk, hw]
    exact h.congr rfl hw.symm rfl rfl rfl
  · obtain ⟨hfresh, hold⟩ := hnew hw i hi hhead
    simp only [Recorder.onDisk, hi]
    refine ⟨h.update hfresh _, h.distinct, fun out hout => ⟨hfresh, ?_⟩⟩
    cases hout
    refine ⟨(s.disk (s.sys.dev.bufPath cfg.localtime i)).getD [], ?_, ?_⟩
    · cases hf : s.disk (s.sys.dev.bufPath cfg.localtime i) with
      | none => exact Nat.zero_le _
      | some old => exact hold old hf
    · exact Function.update_self _ _ _

theorem block (h : DiskInv s) (ht : s.sys.block = some t) : DiskInv (s.onDisk cfg t .block) := by
  obtain ⟨out, i, hw, hi, -, rfl⟩ := Sys.block_cases ht
  obtain ⟨hfresh, old, hle, hfile⟩ := h.opened out hw
  simp only [Recorder.onDisk, hw, hi]
  refine ⟨h.update hfresh _, h.distinct, fun out' hout => ⟨hfresh, old, hle, ?_⟩⟩
  cases hout
  exact write_overlay hfile

/-- a file that is closed is complete, and nothing of an older one is left -/
theorem finish (h : DiskInv s) (ht : s.sys.finish = some t) : DiskInv (s.onDisk cfg t .finish) := by
  obtain ⟨out, hw, hfull, rfl⟩ := Sys.finish_cases ht
  obtain ⟨hfresh, old, hle, hfile⟩ := h.opened out hw
  rw [overlay_of_le (hle.trans hfull)] at hfile
  refine ⟨List.rel_append h.closed (List.Forall₂.cons hfile List.Forall₂.nil), ?_, fun out' hout => ?_⟩
  · refine List.nodup_append.2 ⟨h.distinct, List.nodup_singleton _, fun a ha b hb => ?_⟩
    rw [List.mem_singleton.1 hb]
    exact fun heq => hfresh (heq ▸ ha)
  · cases hout

theorem step {r : Recorder} {op : RecordOp} (h : DiskInv s) (hok : RecordingOk cfg s op)
    (hr : s.step cfg op = some r) : DiskInv r := by
  cases op with
  | act a =>
    obtain ⟨-, hmap⟩ := Option.ite_none_right_eq_some.1 hr
    obtain ⟨u, hu, rfl⟩ := Option.map_eq_some_iff.1 hmap
    cases a with
    | call c =>
      obtain ⟨-, hcall⟩ := Option.ite_none_left_eq_some.1 hu
      obtain ⟨d, -, rfl⟩ := Option.map_eq_some_iff.1 hcall
      exact h.congr rfl rfl rfl rfl rfl
    | scan => exact h.scan (hok.2.2 rfl) hu
    | block => exact h.block hu
    | finish => exact h.finish hu
  | openFails => exact hok.elim
  | writeFails => exact hok.elim
  | stop c =>
    obtain ⟨-, hmap⟩ := Option.ite_none_right_eq_some.1 hr
    obtain ⟨d, -, rfl⟩ := Option.map_eq_some_iff.1 hmap
    exact h.congr rfl rfl rfl rfl rfl
  | remove =>
    obtain ⟨-, hsome⟩ := Option.ite_none_right_eq_some.1 hr
    cases hsome
    exact h.congr rfl rfl rfl rfl rfl
  | resume =>
    obtain ⟨-, hmatch⟩ := Option.ite_none_right_eq_some.1 hr
    split at hmatch <;> cases hmatch
    · exact h.congr rfl rfl rfl rfl rfl
    · exact h.congr rfl rfl rfl rfl rfl

end DiskInv

/-- behind a step of the writer a file is open or the slot is empty: it is about to open none -/
theorem newFile_writer {cfg : Config} {s : Recorder} {t : Sys} {a : Act} (ha : a.isWriter = true)
    (ht : s.sys.step cfg.noRet a = some t) : NewFile cfg (s.onDisk cfg t a) := by
  intro hw i hi
  rw [Recorder.onDisk_sys] at hw hi
  cases a with
  | call c => cases ha
  | scan =>
    obtain ⟨-, ⟨hnone, rfl⟩ | ⟨j, -, ⟨-, rfl⟩ | ⟨-, rfl⟩⟩⟩ := Sys.scan_cases ht
    · cases hnone.symm.trans hi
    · cases hi
    · cases hw
  | block =>
    obtain ⟨out, j, -, -, -, rfl⟩ := Sys.block_cases ht
    cases hw
  | finish =>
    obtain ⟨out, -, -, rfl⟩ := Sys.finish_cases ht
    cases hi

end StoreService.Store
