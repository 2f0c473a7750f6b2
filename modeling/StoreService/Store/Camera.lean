/-
One camera: its three recordings, the writer thread, its table and its directory
(`store.cpp`, `StoreFileInfo` in `main.cpp`, `monitor.cpp`, `InsertInfoToTable` and `DeleteInfoInTable` in `mysql.cpp`).

A camera has up to three store devices (planned, manual, alarm), each with its own pair of buffers. All of them are
flushed by one writer thread into one directory, STORE_PATH/id, and one table. The name of a file is the local time of
the second in which its buffer was started, and the row holds that second and the name.

Steps (`Op`): time passes; a device is created; a frame is stored; a stop call appends its frame and hands its buffer to
the writer; the stop call returns, when the slot is empty again; the writer comes to a device; the monitor cleans up.
`localtime` is a parameter. Disk and database calls succeed; rows come back in insertion order, and DELETE ... LIMIT 1
takes the first match. What the writer copies is the buffer as it stands when it gets there (`HandOff` has the blocks).
-/
import StoreService.Core.FileSys
import StoreService.Store.HandOff

namespace StoreService.Store

open StoreService.ByteMem StoreService.KeyFrame StoreService.Runs StoreService.FileSys

/-- the fields of `struct tm` that a file name uses -/
structure Tm where
  tmYear : ℕ
  tmMon : ℕ
  tmMday : ℕ
  tmHour : ℕ
  tmMin : ℕ
  tmSec : ℕ
deriving DecidableEq, Repr

/-- `%d` with a width and a fill character -/
def decimal (fill : Char) (width n : ℕ) : List Char :=
  List.replicate (width - (Nat.toDigits 10 n).length) fill ++ Nat.toDigits 10 n

/-- `"%4d-%02d-%02d %02d:%02d:%02d.store"` -/
def fileName (t : Tm) : List Char :=
  decimal ' ' 4 (t.tmYear + 1900) ++ '-' :: decimal '0' 2 (t.tmMon + 1) ++ '-' :: decimal '0' 2 t.tmMday ++
    ' ' :: decimal '0' 2 t.tmHour ++ ':' :: decimal '0' 2 t.tmMin ++ ':' :: decimal '0' 2 t.tmSec ++ ".store".toList

/-- `snprintf(file_path, 128, "%s/%s", ...)`: cut after 127 characters -/
def StoreDevice.filePath (d : StoreDevice) (name : List Char) : List Char :=
  (d.storePath.toList ++ '/' :: name).take 127

/-- a row of the camera's table -/
structure Row where
  startTimeMs : ℕ
  fileName : List Char
  fileType : RecodeType
  /-- ghost: the buffer the row was inserted for -/
  image : List UInt8

/-- `ORDER BY file_name ASC LIMIT 1` -/
def firstName : List Row → Option (List Char)
  | [] => none
  | r :: rows =>
    match firstName rows with
    | none => some r.fileName
    | some n => if n < r.fileName then some n else some r.fileName

theorem firstName_mem {rows : List Row} {n : List Char} (h : firstName rows = some n) : ∃ r ∈ rows, r.fileName = n := by
  induction rows generalizing n with
  | nil => cases h
  | cons r rows ih =>
    rw [firstName] at h
    cases hf : firstName rows with
    | none =>
      simp only [hf, Option.some.injEq] at h
      exact ⟨r, List.mem_cons_self, h⟩
    | some m =>
      obtain ⟨q, hq, hn⟩ := ih hf
      simp only [hf] at h
      split_ifs at h
      · exact ⟨q, List.mem_cons_of_mem _ hq, hn.trans (Option.some.inj h)⟩
      · exact ⟨r, List.mem_cons_self, Option.some.inj h⟩

theorem firstName_none {rows : List Row} (h : firstName rows = none) : rows = [] := by
  cases rows with
  | nil => rfl
  | cons r rows =>
    rw [firstName] at h
    cases hf : firstName rows with
    | none => simp [hf] at h
    | some m =>
      simp only [hf] at h
      split_ifs at h

theorem firstName_le {rows : List Row} {n : List Char} (h : firstName rows = some n) :
    ∀ r ∈ rows, ¬ r.fileName < n := by
  induction rows generalizing n with
  | nil => nofun
  | cons r rows ih =>
    rw [firstName] at h
    intro q hq
    cases hf : firstName rows with
    | none =>
      obtain rfl : r.fileName = n := by simpa [hf] using h
      obtain rfl : q = r := by simpa [firstName_none hf] using hq
      exact List.lt_irrefl _
    | some m =>
      simp only [hf] at h
      split_ifs at h with hlt
      · obtain rfl := Option.some.inj h
        rcases List.mem_cons.1 hq with rfl | hq
        · exact List.lt_asymm hlt
        · exact ih hf q hq
      · obtain rfl := Option.some.inj h
        rcases List.mem_cons.1 hq with rfl | hq
        · exact List.lt_irrefl _
        · exact List.not_lt.2 (List.le_trans (List.not_lt.1 hlt) (List.not_lt.1 (ih hf q hq)))

structure Config where
  noRet : ℕ → ℤ
  storePath : String
  cameraId : String
  localtime : ℕ → Tm

structure Camera where
  dev : RecodeType → Option StoreDevice
  /-- a stop call has handed over its buffer and waits for the writer -/
  stopping : RecodeType → Bool
  rows : List Row
  files : Files
  now : ℕ

inductive Op where
  | tick (n : ℕ)
  | add (type : RecodeType) (ping pong : Mem) (pongStart : ℕ)
  | frame (type : RecodeType) (c : Call)
  | stop (type : RecodeType) (c : Call)
  | stopped (type : RecodeType)
  | flush (type : RecodeType)
  | cleanup

namespace Camera

def setDev (s : Camera) (type : RecodeType) (d : StoreDevice) : Camera :=
  { s with dev := Function.update s.dev type (some d) }

/-- `AddStoreDevice` for a planned recording, `AddStoreEvent` for the others -/
def add (cfg : Config) (s : Camera) (type : RecodeType) (ping pong : Mem) (pongStart : ℕ) : Option Camera :=
  match s.dev type with
  | some _ => none
  | none => some (s.setDev type (addStoreDevice (cfg.storePath ++ cfg.cameraId) type ping pong pongStart))

/-- `WriteFrameToBuf` with flag 0 -/
def frame (cfg : Config) (s : Camera) (type : RecodeType) (c : Call) : Option Camera :=
  match s.dev type with
  | some d => if s.stopping type then none else (d.writeFrame cfg.noRet { c with time := s.now }).map (s.setDev type)
  | none => none

/-- `WriteFrameToBuf` with flag 1, from the end of its first wait to the second -/
def stop (s : Camera) (type : RecodeType) (c : Call) : Option Camera :=
  match s.dev type with
  | some d =>
    if s.stopping type ∨ d.pStoreBufWr ≠ none then none
    else (d.stopSeal { c with time := s.now }).map fun d =>
      { s.setDev type d with stopping := Function.update s.stopping type true }
  | none => none

/-- the rest of it: a planned device is rewound, the device of an event is removed (`RemoveStoreEvent`) -/
def stopped (s : Camera) (type : RecodeType) : Option Camera :=
  match s.dev type with
  | some d =>
    if s.stopping type ∧ d.pStoreBufWr = none then
      some { s with
        dev := Function.update s.dev type (if type = .planned then some d.stopReset else none)
        stopping := Function.update s.stopping type false }
    else none
  | none => none

/-- the writer looks for the head of the first record before it takes a buffer -/
def Accepted (b : StoreBuf) : Prop := (readInfo b.storeBuf (b.storeSize - sizeofStoreInfo)).head = storeInfoHead

instance (b : StoreBuf) : Decidable (Accepted b) := by unfold Accepted; infer_instance

/-- the row `StoreFileInfo` inserts for a buffer -/
def newRow (cfg : Config) (d : StoreDevice) (b : StoreBuf) : Row :=
  ⟨b.storeStartTime, fileName (cfg.localtime b.storeStartTime), d.storeType, b.image⟩

/-- a file written and its row inserted -/
def record (s : Camera) (path : List (List Char)) (r : Row) : Camera :=
  { s with files := overwrite s.files path r.image, rows := s.rows ++ [r] }

/-- one pass of `WriteToFileProc` over a device -/
def flush (cfg : Config) (s : Camera) (type : RecodeType) : Option Camera :=
  match s.dev type with
  | none => none
  | some d =>
    match d.pStoreBufWr with
    | none => some s
    | some i =>
      let s' := s.setDev type { d with pStoreBufWr := none }
      if Accepted (d.buf i) then
        some (s'.record (resolve (d.filePath (fileName (cfg.localtime (d.buf i).storeStartTime))))
          (newRow cfg d (d.buf i)))
      else some s'

/-- one round of `MonitorProc` for this camera -/
def cleanup (cfg : Config) (s : Camera) : Camera :=
  match firstName s.rows with
  | none => s
  | some name =>
    { s with
      rows := s.rows.eraseP fun r => r.fileName = name
      files := unlink s.files
        (resolve (cfg.storePath.toList ++ '/' :: cfg.cameraId.toList ++ '/' :: name)) }

def step (cfg : Config) (s : Camera) : Op → Option Camera
  | .tick n => some { s with now := s.now + n }
  | .add type ping pong pongStart => s.add cfg type ping pong pongStart
  | .frame type c => s.frame cfg type c
  | .stop type c => s.stop type c
  | .stopped type => s.stopped type
  | .flush type => s.flush cfg type
  | .cleanup => some (s.cleanup cfg)

/-! ## What a step can do -/

/-- the writer leaves the table alone, or writes the accepted buffer of the slot and inserts its row -/
theorem flush_cases {cfg : Config} {s t : Camera} {type : RecodeType} (h : s.flush cfg type = some t) :
    t = s ∨ ∃ d i, s.dev type = some d ∧ d.pStoreBufWr = some i ∧
      ((¬ Accepted (d.buf i) ∧ t = s.setDev type { d with pStoreBufWr := none }) ∨
        (Accepted (d.buf i) ∧ t = (s.setDev type { d with pStoreBufWr := none }).record
          (resolve (d.filePath (fileName (cfg.localtime (d.buf i).storeStartTime)))) (newRow cfg d (d.buf i)))) := by
  unfold flush at h
  cases hd : s.dev type with
  | none => simp [hd] at h
  | some d =>
    cases hi : d.pStoreBufWr with
    | none =>
      simp only [hd, hi, Option.some.injEq] at h
      exact Or.inl h.symm
    | some i =>
      simp only [hd, hi] at h
      refine Or.inr ⟨d, i, rfl, hi, ?_⟩
      by_cases ha : Accepted (d.buf i)
      · rw [if_pos ha] at h
        exact Or.inr ⟨ha, (Option.some.inj h).symm⟩
      · rw [if_neg ha] at h
        exact Or.inl ⟨ha, (Option.some.inj h).symm⟩

theorem add_cases {cfg : Config} {s t : Camera} {type : RecodeType} {ping pong : Mem} {pongStart : ℕ}
    (h : s.add cfg type ping pong pongStart = some t) :
    t = s.setDev type (addStoreDevice (cfg.storePath ++ cfg.cameraId) type ping pong pongStart) := by
  unfold add at h
  cases hd : s.dev type with
  | some d => simp [hd] at h
  | none =>
    simp only [hd, Option.some.injEq] at h
    exact h.symm

theorem frame_cases {cfg : Config} {s t : Camera} {type : RecodeType} {c : Call} (h : s.frame cfg type c = some t) :
    ∃ d d', s.dev type = some d ∧ s.stopping type = false ∧
      d.writeFrame cfg.noRet { c with time := s.now } = some d' ∧ t = s.setDev type d' := by
  unfold frame at h
  cases hd : s.dev type with
  | none => simp [hd] at h
  | some d =>
    simp only [hd] at h
    obtain ⟨hs, h⟩ := Option.ite_none_left_eq_some.1 h
    obtain ⟨d', hd', rfl⟩ := Option.map_eq_some_iff.1 h
    exact ⟨d, d', rfl, by simpa using hs, hd', rfl⟩

theorem stop_cases {s t : Camera} {type : RecodeType} {c : Call} (h : s.stop type c = some t) :
    ∃ d d', s.dev type = some d ∧ s.stopping type = false ∧ d.pStoreBufWr = none ∧
      d.stopSeal { c with time := s.now } = some d' ∧
      t = { s.setDev type d' with stopping := Function.update s.stopping type true } := by
  unfold stop at h
  cases hd : s.dev type with
  | none => simp [hd] at h
  | some d =>
    simp only [hd] at h
    obtain ⟨hs, h⟩ := Option.ite_none_left_eq_some.1 h
    obtain ⟨d', hd', rfl⟩ := Option.map_eq_some_iff.1 h
    rw [not_or] at hs
    exact ⟨d, d', rfl, by simpa using hs.1, by simpa using hs.2, hd', rfl⟩

theorem stopped_cases {s t : Camera} {type : RecodeType} (h : s.stopped type = some t) :
    ∃ d, s.dev type = some d ∧ s.stopping type = true ∧ d.pStoreBufWr = none ∧
      t = { s with
        dev := Function.update s.dev type (if type = .planned then some d.stopReset else none)
        stopping := Function.update s.stopping type false } := by
  unfold stopped at h
  cases hd : s.dev type with
  | none => simp [hd] at h
  | some d =>
    simp only [hd] at h
    obtain ⟨hs, h⟩ := Option.ite_none_right_eq_some.1 h
    exact ⟨d, rfl, hs.1, hs.2, (Option.some.inj h).symm⟩

/-- the monitor leaves the table alone, or deletes the first row of a name that is in it -/
theorem cleanup_cases (cfg : Config) (s : Camera) :
    (s.rows = [] ∧ s.cleanup cfg = s) ∨ ∃ r ∈ s.rows,
      s.cleanup cfg = { s with
        rows := s.rows.eraseP fun q => q.fileName = r.fileName
        files := unlink s.files
          (resolve (cfg.storePath.toList ++ '/' :: cfg.cameraId.toList ++ '/' :: r.fileName)) } := by
  cases hf : firstName s.rows with
  | none => exact Or.inl ⟨firstName_none hf, by simp only [cleanup, hf]⟩
  | some n =>
    obtain ⟨r, hr, rfl⟩ := firstName_mem hf
    exact Or.inr ⟨r, hr, by simp only [cleanup, hf]⟩

/-- no device, an empty table and an empty disk -/
def init (now : ℕ) : Camera := ⟨fun _ => none, fun _ => false, [], fun _ => none, now⟩

end Camera

end StoreService.Store
