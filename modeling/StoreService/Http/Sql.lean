/-
The commands the service sends to the database, and what they do to the table `camera_info` (mysql.cpp).

Each function prints its values with snprintf into a buffer on the stack, between quotes and as they are, and sends what
is in the buffer. Nothing is escaped, nothing is refused, and a text that does not fit is cut.

Model: a value is a C string; `queryCmd` is the text sent, `shape` the statement it is meant to be. How MySQL reads a
text is `Quoting.lex`, for its default mode. What the four statements do to the rows is `Database.run`; a text that is
read as any other statement does whatever it does (`Database.other`). The table was created with CHARSET=utf8 and no
more, so which ids are equal is up to its collation (`Database.same`: 'A' and 'a' are, for the default one), and its
columns have a length and a character set (`Database.keeps`).

- `exec_of_carried`: a command whose statement fits into the buffer and whose values are plain does what its statement
  says.
- `exec_insert`, `exec_delete`, `exec_setRec`, `exec_setBak`: the four commands, for values that the columns keep.
-/
import Mathlib.Data.List.TakeWhile
import StoreService.Core.Quoting
import StoreService.Common.Json

namespace StoreService.Http

open StoreService.Json StoreService.Quoting

/-! ## The source -/

/-- a format with %s only -/
def format : Str → List Str → Str
  | 37 :: 115 :: f, arg :: args => arg ++ format f args
  | c :: f, args => c :: format f args
  | [], _ => []

def snprintf (size : ℕ) (fmt : String) (args : List Str) : Str := (format (bytes fmt) args).take (size - 1)

/-- the text of `InsertCameraInfoToTable` -/
def insertCameraInfoCmd (cameraId name recSchedule bakSchedule : CStr) : Str :=
  snprintf 2048 "INSERT INTO `camera_info` (`%s`, `%s`, `%s`, `%s`) VALUES ('%s', '%s', '%s', '%s')"
    [bytes "id", bytes "name", bytes "recSchedule", bytes "bakSchedule", cameraId.text, name.text, recSchedule.text,
      bakSchedule.text]

def updateFile (column : String) (cameraId name value : CStr) : Str :=
  snprintf 256 "UPDATE `%s` SET `%s`='%s' WHERE `%s`='%s' LIMIT 1"
    [cameraId.text, bytes column, value.text, bytes "name", name.text]

/-- `UpdateStatusToTable` -/
def updateStatusToTable (cameraId name status : CStr) : Str := updateFile "status" cameraId name status

/-- `UpdateBackupToTable` -/
def updateBackupToTable (cameraId name backup : CStr) : Str := updateFile "backup" cameraId name backup

def updateCamera (column : String) (cameraId schedule : CStr) : Str :=
  snprintf 2048 "UPDATE `camera_info` SET `%s`='%s' WHERE `%s`='%s'"
    [bytes column, schedule.text, bytes "id", cameraId.text]

/-- the text of `UpdateRecScheduleToCameraTable` -/
def updateRecScheduleCmd (cameraId recSchedule : CStr) : Str := updateCamera "recSchedule" cameraId recSchedule

/-- the text of `UpdateBakScheduleToCameraTable` -/
def updateBakScheduleCmd (cameraId bakSchedule : CStr) : Str := updateCamera "bakSchedule" cameraId bakSchedule

/-- the text of `DeleteCameraInfoInTable` -/
def deleteCameraInfoCmd (cameraId : CStr) : Str :=
  snprintf 256 "DELETE FROM `camera_info` WHERE `%s`='%s' LIMIT 1" [bytes "id", cameraId.text]

/-- `DeleteInfoInTable` -/
def deleteInfoInTable (cameraId name : CStr) : Str :=
  snprintf 256 "DELETE FROM `%s` WHERE `%s`=\"%s\" LIMIT 1" [cameraId.text, bytes "name", name.text]

/-! ## What the commands are meant to be -/

/-- a call, with its values -/
inductive Command where
  | insertCameraInfo (cameraId name recSchedule bakSchedule : CStr)
  | updateStatus (cameraId name status : CStr)
  | updateBackup (cameraId name backup : CStr)
  | updateRecSchedule (cameraId recSchedule : CStr)
  | updateBakSchedule (cameraId bakSchedule : CStr)
  | deleteCameraInfo (cameraId : CStr)
  | deleteInfo (cameraId name : CStr)

def keyword (w : String) : Piece := .word (bytes w)

/-- a name in backticks -/
def ident (v : Str) : Piece := .value .backtick v

def literal (v : Str) : Piece := .value .single v

/-- column = value -/
def equals (column : String) (v : Piece) : List Piece := [ident (bytes column), .sym 61, v]

/-- pieces with commas between them -/
def commas : List Piece → List Piece
  | [] => []
  | [p] => [p]
  | p :: ps => p :: .sym 44 :: .space :: commas ps

def parens (ps : List Piece) : List Piece := .sym 40 :: commas ps ++ [.sym 41]

def wherePart (column : String) (v : Piece) : List Piece := .space :: keyword "WHERE" :: .space :: equals column v

def limit1 : List Piece := [.space, keyword "LIMIT", .space, keyword "1"]

def updateSet (table : Str) (column : String) (v : Piece) : List Piece :=
  [keyword "UPDATE", .space, ident table, .space, keyword "SET", .space] ++ equals column v

def deleteFrom (table : Str) : List Piece := [keyword "DELETE", .space, keyword "FROM", .space, ident table]

/-- a row of `camera_info`, and an entry of `cameraInfoList` -/
structure CameraInfo where
  id : Str
  name : Str
  recSchedule : Str
  bakSchedule : Str
deriving DecidableEq, Repr

/-- the statements about `camera_info` -/
inductive Statement where
  | insert (row : CameraInfo)
  | setRec (text id : Str)
  | setBak (text id : Str)
  | delete (id : Str)
deriving DecidableEq, Repr

def Statement.pieces : Statement → List Piece
  | insert row =>
    [keyword "INSERT", .space, keyword "INTO", .space, ident (bytes "camera_info"), .space] ++
      parens [ident (bytes "id"), ident (bytes "name"), ident (bytes "recSchedule"), ident (bytes "bakSchedule")] ++
      [.space, keyword "VALUES", .space] ++
      parens [literal row.id, literal row.name, literal row.recSchedule, literal row.bakSchedule]
  | setRec text id => updateSet (bytes "camera_info") "recSchedule" (literal text) ++ wherePart "id" (literal id)
  | setBak text id => updateSet (bytes "camera_info") "bakSchedule" (literal text) ++ wherePart "id" (literal id)
  | delete id => deleteFrom (bytes "camera_info") ++ wherePart "id" (literal id) ++ limit1

namespace Command

/-- the text sent -/
def queryCmd : Command → Str
  | insertCameraInfo cameraId name recSchedule bakSchedule =>
    insertCameraInfoCmd cameraId name recSchedule bakSchedule
  | updateStatus cameraId name status => updateStatusToTable cameraId name status
  | updateBackup cameraId name backup => updateBackupToTable cameraId name backup
  | updateRecSchedule cameraId recSchedule => updateRecScheduleCmd cameraId recSchedule
  | updateBakSchedule cameraId bakSchedule => updateBakScheduleCmd cameraId bakSchedule
  | deleteCameraInfo cameraId => deleteCameraInfoCmd cameraId
  | deleteInfo cameraId name => deleteInfoInTable cameraId name

/-- the size of the buffer -/
def size : Command → ℕ
  | insertCameraInfo .. => 2048
  | updateRecSchedule .. => 2048
  | updateBakSchedule .. => 2048
  | _ => 256

/-- the statement about `camera_info` that it is meant to be -/
def statement : Command → Option Statement
  | insertCameraInfo cameraId name recSchedule bakSchedule =>
    some (.insert ⟨cameraId.text, name.text, recSchedule.text, bakSchedule.text⟩)
  | updateRecSchedule cameraId recSchedule => some (.setRec recSchedule.text cameraId.text)
  | updateBakSchedule cameraId bakSchedule => some (.setBak bakSchedule.text cameraId.text)
  | deleteCameraInfo cameraId => some (.delete cameraId.text)
  | _ => none

/-- the statement it is meant to be -/
def shape : Command → List Piece
  | insertCameraInfo cameraId name recSchedule bakSchedule =>
    (Statement.insert ⟨cameraId.text, name.text, recSchedule.text, bakSchedule.text⟩).pieces
  | updateStatus cameraId name status =>
    updateSet cameraId.text "status" (literal status.text) ++ wherePart "name" (literal name.text) ++ limit1
  | updateBackup cameraId name backup =>
    updateSet cameraId.text "backup" (literal backup.text) ++ wherePart "name" (literal name.text) ++ limit1
  | updateRecSchedule cameraId recSchedule => (Statement.setRec recSchedule.text cameraId.text).pieces
  | updateBakSchedule cameraId bakSchedule => (Statement.setBak bakSchedule.text cameraId.text).pieces
  | deleteCameraInfo cameraId => (Statement.delete cameraId.text).pieces
  | deleteInfo cameraId name =>
    deleteFrom cameraId.text ++ wherePart "name" (.value .double name.text) ++ limit1

/-- the values, with the quotes they are pasted between -/
def values : Command → List (Quote × Str)
  | insertCameraInfo cameraId name recSchedule bakSchedule =>
    [(.single, cameraId.text), (.single, name.text), (.single, recSchedule.text), (.single, bakSchedule.text)]
  | updateStatus cameraId name status => [(.backtick, cameraId.text), (.single, status.text), (.single, name.text)]
  | updateBackup cameraId name backup => [(.backtick, cameraId.text), (.single, backup.text), (.single, name.text)]
  | updateRecSchedule cameraId recSchedule => [(.single, recSchedule.text), (.single, cameraId.text)]
  | updateBakSchedule cameraId bakSchedule => [(.single, bakSchedule.text), (.single, cameraId.text)]
  | deleteCameraInfo cameraId => [(.single, cameraId.text)]
  | deleteInfo cameraId name => [(.backtick, cameraId.text), (.double, name.text)]

end Command

/-! ## What is sent -/

/-- the text sent is the statement, as far as it fits -/
theorem queryCmd_eq (c : Command) : c.queryCmd = (render c.shape).take (c.size - 1) := by
  cases c <;> rfl

theorem shape_wellFormed (c : Command) : wellFormed c.shape := by
  cases c <;> rfl

/-- the names of tables and columns are plain -/
theorem plain_shape (c : Command) : (∀ p ∈ c.shape, p.Plain) ↔ ∀ v ∈ c.values, Plain v.1 v.2 := by
  have hnames : Plain .backtick (bytes "camera_info") ∧ Plain .backtick (bytes "id") ∧ Plain .backtick (bytes "name") ∧
      Plain .backtick (bytes "status") ∧ Plain .backtick (bytes "backup") ∧ Plain .backtick (bytes "recSchedule") ∧
      Plain .backtick (bytes "bakSchedule") := by decide +kernel
  obtain ⟨hcamera, hid, hname, hstatus, hbackup, hrec, hbak⟩ := hnames
  cases c <;>
    simp only [Command.shape, Command.values, Statement.pieces, updateSet, deleteFrom, wherePart, limit1, parens,
      commas, equals, keyword, ident, literal, List.forall_mem_append, List.forall_mem_cons, Piece.Plain, hcamera, hid,
      hname, hstatus, hbackup, hrec, hbak, true_and, and_true, and_assoc, List.not_mem_nil, IsEmpty.forall_iff,
      implies_true]

/-- the whole statement is sent, and every value is read as it is -/
def Command.Carried (c : Command) : Prop := (render c.shape).length < c.size ∧ ∀ v ∈ c.values, Plain v.1 v.2

instance (c : Command) : Decidable c.Carried :=
  inferInstanceAs (Decidable ((render c.shape).length < c.size ∧ ∀ v ∈ c.values, Plain v.1 v.2))

theorem size_pos (c : Command) : 0 < c.size := by cases c <;> simp [Command.size]

theorem lex_queryCmd_iff (c : Command) : lex c.queryCmd = some (tokens c.shape) ↔ c.Carried := by
  rw [queryCmd_eq, lex_take_iff (shape_wellFormed c), plain_shape, Nat.le_sub_one_iff_lt (size_pos c), Command.Carried]

/-! ## What the database does -/

inductive Column where
  | id
  | name
  | recSchedule
  | bakSchedule
deriving DecidableEq, Repr

/-- the length in characters (`CreateCameraInfoTable`) -/
def Column.width : Column → ℕ
  | id => 42
  | name => 128
  | recSchedule => 2048
  | bakSchedule => 2048

/-- the server with the table `camera_info` -/
structure Database where
  /-- an id of the table and the id of a command are equal, by the collation of the table -/
  same : Str → Str → Bool
  same_refl : ∀ id, same id id
  /-- what a column keeps of a value, or an error -/
  keeps : Column → Str → Option Str
  /-- what a text that is none of the four statements does to the rows -/
  other : Str → List CameraInfo → Option (List CameraInfo)

def literals (ts : List Token) : List Str :=
  ts.filterMap fun t =>
    match t with
    | .str v => some v
    | _ => none

/-- the statements with these values -/
def candidates : List Str → List Statement
  | [id, name, recSchedule, bakSchedule] => [.insert ⟨id, name, recSchedule, bakSchedule⟩]
  | [text, id] => [.setRec text id, .setBak text id]
  | [id] => [.delete id]
  | _ => []

/-- the statement that was read, if it is one of the four -/
def statementOf (ts : List Token) : Option Statement := (candidates (literals ts)).find? fun st => tokens st.pieces = ts

namespace Database

/-- the rows behind a statement; `none` is an error -/
def run (db : Database) (rows : List CameraInfo) : Statement → Option (List CameraInfo)
  | .insert row => do
    let id ← db.keeps .id row.id
    let name ← db.keeps .name row.name
    let recSchedule ← db.keeps .recSchedule row.recSchedule
    let bakSchedule ← db.keeps .bakSchedule row.bakSchedule
    return rows ++ [⟨id, name, recSchedule, bakSchedule⟩]
  | .setRec text id => rows.mapM fun c =>
      if db.same c.id id then (db.keeps .recSchedule text).map fun t => { c with recSchedule := t } else some c
  | .setBak text id => rows.mapM fun c =>
      if db.same c.id id then (db.keeps .bakSchedule text).map fun t => { c with bakSchedule := t } else some c
  -- LIMIT 1 takes the first row in the order of insertion
  | .delete id => some (rows.eraseP (db.same ·.id id))

/-- mysql_real_query -/
def exec (db : Database) (rows : List CameraInfo) (queryCmd : Str) : Option (List CameraInfo) :=
  match (lex queryCmd).bind statementOf with
  | some st => db.run rows st
  | none => db.other queryCmd rows

end Database

theorem statementOf_tokens (st : Statement) : statementOf (tokens st.pieces) = some st := by
  cases st with
  | insert row => exact List.find?_cons_of_pos (decide_eq_true rfl)
  | setRec text id => exact List.find?_cons_of_pos (decide_eq_true rfl)
  | setBak text id =>
    have hne : tokens (Statement.setRec text id).pieces ≠ tokens (Statement.setBak text id).pieces := by
      intro h
      have hcolumn : some (Token.ident (bytes "recSchedule")) = some (Token.ident (bytes "bakSchedule")) :=
        congrArg (·[3]?) h
      exact absurd hcolumn (by decide +kernel)
    exact (List.find?_cons_of_neg (by simpa using hne)).trans (List.find?_cons_of_pos (decide_eq_true rfl))
  | delete id => exact List.find?_cons_of_pos (decide_eq_true rfl)

theorem shape_statement {c : Command} {st : Statement} (h : c.statement = some st) : c.shape = st.pieces := by
  cases c <;> cases h <;> rfl

/-- **A command that is carried does what its statement says.** -/
theorem exec_of_carried {c : Command} {st : Statement} (db : Database) (hst : c.statement = some st) (h : c.Carried)
    (rows : List CameraInfo) : db.exec rows c.queryCmd = db.run rows st := by
  rw [Database.exec, (lex_queryCmd_iff c).2 h, shape_statement hst, Option.bind_some, statementOf_tokens]

/-! ## The functions -/

theorem zero_not_mem_takeWhile (s : Str) : 0 ∉ s.takeWhile (· ≠ 0) := by
  intro h
  simpa using List.mem_takeWhile_imp h

/-- `c_str()`: as far as the first zero -/
def cStr (s : Str) : CStr := .ofStr (s.takeWhile (· ≠ 0)) (zero_not_mem_takeWhile s)

theorem cStr_text {s : Str} (h : 0 ∉ s) : (cStr s).text = s := by
  rw [cStr, text_ofStr, List.takeWhile_eq_self_iff]
  intro c hc
  exact decide_eq_true fun h0 => h (h0 ▸ hc)

/-- how the four functions end: the connection may be gone -/
def Database.send (db : Database) (fails : Bool) (rows : List CameraInfo) (c : Command) : Option (List CameraInfo) :=
  if fails then none else db.exec rows c.queryCmd

def CameraInfo.insertCommand (c : CameraInfo) : Command :=
  .insertCameraInfo (cStr c.id) (cStr c.name) (cStr c.recSchedule) (cStr c.bakSchedule)

/-- `InsertCameraInfoToTable` -/
def insertCameraInfoToTable (db : Database) (fails : Bool) (rows : List CameraInfo) (c : CameraInfo) :
    Option (List CameraInfo) := db.send fails rows c.insertCommand

/-- `UpdateRecScheduleToCameraTable` -/
def updateRecScheduleToCameraTable (db : Database) (fails : Bool) (rows : List CameraInfo) (cameraId text : Str) :
    Option (List CameraInfo) := db.send fails rows (.updateRecSchedule (cStr cameraId) (cStr text))

/-- `UpdateBakScheduleToCameraTable` -/
def updateBakScheduleToCameraTable (db : Database) (fails : Bool) (rows : List CameraInfo) (cameraId text : Str) :
    Option (List CameraInfo) := db.send fails rows (.updateBakSchedule (cStr cameraId) (cStr text))

/-- `DeleteCameraInfoInTable` -/
def deleteCameraInfoInTable (db : Database) (fails : Bool) (rows : List CameraInfo) (cameraId : Str) :
    Option (List CameraInfo) := db.send fails rows (.deleteCameraInfo (cStr cameraId))

namespace Database

variable {db : Database} {rows : List CameraInfo} {c : CameraInfo} {id text : Str}

/-- the row is inserted as it is -/
structure Stores (db : Database) (c : CameraInfo) : Prop where
  carried : c.insertCommand.Carried
  id : db.keeps .id (cStr c.id).text = some c.id
  name : db.keeps .name (cStr c.name).text = some c.name
  recSchedule : db.keeps .recSchedule (cStr c.recSchedule).text = some c.recSchedule
  bakSchedule : db.keeps .bakSchedule (cStr c.bakSchedule).text = some c.bakSchedule

instance (db : Database) (c : CameraInfo) : Decidable (db.Stores c) :=
  decidable_of_iff (c.insertCommand.Carried ∧ db.keeps .id (cStr c.id).text = some c.id ∧
      db.keeps .name (cStr c.name).text = some c.name ∧
      db.keeps .recSchedule (cStr c.recSchedule).text = some c.recSchedule ∧
      db.keeps .bakSchedule (cStr c.bakSchedule).text = some c.bakSchedule)
    ⟨fun h => ⟨h.1, h.2.1, h.2.2.1, h.2.2.2.1, h.2.2.2.2⟩, fun h => ⟨h.1, h.2, h.3, h.4, h.5⟩⟩

/-- the text of a schedule gets into its column as it is -/
def Sets (db : Database) (column : Column) (command : CStr → CStr → Command) (id text : Str) : Prop :=
  (command (cStr id) (cStr text)).Carried ∧ db.keeps column (cStr text).text = some text

instance (db : Database) (column : Column) (command : CStr → CStr → Command) (id text : Str) :
    Decidable (db.Sets column command id text) := inferInstanceAs (Decidable (_ ∧ _))

/-- the rows with an id that the collation does not tell from this one have this id -/
def Tells (db : Database) (rows : List CameraInfo) (id : Str) : Prop := ∀ c ∈ rows, db.same c.id id → c.id = id

instance (db : Database) (rows : List CameraInfo) (id : Str) : Decidable (db.Tells rows id) :=
  inferInstanceAs (Decidable (∀ c ∈ rows, db.same c.id id → c.id = id))

theorem exec_insert (h : db.Stores c) (rows : List CameraInfo) :
    insertCameraInfoToTable db false rows c = some (rows ++ [c]) := by
  have hexec : insertCameraInfoToTable db false rows c = db.run rows _ := exec_of_carried db rfl h.carried rows
  rw [hexec, run, h.id, h.name, h.recSchedule, h.bakSchedule]
  rfl

theorem exec_delete (h : (Command.deleteCameraInfo (cStr id)).Carried) (hid : 0 ∉ id) (rows : List CameraInfo) :
    deleteCameraInfoInTable db false rows id = some (rows.eraseP (db.same ·.id id)) := by
  have hexec : deleteCameraInfoInTable db false rows id = db.run rows _ := exec_of_carried db rfl h rows
  rw [hexec, run, cStr_text hid]

/-- every matching row is changed -/
theorem mapM_update {t : Str} {kept : Option Str} (hkept : kept = some t) (set : CameraInfo → Str → CameraInfo)
    (id : Str) (rows : List CameraInfo) : (rows.mapM fun c => if db.same c.id id then kept.map (set c) else some c) =
      some (rows.map fun c => if db.same c.id id then set c t else c) := by
  subst hkept
  induction rows with
  | nil => rfl
  | cons c rows ih =>
    rw [List.mapM_cons, ih]
    cases hc : db.same c.id id <;> simp [hc]

theorem exec_setRec (h : db.Sets .recSchedule .updateRecSchedule id text) (hid : 0 ∉ id) (rows : List CameraInfo) :
    updateRecScheduleToCameraTable db false rows id text =
      some (rows.map fun c => if db.same c.id id then { c with recSchedule := text } else c) := by
  have hexec : updateRecScheduleToCameraTable db false rows id text = db.run rows _ := exec_of_carried db rfl h.1 rows
  rw [hexec, run, cStr_text hid]
  exact mapM_update h.2 (fun c t => { c with recSchedule := t }) id rows

theorem exec_setBak (h : db.Sets .bakSchedule .updateBakSchedule id text) (hid : 0 ∉ id) (rows : List CameraInfo) :
    updateBakScheduleToCameraTable db false rows id text =
      some (rows.map fun c => if db.same c.id id then { c with bakSchedule := text } else c) := by
  have hexec : updateBakScheduleToCameraTable db false rows id text = db.run rows _ := exec_of_carried db rfl h.1 rows
  rw [hexec, run, cStr_text hid]
  exact mapM_update h.2 (fun c t => { c with bakSchedule := t }) id rows

/-- where the collation tells the ids apart, the rows that match are those with the id -/
theorem same_iff (h : db.Tells rows id) (hc : c ∈ rows) : db.same c.id id ↔ c.id = id :=
  ⟨h c hc, fun he => he ▸ db.same_refl c.id⟩

end Database

end StoreService.Http
