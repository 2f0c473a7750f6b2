/-
Which values the commands to the database carry (`InsertCameraInfoToTable`, `UpdateStatusToTable`,
`UpdateBackupToTable`, `UpdateRecScheduleToCameraTable`, `UpdateBakScheduleToCameraTable`, `DeleteCameraInfoInTable`,
`DeleteInfoInTable`, mysql.cpp).

The commands are those of `Sql`, and `Quoting.lex` reads them as MySQL does in its default mode.

- `commands_iff`: the text sent is read as the intended statement with exactly these values iff the whole statement fits
  into the buffer and no value has its own kind of quote in it, or a backslash that is not before '%' or '_' (which in a
  table name is a character like any other).
- `command_flaws`: a file name with quotes in it makes the WHERE clause true of every row, and one of 207 characters
  cuts LIMIT 1 off; both come from a request.
-/
import StoreService.Http.Handlers

namespace StoreService.Http

open StoreService.Json StoreService.Quoting StoreService.Check

/-- **Which values a command carries.** For every command and all values, the text sent is read as the one intended
statement with exactly these values iff the statement fits into the buffer and every value is plain for its quotes. -/
theorem commands_iff (c : Command) : lex c.queryCmd = some (tokens c.shape) ↔
    (render c.shape).length < c.size ∧ ∀ v ∈ c.values, Plain v.1 v.2 :=
  lex_queryCmd_iff c

/-! ## Two file names -/

section Flaws

def cameraId11 : CStr := CStr.ofStr (bytes "1-1") (by decide)

def lockStatus : CStr := CStr.ofStr (bytes "lock") (by decide)

/-- a name that ends its literal -/
def quotedFile : CStr := CStr.ofStr (bytes "x' OR 'a'='a") (by decide)

/-- the closing quote of this name is the last character that fits -/
def longFile : CStr := CStr.ofStr (List.replicate 207 97) (by decide)

/-- the request to lock a file of camera 1-1 -/
def lockRequest (file : CStr) : CJson :=
  .object [idOne "mainId", idOne "subId", (CJson.str file).named "file", num "operateId" 0]

/-- the command of this request -/
def lockCommand (file : CStr) : Command := .updateStatus cameraId11 file lockStatus

/-- UPDATE `1-1` SET `status`='lock' WHERE `name`='...' -/
def lockWhere (file : Str) : List Piece :=
  updateSet (bytes "1-1") "status" (literal (bytes "lock")) ++ wherePart "name" (literal file)

/-- the first lock takes every row, since 'a'='a', and the second has no limit -/
theorem command_flaws :
    (operateFile .none (lockRequest quotedFile)).run =
      some (.ok (.call (.status cameraId11.text quotedFile.text lockStatus.text))) ∧
    (operateFile .none (lockRequest longFile)).run =
      some (.ok (.call (.status cameraId11.text longFile.text lockStatus.text))) ∧
    lex (lockCommand quotedFile).queryCmd = some (tokens (lockWhere (bytes "x") ++
      [.space, keyword "OR", .space, literal (bytes "a"), .sym 61, literal (bytes "a")] ++ limit1)) ∧
    lex (lockCommand quotedFile).queryCmd ≠ some (tokens (lockCommand quotedFile).shape) ∧
    lex (lockCommand longFile).queryCmd = some (tokens (lockWhere longFile.text)) ∧
    lex (lockCommand longFile).queryCmd ≠ some (tokens (lockCommand longFile).shape) := by
  have hquoted : lex (lockCommand quotedFile).queryCmd = some (tokens (lockWhere (bytes "x") ++
      [.space, keyword "OR", .space, literal (bytes "a"), .sym 61, literal (bytes "a")] ++ limit1)) := by
    decide +kernel
  have hlong : lex (lockCommand longFile).queryCmd = some (tokens (lockWhere longFile.text)) := by
    decide +kernel
  refine ⟨by decide +kernel, by decide +kernel, hquoted, ?_, hlong, ?_⟩
  · rw [hquoted]
    decide +kernel
  · rw [hlong]
    decide +kernel

end Flaws

end StoreService.Http
