/-
A file system of plain files, as far as path resolution, overwriting, appending and unlinking go.

A path is text; `resolve` gives its components (empty ones dropped, so "a//b" is "a/b"). Links, "." and ".." are left
out. `overwrite` is `open` with O_CREAT and neither O_TRUNC nor O_EXCL followed by writes from offset 0: an older,
longer file keeps its tail. `append` is one write at the end of a file. `writeAt` is one write at an offset; writes one
behind the other from offset 0 lay their bytes over the old file (`overlay`).
-/
import Mathlib.Tactic

namespace StoreService.FileSys

/-- the components of a path, `acc` being the part of the current one already read -/
def components (acc : List Char) : List Char → List (List Char)
  | [] => if acc = [] then [] else [acc]
  | c :: path =>
    if c = '/' then (if acc = [] then [] else [acc]) ++ components [] path else components (acc ++ [c]) path

def resolve (path : List Char) : List (List Char) := components [] path

abbrev Files := List (List Char) → Option (List UInt8)

def overwrite (fs : Files) (path : List (List Char)) (data : List UInt8) : Files :=
  Function.update fs path (some (data ++ ((fs path).getD []).drop data.length))

def append (fs : Files) (path : List (List Char)) (data : List UInt8) : Files :=
  Function.update fs path (some ((fs path).getD [] ++ data))

/-- `open` with O_CREAT: an older file stays as it is -/
def create (fs : Files) (path : List (List Char)) : Files := Function.update fs path (some ((fs path).getD []))

def unlink (fs : Files) (path : List (List Char)) : Files := Function.update fs path none

/-- the bytes of a file after a write at an offset of it -/
def writeAt (file : List UInt8) (offset : ℕ) (data : List UInt8) : List UInt8 :=
  file.take offset ++ data ++ file.drop (offset + data.length)

/-- one `write` to an open file -/
def write (fs : Files) (path : List (List Char)) (offset : ℕ) (data : List UInt8) : Files :=
  Function.update fs path (some (writeAt ((fs path).getD []) offset data))

/-- data written from offset 0 over an old file -/
def overlay (old data : List UInt8) : List UInt8 := data ++ old.drop data.length

theorem writeAt_overlay (old a b : List UInt8) : writeAt (overlay old a) a.length b = overlay old (a ++ b) := by
  unfold writeAt overlay
  rw [List.take_left, List.length_append, ← List.drop_drop, List.drop_left, List.drop_drop]

/-- writes one behind the other from offset 0 -/
theorem write_overlay {fs : Files} {path : List (List Char)} {old a b : List UInt8}
    (h : fs path = some (overlay old a)) : write fs path a.length b path = some (overlay old (a ++ b)) := by
  rw [write, Function.update_self, h, Option.getD_some, writeAt_overlay]

/-- an older file shows behind the data only if it is longer -/
theorem overlay_of_le {old data : List UInt8} (h : old.length ≤ data.length) : overlay old data = data := by
  rw [overlay, List.drop_eq_nil_of_le h, List.append_nil]

theorem overlay_eq_append_iff {old a b : List UInt8} : overlay old a = a ++ b ↔ old.drop a.length = b :=
  List.append_right_inj a

theorem components_append_slash (acc a b : List Char) :
    components acc (a ++ '/' :: b) = components acc a ++ components [] b := by
  induction a generalizing acc with
  | nil => simp [components]
  | cons c a ih =>
    simp only [List.cons_append, components]
    by_cases hc : c = '/'
    · rw [if_pos hc, if_pos hc, ih, List.append_assoc]
    · rw [if_neg hc, if_neg hc, ih]

/-- a slash separates -/
theorem resolve_append_slash (a b : List Char) : resolve (a ++ '/' :: b) = resolve a ++ resolve b :=
  components_append_slash [] a b

theorem components_of_not_mem {name : List Char} (h : '/' ∉ name) (acc : List Char) :
    components acc name = if acc ++ name = [] then [] else [acc ++ name] := by
  induction name generalizing acc with
  | nil => simp [components]
  | cons c name ih =>
    rw [List.mem_cons, not_or] at h
    rw [components, if_neg (Ne.symm h.1), ih h.2]
    simp

/-- a name without a slash is one component -/
theorem resolve_name {name : List Char} (h : '/' ∉ name) (hne : name ≠ []) : resolve name = [name] := by
  rw [resolve, components_of_not_mem h]
  simp [hne]

theorem overwrite_same {fs : Files} {path : List (List Char)} {data : List UInt8}
    (h : ∀ old, fs path = some old → old.length ≤ data.length) : overwrite fs path data path = some data := by
  rw [overwrite, Function.update_self]
  cases hp : fs path with
  | none => simp
  | some old => simp [List.drop_eq_nil_of_le (h old hp)]

theorem overwrite_of_ne {fs : Files} {path p : List (List Char)} {data : List UInt8} (h : p ≠ path) :
    overwrite fs path data p = fs p :=
  Function.update_of_ne h _ _

theorem unlink_of_ne {fs : Files} {path p : List (List Char)} (h : p ≠ path) : unlink fs path p = fs p :=
  Function.update_of_ne h _ _

end StoreService.FileSys
