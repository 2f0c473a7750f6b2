/-
JSON items and the texts that `cJSON_Print` makes of them (`cJSON.cpp`).

An item is a tree (`Item`). Its texts are C strings, so they have no zero byte (`CText`).

The printer works bottom up. It prints the children, adds up the lengths of their texts with an allowance for the
punctuation, asks `cJSON_malloc` for a block of this size and writes the text of the parent there. `alloc` is this last
step: a text that does not fit, with its terminator, into the block is written over the end of it, and there is no
result. `itemText` is the text alone, and `blocks` are the sizes that are asked for.

- `printValue_eq`: at every depth, formatted or not, every block is large enough, and what is printed is the text of the
  item.
- `blocks_le`: no block is larger than twice the text and 64 bytes.
- `print_in_bounds`: so a text of up to a billion bytes is printed without a write behind the end of a block and without
  an overflow of the `int` that counts the bytes.

The sizes are natural numbers: what is said of longer texts is not said of the code. Calls of `cJSON_malloc` that fail
are not modelled.
-/
import Mathlib.Tactic
import Mathlib.Data.FinEnum
import Mathlib.Data.List.TakeWhile
import StoreService.Json.Number

namespace StoreService.JsonText

open StoreService.Json

/-! ## Items -/

/-- the text of a C string -/
structure CText where
  bytes : Str
  no_zero : 0 ∉ bytes
deriving DecidableEq

/-- what a C string reads as if these bytes are at its start -/
def CText.ofBytes (s : Str) : CText where
  bytes := s.takeWhile (· ≠ 0)
  no_zero h := absurd (List.mem_takeWhile_imp h) (by decide)

/-- `struct cJSON` with its type -/
inductive Item (F : Type) where
  | null
  | bool (b : Bool)
  | number (d : F)
  | string (s : CText)
  | array (items : List (Item F))
  | object (members : List (CText × Item F))

variable {D : Doubles}

/-! ## Strings -/

/-- the bytes that `print_string_ptr` looks for; a byte of 128 or more is a negative char -/
def special (c : UInt8) : Bool := 0 < c && c < 32 || c = 34 || c = 92

/-- a digit of `%x` -/
def hexDigit (d : ℕ) : UInt8 := UInt8.ofNat (if d < 10 then 48 + d else 87 + d)

/-- `u%04x` of a byte -/
def hexText (c : UInt8) : Str := [117, 48, 48, hexDigit (c.toNat / 16), hexDigit (c.toNat % 16)]

/-- the letter of an escape, or nothing -/
def escapeLetter (c : UInt8) : Option UInt8 :=
  if c = 92 then some 92
  else if c = 34 then some 34
  else if c = 8 then some 98
  else if c = 12 then some 102
  else if c = 10 then some 110
  else if c = 13 then some 114
  else if c = 9 then some 116
  else none

/-- how a byte is written -/
def escapeByte (c : UInt8) : Str :=
  if 31 < c ∧ c ≠ 34 ∧ c ≠ 92 then [c]
  else
    match escapeLetter c with
    | some e => [92, e]
    | none => 92 :: hexText c

/-- what the first pass adds to `len` for a byte -/
def escapeLength (c : UInt8) : ℕ := if (escapeLetter c).isSome then 2 else if c < 32 then 6 else 1

/-- the text of a string -/
def stringText (s : CText) : Str :=
  if s.bytes.any special then 34 :: (s.bytes.flatMap escapeByte ++ [34]) else 34 :: (s.bytes ++ [34])

/-- the block for a string -/
def stringSize (s : CText) : ℕ :=
  (if s.bytes.any special then (s.bytes.map escapeLength).sum else s.bytes.length) + 3

/-- `print_string_ptr` -/
def printStringPtr (s : CText) : Option Str := alloc (stringSize s) (stringText s)

/-! ## Arrays and objects -/

def tabs (n : ℕ) : Str := List.replicate n 9

/-- what is written behind the bracket of an array, for the texts of its items -/
def itemsTail (fmt : Bool) : List Str → Str
  | [] => [93]
  | [e] => e ++ [93]
  | e :: es => e ++ (if fmt then [44, 32] else [44]) ++ itemsTail fmt es

/-- the text of an array, for the texts of its items -/
def arrayText (fmt : Bool) (entries : List Str) : Str := 91 :: itemsTail fmt entries

/-- the block for an array -/
def arraySize (fmt : Bool) (entries : List Str) : ℕ :=
  if entries.isEmpty then 3 else 5 + (entries.map fun e => e.length + 2 + if fmt then 1 else 0).sum

/-- `print_array`, once the items are printed -/
def printArray (fmt : Bool) (entries : List Str) : Option Str := alloc (arraySize fmt entries) (arrayText fmt entries)

/-- what is written behind the brace of an object with members; `depth` is that of the members -/
def membersTail (fmt : Bool) (depth : ℕ) : List (Str × Str) → Str
  | [] => (if fmt then tabs (depth - 1) else []) ++ [125]
  | (name, e) :: es =>
    (if fmt then tabs depth else []) ++ name ++ (if fmt then [58, 9] else [58]) ++ e ++
      (if es.isEmpty then [] else [44]) ++ (if fmt then [10] else []) ++ membersTail fmt depth es

/-- the text of an object, for the texts of its names and values -/
def objectText (fmt : Bool) (depth : ℕ) (entries : List (Str × Str)) : Str :=
  if entries.isEmpty then 123 :: ((if fmt then 10 :: tabs (depth - 1) else []) ++ [125])
  else 123 :: ((if fmt then [10] else []) ++ membersTail fmt (depth + 1) entries)

/-- the block for an object -/
def objectSize (fmt : Bool) (depth : ℕ) (entries : List (Str × Str)) : ℕ :=
  if entries.isEmpty then if fmt then depth + 4 else 3
  else
    7 + (if fmt then depth + 1 else 0) +
      (entries.map fun e => e.2.length + e.1.length + 2 + if fmt then 2 + (depth + 1) else 0).sum

/-- `print_object`, once names and values are printed -/
def printObject (fmt : Bool) (depth : ℕ) (entries : List (Str × Str)) : Option Str :=
  alloc (objectSize fmt depth entries) (objectText fmt depth entries)

/-- `cJSON_strdup` -/
def strdup (s : Str) : Option Str := alloc (s.length + 1) s

mutual

/-- `print_value` -/
def printValue (D : Doubles) (fmt : Bool) (depth : ℕ) : Item D.F → Option Str
  | .null => strdup (bytes "null")
  | .bool false => strdup (bytes "false")
  | .bool true => strdup (bytes "true")
  | .number d => printNumber D d
  | .string s => printStringPtr s
  | .array items => printItems D fmt (depth + 1) items >>= printArray fmt
  | .object members => printMembers D fmt (depth + 1) members >>= printObject fmt depth

def printItems (D : Doubles) (fmt : Bool) (depth : ℕ) : List (Item D.F) → Option (List Str)
  | [] => some []
  | child :: items => do
    let e ← printValue D fmt depth child
    let es ← printItems D fmt depth items
    return e :: es

def printMembers (D : Doubles) (fmt : Bool) (depth : ℕ) : List (CText × Item D.F) → Option (List (Str × Str))
  | [] => some []
  | (name, child) :: members => do
    let n ← printStringPtr name
    let e ← printValue D fmt depth child
    let es ← printMembers D fmt depth members
    return (n, e) :: es

end

/-- `cJSON_Print`; `cJSON_PrintUnformatted` is the same without `fmt` -/
def cJSONPrint (D : Doubles) (item : Item D.F) : Option Str := printValue D true 0 item

mutual

/-- the text of an item -/
def itemText (D : Doubles) (fmt : Bool) (depth : ℕ) : Item D.F → Str
  | .null => bytes "null"
  | .bool false => bytes "false"
  | .bool true => bytes "true"
  | .number d => numberText D d
  | .string s => stringText s
  | .array items => arrayText fmt (itemTexts D fmt (depth + 1) items)
  | .object members => objectText fmt depth (memberTexts D fmt (depth + 1) members)

def itemTexts (D : Doubles) (fmt : Bool) (depth : ℕ) : List (Item D.F) → List Str
  | [] => []
  | child :: items => itemText D fmt depth child :: itemTexts D fmt depth items

def memberTexts (D : Doubles) (fmt : Bool) (depth : ℕ) : List (CText × Item D.F) → List (Str × Str)
  | [] => []
  | (name, child) :: members => (stringText name, itemText D fmt depth child) :: memberTexts D fmt depth members

end

mutual

/-- the sizes of the blocks for an item and its parts, in the order in which they are asked for -/
def blocks (D : Doubles) (fmt : Bool) (depth : ℕ) : Item D.F → List ℕ
  | .null => [(bytes "null").length + 1]
  | .bool false => [(bytes "false").length + 1]
  | .bool true => [(bytes "true").length + 1]
  | .number d => [numberSize D d]
  | .string s => [stringSize s]
  | .array items => itemBlocks D fmt (depth + 1) items ++ [arraySize fmt (itemTexts D fmt (depth + 1) items)]
  | .object members =>
    memberBlocks D fmt (depth + 1) members ++ [objectSize fmt depth (memberTexts D fmt (depth + 1) members)]

def itemBlocks (D : Doubles) (fmt : Bool) (depth : ℕ) : List (Item D.F) → List ℕ
  | [] => []
  | child :: items => blocks D fmt depth child ++ itemBlocks D fmt depth items

def memberBlocks (D : Doubles) (fmt : Bool) (depth : ℕ) : List (CText × Item D.F) → List ℕ
  | [] => []
  | (name, child) :: members => stringSize name :: (blocks D fmt depth child ++ memberBlocks D fmt depth members)

end

/-! ## Every block is large enough -/

theorem strdup_eq (s : Str) : strdup s = some s := alloc_eq (Nat.lt_succ_self _)

/-- the first pass counts what the second one writes -/
theorem length_escapeByte : ∀ c : UInt8, (escapeByte c).length = escapeLength c := by decide +kernel

theorem length_flatMap_escape (s : Str) : (s.flatMap escapeByte).length = (s.map escapeLength).sum := by
  rw [List.length_flatMap]
  simp only [length_escapeByte]

/-- the terminator is counted too -/
theorem stringSize_eq (s : CText) : stringSize s = (stringText s).length + 1 := by
  rw [stringSize, stringText]
  split_ifs
  · rw [List.length_cons, List.length_append, length_flatMap_escape, List.length_singleton]
  · rw [List.length_cons, List.length_append, List.length_singleton]

theorem printStringPtr_eq (s : CText) : printStringPtr s = some (stringText s) :=
  alloc_eq (by rw [stringSize_eq]; exact Nat.lt_succ_self _)

theorem length_itemsTail (fmt : Bool) (es : List Str) :
    (itemsTail fmt es).length ≤ 1 + (es.map fun e => e.length + 2 + if fmt then 1 else 0).sum := by
  induction es with
  | nil => exact Nat.le_add_right ..
  | cons e es ih =>
    cases es with
    | nil => simp [itemsTail]; omega
    | cons e' es =>
      rw [itemsTail, List.length_append, List.length_append, List.map_cons, List.sum_cons]
      · cases fmt <;> simp only [if_true, Bool.false_eq_true, if_false, List.length_cons, List.length_nil] at ih ⊢ <;>
          omega
      · exact List.cons_ne_nil _ _

theorem printArray_eq (fmt : Bool) (entries : List Str) : printArray fmt entries = some (arrayText fmt entries) := by
  cases entries with
  | nil => rfl
  | cons e es =>
    refine alloc_eq ?_
    have htail := length_itemsTail fmt (e :: es)
    rw [arrayText, arraySize, List.length_cons, List.isEmpty_cons, if_neg (by decide)]
    omega

theorem length_membersTail (fmt : Bool) (depth : ℕ) (es : List (Str × Str)) :
    (membersTail fmt depth es).length ≤ 1 + (if fmt then depth else 0) +
      (es.map fun e => e.2.length + e.1.length + 2 + if fmt then 2 + depth else 0).sum := by
  induction es with
  | nil => cases fmt <;> simp [membersTail, tabs]; omega
  | cons e es ih =>
    have hcomma : (if es.isEmpty then ([] : Str) else [44]).length ≤ 1 := by split_ifs <;> decide
    rw [membersTail, List.map_cons, List.sum_cons]
    cases fmt <;>
      simp only [if_true, Bool.false_eq_true, if_false, List.length_append, List.length_cons, List.length_nil, tabs,
        List.length_replicate] at ih ⊢ <;>
      omega

theorem printObject_eq (fmt : Bool) (depth : ℕ) (entries : List (Str × Str)) :
    printObject fmt depth entries = some (objectText fmt depth entries) := by
  cases entries with
  | nil =>
    refine alloc_eq ?_
    cases fmt <;> simp [objectText, objectSize, tabs]
  | cons e es =>
    refine alloc_eq ?_
    have htail := length_membersTail fmt (depth + 1) (e :: es)
    cases fmt <;>
      simp only [objectText, objectSize, List.isEmpty_cons, Bool.false_eq_true, if_false, if_true, List.length_cons,
        List.length_append, List.length_nil] at htail ⊢ <;>
      omega

mutual

/-- **The printer stays inside its blocks.** -/
theorem printValue_eq (fmt : Bool) (depth : ℕ) :
    (v : Item D.F) → printValue D fmt depth v = some (itemText D fmt depth v)
  | .null => strdup_eq _
  | .bool false => strdup_eq _
  | .bool true => strdup_eq _
  | .number d => printNumber_eq d
  | .string s => printStringPtr_eq s
  | .array items => by
    rw [printValue, printItems_eq fmt (depth + 1) items, itemText]
    exact printArray_eq fmt _
  | .object members => by
    rw [printValue, printMembers_eq fmt (depth + 1) members, itemText]
    exact printObject_eq fmt depth _

theorem printItems_eq (fmt : Bool) (depth : ℕ) :
    (items : List (Item D.F)) → printItems D fmt depth items = some (itemTexts D fmt depth items)
  | [] => rfl
  | child :: items => by
    rw [printItems, printValue_eq fmt depth child, printItems_eq fmt depth items, itemTexts]
    rfl

theorem printMembers_eq (fmt : Bool) (depth : ℕ) :
    (members : List (CText × Item D.F)) → printMembers D fmt depth members = some (memberTexts D fmt depth members)
  | [] => rfl
  | (name, child) :: members => by
    rw [printMembers, printStringPtr_eq, printValue_eq fmt depth child, printMembers_eq fmt depth members, memberTexts]
    rfl

end

/-! ## No text has a zero

`strlen` of a printed text is its length. -/

theorem zero_not_mem_escapeByte : ∀ c : UInt8, 0 ∉ escapeByte c := by decide +kernel

theorem zero_not_mem_stringText (s : CText) : 0 ∉ stringText s := by
  have hbody : 0 ∉ s.bytes.flatMap escapeByte := by
    rw [List.mem_flatMap]
    rintro ⟨c, -, hc⟩
    exact zero_not_mem_escapeByte c hc
  rw [stringText]
  split_ifs
  · simp [hbody]
  · simp [s.no_zero]

theorem zero_not_mem_ite {p : Bool} {s t : Str} (hs : 0 ∉ s) (ht : 0 ∉ t) : 0 ∉ if p then s else t := by
  cases p
  · exact ht
  · exact hs

theorem zero_not_mem_tabs (n : ℕ) : 0 ∉ tabs n := fun h => absurd (List.eq_of_mem_replicate h) (by decide)

theorem zero_not_mem_itemsTail {fmt : Bool} {es : List Str} (h : ∀ e ∈ es, 0 ∉ e) : 0 ∉ itemsTail fmt es := by
  induction es with
  | nil => simp [itemsTail]
  | cons e es ih =>
    have he : 0 ∉ e := h e List.mem_cons_self
    cases es with
    | nil => simp [itemsTail, he]
    | cons e' es =>
      have htail := ih fun x hx => h x (List.mem_cons_of_mem _ hx)
      cases fmt <;> simp [itemsTail, he, htail]

theorem zero_not_mem_membersTail {fmt : Bool} {depth : ℕ} {es : List (Str × Str)}
    (h : ∀ e ∈ es, 0 ∉ e.1 ∧ 0 ∉ e.2) : 0 ∉ membersTail fmt depth es := by
  induction es with
  | nil =>
    rw [membersTail, List.mem_append, not_or]
    exact ⟨zero_not_mem_ite (zero_not_mem_tabs _) List.not_mem_nil, by decide⟩
  | cons e es ih =>
    obtain ⟨hname, he⟩ := h e List.mem_cons_self
    have htail := ih fun x hx => h x (List.mem_cons_of_mem _ hx)
    have htabs := zero_not_mem_ite (p := fmt) (zero_not_mem_tabs depth) List.not_mem_nil
    have hcolon : 0 ∉ if fmt then ([58, 9] : Str) else [58] := zero_not_mem_ite (by decide) (by decide)
    have hcomma : 0 ∉ if es.isEmpty then ([] : Str) else [44] := zero_not_mem_ite (by decide) (by decide)
    have hnewline : 0 ∉ if fmt then ([10] : Str) else [] := zero_not_mem_ite (by decide) (by decide)
    simp only [membersTail, List.mem_append, not_or]
    exact ⟨⟨⟨⟨⟨⟨htabs, hname⟩, hcolon⟩, he⟩, hcomma⟩, hnewline⟩, htail⟩

mutual

theorem zero_not_mem_itemText (fmt : Bool) (depth : ℕ) : (v : Item D.F) → 0 ∉ itemText D fmt depth v
  | .null => by
    rw [itemText]
    decide +kernel
  | .bool false => by
    rw [itemText]
    decide +kernel
  | .bool true => by
    rw [itemText]
    decide +kernel
  | .number d => zero_not_mem_numberText d
  | .string s => zero_not_mem_stringText s
  | .array items => by
    rw [itemText, arrayText, List.mem_cons, not_or]
    exact ⟨by decide, zero_not_mem_itemsTail (zero_not_mem_itemTexts fmt (depth + 1) items)⟩
  | .object members => by
    have htexts := zero_not_mem_memberTexts fmt (depth + 1) members
    rw [itemText, objectText]
    refine zero_not_mem_ite ?_ ?_
    · have htabs := zero_not_mem_tabs (depth - 1)
      cases fmt <;> simp [htabs]
    · have htail : 0 ∉ membersTail fmt (depth + 1) _ := zero_not_mem_membersTail htexts
      cases fmt <;> simp [htail]

theorem zero_not_mem_itemTexts (fmt : Bool) (depth : ℕ) :
    (items : List (Item D.F)) → ∀ e ∈ itemTexts D fmt depth items, 0 ∉ e
  | [] => fun e he => absurd he List.not_mem_nil
  | child :: items => by
    intro e he
    rw [itemTexts, List.mem_cons] at he
    rcases he with rfl | he
    · exact zero_not_mem_itemText fmt depth child
    · exact zero_not_mem_itemTexts fmt depth items e he

theorem zero_not_mem_memberTexts (fmt : Bool) (depth : ℕ) :
    (members : List (CText × Item D.F)) → ∀ e ∈ memberTexts D fmt depth members, 0 ∉ e.1 ∧ 0 ∉ e.2
  | [] => fun e he => absurd he List.not_mem_nil
  | (name, child) :: members => by
    intro e he
    rw [memberTexts, List.mem_cons] at he
    rcases he with rfl | he
    · exact ⟨zero_not_mem_stringText name, zero_not_mem_itemText fmt depth child⟩
    · exact zero_not_mem_memberTexts fmt depth members e he

end

/-! ## No block is too large -/

theorem arraySize_le (fmt : Bool) (entries : List Str) :
    arraySize fmt entries ≤ 2 * (arrayText fmt entries).length + 64 := by
  have htail : (entries.map fun e => e.length + 2 + if fmt then 1 else 0).sum ≤
      2 * (itemsTail fmt entries).length + 4 := by
    induction entries with
    | nil => exact Nat.zero_le _
    | cons e es ih =>
      cases es with
      | nil => cases fmt <;> simp [itemsTail] <;> omega
      | cons e' es =>
        rw [itemsTail, List.length_append, List.length_append, List.map_cons, List.sum_cons]
        · cases fmt <;>
            simp only [if_true, Bool.false_eq_true, if_false, List.length_cons, List.length_nil] at ih ⊢ <;>
            omega
        · exact List.cons_ne_nil _ _
  rw [arraySize, arrayText, List.length_cons]
  by_cases hnil : entries.isEmpty
  · rw [if_pos hnil]
    omega
  · rw [if_neg hnil]
    omega

theorem objectSize_le (fmt : Bool) (depth : ℕ) (entries : List (Str × Str)) :
    objectSize fmt depth entries ≤ 2 * (objectText fmt depth entries).length + 64 := by
  have htail : ∀ (es : List (Str × Str)) (k : ℕ), (if fmt then k else 0) +
      (es.map fun e => e.2.length + e.1.length + 2 + if fmt then 2 + k else 0).sum ≤
        2 * (membersTail fmt k es).length := by
    intro es k
    induction es with
    | nil => cases fmt <;> simp [membersTail, tabs]; omega
    | cons e es ih =>
      rw [membersTail, List.map_cons, List.sum_cons]
      cases fmt <;>
        simp only [if_true, Bool.false_eq_true, if_false, List.length_append, List.length_cons, List.length_nil, tabs,
          List.length_replicate] at ih ⊢ <;>
        omega
  have hsum := htail entries (depth + 1)
  rw [objectSize, objectText]
  by_cases hnil : entries.isEmpty
  · cases fmt <;> simp [hnil, tabs]; omega
  · rw [if_neg hnil, if_neg hnil, List.length_cons, List.length_append]
    omega

theorem length_le_itemsTail {fmt : Bool} {es : List Str} {e : Str} (h : e ∈ es) :
    e.length ≤ (itemsTail fmt es).length := by
  induction es with
  | nil => exact absurd h List.not_mem_nil
  | cons e' es ih =>
    cases es with
    | nil =>
      rw [List.mem_singleton.1 h, itemsTail, List.length_append]
      exact Nat.le_add_right _ _
    | cons e'' es =>
      rw [itemsTail, List.length_append, List.length_append]
      · rcases List.mem_cons.1 h with rfl | h
        · omega
        · exact (ih h).trans (Nat.le_add_left _ _)
      · exact List.cons_ne_nil _ _

theorem length_le_membersTail {fmt : Bool} {depth : ℕ} {es : List (Str × Str)} {e : Str × Str} (h : e ∈ es) :
    e.1.length + e.2.length ≤ (membersTail fmt depth es).length := by
  induction es with
  | nil => exact absurd h List.not_mem_nil
  | cons e' es ih =>
    simp only [membersTail, List.length_append]
    rcases List.mem_cons.1 h with rfl | h
    · omega
    · exact (ih h).trans (Nat.le_add_left _ _)

mutual

/-- **A block is not much larger than the text.** -/
theorem blocks_le (fmt : Bool) (depth : ℕ) :
    (v : Item D.F) → ∀ size ∈ blocks D fmt depth v, size ≤ 2 * (itemText D fmt depth v).length + 64
  | .null => by
    intro size h
    rw [blocks, List.mem_singleton] at h
    rw [h, itemText]
    omega
  | .bool false => by
    intro size h
    rw [blocks, List.mem_singleton] at h
    rw [h, itemText]
    omega
  | .bool true => by
    intro size h
    rw [blocks, List.mem_singleton] at h
    rw [h, itemText]
    omega
  | .number d => by
    intro size h
    rw [blocks, List.mem_singleton] at h
    rw [h]
    exact (numberSize_le d).trans (Nat.le_add_left _ _)
  | .string s => by
    intro size h
    rw [blocks, List.mem_singleton] at h
    rw [h, stringSize_eq, itemText]
    omega
  | .array items => by
    intro size h
    rw [blocks, List.mem_append, List.mem_singleton] at h
    rw [itemText]
    rcases h with h | rfl
    · obtain ⟨e, he, hle⟩ := itemBlocks_le fmt (depth + 1) items size h
      have htail : e.length ≤ (itemsTail fmt (itemTexts D fmt (depth + 1) items)).length := length_le_itemsTail he
      rw [arrayText, List.length_cons]
      omega
    · exact arraySize_le fmt _
  | .object members => by
    intro size h
    rw [blocks, List.mem_append, List.mem_singleton] at h
    rw [itemText]
    rcases h with h | rfl
    · obtain ⟨e, he, hle⟩ := memberBlocks_le fmt (depth + 1) members size h
      have htail : e.1.length + e.2.length ≤
          (membersTail fmt (depth + 1) (memberTexts D fmt (depth + 1) members)).length := length_le_membersTail he
      have hsome : (memberTexts D fmt (depth + 1) members).isEmpty = false := by
        rw [List.isEmpty_eq_false_iff]
        exact List.ne_nil_of_mem he
      rw [objectText, hsome, if_neg (by decide), List.length_cons, List.length_append]
      omega
    · exact objectSize_le fmt depth _

theorem itemBlocks_le (fmt : Bool) (depth : ℕ) : (items : List (Item D.F)) →
    ∀ size ∈ itemBlocks D fmt depth items, ∃ e ∈ itemTexts D fmt depth items, size ≤ 2 * e.length + 64
  | [] => fun size h => absurd h List.not_mem_nil
  | child :: items => by
    intro size h
    rw [itemBlocks, List.mem_append] at h
    rw [itemTexts]
    rcases h with h | h
    · exact ⟨_, List.mem_cons_self, blocks_le fmt depth child size h⟩
    · obtain ⟨e, he, hle⟩ := itemBlocks_le fmt depth items size h
      exact ⟨e, List.mem_cons_of_mem _ he, hle⟩

theorem memberBlocks_le (fmt : Bool) (depth : ℕ) : (members : List (CText × Item D.F)) →
    ∀ size ∈ memberBlocks D fmt depth members,
      ∃ e ∈ memberTexts D fmt depth members, size ≤ 2 * (e.1.length + e.2.length) + 64
  | [] => fun size h => absurd h List.not_mem_nil
  | (name, child) :: members => by
    intro size h
    rw [memberBlocks, List.mem_cons, List.mem_append] at h
    rw [memberTexts]
    rcases h with rfl | h | h
    · refine ⟨_, List.mem_cons_self, ?_⟩
      change stringSize name ≤ 2 * ((stringText name).length + _) + 64
      rw [stringSize_eq]
      omega
    · have hle := blocks_le fmt depth child size h
      refine ⟨_, List.mem_cons_self, ?_⟩
      change size ≤ 2 * (_ + (itemText D fmt depth child).length) + 64
      omega
    · obtain ⟨e, he, hle⟩ := memberBlocks_le fmt depth members size h
      exact ⟨e, List.mem_cons_of_mem _ he, hle⟩

end

/-- **Printing is safe.** An item whose text has at most a billion bytes is printed, formatted or not, without a write
behind the end of a block. Each size that is asked for is an `int`, and what is printed is a C string, so that the
lengths the code takes with `strlen` are those of the texts. -/
theorem print_in_bounds (fmt : Bool) (item : Item D.F) (h : (itemText D fmt 0 item).length ≤ 10 ^ 9) :
    ∃ text : CText, printValue D fmt 0 item = some text.bytes ∧ ∀ size ∈ blocks D fmt 0 item, size < 2 ^ 31 := by
  refine ⟨⟨itemText D fmt 0 item, zero_not_mem_itemText fmt 0 item⟩, printValue_eq fmt 0 item, fun size hsize => ?_⟩
  have hle := blocks_le fmt 0 item size hsize
  omega

/-- numbers of all formats and a string with an escape -/
def levelItem : Item rationals.F :=
  .object [(.ofBytes (bytes "level"), .array [.number (Exact.ofRat (-3 / 2)), .number (Exact.ofRat (10 ^ 12)),
      .number (Exact.ofRat (10 ^ 12 + 1 / 2)), .number (Exact.ofRat 7)]),
    (.ofBytes (bytes "note"), .string (.ofBytes (bytes "a \"gate\"\n")))]

theorem print_in_bounds_level : (itemText rationals true 0 levelItem).length ≤ 10 ^ 9 ∧
    ∃ text : CText, printValue rationals true 0 levelItem = some text.bytes ∧
      ∀ size ∈ blocks rationals true 0 levelItem, size < 2 ^ 31 := by
  have hlen : (itemText rationals true 0 levelItem).length ≤ 10 ^ 9 := by decide +kernel
  exact ⟨hlen, print_in_bounds true levelItem hlen⟩

end StoreService.JsonText
