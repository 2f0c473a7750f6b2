/-
The items that the request handlers see.

The handlers read an item through its children, its `valuestring` and its `valueint`; behind the terminator of a
`valuestring` is whatever the heap has there. `Denotes` says that what they see is an item, and `IsCJson` that their
`cJSON_Parse` is the parser and their `cJSON_Print` the printer: where the parser returns, they get an item as it was
parsed, where it refuses, null, and for an item whose numbers are ints they print its text.

What they see has no doubles: a number is seen as its `valueint`, so nothing is said of the text of other numbers.

- `isCJson_codecOf`: parser and printer make such a codec.
- `parse_printed`: what is stored with `cJSON_Print` is read back as the same item.
-/
import Mathlib.Tactic
import StoreService.Json.RoundTrip

namespace StoreService.JsonText

open StoreService.Json StoreService.Check

variable {D : Doubles}

/-! ## Items as they are read -/

namespace Item

/-- `child` and the items behind it -/
def children {F : Type} : Item F → List (Item F)
  | array items => items
  | object members => members.map Prod.snd
  | null | bool _ | number _ | string _ => []

/-- `valuestring` -/
def text {F : Type} : Item F → Option CText
  | string s => some s
  | null | bool _ | number _ | array _ | object _ => none

/-- `valueint` of a parsed item -/
def int (D : Doubles) : Item D.F → ℤ
  | bool true => 1
  | number d => D.toInt d
  | null | bool false | string _ | array _ | object _ => 0

end Item

/-- `type` -/
def Item.type {F : Type} : Item F → ItemType
  | .null => .null
  | .bool false => .false
  | .bool true => .true
  | .number _ => .number
  | .string _ => .string
  | .array _ => .array
  | .object _ => .object

/-- `cJSON_GetObjectItem`: the first member with this name, whatever its case -/
def Item.member {F : Type} (name : Str) : Item F → Option (Item F)
  | .object members =>
    (members.find? fun m => m.1.bytes.map CJson.tolower = name.map CJson.tolower).map Prod.snd
  | .null | .bool _ | .number _ | .string _ | .array _ => none

/-- the own fields of an item -/
structure Fields (D : Doubles) (item : Item D.F) (obj : CJson) : Prop where
  text : obj.valuestring.map CStr.text = item.text.map CText.bytes
  int : obj.valueint = item.int D
  type : obj.type = item.type

mutual

/-- the handlers see this item -/
def Denotes (D : Doubles) : Item D.F → CJson → Prop
  | .array items, obj => Fields D (.array items) obj ∧ DenotesItems D items obj.child
  | .object members, obj => Fields D (.object members) obj ∧ DenotesMembers D members obj.child
  | .null, obj => Fields D .null obj ∧ obj.child = []
  | .bool b, obj => Fields D (.bool b) obj ∧ obj.child = []
  | .number d, obj => Fields D (.number d) obj ∧ obj.child = []
  | .string s, obj => Fields D (.string s) obj ∧ obj.child = []

def DenotesItems (D : Doubles) : List (Item D.F) → List CJson → Prop
  | [], objs => objs = []
  | child :: items, objs => ∃ obj rest, objs = obj :: rest ∧ obj.string = none ∧ Denotes D child obj ∧
      DenotesItems D items rest

def DenotesMembers (D : Doubles) : List (CText × Item D.F) → List CJson → Prop
  | [], objs => objs = []
  | (name, child) :: members, objs => ∃ obj rest, objs = obj :: rest ∧ obj.string = some name.bytes ∧
      Denotes D child obj ∧ DenotesMembers D members rest

end

/-- the codec of the handlers is cJSON -/
structure IsCJson (D : Doubles) (J : Codec) : Prop where
  parse_ok : ∀ text item, cJSONParse D text = pure item → ∃ obj, J.parse text.bytes = some obj ∧ Denotes D item obj
  parse_error : ∀ text ep, cJSONParse D text = throw ep → J.parse text.bytes = none
  print_ok : ∀ item obj, Integral D item → Denotes D item obj → J.print obj = (printed D true item).bytes

theorem Denotes.fields {item : Item D.F} {obj : CJson} (h : Denotes D item obj) : Fields D item obj := by
  cases item <;> (rw [Denotes] at h; exact h.1)

theorem denotesItems_forall {items : List (Item D.F)} {objs : List CJson} (h : DenotesItems D items objs) :
    List.Forall₂ (Denotes D) items objs := by
  induction items generalizing objs with
  | nil =>
    rw [DenotesItems] at h
    subst h
    exact List.Forall₂.nil
  | cons child items ih =>
    rw [DenotesItems] at h
    obtain ⟨obj, rest, rfl, -, hchild, hrest⟩ := h
    exact List.Forall₂.cons hchild (ih hrest)

theorem denotesMembers_forall {members : List (CText × Item D.F)} {objs : List CJson}
    (h : DenotesMembers D members objs) : List.Forall₂ (Denotes D) (members.map Prod.snd) objs := by
  induction members generalizing objs with
  | nil =>
    rw [DenotesMembers] at h
    subst h
    exact List.Forall₂.nil
  | cons member members ih =>
    obtain ⟨name, child⟩ := member
    rw [DenotesMembers] at h
    obtain ⟨obj, rest, rfl, -, hchild, hrest⟩ := h
    exact List.Forall₂.cons hchild (ih hrest)

theorem Denotes.children {item : Item D.F} {obj : CJson} (h : Denotes D item obj) :
    List.Forall₂ (Denotes D) item.children obj.child := by
  cases item with
  | array items =>
    rw [Denotes] at h
    exact denotesItems_forall h.2
  | object members =>
    rw [Denotes] at h
    exact denotesMembers_forall h.2
  | null | bool | number | string =>
    rw [Denotes] at h
    rw [h.2]
    exact List.Forall₂.nil

/-- the first member with a name is seen first -/
theorem denotesMembers_find {members : List (CText × Item D.F)} {objs : List CJson}
    (h : DenotesMembers D members objs) {name : Str} {member : CText × Item D.F}
    (hfind : members.find? (fun m => m.1.bytes.map CJson.tolower = name.map CJson.tolower) = some member) :
    ∃ obj, objs.find? (fun c => c.string.map (List.map CJson.tolower) = some (name.map CJson.tolower)) = some obj ∧
      Denotes D member.2 obj := by
  induction members generalizing objs with
  | nil => cases hfind
  | cons first members ih =>
    obtain ⟨n, child⟩ := first
    rw [DenotesMembers] at h
    obtain ⟨obj, rest, rfl, hstring, hchild, hrest⟩ := h
    by_cases hn : n.bytes.map CJson.tolower = name.map CJson.tolower
    · rw [List.find?_cons_of_pos (by simp [hn])] at hfind
      obtain rfl := Option.some.inj hfind
      exact ⟨obj, List.find?_cons_of_pos (by simp [hstring, hn]), hchild⟩
    · rw [List.find?_cons_of_neg (by simp [hn])] at hfind
      rw [List.find?_cons_of_neg (by simp [hstring, hn])]
      exact ih hrest hfind

/-- the handlers find the member that the item has -/
theorem Denotes.getObjectItem {item child : Item D.F} {obj : CJson} (h : Denotes D item obj) {name : Str}
    (hmember : item.member name = some child) : ∃ o, obj.getObjectItem name = some o ∧ Denotes D child o := by
  cases item with
  | object members =>
    rw [Denotes] at h
    obtain ⟨member, hfind, rfl⟩ := Option.map_eq_some_iff.1 hmember
    exact denotesMembers_find h.2 hfind
  | null | bool | number | string | array => cases hmember

/-! ## Parser and printer as a codec -/

mutual

/-- an item with zeros behind its strings -/
def toCJson (D : Doubles) (name : Option Str) : Item D.F → CJson
  | .null => .mk name none [] 0 .null
  | .bool false => .mk name none [] 0 .false
  | .bool true => .mk name none [] 1 .true
  | .number d => .mk name none [] (D.toInt d) .number
  | .string s => .mk name (some (.ofStr s.bytes s.no_zero)) [] 0 .string
  | .array items => .mk name none (toCJsons D items) 0 .array
  | .object members => .mk name none (toMembers D members) 0 .object

def toCJsons (D : Doubles) : List (Item D.F) → List CJson
  | [] => []
  | child :: items => toCJson D none child :: toCJsons D items

def toMembers (D : Doubles) : List (CText × Item D.F) → List CJson
  | [] => []
  | (name, child) :: members => toCJson D (some name.bytes) child :: toMembers D members

end

theorem toCJson_string (name : Option Str) (item : Item D.F) : (toCJson D name item).string = name := by
  cases item with
  | bool b => cases b <;> (rw [toCJson]; rfl)
  | null | number | string | array | object =>
    rw [toCJson]
    rfl

mutual

theorem denotes_toCJson (name : Option Str) : (item : Item D.F) → Denotes D item (toCJson D name item)
  | .null => by
    rw [Denotes, toCJson]
    exact ⟨⟨rfl, rfl, rfl⟩, rfl⟩
  | .bool false => by
    rw [Denotes, toCJson]
    exact ⟨⟨rfl, rfl, rfl⟩, rfl⟩
  | .bool true => by
    rw [Denotes, toCJson]
    exact ⟨⟨rfl, rfl, rfl⟩, rfl⟩
  | .number d => by
    rw [Denotes, toCJson]
    exact ⟨⟨rfl, rfl, rfl⟩, rfl⟩
  | .string s => by
    rw [Denotes, toCJson]
    exact ⟨⟨congrArg some (text_ofStr s.bytes s.no_zero), rfl, rfl⟩, rfl⟩
  | .array items => by
    rw [Denotes, toCJson]
    exact ⟨⟨rfl, rfl, rfl⟩, denotes_toCJsons items⟩
  | .object members => by
    rw [Denotes, toCJson]
    exact ⟨⟨rfl, rfl, rfl⟩, denotes_toMembers members⟩

theorem denotes_toCJsons : (items : List (Item D.F)) → DenotesItems D items (toCJsons D items)
  | [] => by rw [DenotesItems, toCJsons]
  | child :: items => by
    rw [DenotesItems, toCJsons]
    exact ⟨_, _, rfl, toCJson_string none child, denotes_toCJson none child, denotes_toCJsons items⟩

theorem denotes_toMembers : (members : List (CText × Item D.F)) → DenotesMembers D members (toMembers D members)
  | [] => by rw [DenotesMembers, toMembers]
  | (name, child) :: members => by
    rw [DenotesMembers, toMembers]
    exact ⟨_, _, rfl, toCJson_string _ child, denotes_toCJson _ child, denotes_toMembers members⟩

end

/-- what the handlers get for a text; a crash is null, and a text with a zero is not given to the parser -/
def parseText (D : Doubles) (s : Str) : Option CJson :=
  if h : 0 ∉ s then ((cJSONParse D ⟨s, h⟩).run.bind Except.toOption).map (toCJson D none) else none

theorem parseText_nil (D : Doubles) : parseText D [] = none := rfl

mutual

/-- the item that is seen, if its numbers are ints -/
def fromCJson (D : Doubles) : CJson → Item D.F
  | .mk _ _ _ _ .null => .null
  | .mk _ _ _ _ .false => .bool false
  | .mk _ _ _ _ .true => .bool true
  | .mk _ _ _ n .number => .number (D.ofInt n)
  | .mk _ v _ _ .string => .string (.ofBytes ((v.map CStr.text).getD []))
  | .mk _ _ child _ .array => .array (fromCJsons D child)
  | .mk _ _ child _ .object => .object (fromMembers D child)

def fromCJsons (D : Doubles) : List CJson → List (Item D.F)
  | [] => []
  | obj :: objs => fromCJson D obj :: fromCJsons D objs

def fromMembers (D : Doubles) : List CJson → List (CText × Item D.F)
  | [] => []
  | obj :: objs => (.ofBytes (obj.string.getD []), fromCJson D obj) :: fromMembers D objs

end

mutual

/-- an item whose numbers are ints can be seen whole -/
theorem fromCJson_denotes : (item : Item D.F) → Integral D item → ∀ {obj : CJson}, Denotes D item obj →
    fromCJson D obj = item
  | .null, _, .mk _ _ _ _ t, h => by
    rw [Denotes] at h
    obtain rfl : t = .null := h.1.type
    rw [fromCJson]
  | .bool false, _, .mk _ _ _ _ t, h => by
    rw [Denotes] at h
    obtain rfl : t = .false := h.1.type
    rw [fromCJson]
  | .bool true, _, .mk _ _ _ _ t, h => by
    rw [Denotes] at h
    obtain rfl : t = .true := h.1.type
    rw [fromCJson]
  | .number d, hint, .mk _ _ _ k t, h => by
    rw [Denotes] at h
    rw [Integral] at hint
    obtain ⟨n, hlow, hhigh, rfl⟩ := hint
    obtain rfl : t = .number := h.1.type
    obtain rfl : k = n := h.1.int.trans (D.toInt_ofInt n hlow hhigh)
    rw [fromCJson]
  | .string s, _, .mk _ v _ _ t, h => by
    rw [Denotes] at h
    obtain rfl : t = .string := h.1.type
    have htext : v.map CStr.text = some s.bytes := h.1.text
    rw [fromCJson, htext, Option.getD_some, ofBytes_bytes]
  | .array items, hint, .mk _ _ child _ t, h => by
    rw [Denotes] at h
    rw [Integral] at hint
    obtain rfl : t = .array := h.1.type
    have hchild : fromCJsons D child = items := fromCJsons_denotes items hint h.2
    rw [fromCJson, hchild]
  | .object members, hint, .mk _ _ child _ t, h => by
    rw [Denotes] at h
    rw [Integral] at hint
    obtain rfl : t = .object := h.1.type
    have hchild : fromMembers D child = members := fromMembers_denotes members hint h.2
    rw [fromCJson, hchild]

theorem fromCJsons_denotes : (items : List (Item D.F)) → IntegralItems D items → ∀ {objs : List CJson},
    DenotesItems D items objs → fromCJsons D objs = items
  | [], _, objs, h => by
    rw [DenotesItems] at h
    rw [h, fromCJsons]
  | child :: items, hint, objs, h => by
    rw [DenotesItems] at h
    rw [IntegralItems] at hint
    obtain ⟨obj, rest, rfl, -, hchild, hrest⟩ := h
    rw [fromCJsons, fromCJson_denotes child hint.1 hchild, fromCJsons_denotes items hint.2 hrest]

theorem fromMembers_denotes : (members : List (CText × Item D.F)) → IntegralMembers D members →
    ∀ {objs : List CJson}, DenotesMembers D members objs → fromMembers D objs = members
  | [], _, objs, h => by
    rw [DenotesMembers] at h
    rw [h, fromMembers]
  | (name, child) :: members, hint, objs, h => by
    rw [DenotesMembers] at h
    rw [IntegralMembers] at hint
    obtain ⟨obj, rest, rfl, hstring, hchild, hrest⟩ := h
    rw [fromMembers, hstring, Option.getD_some, ofBytes_bytes, fromCJson_denotes child hint.1 hchild,
      fromMembers_denotes members hint.2 hrest]

end

/-- cJSON as the handlers use it -/
def codecOf (D : Doubles) : Codec :=
  ⟨parseText D, fun obj => (printed D true (fromCJson D obj)).bytes, parseText_nil D⟩

theorem parseText_text (text : CText) :
    parseText D text.bytes = ((cJSONParse D text).run.bind Except.toOption).map (toCJson D none) :=
  dif_pos text.no_zero

theorem isCJson_codecOf (D : Doubles) : IsCJson D (codecOf D) where
  parse_ok text item h := by
    refine ⟨toCJson D none item, ?_, denotes_toCJson none item⟩
    change parseText D text.bytes = _
    rw [parseText_text, h]
    rfl
  parse_error text ep h := by
    change parseText D text.bytes = _
    rw [parseText_text, h]
    rfl
  print_ok item obj hint h := by
    change (printed D true (fromCJson D obj)).bytes = _
    rw [fromCJson_denotes item hint h]

/-- **What is stored is read back.** -/
theorem parse_printed {J : Codec} (hJ : IsCJson D J) {item : Item D.F} (h : Integral D item) :
    ∃ obj, J.parse (printed D true item).bytes = some obj ∧ Denotes D item obj :=
  hJ.parse_ok _ item (cJSONParse_printed true h)

end StoreService.JsonText
