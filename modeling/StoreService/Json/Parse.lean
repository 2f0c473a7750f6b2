/-
`cJSON_Parse` (`cJSON.cpp`).

The text is a C string: what a function still has to read is a list of bytes without a zero, and the end of the list is
the terminator. A function returns what it has read and the text behind it; an error is the place that `ep` points to,
and there is no result where the code reads behind the terminator, writes behind the end of a block or overflows an
int (`Checked`). The recursion is bounded by fuel; two units for each byte are enough.

A string is read in two passes. The first one counts the bytes up to the quote, an escape as one, for the block that the
second one fills. The second one takes an escape `\u` to be followed by four bytes, whatever they are, and can so pass a
quote where the first one has stopped.

`readsValue` and its kin follow the parser and collect the places at which it reads a string or a number; only these
have to be in order (`Sound`), and the text need not be JSON.

- `cJSONParse_responds`: a text is parsed or refused if in each string that the parser meets a `\u` is followed by four
  hex digits and no backslash ends the text, and if no exponent that it meets passes an int.

Texts are shorter than 2 GiB, the range of the `int` that counts the bytes of a string. Recursion that exhausts the
stack is not modelled.
-/
import Mathlib.Tactic
import StoreService.Core.Checked
import StoreService.Json.Print

namespace StoreService.JsonText

open StoreService.Json StoreService.Decimal StoreService.Check

/-! ## Numbers -/

/-- `if (*num==c) num++` -/
def eat (c : UInt8) (num : Str) : Str := if num.head? = some c then num.tail else num

/-- `n=(n*10.0)+(*num++ -'0')` for each digit -/
def accumulate (D : Doubles) (n : D.F) (digits : Str) : D.F :=
  digits.foldl (fun n c => D.add (D.mul n (D.ofInt 10)) (D.ofInt (value c))) n

/-- the digits before the point -/
def wholePart (D : Doubles) (num : Str) : D.F × Str :=
  if num.head?.any fun c => 49 ≤ c && c ≤ 57 then
    (accumulate D (D.ofInt 0) (num.takeWhile isDigit), num.dropWhile isDigit)
  else (D.ofInt 0, num)

/-- point and digits: `n`, `scale` and the rest -/
def fraction (D : Doubles) (n : D.F) (num : Str) : D.F × ℤ × Str :=
  if num.head? = some 46 ∧ num.tail.head?.any isDigit then
    let digits := num.tail.takeWhile isDigit
    (accumulate D n digits, -digits.length, num.tail.dropWhile isDigit)
  else (n, 0, num)

/-- the text behind a sign -/
def unsigned (num : Str) : Str := if num.head? = some 43 ∨ num.head? = some 45 then num.tail else num

/-- `subscale*signsubscale` and the rest; a `subscale` that passes an int is undefined -/
def exponent (num : Str) : Option (ℤ × Str) :=
  if num.head? = some 101 ∨ num.head? = some 69 then
    let digits := unsigned num.tail
    let subscale := (digits.takeWhile isDigit).foldl (fun n c => 10 * n + value c) 0
    if subscale < 2 ^ 31 then
      some (if num.tail.head? = some 45 then -subscale else subscale, digits.dropWhile isDigit)
    else none
  else some (0, num)

/-- `parse_number` -/
def parseNumber (D : Doubles) (num : Str) : Option (D.F × Str) := do
  let sign := if num.head? = some 45 then D.ofInt (-1) else D.ofInt 1
  let (n, num) := wholePart D (eat 48 (eat 45 num))
  let (n, scale, num) := fraction D n num
  let (subscale, num) ← exponent num
  return (D.mul (D.mul sign n) (D.pow10 (scale + subscale)), num)

/-! ## Strings -/

def hexValue (c : UInt8) : Option ℕ :=
  if 48 ≤ c ∧ c ≤ 57 then some (c.toNat - 48)
  else if 65 ≤ c ∧ c ≤ 70 then some (10 + c.toNat - 65)
  else if 97 ≤ c ∧ c ≤ 102 then some (10 + c.toNat - 97)
  else none

/-- `parse_hex4`; 0 for anything but four hex digits -/
def parseHex4 : Str → ℕ
  | a :: b :: c :: d :: _ =>
    match hexValue a, hexValue b, hexValue c, hexValue d with
    | some a, some b, some c, some d => ((((a <<< 4) + b) <<< 4) + c) <<< 4 + d
    | _, _, _, _ => 0
  | _ => 0

def firstByteMark : ℕ → ℕ
  | 2 => 0xC0
  | 3 => 0xE0
  | 4 => 0xF0
  | _ => 0

/-- `len` bytes, written from the last to the first -/
def utf8Bytes (mark : ℕ) : ℕ → ℕ → Str
  | 0, _ => []
  | 1, uc => [UInt8.ofNat (uc ||| mark)]
  | len + 1, uc => utf8Bytes mark len (uc >>> 6) ++ [UInt8.ofNat ((uc ||| 0x80) &&& 0xBF)]

/-- the bytes of a code point -/
def utf8 (uc : ℕ) : Str :=
  let len := if uc < 0x80 then 1 else if uc < 0x800 then 2 else if uc < 0x10000 then 3 else 4
  utf8Bytes (firstByteMark len) len uc

/-- an escape behind `\u`: what is written and the text behind it -/
def parseUnicode (ptr : Str) : Option (Str × Str) :=
  -- the place after the four bytes is read next
  if ptr.length < 4 then none
  else
    let uc := parseHex4 ptr
    let ptr := ptr.drop 4
    if 0xDC00 ≤ uc ∧ uc ≤ 0xDFFF ∨ uc = 0 then some ([], ptr)
    else if 0xD800 ≤ uc ∧ uc ≤ 0xDBFF then
      if ptr.take 2 ≠ [92, 117] then some ([], ptr)
      else
        let ptr := ptr.drop 2
        if ptr.length < 4 then none
        else
          let uc2 := parseHex4 ptr
          let ptr := ptr.drop 4
          if uc2 < 0xDC00 ∨ 0xDFFF < uc2 then some ([], ptr)
          else some (utf8 (0x10000 + (((uc &&& 0x3FF) <<< 10) ||| (uc2 &&& 0x3FF))), ptr)
    else some (utf8 uc, ptr)

/-- an escape behind its backslash -/
def parseEscape : Str → Option (Str × Str)
  | [] => none
  | c :: ptr =>
    if c = 98 then some ([8], ptr)
    else if c = 102 then some ([12], ptr)
    else if c = 110 then some ([10], ptr)
    else if c = 114 then some ([13], ptr)
    else if c = 116 then some ([9], ptr)
    else if c = 117 then parseUnicode ptr
    else some ([c], ptr)

/-- the first pass: `len` -/
def stringLength : Str → Option ℕ
  | [] => some 0
  | c :: ptr =>
    if c = 34 then some 0
    else if c = 92 then
      match ptr with
      | [] => none
      | _ :: ptr => (stringLength ptr).map (· + 1)
    else (stringLength ptr).map (· + 1)

/-- the second pass: what is written to `out`, and the text from the quote or the terminator on -/
def fillString : ℕ → Str → Option (Str × Str)
  | 0, _ => none
  | _ + 1, [] => some ([], [])
  | fuel + 1, c :: ptr =>
    if c = 34 then some ([], c :: ptr)
    else if c ≠ 92 then (fillString fuel ptr).map fun r => (c :: r.1, r.2)
    else do
      let (written, ptr) ← parseEscape ptr
      let (out, ptr) ← fillString fuel ptr
      return (written ++ out, ptr)

/-- `parse_string` -/
def parseString (str : Str) : Checked Str (CText × Str) :=
  if str.head? = some 34 then do
    let len ← need (stringLength str.tail)
    let (out, ptr) ← need (fillString (str.length + 1) str.tail)
    let _ ← need (alloc (len + 1) out)
    return (CText.ofBytes out, eat 34 ptr)
  else throw str

/-! ## Values -/

/-- white space and control bytes -/
def skip (s : Str) : Str := s.dropWhile (· ≤ 32)

mutual

/-- `parse_value` -/
def parseValue (D : Doubles) : ℕ → Str → Checked Str (Item D.F × Str)
  | 0, _ => need none
  | fuel + 1, value =>
    if value.take 4 = bytes "null" then pure (.null, value.drop 4)
    else if value.take 5 = bytes "false" then pure (.bool false, value.drop 5)
    else if value.take 4 = bytes "true" then pure (.bool true, value.drop 4)
    else
      match value with
      | [] => throw []
      | c :: rest =>
        if c = 34 then do
          let (s, rest) ← parseString (c :: rest)
          return (.string s, rest)
        else if c = 45 ∨ isDigit c then do
          let (d, rest) ← need (parseNumber D (c :: rest))
          return (.number d, rest)
        else if c = 91 then
          if (skip rest).head? = some 93 then pure (.array [], (skip rest).tail)
          else do
            let (items, rest) ← parseItems D fuel (skip rest)
            return (.array items, rest)
        else if c = 123 then
          if (skip rest).head? = some 125 then pure (.object [], (skip rest).tail)
          else do
            let (members, rest) ← parseMembers D fuel (skip rest)
            return (.object members, rest)
        else throw (c :: rest)

/-- the loop of `parse_array` from an item on -/
def parseItems (D : Doubles) : ℕ → Str → Checked Str (List (Item D.F) × Str)
  | 0, _ => need none
  | fuel + 1, value => do
    let (child, rest) ← parseValue D fuel (skip value)
    let rest := skip rest
    if rest.head? = some 44 then
      let (items, rest) ← parseItems D fuel rest.tail
      return (child :: items, rest)
    else if rest.head? = some 93 then return ([child], rest.tail)
    else throw rest

/-- the loop of `parse_object` from a name on -/
def parseMembers (D : Doubles) : ℕ → Str → Checked Str (List (CText × Item D.F) × Str)
  | 0, _ => need none
  | fuel + 1, value => do
    let (name, rest) ← parseString (skip value)
    let rest := skip rest
    if rest.head? = some 58 then
      let (child, rest) ← parseValue D fuel (skip rest.tail)
      let rest := skip rest
      if rest.head? = some 44 then
        let (members, rest) ← parseMembers D fuel rest.tail
        return ((name, child) :: members, rest)
      else if rest.head? = some 125 then return ([(name, child)], rest.tail)
      else throw rest
    else throw rest

end

/-- `cJSON_Parse`; what follows the first value is not looked at -/
def cJSONParse (D : Doubles) (text : CText) : Checked Str (Item D.F) := do
  let (item, _) ← parseValue D (2 * text.bytes.length + 1) (skip text.bytes)
  return item

/-! ## Texts that are read within their bounds -/

/-- up to the quote that ends a string, a `\u` is followed by four hex digits, and a backslash by something -/
def wholeEscapes : Str → Bool
  | [] => true
  | c :: ptr =>
    if c = 34 then true
    else if c = 92 then
      match ptr with
      | [] => false
      | e :: ptr =>
        if e = 117 then
          match ptr with
          | a :: b :: c :: d :: ptr => [a, b, c, d].all (fun x => (hexValue x).isSome) && wholeEscapes ptr
          | _ => false
        else wholeEscapes ptr
    else wholeEscapes ptr

/-- the text behind the digits of a number, where the exponent is looked for -/
def mantissaEnd (num : Str) : Str :=
  let num := eat 48 (eat 45 num)
  let num := if num.head?.any fun c => 49 ≤ c && c ≤ 57 then num.dropWhile isDigit else num
  if num.head? = some 46 ∧ num.tail.head?.any isDigit then num.tail.dropWhile isDigit else num

/-- a string has whole escapes, and the exponent of a number fits an int -/
def wholeToken (r : Str) : Bool :=
  if r.head? = some 34 then wholeEscapes r.tail else (exponent (mantissaEnd r)).isSome

/-- what is read behind a part of the text, if this part is accepted -/
def behind {α : Type} (x : Checked Str (α × Str)) (reads : Str → List Str) : List Str :=
  match x.run with
  | some (.ok (_, rest)) => reads rest
  | _ => []

mutual

/-- the places at which `parse_value` reads a string or a number -/
def readsValue (D : Doubles) : ℕ → Str → List Str
  | 0, _ => []
  | fuel + 1, value =>
    if value.take 4 = bytes "null" then []
    else if value.take 5 = bytes "false" then []
    else if value.take 4 = bytes "true" then []
    else
      match value with
      | [] => []
      | c :: rest =>
        if c = 34 then [c :: rest]
        else if c = 45 ∨ isDigit c then [c :: rest]
        else if c = 91 then if (skip rest).head? = some 93 then [] else readsItems D fuel (skip rest)
        else if c = 123 then if (skip rest).head? = some 125 then [] else readsMembers D fuel (skip rest)
        else []

def readsItems (D : Doubles) : ℕ → Str → List Str
  | 0, _ => []
  | fuel + 1, value =>
    readsValue D fuel (skip value) ++ behind (parseValue D fuel (skip value)) fun rest =>
      if (skip rest).head? = some 44 then readsItems D fuel (skip rest).tail else []

def readsMembers (D : Doubles) : ℕ → Str → List Str
  | 0, _ => []
  | fuel + 1, value =>
    (if (skip value).head? = some 34 then [skip value] else []) ++ behind (parseString (skip value)) fun rest =>
      if (skip rest).head? = some 58 then
        readsValue D fuel (skip (skip rest).tail) ++ behind (parseValue D fuel (skip (skip rest).tail)) fun rest =>
          if (skip rest).head? = some 44 then readsMembers D fuel (skip rest).tail else []
      else []

end

/-- the strings and numbers at these places are in order -/
def Whole (places : List Str) : Prop := ∀ r ∈ places, wholeToken r = true

instance (places : List Str) : Decidable (Whole places) := inferInstanceAs (Decidable (∀ r ∈ places, _))

/-- the strings and exponents that the parser meets are in order -/
def Sound (D : Doubles) (text : CText) : Prop := Whole (readsValue D (2 * text.bytes.length + 1) (skip text.bytes))

instance (D : Doubles) (text : CText) : Decidable (Sound D text) := inferInstanceAs (Decidable (Whole _))

theorem whole_append {l l' : List Str} : Whole (l ++ l') ↔ Whole l ∧ Whole l' := List.forall_mem_append

theorem whole_singleton {r : Str} : Whole [r] ↔ wholeToken r = true := List.forall_mem_singleton

theorem behind_ok {α : Type} {x : Checked Str (α × Str)} {a : α} {rest : Str} (h : x.run = some (.ok (a, rest)))
    (reads : Str → List Str) : behind x reads = reads rest := by rw [behind, h]

theorem hexValue_lt : ∀ c : UInt8, ∀ n ∈ hexValue c, n < 16 := by decide +kernel

theorem hexValue_plain : ∀ c : UInt8, (hexValue c).isSome → c ≠ 34 ∧ c ≠ 92 := by decide +kernel

theorem length_utf8Bytes (mark len uc : ℕ) : (utf8Bytes mark len uc).length = len := by
  induction len generalizing uc with
  | zero => rfl
  | succ len ih =>
    cases len with
    | zero => rfl
    | succ len =>
      rw [utf8Bytes, List.length_append, ih, List.length_singleton]
      exact Nat.succ_ne_zero len

theorem length_utf8_le (uc : ℕ) : (utf8 uc).length ≤ 4 := by
  rw [utf8, length_utf8Bytes]
  split_ifs <;> decide

theorem parseHex4_lt (str : Str) : parseHex4 str < 0x10000 := by
  rw [parseHex4.eq_def]
  split
  · split
    · rename_i ha hb hc hd
      have ha := hexValue_lt _ _ ha
      have hb := hexValue_lt _ _ hb
      have hc := hexValue_lt _ _ hc
      have hd := hexValue_lt _ _ hd
      omega
    · decide
  · decide

theorem length_utf8_of_lt {uc : ℕ} (h : uc < 0x10000) : (utf8 uc).length ≤ 3 := by
  rw [utf8, length_utf8Bytes]
  split_ifs <;> omega

theorem wholeEscapes_unicode {t : Str} (h : wholeEscapes (92 :: 117 :: t) = true) :
    ∃ a b c d rest, t = a :: b :: c :: d :: rest ∧ (∀ x ∈ [a, b, c, d], (hexValue x).isSome) ∧
      wholeEscapes rest = true := by
  rw [wholeEscapes.eq_def] at h
  simp only [show (92 : UInt8) ≠ 34 from by decide, if_false, if_true] at h
  split at h
  · rename_i a b c d rest
    rw [Bool.and_eq_true, List.all_eq_true] at h
    exact ⟨a, b, c, d, rest, rfl, h⟩
  · cases h

/-- an escape takes its four bytes, or those of a second one -/
theorem parseUnicode_whole (a b c d : UInt8) {ptr : Str} (hptr : wholeEscapes ptr = true) :
    ∃ written rest, parseUnicode (a :: b :: c :: d :: ptr) = some (written, rest) ∧
      (rest = ptr ∧ written.length ≤ 3 ∨
        ∃ t, ptr = 92 :: 117 :: t ∧ rest = t.drop 4 ∧ written.length ≤ 4) := by
  have hlt := parseHex4_lt (a :: b :: c :: d :: ptr)
  rw [parseUnicode, if_neg (by simp)]
  simp only [List.drop_succ_cons, List.drop_zero]
  by_cases hnext : ptr.take 2 = [92, 117]
  · have hsplit : ptr = 92 :: 117 :: ptr.drop 2 := by
      have happend := List.take_append_drop 2 ptr
      rw [hnext] at happend
      exact happend.symm
    obtain ⟨x, y, z, w, rest, ht, -, -⟩ := wholeEscapes_unicode (hsplit ▸ hptr)
    have hlen : ¬ (ptr.drop 2).length < 4 := by simp [ht]
    simp only [hnext, hlen, not_true_eq_false, ne_eq, if_false]
    split_ifs
    · exact ⟨_, _, rfl, Or.inl ⟨rfl, Nat.zero_le _⟩⟩
    · exact ⟨_, _, rfl, Or.inr ⟨_, hsplit, rfl, Nat.zero_le _⟩⟩
    · exact ⟨_, _, rfl, Or.inr ⟨_, hsplit, rfl, length_utf8_le _⟩⟩
    · exact ⟨_, _, rfl, Or.inl ⟨rfl, length_utf8_of_lt hlt⟩⟩
  · simp only [hnext, not_false_eq_true, ne_eq, if_true]
    split_ifs
    · exact ⟨_, _, rfl, Or.inl ⟨rfl, Nat.zero_le _⟩⟩
    · exact ⟨_, _, rfl, Or.inl ⟨rfl, Nat.zero_le _⟩⟩
    · exact ⟨_, _, rfl, Or.inl ⟨rfl, length_utf8_of_lt hlt⟩⟩

@[simp] theorem stringLength_quote (s : Str) : stringLength (34 :: s) = some 0 := by
  rw [stringLength.eq_def]
  rfl

theorem stringLength_plain {c : UInt8} (hquote : c ≠ 34) (hslash : c ≠ 92) (s : Str) :
    stringLength (c :: s) = (stringLength s).map (· + 1) := by
  rw [stringLength.eq_def]
  simp only [hquote, hslash, if_false]

theorem stringLength_escape (e : UInt8) (s : Str) : stringLength (92 :: e :: s) = (stringLength s).map (· + 1) := by
  rw [stringLength.eq_def]
  rfl

/-- the first pass counts the four hex digits too -/
theorem stringLength_unicode {a b c d : UInt8} (h : ∀ x ∈ [a, b, c, d], (hexValue x).isSome) (s : Str) :
    stringLength (92 :: 117 :: a :: b :: c :: d :: s) = (stringLength s).map (· + 5) := by
  have hplain : ∀ x ∈ [a, b, c, d], ∀ t, stringLength (x :: t) = (stringLength t).map (· + 1) := by
    intro x hx t
    obtain ⟨hquote, hslash⟩ := hexValue_plain x (h x hx)
    exact stringLength_plain hquote hslash t
  rw [stringLength_escape, hplain a (by simp), hplain b (by simp), hplain c (by simp), hplain d (by simp)]
  simp only [Option.map_map]
  rfl

theorem wholeEscapes_plain {c : UInt8} {s : Str} (hquote : c ≠ 34) (hslash : c ≠ 92)
    (h : wholeEscapes (c :: s) = true) : wholeEscapes s = true := by
  rw [wholeEscapes.eq_def] at h
  simpa only [hquote, hslash, if_false] using h

theorem wholeEscapes_escape {e : UInt8} {s : Str} (hu : e ≠ 117) (h : wholeEscapes (92 :: e :: s) = true) :
    wholeEscapes s = true := by
  rw [wholeEscapes.eq_def] at h
  change (if e = 117 then _ else wholeEscapes s) = true at h
  rwa [if_neg hu] at h

theorem fillString_plain {c : UInt8} (hquote : c ≠ 34) (hslash : c ≠ 92) (fuel : ℕ) (s : Str) :
    fillString (fuel + 1) (c :: s) = (fillString fuel s).map fun r => (c :: r.1, r.2) := by
  rw [fillString, if_neg hquote, if_pos hslash]

/-- an escape other than `\u` is one byte -/
theorem parseEscape_letter {e : UInt8} (hu : e ≠ 117) (s : Str) :
    ∃ c, parseEscape (e :: s) = some ([c], s) := by
  rw [parseEscape]
  split_ifs
  all_goals exact ⟨_, rfl⟩

theorem fillString_escape {s rest written : Str} (h : parseEscape s = some (written, rest)) (fuel : ℕ) :
    fillString (fuel + 1) (92 :: s) = (fillString fuel rest).map fun r => (written ++ r.1, r.2) := by
  rw [fillString, if_neg (by decide), if_neg (by decide), h]
  change ((fillString fuel rest).bind fun r => some (written ++ r.1, r.2)) = _
  rw [Option.map_eq_bind]
  rfl

/-- both passes stop at the same place, and the second one has no more to write than the first one has counted -/
def Agree (fuel : ℕ) (s : Str) : Prop :=
  ∃ len out rest, stringLength s = some len ∧ fillString fuel s = some (out, rest) ∧ out.length ≤ len ∧ rest <:+ s

/-- a step of both passes -/
theorem Agree.step {fuel k : ℕ} {s t written : Str} (h : Agree fuel t)
    (hlen : stringLength s = (stringLength t).map (· + k))
    (hfill : fillString (fuel + 1) s = (fillString fuel t).map fun r => (written ++ r.1, r.2))
    (hk : written.length ≤ k) (hs : t <:+ s) : Agree (fuel + 1) s := by
  obtain ⟨len, out, rest, hcount, hout, hle, hrest⟩ := h
  refine ⟨len + k, written ++ out, rest, by rw [hlen, hcount]; rfl, by rw [hfill, hout]; rfl, ?_, hrest.trans hs⟩
  rw [List.length_append]
  omega

/-- **The two passes agree** on a text with whole escapes. -/
theorem agree_of_whole (n : ℕ) : ∀ {s : Str} {fuel : ℕ}, s.length ≤ n → n < fuel → wholeEscapes s = true →
    Agree fuel s := by
  induction n using Nat.strong_induction_on with
  | _ n ih =>
    intro s fuel hn hfuel hs
    obtain ⟨fuel, rfl⟩ := Nat.exists_eq_succ_of_ne_zero (Nat.ne_of_gt (Nat.zero_lt_of_lt hfuel))
    cases s with
    | nil => exact ⟨0, [], [], rfl, rfl, le_rfl, List.suffix_rfl⟩
    | cons c s =>
      rw [List.length_cons] at hn
      by_cases hquote : c = 34
      · subst hquote
        exact ⟨0, [], 34 :: s, stringLength_quote s, rfl, le_rfl, List.suffix_rfl⟩
      by_cases hslash : c = 92
      · subst hslash
        cases s with
        | nil => cases hs
        | cons e t =>
          rw [List.length_cons] at hn
          by_cases hu : e = 117
          · subst hu
            obtain ⟨a, b, c, d, ptr, rfl, hhex, hptr⟩ := wholeEscapes_unicode hs
            have hcount := stringLength_unicode hhex ptr
            obtain ⟨written, rest, hparse, hrest⟩ := parseUnicode_whole a b c d hptr
            have hfill := fillString_escape (s := 117 :: a :: b :: c :: d :: ptr) hparse fuel
            have hsuffix : ptr <:+ 92 :: 117 :: a :: b :: c :: d :: ptr := ⟨[92, 117, a, b, c, d], rfl⟩
            simp only [List.length_cons] at hn
            rcases hrest with ⟨rfl, hwritten⟩ | ⟨t, rfl, rfl, hwritten⟩
            · have hrec : Agree fuel rest := ih (n - 6) (by omega) (by omega) (by omega) hptr
              exact hrec.step hcount hfill (by omega) hsuffix
            · obtain ⟨x, y, z, w, ptr, rfl, hhex2, hptr2⟩ := wholeEscapes_unicode hptr
              simp only [List.length_cons] at hn
              have hrec : Agree fuel ptr := ih (n - 12) (by omega) (by omega) (by omega) hptr2
              have hboth : stringLength (92 :: 117 :: a :: b :: c :: d :: 92 :: 117 :: x :: y :: z :: w :: ptr) =
                  (stringLength ptr).map (· + 10) := by
                rw [hcount, stringLength_unicode hhex2, Option.map_map]
                rfl
              exact hrec.step hboth hfill (by omega) (List.IsSuffix.trans ⟨[92, 117, x, y, z, w], rfl⟩ hsuffix)
          · obtain ⟨w, hw⟩ := parseEscape_letter hu t
            have hrec : Agree fuel t := ih (n - 1) (by omega) (by omega) (by omega) (wholeEscapes_escape hu hs)
            refine hrec.step (stringLength_escape e t) (fillString_escape hw fuel) le_rfl ?_
            exact (List.suffix_cons e t).trans (List.suffix_cons 92 _)
      · have hrec : Agree fuel s := ih (n - 1) (by omega) (by omega) (by omega) (wholeEscapes_plain hquote hslash hs)
        have hfill := fillString_plain hquote hslash fuel s
        have hone : [c].length ≤ 1 := le_rfl
        exact hrec.step (stringLength_plain hquote hslash s) hfill hone (List.suffix_cons c s)

/-! ## The parser responds -/

/-- a function has taken something off the text -/
def Left (text rest : Str) : Prop := rest <:+ text ∧ rest.length < text.length

theorem Left.of_suffix {s t rest : Str} (h : Left t rest) (hs : t <:+ s) : Left s rest :=
  ⟨h.1.trans hs, lt_of_lt_of_le h.2 hs.length_le⟩

theorem Left.shorten {s t rest : Str} (h : Left s rest) (ht : t <:+ rest) : Left s t :=
  ⟨ht.trans h.1, lt_of_le_of_lt ht.length_le h.2⟩

theorem skip_suffix (s : Str) : skip s <:+ s := List.dropWhile_suffix _

theorem eat_suffix (c : UInt8) (s : Str) : eat c s <:+ s := by
  rw [eat]
  split_ifs
  · exact List.tail_suffix s
  · exact List.suffix_rfl

theorem parseString_ensures {str : Str} (h : str.head? = some 34 → wholeToken str = true) :
    Ensures (parseString str) (fun r => Left str r.2) := by
  rw [parseString]
  refine ensures_ite (fun hquote => ?_) (fun _ => ensures_throw _)
  have hwhole := h hquote
  rw [wholeToken, if_pos hquote] at hwhole
  have hlen : str.tail.length < str.length + 1 := by
    rw [List.length_tail]
    omega
  obtain ⟨len, out, rest, hcount, hfill, hle, hrest⟩ := agree_of_whole _ le_rfl hlen hwhole
  simp only [hcount, hfill, alloc_eq (Nat.lt_succ_of_le hle), need_some_bind]
  refine ensures_pure ⟨((eat_suffix 34 rest).trans hrest).trans (List.tail_suffix str), ?_⟩
  have hpos : 0 < str.length := List.length_pos_of_ne_nil (by rintro rfl; cases hquote)
  have hle := ((eat_suffix 34 rest).trans hrest).length_le
  rw [List.length_tail] at hle
  exact lt_of_le_of_lt hle (Nat.sub_lt hpos Nat.one_pos)

variable {D : Doubles}

theorem wholePart_suffix (num : Str) : (wholePart D num).2 <:+ num := by
  rw [wholePart]
  split_ifs
  · exact List.dropWhile_suffix _
  · exact List.suffix_rfl

theorem fraction_suffix (n : D.F) (num : Str) : (fraction D n num).2.2 <:+ num := by
  rw [fraction]
  split_ifs
  · exact (List.dropWhile_suffix _).trans (List.tail_suffix num)
  · exact List.suffix_rfl

theorem unsigned_suffix (num : Str) : unsigned num <:+ num := by
  rw [unsigned]
  split_ifs
  · exact List.tail_suffix num
  · exact List.suffix_rfl

theorem exponent_suffix {num rest : Str} {e : ℤ} (h : exponent num = some (e, rest)) : rest <:+ num := by
  rw [exponent] at h
  by_cases hexp : num.head? = some 101 ∨ num.head? = some 69
  · rw [if_pos hexp] at h
    dsimp only at h
    split at h
    · obtain ⟨-, rfl⟩ := Prod.mk.inj (Option.some.inj h)
      exact (List.dropWhile_suffix _).trans ((unsigned_suffix _).trans (List.tail_suffix num))
    · cases h
  · rw [if_neg hexp] at h
    obtain ⟨-, rfl⟩ := Prod.mk.inj (Option.some.inj h)
    exact List.suffix_rfl

theorem isDigit_cases : ∀ c : UInt8, isDigit c = true → c ≠ 48 → (49 ≤ c && c ≤ 57) = true := by decide +kernel

/-- a sign, a zero or the first of the digits is taken off -/
theorem wholePart_tail {c : UInt8} (hc : c = 45 ∨ isDigit c = true) (rest : Str) :
    (wholePart D (eat 48 (eat 45 (c :: rest)))).2 <:+ rest := by
  by_cases hminus : c = 45
  · subst hminus
    exact (wholePart_suffix _).trans (eat_suffix 48 rest)
  have hdigit : isDigit c = true := hc.resolve_left hminus
  have hkeep : eat 45 (c :: rest) = c :: rest := if_neg (by simpa using hminus)
  rw [hkeep]
  by_cases hzero : c = 48
  · subst hzero
    exact wholePart_suffix rest
  · have hkeep0 : eat 48 (c :: rest) = c :: rest := if_neg (by simpa using hzero)
    have hstart : ((c :: rest).head?.any fun c => 49 ≤ c && c ≤ 57) = true := isDigit_cases c hdigit hzero
    rw [hkeep0, wholePart, if_pos hstart, List.dropWhile_cons_of_pos hdigit]
    exact List.dropWhile_suffix _

theorem mantissaEnd_eq (num : Str) : (fraction D (wholePart D (eat 48 (eat 45 num))).1
    (wholePart D (eat 48 (eat 45 num))).2).2.2 = mantissaEnd num := by
  have hwhole : ∀ s, (wholePart D s).2 = if s.head?.any fun c => 49 ≤ c && c ≤ 57 then s.dropWhile isDigit else s := by
    intro s
    rw [wholePart]
    split_ifs <;> rfl
  rw [mantissaEnd, fraction, hwhole]
  split_ifs <;> rfl

theorem not_quote_of_number : ∀ c : UInt8, c = 45 ∨ isDigit c = true → c ≠ 34 := by decide +kernel

theorem parseNumber_ensures {c : UInt8} {rest : Str} (hc : c = 45 ∨ isDigit c = true)
    (h : wholeToken (c :: rest) = true) :
    Ensures (need (parseNumber D (c :: rest)) : Checked Str _) (fun r => Left (c :: rest) r.2) := by
  have htail : (fraction D (wholePart D (eat 48 (eat 45 (c :: rest)))).1
      (wholePart D (eat 48 (eat 45 (c :: rest)))).2).2.2 <:+ rest :=
    (fraction_suffix _ _).trans (wholePart_tail hc rest)
  have hquote : ¬ (c :: rest).head? = some 34 := fun hq => not_quote_of_number c hc (Option.some.inj hq)
  rw [wholeToken, if_neg hquote, ← mantissaEnd_eq (D := D)] at h
  obtain ⟨⟨e, num⟩, he⟩ := Option.isSome_iff_exists.1 h
  have hnum := (exponent_suffix he).trans htail
  rw [parseNumber]
  simp only [he]
  refine ensures_need rfl ⟨hnum.trans (List.suffix_cons c rest), ?_⟩
  exact Nat.lt_succ_of_le hnum.length_le

/-- what a round of the three functions needs and ensures -/
structure Total (D : Doubles) (fuel : ℕ) : Prop where
  value : ∀ s, Whole (readsValue D fuel s) → 2 * s.length + 1 ≤ fuel →
    Ensures (parseValue D fuel s) (fun r => Left s r.2)
  items : ∀ s, Whole (readsItems D fuel s) → 2 * s.length + 2 ≤ fuel →
    Ensures (parseItems D fuel s) (fun r => Left s r.2)
  members : ∀ s, Whole (readsMembers D fuel s) → 2 * s.length + 2 ≤ fuel →
    Ensures (parseMembers D fuel s) (fun r => Left s r.2)

variable {fuel : ℕ} {s : Str}

theorem parseItems_ensures (h : Total D fuel) (hs : Whole (readsItems D (fuel + 1) s))
    (hfuel : 2 * s.length + 2 ≤ fuel + 1) : Ensures (parseItems D (fuel + 1) s) (fun r => Left s r.2) := by
  have hskip := skip_suffix s
  have hlen := hskip.length_le
  rw [readsItems, whole_append] at hs
  obtain ⟨hvalue, hnext⟩ := hs
  rw [parseItems]
  refine (h.value (skip s) hvalue (by omega)).returned.bind ?_
  rintro ⟨child, rest⟩ ⟨hrest, hrun⟩
  rw [behind_ok hrun] at hnext
  have hleft : Left s (skip rest).tail :=
    (hrest.of_suffix hskip).shorten ((List.tail_suffix _).trans (skip_suffix rest))
  have hlt := hleft.2
  refine ensures_ite (fun hcomma => ?_) fun _ => ensures_ite (fun _ => ?_) fun _ => ensures_throw _
  · rw [if_pos hcomma] at hnext
    refine (h.items _ hnext (by omega)).bind ?_
    rintro ⟨items, rest⟩ hitems
    exact ensures_pure (hitems.of_suffix hleft.1)
  · exact ensures_pure hleft

theorem parseMembers_ensures (h : Total D fuel) (hs : Whole (readsMembers D (fuel + 1) s))
    (hfuel : 2 * s.length + 2 ≤ fuel + 1) : Ensures (parseMembers D (fuel + 1) s) (fun r => Left s r.2) := by
  have hskip := skip_suffix s
  rw [readsMembers, whole_append] at hs
  obtain ⟨hstring, hmember⟩ := hs
  have hquote : (skip s).head? = some 34 → wholeToken (skip s) = true := fun hq => by
    rw [if_pos hq] at hstring
    exact whole_singleton.1 hstring
  rw [parseMembers]
  refine (parseString_ensures hquote).returned.bind ?_
  rintro ⟨name, rest⟩ ⟨hname, hrun⟩
  rw [behind_ok hrun] at hmember
  have hleft : Left s (skip (skip rest).tail) := (hname.of_suffix hskip).shorten
    ((skip_suffix _).trans ((List.tail_suffix _).trans (skip_suffix rest)))
  have hlt := hleft.2
  refine ensures_ite (fun hcolon => ?_) fun _ => ensures_throw _
  rw [if_pos hcolon, whole_append] at hmember
  obtain ⟨hvalue, hnext⟩ := hmember
  refine (h.value _ hvalue (by omega)).returned.bind ?_
  rintro ⟨child, rest⟩ ⟨hchild, hrun⟩
  rw [behind_ok hrun] at hnext
  have hleft' : Left s (skip rest).tail :=
    (hchild.of_suffix hleft.1).shorten ((List.tail_suffix _).trans (skip_suffix rest))
  have hlt := hleft'.2
  refine ensures_ite (fun hcomma => ?_) fun _ => ensures_ite (fun _ => ?_) fun _ => ensures_throw _
  · rw [if_pos hcomma] at hnext
    refine (h.members _ hnext (by omega)).bind ?_
    rintro ⟨members, rest⟩ hmembers
    exact ensures_pure (hmembers.of_suffix hleft'.1)
  · exact ensures_pure hleft'

theorem left_drop {w : Str} {n : ℕ} (hn : n = w.length) (hw : w ≠ []) (h : s.take n = w) :
    Left s (s.drop n) := by
  have hlen : 0 < w.length := List.length_pos_of_ne_nil hw
  have htake := congrArg List.length h
  rw [List.length_take] at htake
  refine ⟨List.drop_suffix n s, ?_⟩
  rw [List.length_drop]
  omega

theorem parseValue_ensures (h : Total D fuel) (hs : Whole (readsValue D (fuel + 1) s))
    (hfuel : 2 * s.length + 1 ≤ fuel + 1) : Ensures (parseValue D (fuel + 1) s) (fun r => Left s r.2) := by
  rw [readsValue.eq_def] at hs
  rw [parseValue.eq_def]
  dsimp only at hs ⊢
  refine ensures_ite (fun hw => ensures_pure (left_drop rfl (by decide) hw)) fun hnull => ?_
  refine ensures_ite (fun hw => ensures_pure (left_drop rfl (by decide) hw)) fun hfalse => ?_
  refine ensures_ite (fun hw => ensures_pure (left_drop rfl (by decide) hw)) fun htrue => ?_
  rw [if_neg hnull, if_neg hfalse, if_neg htrue] at hs
  cases s with
  | nil => exact ensures_throw _
  | cons c rest =>
    have hcons : rest <:+ c :: rest := List.suffix_cons c rest
    have hskip : skip rest <:+ c :: rest := (skip_suffix rest).trans hcons
    have hlen := (skip_suffix rest).length_le
    have htail : Left (c :: rest) (skip rest).tail := by
      refine ⟨(List.tail_suffix _).trans hskip, ?_⟩
      exact Nat.lt_succ_of_le ((List.tail_suffix _).trans (skip_suffix rest)).length_le
    rw [List.length_cons] at hfuel
    dsimp only at hs ⊢
    refine ensures_ite (fun hquote => ?_) fun hquote => ?_
    · rw [if_pos hquote] at hs
      refine (parseString_ensures fun _ => whole_singleton.1 hs).bind ?_
      rintro ⟨str, rest⟩ hstr
      exact ensures_pure hstr
    rw [if_neg hquote] at hs
    refine ensures_ite (fun hc => ?_) fun hc => ?_
    · rw [if_pos hc] at hs
      refine (parseNumber_ensures hc (whole_singleton.1 hs)).bind ?_
      rintro ⟨d, rest⟩ hd
      exact ensures_pure hd
    rw [if_neg hc] at hs
    refine ensures_ite (fun harray => ?_) fun harray => ?_
    · rw [if_pos harray] at hs
      refine ensures_ite (fun _ => ensures_pure htail) fun hempty => ?_
      rw [if_neg hempty] at hs
      refine (h.items _ hs (by omega)).bind ?_
      rintro ⟨items, rest⟩ hitems
      exact ensures_pure (hitems.of_suffix hskip)
    rw [if_neg harray] at hs
    refine ensures_ite (fun hobject => ?_) fun _ => ensures_throw _
    rw [if_pos hobject] at hs
    refine ensures_ite (fun _ => ensures_pure htail) fun hempty => ?_
    rw [if_neg hempty] at hs
    refine (h.members _ hs (by omega)).bind ?_
    rintro ⟨members, rest⟩ hmembers
    exact ensures_pure (hmembers.of_suffix hskip)

theorem total (D : Doubles) (fuel : ℕ) : Total D fuel := by
  induction fuel with
  | zero => exact ⟨fun s _ h => absurd h (by omega), fun s _ h => absurd h (by omega), fun s _ h => absurd h (by omega)⟩
  | succ fuel ih =>
    exact ⟨fun s hs h => parseValue_ensures ih hs h, fun s hs h => parseItems_ensures ih hs h,
      fun s hs h => parseMembers_ensures ih hs h⟩

/-- **Parsing is safe.** A text is parsed or refused if the strings that the parser meets have whole escapes and the
exponents that it meets fit an int. -/
theorem cJSONParse_responds (D : Doubles) (text : CText) (h : Sound D text) : Responds (cJSONParse D text) := by
  have hlen := (skip_suffix text.bytes).length_le
  refine (((total D _).value _ h (by omega)).bind (R := fun _ => True) ?_).1
  rintro ⟨item, rest⟩ _
  exact ensures_pure trivial

/-- an object that is not closed, with escapes of both kinds, an exponent, and what looks like one in a string -/
def openObject : CText :=
  .ofBytes (bytes "\x7b\"name\":\"device12345678901 \\u4e2d\\n\",\"level\":[-1.5e+3,\"\\ud83d\\ude00\"]")

theorem cJSONParse_responds_open : Sound rationals openObject ∧ Responds (cJSONParse rationals openObject) := by
  have hsound : Sound rationals openObject := by decide +kernel
  exact ⟨hsound, cJSONParse_responds rationals openObject hsound⟩

end StoreService.JsonText
