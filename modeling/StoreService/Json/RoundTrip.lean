/-
What is printed is parsed back (`cJSON.cpp`).

The texts of items are read from the left. A string ends at its own quote, since each quote in it is escaped; a number
ends where no digit, point or exponent follows (`Follows`), and the printer puts a comma, a bracket or a newline there.
Tabs, newlines and the blank behind a comma are skipped before a value or a name.

- `parseValue_text`: an item whose numbers are ints is parsed back from its text, whatever follows.
- `parse_print`: so `cJSON_Parse` undoes `cJSON_Print` and `cJSON_PrintUnformatted`.

A number that is no int is printed with six digits behind the point, and its text need not give it back.
-/
import Mathlib.Tactic
import Mathlib.Data.List.DropRight
import StoreService.Json.Parse

namespace StoreService.JsonText

open StoreService.Json StoreService.Decimal StoreService.Check

variable {D : Doubles}

/-! ## Strings -/

theorem special_of_plain : ∀ c : UInt8, c ≠ 0 → special c = false → escapeByte c = [c] := by decide +kernel

theorem stringText_eq (s : CText) : stringText s = 34 :: (s.bytes.flatMap escapeByte ++ [34]) := by
  rw [stringText]
  split_ifs with h
  · rfl
  · have hplain : ∀ c ∈ s.bytes, escapeByte c = [c] := by
      intro c hc
      refine special_of_plain c (fun h0 => s.no_zero (h0 ▸ hc)) ?_
      rw [Bool.not_eq_true, List.any_eq_false] at h
      exact Bool.eq_false_iff.2 (h c hc)
    have hself : s.bytes.flatMap escapeByte = s.bytes := by
      rw [List.flatMap_congr hplain, List.flatMap_singleton']
    rw [hself]

theorem utf8_of_lt {uc : ℕ} (h : uc < 128) : utf8 uc = [UInt8.ofNat uc] := by
  rw [utf8, if_pos h]
  simp [utf8Bytes, firstByteMark]

theorem parseHex4_four (a b c d : UInt8) (s : Str) : parseHex4 (a :: b :: c :: d :: s) = parseHex4 [a, b, c, d] := rfl

theorem parseHex4_hexText : ∀ c : UInt8, parseHex4 (hexText c).tail = c.toNat := by decide +kernel

theorem parseEscape_unicode (s : Str) : parseEscape (117 :: s) = parseUnicode s := rfl

theorem parseUnicode_hexText {c : UInt8} (h0 : c ≠ 0) (hc : c < 32) (s : Str) :
    parseUnicode ((hexText c).tail ++ s) = some ([c], s) := by
  have hhex : parseHex4 ((hexText c).tail ++ s) = c.toNat := by
    rw [← parseHex4_hexText c]
    exact parseHex4_four _ _ _ _ s
  have hlt : c.toNat < 32 := UInt8.lt_iff_toNat_lt.1 hc
  have hne : c.toNat ≠ 0 := fun h => h0 (UInt8.toNat_inj.1 h)
  rw [parseUnicode, hhex, if_neg (by simp [hexText]), if_neg (by omega), if_neg (by omega),
    utf8_of_lt (by omega), UInt8.ofNat_toNat]
  rfl

theorem parseEscape_escapeLetter {c e : UInt8} (h : escapeLetter c = some e) (s : Str) :
    parseEscape (e :: s) = some ([c], s) := by
  unfold escapeLetter at h
  split_ifs at h
  all_goals
    subst_vars
    obtain rfl := Option.some.inj h
    rfl

theorem hexValue_hexDigit {d : ℕ} (h : d < 16) : (hexValue (hexDigit d)).isSome := by
  interval_cases d <;> decide

theorem hexValue_hexText (c : UInt8) : ∀ x ∈ (hexText c).tail, (hexValue x).isSome := by
  have hlt : c.toNat < 256 := c.toNat_lt
  intro x hx
  simp only [hexText, List.tail_cons, List.mem_cons, List.not_mem_nil, or_false] at hx
  rcases hx with rfl | rfl | rfl | rfl
  · decide
  · decide
  · exact hexValue_hexDigit (by omega)
  · exact hexValue_hexDigit (by omega)

theorem lt_of_escapeLetter_none : ∀ c : UInt8, ¬ (31 < c ∧ c ≠ 34 ∧ c ≠ 92) → escapeLetter c = none → c < 32 := by
  decide +kernel

/-- how both passes take a piece of a string: it counts for `k`, and bytes are written for it -/
structure Taken (written text : Str) (k : ℕ) : Prop where
  some_text : text ≠ []
  le : written.length ≤ k
  count : ∀ s, stringLength (text ++ s) = (stringLength s).map (· + k)
  fill : ∀ fuel s, fillString (fuel + 1) (text ++ s) = (fillString fuel s).map fun r => (written ++ r.1, r.2)

theorem taken_plain {c : UInt8} (hquote : c ≠ 34) (hslash : c ≠ 92) : Taken [c] [c] 1 :=
  ⟨List.cons_ne_nil _ _, le_rfl, stringLength_plain hquote hslash, fillString_plain hquote hslash⟩

theorem taken_letter {c e : UInt8} (h : ∀ s, parseEscape (e :: s) = some ([c], s)) : Taken [c] [92, e] 1 :=
  ⟨List.cons_ne_nil _ _, le_rfl, stringLength_escape e, fun fuel s => fillString_escape (h s) fuel⟩

theorem taken_unicode {written : Str} {a b c d : UInt8} (hhex : ∀ x ∈ [a, b, c, d], (hexValue x).isSome)
    (hle : written.length ≤ 5) (h : ∀ s, parseUnicode (a :: b :: c :: d :: s) = some (written, s)) :
    Taken written (92 :: 117 :: [a, b, c, d]) 5 :=
  ⟨List.cons_ne_nil _ _, hle, stringLength_unicode hhex,
    fun fuel s => fillString_escape ((parseEscape_unicode _).trans (h s)) fuel⟩

theorem taken_escapeByte {c : UInt8} (h0 : c ≠ 0) : ∃ k, Taken [c] (escapeByte c) k := by
  rw [escapeByte]
  split_ifs with hplain
  · exact ⟨1, taken_plain hplain.2.1 hplain.2.2⟩
  · cases hletter : escapeLetter c with
    | some e => exact ⟨1, taken_letter (parseEscape_escapeLetter hletter)⟩
    | none =>
      have hlow := lt_of_escapeLetter_none c hplain hletter
      exact ⟨5, taken_unicode (hexValue_hexText c) (Nat.le_add_left 1 4) (parseUnicode_hexText h0 hlow)⟩

/-- a string in pieces: the bytes of each one and its text -/
theorem passes_pieces {pieces : List (Str × Str)} (h : ∀ p ∈ pieces, ∃ k, Taken p.1 p.2 k) (rest : Str) :
    (∃ len, (pieces.flatMap Prod.fst).length ≤ len ∧
        stringLength (pieces.flatMap Prod.snd ++ 34 :: rest) = some len) ∧
      ∀ fuel, pieces.length < fuel →
        fillString fuel (pieces.flatMap Prod.snd ++ 34 :: rest) = some (pieces.flatMap Prod.fst, 34 :: rest) := by
  induction pieces with
  | nil =>
    refine ⟨⟨0, le_rfl, stringLength_quote rest⟩, fun fuel hfuel => ?_⟩
    obtain ⟨fuel, rfl⟩ := Nat.exists_eq_succ_of_ne_zero hfuel.ne'
    rfl
  | cons p pieces ih =>
    obtain ⟨k, hk⟩ := h p List.mem_cons_self
    obtain ⟨⟨len, hle, hcount⟩, hfill⟩ := ih fun q hq => h q (List.mem_cons_of_mem _ hq)
    rw [List.flatMap_cons, List.flatMap_cons, List.append_assoc]
    constructor
    · refine ⟨len + k, ?_, by rw [hk.count, hcount]; rfl⟩
      have hwritten := hk.le
      rw [List.length_append]
      omega
    · intro fuel hfuel
      obtain ⟨fuel, rfl⟩ := Nat.exists_eq_succ_of_ne_zero (Nat.ne_of_gt (Nat.zero_lt_of_lt hfuel))
      rw [hk.fill, hfill fuel (Nat.lt_of_succ_lt_succ hfuel)]
      rfl

theorem length_pieces_le {pieces : List (Str × Str)} (h : ∀ p ∈ pieces, ∃ k, Taken p.1 p.2 k) :
    pieces.length ≤ (pieces.flatMap Prod.snd).length := by
  induction pieces with
  | nil => exact le_rfl
  | cons p pieces ih =>
    obtain ⟨k, hk⟩ := h p List.mem_cons_self
    have hpos := List.length_pos_of_ne_nil hk.some_text
    have hrest := ih fun q hq => h q (List.mem_cons_of_mem _ hq)
    rw [List.flatMap_cons, List.length_append, List.length_cons]
    omega

/-- **A string is read piece by piece**, whatever follows. -/
theorem parseString_pieces {pieces : List (Str × Str)} (h : ∀ p ∈ pieces, ∃ k, Taken p.1 p.2 k) (rest : Str) :
    parseString (34 :: (pieces.flatMap Prod.snd ++ 34 :: rest)) =
      pure (CText.ofBytes (pieces.flatMap Prod.fst), rest) := by
  obtain ⟨⟨len, hle, hcount⟩, hfill⟩ := passes_pieces h rest
  have hfuel : pieces.length < (34 :: (pieces.flatMap Prod.snd ++ 34 :: rest)).length + 1 := by
    have hlen := length_pieces_le h
    rw [List.length_cons, List.length_append]
    omega
  rw [parseString, List.head?_cons, if_pos rfl, List.tail_cons, hcount, hfill _ hfuel, need_some_bind, need_some_bind]
  dsimp only
  rw [alloc_eq (Nat.lt_succ_of_le hle), need_some_bind]
  rfl

theorem ofBytes_bytes (s : CText) : CText.ofBytes s.bytes = s := by
  have hself : s.bytes.takeWhile (· ≠ 0) = s.bytes := by
    rw [List.takeWhile_eq_self_iff]
    intro c hc
    exact decide_eq_true fun h0 => s.no_zero (h0 ▸ hc)
  cases s
  exact CText.mk.injEq .. ▸ hself

/-- a string is read back from its text -/
theorem parseString_text (s : CText) (rest : Str) : parseString (stringText s ++ rest) = pure (s, rest) := by
  have hpieces : ∀ p ∈ s.bytes.map fun c => ([c], escapeByte c), ∃ k, Taken p.1 p.2 k := by
    intro p hp
    obtain ⟨c, hc, rfl⟩ := List.mem_map.1 hp
    exact taken_escapeByte fun h0 => s.no_zero (h0 ▸ hc)
  have hparse := parseString_pieces hpieces rest
  simp only [List.flatMap_map, List.flatMap_singleton', ofBytes_bytes] at hparse
  rw [stringText_eq, List.cons_append, List.append_assoc]
  exact hparse

/-! ## Numbers -/

/-- no number goes on here -/
def Follows (rest : Str) : Prop := ∀ c ∈ rest.head?, isDigit c = false ∧ c ≠ 46 ∧ c ≠ 101 ∧ c ≠ 69

/-- one more digit -/
theorem accumulate_digit {m d : ℕ} (hd : d < 10) (hle : 10 * m + d ≤ 2 ^ 31) :
    D.add (D.mul (D.ofInt m) (D.ofInt 10)) (D.ofInt (value (digit d))) = D.ofInt (10 * m + d : ℕ) := by
  have habs : |(m : ℤ) * 10| ≤ 2 ^ 53 := by
    rw [abs_of_nonneg (by omega)]
    omega
  rw [D.mul_ofInt _ _ (Or.inl ⟨by omega, by omega⟩) habs, value_digit hd,
    D.add_ofInt _ _ (by omega) (by omega) (by omega)]
  congr 1
  push_cast
  ring

theorem accumulate_decimal {n : ℕ} (hn : n ≤ 2 ^ 31) : accumulate D (D.ofInt 0) (decimal n) = D.ofInt n := by
  have hzero : D.ofInt 0 = D.ofInt (0 : ℕ) := by rw [Nat.cast_zero]
  rw [accumulate, hzero]
  exact foldl_decimal (fun n => D.ofInt n) (2 ^ 31) (fun _ _ => accumulate_digit) hn

/-- digits that do not start with a zero, as the whole part -/
theorem wholePart_decimal {n : ℕ} (hpos : 0 < n) (hn : n ≤ 2 ^ 31) {rest : Str} (h : Follows rest) :
    wholePart D (decimal n ++ rest) = (D.ofInt n, rest) := by
  have hrest : ∀ c ∈ rest.head?, isDigit c = false := fun c hc => (h c hc).1
  obtain ⟨d, t, hd10, hd, ht⟩ := decimal_head n
  have hstart : ((decimal n ++ rest).head?.any fun c => 49 ≤ c && c ≤ 57) = true := by
    rw [ht]
    exact isDigit_cases _ (isDigit_digit hd10) (digit_ne_zero hd10 (hd hpos).ne')
  rw [wholePart, if_pos hstart, takeWhile_decimal hrest, dropWhile_decimal hrest, accumulate_decimal hn]

/-- where no number goes on there is no fraction and no exponent -/
theorem fraction_follows {rest : Str} (h : Follows rest) (n : D.F) : fraction D n rest = (n, 0, rest) := by
  refine if_neg fun hpoint => ?_
  exact (h 46 hpoint.1).2.1 rfl

theorem exponent_follows {rest : Str} (h : Follows rest) : exponent rest = some (0, rest) := by
  refine if_neg fun hexp => ?_
  rcases hexp with he | hE
  · exact (h 101 he).2.2.1 rfl
  · exact (h 69 hE).2.2.2 rfl

/-- what is left of `parse_number` once the whole part is read -/
theorem parseNumber_follows {num rest : Str} {n : D.F} (h : Follows rest)
    (hwhole : wholePart D (eat 48 (eat 45 num)) = (n, rest)) :
    parseNumber D num =
      some (D.mul (D.mul (if num.head? = some 45 then D.ofInt (-1) else D.ofInt 1) n) (D.ofInt 1), rest) := by
  rw [parseNumber, ← D.pow10_zero]
  simp only [hwhole, fraction_follows h, exponent_follows h]
  rfl

theorem isDigit_of_start : ∀ c : UInt8, (49 ≤ c && c ≤ 57) = true → isDigit c = true := by decide +kernel

theorem wholePart_follows {rest : Str} (h : Follows rest) : wholePart D rest = (D.ofInt 0, rest) := by
  refine if_neg ?_
  cases rest with
  | nil => decide
  | cons c s =>
    intro hstart
    have hdigit := isDigit_of_start c hstart
    rw [(h c rfl).1] at hdigit
    cases hdigit

theorem head_decimal_ne {c : UInt8} {n : ℕ} (hpos : 0 < n) (hc : c = 48 ∨ isDigit c = false) (rest : Str) :
    (decimal n ++ rest).head? ≠ some c := by
  obtain ⟨d, t, hd10, hd, ht⟩ := decimal_head n
  intro hhead
  rw [ht] at hhead
  obtain rfl : digit d = c := Option.some.inj hhead
  rcases hc with hc | hc
  · exact digit_ne_zero hd10 (hd hpos).ne' hc
  · rw [isDigit_digit hd10] at hc
    cases hc

theorem eat_decimal {c : UInt8} {n : ℕ} (hpos : 0 < n) (hc : c = 48 ∨ isDigit c = false) (rest : Str) :
    eat c (decimal n ++ rest) = decimal n ++ rest := if_neg (head_decimal_ne hpos hc rest)

theorem one_mul_ofInt {m : ℤ} (h0 : 0 ≤ m) (h : m ≤ 2 ^ 31) : D.mul (D.ofInt 1) (D.ofInt m) = D.ofInt m := by
  have habs : |1 * m| ≤ 2 ^ 53 := by
    rw [one_mul, abs_of_nonneg h0]
    omega
  rw [D.mul_ofInt 1 m (Or.inl ⟨by decide, h0⟩) habs, one_mul]

theorem mul_one_ofInt {m : ℤ} (hlow : -2 ^ 31 ≤ m) (hhigh : m < 2 ^ 31) :
    D.mul (D.ofInt m) (D.ofInt 1) = D.ofInt m := by
  have habs : |m * 1| ≤ 2 ^ 53 := by
    rw [mul_one, abs_le]
    omega
  have hsign : 0 ≤ m ∧ (0 : ℤ) ≤ 1 ∨ m ≠ 0 ∧ (1 : ℤ) ≠ 0 := by omega
  rw [D.mul_ofInt m 1 hsign habs, mul_one]

/-- the sign is put to the digits -/
theorem neg_mul_ofInt {n : ℤ} (hlow : -2 ^ 31 ≤ n) (hneg : n < 0) :
    D.mul (D.ofInt (-1)) (D.ofInt n.natAbs) = D.ofInt n := by
  have hprod : -1 * (n.natAbs : ℤ) = n := by omega
  have habs : |-1 * (n.natAbs : ℤ)| ≤ 2 ^ 53 := by
    rw [hprod, abs_of_neg hneg]
    omega
  rw [D.mul_ofInt _ _ (Or.inr ⟨by decide, by omega⟩) habs, hprod]

/-- **An int is read back.** -/
theorem parseNumber_intText {n : ℤ} (hlow : -2 ^ 31 ≤ n) (hhigh : n < 2 ^ 31) {rest : Str} (h : Follows rest) :
    parseNumber D (intText n ++ rest) = some (D.ofInt n, rest) := by
  rcases lt_trichotomy n 0 with hneg | rfl | hpos
  · have htext : intText n ++ rest = 45 :: (decimal n.natAbs ++ rest) := by
      rw [intText, if_pos hneg]
      rfl
    have hwhole : wholePart D (eat 48 (eat 45 (45 :: (decimal n.natAbs ++ rest)))) = (D.ofInt n.natAbs, rest) := by
      have heat : eat 45 (45 :: (decimal n.natAbs ++ rest)) = decimal n.natAbs ++ rest := rfl
      rw [heat, eat_decimal (by omega) (Or.inl rfl), wholePart_decimal (by omega) (by omega) h]
    rw [htext, parseNumber_follows h hwhole, List.head?_cons, if_pos rfl, neg_mul_ofInt hlow hneg,
      mul_one_ofInt hlow hhigh]
  · have htext : intText 0 ++ rest = 48 :: rest := rfl
    have hwhole : wholePart D (eat 48 (eat 45 (48 :: rest))) = (D.ofInt 0, rest) := wholePart_follows h
    rw [htext, parseNumber_follows h hwhole, List.head?_cons, if_neg (by decide), one_mul_ofInt le_rfl (by decide),
      mul_one_ofInt hlow hhigh]
  · have htext : intText n = decimal n.toNat := if_neg (by omega)
    have hval : (n.toNat : ℤ) = n := by omega
    have hwhole : wholePart D (eat 48 (eat 45 (decimal n.toNat ++ rest))) = (D.ofInt n, rest) := by
      rw [eat_decimal (by omega) (Or.inr rfl), eat_decimal (by omega) (Or.inl rfl),
        wholePart_decimal (by omega) (by omega) h, hval]
    have hhead := head_decimal_ne (n := n.toNat) (by omega) (Or.inr rfl : (45 : UInt8) = 48 ∨ isDigit 45 = false) rest
    rw [htext, parseNumber_follows h hwhole, if_neg hhead, one_mul_ofInt (by omega) (by omega),
      mul_one_ofInt hlow hhigh]

/-! ## Values -/

/-- the number is an int -/
def IsInt (D : Doubles) (d : D.F) : Prop := ∃ n : ℤ, -2 ^ 31 ≤ n ∧ n < 2 ^ 31 ∧ d = D.ofInt n

mutual

/-- all numbers are ints -/
def Integral (D : Doubles) : Item D.F → Prop
  | .number d => IsInt D d
  | .array items => IntegralItems D items
  | .object members => IntegralMembers D members
  | .null | .bool _ | .string _ => True

def IntegralItems (D : Doubles) : List (Item D.F) → Prop
  | [] => True
  | child :: items => Integral D child ∧ IntegralItems D items

def IntegralMembers (D : Doubles) : List (CText × Item D.F) → Prop
  | [] => True
  | (_, child) :: members => Integral D child ∧ IntegralMembers D members

end

/-! Blanks -/

theorem skip_cons {c : UInt8} (h : ¬ c ≤ 32) (s : Str) : skip (c :: s) = c :: s :=
  List.dropWhile_cons_of_neg (by simpa using h)

theorem skip_blanks {ws : Str} (h : ∀ c ∈ ws, c ≤ 32) (s : Str) : skip (ws ++ s) = skip s :=
  List.dropWhile_append_of_pos fun c hc => decide_eq_true (h c hc)

theorem skip_skip (s : Str) : skip (skip s) = skip s := List.dropWhile_idempotent _ s

theorem parseItems_skip (fuel : ℕ) (s : Str) : parseItems D fuel (skip s) = parseItems D fuel s := by
  cases fuel with
  | zero => rfl
  | succ fuel => rw [parseItems, parseItems, skip_skip]

theorem parseMembers_skip (fuel : ℕ) (s : Str) : parseMembers D fuel (skip s) = parseMembers D fuel s := by
  cases fuel with
  | zero => rfl
  | succ fuel => rw [parseMembers, parseMembers, skip_skip]

/-- a text that starts a value -/
def Starts (text : Str) : Prop := ∃ c s, text = c :: s ∧ ¬ c ≤ 32 ∧ c ≠ 93

theorem Starts.skip {text : Str} (h : Starts text) (rest : Str) : skip (text ++ rest) = text ++ rest := by
  obtain ⟨c, s, rfl, hc, -⟩ := h
  exact skip_cons hc _

/-- the text of an int starts with a sign or a digit -/
theorem intText_head (n : ℤ) : ∃ c s, intText n = c :: s ∧ (c = 45 ∨ isDigit c = true) := by
  rw [intText]
  split_ifs
  · exact ⟨45, _, rfl, Or.inl rfl⟩
  · obtain ⟨d, t, hd, -, ht⟩ := decimal_head n.toNat
    exact ⟨digit d, t, ht, Or.inr (isDigit_digit hd)⟩

theorem number_start : ∀ c : UInt8, c = 45 ∨ isDigit c = true →
    c ≠ 110 ∧ c ≠ 102 ∧ c ≠ 116 ∧ c ≠ 34 ∧ ¬ c ≤ 32 ∧ c ≠ 93 := by
  decide +kernel

theorem starts_intText (n : ℤ) : Starts (intText n) := by
  obtain ⟨c, s, htext, hc⟩ := intText_head n
  exact ⟨c, s, htext, (number_start c hc).2.2.2.2⟩

theorem starts_stringText (s : CText) : Starts (stringText s) := ⟨34, _, stringText_eq s, by decide, by decide⟩

theorem starts_itemText (fmt : Bool) (depth : ℕ) {v : Item D.F} (hv : Integral D v) :
    Starts (itemText D fmt depth v) := by
  cases v with
  | null =>
    rw [itemText]
    exact ⟨110, bytes "ull", by decide +kernel, by decide, by decide⟩
  | bool b =>
    cases b
    · rw [itemText]
      exact ⟨102, bytes "alse", by decide +kernel, by decide, by decide⟩
    · rw [itemText]
      exact ⟨116, bytes "rue", by decide +kernel, by decide, by decide⟩
  | number d =>
    obtain ⟨n, hlow, hhigh, rfl⟩ : IsInt D d := by rwa [Integral] at hv
    rw [itemText, numberText_ofInt hlow hhigh]
    exact starts_intText n
  | string s =>
    rw [itemText]
    exact starts_stringText s
  | array items =>
    rw [itemText]
    exact ⟨91, _, rfl, by decide, by decide⟩
  | object members =>
    rw [itemText, objectText]
    split_ifs
    all_goals exact ⟨123, _, rfl, by decide, by decide⟩

theorem parseValue_cons {c : UInt8} (hn : c ≠ 110) (hf : c ≠ 102) (ht : c ≠ 116) (fuel : ℕ) (s : Str) :
    parseValue D (fuel + 1) (c :: s) =
      if c = 34 then do
        let (s, rest) ← parseString (c :: s)
        return (.string s, rest)
      else if c = 45 ∨ isDigit c then do
        let (d, rest) ← need (parseNumber D (c :: s))
        return (.number d, rest)
      else if c = 91 then
        if (skip s).head? = some 93 then pure (.array [], (skip s).tail)
        else do
          let (items, rest) ← parseItems D fuel (skip s)
          return (.array items, rest)
      else if c = 123 then
        if (skip s).head? = some 125 then pure (.object [], (skip s).tail)
        else do
          let (members, rest) ← parseMembers D fuel (skip s)
          return (.object members, rest)
      else throw (c :: s) := by
  have hnull : ¬ (c :: s).take 4 = bytes "null" := fun h => hn (List.cons.inj h).1
  have hfalse : ¬ (c :: s).take 5 = bytes "false" := fun h => hf (List.cons.inj h).1
  have htrue : ¬ (c :: s).take 4 = bytes "true" := fun h => ht (List.cons.inj h).1
  rw [parseValue.eq_def]
  dsimp only
  rw [if_neg hnull, if_neg hfalse, if_neg htrue]

section Steps
variable {fuel : ℕ} {rest e t : Str} {child : Item D.F}

theorem parseItems_last (he : Starts e) (h : parseValue D fuel (e ++ 93 :: rest) = pure (child, 93 :: rest)) :
    parseItems D (fuel + 1) (e ++ 93 :: rest) = pure ([child], rest) := by
  rw [parseItems, he.skip, h, pure_bind]
  dsimp only
  rw [skip_cons (by decide), List.head?_cons, if_neg (by decide), if_pos rfl]
  rfl

theorem parseItems_more {items : List (Item D.F)} (he : Starts e)
    (h : parseValue D fuel (e ++ 44 :: t) = pure (child, 44 :: t)) (ht : parseItems D fuel t = pure (items, rest)) :
    parseItems D (fuel + 1) (e ++ 44 :: t) = pure (child :: items, rest) := by
  rw [parseItems, he.skip, h, pure_bind]
  dsimp only
  rw [skip_cons (by decide), List.head?_cons, if_pos rfl, List.tail_cons, ht, pure_bind]

variable {name : CText} {before between after : Str} (hbefore : ∀ c ∈ before, c ≤ 32)
  (hbetween : ∀ c ∈ between, c ≤ 32)
include hbefore hbetween

theorem parseMembers_last (hafter : ∀ c ∈ after, c ≤ 32) (he : Starts e)
    (h : parseValue D fuel (e ++ (after ++ 125 :: rest)) = pure (child, after ++ 125 :: rest)) :
    parseMembers D (fuel + 1) (before ++ (stringText name ++ 58 :: (between ++ (e ++ (after ++ 125 :: rest))))) =
      pure ([(name, child)], rest) := by
  rw [parseMembers, skip_blanks hbefore, (starts_stringText name).skip, parseString_text, pure_bind]
  dsimp only
  rw [skip_cons (by decide), List.head?_cons, if_pos rfl, List.tail_cons, skip_blanks hbetween, he.skip, h, pure_bind]
  dsimp only
  rw [skip_blanks hafter, skip_cons (by decide), List.head?_cons, if_neg (by decide), if_pos rfl]
  rfl

theorem parseMembers_more {members : List (CText × Item D.F)} (he : Starts e)
    (h : parseValue D fuel (e ++ 44 :: t) = pure (child, 44 :: t)) (ht : parseMembers D fuel t = pure (members, rest)) :
    parseMembers D (fuel + 1) (before ++ (stringText name ++ 58 :: (between ++ (e ++ 44 :: t)))) =
      pure ((name, child) :: members, rest) := by
  rw [parseMembers, skip_blanks hbefore, (starts_stringText name).skip, parseString_text, pure_bind]
  dsimp only
  rw [skip_cons (by decide), List.head?_cons, if_pos rfl, List.tail_cons, skip_blanks hbetween, he.skip, h, pure_bind]
  dsimp only
  rw [skip_cons (by decide), List.head?_cons, if_pos rfl, List.tail_cons, ht, pure_bind]

end Steps

theorem follows_cons {c : UInt8} {s : Str} (h : isDigit c = false ∧ c ≠ 46 ∧ c ≠ 101 ∧ c ≠ 69) : Follows (c :: s) := by
  intro d hd
  obtain rfl : c = d := Option.some.inj hd
  exact h

theorem tabs_blank (n : ℕ) : ∀ c ∈ tabs n, c ≤ 32 := by
  intro c hc
  rw [List.eq_of_mem_replicate hc]
  decide

theorem ite_blank {p : Bool} {ws : Str} (h : ∀ c ∈ ws, c ≤ 32) : ∀ c ∈ (if p then ws else []), c ≤ 32 := by
  cases p
  · exact fun c hc => absurd hc List.not_mem_nil
  · exact h

/-- blanks and then something that is no part of a number -/
theorem follows_blanks {ws : Str} (h : ∀ c ∈ ws, c ≤ 32) {c : UInt8} {s : Str}
    (hc : isDigit c = false ∧ c ≠ 46 ∧ c ≠ 101 ∧ c ≠ 69) : Follows (ws ++ c :: s) := by
  cases ws with
  | nil => exact follows_cons hc
  | cons b ws =>
    have hblank : ∀ b : UInt8, b ≤ 32 → isDigit b = false ∧ b ≠ 46 ∧ b ≠ 101 ∧ b ≠ 69 := by decide +kernel
    exact follows_cons (hblank b (h b List.mem_cons_self))

/-- the text behind a comma -/
theorem parseItems_sep (fmt : Bool) (fuel : ℕ) (t : Str) :
    parseItems D fuel ((if fmt then [32] else []) ++ t) = parseItems D fuel t := by
  have hblank : ∀ c ∈ (if fmt then ([32] : Str) else []), c ≤ 32 := ite_blank fun c hc => by
    rw [List.mem_singleton.1 hc]
    decide
  rw [← parseItems_skip, skip_blanks hblank, parseItems_skip]

section Leaves
variable {fuel : ℕ} {rest : Str}

theorem parseValue_null : parseValue D (fuel + 1) (bytes "null" ++ rest) = pure (.null, rest) := by
  have hlen : (bytes "null").length = 4 := by decide +kernel
  rw [parseValue.eq_def]
  dsimp only
  rw [if_pos (List.take_left' hlen), List.drop_left' hlen]

theorem parseValue_false : parseValue D (fuel + 1) (bytes "false" ++ rest) = pure (.bool false, rest) := by
  have hlen : (bytes "false").length = 5 := by decide +kernel
  have htext : bytes "false" = 102 :: bytes "alse" := by decide +kernel
  have hnull : ¬ (bytes "false" ++ rest).take 4 = bytes "null" := by
    rw [htext]
    exact fun h => absurd (List.cons.inj h).1 (by decide)
  rw [parseValue.eq_def]
  dsimp only
  rw [if_neg hnull, if_pos (List.take_left' hlen), List.drop_left' hlen]

theorem parseValue_true : parseValue D (fuel + 1) (bytes "true" ++ rest) = pure (.bool true, rest) := by
  have hlen : (bytes "true").length = 4 := by decide +kernel
  have htext : bytes "true" = 116 :: bytes "rue" := by decide +kernel
  have hnull : ¬ (bytes "true" ++ rest).take 4 = bytes "null" := by
    rw [htext]
    exact fun h => absurd (List.cons.inj h).1 (by decide)
  have hfalse : ¬ (bytes "true" ++ rest).take 5 = bytes "false" := by
    rw [htext]
    exact fun h => absurd (List.cons.inj h).1 (by decide)
  rw [parseValue.eq_def]
  dsimp only
  rw [if_neg hnull, if_neg hfalse, if_pos (List.take_left' hlen), List.drop_left' hlen]

theorem parseValue_number {n : ℤ} (hlow : -2 ^ 31 ≤ n) (hhigh : n < 2 ^ 31) (h : Follows rest) :
    parseValue D (fuel + 1) (intText n ++ rest) = pure (.number (D.ofInt n), rest) := by
  obtain ⟨c, s, htext, hc⟩ := intText_head n
  obtain ⟨hn, hf, ht, hquote, -⟩ := number_start c hc
  have hnumber := parseNumber_intText (D := D) hlow hhigh h
  rw [htext, List.cons_append] at hnumber ⊢
  rw [parseValue_cons hn hf ht, if_neg hquote, if_pos hc, hnumber, need_some_bind]

theorem parseValue_string (s : CText) : parseValue D (fuel + 1) (stringText s ++ rest) = pure (.string s, rest) := by
  have htext : stringText s ++ rest = 34 :: (s.bytes.flatMap escapeByte ++ [34] ++ rest) := by rw [stringText_eq]; rfl
  have hstring := parseString_text s rest
  rw [htext] at hstring ⊢
  rw [parseValue_cons (by decide) (by decide) (by decide), if_pos rfl, hstring, pure_bind]

end Leaves

/-! Arrays and objects -/

section Nodes
variable {fuel : ℕ} {rest s : Str}

theorem parseValue_array_nil (fmt : Bool) :
    parseValue D (fuel + 1) (arrayText fmt [] ++ rest) = pure (.array [], rest) := by
  have htext : arrayText fmt [] ++ rest = 91 :: 93 :: rest := rfl
  rw [htext, parseValue_cons (by decide) (by decide) (by decide), if_neg (by decide), if_neg (by decide), if_pos rfl,
    skip_cons (by decide), List.head?_cons, if_pos rfl, List.tail_cons]

theorem parseValue_array {items : List (Item D.F)} (hs : Starts s) (h : parseItems D fuel s = pure (items, rest)) :
    parseValue D (fuel + 1) (91 :: s) = pure (.array items, rest) := by
  have hskip : skip s = s := by
    have happend := hs.skip []
    rwa [List.append_nil] at happend
  have hhead : ¬ s.head? = some 93 := by
    obtain ⟨c, t, rfl, -, hc⟩ := hs
    exact fun h => hc (Option.some.inj h)
  rw [parseValue_cons (by decide) (by decide) (by decide), if_neg (by decide), if_neg (by decide), if_pos rfl, hskip,
    if_neg hhead, h, pure_bind]

theorem parseValue_object_nil (fmt : Bool) (depth : ℕ) :
    parseValue D (fuel + 1) (objectText fmt depth [] ++ rest) = pure (.object [], rest) := by
  have hblank : ∀ c ∈ (if fmt then 10 :: tabs (depth - 1) else []), c ≤ 32 := ite_blank fun c hc => by
    rcases List.mem_cons.1 hc with rfl | hc
    · decide
    · exact tabs_blank _ c hc
  have htext : objectText fmt depth [] ++ rest =
      123 :: ((if fmt then 10 :: tabs (depth - 1) else []) ++ 125 :: rest) := by
    rw [objectText, List.isEmpty_nil, if_pos rfl, List.cons_append, List.append_assoc]
    rfl
  rw [htext, parseValue_cons (by decide) (by decide) (by decide), if_neg (by decide), if_neg (by decide),
    if_neg (by decide), if_pos rfl, skip_blanks hblank, skip_cons (by decide), List.head?_cons, if_pos rfl,
    List.tail_cons]

theorem parseValue_object {members : List (CText × Item D.F)} (hs : (skip s).head? = some 34)
    (h : parseMembers D fuel s = pure (members, rest)) :
    parseValue D (fuel + 1) (123 :: s) = pure (.object members, rest) := by
  have hhead : ¬ (skip s).head? = some 125 := by
    rw [hs]
    exact fun h => absurd (Option.some.inj h) (by decide)
  rw [parseValue_cons (by decide) (by decide) (by decide), if_neg (by decide), if_neg (by decide),
    if_neg (by decide), if_pos rfl, if_neg hhead, parseMembers_skip, h, pure_bind]

end Nodes

section Texts
variable (fmt : Bool) (depth : ℕ) (name : CText) (child : Item D.F) (rest : Str)

theorem itemsTail_last :
    itemsTail fmt (itemTexts D fmt depth [child]) ++ rest = itemText D fmt depth child ++ 93 :: rest := by
  simp [itemTexts, itemsTail]

theorem itemsTail_more (next : Item D.F) (items : List (Item D.F)) :
    itemsTail fmt (itemTexts D fmt depth (child :: next :: items)) ++ rest = itemText D fmt depth child ++
      44 :: ((if fmt then [32] else []) ++ (itemsTail fmt (itemTexts D fmt depth (next :: items)) ++ rest)) := by
  cases fmt <;> simp [itemTexts, itemsTail]

theorem membersTail_last : membersTail fmt depth (memberTexts D fmt depth [(name, child)]) ++ rest =
    (if fmt then tabs depth else []) ++ (stringText name ++ 58 :: ((if fmt then [9] else []) ++
      (itemText D fmt depth child ++ ((if fmt then 10 :: tabs (depth - 1) else []) ++ 125 :: rest)))) := by
  cases fmt <;> simp [memberTexts, membersTail]

theorem membersTail_more (next : CText × Item D.F) (members : List (CText × Item D.F)) :
    membersTail fmt depth (memberTexts D fmt depth ((name, child) :: next :: members)) ++ rest =
      (if fmt then tabs depth else []) ++ (stringText name ++ 58 :: ((if fmt then [9] else []) ++
        (itemText D fmt depth child ++ 44 :: ((if fmt then [10] else []) ++
          (membersTail fmt depth (memberTexts D fmt depth (next :: members)) ++ rest))))) := by
  cases fmt <;> simp [memberTexts, membersTail]

theorem objectText_cons (member : CText × Item D.F) (members : List (CText × Item D.F)) :
    objectText fmt depth (memberTexts D fmt (depth + 1) (member :: members)) ++ rest =
      123 :: ((if fmt then [10] else []) ++
        (membersTail fmt (depth + 1) (memberTexts D fmt (depth + 1) (member :: members)) ++ rest)) := by
  cases fmt <;> simp [memberTexts, objectText]

end Texts

theorem starts_itemsTail (fmt : Bool) (depth : ℕ) {child : Item D.F} {items : List (Item D.F)}
    (h : IntegralItems D (child :: items)) (rest : Str) :
    Starts (itemsTail fmt (itemTexts D fmt depth (child :: items)) ++ rest) := by
  rw [IntegralItems] at h
  obtain ⟨c, s, htext, hc⟩ := starts_itemText fmt depth h.1
  cases items with
  | nil => exact ⟨c, _, by rw [itemsTail_last, htext]; rfl, hc⟩
  | cons next items => exact ⟨c, _, by rw [itemsTail_more, htext]; rfl, hc⟩

theorem newline_blank (fmt : Bool) : ∀ c ∈ (if fmt then ([10] : Str) else []), c ≤ 32 := ite_blank fun c hc => by
  rw [List.mem_singleton.1 hc]
  decide

theorem tab_blank (fmt : Bool) : ∀ c ∈ (if fmt then ([9] : Str) else []), c ≤ 32 := ite_blank fun c hc => by
  rw [List.mem_singleton.1 hc]
  decide

theorem close_blank (fmt : Bool) (depth : ℕ) : ∀ c ∈ (if fmt then 10 :: tabs depth else []), c ≤ 32 :=
  ite_blank fun c hc => by
    rcases List.mem_cons.1 hc with rfl | hc
    · decide
    · exact tabs_blank _ c hc

/-- the text behind the comma of a member -/
theorem parseMembers_newline (fmt : Bool) (fuel : ℕ) (t : Str) :
    parseMembers D fuel ((if fmt then [10] else []) ++ t) = parseMembers D fuel t := by
  rw [← parseMembers_skip, skip_blanks (newline_blank fmt), parseMembers_skip]

/-- behind a brace, a name is next -/
theorem skip_membersTail (fmt : Bool) (depth : ℕ) (member : CText × Item D.F) (members : List (CText × Item D.F))
    (rest : Str) : (skip ((if fmt then [10] else []) ++
      (membersTail fmt depth (memberTexts D fmt depth (member :: members)) ++ rest))).head? = some 34 := by
  obtain ⟨name, child⟩ := member
  have hname : ∀ t, (skip (stringText name ++ t)).head? = some 34 := by
    intro t
    rw [(starts_stringText name).skip, stringText_eq]
    rfl
  rw [skip_blanks (newline_blank fmt)]
  cases members with
  | nil => rw [membersTail_last, skip_blanks (ite_blank (tabs_blank depth)), hname]
  | cons next members => rw [membersTail_more, skip_blanks (ite_blank (tabs_blank depth)), hname]

mutual

/-- **An item is read back** from its text, whatever follows. -/
theorem parseValue_text (fmt : Bool) (depth : ℕ) : (v : Item D.F) → Integral D v → ∀ {fuel : ℕ} {rest : Str},
    Follows rest → 2 * (itemText D fmt depth v).length ≤ fuel →
      parseValue D (fuel + 1) (itemText D fmt depth v ++ rest) = pure (v, rest)
  | .null, _, _, _, _, _ => by
    rw [itemText]
    exact parseValue_null
  | .bool false, _, _, _, _, _ => by
    rw [itemText]
    exact parseValue_false
  | .bool true, _, _, _, _, _ => by
    rw [itemText]
    exact parseValue_true
  | .number d, hv, _, _, hrest, _ => by
    obtain ⟨n, hlow, hhigh, rfl⟩ : IsInt D d := by rwa [Integral] at hv
    rw [itemText, numberText_ofInt hlow hhigh]
    exact parseValue_number hlow hhigh hrest
  | .string s, _, _, _, _, _ => by
    rw [itemText]
    exact parseValue_string s
  | .array [], _, _, _, _, _ => by
    rw [itemText, itemTexts]
    exact parseValue_array_nil fmt
  | .array (child :: items), hv, fuel, rest, _, hfuel => by
    rw [Integral] at hv
    rw [itemText, arrayText, List.length_cons] at hfuel
    obtain ⟨fuel, rfl⟩ : ∃ f, fuel = f + 1 := ⟨fuel - 1, by omega⟩
    rw [itemText, arrayText, List.cons_append]
    refine parseValue_array (starts_itemsTail fmt (depth + 1) hv rest) ?_
    exact parseItems_texts fmt (depth + 1) (child :: items) (List.cons_ne_nil _ _) hv (by omega)
  | .object [], _, _, _, _, _ => by
    rw [itemText, memberTexts]
    exact parseValue_object_nil fmt depth
  | .object (member :: members), hv, fuel, rest, _, hfuel => by
    rw [Integral] at hv
    have hlen := congrArg List.length (objectText_cons fmt depth [] member members)
    rw [itemText] at hfuel ⊢
    simp only [List.append_nil, List.length_append, List.length_cons] at hlen
    obtain ⟨fuel, rfl⟩ : ∃ f, fuel = f + 1 := ⟨fuel - 1, by omega⟩
    rw [objectText_cons]
    refine parseValue_object (skip_membersTail fmt (depth + 1) member members rest) ?_
    rw [parseMembers_newline]
    exact parseMembers_texts fmt (depth + 1) (member :: members) (List.cons_ne_nil _ _) hv (by omega)

theorem parseItems_texts (fmt : Bool) (depth : ℕ) : (items : List (Item D.F)) → items ≠ [] → IntegralItems D items →
    ∀ {fuel : ℕ} {rest : Str}, 2 * (itemsTail fmt (itemTexts D fmt depth items)).length ≤ fuel →
      parseItems D (fuel + 1) (itemsTail fmt (itemTexts D fmt depth items) ++ rest) = pure (items, rest)
  | [], h, _, _, _, _ => absurd rfl h
  | [child], _, hi, fuel, rest, hfuel => by
    rw [IntegralItems] at hi
    have hlen := congrArg List.length (itemsTail_last fmt depth child [])
    simp only [List.append_nil, List.length_append, List.length_cons] at hlen
    obtain ⟨fuel, rfl⟩ : ∃ f, fuel = f + 1 := ⟨fuel - 1, by omega⟩
    rw [itemsTail_last]
    refine parseItems_last (starts_itemText fmt depth hi.1) ?_
    exact parseValue_text fmt depth child hi.1 (follows_cons (by decide)) (by omega)
  | child :: next :: items, _, hi, fuel, rest, hfuel => by
    rw [IntegralItems] at hi
    have hlen := congrArg List.length (itemsTail_more fmt depth child [] next items)
    simp only [List.append_nil, List.length_append, List.length_cons] at hlen
    obtain ⟨fuel, rfl⟩ : ∃ f, fuel = f + 1 := ⟨fuel - 1, by omega⟩
    rw [itemsTail_more]
    refine parseItems_more (starts_itemText fmt depth hi.1) ?_ ?_
    · exact parseValue_text fmt depth child hi.1 (follows_cons (by decide)) (by omega)
    · rw [parseItems_sep]
      exact parseItems_texts fmt depth (next :: items) (List.cons_ne_nil _ _) hi.2 (by omega)

theorem parseMembers_texts (fmt : Bool) (depth : ℕ) : (members : List (CText × Item D.F)) → members ≠ [] →
    IntegralMembers D members → ∀ {fuel : ℕ} {rest : Str},
      2 * (membersTail fmt depth (memberTexts D fmt depth members)).length ≤ fuel →
        parseMembers D (fuel + 1) (membersTail fmt depth (memberTexts D fmt depth members) ++ rest) =
          pure (members, rest)
  | [], h, _, _, _, _ => absurd rfl h
  | [(name, child)], _, hi, fuel, rest, hfuel => by
    rw [IntegralMembers] at hi
    have hlen := congrArg List.length (membersTail_last fmt depth name child [])
    simp only [List.append_nil, List.length_append, List.length_cons] at hlen
    obtain ⟨fuel, rfl⟩ : ∃ f, fuel = f + 1 := ⟨fuel - 1, by omega⟩
    rw [membersTail_last]
    refine parseMembers_last (ite_blank (tabs_blank depth)) (tab_blank fmt) (close_blank fmt _)
      (starts_itemText fmt depth hi.1) ?_
    exact parseValue_text fmt depth child hi.1 (follows_blanks (close_blank fmt _) (by decide)) (by omega)
  | (name, child) :: next :: members, _, hi, fuel, rest, hfuel => by
    rw [IntegralMembers] at hi
    have hlen := congrArg List.length (membersTail_more fmt depth name child [] next members)
    simp only [List.append_nil, List.length_append, List.length_cons] at hlen
    obtain ⟨fuel, rfl⟩ : ∃ f, fuel = f + 1 := ⟨fuel - 1, by omega⟩
    rw [membersTail_more]
    refine parseMembers_more (ite_blank (tabs_blank depth)) (tab_blank fmt) (starts_itemText fmt depth hi.1) ?_ ?_
    · exact parseValue_text fmt depth child hi.1 (follows_cons (by decide)) (by omega)
    · rw [parseMembers_newline]
      exact parseMembers_texts fmt depth (next :: members) (List.cons_ne_nil _ _) hi.2 (by omega)

end

/-- the text that `cJSON_Print` gives, formatted or not -/
def printed (D : Doubles) (fmt : Bool) (item : Item D.F) : CText :=
  ⟨itemText D fmt 0 item, zero_not_mem_itemText fmt 0 item⟩

theorem cJSONParse_printed (fmt : Bool) {item : Item D.F} (h : Integral D item) :
    cJSONParse D (printed D fmt item) = pure item := by
  have hskip : skip (itemText D fmt 0 item) = itemText D fmt 0 item := by
    have happend := (starts_itemText fmt 0 h).skip []
    rwa [List.append_nil] at happend
  have hend : Follows [] := fun c hc => absurd hc (Option.not_mem_none c)
  have hparse := parseValue_text fmt 0 item h hend le_rfl
  rw [List.append_nil] at hparse
  rw [cJSONParse, printed]
  dsimp only
  rw [hskip, hparse, pure_bind]

/-- **Printing and parsing.** An item whose numbers are ints is printed, within the blocks that are allocated for it, to
a text from which the parser makes the same item. -/
theorem parse_print (fmt : Bool) (item : Item D.F) (h : Integral D item) :
    ∃ text : CText, printValue D fmt 0 item = some text.bytes ∧ cJSONParse D text = pure item :=
  ⟨printed D fmt item, printValue_eq fmt 0 item, cJSONParse_printed fmt h⟩

/-- a member of every kind -/
def sampleItem : Item rationals.F :=
  .object [(.ofBytes (bytes "level"), .array [.number (rationals.ofInt (-7)), .bool true, .null]),
    (.ofBytes (bytes "name"), .string (.ofBytes (bytes "a \"gate\"\n")))]

theorem integral_sampleItem : Integral rationals sampleItem := by
  rw [sampleItem, Integral, IntegralMembers, IntegralMembers, IntegralMembers]
  refine ⟨?_, ?_, trivial⟩
  · rw [Integral, IntegralItems, IntegralItems, IntegralItems, IntegralItems, Integral]
    exact ⟨⟨-7, by decide, by decide, rfl⟩, by rw [Integral]; trivial, by rw [Integral]; trivial, trivial⟩
  · rw [Integral]
    trivial

theorem parse_print_sample : ∃ text : CText, printValue rationals false 0 sampleItem = some text.bytes ∧
    cJSONParse rationals text = pure sampleItem :=
  parse_print false sampleItem integral_sampleItem

end StoreService.JsonText
