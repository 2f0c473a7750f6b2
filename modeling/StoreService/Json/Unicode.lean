/-
The strings of a JSON text as UTF-8 (`parse_string` of `cJSON.cpp`).

A character of a string can be written as itself, in UTF-8, with an escape of one letter, or with `\u` and its UTF-16
code units in hex, one or a pair of surrogates (`Spells`). The parser gives the UTF-8 of the characters in each case:
what a client writes with escapes only is stored like what another one writes as it is.

- `utf8_eq`: the bytes that the code makes with masks from a code point are its UTF-8.
- `parseString_spelled`: a string is parsed to the UTF-8 of its characters, however each of them is written.

The character 0 has no place in a C string; the code drops it.
-/
import Mathlib.Tactic
import StoreService.Json.RoundTrip

namespace StoreService.JsonText

open StoreService.Json StoreService.Decimal StoreService.Check

/-! ## Characters and how they are written -/

/-- four hex digits, of either case -/
def HexOf (n : ℕ) (w : Str) : Prop := ∃ a b c d, w.map hexValue = [some a, some b, some c, some d] ∧
  n = ((16 * a + b) * 16 + c) * 16 + d

/-- the letters of escapes -/
def escapes : List (UInt8 × Char) :=
  [(34, '"'), (92, '\\'), (47, '/'), (98, '\x08'), (102, '\x0c'), (110, '\n'), (114, '\r'), (116, '\t')]

/-- the ways to write a character in a JSON string -/
inductive Spells (c : Char) : Str → Prop where
  | plain (hlow : 32 ≤ c.toNat) (hquote : c ≠ '"') (hslash : c ≠ '\\') : Spells c (String.utf8EncodeChar c)
  | letter {e : UInt8} (h : (e, c) ∈ escapes) : Spells c [92, e]
  | unit {w : Str} (hlow : c.toNat < 0x10000) (hw : HexOf c.toNat w) : Spells c (92 :: 117 :: w)
  | pair {w v : Str} (hhigh : 0x10000 ≤ c.toNat) (hw : HexOf (0xD800 + (c.toNat - 0x10000) / 0x400) w)
      (hv : HexOf (0xDC00 + (c.toNat - 0x10000) % 0x400) v) : Spells c (92 :: 117 :: (w ++ 92 :: 117 :: v))

/-! ## UTF-8 with masks -/

theorem mask_tail : ∀ x : UInt8, (x ||| 0x80) &&& 0xBF = UInt8.ofNat (x.toNat % 64 + 128) := by decide +kernel

theorem mask_two : ∀ x : UInt8, x < 32 → x ||| 0xC0 = UInt8.ofNat (x.toNat + 192) := by decide +kernel

theorem mask_three : ∀ x : UInt8, x < 16 → x ||| 0xE0 = UInt8.ofNat (x.toNat + 224) := by decide +kernel

theorem mask_four : ∀ x : UInt8, x < 8 → x ||| 0xF0 = UInt8.ofNat (x.toNat + 240) := by decide +kernel

/-- a byte behind the first one -/
theorem tail_byte (uc : ℕ) : UInt8.ofNat ((uc ||| 0x80) &&& 0xBF) = UInt8.ofNat (uc % 64 + 128) := by
  rw [UInt8.ofNat_and, UInt8.ofNat_or]
  have h := mask_tail (UInt8.ofNat uc)
  rw [UInt8.toNat_ofNat'] at h
  rw [show uc % 2 ^ 8 % 64 = uc % 64 from by omega] at h
  exact h

/-- the first byte -/
theorem first_byte {uc : ℕ} (bound mark : ℕ) (hmask : ∀ x : UInt8, x < UInt8.ofNat bound → x ||| UInt8.ofNat mark =
    UInt8.ofNat (x.toNat + mark)) (hbound : bound < 256) (h : uc < bound) :
    UInt8.ofNat (uc ||| mark) = UInt8.ofNat (uc + mark) := by
  have huc : (UInt8.ofNat uc).toNat = uc := by
    rw [UInt8.toNat_ofNat']
    omega
  have hlt : UInt8.ofNat uc < UInt8.ofNat bound := by
    rw [UInt8.lt_iff_toNat_lt, huc, UInt8.toNat_ofNat']
    omega
  rw [UInt8.ofNat_or, hmask _ hlt, huc]

theorem shift_six (uc : ℕ) : uc >>> 6 = uc / 64 := Nat.shiftRight_eq_div_pow uc 6

theorem utf8_two {uc : ℕ} (h1 : 0x80 ≤ uc) (h2 : uc < 0x800) :
    utf8 uc = [UInt8.ofNat (uc / 64 + 192), UInt8.ofNat (uc % 64 + 128)] := by
  have hlen : utf8 uc = [UInt8.ofNat (uc >>> 6 ||| 192), UInt8.ofNat ((uc ||| 0x80) &&& 0xBF)] := by
    rw [utf8, if_neg (by omega), if_pos h2]
    rfl
  rw [hlen, shift_six, tail_byte, first_byte 32 192 mask_two (by decide) (by omega)]

theorem utf8_three {uc : ℕ} (h1 : 0x800 ≤ uc) (h2 : uc < 0x10000) : utf8 uc =
    [UInt8.ofNat (uc / 4096 + 224), UInt8.ofNat (uc / 64 % 64 + 128), UInt8.ofNat (uc % 64 + 128)] := by
  have hlen : utf8 uc = [UInt8.ofNat (uc >>> 6 >>> 6 ||| 224), UInt8.ofNat ((uc >>> 6 ||| 0x80) &&& 0xBF),
      UInt8.ofNat ((uc ||| 0x80) &&& 0xBF)] := by
    rw [utf8, if_neg (by omega), if_neg (by omega), if_pos h2]
    rfl
  have hdiv : uc / 64 / 64 = uc / 4096 := Nat.div_div_eq_div_mul uc 64 64
  rw [hlen, shift_six, shift_six, tail_byte, tail_byte, hdiv, first_byte 16 224 mask_three (by decide) (by omega)]

theorem utf8_four {uc : ℕ} (h1 : 0x10000 ≤ uc) (h2 : uc < 0x110000) : utf8 uc =
    [UInt8.ofNat (uc / 262144 + 240), UInt8.ofNat (uc / 4096 % 64 + 128), UInt8.ofNat (uc / 64 % 64 + 128),
      UInt8.ofNat (uc % 64 + 128)] := by
  have hlen : utf8 uc = [UInt8.ofNat (uc >>> 6 >>> 6 >>> 6 ||| 240), UInt8.ofNat ((uc >>> 6 >>> 6 ||| 0x80) &&& 0xBF),
      UInt8.ofNat ((uc >>> 6 ||| 0x80) &&& 0xBF), UInt8.ofNat ((uc ||| 0x80) &&& 0xBF)] := by
    rw [utf8, if_neg (by omega), if_neg (by omega), if_neg (by omega)]
    rfl
  have hdiv : uc / 64 / 64 = uc / 4096 := Nat.div_div_eq_div_mul uc 64 64
  have hdiv2 : uc / 4096 / 64 = uc / 262144 := Nat.div_div_eq_div_mul uc 4096 64
  rw [hlen, shift_six, shift_six, shift_six, tail_byte, tail_byte, tail_byte, hdiv, hdiv2,
    first_byte 8 240 mask_four (by decide) (by omega)]

theorem toNat_lt (c : Char) : c.toNat < 0x110000 := by
  have hvalid := c.valid
  rw [UInt32.isValidChar] at hvalid
  rcases hvalid with h | h
  · exact lt_trans h (by decide)
  · exact h.2

/-- **The masks make UTF-8.** -/
theorem utf8_eq (c : Char) : utf8 c.toNat = String.utf8EncodeChar c := by
  have hmax := toNat_lt c
  rw [String.utf8EncodeChar.eq_1]
  change _ = if c.toNat ≤ 127 then [UInt8.ofNat c.toNat] else if c.toNat ≤ 2047 then
    [UInt8.ofNat (c.toNat / 64 % 32 + 192), UInt8.ofNat (c.toNat % 64 + 128)] else if c.toNat ≤ 65535 then
    [UInt8.ofNat (c.toNat / 4096 % 16 + 224), UInt8.ofNat (c.toNat / 64 % 64 + 128), UInt8.ofNat (c.toNat % 64 + 128)]
    else [UInt8.ofNat (c.toNat / 262144 % 8 + 240), UInt8.ofNat (c.toNat / 4096 % 64 + 128),
      UInt8.ofNat (c.toNat / 64 % 64 + 128), UInt8.ofNat (c.toNat % 64 + 128)]
  generalize c.toNat = uc at hmax ⊢
  split_ifs with h1 h2 h3
  · exact utf8_of_lt (by omega)
  · rw [utf8_two (by omega) (by omega), Nat.mod_eq_of_lt (by omega : uc / 64 < 32)]
  · rw [utf8_three (by omega) (by omega), Nat.mod_eq_of_lt (by omega : uc / 4096 < 16)]
  · rw [utf8_four (by omega) (by omega), Nat.mod_eq_of_lt (by omega : uc / 262144 < 8)]

/-! ## Escapes -/

theorem hexOf_four {n : ℕ} {w : Str} (h : HexOf n w) : ∃ x y z t, w = [x, y, z, t] ∧
    (∀ b ∈ [x, y, z, t], (hexValue b).isSome) ∧ ∀ s, parseHex4 (x :: y :: z :: t :: s) = n := by
  obtain ⟨a, b, c, d, hw, rfl⟩ := h
  have hlen := congrArg List.length hw
  rw [List.length_map] at hlen
  obtain ⟨x, y, z, t, rfl⟩ := List.length_eq_four.1 hlen
  simp only [List.map_cons, List.map_nil, List.cons.injEq, and_true] at hw
  obtain ⟨hx, hy, hz, ht⟩ := hw
  refine ⟨x, y, z, t, rfl, ?_, ?_⟩
  · simp [hx, hy, hz, ht]
  · intro s
    simp only [parseHex4, hx, hy, hz, ht]
    omega

theorem parseUnicode_unit {c : Char} {x y z t : UInt8} {s : Str} (h0 : c.toNat ≠ 0) (hlow : c.toNat < 0x10000)
    (hhex : parseHex4 (x :: y :: z :: t :: s) = c.toNat) :
    parseUnicode (x :: y :: z :: t :: s) = some (String.utf8EncodeChar c, s) := by
  have hvalid : c.toNat < 0xD800 ∨ 0xDFFF < c.toNat ∧ c.toNat < 0x110000 := c.valid
  rw [parseUnicode, hhex, if_neg (by simp), if_neg (by omega), if_neg (by omega), utf8_eq]
  rfl

/-- the halves of a pair put together -/
theorem surrogates {n : ℕ} (h1 : 0x10000 ≤ n) (h2 : n < 0x110000) :
    0x10000 + ((((0xD800 + (n - 0x10000) / 0x400) &&& 0x3FF) <<< 10) |||
      ((0xDC00 + (n - 0x10000) % 0x400) &&& 0x3FF)) = n := by
  have hmask : ∀ m, m &&& 0x3FF = m % 0x400 := fun m => Nat.and_two_pow_sub_one_eq_mod m 10
  have hhigh : (0xD800 + (n - 0x10000) / 0x400) % 0x400 = (n - 0x10000) / 0x400 := by omega
  have hlow : (0xDC00 + (n - 0x10000) % 0x400) % 0x400 = (n - 0x10000) % 0x400 := by omega
  rw [hmask, hmask, hhigh, hlow, ← Nat.shiftLeft_add_eq_or_of_lt (by omega), Nat.shiftLeft_eq]
  omega

theorem parseUnicode_pair {c : Char} {x y z t x2 y2 z2 t2 : UInt8} {s : Str} (hhigh : 0x10000 ≤ c.toNat)
    (hhex : ∀ s, parseHex4 (x :: y :: z :: t :: s) = 0xD800 + (c.toNat - 0x10000) / 0x400)
    (hhex2 : ∀ s, parseHex4 (x2 :: y2 :: z2 :: t2 :: s) = 0xDC00 + (c.toNat - 0x10000) % 0x400) :
    parseUnicode (x :: y :: z :: t :: 92 :: 117 :: x2 :: y2 :: z2 :: t2 :: s) =
      some (String.utf8EncodeChar c, s) := by
  have hmax := toNat_lt c
  rw [parseUnicode, if_neg (by simp)]
  simp only [hhex, List.drop_succ_cons, List.drop_zero, hhex2]
  rw [if_neg (by omega), if_pos (by omega), if_neg (by simp), if_neg (by simp), if_neg (by omega),
    surrogates hhigh hmax, utf8_eq]

/-! ## Strings -/

/-- an ASCII byte in the UTF-8 of a character is the character -/
theorem toNat_of_ascii {c : Char} {b : UInt8} (hb : b ∈ String.utf8EncodeChar c) (h : b.toNat < 128) :
    b.toNat = c.toNat := by
  have hmax := toNat_lt c
  have hhigh : ∀ m, 128 ≤ m → m < 256 → b ≠ UInt8.ofNat m := by
    rintro m h1 h2 rfl
    rw [UInt8.toNat_ofNat'] at h
    omega
  rw [← utf8_eq] at hb
  by_cases h1 : c.toNat < 0x80
  · rw [utf8_of_lt h1, List.mem_singleton] at hb
    rw [hb, UInt8.toNat_ofNat']
    omega
  by_cases h2 : c.toNat < 0x800
  · rw [utf8_two (by omega) h2] at hb
    simp only [List.mem_cons, List.not_mem_nil, or_false] at hb
    rcases hb with hb | hb
    all_goals exact absurd hb (hhigh _ (by omega) (by omega))
  by_cases h3 : c.toNat < 0x10000
  · rw [utf8_three (by omega) h3] at hb
    simp only [List.mem_cons, List.not_mem_nil, or_false] at hb
    rcases hb with hb | hb | hb
    all_goals exact absurd hb (hhigh _ (by omega) (by omega))
  · rw [utf8_four (by omega) hmax] at hb
    simp only [List.mem_cons, List.not_mem_nil, or_false] at hb
    rcases hb with hb | hb | hb | hb
    all_goals exact absurd hb (hhigh _ (by omega) (by omega))

/-- so an ASCII character that is not in a text is not in its UTF-8 -/
theorem ne_of_ascii {c d : Char} {b k : UInt8} (hb : b ∈ String.utf8EncodeChar c) (hk : k.toNat = d.toNat)
    (hd : d.toNat < 128) (h : c ≠ d) : b ≠ k := by
  rintro rfl
  exact h (Char.toNat_inj.1 ((toNat_of_ascii hb (hk ▸ hd)).symm.trans hk))

theorem length_utf8EncodeChar_le (c : Char) : (String.utf8EncodeChar c).length ≤ 4 := utf8_eq c ▸ length_utf8_le _

/-- a piece of its own -/
theorem pieces_one {c : Char} {text : Str} {k : ℕ} (h : Taken (String.utf8EncodeChar c) text k) :
    ∃ pieces : List (Str × Str), (∀ p ∈ pieces, ∃ k, Taken p.1 p.2 k) ∧
      pieces.flatMap Prod.fst = String.utf8EncodeChar c ∧ pieces.flatMap Prod.snd = text := by
  refine ⟨[(String.utf8EncodeChar c, text)], ?_, List.flatMap_singleton .., List.flatMap_singleton ..⟩
  intro p hp
  rw [List.mem_singleton.1 hp]
  exact ⟨k, h⟩

theorem taken_escapes : ∀ p ∈ escapes, Taken (String.utf8EncodeChar p.2) [92, p.1] 1 := by
  intro p hp
  simp only [escapes, List.mem_cons, List.not_mem_nil, or_false] at hp
  rcases hp with rfl | rfl | rfl | rfl | rfl | rfl | rfl | rfl
  all_goals exact taken_letter fun s => rfl

theorem taken_pair {c : Char} {w v : Str} (hhigh : 0x10000 ≤ c.toNat)
    (hw : HexOf (0xD800 + (c.toNat - 0x10000) / 0x400) w) (hv : HexOf (0xDC00 + (c.toNat - 0x10000) % 0x400) v) :
    Taken (String.utf8EncodeChar c) (92 :: 117 :: (w ++ 92 :: 117 :: v)) 10 := by
  obtain ⟨x, y, z, t, rfl, hx, hhex⟩ := hexOf_four hw
  obtain ⟨x2, y2, z2, t2, rfl, hx2, hhex2⟩ := hexOf_four hv
  refine ⟨List.cons_ne_nil _ _, (length_utf8EncodeChar_le c).trans (by decide), fun s => ?_, fun fuel s => ?_⟩
  · have hcount := stringLength_unicode hx (92 :: 117 :: x2 :: y2 :: z2 :: t2 :: s)
    rw [stringLength_unicode hx2, Option.map_map] at hcount
    exact hcount
  · exact fillString_escape ((parseEscape_unicode _).trans (parseUnicode_pair hhigh hhex hhex2)) fuel

/-- how the passes take a character -/
theorem spells_pieces {c : Char} {text : Str} (h : Spells c text) (h0 : c ≠ '\x00') : ∃ pieces : List (Str × Str),
    (∀ p ∈ pieces, ∃ k, Taken p.1 p.2 k) ∧ pieces.flatMap Prod.fst = String.utf8EncodeChar c ∧
      pieces.flatMap Prod.snd = text := by
  cases h with
  | plain hlow hquote hslash =>
    refine ⟨(String.utf8EncodeChar c).map fun b => ([b], [b]), ?_, ?_, ?_⟩
    · intro p hp
      obtain ⟨b, hb, rfl⟩ := List.mem_map.1 hp
      exact ⟨1, taken_plain (ne_of_ascii hb rfl (by decide) hquote) (ne_of_ascii hb rfl (by decide) hslash)⟩
    · rw [List.flatMap_map, List.flatMap_singleton']
    · rw [List.flatMap_map, List.flatMap_singleton']
  | letter he => exact pieces_one (taken_escapes _ he)
  | unit hlow hw =>
    obtain ⟨x, y, z, t, rfl, hx, hhex⟩ := hexOf_four hw
    have hne : c.toNat ≠ 0 := fun h => h0 (Char.toNat_inj.1 h)
    refine pieces_one (taken_unicode hx ?_ fun s => parseUnicode_unit hne hlow (hhex s))
    exact (length_utf8EncodeChar_le c).trans (by decide)
  | pair hhigh hw hv => exact pieces_one (taken_pair hhigh hw hv)

/-- the UTF-8 of characters -/
def utf8Text (cs : List Char) : Str := cs.flatMap String.utf8EncodeChar

theorem spelled_pieces {cs : List Char} {texts : List Str} (h : List.Forall₂ Spells cs texts) (h0 : '\x00' ∉ cs) :
    ∃ pieces : List (Str × Str), (∀ p ∈ pieces, ∃ k, Taken p.1 p.2 k) ∧ pieces.flatMap Prod.fst = utf8Text cs ∧
      pieces.flatMap Prod.snd = texts.flatten := by
  induction h with
  | nil => exact ⟨[], fun p hp => absurd hp List.not_mem_nil, rfl, rfl⟩
  | @cons c text cs texts hc _ ih =>
    rw [List.mem_cons, not_or] at h0
    obtain ⟨ps, hps, hfst, hsnd⟩ := spells_pieces hc (Ne.symm h0.1)
    obtain ⟨qs, hqs, hfsts, hsnds⟩ := ih h0.2
    refine ⟨ps ++ qs, ?_, ?_, ?_⟩
    · intro p hp
      rcases List.mem_append.1 hp with hp | hp
      · exact hps p hp
      · exact hqs p hp
    · rw [List.flatMap_append, hfst, hfsts]
      rfl
    · rw [List.flatMap_append, hsnd, hsnds]
      rfl

theorem zero_not_mem_utf8Text {cs : List Char} (h0 : '\x00' ∉ cs) : 0 ∉ utf8Text cs := by
  intro h
  obtain ⟨c, hc, hb⟩ := List.mem_flatMap.1 h
  have hne : c ≠ '\x00' := fun heq => h0 (heq ▸ hc)
  exact ne_of_ascii hb (d := '\x00') rfl (by decide) hne rfl

/-- **Strings are read as UTF-8.** However the characters of a string are written, plain or with escapes of either
kind, the parser makes of them the C string of their UTF-8, and goes on behind the quote. -/
theorem parseString_spelled (cs : List Char) (texts : List Str) (h : List.Forall₂ Spells cs texts) (h0 : '\x00' ∉ cs)
    (rest : Str) : parseString (34 :: (texts.flatten ++ 34 :: rest)) =
      pure (⟨utf8Text cs, zero_not_mem_utf8Text h0⟩, rest) := by
  obtain ⟨pieces, hpieces, hfst, hsnd⟩ := spelled_pieces h h0
  have hparse := parseString_pieces hpieces rest
  rw [hfst, hsnd] at hparse
  rw [hparse]
  exact congrArg (fun s => pure (s, rest)) (ofBytes_bytes ⟨utf8Text cs, zero_not_mem_utf8Text h0⟩)

theorem gate_no_zero : '\x00' ∉ ['a', '\n', '门', '😀'] := by decide

/-- a plain character, a letter, four hex digits and a pair -/
theorem parseString_spelled_gate :
    parseString (34 :: ([bytes "a", bytes "\\n", bytes "\\u95E8", bytes "\\ud83d\\ude00"].flatten ++ 34 :: bytes "]")) =
      pure (⟨utf8Text ['a', '\n', '门', '😀'], zero_not_mem_utf8Text gate_no_zero⟩, bytes "]") := by
  refine parseString_spelled ['a', '\n', '门', '😀'] _ ?_ gate_no_zero (bytes "]")
  refine .cons ?_ (.cons ?_ (.cons ?_ (.cons ?_ .nil)))
  · exact Spells.plain (by decide) (by decide) (by decide)
  · exact Spells.letter (by decide)
  · exact Spells.unit (by decide) ⟨9, 5, 14, 8, by decide +kernel, by decide⟩
  · have hsplit : bytes "\\ud83d\\ude00" = 92 :: 117 :: (bytes "d83d" ++ 92 :: 117 :: bytes "de00") := by decide +kernel
    rw [hsplit]
    exact Spells.pair (by decide) ⟨13, 8, 3, 13, by decide +kernel, by decide⟩
      ⟨13, 14, 0, 0, by decide +kernel, by decide⟩

end StoreService.JsonText
