/-
Decimal numerals of a fixed width, and texts made of fields of fixed widths.

Texts are compared character by character. Of two texts whose first fields have the same length, the first field decides
unless it is the same (`append_lt_append_iff`); numerals of the same width compare as their numbers (`numeral_lt_iff`).
Texts of ASCII characters compare as their bytes (`bytes_lt_iff`). A number whose numeral contains that of another one
is no smaller (`le_of_contains`).
-/
import Mathlib.Tactic

namespace StoreService.Numeral

/-- the last `w` decimal digits of a number -/
def numeral : ℕ → ℕ → List Char
  | 0, _ => []
  | w + 1, n => numeral w (n / 10) ++ [(n % 10).digitChar]

@[simp] theorem length_numeral (w n : ℕ) : (numeral w n).length = w := by
  induction w generalizing n with
  | zero => rfl
  | succ w ih => rw [numeral, List.length_append, ih, List.length_singleton]

theorem append_lt_append_iff {a b x y : List Char} (h : a.length = b.length) :
    a ++ x < b ++ y ↔ a < b ∨ a = b ∧ x < y := by
  induction a generalizing b with
  | nil =>
    obtain rfl := List.eq_nil_of_length_eq_zero h.symm
    simp
  | cons c a ih =>
    cases b with
    | nil => exact absurd h (Nat.succ_ne_zero _)
    | cons d b =>
      have hlen : a.length = b.length := Nat.succ.inj h
      simp only [List.cons_append, List.cons_lt_cons_iff, ih hlen, List.cons.injEq]
      tauto

theorem digitChar_lt_iff {m n : ℕ} (hm : m < 10) (hn : n < 10) : m.digitChar < n.digitChar ↔ m < n := by
  interval_cases m <;> interval_cases n <;> decide

/-- **Numerals of one width compare as their numbers.** -/
theorem numeral_lt_iff {w m n : ℕ} (hm : m < 10 ^ w) (hn : n < 10 ^ w) : numeral w m < numeral w n ↔ m < n := by
  induction w generalizing m n with
  | zero =>
    rw [pow_zero, Nat.lt_one_iff] at hm hn
    subst hm hn
    exact iff_of_false (List.lt_irrefl _) (lt_irrefl 0)
  | succ w ih =>
    rw [pow_succ] at hm hn
    have hdm : m / 10 < 10 ^ w := by omega
    have hdn : n / 10 < 10 ^ w := by omega
    have hlast : [(m % 10).digitChar] < [(n % 10).digitChar] ↔ m % 10 < n % 10 := by
      rw [List.cons_lt_cons_iff, ← digitChar_lt_iff (Nat.mod_lt m (by decide)) (Nat.mod_lt n (by decide))]
      simp
    rw [numeral, numeral, append_lt_append_iff (by simp), ih hdm hdn, hlast]
    constructor
    · rintro (h | ⟨heq, h⟩)
      · omega
      · have hsame : m / 10 = n / 10 := by
          rcases lt_trichotomy (m / 10) (n / 10) with hlt | hsame | hgt
          · exact absurd ((ih hdm hdn).2 hlt) (heq ▸ List.lt_irrefl _)
          · exact hsame
          · exact absurd ((ih hdn hdm).2 hgt) (heq ▸ List.lt_irrefl _)
        omega
    · intro h
      rcases Nat.lt_or_ge (m / 10) (n / 10) with hlt | hge
      · exact Or.inl hlt
      · have hsame : m / 10 = n / 10 := by omega
        exact Or.inr ⟨by rw [hsame], by omega⟩

theorem numeral_inj {w m n : ℕ} (hm : m < 10 ^ w) (hn : n < 10 ^ w) : numeral w m = numeral w n ↔ m = n := by
  constructor
  · intro heq
    have hmn : ¬ m < n := fun h => List.lt_irrefl _ (heq ▸ (numeral_lt_iff hm hn).2 h)
    have hnm : ¬ n < m := fun h => List.lt_irrefl _ (heq ▸ (numeral_lt_iff hn hm).2 h)
    omega
  · intro h
    rw [h]

/-- **A field and its separator.** The field decides unless it is the same. -/
theorem field_lt_iff {w m n : ℕ} {sep : Char} {x y : List Char} (hm : m < 10 ^ w) (hn : n < 10 ^ w) :
    numeral w m ++ sep :: x < numeral w n ++ sep :: y ↔ m < n ∨ m = n ∧ x < y := by
  rw [append_lt_append_iff (by simp), numeral_lt_iff hm hn, numeral_inj hm hn, List.cons_lt_cons_iff]
  simp

/-- a number of exactly this many digits is printed as its numeral -/
theorem toDigits_eq_numeral {w n : ℕ} (hlow : 10 ^ w ≤ n) (hhigh : n < 10 ^ (w + 1)) :
    Nat.toDigits 10 n = numeral (w + 1) n := by
  induction w generalizing n with
  | zero =>
    have hn : n < 10 := by simpa using hhigh
    rw [Nat.toDigits_of_lt_base hn, numeral, Nat.mod_eq_of_lt hn]
    rfl
  | succ w ih =>
    rw [pow_succ] at hlow hhigh
    have hpos : 0 < 10 ^ w := Nat.pos_of_ne_zero (by positivity)
    have hbase : 10 ≤ n := by omega
    rw [Nat.toDigits_of_base_le (by decide) hbase, numeral, ih (by omega) (by omega)]

/-! ## Numerals in numerals -/

theorem toDigits_inj {m n : ℕ} (h : Nat.toDigits 10 m = Nat.toDigits 10 n) : m = n := by
  rw [← Nat.ofDigitChars_toDigits (b := 10) (n := m) (by decide) (by decide), h,
    Nat.ofDigitChars_toDigits (by decide) (by decide)]

/-- a number whose numeral contains another one has more digits, or is that number -/
theorem length_lt_of_contains {m n : ℕ} (h : Nat.toDigits 10 m <:+: Nat.toDigits 10 n) (hne : m ≠ n) :
    (Nat.toDigits 10 m).length < (Nat.toDigits 10 n).length := by
  refine lt_of_le_of_ne h.length_le fun hlen => hne ?_
  exact toDigits_inj (h.eq_of_length hlen)

/-- **A number whose numeral contains another one is no smaller.** -/
theorem le_of_contains {m n : ℕ} (h : Nat.toDigits 10 m <:+: Nat.toDigits 10 n) : m ≤ n := by
  by_cases hne : m = n
  · exact hne.le
  · have hlen := length_lt_of_contains h hne
    have hpos : 0 < (Nat.toDigits 10 m).length := Nat.length_toDigits_pos
    have hm : m < 10 ^ (Nat.toDigits 10 m).length := (Nat.length_toDigits_le_iff (by decide) hpos).1 le_rfl
    have hn : ¬ n < 10 ^ (Nat.toDigits 10 m).length := fun hlt =>
      absurd ((Nat.length_toDigits_le_iff (by decide) hpos).2 hlt) (not_le.2 hlen)
    omega

/-! ## Bytes -/

def Ascii (text : List Char) : Prop := ∀ c ∈ text, c.toNat < 128

/-- the bytes of an ASCII text -/
def bytes (text : List Char) : List UInt8 := text.map Char.toUInt8

theorem toNat_toUInt8 {c : Char} (h : c.toNat < 128) : c.toUInt8.toNat = c.toNat :=
  Nat.mod_eq_of_lt (h.trans (by decide))

theorem toUInt8_lt_iff {c d : Char} (hc : c.toNat < 128) (hd : d.toNat < 128) : c.toUInt8 < d.toUInt8 ↔ c < d := by
  rw [UInt8.lt_iff_toNat_lt, toNat_toUInt8 hc, toNat_toUInt8 hd]
  rfl

theorem toUInt8_inj {c d : Char} (hc : c.toNat < 128) (hd : d.toNat < 128) : c.toUInt8 = d.toUInt8 ↔ c = d := by
  rw [← UInt8.toNat_inj, toNat_toUInt8 hc, toNat_toUInt8 hd]
  exact Char.toNat_inj

/-- **ASCII texts compare as their bytes.** -/
theorem bytes_lt_iff {a b : List Char} (ha : Ascii a) (hb : Ascii b) : bytes a < bytes b ↔ a < b := by
  induction a generalizing b with
  | nil => cases b <;> simp [bytes]
  | cons c a ih =>
    cases b with
    | nil => simp [bytes]
    | cons d b =>
      have hc : c.toNat < 128 := ha c List.mem_cons_self
      have hd : d.toNat < 128 := hb d List.mem_cons_self
      have hrest := ih (fun e he => ha e (List.mem_cons_of_mem _ he)) (fun e he => hb e (List.mem_cons_of_mem _ he))
      simp only [bytes, List.map_cons, List.cons_lt_cons_iff, toUInt8_lt_iff hc hd,
        toUInt8_inj hc hd] at hrest ⊢
      rw [hrest]

theorem digitChar_ascii {n : ℕ} (h : n < 10) : n.digitChar.toNat < 128 := by
  interval_cases n <;> decide

theorem numeral_ascii (w n : ℕ) : Ascii (numeral w n) := by
  induction w generalizing n with
  | zero => nofun
  | succ w ih =>
    intro c hc
    rw [numeral, List.mem_append, List.mem_singleton] at hc
    rcases hc with hc | rfl
    · exact ih _ c hc
    · exact digitChar_ascii (Nat.mod_lt n (by decide))

theorem ascii_field {w n : ℕ} {sep : Char} {x : List Char} (hsep : sep.toNat < 128) (hx : Ascii x) :
    Ascii (numeral w n ++ sep :: x) := by
  intro c hc
  rcases List.mem_append.1 hc with hc | hc
  · exact numeral_ascii w n c hc
  · rcases List.mem_cons.1 hc with rfl | hc
    · exact hsep
    · exact hx c hc

end StoreService.Numeral
