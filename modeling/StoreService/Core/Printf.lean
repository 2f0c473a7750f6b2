/-
Texts of rationals as `sprintf` writes them.

`%.0f`, `%f` and `%e` round to the nearest decimal, and a tie to the even one (`nearest`). The first two write every
digit before the point, so their texts are as long as the number is large. `%e` scales the number by a power of ten
until one digit is before the point (`mantissa`); its text is short whatever the number is, as long as the exponent has
three digits at most.

- `length_whole_le`, `length_fixed_le`, `length_scientific_le`: how long the texts are.
- `zero_not_mem_whole`, `zero_not_mem_fixed`, `zero_not_mem_scientific`: they are C strings.
-/
import Mathlib.Tactic
import Mathlib.Data.Int.Log
import StoreService.Core.Decimal

namespace StoreService.Printf

open StoreService.Decimal

/-! ## Rounding -/

/-- the closest natural number, the even one of two -/
def nearest (q : ℚ) : ℕ :=
  let n := ⌊q⌋₊
  if 2 * (q - n) < 1 ∨ 2 * (q - n) = 1 ∧ n % 2 = 0 then n else n + 1

theorem nearest_le {q : ℚ} {n : ℕ} (h : q ≤ n) : nearest q ≤ n := by
  have hfloor : ⌊q⌋₊ ≤ n := Nat.floor_le_of_le h
  rw [nearest]
  rcases hfloor.eq_or_lt with heq | hlt
  · have hbelow : 2 * (q - (⌊q⌋₊ : ℚ)) < 1 := by
      rw [heq]
      linarith
    rw [if_pos (Or.inl hbelow)]
    exact hfloor
  · split_ifs
    · exact hfloor
    · exact hlt

/-! ## The parts of a text -/

def sign (q : ℚ) : List UInt8 := if q < 0 then [45] else []

/-- the last `k` digits of a number, with zeros before them -/
def padded (k n : ℕ) : List UInt8 := (decimal (10 ^ k + n % 10 ^ k)).tail

/-- a sign and two digits or more -/
def exponentText (e : ℤ) : List UInt8 :=
  (if e < 0 then 45 else 43) :: ((if e.natAbs < 10 then [48] else []) ++ decimal e.natAbs)

theorem length_sign_le (q : ℚ) : (sign q).length ≤ 1 := by
  rw [sign]
  split_ifs <;> decide

theorem length_padded_le (k n : ℕ) : (padded k n).length ≤ k := by
  have hlt : 10 ^ k + n % 10 ^ k < 10 ^ (k + 1) := by
    have hmod : n % 10 ^ k < 10 ^ k := Nat.mod_lt n (Nat.pow_pos (by decide))
    rw [pow_succ]
    omega
  have hlen : (decimal (10 ^ k + n % 10 ^ k)).length ≤ k + 1 := length_decimal_le (Nat.succ_pos k) hlt
  rw [padded, List.length_tail]
  omega

theorem length_exponentText_le {e : ℤ} (h : e.natAbs < 1000) : (exponentText e).length ≤ 4 := by
  rw [exponentText, List.length_cons, List.length_append]
  split_ifs with hten
  · have hone : (decimal e.natAbs).length ≤ 1 := length_decimal_le Nat.one_pos hten
    rw [List.length_singleton]
    omega
  · have hthree : (decimal e.natAbs).length ≤ 3 := length_decimal_le (by decide) h
    rw [List.length_nil]
    omega

theorem zero_not_mem_sign (q : ℚ) : 0 ∉ sign q := by
  rw [sign]
  split_ifs <;> decide

theorem zero_not_mem_padded (k n : ℕ) : 0 ∉ padded k n := fun h => zero_not_mem_decimal _ (List.mem_of_mem_tail h)

theorem zero_not_mem_exponentText (e : ℤ) : 0 ∉ exponentText e := by
  simp only [exponentText, List.mem_cons, List.mem_append, not_or]
  refine ⟨?_, ?_, zero_not_mem_decimal _⟩
  · split_ifs <;> decide
  · split_ifs <;> decide

/-! ## The formats -/

/-- `%.0f` -/
def whole (q : ℚ) : List UInt8 := sign q ++ decimal (nearest |q|)

/-- a number of millionths with its point -/
def pointed (m : ℕ) : List UInt8 := decimal (m / 10 ^ 6) ++ 46 :: padded 6 m

/-- `%f` -/
def fixed (q : ℚ) : List UInt8 := sign q ++ pointed (nearest (|q| * 10 ^ 6))

/-- the seven digits of `%e` as a number, and the exponent -/
def mantissa (q : ℚ) : ℕ × ℤ :=
  let e := Int.log 10 |q|
  let m := nearest (|q| * 10 ^ (6 - e))
  -- rounding can reach the next power of ten
  if m = 10 ^ 7 then (10 ^ 6, e + 1) else (m, e)

/-- `%e` -/
def scientific (q : ℚ) : List UInt8 := sign q ++ pointed (mantissa q).1 ++ 101 :: exponentText (mantissa q).2

theorem length_whole_le {q : ℚ} {k : ℕ} (h : |q| ≤ 10 ^ k) : (whole q).length ≤ k + 2 := by
  have hle : nearest |q| ≤ 10 ^ k := nearest_le (by exact_mod_cast h)
  have hlt : nearest |q| < 10 ^ (k + 1) := lt_of_le_of_lt hle (Nat.pow_lt_pow_succ (by decide))
  have hdigits : (decimal (nearest |q|)).length ≤ k + 1 := length_decimal_le (Nat.succ_pos k) hlt
  have hsign := length_sign_le q
  rw [whole, List.length_append]
  omega

theorem length_pointed_le {m k : ℕ} (hk : 0 < k) (h : m / 10 ^ 6 < 10 ^ k) : (pointed m).length ≤ k + 7 := by
  have hdigits : (decimal (m / 10 ^ 6)).length ≤ k := length_decimal_le hk h
  have hpadded := length_padded_le 6 m
  rw [pointed, List.length_append, List.length_cons]
  omega

theorem length_fixed_le {q : ℚ} {k : ℕ} (h : |q| ≤ 10 ^ k) : (fixed q).length ≤ k + 9 := by
  have hscaled : |q| * 10 ^ 6 ≤ ((10 ^ k * 10 ^ 6 : ℕ) : ℚ) := by
    rw [Nat.cast_mul, Nat.cast_pow, Nat.cast_pow, Nat.cast_ofNat]
    gcongr
  have hle : nearest (|q| * 10 ^ 6) / 10 ^ 6 ≤ 10 ^ k := by
    have hdiv := Nat.div_le_div_right (c := 10 ^ 6) (nearest_le hscaled)
    rwa [Nat.mul_div_cancel _ (by decide)] at hdiv
  have hpointed : (pointed (nearest (|q| * 10 ^ 6))).length ≤ k + 1 + 7 :=
    length_pointed_le (Nat.succ_pos k) (lt_of_le_of_lt hle (Nat.pow_lt_pow_succ (by decide)))
  have hsign := length_sign_le q
  rw [fixed, List.length_append]
  omega

/-- one digit is before the point -/
theorem mantissa_lt (q : ℚ) : (mantissa q).1 < 10 ^ 7 := by
  have hpow : |q| < 10 ^ (Int.log 10 |q| + 1) := by
    have hlog := Int.lt_zpow_succ_log_self (b := 10) (by decide) |q|
    exact_mod_cast hlog
  have hscaled : |q| * 10 ^ (6 - Int.log 10 |q|) ≤ ((10 ^ 7 : ℕ) : ℚ) := by
    calc |q| * 10 ^ (6 - Int.log 10 |q|)
        ≤ 10 ^ (Int.log 10 |q| + 1) * 10 ^ (6 - Int.log 10 |q|) := by gcongr
      _ = 10 ^ (7 : ℤ) := by
        rw [← zpow_add₀ (by norm_num : (10 : ℚ) ≠ 0)]
        congr 1
        ring
      _ = ((10 ^ 7 : ℕ) : ℚ) := by norm_num
  have hle := nearest_le hscaled
  rw [mantissa]
  split_ifs with htop
  · exact Nat.pow_lt_pow_succ (by decide)
  · exact lt_of_le_of_ne hle htop

theorem mantissa_exponent {q : ℚ} {k : ℕ} (hq : q = 0 ∨ 10 ^ (-k : ℤ) ≤ |q| ∧ |q| ≤ 10 ^ (k : ℤ)) :
    (mantissa q).2.natAbs ≤ k + 1 := by
  have hlog : -(k : ℤ) ≤ Int.log 10 |q| ∧ Int.log 10 |q| ≤ k := by
    rcases hq with rfl | ⟨hlow, hhigh⟩
    · rw [abs_zero, Int.log_of_right_le_zero _ le_rfl]
      omega
    · have hpos : (0 : ℚ) < 10 ^ (-k : ℤ) := zpow_pos (by norm_num) _
      have hbase : ∀ z : ℤ, Int.log 10 ((10 : ℚ) ^ z) = z := fun z => by
        have hz := Int.log_zpow (R := ℚ) (b := 10) (by decide) z
        exact_mod_cast hz
      constructor
      · rw [← hbase (-k)]
        exact Int.log_mono_right hpos hlow
      · rw [← hbase k]
        exact Int.log_mono_right (lt_of_lt_of_le hpos hlow) hhigh
  rw [mantissa]
  split_ifs
  · dsimp only
    omega
  · dsimp only
    omega

theorem length_scientific_le {q : ℚ} {k : ℕ} (hk : k < 999)
    (hq : q = 0 ∨ 10 ^ (-k : ℤ) ≤ |q| ∧ |q| ≤ 10 ^ (k : ℤ)) : (scientific q).length ≤ 14 := by
  have hdigit : (mantissa q).1 / 10 ^ 6 < 10 ^ 1 := by
    have hlt := mantissa_lt q
    omega
  have hpointed := length_pointed_le Nat.one_pos hdigit
  have hexp := mantissa_exponent hq
  have hexponent : (exponentText (mantissa q).2).length ≤ 4 := length_exponentText_le (by omega)
  have hsign := length_sign_le q
  rw [scientific, List.length_append, List.length_append, List.length_cons]
  omega

theorem zero_not_mem_whole (q : ℚ) : 0 ∉ whole q := by
  rw [whole, List.mem_append, not_or]
  exact ⟨zero_not_mem_sign q, zero_not_mem_decimal _⟩

theorem zero_not_mem_pointed (m : ℕ) : 0 ∉ pointed m := by
  rw [pointed, List.mem_append, List.mem_cons, not_or, not_or]
  exact ⟨zero_not_mem_decimal _, by decide, zero_not_mem_padded 6 m⟩

theorem zero_not_mem_fixed (q : ℚ) : 0 ∉ fixed q := by
  rw [fixed, List.mem_append, not_or]
  exact ⟨zero_not_mem_sign q, zero_not_mem_pointed _⟩

theorem zero_not_mem_scientific (q : ℚ) : 0 ∉ scientific q := by
  rw [scientific, List.mem_append, List.mem_append, List.mem_cons, not_or, not_or, not_or]
  exact ⟨⟨zero_not_mem_sign q, zero_not_mem_pointed _⟩, by decide, zero_not_mem_exponentText _⟩

example : fixed (-1 / 4) = "-0.250000".toUTF8.toList := by decide +kernel
example : scientific (123456789 / 10 ^ 15) = "1.234568e-07".toUTF8.toList := by decide +kernel

end StoreService.Printf
