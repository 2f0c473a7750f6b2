/-
The texts of numbers (`print_number` in `cJSON.cpp`).

A number is a double. Doubles are a parameter (`Doubles`): the operations and constants of the code, with what the code
relies on. For integers up to 2^53 they are exact; of every double, nothing is assumed but that `(int)d` is an int, and
how many bytes `sprintf` writes: `%e` never more than 14, `%.0f` at most 62 below 1e60 and `%f` at most 18 up to 1e9.
`print_number` chooses the format so that these bounds apply (`numberFormat`), and each text then fits into the block
that is allocated for it.

- `printNumber_eq`: no text of a number is longer than its block.
- `rationals`: rationals in the range of the doubles are such numbers, printed digit by digit.
-/
import Mathlib.Tactic
import StoreService.Common.Json
import StoreService.Core.Printf

namespace StoreService.JsonText

open StoreService.Json StoreService.Decimal StoreService.Printf

/-! ## Doubles -/

/-- the formats that `print_number` chooses from -/
inductive Format where
  /-- `%.0f` -/
  | whole
  /-- `%e` -/
  | scientific
  /-- `%f` -/
  | fixed
deriving DecidableEq, Repr

/-- a double as the code handles it -/
structure Doubles where
  F : Type
  ofInt : ℤ → F
  add : F → F → F
  sub : F → F → F
  mul : F → F → F
  fabs : F → F
  floor : F → F
  /-- `pow(10.0, …)` -/
  pow10 : ℤ → F
  /-- the constant `1.0e…` -/
  e10 : ℤ → F
  /-- `DBL_EPSILON` -/
  epsilon : F
  /-- `(int)d` -/
  toInt : F → ℤ
  isZero : F → Bool
  /-- `<=`, which is false with a NaN, as `<` is -/
  le : F → F → Bool
  lt : F → F → Bool
  sprintf : Format → F → Str
  toInt_range : ∀ d, -2 ^ 31 ≤ toInt d ∧ toInt d < 2 ^ 31
  length_whole : ∀ d, lt (fabs d) (e10 60) = true → (sprintf .whole d).length ≤ 62
  length_scientific : ∀ d, (sprintf .scientific d).length ≤ 14
  length_fixed : ∀ d, lt (e10 9) (fabs d) = false → (sprintf .fixed d).length ≤ 18
  sprintf_no_zero : ∀ f d, 0 ∉ sprintf f d
  add_ofInt : ∀ a b, 0 ≤ a → 0 ≤ b → a + b ≤ 2 ^ 53 → add (ofInt a) (ofInt b) = ofInt (a + b)
  sub_self_ofInt : ∀ a, |a| ≤ 2 ^ 53 → sub (ofInt a) (ofInt a) = ofInt 0
  /-- but `-1 * 0` is `-0.0` -/
  mul_ofInt : ∀ a b, 0 ≤ a ∧ 0 ≤ b ∨ a ≠ 0 ∧ b ≠ 0 → |a * b| ≤ 2 ^ 53 → mul (ofInt a) (ofInt b) = ofInt (a * b)
  fabs_zero : fabs (ofInt 0) = ofInt 0
  pow10_zero : pow10 0 = ofInt 1
  toInt_ofInt : ∀ n, -2 ^ 31 ≤ n → n < 2 ^ 31 → toInt (ofInt n) = n
  isZero_ofInt : ∀ n, isZero (ofInt n) = decide (n = 0)
  le_ofInt : ∀ a b, |a| ≤ 2 ^ 53 → |b| ≤ 2 ^ 53 → le (ofInt a) (ofInt b) = decide (a ≤ b)
  epsilon_nonneg : le (ofInt 0) epsilon = true

variable {D : Doubles}

/-! ## Blocks -/

/-- a text written with its terminator into a block of `cJSON_malloc` -/
def alloc (size : ℕ) (text : Str) : Option Str := if text.length < size then some text else none

theorem alloc_eq {size : ℕ} {text : Str} (h : text.length < size) : alloc size text = some text := if_pos h

/-! ## Numbers -/

/-- `%d` -/
def intText (n : ℤ) : Str := if n < 0 then 45 :: decimal n.natAbs else decimal n.toNat

/-- `fabs(((double)item->valueint)-d)<=DBL_EPSILON && d<=INT_MAX && d>=INT_MIN` -/
def Doubles.isInt (D : Doubles) (d : D.F) : Bool :=
  D.le (D.fabs (D.sub (D.ofInt (D.toInt d)) d)) D.epsilon && D.le d (D.ofInt (2 ^ 31 - 1)) && D.le (D.ofInt (-2 ^ 31)) d

/-- the format for a number that is no int -/
def numberFormat (D : Doubles) (d : D.F) : Format :=
  if D.le (D.fabs (D.sub (D.floor d) d)) D.epsilon && D.lt (D.fabs d) (D.e10 60) then .whole
  else if D.lt (D.fabs d) (D.e10 (-6)) || D.lt (D.e10 9) (D.fabs d) then .scientific
  else .fixed

/-- the text of a number -/
def numberText (D : Doubles) (d : D.F) : Str :=
  if D.isZero d then [48] else if D.isInt d then intText (D.toInt d) else D.sprintf (numberFormat D d) d

/-- the block for a number -/
def numberSize (D : Doubles) (d : D.F) : ℕ := if D.isZero d then 2 else if D.isInt d then 21 else 64

/-- `print_number` -/
def printNumber (D : Doubles) (d : D.F) : Option Str := alloc (numberSize D d) (numberText D d)

theorem length_intText {n : ℤ} (h : -2 ^ 31 ≤ n ∧ n < 2 ^ 31) : (intText n).length ≤ 11 := by
  rw [intText]
  split_ifs with hn
  · have hdigits : (decimal n.natAbs).length ≤ 10 := length_decimal_le (by decide) (by omega)
    rw [List.length_cons]
    omega
  · have hdigits : (decimal n.toNat).length ≤ 10 := length_decimal_le (by decide) (by omega)
    omega

/-- the guards keep the long formats from large numbers -/
theorem length_sprintf_lt (d : D.F) : (D.sprintf (numberFormat D d) d).length < 64 := by
  rw [numberFormat]
  split_ifs with hwhole hexp
  · rw [Bool.and_eq_true] at hwhole
    exact lt_of_le_of_lt (D.length_whole d hwhole.2) (by decide)
  · exact lt_of_le_of_lt (D.length_scientific d) (by decide)
  · rw [Bool.or_eq_true, not_or, Bool.not_eq_true] at hexp
    exact lt_of_le_of_lt (D.length_fixed d (Bool.eq_false_iff.2 hexp.2)) (by decide)

/-- **A number fits its block.** -/
theorem printNumber_eq (d : D.F) : printNumber D d = some (numberText D d) := by
  refine alloc_eq ?_
  rw [numberText, numberSize]
  split_ifs
  · decide
  · exact lt_of_le_of_lt (length_intText (D.toInt_range d)) (by decide)
  · exact length_sprintf_lt d

theorem numberSize_le (d : D.F) : numberSize D d ≤ 64 := by
  rw [numberSize]
  split_ifs <;> decide

theorem zero_not_mem_intText (n : ℤ) : 0 ∉ intText n := by
  rw [intText]
  split_ifs
  · rw [List.mem_cons, not_or]
    exact ⟨by decide, zero_not_mem_decimal _⟩
  · exact zero_not_mem_decimal _

theorem zero_not_mem_numberText (d : D.F) : 0 ∉ numberText D d := by
  rw [numberText]
  split_ifs
  · decide
  · exact zero_not_mem_intText _
  · exact D.sprintf_no_zero _ d

/-- an int is recognised -/
theorem isInt_ofInt {n : ℤ} (hlow : -2 ^ 31 ≤ n) (hhigh : n < 2 ^ 31) : D.isInt (D.ofInt n) = true := by
  have habs : |n| ≤ 2 ^ 53 := abs_le.2 ⟨by omega, by omega⟩
  rw [Doubles.isInt, D.toInt_ofInt n hlow hhigh, D.sub_self_ofInt n habs, D.fabs_zero, D.epsilon_nonneg,
    D.le_ofInt n _ habs (by decide), D.le_ofInt _ n (by decide) habs, Bool.true_and, Bool.and_eq_true]
  exact ⟨decide_eq_true (by omega), decide_eq_true hlow⟩

theorem numberText_ofInt {n : ℤ} (hlow : -2 ^ 31 ≤ n) (hhigh : n < 2 ^ 31) : numberText D (D.ofInt n) = intText n := by
  rw [numberText, D.isZero_ofInt, isInt_ofInt hlow hhigh, D.toInt_ofInt n hlow hhigh]
  by_cases hn : n = 0
  · subst hn
    rfl
  · rw [if_neg (by simpa using hn), if_pos rfl]

/-! ## Exact arithmetic -/

namespace Exact

/-- no double that is not 0 is farther from 1 than this -/
def InRange (q : ℚ) : Prop := q = 0 ∨ 10 ^ (-(400 : ℕ) : ℤ) ≤ |q| ∧ |q| ≤ 10 ^ ((400 : ℕ) : ℤ)

instance (q : ℚ) : Decidable (InRange q) := inferInstanceAs (Decidable (_ ∨ _ ∧ _))

/-- a rational in the range of the doubles -/
@[ext]
structure Value where
  val : ℚ
  inRange : InRange val

theorem inRange_zero : InRange 0 := Or.inl rfl

theorem inRange_limit : InRange (10 ^ ((400 : ℕ) : ℤ)) := by
  have hpos : (0 : ℚ) < 10 ^ ((400 : ℕ) : ℤ) := zpow_pos (by norm_num) _
  refine Or.inr ?_
  rw [abs_of_pos hpos]
  exact ⟨zpow_le_zpow_right₀ (by norm_num) (by decide), le_rfl⟩

theorem inRange_neg {q : ℚ} (h : InRange q) : InRange (-q) := by
  rwa [InRange, neg_eq_zero, abs_neg]

theorem inRange_abs {q : ℚ} (h : InRange q) : InRange |q| := by
  rwa [InRange, abs_eq_zero, abs_abs]

/-- what is out of the range becomes 0 or the limit -/
def ofRat (q : ℚ) : Value :=
  if h : InRange q then ⟨q, h⟩
  else if |q| < 1 then ⟨0, inRange_zero⟩
  else if 0 < q then ⟨_, inRange_limit⟩
  else ⟨_, inRange_neg inRange_limit⟩

/-- `(int)d`; what it is outside of the ints is not defined -/
def toInt (q : ℚ) : ℤ := max (-2 ^ 31) (min (2 ^ 31 - 1) (q.num.tdiv q.den))

def sprintf : Format → ℚ → Str
  | .whole, q => whole q
  | .scientific, q => scientific q
  | .fixed, q => fixed q

theorem ofRat_val {q : ℚ} (h : InRange q) : (ofRat q).val = q := by rw [ofRat, dif_pos h]

theorem ofRat_ne_zero {q : ℚ} (h : 1 ≤ |q|) : (ofRat q).val ≠ 0 := by
  have hlimit : (10 : ℚ) ^ ((400 : ℕ) : ℤ) ≠ 0 := zpow_ne_zero _ (by norm_num)
  rw [ofRat]
  split_ifs
  · exact fun hq => by rw [show q = 0 from hq, abs_zero] at h; norm_num at h
  · exact absurd h (not_le.2 ‹_›)
  · exact hlimit
  · exact neg_ne_zero.2 hlimit

theorem inRange_intCast {n : ℤ} (h : |n| ≤ 2 ^ 53) : InRange n := by
  rcases eq_or_ne n 0 with rfl | hn
  · exact Or.inl Int.cast_zero
  · have hone : (1 : ℚ) ≤ |(n : ℚ)| := by exact_mod_cast Int.one_le_abs hn
    have htop : |(n : ℚ)| ≤ 2 ^ 53 := by exact_mod_cast h
    refine Or.inr ⟨le_trans ?_ hone, htop.trans ?_⟩
    · exact zpow_le_one_of_nonpos₀ (by norm_num) (by decide)
    · calc (2 : ℚ) ^ 53 ≤ 10 ^ 53 := by gcongr; norm_num
        _ ≤ 10 ^ 400 := pow_le_pow_right₀ (by norm_num) (by decide)
        _ = 10 ^ ((400 : ℕ) : ℤ) := (zpow_natCast _ _).symm

theorem val_intCast {n : ℤ} (h : |n| ≤ 2 ^ 53) : (ofRat n).val = n := ofRat_val (inRange_intCast h)

theorem inRange_pow {z : ℤ} (h : |z| ≤ 400) : InRange (10 ^ z) := by
  obtain ⟨hlow, hhigh⟩ := abs_le.1 h
  refine Or.inr ?_
  rw [abs_of_pos (zpow_pos (by norm_num) z)]
  exact ⟨zpow_le_zpow_right₀ (by norm_num) hlow, zpow_le_zpow_right₀ (by norm_num) hhigh⟩

theorem toInt_range (q : ℚ) : -2 ^ 31 ≤ toInt q ∧ toInt q < 2 ^ 31 := by
  rw [toInt]
  omega

theorem length_whole (d : Value) (h : decide (|d.val| < (ofRat (10 ^ (60 : ℤ))).val) = true) :
    (sprintf .whole d.val).length ≤ 62 := by
  have hlt := of_decide_eq_true h
  rw [ofRat_val (inRange_pow (by decide))] at hlt
  exact length_whole_le (k := 60) (by exact_mod_cast hlt.le)

theorem length_scientific (d : Value) : (sprintf .scientific d.val).length ≤ 14 :=
  length_scientific_le (by decide) d.inRange

theorem length_fixed (d : Value) (h : decide ((ofRat (10 ^ (9 : ℤ))).val < |d.val|) = false) :
    (sprintf .fixed d.val).length ≤ 18 := by
  have hle := not_lt.1 (of_decide_eq_false h)
  rw [ofRat_val (inRange_pow (by decide))] at hle
  exact length_fixed_le (k := 9) (by exact_mod_cast hle)

theorem sprintf_no_zero (f : Format) (d : Value) : 0 ∉ sprintf f d.val := by
  cases f
  · exact zero_not_mem_whole _
  · exact zero_not_mem_scientific _
  · exact zero_not_mem_fixed _

theorem add_intCast (a b : ℤ) (ha : 0 ≤ a) (hb : 0 ≤ b) (hab : a + b ≤ 2 ^ 53) :
    ofRat ((ofRat a).val + (ofRat b).val) = ofRat (a + b : ℤ) := by
  have ha' : |a| ≤ 2 ^ 53 := by
    rw [abs_of_nonneg ha]
    omega
  have hb' : |b| ≤ 2 ^ 53 := by
    rw [abs_of_nonneg hb]
    omega
  rw [val_intCast ha', val_intCast hb', Int.cast_add]

theorem sub_self_intCast (a : ℤ) (_ : |a| ≤ 2 ^ 53) : ofRat ((ofRat a).val - (ofRat a).val) = ofRat (0 : ℤ) := by
  rw [sub_self, Int.cast_zero]

theorem val_zero : (ofRat (0 : ℤ)).val = 0 := by
  rw [val_intCast (by decide)]
  exact Int.cast_zero

theorem fabs_zero : (⟨|(ofRat (0 : ℤ)).val|, inRange_abs (ofRat (0 : ℤ)).inRange⟩ : Value) = ofRat (0 : ℤ) := by
  refine Value.ext ?_
  change |(ofRat (0 : ℤ)).val| = (ofRat (0 : ℤ)).val
  rw [val_zero, abs_zero]

theorem pow10_zero : ofRat (10 ^ (0 : ℤ)) = ofRat (1 : ℤ) := by rw [zpow_zero, Int.cast_one]

theorem epsilon_nonneg : decide ((ofRat (0 : ℤ)).val ≤ (ofRat (1 / 2 ^ 52)).val) = true := by decide +kernel

theorem mul_intCast (a b : ℤ) (_ : 0 ≤ a ∧ 0 ≤ b ∨ a ≠ 0 ∧ b ≠ 0) (hab : |a * b| ≤ 2 ^ 53) :
    ofRat ((ofRat a).val * (ofRat b).val) = ofRat (a * b : ℤ) := by
  rcases eq_or_ne a 0 with rfl | ha
  · rw [val_zero, zero_mul, zero_mul, Int.cast_zero]
  rcases eq_or_ne b 0 with rfl | hb
  · rw [val_zero, mul_zero, mul_zero, Int.cast_zero]
  rw [abs_mul] at hab
  have ha' : |a| ≤ 2 ^ 53 := le_trans (le_mul_of_one_le_right (abs_nonneg a) (Int.one_le_abs hb)) hab
  have hb' : |b| ≤ 2 ^ 53 := le_trans (le_mul_of_one_le_left (abs_nonneg b) (Int.one_le_abs ha)) hab
  rw [val_intCast ha', val_intCast hb', Int.cast_mul]

theorem toInt_intCast (n : ℤ) (hlow : -2 ^ 31 ≤ n) (hhigh : n < 2 ^ 31) : toInt (ofRat n).val = n := by
  rw [val_intCast (abs_le.2 ⟨by omega, by omega⟩), toInt, Rat.num_intCast, Rat.den_intCast, Nat.cast_one, Int.tdiv_one]
  omega

theorem isZero_intCast (n : ℤ) : decide ((ofRat n).val = 0) = decide (n = 0) := by
  refine decide_eq_decide.2 ⟨fun h => ?_, fun h => ?_⟩
  · by_contra hn
    exact ofRat_ne_zero (by exact_mod_cast Int.one_le_abs hn) h
  · rw [h, val_zero]

theorem le_intCast (a b : ℤ) (ha : |a| ≤ 2 ^ 53) (hb : |b| ≤ 2 ^ 53) :
    decide ((ofRat a).val ≤ (ofRat b).val) = decide (a ≤ b) := by
  rw [val_intCast ha, val_intCast hb]
  exact decide_eq_decide.2 Int.cast_le

end Exact

/-- rationals in the range of the doubles, and exact -/
def rationals : Doubles where
  F := Exact.Value
  ofInt n := Exact.ofRat n
  add a b := Exact.ofRat (a.val + b.val)
  sub a b := Exact.ofRat (a.val - b.val)
  mul a b := Exact.ofRat (a.val * b.val)
  fabs a := ⟨|a.val|, Exact.inRange_abs a.inRange⟩
  floor a := Exact.ofRat ⌊a.val⌋
  pow10 e := Exact.ofRat (10 ^ e)
  e10 e := Exact.ofRat (10 ^ e)
  epsilon := Exact.ofRat (1 / 2 ^ 52)
  toInt a := Exact.toInt a.val
  isZero a := a.val = 0
  le a b := a.val ≤ b.val
  lt a b := a.val < b.val
  sprintf f a := Exact.sprintf f a.val
  toInt_range a := Exact.toInt_range a.val
  length_whole := Exact.length_whole
  length_scientific := Exact.length_scientific
  length_fixed := Exact.length_fixed
  sprintf_no_zero := Exact.sprintf_no_zero
  add_ofInt := Exact.add_intCast
  sub_self_ofInt := Exact.sub_self_intCast
  mul_ofInt := Exact.mul_intCast
  fabs_zero := Exact.fabs_zero
  pow10_zero := Exact.pow10_zero
  toInt_ofInt := Exact.toInt_intCast
  isZero_ofInt := Exact.isZero_intCast
  le_ofInt := Exact.le_intCast
  epsilon_nonneg := Exact.epsilon_nonneg

example : printNumber rationals (Exact.ofRat (-3 / 2)) = some (bytes "-1.500000") := by decide +kernel
example : printNumber rationals (Exact.ofRat (10 ^ 12)) = some (bytes "1000000000000") := by decide +kernel
example : printNumber rationals (Exact.ofRat (10 ^ 12 + 1 / 2)) = some (bytes "1.000000e+12") := by decide +kernel

end StoreService.JsonText
