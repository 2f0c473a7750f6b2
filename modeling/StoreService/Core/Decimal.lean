/-
Numbers in decimal, as bytes.

The text of a number is that of its tenth with one more digit behind it. `decimal_induction` says this as a rule: a
property of a number and its text holds if it holds of the digits and survives one more digit at the end. A number is
read off by a pass over the digits from the left, so a reader keeps its value along this rule (`foldl_decimal`). A scan
for digits stops behind the text of a number if no digit follows (`takeWhile_decimal`, `dropWhile_decimal`).
-/
import Mathlib.Tactic
import StoreService.Core.Numeral

namespace StoreService.Decimal

def isDigit (c : UInt8) : Bool := 48 ≤ c && c ≤ 57

/-- the byte of a digit -/
def digit (d : ℕ) : UInt8 := UInt8.ofNat (48 + d)

/-- the value of the byte of a digit -/
def value (c : UInt8) : ℕ := c.toNat - 48

/-- a number in decimal -/
def decimal (n : ℕ) : List UInt8 := Numeral.bytes (Nat.toDigits 10 n)

theorem isDigit_digit {d : ℕ} (h : d < 10) : isDigit (digit d) = true := by
  interval_cases d <;> decide

theorem value_digit {d : ℕ} (h : d < 10) : value (digit d) = d := by
  interval_cases d <;> decide

theorem digit_ne_zero {d : ℕ} (h : d < 10) (hd : d ≠ 0) : digit d ≠ 48 := by
  interval_cases d
  · exact absurd rfl hd
  all_goals decide

theorem digitChar_toUInt8 {d : ℕ} (h : d < 10) : d.digitChar.toUInt8 = digit d := by
  interval_cases d <;> decide

theorem decimal_of_lt {d : ℕ} (h : d < 10) : decimal d = [digit d] := by
  rw [decimal, Nat.toDigits_of_lt_base h, ← digitChar_toUInt8 h]
  rfl

theorem decimal_append_digit {n d : ℕ} (hn : 0 < n) (hd : d < 10) : decimal (10 * n + d) = decimal n ++ [digit d] := by
  have hdiv : (10 * n + d) / 10 = n := by omega
  have hmod : (10 * n + d) % 10 = d := by omega
  rw [decimal, Nat.toDigits_of_base_le (by decide) (by omega), hdiv, hmod, Numeral.bytes, List.map_append,
    ← digitChar_toUInt8 hd]
  rfl

/-- **One digit at the end at a time.** -/
theorem decimal_induction {P : ℕ → List UInt8 → Prop} (one : ∀ d < 10, P d [digit d])
    (step : ∀ n d, 0 < n → d < 10 → P n (decimal n) → P (10 * n + d) (decimal n ++ [digit d])) (n : ℕ) :
    P n (decimal n) := by
  induction n using Nat.strong_induction_on with
  | _ n ih =>
    by_cases hn : n < 10
    · rw [decimal_of_lt hn]
      exact one n hn
    · have hsplit : 10 * (n / 10) + n % 10 = n := Nat.div_add_mod n 10
      have hd : n % 10 < 10 := Nat.mod_lt n (by decide)
      have hpos : 0 < n / 10 := by omega
      rw [← hsplit, decimal_append_digit hpos hd]
      exact step _ _ hpos hd (ih (n / 10) (by omega))

theorem isDigit_of_mem_decimal {n : ℕ} : ∀ c ∈ decimal n, isDigit c = true := by
  refine decimal_induction (P := fun _ s => ∀ c ∈ s, isDigit c = true) ?_ ?_ n
  · intro d hd c hc
    rw [List.mem_singleton.1 hc]
    exact isDigit_digit hd
  · intro m d _ hd ih c hc
    rcases List.mem_append.1 hc with hc | hc
    · exact ih c hc
    · rw [List.mem_singleton.1 hc]
      exact isDigit_digit hd

theorem zero_not_mem_decimal (n : ℕ) : 0 ∉ decimal n := fun h => absurd (isDigit_of_mem_decimal 0 h) (by decide)

/-- a number other than 0 does not start with the digit 0 -/
theorem decimal_head (n : ℕ) : ∃ d s, d < 10 ∧ (0 < n → 0 < d) ∧ decimal n = digit d :: s := by
  refine decimal_induction (P := fun n s => ∃ d t, d < 10 ∧ (0 < n → 0 < d) ∧ s = digit d :: t) ?_ ?_ n
  · intro d hd
    exact ⟨d, [], hd, id, rfl⟩
  · intro m e hm _ ih
    obtain ⟨d, t, hd, hpos, ht⟩ := ih
    exact ⟨d, t ++ [digit e], hd, fun _ => hpos hm, by rw [ht, List.cons_append]⟩

/-- **Reading from the left.** A reader that turns the value of a number and one more digit into the value of the longer
number has, behind the text, the value of the number. -/
theorem foldl_decimal {S : Type} {f : S → UInt8 → S} (val : ℕ → S) (bound : ℕ)
    (hf : ∀ n d, d < 10 → 10 * n + d ≤ bound → f (val n) (digit d) = val (10 * n + d)) {n : ℕ} (hn : n ≤ bound) :
    (decimal n).foldl f (val 0) = val n := by
  refine decimal_induction (P := fun n s => n ≤ bound → s.foldl f (val 0) = val n) ?_ ?_ n hn
  · intro d hd hle
    have hone := hf 0 d hd (by omega)
    rw [Nat.mul_zero, Nat.zero_add] at hone
    exact hone
  · intro m d _ hd ih hle
    rw [List.foldl_append, ih (by omega)]
    exact hf m d hd hle

theorem length_decimal_le {n k : ℕ} (hk : 0 < k) (hn : n < 10 ^ k) : (decimal n).length ≤ k := by
  rw [decimal, Numeral.bytes, List.length_map]
  exact (Nat.length_toDigits_le_iff (by decide) hk).2 hn

section Scan
variable {n : ℕ} {rest : List UInt8} (hrest : ∀ c ∈ rest.head?, isDigit c = false)
include hrest

theorem takeWhile_decimal : (decimal n ++ rest).takeWhile isDigit = decimal n := by
  rw [List.takeWhile_append_of_pos isDigit_of_mem_decimal]
  cases rest with
  | nil => simp
  | cons c s => rw [List.takeWhile_cons_of_neg (by rw [hrest c rfl]; decide), List.append_nil]

theorem dropWhile_decimal : (decimal n ++ rest).dropWhile isDigit = rest := by
  rw [List.dropWhile_append_of_pos isDigit_of_mem_decimal]
  cases rest with
  | nil => rfl
  | cons c s => rw [List.dropWhile_cons_of_neg (by rw [hrest c rfl]; decide)]

end Scan

end StoreService.Decimal
