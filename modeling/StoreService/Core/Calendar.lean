/-
The proleptic Gregorian calendar: dates and day numbers.

Day 0 is 1 January of year 1; years may be zero or negative. `dayNumber` counts the days before a date, `dateOf` finds
the date of a day.

- `dateOf_spec`: every day has a date, and it is the date of that day.
- `before_of_dayNumber_lt`: an earlier day has an earlier date, compared by year, then month, then day.
-/
import Mathlib.Tactic

namespace StoreService.Calendar

def IsLeap (year : ℤ) : Prop := 4 ∣ year ∧ ¬ 100 ∣ year ∨ 400 ∣ year

instance (year : ℤ) : Decidable (IsLeap year) := inferInstanceAs (Decidable (_ ∨ _))

/-- January first -/
def monthLengths (year : ℤ) : List ℕ :=
  [31, if IsLeap year then 29 else 28, 31, 30, 31, 30, 31, 31, 30, 31, 30, 31]

/-- the days before 1 January of a year -/
def daysBeforeYear (year : ℤ) : ℤ := 365 * (year - 1) + (year - 1) / 4 - (year - 1) / 100 + (year - 1) / 400

/-- months count from 0, days from 1 -/
structure Date where
  year : ℤ
  month : ℕ
  day : ℕ
deriving DecidableEq, Repr

structure Date.Valid (d : Date) : Prop where
  month : d.month < 12
  first : 1 ≤ d.day
  last : d.day ≤ (monthLengths d.year).getD d.month 0

/-- the days of the year before a date -/
def Date.dayOfYear (d : Date) : ℕ := ((monthLengths d.year).take d.month).sum + (d.day - 1)

def dayNumber (d : Date) : ℤ := daysBeforeYear d.year + d.dayOfYear

/-- the part that holds the n-th item, when the parts have these lengths, and its place in the part -/
def locate : List ℕ → ℕ → ℕ × ℕ
  | [], n => (0, n)
  | l :: ls, n => if n < l then (0, n) else ((locate ls (n - l)).1 + 1, (locate ls (n - l)).2)

/-- the year of a day: an estimate by the mean length of a year, which is at most one off -/
def yearOf (n : ℤ) : ℤ :=
  let year := n * 400 / 146097 + 1
  if n < daysBeforeYear year then year - 1 else if daysBeforeYear (year + 1) ≤ n then year + 1 else year

def dateOf (n : ℤ) : Date :=
  let year := yearOf n
  let r := locate (monthLengths year) (n - daysBeforeYear year).toNat
  ⟨year, r.1, r.2 + 1⟩

example : dateOf 719162 = ⟨1970, 0, 1⟩ := by decide +kernel

example : dateOf (dayNumber ⟨2000, 1, 29⟩ + 1) = ⟨2000, 2, 1⟩ := by decide +kernel

/-! ## Years -/

theorem sum_monthLengths (year : ℤ) : (monthLengths year).sum = if IsLeap year then 366 else 365 := by
  unfold monthLengths
  split_ifs <;> rfl

theorem monthLengths_le (year : ℤ) (month : ℕ) : (monthLengths year).getD month 0 ≤ 31 := by
  have hall : ∀ days ∈ monthLengths year, days ≤ 31 := by
    by_cases h : IsLeap year <;> simp [monthLengths, h]
  rw [List.getD_eq_getElem?_getD]
  cases hdays : (monthLengths year)[month]? with
  | none => exact Nat.zero_le 31
  | some days => exact hall days (List.mem_of_getElem? hdays)

/-- a year has the days of its months -/
theorem daysBeforeYear_succ (year : ℤ) : daysBeforeYear (year + 1) = daysBeforeYear year + (monthLengths year).sum := by
  rw [sum_monthLengths]
  by_cases h : IsLeap year
  · rw [if_pos h]
    unfold IsLeap at h
    unfold daysBeforeYear
    omega
  · rw [if_neg h]
    unfold IsLeap at h
    unfold daysBeforeYear
    omega

theorem daysBeforeYear_mono {a b : ℤ} (h : a ≤ b) : daysBeforeYear a ≤ daysBeforeYear b := by
  unfold daysBeforeYear
  omega

theorem yearOf_spec (n : ℤ) : daysBeforeYear (yearOf n) ≤ n ∧ n < daysBeforeYear (yearOf n + 1) := by
  unfold yearOf
  dsimp only
  split_ifs with hlow hhigh
  · unfold daysBeforeYear at hlow ⊢
    omega
  · unfold daysBeforeYear at hlow hhigh ⊢
    omega
  · unfold daysBeforeYear at hlow hhigh ⊢
    omega

/-! ## Dates -/

theorem locate_spec {ls : List ℕ} {n : ℕ} (h : n < ls.sum) :
    (locate ls n).1 < ls.length ∧ (locate ls n).2 < ls.getD (locate ls n).1 0 ∧
      (ls.take (locate ls n).1).sum + (locate ls n).2 = n := by
  induction ls generalizing n with
  | nil => exact absurd h (Nat.not_lt_zero n)
  | cons l ls ih =>
    rw [List.sum_cons] at h
    unfold locate
    split_ifs with hlt
    · exact ⟨Nat.succ_pos _, hlt, by simp⟩
    · obtain ⟨h1, h2, h3⟩ := ih (n := n - l) (by omega)
      refine ⟨Nat.succ_lt_succ h1, h2, ?_⟩
      rw [List.take_succ_cons, List.sum_cons]
      omega

/-- **Every day has its date.** -/
theorem dateOf_spec (n : ℤ) : (dateOf n).Valid ∧ dayNumber (dateOf n) = n := by
  obtain ⟨hlow, hhigh⟩ := yearOf_spec n
  rw [daysBeforeYear_succ] at hhigh
  have hday : (n - daysBeforeYear (yearOf n)).toNat < (monthLengths (yearOf n)).sum := by omega
  obtain ⟨hmonth, hlast, hsum⟩ := locate_spec hday
  refine ⟨⟨hmonth, Nat.succ_pos _, hlast⟩, ?_⟩
  have hof : (dateOf n).dayOfYear = (n - daysBeforeYear (yearOf n)).toNat := hsum
  rw [dayNumber, hof]
  show daysBeforeYear (yearOf n) + _ = n
  omega

/-- compared by year, then month, then day -/
def Date.Before (a b : Date) : Prop :=
  a.year < b.year ∨ a.year = b.year ∧ (a.month < b.month ∨ a.month = b.month ∧ a.day < b.day)

/-- a part ends before the next one begins -/
theorem sum_take_add_le {ls : List ℕ} {i j : ℕ} (h : i < j) : (ls.take i).sum + ls.getD i 0 ≤ (ls.take j).sum := by
  induction ls generalizing i j with
  | nil => simp
  | cons l ls ih =>
    obtain ⟨j, rfl⟩ := Nat.exists_eq_succ_of_ne_zero (Nat.ne_of_gt (Nat.zero_lt_of_lt h))
    rw [Nat.succ_eq_add_one, List.take_succ_cons, List.sum_cons]
    cases i with
    | zero => simp
    | succ i =>
      have hrest := ih (Nat.lt_of_succ_lt_succ h)
      rw [List.take_succ_cons, List.sum_cons, List.getD_cons_succ]
      omega

theorem Date.Valid.dayOfYear_lt {d : Date} (h : d.Valid) : d.dayOfYear < (monthLengths d.year).sum := by
  have hmonth : ((monthLengths d.year).take d.month).sum + (monthLengths d.year).getD d.month 0 ≤
      ((monthLengths d.year).take 12).sum := sum_take_add_le h.month
  have hall : (monthLengths d.year).take 12 = monthLengths d.year := rfl
  have hfirst := h.first
  have hlast := h.last
  rw [hall] at hmonth
  unfold Date.dayOfYear
  omega

/-- a date before another has fewer days before it -/
theorem dayNumber_lt_of_before {a b : Date} (ha : a.Valid) (hb : b.Valid) (h : a.Before b) :
    dayNumber a < dayNumber b := by
  have hfirst := hb.first
  rcases h with hyear | ⟨hyear, hmonth | ⟨hmonth, hday⟩⟩
  · -- the year of a ends before that of b begins
    have hlt := ha.dayOfYear_lt
    have hend := daysBeforeYear_succ a.year
    have hmono := daysBeforeYear_mono (show a.year + 1 ≤ b.year from hyear)
    unfold dayNumber
    omega
  · have hend : ((monthLengths a.year).take a.month).sum + (monthLengths a.year).getD a.month 0 ≤
        ((monthLengths a.year).take b.month).sum := sum_take_add_le hmonth
    have hlast := ha.last
    have hone := ha.first
    unfold dayNumber Date.dayOfYear
    rw [← hyear]
    omega
  · have hone := ha.first
    unfold dayNumber Date.dayOfYear
    rw [hyear, hmonth]
    omega

theorem Date.before_trichotomy (a b : Date) : a.Before b ∨ a = b ∨ b.Before a := by
  rcases lt_trichotomy a.year b.year with hy | hy | hy
  · exact Or.inl (Or.inl hy)
  · rcases lt_trichotomy a.month b.month with hm | hm | hm
    · exact Or.inl (Or.inr ⟨hy, Or.inl hm⟩)
    · rcases lt_trichotomy a.day b.day with hd | hd | hd
      · exact Or.inl (Or.inr ⟨hy, Or.inr ⟨hm, hd⟩⟩)
      · refine Or.inr (Or.inl ?_)
        cases a
        cases b
        simp_all
      · exact Or.inr (Or.inr (Or.inr ⟨hy.symm, Or.inr ⟨hm.symm, hd⟩⟩))
    · exact Or.inr (Or.inr (Or.inr ⟨hy.symm, Or.inl hm⟩))
  · exact Or.inr (Or.inr (Or.inl hy))

/-- **An earlier day has an earlier date.** -/
theorem before_of_dayNumber_lt {a b : Date} (ha : a.Valid) (hb : b.Valid) (h : dayNumber a < dayNumber b) :
    a.Before b := by
  rcases a.before_trichotomy b with hab | rfl | hba
  · exact hab
  · exact absurd h (lt_irrefl _)
  · exact absurd h (dayNumber_lt_of_before hb ha hba).not_gt

end StoreService.Calendar
