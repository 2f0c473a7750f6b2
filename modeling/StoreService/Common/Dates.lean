/-
Dates of requests (`TransDateToTm`, common.cpp).

A date is Y-M-D h:m:s. The function copies six fields, each up to its separator, to arrays of its own, converts them
with atoi and tests the numbers. No loop looks for the end of the string but the last, atoi makes a number of anything,
and two of the tests name the wrong field: the day is tested with the month, the second with the minute.

Model: the memory from the string's first character on; the result says which `struct tm` a return value of 0 leaves
(what a refused date leaves in it is read by nobody) and how many characters were read.

- `trans_date_iff`: the function accepts exactly the valid dates and stays in the string iff the scan is covered by the
  text, and a text of six fields that pass the tests has digits in every field, no day over 31 and no second over 59.
- `trans_date_flaws`: a day 32 and a second 60 are accepted, and so are empty fields; a text without its second dash is
  read past its terminator.
-/
import Mathlib.Data.List.TakeWhile
import StoreService.Core.Fields
import StoreService.Store.Query

namespace StoreService.Dates

open StoreService.ByteMem StoreService.Fields StoreService.Json StoreService.Store

/-! ## The function -/

/-- atoi: strtol, which clamps to long, and its low 32 bits -/
def atoi (s : Str) : ℤ :=
  let s := s.dropWhile fun c => c = 32 || (9 ≤ c && c ≤ 13)
  let digits := (if s.head? = some 45 ∨ s.head? = some 43 then s.tail else s).takeWhile isDigit
  let value : ℤ := if s.head? = some 45 then -digitsValue digits else digitsValue digits
  Int.bmod (max (-2 ^ 63) (min (2 ^ 63 - 1) value)) (2 ^ 32)

/-- the six loops: separator and sizeof of the array -/
def dateFields : List (UInt8 × ℕ) := [(45, 5), (45, 3), (32, 3), (58, 3), (58, 3), (0, 3)]

/-- the conversions -/
def fieldsTm (fs : List Str) : DateTm where
  tmYear := atoi (fs.getD 0 []) - 1900
  tmMon := atoi (fs.getD 1 []) - 1
  tmMday := atoi (fs.getD 2 [])
  tmHour := atoi (fs.getD 3 [])
  tmMin := atoi (fs.getD 4 [])
  tmSec := atoi (fs.getD 5 [])

/-- the tests; `none` is -1 -/
def checkTm (struTm : DateTm) : Option DateTm :=
  if struTm.tmYear < 0 then none
  else if struTm.tmMon < 0 ∨ struTm.tmMon > 11 then none
  else if struTm.tmMday < 1 ∨ struTm.tmMon > 31 then none
  else if struTm.tmHour < 0 ∨ struTm.tmHour > 23 then none
  else if struTm.tmMin < 0 ∨ struTm.tmMin > 59 then none
  else if struTm.tmSec < 0 ∨ struTm.tmMin > 59 then none
  else some struTm

structure TransDate where
  /-- `struTm` after a return value of 0 -/
  ret : Option DateTm
  /-- characters read, from the first on -/
  read : ℕ
deriving DecidableEq

/-- `TransDateToTm` -/
def transDateToTm (charDate : Mem) : TransDate :=
  match scanFields charDate dateFields 0 with
  | .error n => ⟨none, n⟩
  | .ok (fs, n) => ⟨checkTm (fieldsTm fs), n⟩

/-! ## What a date is -/

/-- a decimal number of at most so many digits -/
def Decimal (digits : ℕ) (f : Str) : Prop := f ≠ [] ∧ f.length ≤ digits ∧ ∀ c ∈ f, isDigit c

/-- the text is Y-M-D h:m:s, with the values of the `struct tm` -/
def IsDate (text : Str) (t : DateTm) : Prop :=
  ∃ y mo d h mi s : Str, text = y ++ 45 :: (mo ++ 45 :: (d ++ 32 :: (h ++ 58 :: (mi ++ 58 :: s)))) ∧
    Decimal 4 y ∧ Decimal 2 mo ∧ Decimal 2 d ∧ Decimal 2 h ∧ Decimal 2 mi ∧ Decimal 2 s ∧
    t = ⟨digitsValue y - 1900, digitsValue mo - 1, digitsValue d, digitsValue h, digitsValue mi, digitsValue s⟩ ∧
    0 ≤ t.tmYear ∧ (0 ≤ t.tmMon ∧ t.tmMon ≤ 11) ∧ (1 ≤ t.tmMday ∧ t.tmMday ≤ 31) ∧ t.tmHour ≤ 23 ∧ t.tmMin ≤ 59 ∧
    t.tmSec ≤ 59

/-- the function accepts exactly the dates, with their values, and does not read past the terminator -/
def DateOk (c : CStr) : Prop :=
  (∀ t, (transDateToTm c.mem).ret = some t ↔ IsDate c.text t) ∧ (transDateToTm c.mem).read ≤ c.len + 1

/-- fields that the loops find in a text and the tests let through -/
def Passed (text : Str) (fs : List Str) : Prop :=
  Fits dateFields fs ∧ fieldsText dateFields fs = text ++ [0] ∧ (checkTm (fieldsTm fs)).isSome

/-- what the tests leave out -/
def Strict (fs : List Str) : Prop :=
  (∀ f ∈ fs, f ≠ [] ∧ ∀ c ∈ f, isDigit c) ∧ (fieldsTm fs).tmMday ≤ 31 ∧ (fieldsTm fs).tmSec ≤ 59

/-! ## Numbers -/

theorem digitsValue_append (s : Str) (c : UInt8) : digitsValue (s ++ [c]) = 10 * digitsValue s + (c.toNat - 48) := by
  rw [digitsValue, digitsValue, List.foldl_append]
  rfl

theorem digitsValue_lt {s : Str} (h : ∀ c ∈ s, isDigit c) : digitsValue s < 10 ^ s.length := by
  induction s using List.reverseRecOn with
  | nil => decide
  | append_singleton s c ih =>
    have hc : isDigit c = true := h c (List.mem_append_right _ List.mem_cons_self)
    have hs := ih fun d hd => h d (List.mem_append_left _ hd)
    have hle : c.toNat ≤ 57 := by
      rw [isDigit, Bool.and_eq_true, decide_eq_true_eq, decide_eq_true_eq] at hc
      exact hc.2
    rw [digitsValue_append, List.length_append, List.length_singleton, pow_succ]
    omega

theorem takeWhile_digits {s : Str} (h : ∀ c ∈ s, isDigit c) : s.takeWhile isDigit = s :=
  List.takeWhile_eq_self_iff.2 h

/-- a digit is neither space nor sign -/
theorem isDigit_plain {c : UInt8} (h : isDigit c) :
    (c = 32 || (9 ≤ c && c ≤ 13)) = false ∧ c ≠ 45 ∧ c ≠ 43 ∧ c ≠ 32 ∧ c ≠ 58 ∧ c ≠ 0 := by
  rw [isDigit, Bool.and_eq_true, decide_eq_true_eq, decide_eq_true_eq] at h
  obtain ⟨hlo, hhi⟩ := h
  have hne : ∀ d : UInt8, d < 48 ∨ 57 < d → c ≠ d := by
    rintro d hd rfl
    exact hd.elim (fun h => UInt8.not_le.2 h hlo) (fun h => UInt8.not_le.2 h hhi)
  have hspace : ¬ c ≤ 13 := fun h => absurd (UInt8.le_trans hlo h) (by decide)
  refine ⟨?_, hne 45 (by decide), hne 43 (by decide), hne 32 (by decide), hne 58 (by decide), hne 0 (by decide)⟩
  rw [decide_eq_false (hne 32 (by decide)), decide_eq_false hspace, Bool.and_false, Bool.or_false]

/-- atoi reads a number that an int holds -/
theorem atoi_of_digits {f : Str} (hne : f ≠ []) (hdigits : ∀ c ∈ f, isDigit c) (hlt : digitsValue f < 2 ^ 31) :
    atoi f = digitsValue f := by
  cases f with
  | nil => exact absurd rfl hne
  | cons c f =>
    obtain ⟨hspace, hminus, hplus, -⟩ := isDigit_plain (hdigits c List.mem_cons_self)
    have hdrop : (c :: f).dropWhile (fun c => c = 32 || (9 ≤ c && c ≤ 13)) = c :: f := by
      rw [List.dropWhile_cons, if_neg (by rw [hspace]; decide)]
    have hsign : ¬ (some c = some 45 ∨ some c = some (43 : UInt8)) := by
      rw [Option.some.injEq, Option.some.injEq]
      exact not_or.2 ⟨hminus, hplus⟩
    rw [atoi, hdrop, List.head?_cons, if_neg hsign, takeWhile_digits hdigits,
      if_neg (fun h => hminus (Option.some.inj h))]
    rw [min_eq_right (by omega), max_eq_right (by omega)]
    apply Int.bmod_eq_of_le <;> omega

/-- a short number is one -/
theorem atoi_decimal {n : ℕ} {f : Str} (h : Decimal n f) (hn : n ≤ 4) : atoi f = digitsValue f := by
  obtain ⟨hne, hlen, hdigits⟩ := h
  have hlt := digitsValue_lt hdigits
  have hpow : 10 ^ f.length ≤ 10 ^ 4 := Nat.pow_le_pow_right (by decide) (hlen.trans hn)
  exact atoi_of_digits hne hdigits (by omega)

/-! ## Six fields -/

/-- the source's tests on a `struct tm` -/
theorem checkTm_eq_some_iff {t r : DateTm} : checkTm t = some r ↔ r = t ∧ 0 ≤ t.tmYear ∧ (0 ≤ t.tmMon ∧ t.tmMon ≤ 11) ∧
    1 ≤ t.tmMday ∧ (0 ≤ t.tmHour ∧ t.tmHour ≤ 23) ∧ (0 ≤ t.tmMin ∧ t.tmMin ≤ 59) ∧ 0 ≤ t.tmSec := by
  rw [checkTm]
  split_ifs with h1 h2 h3 h4 h5 h6
  case neg => exact ⟨fun h => ⟨(Option.some.inj h).symm, by omega⟩, fun h => by rw [h.1]⟩
  all_goals exact iff_of_false nofun (by omega)

/-- fields that fit are six -/
theorem six_of_fits {fs : List Str} (h : Fits dateFields fs) : ∃ y mo d h mi s : Str, fs = [y, mo, d, h, mi, s] := by
  match fs, h with
  | [y, mo, d, h, mi, s], _ => exact ⟨y, mo, d, h, mi, s, rfl⟩

theorem slice_text (c : CStr) : slice c.mem 0 (c.len + 1) = c.text ++ [0] := by
  rw [slice_add, zero_add, CStr.text]
  congr 1
  · simp only [slice, zero_add]
  · rw [← c.nul]
    rfl

theorem fieldsText_six (y mo d h mi s : Str) : fieldsText dateFields [y, mo, d, h, mi, s] =
    (y ++ 45 :: (mo ++ 45 :: (d ++ 32 :: (h ++ 58 :: (mi ++ 58 :: s))))) ++ [0] := by
  simp [dateFields, fieldsText]

/-- fields found in the string end with its terminator -/
theorem scan_inside {c : CStr} {fs : List Str} {n : ℕ} (hscan : scanFields c.mem dateFields 0 = .ok (fs, n))
    (hle : n ≤ c.len + 1) : fieldsText dateFields fs = c.text ++ [0] := by
  obtain ⟨hfits, rfl, htext⟩ := scanFields_eq_ok_iff.1 hscan
  obtain ⟨y, mo, d, h, mi, s, rfl⟩ := six_of_fits hfits
  rw [fieldsText_six] at htext hle ⊢
  set text : Str := y ++ 45 :: (mo ++ 45 :: (d ++ 32 :: (h ++ 58 :: (mi ++ 58 :: s))))
  rw [List.length_append, List.length_singleton] at htext hle
  -- the last separator is a zero, and the string has none before its terminator
  have hzero : c.mem text.length = 0 := by
    rw [slice_add, zero_add] at htext
    exact (List.cons.inj (List.append_inj htext (length_slice _ _ _)).2).1
  have hend : c.len ≤ text.length := not_lt.1 fun hlt => c.before _ hlt hzero
  rw [← htext, ← slice_text, show text.length = c.len by omega]

/-- what the scan finds when it stays in the string -/
theorem scan_eq_ok_iff {c : CStr} {fs : List Str} {n : ℕ} (hcov : Covered dateFields (c.text ++ [0])) :
    scanFields c.mem dateFields 0 = .ok (fs, n) ↔
      n = c.len + 1 ∧ Fits dateFields fs ∧ fieldsText dateFields fs = c.text ++ [0] := by
  have hlen : (c.text ++ [0]).length = c.len + 1 := by rw [← slice_text, length_slice]
  constructor
  · intro hscan
    have hread : readTo (scanFields c.mem dateFields 0) ≤ 0 + (c.len + 1) := by
      rw [readTo_le_iff, slice_text]
      exact hcov
    rw [hscan, zero_add] at hread
    have htext := scan_inside hscan hread
    obtain ⟨hfits, rfl, -⟩ := scanFields_eq_ok_iff.1 hscan
    exact ⟨by rw [htext, hlen, zero_add], hfits, htext⟩
  · rintro ⟨rfl, hfits, htext⟩
    refine scanFields_eq_ok_iff.2 ⟨hfits, ?_, ?_⟩
    · rw [htext, hlen, zero_add]
    · rw [htext, hlen, slice_text]

theorem ret_eq_some_iff {c : CStr} {t : DateTm} (hcov : Covered dateFields (c.text ++ [0])) :
    (transDateToTm c.mem).ret = some t ↔ ∃ fs, Passed c.text fs ∧ t = fieldsTm fs := by
  rw [transDateToTm]
  constructor
  · intro h
    split at h
    · cases h
    · rename_i fs n hscan
      obtain ⟨-, hfits, htext⟩ := (scan_eq_ok_iff hcov).1 hscan
      exact ⟨fs, ⟨hfits, htext, Option.isSome_of_eq_some h⟩, (checkTm_eq_some_iff.1 h).1⟩
  · rintro ⟨fs, ⟨hfits, htext, hpass⟩, rfl⟩
    rw [(scan_eq_ok_iff hcov).2 ⟨rfl, hfits, htext⟩]
    obtain ⟨r, hr⟩ := Option.isSome_iff_exists.1 hpass
    have heq := (checkTm_eq_some_iff.1 hr).1
    rw [heq] at hr
    exact hr

/-- digits of a number are none of the separators -/
theorem Decimal.fits {n : ℕ} {f : Str} (h : Decimal n f) {sep : UInt8} (hsep : ¬ isDigit sep) :
    f.length < n + 1 ∧ sep ∉ f := ⟨Nat.lt_succ_of_le h.2.1, fun hmem => hsep (h.2.2 sep hmem)⟩

/-- the values of six numbers -/
theorem fieldsTm_six {y mo d h mi s : Str} (hy : Decimal 4 y) (hmo : Decimal 2 mo) (hd : Decimal 2 d)
    (hh : Decimal 2 h) (hmi : Decimal 2 mi) (hs : Decimal 2 s) : fieldsTm [y, mo, d, h, mi, s] =
      ⟨digitsValue y - 1900, digitsValue mo - 1, digitsValue d, digitsValue h, digitsValue mi, digitsValue s⟩ := by
  rw [← atoi_decimal hy le_rfl, ← atoi_decimal hmo (by decide), ← atoi_decimal hd (by decide),
    ← atoi_decimal hh (by decide), ← atoi_decimal hmi (by decide), ← atoi_decimal hs (by decide)]
  rfl

/-- fields of a date pass the tests, and what the tests leave out holds of them -/
theorem isDate_iff {text : Str} {t : DateTm} :
    IsDate text t ↔ ∃ fs, Passed text fs ∧ Strict fs ∧ t = fieldsTm fs := by
  constructor
  · rintro ⟨y, mo, d, h, mi, s, rfl, hy, hmo, hd, hh, hmi, hs, ht, hyear, hmon, hmday, hhour, hmin, hsec⟩
    have htm : fieldsTm [y, mo, d, h, mi, s] = t := ht ▸ fieldsTm_six hy hmo hd hh hmi hs
    refine ⟨[y, mo, d, h, mi, s], ⟨?_, fieldsText_six y mo d h mi s, ?_⟩, ⟨?_, ?_, ?_⟩, htm.symm⟩
    · exact .cons (hy.fits (by decide)) <| .cons (hmo.fits (by decide)) <| .cons (hd.fits (by decide)) <|
        .cons (hh.fits (by decide)) <| .cons (hmi.fits (by decide)) <| .cons (hs.fits (by decide)) .nil
    · have hnonneg : 0 ≤ t.tmHour ∧ 0 ≤ t.tmMin ∧ 0 ≤ t.tmSec := by
        rw [ht]
        exact ⟨Int.natCast_nonneg _, Int.natCast_nonneg _, Int.natCast_nonneg _⟩
      rw [htm, checkTm_eq_some_iff.2 ⟨rfl, hyear, hmon, hmday.1, ⟨hnonneg.1, hhour⟩, ⟨hnonneg.2.1, hmin⟩, hnonneg.2.2⟩]
      rfl
    · intro f hf
      simp only [List.mem_cons, List.not_mem_nil, or_false] at hf
      obtain rfl | rfl | rfl | rfl | rfl | rfl := hf
      exacts [⟨hy.1, hy.2.2⟩, ⟨hmo.1, hmo.2.2⟩, ⟨hd.1, hd.2.2⟩, ⟨hh.1, hh.2.2⟩, ⟨hmi.1, hmi.2.2⟩, ⟨hs.1, hs.2.2⟩]
    · rw [htm]
      exact hmday.2
    · rw [htm]
      exact hsec
  · rintro ⟨fs, ⟨hfits, htext, hpass⟩, ⟨hdigits, hmday, hsec⟩, rfl⟩
    obtain ⟨y, mo, d, h, mi, s, rfl⟩ := six_of_fits hfits
    obtain ⟨r, hr⟩ := Option.isSome_iff_exists.1 hpass
    obtain ⟨-, hyear, hmon, hday, hhour, hmin, -⟩ := checkTm_eq_some_iff.1 hr
    rw [fieldsText_six] at htext
    simp only [Fits, dateFields, List.forall₂_cons] at hfits
    obtain ⟨hy, hmo, hd, hh, hmi, hs, -⟩ := hfits
    have hdec : ∀ f ∈ [y, mo, d, h, mi, s], ∀ n, f.length < n + 1 → Decimal n f := fun f hf n hlen =>
      ⟨(hdigits f hf).1, Nat.le_of_lt_succ hlen, (hdigits f hf).2⟩
    have dy : Decimal 4 y := hdec y (by simp) 4 hy.1
    have dmo : Decimal 2 mo := hdec mo (by simp) 2 hmo.1
    have dd : Decimal 2 d := hdec d (by simp) 2 hd.1
    have dh : Decimal 2 h := hdec h (by simp) 2 hh.1
    have dmi : Decimal 2 mi := hdec mi (by simp) 2 hmi.1
    have ds : Decimal 2 s := hdec s (by simp) 2 hs.1
    refine ⟨y, mo, d, h, mi, s, (List.append_cancel_right htext).symm, dy, dmo, dd, dh, dmi, ds,
      fieldsTm_six dy dmo dd dh dmi ds, hyear, hmon, ⟨hday, hmday⟩, hhour.2, hmin.2, hsec⟩

/-- a text has at most one cut into fields -/
theorem Passed.unique {c : CStr} {fs gs : List Str} (hcov : Covered dateFields (c.text ++ [0])) (hf : Passed c.text fs)
    (hg : Passed c.text gs) : fs = gs := by
  have hfs := (scan_eq_ok_iff (n := c.len + 1) hcov).2 ⟨rfl, hf.1, hf.2.1⟩
  have hgs := (scan_eq_ok_iff (n := c.len + 1) hcov).2 ⟨rfl, hg.1, hg.2.1⟩
  exact (Prod.mk.inj (Except.ok.inj (hfs.symm.trans hgs))).1

theorem read_le_iff (c : CStr) : (transDateToTm c.mem).read ≤ c.len + 1 ↔ Covered dateFields (c.text ++ [0]) := by
  have hread : (transDateToTm c.mem).read = readTo (scanFields c.mem dateFields 0) := by
    rw [transDateToTm]
    cases scanFields c.mem dateFields 0 <;> rfl
  rw [hread, ← slice_text, ← readTo_le_iff, zero_add]

/-- **The dates that `TransDateToTm` accepts.** -/
theorem trans_date_iff (c : CStr) : DateOk c ↔
    Covered dateFields (c.text ++ [0]) ∧ ∀ fs, Passed c.text fs → Strict fs := by
  rw [DateOk, read_le_iff, and_comm]
  refine and_congr_right fun hcov => ?_
  constructor
  · intro h fs hpassed
    have hdate := (h (fieldsTm fs)).1 ((ret_eq_some_iff hcov).2 ⟨fs, hpassed, rfl⟩)
    obtain ⟨gs, hgs, hstrict, -⟩ := isDate_iff.1 hdate
    rwa [Passed.unique hcov hpassed hgs]
  · intro h t
    rw [ret_eq_some_iff hcov, isDate_iff]
    constructor
    · rintro ⟨fs, hpassed, ht⟩
      exact ⟨fs, hpassed, h fs hpassed, ht⟩
    · rintro ⟨fs, hpassed, -, ht⟩
      exact ⟨fs, hpassed, ht⟩

/-- a date with a day 32 and a second 60 -/
def day32 : CStr := CStr.ofStr (bytes "2020-01-32 00:00:60") (by decide)

/-- a date without hour, minute and second -/
def noTime : CStr := CStr.ofStr (bytes "2020-01-01 ::") (by decide)

/-- a text whose memory goes on with digits behind the terminator -/
def cut : CStr where
  mem i := if i = 6 then 0 else (bytes "2020-1").getD i 49
  len := 6
  nul := rfl
  before := by decide

theorem trans_date_flaws :
    (transDateToTm day32.mem).ret = some ⟨120, 0, 32, 0, 0, 60⟩ ∧ ¬ DateOk day32 ∧
    (transDateToTm noTime.mem).ret = some ⟨120, 0, 1, 0, 0, 0⟩ ∧
    (transDateToTm cut.mem).read = cut.len + 2 ∧ ¬ DateOk cut := by
  have hday : (transDateToTm day32.mem).ret = some ⟨120, 0, 32, 0, 0, 60⟩ := by decide +kernel
  have hcut : (transDateToTm cut.mem).read = cut.len + 2 := by decide +kernel
  refine ⟨hday, ?_, by decide +kernel, hcut, ?_⟩
  · intro hok
    obtain ⟨y, mo, d, h, mi, s, -, -, -, -, -, -, -, -, -, -, hmday, -⟩ := (hok.1 _).1 hday
    exact absurd hmday.2 (by decide)
  · intro hok
    have hread := hok.2
    omega

end StoreService.Dates
