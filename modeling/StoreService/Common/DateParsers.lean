/-
The two readers of dates (`TranslateToStructTM` with `ExtraStr`, mysql.cpp and common.cpp; `TransDateToTm`, common.cpp).

The event request reads its dates with `TransDateToTm`, the query requests with `TranslateToStructTM`. The one cuts a
text at six fixed separators and converts with atoi; the other cuts it at every run of '-', ' ' and ':', takes the first
six tokens and converts with std::stoi, which throws on a token without digits. The limits differ too: the second lets a
day 0, an hour 24, a minute 60 and a second 60 through.

- `parsers_agree_iff`: neither throws and both say the same iff the text is a date for both (six fields that pass the
  tests, each with one token of the same value, no day over 31 and no second over 60) or for neither. For the first it
  is none only if it does not become one with the bytes behind its zero: the loops for the first five fields run on.
- `parsers_disagree`: a day 0, a time without minute and second and a text behind the date; a token without digits
  throws.
-/
import StoreService.Common.Dates

namespace StoreService.Dates

open StoreService.ByteMem StoreService.Fields StoreService.Json StoreService.Store

/-- the second argument of `ExtraStr` in `TranslateToStructTM` -/
def dateSeps : List UInt8 := bytes "- :"

/-- both return, and with the same -/
def Agree (c : CStr) : Prop := ∃ r, translateToStructTM c.text = some r ∧ (transDateToTm c.mem).ret = r

/-- a field is one token, and stoi gives what atoi gives -/
def ReadAlike (f : Str) : Prop := ∃ token, extraStr f dateSeps = [token] ∧ stoi token = some (atoi f)

/-- a date for both -/
def DateForBoth (text : Str) : Prop :=
  ∃ fs, Passed text fs ∧ (∀ f ∈ fs, ReadAlike f) ∧ (fieldsTm fs).tmMday ≤ 31 ∧ (fieldsTm fs).tmSec ≤ 60

/-- the first six tokens as numbers -/
def tokensTm : List Str → Option DateTm
  | e0 :: e1 :: e2 :: e3 :: e4 :: e5 :: _ => do
    let year ← stoi e0
    let mon ← stoi e1
    let mday ← stoi e2
    let hour ← stoi e3
    let min ← stoi e4
    let sec ← stoi e5
    some ⟨year - 1900, mon - 1, mday, hour, min, sec⟩
  | _ => none

/-- the limits of `TranslateToStructTM` -/
def TokenRange (t : DateTm) : Prop :=
  0 ≤ t.tmYear ∧ (0 ≤ t.tmMon ∧ t.tmMon ≤ 11) ∧ (0 ≤ t.tmMday ∧ t.tmMday ≤ 31) ∧ (0 ≤ t.tmHour ∧ t.tmHour ≤ 24) ∧
    (0 ≤ t.tmMin ∧ t.tmMin ≤ 60) ∧ 0 ≤ t.tmSec ∧ t.tmSec ≤ 60

instance (t : DateTm) : Decidable (TokenRange t) := inferInstanceAs (Decidable (_ ∧ _))

/-- too few tokens, or six numbers out of the limits -/
def TokensRefused (text : Str) : Prop :=
  (extraStr text dateSeps).length < 6 ∨ ∃ t, tokensTm (extraStr text dateSeps) = some t ∧ ¬ TokenRange t

/-- no date for the first: the string is none, and no text is that begins with it and goes on behind its zero, up to a
later one -/
def NoDate (c : CStr) : Prop := ∀ n, c.len ≤ n → c.mem n = 0 → ∀ fs, ¬ Passed (slice c.mem 0 n) fs

/-- fields that the loops find in the memory, in the string or not, and the tests let through -/
def Accepted (mem : Mem) (fs : List Str) : Prop :=
  ∃ n, scanFields mem dateFields 0 = .ok (fs, n) ∧ (checkTm (fieldsTm fs)).isSome

/-! ## Tokens -/

section

variable {ch : List UInt8}

theorem extraStrLoop_out (s strCut : Str) (out : List Str) :
    extraStrLoop ch s strCut out = out ++ extraStrLoop ch s strCut [] := by
  induction s generalizing strCut out with
  | nil => by_cases h : strCut = [] <;> simp [extraStrLoop, h]
  | cons c s ih =>
    rw [extraStrLoop, extraStrLoop]
    split_ifs with hc h
    · exact ih [] out
    · rw [ih, List.append_assoc]
      exact congrArg (out ++ ·) (ih [] ([] ++ [strCut])).symm
    · exact ih _ out

/-- a separator ends a token -/
theorem extraStr_append_sep {sep : UInt8} (hsep : sep ∈ ch) (a b : Str) :
    extraStr (a ++ sep :: b) ch = extraStr a ch ++ extraStr b ch := by
  have hloop : ∀ (strCut : Str) (out : List Str),
      extraStrLoop ch (a ++ sep :: b) strCut out = extraStrLoop ch b [] (extraStrLoop ch a strCut out) := by
    induction a with
    | nil =>
      intro strCut out
      exact if_pos hsep
    | cons c a ih =>
      intro strCut out
      rw [List.cons_append, extraStrLoop, extraStrLoop]
      split_ifs with hc h
      · exact ih [] out
      · exact ih [] _
      · exact ih _ out
  rw [extraStr, hloop, extraStrLoop_out, extraStr, extraStr]

/-- a token takes a character, and two need one between them -/
theorem length_extraStr_le (s : Str) : 2 * (extraStr s ch).length ≤ s.length + 1 := by
  have hloop : ∀ strCut : Str,
      2 * (extraStrLoop ch s strCut []).length ≤ s.length + 1 + (if strCut = [] then 0 else 1) := by
    induction s with
    | nil =>
      intro strCut
      by_cases h : strCut = [] <;> simp [extraStrLoop, h]
    | cons c s ih =>
      intro strCut
      rw [extraStrLoop, List.length_cons]
      by_cases hc : c ∈ ch
      · have hrest := ih []
        rw [if_pos hc, extraStrLoop_out]
        by_cases h : strCut = [] <;> simp [h] at hrest ⊢ <;> omega
      · have hrest := ih (strCut ++ [c])
        rw [if_neg hc]
        simp at hrest
        omega
  exact hloop []

/-- a text that goes on has no fewer tokens -/
theorem length_extraStr_append_le (a b : Str) : (extraStr a ch).length ≤ (extraStr (a ++ b) ch).length := by
  have hend : ∀ (strCut : Str) (out : List Str),
      out.length + (if strCut = [] then 0 else 1) ≤ (extraStrLoop ch b strCut out).length := by
    induction b with
    | nil =>
      intro strCut out
      by_cases h : strCut = [] <;> simp [extraStrLoop, h]
    | cons c b ih =>
      intro strCut out
      rw [extraStrLoop]
      by_cases hc : c ∈ ch
      · have hrest := ih [] (if strCut = [] then out else out ++ [strCut])
        rw [if_pos hc]
        by_cases h : strCut = [] <;> simp [h] at hrest ⊢ <;> exact hrest
      · have hrest := ih (strCut ++ [c]) out
        rw [if_neg hc]
        simp only [List.append_eq_nil_iff, List.cons_ne_self, and_false, if_false] at hrest
        split_ifs <;> omega
  have hloop : ∀ (strCut : Str) (out : List Str),
      (extraStrLoop ch a strCut out).length ≤ (extraStrLoop ch (a ++ b) strCut out).length := by
    induction a with
    | nil =>
      intro strCut out
      refine le_trans ?_ (hend strCut out)
      by_cases h : strCut = [] <;> simp [extraStrLoop, h]
    | cons c a ih =>
      intro strCut out
      rw [List.cons_append, extraStrLoop, extraStrLoop]
      split_ifs <;> apply ih
  exact hloop [] []

/-- a text without separators is one token -/
theorem extraStr_single {s : Str} (hne : s ≠ []) (h : ∀ c ∈ s, c ∉ ch) : extraStr s ch = [s] := by
  have hloop : ∀ strCut : Str, strCut ++ s ≠ [] → extraStrLoop ch s strCut [] = [strCut ++ s] := by
    clear hne
    induction s with
    | nil =>
      intro strCut hcut
      rw [List.append_nil] at hcut ⊢
      rw [extraStrLoop, if_neg hcut, List.nil_append]
    | cons c s ih =>
      intro strCut _
      rw [extraStrLoop, if_neg (h c List.mem_cons_self), List.append_cons strCut c s]
      exact ih (fun d hd => h d (List.mem_cons_of_mem c hd)) (strCut ++ [c]) (by simp)
  exact hloop [] hne

end

/-! ## The second reader -/

/-- the limits, as the source tests them one after the other -/
theorem tokenRange_tests (t : DateTm) :
    (if t.tmYear < 0 then some none
      else if t.tmMon < 0 ∨ 11 < t.tmMon then some none
      else if t.tmMday < 0 ∨ 31 < t.tmMday then some none
      else if t.tmHour < 0 ∨ 24 < t.tmHour then some none
      else if t.tmMin < 0 ∨ 60 < t.tmMin then some none
      else if t.tmSec < 0 ∨ 60 < t.tmSec then some none
      else some (some t)) = some (if TokenRange t then some t else none) := by
  by_cases hrange : TokenRange t
  · rw [if_pos hrange]
    obtain ⟨hyear, hmon, hmday, hhour, hmin, hsec⟩ := hrange
    rw [if_neg (by omega), if_neg (by omega), if_neg (by omega), if_neg (by omega), if_neg (by omega),
      if_neg (by omega)]
  · rw [if_neg hrange]
    unfold TokenRange at hrange
    split_ifs <;> first | rfl | omega

theorem translateToStructTM_eq {text : Str} {tokens : List Str} (htokens : extraStr text dateSeps = tokens)
    (hsix : 6 ≤ tokens.length) :
    translateToStructTM text = (tokensTm tokens).map fun t => if TokenRange t then some t else none := by
  match tokens, hsix with
  | e0 :: e1 :: e2 :: e3 :: e4 :: e5 :: rest, _ =>
    rw [dateSeps] at htokens
    simp only [translateToStructTM, htokens, tokensTm]
    cases stoi e0 with
    | none => rfl
    | some year =>
    cases stoi e1 with
    | none => rfl
    | some mon =>
    cases stoi e2 with
    | none => rfl
    | some mday =>
    cases stoi e3 with
    | none => rfl
    | some hour =>
    cases stoi e4 with
    | none => rfl
    | some min =>
    cases stoi e5 with
    | none => rfl
    | some sec => exact tokenRange_tests ⟨year - 1900, mon - 1, mday, hour, min, sec⟩

theorem translateToStructTM_few {text : Str} (h : (extraStr text dateSeps).length < 6) :
    translateToStructTM text = some none := by
  rw [translateToStructTM]
  split
  · rename_i heq
    rw [dateSeps, heq] at h
    simp only [List.length_cons] at h
    omega
  · rfl

theorem tokensTm_few {tokens : List Str} (h : tokens.length < 6) : tokensTm tokens = none := by
  fun_cases tokensTm tokens with
  | case1 =>
    simp only [List.length_cons] at h
    omega
  | case2 => rfl

theorem translate_eq_none_iff (text : Str) : translateToStructTM text = some none ↔ TokensRefused text := by
  obtain hlt | hsix := lt_or_ge (extraStr text dateSeps).length 6
  · exact iff_of_true (translateToStructTM_few hlt) (Or.inl hlt)
  · rw [translateToStructTM_eq rfl hsix, Option.map_eq_some_iff, TokensRefused, or_iff_right hsix.not_gt]
    refine exists_congr fun t => and_congr_right fun _ => ?_
    split_ifs with h <;> simp [h]

theorem translate_eq_some_iff {text : Str} {t : DateTm} : translateToStructTM text = some (some t) ↔
    tokensTm (extraStr text dateSeps) = some t ∧ TokenRange t := by
  obtain hlt | hsix := lt_or_ge (extraStr text dateSeps).length 6
  · rw [translateToStructTM_few hlt]
    exact iff_of_false nofun fun h => absurd (h.1.symm.trans (tokensTm_few hlt)) nofun
  · rw [translateToStructTM_eq rfl hsix, Option.map_eq_some_iff]
    constructor
    · rintro ⟨r, hr, h⟩
      split_ifs at h with hrange
      obtain rfl := Option.some.inj h
      exact ⟨hr, hrange⟩
    · rintro ⟨hr, hrange⟩
      exact ⟨t, hr, if_pos hrange⟩

/-! ## Fields and tokens -/

/-- atoi reads digits of the text, in their order -/
theorem atoi_digits (s : Str) : ∃ digits : Str, digits.Sublist s ∧ (∀ c ∈ digits, isDigit c) ∧
    ∃ value : ℤ, (value = digitsValue digits ∨ value = -digitsValue digits) ∧
      atoi s = Int.bmod (max (-2 ^ 63) (min (2 ^ 63 - 1) value)) (2 ^ 32) := by
  set rest := s.dropWhile fun c => c = 32 || (9 ≤ c && c ≤ 13) with hrest
  set digits := (if rest.head? = some 45 ∨ rest.head? = some 43 then rest.tail else rest).takeWhile isDigit with hdigits
  have hsub : digits.Sublist s := by
    have htail : (if rest.head? = some 45 ∨ rest.head? = some 43 then rest.tail else rest).Sublist rest := by
      split_ifs
      · exact List.tail_sublist rest
      · exact List.Sublist.refl rest
    exact (List.takeWhile_sublist _).trans (htail.trans (List.dropWhile_sublist _))
  refine ⟨digits, hsub, fun c hc => List.mem_takeWhile_imp hc, if rest.head? = some 45 then -digitsValue digits
    else digitsValue digits, ?_, rfl⟩
  split_ifs
  · exact Or.inr rfl
  · exact Or.inl rfl

/-- a year that passes its test is four digits -/
theorem year_digits {y : Str} (hlen : y.length ≤ 4) (h : 1900 ≤ atoi y) : y ≠ [] ∧ ∀ c ∈ y, isDigit c := by
  obtain ⟨digits, hsub, hdigits, value, hvalue, hatoi⟩ := atoi_digits y
  have hlt := digitsValue_lt hdigits
  have hle := hsub.length_le
  have hpow : 10 ^ digits.length ≤ 10 ^ 4 := Nat.pow_le_pow_right (by decide) (hle.trans hlen)
  have hbmod : atoi y = value := by
    rw [hatoi, min_eq_right (by omega), max_eq_right (by omega)]
    apply Int.bmod_eq_of_le <;> omega
  have hfour : 4 ≤ digits.length := by
    by_contra hshort
    have : 10 ^ digits.length ≤ 10 ^ 3 := Nat.pow_le_pow_right (by decide) (by omega)
    omega
  obtain rfl := hsub.eq_of_length_le (hlen.trans hfour)
  refine ⟨?_, hdigits⟩
  rintro rfl
  exact absurd hfour (by decide)

theorem year_token {y : Str} (hlen : y.length ≤ 4) (h : 1900 ≤ atoi y) : extraStr y dateSeps = [y] := by
  obtain ⟨hne, hdigits⟩ := year_digits hlen h
  refine extraStr_single hne fun c hc => ?_
  obtain ⟨-, hminus, -, hspace, hcolon, -⟩ := isDigit_plain (hdigits c hc)
  have hseps : dateSeps = [45, 32, 58] := by decide
  simp [hseps, hminus, hspace, hcolon]

/-- a field of two characters has no room for two tokens -/
theorem short_token {f : Str} (hlen : f.length < 3) : (extraStr f dateSeps).length ≤ 1 := by
  have : 2 * (extraStr f dateSeps).length ≤ f.length + 1 := length_extraStr_le f
  omega

/-- the tokens of a text are those of its fields -/
theorem tokens_six (y mo d h mi s : Str) :
    extraStr (y ++ 45 :: (mo ++ 45 :: (d ++ 32 :: (h ++ 58 :: (mi ++ 58 :: s))))) dateSeps =
      extraStr y dateSeps ++ (extraStr mo dateSeps ++ (extraStr d dateSeps ++ (extraStr h dateSeps ++
        (extraStr mi dateSeps ++ extraStr s dateSeps)))) := by
  have hminus : 45 ∈ dateSeps := by decide
  have hspace : 32 ∈ dateSeps := by decide
  have hcolon : 58 ∈ dateSeps := by decide
  rw [extraStr_append_sep hminus, extraStr_append_sep hminus, extraStr_append_sep hspace, extraStr_append_sep hcolon,
    extraStr_append_sep hcolon]

/-- what the tests say of the fields -/
theorem passed_fields {y mo d h mi s : Str} (hfits : Fits dateFields [y, mo, d, h, mi, s])
    (hpass : (checkTm (fieldsTm [y, mo, d, h, mi, s])).isSome) :
    extraStr y dateSeps = [y] ∧ (extraStr mo dateSeps).length ≤ 1 ∧ (extraStr d dateSeps).length ≤ 1 ∧
      (extraStr h dateSeps).length ≤ 1 ∧ (extraStr mi dateSeps).length ≤ 1 ∧ (extraStr s dateSeps).length ≤ 1 := by
  obtain ⟨r, hr⟩ := Option.isSome_iff_exists.1 hpass
  obtain ⟨-, hyear, -⟩ := checkTm_eq_some_iff.1 hr
  simp only [Fits, dateFields, List.forall₂_cons] at hfits
  obtain ⟨hy, hmo, hd, hh, hmi, hs, -⟩ := hfits
  have hatoi : 0 ≤ atoi y - 1900 := hyear
  exact ⟨year_token (Nat.le_of_lt_succ hy.1) (by omega), short_token hmo.1, short_token hd.1, short_token hh.1,
    short_token hmi.1, short_token hs.1⟩

/-- the tokens are read as the fields are iff each field is one token, read alike -/
theorem tokensTm_eq_iff {text : Str} {fs : List Str} (h : Passed text fs) :
    tokensTm (extraStr text dateSeps) = some (fieldsTm fs) ↔ ∀ f ∈ fs, ReadAlike f := by
  obtain ⟨hfits, htext, hpass⟩ := h
  obtain ⟨y, mo, d, h, mi, s, rfl⟩ := six_of_fits hfits
  obtain ⟨hy, hmo, hd, hh, hmi, hs⟩ := passed_fields hfits hpass
  rw [fieldsText_six] at htext
  rw [← List.append_cancel_right htext, tokens_six]
  constructor
  · intro hread
    have hsix : 6 ≤ (extraStr y dateSeps ++ (extraStr mo dateSeps ++ (extraStr d dateSeps ++ (extraStr h dateSeps ++
        (extraStr mi dateSeps ++ extraStr s dateSeps))))).length := by
      by_contra hfew
      rw [tokensTm_few (not_le.1 hfew)] at hread
      cases hread
    simp only [hy, List.length_append, List.length_singleton] at hsix
    obtain ⟨e1, h1⟩ := List.length_eq_one_iff.1 (by omega : (extraStr mo dateSeps).length = 1)
    obtain ⟨e2, h2⟩ := List.length_eq_one_iff.1 (by omega : (extraStr d dateSeps).length = 1)
    obtain ⟨e3, h3⟩ := List.length_eq_one_iff.1 (by omega : (extraStr h dateSeps).length = 1)
    obtain ⟨e4, h4⟩ := List.length_eq_one_iff.1 (by omega : (extraStr mi dateSeps).length = 1)
    obtain ⟨e5, h5⟩ := List.length_eq_one_iff.1 (by omega : (extraStr s dateSeps).length = 1)
    simp only [hy, h1, h2, h3, h4, h5, List.cons_append, List.nil_append, tokensTm, Option.bind_eq_bind,
      Option.bind_eq_some_iff] at hread
    obtain ⟨year, hyear, mon, hmon, mday, hmday, hour, hhour, min, hmin, sec, hsec, heq⟩ := hread
    simp only [fieldsTm, Option.some.injEq, DateTm.mk.injEq, sub_left_inj] at heq
    obtain ⟨rfl, rfl, rfl, rfl, rfl, rfl⟩ := heq
    intro f hf
    simp only [List.mem_cons, List.not_mem_nil, or_false] at hf
    obtain rfl | rfl | rfl | rfl | rfl | rfl := hf
    exacts [⟨_, hy, hyear⟩, ⟨e1, h1, hmon⟩, ⟨e2, h2, hmday⟩, ⟨e3, h3, hhour⟩, ⟨e4, h4, hmin⟩, ⟨e5, h5, hsec⟩]
  · intro halike
    obtain ⟨e0, h0, hyear⟩ := halike y (by simp)
    obtain ⟨e1, h1, hmon⟩ := halike mo (by simp)
    obtain ⟨e2, h2, hmday⟩ := halike d (by simp)
    obtain ⟨e3, h3, hhour⟩ := halike h (by simp)
    obtain ⟨e4, h4, hmin⟩ := halike mi (by simp)
    obtain ⟨e5, h5, hsec⟩ := halike s (by simp)
    simp only [h0, h1, h2, h3, h4, h5, List.cons_append, List.nil_append, tokensTm, hyear, hmon, hmday, hhour, hmin,
      hsec]
    rfl

/-! ## Fields behind the terminator -/

/-- what the loops find: the last field ends with a zero, the one of the string or a later one -/
theorem accepted_iff {c : CStr} {fs : List Str} :
    Accepted c.mem fs ↔ ∃ n, c.len ≤ n ∧ c.mem n = 0 ∧ Passed (slice c.mem 0 n) fs := by
  have hsucc : ∀ n, slice c.mem 0 (n + 1) = slice c.mem 0 n ++ [c.mem n] := by
    intro n
    rw [slice_add, zero_add]
    rfl
  constructor
  · rintro ⟨n, hscan, hpass⟩
    obtain ⟨hfits, -, htext⟩ := scanFields_eq_ok_iff.1 hscan
    obtain ⟨y, mo, d, h, mi, s, rfl⟩ := six_of_fits hfits
    have hsix := fieldsText_six y mo d h mi s
    generalize y ++ 45 :: (mo ++ 45 :: (d ++ 32 :: (h ++ 58 :: (mi ++ 58 :: s)))) = text at hsix
    rw [hsix, List.length_append, List.length_singleton, hsucc] at htext
    obtain ⟨hslice, hzero⟩ := List.append_inj' htext rfl
    have hnul : c.mem text.length = 0 := (List.cons.inj hzero).1
    refine ⟨text.length, not_lt.1 fun hlt => c.before _ hlt hnul, hnul, hfits, ?_, hpass⟩
    rw [hslice, hsix]
  · rintro ⟨n, -, hnul, hfits, htext, hpass⟩
    have hread : slice c.mem 0 (n + 1) = fieldsText dateFields fs := by rw [hsucc, hnul, htext]
    refine ⟨n + 1, scanFields_eq_ok_iff.2 ⟨hfits, ?_, ?_⟩, hpass⟩
    · rw [← hread, length_slice, zero_add]
    · rw [← hread, length_slice]

theorem noDate_iff {c : CStr} : NoDate c ↔ ∀ fs, ¬ Accepted c.mem fs := by
  constructor
  · intro h fs hacc
    obtain ⟨n, hle, hnul, hpassed⟩ := accepted_iff.1 hacc
    exact h n hle hnul fs hpassed
  · intro h n hle hnul fs hpassed
    exact h fs (accepted_iff.2 ⟨n, hle, hnul, hpassed⟩)

/-- accepted fields that reach behind the terminator: the string ends in the first five -/
theorem text_short {c : CStr} {five s : Str} {w : List UInt8} (hs : 0 ∉ s) (hw : w ≠ [])
    (h : c.text ++ 0 :: w = five ++ 58 :: (s ++ [0])) : ∃ rest, five = c.text ++ rest := by
  rcases List.append_eq_append_iff.1 h with ⟨rest, hfive, -⟩ | ⟨more, htext, htail⟩
  · exact ⟨rest, hfive⟩
  · cases more with
    | nil => exact ⟨[], by rw [htext, List.append_nil, List.append_nil]⟩
    | cons x more =>
      -- then the zero would stand in the last field
      exfalso
      rw [List.cons_append] at htail
      obtain ⟨-, htail⟩ := List.cons.inj htail
      rw [← List.dropLast_append_getLast hw, ← List.cons_append, ← List.append_assoc] at htail
      have hsplit := (List.append_inj' htail rfl).1
      exact hs (hsplit ▸ List.mem_append_right _ List.mem_cons_self)

/-- accepted fields are those of the text, or the text has too few tokens -/
theorem accepted_passed {c : CStr} {fs : List Str} (h : Accepted c.mem fs)
    (hsix : 6 ≤ (extraStr c.text dateSeps).length) : Passed c.text fs := by
  obtain ⟨n, hscan, hpass⟩ := h
  have hfound := scanFields_eq_ok_iff.1 hscan
  obtain hle | hlt := le_or_gt n (c.len + 1)
  · exact ⟨hfound.1, scan_inside hscan hle, hpass⟩
  exfalso
  obtain ⟨hfits, hn, htext⟩ := hfound
  obtain ⟨y, mo, d, h, mi, s, rfl⟩ := six_of_fits hfits
  obtain ⟨hy, hmo, hd, hh, hmi, -⟩ := passed_fields hfits hpass
  rw [zero_add] at hn
  obtain ⟨k, hk⟩ := Nat.exists_eq_add_of_lt hlt
  rw [← hn, hk, add_assoc, slice_add, slice_text, List.append_assoc] at htext
  have hfields : fieldsText dateFields [y, mo, d, h, mi, s] =
      (y ++ 45 :: (mo ++ 45 :: (d ++ 32 :: (h ++ 58 :: mi)))) ++ 58 :: (s ++ [0]) := by
    simp [dateFields, fieldsText]
  rw [hfields] at htext
  have hs : 0 ∉ s := by
    simp only [Fits, dateFields, List.forall₂_cons] at hfits
    exact hfits.2.2.2.2.2.1.2
  obtain ⟨rest, hfive⟩ := text_short hs (by simp [slice_succ]) htext
  have hmono : (extraStr c.text dateSeps).length ≤ (extraStr (c.text ++ rest) dateSeps).length :=
    length_extraStr_append_le c.text rest
  have hminus : 45 ∈ dateSeps := by decide
  have hspace : 32 ∈ dateSeps := by decide
  have hcolon : 58 ∈ dateSeps := by decide
  rw [← hfive, extraStr_append_sep hminus, extraStr_append_sep hminus, extraStr_append_sep hspace,
    extraStr_append_sep hcolon, hy] at hmono
  simp only [List.length_append, List.length_singleton] at hmono
  omega

theorem Passed.accepted {c : CStr} {fs : List Str} (h : Passed c.text fs) : Accepted c.mem fs := by
  have htext : slice c.mem 0 c.len = c.text := by simp only [slice, zero_add, CStr.text]
  exact accepted_iff.2 ⟨c.len, le_rfl, c.nul, by rw [htext]; exact h⟩

theorem Accepted.unique {mem : Mem} {fs gs : List Str} (hf : Accepted mem fs) (hg : Accepted mem gs) : fs = gs := by
  obtain ⟨n, hfs, -⟩ := hf
  obtain ⟨m, hgs, -⟩ := hg
  exact (Prod.mk.inj (Except.ok.inj (hfs.symm.trans hgs))).1

theorem ret_of_accepted {mem : Mem} {fs : List Str} (h : Accepted mem fs) :
    (transDateToTm mem).ret = some (fieldsTm fs) := by
  obtain ⟨n, hscan, hpass⟩ := h
  obtain ⟨r, hr⟩ := Option.isSome_iff_exists.1 hpass
  have heq := (checkTm_eq_some_iff.1 hr).1
  rw [transDateToTm, hscan, ← heq]
  exact hr

theorem ret_of_refused {mem : Mem} (h : ∀ fs, ¬ Accepted mem fs) : (transDateToTm mem).ret = none := by
  cases hscan : scanFields mem dateFields 0 with
  | error n => rw [transDateToTm, hscan]
  | ok r =>
    rw [transDateToTm, hscan]
    exact Option.not_isSome_iff_eq_none.1 fun hpass => h r.1 ⟨r.2, hscan, hpass⟩

/-- the limits of both, on fields that pass the tests of the first -/
theorem tokenRange_iff {fs : List Str} (hpass : (checkTm (fieldsTm fs)).isSome) :
    TokenRange (fieldsTm fs) ↔ (fieldsTm fs).tmMday ≤ 31 ∧ (fieldsTm fs).tmSec ≤ 60 := by
  obtain ⟨r, hr⟩ := Option.isSome_iff_exists.1 hpass
  have := (checkTm_eq_some_iff.1 hr).2
  unfold TokenRange
  omega

/-- **When the two readers agree.** -/
theorem parsers_agree_iff (c : CStr) :
    Agree c ↔ DateForBoth c.text ∨ NoDate c ∧ TokensRefused c.text := by
  rw [noDate_iff]
  by_cases hacc : ∃ fs, Accepted c.mem fs
  · obtain ⟨fs, hfs⟩ := hacc
    have hright : ¬ ((∀ gs, ¬ Accepted c.mem gs) ∧ TokensRefused c.text) := fun h => h.1 fs hfs
    rw [or_iff_left hright]
    constructor
    · rintro ⟨r, htranslate, hret⟩
      rw [ret_of_accepted hfs] at hret
      subst hret
      obtain ⟨htokens, hrange⟩ := translate_eq_some_iff.1 htranslate
      have hsix : 6 ≤ (extraStr c.text dateSeps).length := by
        by_contra hfew
        rw [tokensTm_few (not_le.1 hfew)] at htokens
        cases htokens
      have hpassed := accepted_passed hfs hsix
      exact ⟨fs, hpassed, (tokensTm_eq_iff hpassed).1 htokens, (tokenRange_iff hpassed.2.2).1 hrange⟩
    · rintro ⟨gs, hpassed, halike, hrange⟩
      obtain rfl := hfs.unique hpassed.accepted
      refine ⟨some (fieldsTm fs), translate_eq_some_iff.2 ⟨?_, ?_⟩, ret_of_accepted hfs⟩
      · exact (tokensTm_eq_iff hpassed).2 halike
      · exact (tokenRange_iff hpassed.2.2).2 hrange
  · rw [not_exists] at hacc
    have hleft : ¬ DateForBoth c.text := fun ⟨gs, hpassed, _⟩ => hacc gs hpassed.accepted
    rw [or_iff_right hleft, and_iff_right hacc, ← translate_eq_none_iff, Agree, ret_of_refused hacc]
    exact ⟨fun ⟨r, h, hr⟩ => hr ▸ h, fun h => ⟨none, h, rfl⟩⟩

/-- dates as C strings -/
def day0 : CStr := CStr.ofStr (bytes "2020-01-00 24:60:60") (by decide)

def textBehind : CStr := CStr.ofStr (bytes "2020-01-01 00:00:00 UTC") (by decide)

def noDigits : CStr := CStr.ofStr (bytes "2020-01-01 aa:bb:cc") (by decide)

theorem parsers_disagree :
    (transDateToTm day0.mem).ret = none ∧ translateToStructTM day0.text = some (some ⟨120, 0, 0, 24, 60, 60⟩) ∧
    (transDateToTm noTime.mem).ret = some ⟨120, 0, 1, 0, 0, 0⟩ ∧ translateToStructTM noTime.text = some none ∧
    (transDateToTm textBehind.mem).ret = none ∧
      translateToStructTM textBehind.text = some (some ⟨120, 0, 1, 0, 0, 0⟩) ∧
    (transDateToTm noDigits.mem).ret = some ⟨120, 0, 1, 0, 0, 0⟩ ∧ translateToStructTM noDigits.text = none ∧
    ¬ Agree day0 ∧ ¬ Agree noDigits := by
  have hday : translateToStructTM day0.text = some (some ⟨120, 0, 0, 24, 60, 60⟩) := by decide +kernel
  have hday' : (transDateToTm day0.mem).ret = none := by decide +kernel
  have hthrow : translateToStructTM noDigits.text = none := by decide +kernel
  refine ⟨hday', hday, by decide +kernel, by decide +kernel, by decide +kernel, by decide +kernel, by decide +kernel,
    hthrow, ?_, ?_⟩
  · rintro ⟨r, hr, hret⟩
    rw [hday', ← Option.some.inj (hday.symm.trans hr)] at hret
    cases hret
  · rintro ⟨r, hr, -⟩
    rw [hthrow] at hr
    cases hr

end StoreService.Dates
