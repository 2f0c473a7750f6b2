/-
What `ScheduleFormatCheck` accepts (common.cpp), against the format it is named for: "hh:mm:ss-hh:mm:ss".

The check looks at the separators, at the byte in place 17, and at six sums of two characters each, weighted as if they
were digits. Whether a character is a digit is not tested, and neither is where the string ends.

- `format_check_iff`: on a C string the check accepts exactly the well-formed intervals, and the table then has the
  numbers written in it, iff the string does not pass the tests or has 17 characters with digits in the twelve places.
- `format_check_accepts`: a string of 16 characters with a zero behind its terminator, and one with '/' and ':' in
  place of the first two digits, are accepted.
-/
import StoreService.Common.Schedule

namespace StoreService.Schedule

open StoreService.Json

/-! ## Well-formed intervals -/

def IsDigit (b : UInt8) : Prop := 0x30 ≤ b ∧ b ≤ 0x39

instance (b : UInt8) : Decidable (IsDigit b) := inferInstanceAs (Decidable (_ ∧ _))

/-- the places of the digits in "hh:mm:ss-hh:mm:ss" -/
def digitPlaces : List ℕ := [0, 1, 3, 4, 6, 7, 9, 10, 12, 13, 15, 16]

/-- the places of the six numbers, and how large each may be -/
def numberFields : List (ℕ × ℕ) := [(0, 24), (3, 59), (6, 59), (9, 24), (12, 59), (15, 59)]

/-- the number that two digits write, from place `i` on -/
def decimalAt (s : Str) (i : ℕ) : ℕ := ((s.getD i 0).toNat - 0x30) * 10 + ((s.getD (i + 1) 0).toNat - 0x30)

/-- dd:dd:dd-dd:dd:dd, hours up to 24, minutes and seconds up to 59 -/
structure WellFormed (s : Str) : Prop where
  length : s.length = 17
  digits : ∀ i ∈ digitPlaces, IsDigit (s.getD i 0)
  colons : ∀ i ∈ [2, 5, 11, 14], s.getD i 0 = 0x3a
  dash : s.getD 8 0 = 0x2d
  range : ∀ f ∈ numberFields, decimalAt s f.1 ≤ f.2

/-- the six numbers written in an interval -/
def writtenInterval (s : Str) : Interval :=
  ⟨⟨decimalAt s 0, decimalAt s 3, decimalAt s 6⟩, ⟨decimalAt s 9, decimalAt s 12, decimalAt s 15⟩⟩

/-- the check accepts a string exactly if it is well formed, and then the table has its numbers -/
def ChecksFormat (c : CStr) : Prop :=
  (scheduleFormatCheck (some c) = 0 ↔ WellFormed c.text) ∧
    (scheduleFormatCheck (some c) = 0 → translateScheduleToTm [[c.text]] = some [[writtenInterval c.text]])

/-- what the tests look at -/
structure PassesTests (c : CStr) : Prop where
  stop : c.mem 17 = 0
  colons : ∀ i ∈ [2, 5, 11, 14], c.mem i = 0x3a
  dash : c.mem 8 = 0x2d
  range : ∀ f ∈ numberFields, 0 ≤ number (c.mem f.1) (c.mem (f.1 + 1)) ∧
    number (c.mem f.1) (c.mem (f.1 + 1)) ≤ f.2

/-! ## The check -/

section Check

variable {c : CStr}

theorem test_eq_zero_iff {p : Prop} [Decidable p] {rest : ℤ} : (if p then -1 else rest) = 0 ↔ ¬ p ∧ rest = 0 := by
  by_cases hp : p
  · rw [if_pos hp]
    exact iff_of_false (by decide) fun h => h.1 hp
  · rw [if_neg hp]
    exact ⟨fun h => ⟨hp, h⟩, fun h => h.2⟩

/-- the check is its tests -/
theorem check_eq_zero_iff : scheduleFormatCheck (some c) = 0 ↔ PassesTests c := by
  simp only [scheduleFormatCheck, test_eq_zero_iff, not_not, not_or, not_lt, gt_iff_lt]
  constructor
  · rintro ⟨hstop, ⟨h2, h5, h11, h14⟩, hdash, h0, h3, h6, h9, h12, h15, -⟩
    refine ⟨hstop, by simp [h2, h5, h11, h14], hdash, ?_⟩
    simp only [numberFields, List.forall_mem_cons]
    exact ⟨h0, h3, h6, h9, h12, h15, nofun⟩
  · rintro ⟨hstop, hcolons, hdash, hrange⟩
    simp only [numberFields, List.forall_mem_cons] at hcolons hrange
    obtain ⟨h2, h5, h11, h14, -⟩ := hcolons
    obtain ⟨h0, h3, h6, h9, h12, h15, -⟩ := hrange
    exact ⟨hstop, ⟨h2, h5, h11, h14⟩, hdash, h0, h3, h6, h9, h12, h15, trivial⟩

theorem length_text (c : CStr) : c.text.length = c.len := by simp [CStr.text]

theorem charAt_of_le {i : ℕ} (h : i ≤ c.len) : charAt c.text i = some (c.mem i) := by
  obtain ⟨b, hb⟩ : ∃ b, charAt c.text i = some b := by
    refine ⟨_, List.getElem?_eq_getElem ?_⟩
    rw [List.length_append, length_text]
    exact Nat.lt_succ_of_le h
  rw [hb, charAt_text hb]

theorem getD_text {i : ℕ} (h : i < c.len) : c.text.getD i 0 = c.mem i := by
  simp [CStr.text, h]

theorem IsDigit.charInt {b : UInt8} (h : IsDigit b) : charInt b - 0x30 = ((b.toNat - 0x30 : ℕ) : ℤ) := by
  obtain ⟨h1, h2⟩ := h
  rw [UInt8.le_iff_toNat_le] at h1 h2
  simp only [UInt8.toNat_ofNat] at h1 h2
  have hsmall : Schedule.charInt b = b.toNat := by
    have hb : 2 * b.toBitVec.toNat < 2 ^ 8 := by
      rw [UInt8.toNat_toBitVec]
      omega
    exact BitVec.toInt_eq_toNat_of_lt hb
  omega

/-- two digits are the number they write -/
theorem number_eq_decimalAt {i : ℕ} (hi : i + 1 < c.len) (ha : IsDigit (c.mem i)) (hb : IsDigit (c.mem (i + 1))) :
    number (c.mem i) (c.mem (i + 1)) = decimalAt c.text i := by
  rw [number, ha.charInt, hb.charInt, decimalAt, getD_text hi, getD_text (Nat.lt_of_succ_lt hi)]
  push_cast
  rfl

/-- the six numbers of a string with digits in their places -/
theorem number_field (hlen : c.len = 17) (hdigits : ∀ i ∈ digitPlaces, IsDigit (c.mem i)) {f : ℕ × ℕ}
    (hf : f ∈ numberFields) : number (c.mem f.1) (c.mem (f.1 + 1)) = decimalAt c.text f.1 := by
  have hplaces : ∀ f ∈ numberFields, f.1 + 1 < 17 ∧ f.1 ∈ digitPlaces ∧ f.1 + 1 ∈ digitPlaces := by decide
  obtain ⟨hlt, ha, hb⟩ := hplaces f hf
  exact number_eq_decimalAt (hlen ▸ hlt) (hdigits _ ha) (hdigits _ hb)

/-- the tests, and digits in a string of the right length -/
theorem PassesTests.wellFormed (h : PassesTests c) (hlen : c.len = 17)
    (hdigits : ∀ i ∈ digitPlaces, IsDigit (c.mem i)) : WellFormed c.text := by
  have hget : ∀ i < 17, c.text.getD i 0 = c.mem i := fun i hi => getD_text (hlen ▸ hi)
  refine ⟨(length_text c).trans hlen, ?_, ?_, ?_, ?_⟩
  · intro i hi
    rw [hget i (by revert i; decide)]
    exact hdigits i hi
  · intro i hi
    rw [hget i (by revert i; decide)]
    exact h.colons i hi
  · rw [hget 8 (by decide)]
    exact h.dash
  · intro f hf
    have hrange := (h.range f hf).2
    rw [number_field hlen hdigits hf] at hrange
    exact_mod_cast hrange

/-- a well-formed string has its digits, and passes -/
theorem WellFormed.passes (h : WellFormed c.text) :
    c.len = 17 ∧ (∀ i ∈ digitPlaces, IsDigit (c.mem i)) ∧ PassesTests c := by
  have hlen : c.len = 17 := (length_text c).symm.trans h.length
  have hget : ∀ i < 17, c.text.getD i 0 = c.mem i := fun i hi => getD_text (hlen ▸ hi)
  have hdigits : ∀ i ∈ digitPlaces, IsDigit (c.mem i) := by
    intro i hi
    rw [← hget i (by revert i; decide)]
    exact h.digits i hi
  refine ⟨hlen, hdigits, ?_, ?_, ?_, ?_⟩
  · rw [← hlen]
    exact c.nul
  · intro i hi
    rw [← hget i (by revert i; decide)]
    exact h.colons i hi
  · rw [← hget 8 (by decide)]
    exact h.dash
  · intro f hf
    rw [number_field hlen hdigits hf]
    exact ⟨Int.natCast_nonneg _, by exact_mod_cast h.range f hf⟩

/-- the table has the numbers of a well-formed string -/
theorem WellFormed.translate (h : WellFormed c.text) :
    translateScheduleToTm [[c.text]] = some [[writtenInterval c.text]] := by
  obtain ⟨hlen, hdigits, -⟩ := h.passes
  have hread : ∀ f ∈ numberFields, readNumber c.text f.1 = some (decimalAt c.text f.1 : ℤ) := by
    intro f hf
    have hle : ∀ f ∈ numberFields, f.1 + 1 ≤ 17 := by decide
    have hplace := hle f hf
    rw [readNumber, charAt_of_le (by omega), charAt_of_le (by omega), ← number_field hlen hdigits hf]
    rfl
  simp only [numberFields, List.forall_mem_cons] at hread
  obtain ⟨h0, h3, h6, h9, h12, h15, -⟩ := hread
  simp [translateScheduleToTm, translateItem, readTm, h0, h3, h6, h9, h12, h15, writtenInterval]

end Check

/-- **The format check.** On a C string, with anything behind its terminator, the check accepts exactly the well-formed
intervals and the table gets their numbers iff the string fails one of the tests, or has 17 characters with digits in
the twelve places. -/
theorem format_check_iff (c : CStr) :
    ChecksFormat c ↔ (PassesTests c → c.len = 17 ∧ ∀ i ∈ digitPlaces, IsDigit (c.mem i)) := by
  unfold ChecksFormat
  rw [check_eq_zero_iff]
  constructor
  · rintro ⟨haccepts, -⟩ hpasses
    obtain ⟨hlen, hdigits, -⟩ := (haccepts.1 hpasses).passes
    exact ⟨hlen, hdigits⟩
  · intro hcond
    have haccepted : PassesTests c → WellFormed c.text := by
      intro hpasses
      obtain ⟨hlen, hdigits⟩ := hcond hpasses
      exact hpasses.wellFormed hlen hdigits
    exact ⟨⟨haccepted, fun h => h.passes.2.2⟩, fun hpasses => (haccepted hpasses).translate⟩

/-- "12:00:00-13:00:00" -/
def noonHour : CStr := CStr.ofStr (bytes "12:00:00-13:00:00") (by decide +kernel)

/-- "12:00:00-13:00:5", and the byte behind the terminator is zero too -/
def shortInterval : CStr := CStr.ofStr (bytes "12:00:00-13:00:5") (by decide +kernel)

/-- "/::00:00-13:00:00" -/
def slashInterval : CStr := CStr.ofStr (bytes "/::00:00-13:00:00") (by decide +kernel)

theorem format_check_noon : ChecksFormat noonHour :=
  (format_check_iff noonHour).2 fun _ => ⟨by decide +kernel, by decide +kernel⟩

/-- **Accepted, but no interval**: 16 characters, whose terminator counts as a digit of the last number, 2; and two
characters that are no digits, whose weighted sum is 0. -/
theorem format_check_accepts :
    scheduleFormatCheck (some shortInterval) = 0 ∧ ¬ WellFormed shortInterval.text ∧
    translateScheduleToTm [[shortInterval.text]] = some [[⟨⟨12, 0, 0⟩, ⟨13, 0, 2⟩⟩]] ∧
    scheduleFormatCheck (some slashInterval) = 0 ∧ ¬ WellFormed slashInterval.text ∧
    translateScheduleToTm [[slashInterval.text]] = some [[⟨⟨0, 0, 0⟩, ⟨13, 0, 0⟩⟩]] := by
  refine ⟨by decide +kernel, ?_, by decide +kernel, by decide +kernel, ?_, by decide +kernel⟩
  · intro h
    exact absurd h.length (by decide +kernel)
  · intro h
    exact absurd (h.digits 0 (by decide)) (by decide +kernel)

end StoreService.Schedule
