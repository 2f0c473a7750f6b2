/-
Weekly schedules (`common.cpp`): from the posted JSON to the table the recording and backup threads look up.

`ParseSchedule` takes seven days of at least one interval "hh:mm:ss-hh:mm:ss" each. `ScheduleFormatCheck` reads 17 bytes
and the terminator at their place, whatever the length of the string; `TranslateScheduleToTm` reads the 17 bytes of a
std::string copied from it, and moves the last day to the front, so that the table is indexed by tm_wday.

- `parseSchedule_posted`: the table of an accepted JSON has, under tm_wday of a weekday, the intervals posted for that
  weekday, in order.

Conventions: char is signed; a read past the terminator of a std::string is a fault (`none`), one past the terminator of
a C string finds whatever is there.
-/
import StoreService.Common.Json

namespace StoreService.Schedule

open StoreService.Json

/-! ## The source -/

/-- a (signed) char as an int -/
def charInt (b : UInt8) : ℤ := b.toInt8.toInt

/-- the number written in two characters, however little they look like digits -/
def number (a b : UInt8) : ℤ := (charInt a - 0x30) * 10 + (charInt b - 0x30)

/-- `ScheduleFormatCheck`: 0 or -1; 0x3a is ':' and 0x2d is '-' -/
def scheduleFormatCheck : Option CStr → ℤ
  | none => -1
  | some c =>
    let s := c.mem
    if s 17 ≠ 0 then -1
    else if s 2 ≠ 0x3a ∨ s 5 ≠ 0x3a ∨ s 11 ≠ 0x3a ∨ s 14 ≠ 0x3a then -1
    else if s 8 ≠ 0x2d then -1
    else if number (s 0) (s 1) < 0 ∨ number (s 0) (s 1) > 24 then -1
    else if number (s 3) (s 4) < 0 ∨ number (s 3) (s 4) > 59 then -1
    else if number (s 6) (s 7) < 0 ∨ number (s 6) (s 7) > 59 then -1
    else if number (s 9) (s 10) < 0 ∨ number (s 9) (s 10) > 24 then -1
    else if number (s 12) (s 13) < 0 ∨ number (s 12) (s 13) > 59 then -1
    else if number (s 15) (s 16) < 0 ∨ number (s 15) (s 16) > 59 then -1
    else 0

/-- the fields of `struct tm` a schedule sets -/
structure Tm where
  tmHour : ℤ
  tmMin : ℤ
  tmSec : ℤ
deriving DecidableEq, Repr

structure Interval where
  start : Tm
  stop : Tm
deriving DecidableEq, Repr

/-- `s.c_str()[i]` -/
def charAt (s : Str) (i : ℕ) : Option UInt8 := (s ++ [0])[i]?

def readNumber (s : Str) (i : ℕ) : Option ℤ := do
  let a ← charAt s i
  let b ← charAt s (i + 1)
  return number a b

/-- the time written from place `i` on -/
def readTm (s : Str) (i : ℕ) : Option Tm := do
  let hour ← readNumber s i
  let min ← readNumber s (i + 3)
  let sec ← readNumber s (i + 6)
  return ⟨hour, min, sec⟩

def translateItem (s : Str) : Option Interval := do
  let start ← readTm s 0
  let stop ← readTm s 9
  return ⟨start, stop⟩

/-- `TranslateScheduleToTm`; `back` of an empty table is a fault -/
def translateScheduleToTm (schedule : List (List Str)) : Option (List (List Interval)) := do
  let table ← schedule.mapM fun day => day.mapM translateItem
  let last ← table.getLast?
  return last :: table.dropLast

/-- `std::vector<std::vector<std::vector<struct tm>>>` of a schedule: one list of intervals for each tm_wday -/
structure Week where
  days : List (List Interval)
  seven : days.length = 7

/-- one interval of a day -/
def parseItem (item : CJson) : Except ErrorNo Str :=
  match item.valuestring with
  | none => .error .scheduleFormatError
  | some s => if scheduleFormatCheck (some s) < 0 then .error .scheduleFormatError else .ok s.text

/-- one day -/
def parseDay (day : CJson) : Except ErrorNo (List Str) :=
  if day.getArraySize = 0 then .error .scheduleFormatError else day.child.mapM parseItem

/-- `ParseSchedule` -/
def parseSchedule (J : Codec) (json : Str) : Option (Except ErrorNo Week) :=
  match J.parse json with
  | none => some (.error .scheduleFormatError)
  | some obj =>
    if obj.getArraySize ≠ 7 then some (.error .scheduleDaysNotEnough)
    else
      match obj.child.mapM parseDay with
      | .error e => some (.error e)
      | .ok week =>
        match translateScheduleToTm week with
        | none => none
        | some days => if h : days.length = 7 then some (.ok ⟨days, h⟩) else none

/-- `sec_start` and `sec_end`: an int stored in a uint32_t -/
def Tm.seconds (t : Tm) : ℕ := ((t.tmHour * 3600 + t.tmMin * 60 + t.tmSec) % 2 ^ 32).toNat

/-- the test of `StreamScheduleProc` and `BackupScheProc` -/
def Interval.covers (v : Interval) (sec : ℕ) : Bool := v.start.seconds ≤ sec && sec ≤ v.stop.seconds

/-! ## Weekdays -/

inductive Weekday where
  | monday
  | tuesday
  | wednesday
  | thursday
  | friday
  | saturday
  | sunday
deriving DecidableEq, Repr

/-- the days of a posted schedule, under the names `GetSchedule` gives them -/
def postedIndex : Weekday → ℕ
  | .monday => 0
  | .tuesday => 1
  | .wednesday => 2
  | .thursday => 3
  | .friday => 4
  | .saturday => 5
  | .sunday => 6

/-- tm_wday: days since Sunday -/
def tmWday : Weekday → ℕ
  | .sunday => 0
  | .monday => 1
  | .tuesday => 2
  | .wednesday => 3
  | .thursday => 4
  | .friday => 5
  | .saturday => 6

theorem tmWday_lt (d : Weekday) : tmWday d < 7 := by cases d <;> decide

/-- `rec_schedule[tm_wday]` -/
def Week.day (w : Week) (d : Weekday) : List Interval := w.days.get ⟨tmWday d, w.seven ▸ tmWday_lt d⟩

/-! ## What was posted -/

/-- the second of day written from place `i` of an interval on -/
def postedSecond (c : CStr) (i : ℕ) : ℤ :=
  number (c.mem i) (c.mem (i + 1)) * 3600 + number (c.mem (i + 3)) (c.mem (i + 4)) * 60 +
    number (c.mem (i + 6)) (c.mem (i + 7))

/-- the intervals of a posted day, first and last second -/
def postedDay (day : CJson) : List (ℤ × ℤ) :=
  day.child.filterMap fun item => item.valuestring.map fun c => (postedSecond c 0, postedSecond c 9)

/-- the intervals posted for a weekday -/
def posted (obj : CJson) (d : Weekday) : List (ℤ × ℤ) :=
  match obj.child[postedIndex d]? with
  | none => []
  | some day => postedDay day

/-- first and last second of an interval of the table -/
def Interval.span (v : Interval) : ℤ × ℤ := (v.start.seconds, v.stop.seconds)

/-! ## The loops -/

section Loops

variable {α β ε : Type}

theorem mapM_option {f : α → Option β} : ∀ {l : List α} {l' : List β}, l.mapM f = some l' →
    List.Forall₂ (fun a b => f a = some b) l l'
  | [], l', h => by
    obtain rfl : [] = l' := by simpa using h
    exact .nil
  | a :: l, l', h => by
    rw [List.mapM_cons] at h
    obtain ⟨b, hb, h⟩ := Option.bind_eq_some_iff.1 h
    obtain ⟨bs, hbs, h⟩ := Option.bind_eq_some_iff.1 h
    obtain rfl : b :: bs = l' := by simpa using h
    exact .cons hb (mapM_option hbs)

theorem mapM_except {f : α → Except ε β} : ∀ {l : List α} {l' : List β}, l.mapM f = .ok l' →
    List.Forall₂ (fun a b => f a = .ok b) l l'
  | [], l', h => by
    obtain rfl : [] = l' := by simpa [pure, Except.pure] using h
    exact .nil
  | a :: l, l', h => by
    rw [List.mapM_cons] at h
    cases ha : f a with
    | error e => simp [ha, bind, Except.bind] at h
    | ok b =>
      cases hl : l.mapM f with
      | error e => simp [ha, hl, bind, Except.bind] at h
      | ok bs =>
        obtain rfl : b :: bs = l' := by simpa [ha, hl, bind, Except.bind, pure, Except.pure] using h
        exact .cons ha (mapM_except hl)

theorem exists_of_mapM_except {f : α → Except ε β} {l : List α} {l' : List β} (h : l.mapM f = .ok l') :
    ∀ a ∈ l, ∃ b, f a = .ok b := by
  have hall := mapM_except h
  clear h
  induction hall with
  | nil => nofun
  | cons hab _ ih => exact List.forall_mem_cons.2 ⟨⟨_, hab⟩, ih⟩

theorem mapM_eq_none_iff {f : α → Option β} (l : List α) : l.mapM f = none ↔ ∃ a ∈ l, f a = none := by
  induction l with
  | nil => simp
  | cons a l ih =>
    rw [List.mapM_cons, Option.bind_eq_bind, Option.bind_eq_none_iff, List.exists_mem_cons_iff]
    cases ha : f a with
    | none => simp
    | some b =>
      simp only [Option.some.injEq, forall_eq', reduceCtorEq, false_or, ← ih]
      cases l.mapM f <;> simp

end Loops

/-! ## Intervals -/

variable {c : CStr} {t : Str} {i : ℕ}

/-- the copy of a C string has the bytes of the original, as far as it can be read -/
theorem charAt_text {b : UInt8} (h : charAt c.text i = some b) : c.mem i = b := by
  have hlen : c.text.length = c.len := by simp [CStr.text]
  rcases lt_trichotomy i c.len with hi | rfl | hi
  · rw [charAt, List.getElem?_append_left (hlen ▸ hi)] at h
    simpa [CStr.text, hi] using h
  · rw [charAt, List.getElem?_append_right hlen.le, hlen, Nat.sub_self] at h
    rw [c.nul]
    exact Option.some.inj h
  · rw [charAt, List.getElem?_eq_none (by rw [List.length_append, hlen]; exact hi)] at h
    cases h

theorem readNumber_text {n : ℤ} (h : readNumber c.text i = some n) : n = number (c.mem i) (c.mem (i + 1)) := by
  obtain ⟨a, ha, h⟩ := Option.bind_eq_some_iff.1 h
  obtain ⟨b, hb, h⟩ := Option.bind_eq_some_iff.1 h
  rw [charAt_text ha, charAt_text hb]
  exact (Option.some.inj h).symm

/-- a time of the copy is the one posted -/
theorem readTm_text {m : Tm} (h : readTm c.text i = some m) :
    m = ⟨number (c.mem i) (c.mem (i + 1)), number (c.mem (i + 3)) (c.mem (i + 4)),
      number (c.mem (i + 6)) (c.mem (i + 7))⟩ := by
  obtain ⟨hour, hh, h⟩ := Option.bind_eq_some_iff.1 h
  obtain ⟨min, hm, h⟩ := Option.bind_eq_some_iff.1 h
  obtain ⟨sec, hs, h⟩ := Option.bind_eq_some_iff.1 h
  rw [← readNumber_text hh, ← readNumber_text hm, ← readNumber_text hs]
  exact (Option.some.inj h).symm

/-- the ranges `ScheduleFormatCheck` enforces -/
structure InRange (c : CStr) (i : ℕ) : Prop where
  hour : 0 ≤ number (c.mem i) (c.mem (i + 1)) ∧ number (c.mem i) (c.mem (i + 1)) ≤ 24
  min : 0 ≤ number (c.mem (i + 3)) (c.mem (i + 4)) ∧ number (c.mem (i + 3)) (c.mem (i + 4)) ≤ 59
  sec : 0 ≤ number (c.mem (i + 6)) (c.mem (i + 7)) ∧ number (c.mem (i + 6)) (c.mem (i + 7)) ≤ 59

/-- what gets past one test of `ScheduleFormatCheck` -/
theorem passes_test {p : Prop} [Decidable p] {rest : ℤ} (h : ¬ (if p then -1 else rest) < 0) : ¬ p ∧ ¬ rest < 0 := by
  by_cases hp : p
  · exact absurd (by rw [if_pos hp]; decide) h
  · rw [if_neg hp] at h
    exact ⟨hp, h⟩

theorem within_of_not_outside {n a b : ℤ} (h : ¬ (n < a ∨ n > b)) : a ≤ n ∧ n ≤ b := by
  rcases not_or.1 h with ⟨ha, hb⟩
  exact ⟨not_lt.1 ha, not_lt.1 hb⟩

theorem inRange_of_check (h : ¬ scheduleFormatCheck (some c) < 0) : InRange c 0 ∧ InRange c 9 := by
  obtain ⟨-, h⟩ := passes_test h
  obtain ⟨-, h⟩ := passes_test h
  obtain ⟨-, h⟩ := passes_test h
  obtain ⟨h0, h⟩ := passes_test h
  obtain ⟨h3, h⟩ := passes_test h
  obtain ⟨h6, h⟩ := passes_test h
  obtain ⟨h9, h⟩ := passes_test h
  obtain ⟨h12, h⟩ := passes_test h
  obtain ⟨h15, -⟩ := passes_test h
  exact ⟨⟨within_of_not_outside h0, within_of_not_outside h3, within_of_not_outside h6⟩,
    ⟨within_of_not_outside h9, within_of_not_outside h12, within_of_not_outside h15⟩⟩

/-- in range, nothing is lost in a uint32_t -/
theorem seconds_text {m : Tm} (hr : InRange c i) (h : readTm c.text i = some m) :
    (m.seconds : ℤ) = postedSecond c i := by
  have hh := hr.hour
  have hm := hr.min
  have hs := hr.sec
  simp only [readTm_text h, Tm.seconds, postedSecond]
  rw [Int.toNat_of_nonneg (Int.emod_nonneg _ (by decide)), Int.emod_eq_of_lt (by omega) (by omega)]

theorem parseItem_posted {item : CJson} {v : Interval} (hp : parseItem item = .ok t) (ht : translateItem t = some v) :
    ∃ c, item.valuestring = some c ∧ v.span = (postedSecond c 0, postedSecond c 9) := by
  unfold parseItem at hp
  cases hc : item.valuestring with
  | none => simp [hc] at hp
  | some c =>
    simp only [hc] at hp
    split_ifs at hp with hcheck
    obtain rfl : c.text = t := Except.ok.inj hp
    obtain ⟨h0, h9⟩ := inRange_of_check hcheck
    obtain ⟨a, ha, ht⟩ := Option.bind_eq_some_iff.1 ht
    obtain ⟨b, hb, ht⟩ := Option.bind_eq_some_iff.1 ht
    obtain rfl : ⟨a, b⟩ = v := Option.some.inj ht
    exact ⟨c, rfl, Prod.ext (seconds_text h0 ha) (seconds_text h9 hb)⟩

/-! ## Days and weeks -/

theorem parseDay_posted {day : CJson} {texts : List Str} {ivs : List Interval} (hp : parseDay day = .ok texts)
    (ht : texts.mapM translateItem = some ivs) : ivs.map Interval.span = postedDay day := by
  unfold parseDay at hp
  split_ifs at hp
  have hitems := mapM_except hp
  have hivs := mapM_option ht
  clear hp ht
  rw [postedDay]
  generalize day.child = items at hitems
  induction hitems generalizing ivs with
  | nil =>
    cases hivs
    rfl
  | cons hitem _ ih =>
    cases hivs with
    | cons hiv hivs =>
      obtain ⟨c, hc, hspan⟩ := parseItem_posted hitem hiv
      rw [List.map_cons, List.filterMap_cons, hc, ih hivs, hspan]
      rfl

/-- with the last of seven days in front, tm_wday finds the day posted for it -/
theorem rotated_day {α : Type} {table : List α} {last : α} (h7 : table.length = 7) (hl : table.getLast? = some last)
    (d : Weekday) : (last :: table.dropLast)[tmWday d]? = table[postedIndex d]? := by
  rw [List.getLast?_eq_getElem?, h7] at hl
  cases d with
  | sunday => exact hl.symm
  | _ => simp [tmWday, postedIndex, h7]

/-- a translated table is the days in order, the last of them first -/
theorem exists_table_of_translate {week : List (List Str)} {days : List (List Interval)}
    (ht : translateScheduleToTm week = some days) :
    ∃ table last, List.Forall₂ (fun day ivs => day.mapM translateItem = some ivs) week table ∧
      table.getLast? = some last ∧ last :: table.dropLast = days := by
  obtain ⟨table, htable, ht⟩ := Option.bind_eq_some_iff.1 ht
  obtain ⟨last, hlast, ht⟩ := Option.bind_eq_some_iff.1 ht
  exact ⟨table, last, mapM_option htable, hlast, Option.some.inj ht⟩

theorem translate_posted {obj : CJson} {week : List (List Str)} {days : List (List Interval)}
    (h7 : obj.getArraySize = 7) (hp : obj.child.mapM parseDay = .ok week) (ht : translateScheduleToTm week = some days)
    (hlen : days.length = 7) (d : Weekday) : ((Week.mk days hlen).day d).map Interval.span = posted obj d := by
  obtain ⟨table, last, htrans, hlast, rfl⟩ := exists_table_of_translate ht
  have hparsed := mapM_except hp
  have h7w : week.length = 7 := hparsed.length_eq ▸ h7
  have h7t : table.length = 7 := htrans.length_eq ▸ h7w
  have hk : postedIndex d < 7 := by cases d <;> decide
  have hday := rotated_day h7t hlast d
  rw [List.getElem?_eq_getElem (by rw [hlen]; exact tmWday_lt d), List.getElem?_eq_getElem (h7t ▸ hk)] at hday
  rw [Week.day, List.get_eq_getElem, Option.some.inj hday, posted,
    List.getElem?_eq_getElem (by rw [← CJson.getArraySize, h7]; exact hk)]
  exact parseDay_posted (hparsed.get _ (h7w ▸ hk)) (htrans.get _ _)

/-- **An accepted schedule is looked up as it was posted**: under tm_wday of a weekday the table has the intervals that
the JSON lists for this weekday, counted from monday. -/
theorem parseSchedule_posted {J : Codec} {json : Str} {w : Week} (h : parseSchedule J json = some (.ok w)) :
    ∃ obj, J.parse json = some obj ∧ ∀ d, (w.day d).map Interval.span = posted obj d := by
  unfold parseSchedule at h
  split at h
  · simp at h
  · rename_i obj hobj
    split_ifs at h with h7
    · simp at h
    · split at h
      · simp at h
      · rename_i week hdays
        split at h
        · cases h
        · rename_i days htr
          split_ifs at h with hlen
          obtain rfl : ⟨days, hlen⟩ = w := by simpa using h
          exact ⟨obj, hobj, translate_posted (not_not.1 h7) hdays htr hlen⟩

/-! ## Short intervals -/

/-- every interval of the JSON is accepted, and one of them is so short that its copy is read past the end: what the
checks read behind the terminator happens to look like the rest of an interval -/
def Overruns (J : Codec) (json : Str) : Prop :=
  ∃ obj week, J.parse json = some obj ∧ obj.getArraySize = 7 ∧ obj.child.mapM parseDay = .ok week ∧
    ∃ day ∈ week, ∃ t ∈ day, t.length < 16

theorem charAt_eq_none_iff (s : Str) (i : ℕ) : charAt s i = none ↔ s.length < i := by
  rw [charAt, List.getElem?_eq_none_iff, List.length_append, List.length_singleton]
  exact Nat.succ_le_iff

theorem readNumber_eq_none_iff (s : Str) (i : ℕ) : readNumber s i = none ↔ s.length < i + 1 := by
  rw [readNumber, Option.bind_eq_bind, Option.bind_eq_none_iff, ← charAt_eq_none_iff]
  constructor
  · intro h
    by_contra hne
    obtain ⟨b, hb⟩ := Option.ne_none_iff_exists'.1 hne
    obtain ⟨a, ha⟩ : ∃ a, charAt s i = some a := by
      rw [← Option.ne_none_iff_exists', Ne, charAt_eq_none_iff]
      rw [charAt_eq_none_iff] at hne
      omega
    simpa [hb] using h a ha
  · intro h a _
    simp [h]

theorem readTm_eq_none_iff (s : Str) (i : ℕ) : readTm s i = none ↔ s.length < i + 7 := by
  constructor
  · intro h
    by_contra hlen
    have hread : ∀ j, j ≤ i + 6 → ∃ n, readNumber s j = some n := by
      intro j hj
      rw [← Option.ne_none_iff_exists', Ne, readNumber_eq_none_iff]
      omega
    obtain ⟨hour, hh⟩ := hread i (by omega)
    obtain ⟨min, hm⟩ := hread (i + 3) (by omega)
    obtain ⟨sec, hs⟩ := hread (i + 6) le_rfl
    simp [readTm, hh, hm, hs] at h
  · intro h
    have hsec : readNumber s (i + 6) = none := (readNumber_eq_none_iff s (i + 6)).2 h
    simp [readTm, hsec]

theorem translateItem_eq_none_iff (s : Str) : translateItem s = none ↔ s.length < 16 := by
  rw [← readTm_eq_none_iff s 9, translateItem]
  constructor
  · intro h
    by_contra hne
    obtain ⟨stop, hstop⟩ := Option.ne_none_iff_exists'.1 hne
    obtain ⟨start, hstart⟩ : ∃ t, readTm s 0 = some t := by
      rw [← Option.ne_none_iff_exists', Ne, readTm_eq_none_iff]
      rw [readTm_eq_none_iff] at hne
      omega
    simp [hstart, hstop] at h
  · intro h
    simp [h]

theorem translateScheduleToTm_eq_none_iff {week : List (List Str)} (hne : week ≠ []) :
    translateScheduleToTm week = none ↔ ∃ day ∈ week, ∃ t ∈ day, t.length < 16 := by
  have hmap : (week.mapM fun day => day.mapM translateItem) = none ↔ ∃ day ∈ week, ∃ t ∈ day, t.length < 16 := by
    simp only [mapM_eq_none_iff, translateItem_eq_none_iff]
  rw [← hmap, translateScheduleToTm]
  cases htable : week.mapM fun day => day.mapM translateItem with
  | none => simp
  | some table =>
    have hlen : table ≠ [] := by
      rintro rfl
      exact hne (List.length_eq_zero_iff.1 (mapM_option htable).length_eq)
    simp [List.getLast?_eq_some_getLast hlen]

/-- the parser faults on short intervals, and on nothing else -/
theorem parseSchedule_eq_none_iff (J : Codec) (json : Str) : parseSchedule J json = none ↔ Overruns J json := by
  unfold parseSchedule Overruns
  cases hobj : J.parse json with
  | none => simp
  | some obj =>
    by_cases h7 : obj.getArraySize = 7
    · cases hweek : obj.child.mapM parseDay with
      | error e => simp [h7, hweek]
      | ok week =>
        have h7w : week.length = 7 := (mapM_except hweek).length_eq ▸ h7
        have hne : week ≠ [] := by
          rintro rfl
          cases h7w
        have hiff := translateScheduleToTm_eq_none_iff hne
        cases htr : translateScheduleToTm week with
        | none =>
          rw [htr] at hiff
          simpa [h7, hweek, htr] using hiff
        | some days =>
          have hlen : days.length = 7 := by
            obtain ⟨table, last, htrans, -, rfl⟩ := exists_table_of_translate htr
            have h7t : table.length = 7 := htrans.length_eq ▸ h7w
            simp [h7t]
          rw [htr] at hiff
          simpa [h7, hweek, htr, hlen] using hiff
    · simp [h7]

end StoreService.Schedule
