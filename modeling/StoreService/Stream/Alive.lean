/-
Intervals that never come up (`ParseSchedule` against `StreamScheduleProc` and `BackupScheProc`).

`ParseSchedule` checks the two times of an interval one by one. The threads that work with the table compare them with
the second of day, which runs from 0 to 86399: an interval that crosses midnight, or begins at 24:00:00 or later, covers
none of these seconds.

- `no_dead_interval_iff`: every interval of an accepted schedule covers some second iff none of those posted begins
  after its end or after the last second of the day.
- `night_is_dead`: 23:00:00-01:00:00 and 24:30:00-24:45:00 are accepted, and no second of any day starts anything.
-/
import StoreService.Stream.Threads

namespace StoreService.Stream

open StoreService.Json StoreService.Schedule

/-- the loop of `BackupScheProc`: is `BackupClientStart` called? -/
def backupScheProc (daySche : List Interval) (secNow : ℕ) : Bool :=
  match daySche with
  | [] => false
  | v :: rest => if v.covers secNow then true else backupScheProc rest secNow

/-- a week with one interval on one day -/
def Week.alone (d : Weekday) (v : Interval) : Week where
  days := (List.replicate 7 []).set (tmWday d) [v]
  seven := by rw [List.length_set, List.length_replicate]

theorem Week.alone_day (d : Weekday) (v : Interval) : (Week.alone d v).day d = [v] := by
  cases d <;> rfl

/-- a stopped stream with this schedule is started, and a backup with it is too -/
structure StartsAt (w : Week) (now : Clock) : Prop where
  recording : ∀ id cb, (scheduleStream now ⟨id, cb, .stopped, w⟩).threadState = .running
  backup : backupScheProc (w.day now.day) now.sec = true

/-- at some second of its day the interval alone starts a recording and a backup -/
def Alive (d : Weekday) (v : Interval) : Prop := ∃ sec < 86400, StartsAt (Week.alone d v) ⟨d, sec⟩

/-- no interval of an accepted schedule is dead -/
def NoneDead (J : Codec) (json : Str) : Prop :=
  ∀ w, parseSchedule J json = some (.ok w) → ∀ d, ∀ v ∈ w.day d, Alive d v

/-- the schedule is rejected, or its intervals end where they begin or later and begin on their day -/
def Bounded (J : Codec) (json : Str) : Prop :=
  ∀ w obj, parseSchedule J json = some (.ok w) → J.parse json = some obj → ∀ d, ∀ p ∈ posted obj d,
    p.1 ≤ p.2 ∧ p.1 ≤ 86399

theorem backupScheProc_alone (v : Interval) (sec : ℕ) : backupScheProc [v] sec = v.covers sec := by
  simp [backupScheProc]

/-- an interval alone starts a recording, and a backup, exactly at the seconds that it covers -/
theorem startsAt_alone_iff (d : Weekday) (v : Interval) (sec : ℕ) :
    StartsAt (Week.alone d v) ⟨d, sec⟩ ↔ v.covers sec = true := by
  constructor
  · intro h
    have hbackup := h.backup
    rwa [Week.alone_day, backupScheProc_alone] at hbackup
  · intro h
    refine ⟨?_, ?_⟩
    · intro id cb
      have hcovered : ∃ u ∈ (Week.alone d v).day d, u.covers sec = true := by
        rw [Week.alone_day]
        exact ⟨v, List.mem_singleton.2 rfl, h⟩
      rw [scheduleStream_state _ (Or.inr rfl), if_pos hcovered]
    · rw [Week.alone_day, backupScheProc_alone]
      exact h

/-- the first second of an interval is the one to try -/
theorem alive_iff (d : Weekday) (v : Interval) : Alive d v ↔ v.span.1 ≤ v.span.2 ∧ v.span.1 ≤ 86399 := by
  unfold Alive
  simp only [startsAt_alone_iff, covers_iff_span]
  constructor
  · rintro ⟨sec, hsec, hlow, hhigh⟩
    exact ⟨hlow.trans hhigh, by omega⟩
  · rintro ⟨hle, hlast⟩
    have hfirst : v.span.1 = v.start.seconds := rfl
    exact ⟨v.start.seconds, by omega, hfirst.le, hfirst ▸ hle⟩

/-- **Accepted intervals.** None of them is dead exactly if those posted are bounded by their ends and by the day. -/
theorem no_dead_interval_iff (J : Codec) (json : Str) : NoneDead J json ↔ Bounded J json := by
  constructor
  · intro halive w obj hw hobj d p hp
    obtain ⟨obj', hobj', hposted⟩ := parseSchedule_posted hw
    obtain rfl := Option.some.inj (hobj.symm.trans hobj')
    rw [← hposted d] at hp
    obtain ⟨v, hv, rfl⟩ := List.mem_map.1 hp
    exact (alive_iff d v).1 (halive w hw d v hv)
  · intro hbounded w hw d v hv
    obtain ⟨obj, hobj, hposted⟩ := parseSchedule_posted hw
    have hspan : v.span ∈ posted obj d := by
      rw [← hposted d]
      exact List.mem_map_of_mem hv
    exact (alive_iff d v).2 (hbounded w obj hw hobj d v.span hspan)

/-- at night, and in the twenty-fifth hour -/
def nightDay : CJson :=
  .array [.str (.ofStr (bytes "23:00:00-01:00:00") (by decide)), .str (.ofStr (bytes "24:30:00-24:45:00") (by decide))]

def nightText : Str := bytes "[7 nights]"

/-- a parser that knows this text -/
def nightCodec : Codec where
  parse s := if s = nightText then some (.array (List.replicate 7 nightDay)) else none
  print _ := nightText
  parse_nil := if_neg (by decide)

/-- the intervals of these nights, as the table has them -/
def nightIntervals : List Interval := [⟨⟨23, 0, 0⟩, ⟨1, 0, 0⟩⟩, ⟨⟨24, 30, 0⟩, ⟨24, 45, 0⟩⟩]

/-- **A camera that never records**: the schedule is accepted, every day has both intervals, and neither is alive. -/
theorem night_is_dead : (∃ w, parseSchedule nightCodec nightText = some (.ok w) ∧ ∀ d, w.day d = nightIntervals) ∧
    (∀ d, ∀ v ∈ nightIntervals, ¬ Alive d v) ∧ ¬ NoneDead nightCodec nightText := by
  have hdead : ∀ d, ∀ v ∈ nightIntervals, ¬ Alive d v := by
    intro d v hv
    rw [alive_iff]
    revert v
    decide
  have hparse : (parseSchedule nightCodec nightText).map
      (fun r => r.toOption.map fun w => w.days) = some (some (List.replicate 7 nightIntervals)) := by decide +kernel
  obtain ⟨r, hr, htable⟩ := Option.map_eq_some_iff.1 hparse
  obtain ⟨w, hw, hdays⟩ := Option.map_eq_some_iff.1 htable
  have hok : r = .ok w := by
    cases r with
    | error e => cases hw
    | ok w' => exact congrArg _ (Option.some.inj hw)
  subst hok
  have hday : ∀ d, w.day d = nightIntervals := by
    intro d
    have hmem : w.day d ∈ w.days := List.get_mem _ _
    rw [hdays] at hmem
    exact List.eq_of_mem_replicate hmem
  refine ⟨⟨w, hr, hday⟩, hdead, ?_⟩
  intro hnone
  have hv : (⟨⟨23, 0, 0⟩, ⟨1, 0, 0⟩⟩ : Interval) ∈ w.day .monday := by
    rw [hday]
    exact List.mem_cons_self
  exact hdead .monday _ (hday .monday ▸ hv) (hnone w hr .monday _ hv)

end StoreService.Stream
