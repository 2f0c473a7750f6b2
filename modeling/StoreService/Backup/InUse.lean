/-
A backup schedule in use (`backup.cpp`): the flag `is_in_use` of an entry of `bakScheduleList`.

`BackupScheProc` finds the entry, sets the flag, works with the schedule and clears the flag. `RemoveBakSchedule` finds
the entry, polls the flag until it reads 0, and erases. `UpdateBakSchedule` finds the entry, sets the flag, replaces the
schedule and clears the flag; it waits for nothing. One access to the map or to the flag is one step; any number of
threads of each kind take their steps in any order.

- `in_use_kept`: a schedule that is being used is neither erased nor replaced in any run that meets `NoOverlap`: a
  `BackupScheProc` finds the entry only when no update is inside and no removal has read 0; while a removal is about it
  does not clear the flag of another one; a removal does not begin behind a flag that was cleared so, and does not read
  it between the find and the first write of a `BackupScheProc`; and an update finds the entry only when no
  `BackupScheProc` is inside. Any number of them may be inside otherwise.
- `taken_away`: two users, the first of which clears the flag; the removal erases the entry under the second. An update
  replaces the schedule under a single user.

A step on an erased entry is `none`: it uses a freed node. The entry is not added again.
-/
import StoreService.Common.Schedule
import StoreService.Core.Runs

namespace StoreService.Backup

open StoreService.Schedule StoreService.Runs

/-! ## The threads -/

/-- `BackupScheProc` -/
inductive UserAt where
  | begin
  /-- behind the find, before `is_in_use = 1` -/
  | found
  /-- between its two writes of the flag -/
  | busy
  | ended
deriving DecidableEq, Repr

/-- `RemoveBakSchedule` -/
inductive RemoverAt where
  | begin
  /-- in the loop that waits for the flag -/
  | waiting
  /-- it has read 0 -/
  | clear
  | ended
deriving DecidableEq, Repr

/-- `UpdateBakSchedule` -/
inductive UpdaterAt where
  | begin
  | found
  /-- behind `is_in_use = 1` -/
  | marked
  /-- behind the assignment of the schedule -/
  | written
  | ended
deriving DecidableEq, Repr

/-- the entry of one device and the threads that work on it -/
structure Sharing where
  /-- `bakSchedule` of the entry, `none` once it is erased -/
  entry : Option Week
  isInUse : Bool
  users : ℕ → UserAt
  removers : ℕ → RemoverAt
  updaters : ℕ → UpdaterAt

inductive Access where
  | userFind (i : ℕ)
  | userMark (i : ℕ)
  /-- the loop over the day's intervals, and the backup -/
  | userRead (i : ℕ)
  | userClear (i : ℕ)
  | removerFind (j : ℕ)
  | removerTest (j : ℕ)
  | removerErase (j : ℕ)
  | updaterFind (k : ℕ)
  | updaterMark (k : ℕ)
  | updaterWrite (k : ℕ) (schedule : Week)
  | updaterClear (k : ℕ)

namespace Sharing

def setUser (s : Sharing) (i : ℕ) (p : UserAt) : Sharing := { s with users := Function.update s.users i p }

def setRemover (s : Sharing) (j : ℕ) (p : RemoverAt) : Sharing := { s with removers := Function.update s.removers j p }

def setUpdater (s : Sharing) (k : ℕ) (p : UpdaterAt) : Sharing := { s with updaters := Function.update s.updaters k p }

def step (s : Sharing) : Access → Option Sharing
  | .userFind i =>
    if s.users i = .begin then some (s.setUser i (if s.entry.isSome then .found else .ended)) else none
  | .userMark i =>
    if s.users i = .found ∧ s.entry.isSome then some { s.setUser i .busy with isInUse := true } else none
  | .userRead i => if s.users i = .busy ∧ s.entry.isSome then some s else none
  | .userClear i =>
    if s.users i = .busy ∧ s.entry.isSome then some { s.setUser i .ended with isInUse := false } else none
  | .removerFind j =>
    if s.removers j = .begin then some (s.setRemover j (if s.entry.isSome then .waiting else .ended)) else none
  | .removerTest j =>
    if s.removers j = .waiting ∧ s.entry.isSome then some (if s.isInUse then s else s.setRemover j .clear) else none
  | .removerErase j =>
    if s.removers j = .clear ∧ s.entry.isSome then some { s.setRemover j .ended with entry := none } else none
  | .updaterFind k =>
    if s.updaters k = .begin then some (s.setUpdater k (if s.entry.isSome then .found else .ended)) else none
  | .updaterMark k =>
    if s.updaters k = .found ∧ s.entry.isSome then some { s.setUpdater k .marked with isInUse := true } else none
  | .updaterWrite k w =>
    if s.updaters k = .marked ∧ s.entry.isSome then some { s.setUpdater k .written with entry := some w } else none
  | .updaterClear k =>
    if s.updaters k = .written ∧ s.entry.isSome then some { s.setUpdater k .ended with isInUse := false } else none

/-- an entry with a schedule, and nobody at work -/
def start (w : Week) : Sharing := ⟨some w, false, fun _ => .begin, fun _ => .begin, fun _ => .begin⟩

/-! ## What is to hold, and when it does -/

/-- a user is between its find and its last write of the flag -/
def Inside (s : Sharing) (i : ℕ) : Prop := s.users i = .found ∨ s.users i = .busy

/-- a removal has found the entry and is not done -/
def Removing (s : Sharing) (j : ℕ) : Prop := s.removers j = .waiting ∨ s.removers j = .clear

/-- an update is between its find and its last write of the flag -/
def Updating (s : Sharing) (k : ℕ) : Prop := s.updaters k ≠ .begin ∧ s.updaters k ≠ .ended

end Sharing

/-- the accesses that erase the entry or replace its schedule -/
def Access.TakesAway : Access → Prop
  | .removerErase _ | .updaterWrite _ _ => True
  | _ => False

/-- **A schedule in use is not taken away** by this access -/
def Spares (s : Sharing) (a : Access) : Prop := a.TakesAway → (s.step a).isSome → ∀ i, ¬ s.Inside i

/-- when users, removals and updates do not get into each other's way -/
def NoOverlap (s : Sharing) : Access → Prop
  | .userFind _ => (∀ j, s.removers j ≠ .clear) ∧ ∀ k, ¬ s.Updating k
  | .userClear i => (∀ i', s.Inside i' → i' = i) ∨ ∀ j, ¬ s.Removing j
  | .removerFind _ => ∀ i, s.users i = .busy → s.isInUse = true
  | .removerTest _ => ∀ i, s.users i ≠ .found
  | .updaterFind _ => ∀ i, ¬ s.Inside i
  | _ => True

/-! ## The invariant -/

/-- while a removal is about, the flag of whoever works with the entry is set; while a user is inside nobody is about to
take the entry away -/
structure SharingInv (s : Sharing) : Prop where
  flag : ∀ j, s.Removing j → ∀ i, s.users i = .busy → s.isInUse = true
  remover : ∀ i j, s.Inside i → s.removers j ≠ .clear
  updater : ∀ i k, s.Inside i → ¬ s.Updating k
  present : ∀ i, s.Inside i → s.entry.isSome

namespace SharingInv

variable {s : Sharing} {i j k : ℕ}

open Sharing

/-- nothing is asked of a state without users -/
theorem nobody (h : ∀ i, ¬ s.Inside i) : SharingInv s :=
  ⟨fun _ _ i hi => absurd (Or.inr hi) (h i), fun i _ hi => absurd hi (h i), fun i _ hi => absurd hi (h i),
    fun i hi => absurd hi (h i)⟩

theorem start (w : Week) : SharingInv (start w) := nobody fun i => by rintro (h | h) <;> cases h

theorem inside_setUser {p : UserAt} {i' : ℕ} :
    (s.setUser i p).Inside i' ↔ if i' = i then p = .found ∨ p = .busy else s.Inside i' := by
  unfold Inside setUser
  by_cases h : i' = i
  · subst h
    simp
  · simp [h]

/-- a user that ends is not inside -/
theorem inside_ended {i' : ℕ} (h : (s.setUser i .ended).Inside i') : i' ≠ i ∧ s.Inside i' := by
  rw [inside_setUser] at h
  split_ifs at h with hi
  · rcases h with h | h <;> cases h
  · exact ⟨hi, h⟩

/-- a user comes in -/
theorem enter (h : SharingInv s) (hremove : ∀ j, s.removers j ≠ .clear) (hupdate : ∀ k, ¬ s.Updating k)
    (hentry : s.entry.isSome) : SharingInv (s.setUser i .found) := by
  refine ⟨fun j hj i' hi' => h.flag j hj i' ?_, fun _ j _ => hremove j, fun _ k _ => hupdate k, fun _ _ => hentry⟩
  by_cases hne : i' = i
  · subst hne
    simp [setUser] at hi'
  · simpa [setUser, hne] using hi'

/-- a user goes, and leaves the flag set or leaves no other one to a removal -/
theorem leave {flag : Bool} (h : SharingInv s)
    (hflag : ∀ j, s.Removing j → ∀ i', i' ≠ i → s.users i' = .busy → flag = true) :
    SharingInv { s.setUser i .ended with isInUse := flag } := by
  refine ⟨fun j hj i' hi' => ?_, fun i' j hi' => h.remover i' j (inside_ended hi').2,
    fun i' k hi' => h.updater i' k (inside_ended hi').2, fun i' hi' => h.present i' (inside_ended hi').2⟩
  have hne : i' ≠ i := (inside_ended (Or.inr hi')).1
  exact hflag j hj i' hne (by simpa [setUser, hne] using hi')

/-- a user that is inside sets the flag -/
theorem mark (h : SharingInv s) (hi : s.users i = .found) :
    SharingInv { s.setUser i .busy with isInUse := true } := by
  have hsame : ∀ i', (s.setUser i .busy).Inside i' → s.Inside i' := by
    intro i' hi'
    by_cases hne : i' = i
    · subst hne
      exact Or.inl hi
    · rwa [inside_setUser, if_neg hne] at hi'
  exact ⟨fun _ _ _ _ => rfl, fun i' j hi' => h.remover i' j (hsame i' hi'),
    fun i' k hi' => h.updater i' k (hsame i' hi'), fun i' hi' => h.present i' (hsame i' hi')⟩

/-- a removal that has not read the flag is no danger, if the flag stands for the users -/
theorem setRemover (h : SharingInv s) (hflag : ∀ i, s.users i = .busy → s.isInUse = true) {p : RemoverAt}
    (hp : p ≠ .clear) : SharingInv (s.setRemover j p) := by
  refine ⟨fun _ _ => hflag, fun i j' hi => ?_, h.updater, h.present⟩
  show Function.update s.removers j p j' ≠ .clear
  by_cases hj : j' = j
  · subst hj
    rwa [Function.update_self]
  · rw [Function.update_of_ne hj]
    exact h.remover i j' hi

/-- nobody is inside while an update is -/
theorem not_inside_of_updating (h : SharingInv s) (hk : s.Updating k) (i : ℕ) : ¬ s.Inside i :=
  fun hi => h.updater i k hi hk

theorem updating {p : UpdaterAt} (hk : s.updaters k = p) (h1 : p ≠ .begin) (h2 : p ≠ .ended) : s.Updating k := by
  rw [Updating, hk]
  exact ⟨h1, h2⟩

/-- what an update does between its find and its last write, nobody inside sees -/
theorem of_updating {p : UpdaterAt} {t : Sharing} (h : SharingInv s) (hk : s.updaters k = p) (h1 : p ≠ .begin)
    (h2 : p ≠ .ended) (hu : t.users = s.users) : SharingInv t := by
  refine nobody fun i hi => h.not_inside_of_updating (updating hk h1 h2) i ?_
  rwa [Inside, hu] at hi

/-- a removal that reads 0 finds nobody inside -/
theorem not_inside_of_flag (h : SharingInv s) (hj : s.removers j = .waiting) (hflag : s.isInUse = false)
    (hfound : ∀ i, s.users i ≠ .found) (i : ℕ) : ¬ s.Inside i := by
  rintro (hi | hi)
  · exact hfound i hi
  · rw [h.flag j (Or.inl hj) i hi] at hflag
    cases hflag

theorem step {t : Sharing} {a : Access} (h : SharingInv s) (ha : NoOverlap s a) (ht : s.step a = some t) :
    SharingInv t := by
  cases a with
  | userFind i =>
    obtain ⟨-, ht⟩ := Option.ite_none_right_eq_some.1 ht
    rw [← Option.some.inj ht]
    split_ifs with hentry
    · exact h.enter ha.1 ha.2 hentry
    · exact h.leave fun j hj i' _ hi' => h.flag j hj i' hi'
  | userMark i =>
    obtain ⟨⟨hi, -⟩, ht⟩ := Option.ite_none_right_eq_some.1 ht
    exact Option.some.inj ht ▸ h.mark hi
  | userRead i =>
    obtain ⟨-, ht⟩ := Option.ite_none_right_eq_some.1 ht
    exact Option.some.inj ht ▸ h
  | userClear i =>
    obtain ⟨-, ht⟩ := Option.ite_none_right_eq_some.1 ht
    rw [← Option.some.inj ht]
    refine h.leave fun j hj i' hne hi' => ?_
    rcases ha with halone | hnone
    · exact absurd (halone i' (Or.inr hi')) hne
    · exact absurd hj (hnone j)
  | removerFind j =>
    obtain ⟨-, ht⟩ := Option.ite_none_right_eq_some.1 ht
    rw [← Option.some.inj ht]
    split_ifs
    · exact h.setRemover ha (by decide)
    · exact h.setRemover ha (by decide)
  | removerTest j =>
    obtain ⟨⟨hj, -⟩, ht⟩ := Option.ite_none_right_eq_some.1 ht
    rw [← Option.some.inj ht]
    split_ifs with hflag
    · exact h
    · exact nobody (h.not_inside_of_flag hj (Bool.eq_false_iff.2 hflag) ha)
  | removerErase j =>
    obtain ⟨⟨hj, -⟩, ht⟩ := Option.ite_none_right_eq_some.1 ht
    rw [← Option.some.inj ht]
    exact nobody fun i hi => h.remover i j hi hj
  | updaterFind k =>
    obtain ⟨-, ht⟩ := Option.ite_none_right_eq_some.1 ht
    rw [← Option.some.inj ht]
    exact nobody ha
  | updaterMark k =>
    obtain ⟨⟨hk, -⟩, ht⟩ := Option.ite_none_right_eq_some.1 ht
    exact Option.some.inj ht ▸ h.of_updating hk (by decide) (by decide) rfl
  | updaterWrite k w =>
    obtain ⟨⟨hk, -⟩, ht⟩ := Option.ite_none_right_eq_some.1 ht
    exact Option.some.inj ht ▸ h.of_updating hk (by decide) (by decide) rfl
  | updaterClear k =>
    obtain ⟨⟨hk, -⟩, ht⟩ := Option.ite_none_right_eq_some.1 ht
    exact Option.some.inj ht ▸ h.of_updating hk (by decide) (by decide) rfl

theorem spares {a : Access} (h : SharingInv s) : Spares s a := by
  intro htakes hsome i hi
  obtain ⟨t, ht⟩ := Option.isSome_iff_exists.1 hsome
  cases a with
  | removerErase j => exact h.remover i j hi (Option.ite_none_right_eq_some.1 ht).1.1
  | updaterWrite k w =>
    exact h.not_inside_of_updating (updating (Option.ite_none_right_eq_some.1 ht).1.1 (by decide) (by decide)) i hi
  | _ => exact htakes

end SharingInv

/-- **A schedule in use is not taken away**: in every run whose accesses meet `NoOverlap`, no access erases the entry or
replaces its schedule while a user is inside, and a user that is inside always finds the entry there. -/
theorem in_use_kept (w : Week) (accesses : List Access)
    (h : Steps Sharing.step NoOverlap (Sharing.start w) accesses) :
    Steps Sharing.step Spares (Sharing.start w) accesses ∧
      ∀ s, run Sharing.step (Sharing.start w) accesses = some s → ∀ i, s.Inside i → s.entry.isSome :=
  ⟨steps_guarantee (fun _ _ hs _ => hs.spares) (fun _ _ _ hs ha ht => hs.step ha ht) (SharingInv.start w) h,
    fun _ hr => (run_inv (fun _ _ _ hs ha ht => SharingInv.step hs ha ht) (SharingInv.start w) h hr).present⟩

/-- record day and night -/
def anyWeek : Week := ⟨List.replicate 7 [⟨⟨0, 0, 0⟩, ⟨23, 59, 59⟩⟩], rfl⟩

/-- two users overlap, and the first clears the flag before a removal begins; the removal finds a third user at work,
waits and erases -/
def waitAccesses : List Access :=
  [.userFind 0, .userMark 0, .userFind 1, .userMark 1, .userClear 0, .userClear 1, .userFind 2, .userMark 2,
    .removerFind 0, .removerTest 0, .userRead 2, .userClear 2, .removerTest 0, .removerErase 0]

theorem in_use_kept_wait :
    ∃ s, run Sharing.step (Sharing.start anyWeek) waitAccesses = some s ∧ s.entry.isNone = true ∧
      Steps Sharing.step Spares (Sharing.start anyWeek) waitAccesses := by
  have hok : Steps Sharing.step NoOverlap (Sharing.start anyWeek) waitAccesses := by
    simp only [waitAccesses, Steps, Sharing.step, NoOverlap, Sharing.start, Sharing.setUser, Sharing.setRemover,
      Sharing.Inside, Sharing.Updating, Sharing.Removing]
    simp [Function.update_apply]
    refine ⟨fun i => ?_, Or.inl fun i => ?_, fun i => ?_⟩
    · split_ifs <;> decide
    · split_ifs with h2 <;> simp [h2]
    · split_ifs <;> decide
  have heval : (run Sharing.step (Sharing.start anyWeek) waitAccesses).map (·.entry.isNone) = some true := by
    decide +kernel
  obtain ⟨s, hs, hnone⟩ := Option.map_eq_some_iff.1 heval
  exact ⟨s, hs, hnone, (in_use_kept anyWeek waitAccesses hok).1⟩

/-- **A schedule is taken away.** Two users: the first clears the flag, and the entry is erased under the second, whose
next access uses a freed node. One user: an update replaces the schedule under it. -/
theorem taken_away :
    (∃ s t, run Sharing.step (Sharing.start anyWeek) [.userFind 0, .userMark 0, .userFind 1, .userMark 1, .userClear 0,
        .removerFind 0, .removerTest 0] = some s ∧ s.users 1 = .busy ∧ s.step (.removerErase 0) = some t ∧
      t.step (.userRead 1) = none ∧ ¬ Spares s (.removerErase 0)) ∧
    ∃ s, run Sharing.step (Sharing.start anyWeek) [.userFind 0, .userMark 0, .updaterFind 0, .updaterMark 0] = some s ∧
      s.users 0 = .busy ∧ (s.step (.updaterWrite 0 anyWeek)).isSome = true ∧
      ¬ Spares s (.updaterWrite 0 anyWeek) := by
  have herase : (run Sharing.step (Sharing.start anyWeek) [.userFind 0, .userMark 0, .userFind 1, .userMark 1,
      .userClear 0, .removerFind 0, .removerTest 0]).bind (fun s => (s.step (.removerErase 0)).map fun t : Sharing =>
        (s.users 1, (t.step (.userRead 1)).isNone)) = some (.busy, true) := by
    decide +kernel
  have hupdate : (run Sharing.step (Sharing.start anyWeek) [.userFind 0, .userMark 0, .updaterFind 0,
      .updaterMark 0]).map (fun s => (s.users 0, (s.step (.updaterWrite 0 anyWeek)).isSome)) = some (.busy, true) := by
    decide +kernel
  constructor
  · obtain ⟨s, hs, hproj⟩ := Option.bind_eq_some_iff.1 herase
    obtain ⟨t, ht, hproj⟩ := Option.map_eq_some_iff.1 hproj
    rw [Prod.mk.injEq] at hproj
    refine ⟨s, t, hs, hproj.1, ht, Option.isNone_iff_eq_none.1 hproj.2, fun h => ?_⟩
    exact h trivial (by rw [ht]; rfl) 1 (Or.inr hproj.1)
  · obtain ⟨s, hs, hproj⟩ := Option.map_eq_some_iff.1 hupdate
    rw [Prod.mk.injEq] at hproj
    exact ⟨s, hs, hproj.1, hproj.2, fun h => h trivial hproj.2 0 (Or.inr hproj.1)⟩

end StoreService.Backup
