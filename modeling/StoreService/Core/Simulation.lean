/-
Two machines that answer the same calls.

A machine takes a call to a new state and an answer; `outputs` are its answers to a list of calls and `final` its state
after them. `Along Q` says that every call of the list meets `Q` in the state it is made in.

Rules, for a relation that both machines keep, whatever they answer: `final_sim` (their states are related after any
calls) and `outputs_eq_iff` (if a call is answered alike exactly when it meets `Q`, all calls are answered alike exactly
when all meet `Q`).
-/
import Mathlib.Tactic

namespace StoreService.Simulation

variable {S T A O : Type} {cstep : S → A → S × O} {astep : T → A → T × O} {R : S → T → Prop} {Q : S → A → Prop}

def outputs (step : S → A → S × O) : S → List A → List O
  | _, [] => []
  | s, a :: l => (step s a).2 :: outputs step (step s a).1 l

def final (step : S → A → S × O) (s : S) (l : List A) : S := l.foldl (fun s a => (step s a).1) s

/-- every call meets `Q` in the state it is made in -/
def Along (step : S → A → S × O) (Q : S → A → Prop) : S → List A → Prop
  | _, [] => True
  | s, a :: l => Q s a ∧ Along step Q (step s a).1 l

/-- **Simulation rule.** What one call keeps, a list of calls keeps. -/
theorem final_sim (hstep : ∀ s t a, R s t → R (cstep s a).1 (astep t a).1) {s : S} {t : T} (h : R s t) (l : List A) :
    R (final cstep s l) (final astep t l) := by
  induction l generalizing s t with
  | nil => exact h
  | cons a l ih => exact ih (hstep s t a h)

/-- **Answers rule.** Calls that are answered alike exactly when they meet `Q`. -/
theorem outputs_eq_iff (hstep : ∀ s t a, R s t → R (cstep s a).1 (astep t a).1)
    (hout : ∀ s t a, R s t → ((cstep s a).2 = (astep t a).2 ↔ Q s a)) {s : S} {t : T} (h : R s t) (l : List A) :
    outputs cstep s l = outputs astep t l ↔ Along cstep Q s l := by
  induction l generalizing s t with
  | nil => exact iff_of_true rfl trivial
  | cons a l ih =>
    rw [outputs, outputs, List.cons.injEq, hout s t a h, ih (hstep s t a h), Along]

end StoreService.Simulation
