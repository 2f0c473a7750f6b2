/-
Computations that crash, refuse or return: code that takes a value apart, stops with an error where it finds a fault it
looks for, and goes wrong where it relies on something it has not looked at.

`none` is a crash and an error is a refusal. `check` is a test with an error for it, `need` the use of a value that may
not be there. `Responds` says that a computation does not crash; its rules take a computation apart step by step: after
a test the rest has to respond only where the test passes, and a use has to find its value.

`Ensures` adds what holds of a value that is returned. Its rules follow the computation: what the first part ensures is
what the second part can rely on (`Ensures.bind`).
-/
import Mathlib.Tactic

namespace StoreService.Check

abbrev Checked (ε α : Type) := ExceptT ε Option α

variable {ε α β : Type}

/-- the use of a value: without it, a crash -/
def need (o : Option α) : Checked ε α := o.map Except.ok

/-- a test with an error of its own -/
def check (o : Option α) (e : ε) : Checked ε α :=
  match o with
  | none => throw e
  | some a => pure a

/-- a use that finds its value goes on with it -/
@[simp] theorem need_some_bind (a : α) (f : α → Checked ε β) : need (some a) >>= f = f a := rfl

/-- so does a test that passes -/
@[simp] theorem check_some_bind (a : α) (e : ε) (f : α → Checked ε β) : check (some a) e >>= f = f a := rfl

/-- and one that fails ends there -/
@[simp] theorem check_none_bind (e : ε) (f : α → Checked ε β) : check none e >>= f = throw e := rfl

/-- the computation returns a value or an error -/
def Responds (x : Checked ε α) : Prop := x.run ≠ none

@[simp] theorem responds_pure (a : α) : Responds (pure a : Checked ε α) := Option.some_ne_none _

@[simp] theorem responds_throw (e : ε) : Responds (throw e : Checked ε α) := Option.some_ne_none _

/-- a computation in two parts returns only where both do -/
theorem ok_of_bind {x : Checked ε α} {f : α → Checked ε β} {b : β} (h : (x >>= f).run = some (.ok b)) :
    ∃ a, x.run = some (.ok a) ∧ (f a).run = some (.ok b) := by
  have hrun : (x >>= f).run = x.run >>= ExceptT.bindCont f := rfl
  cases hx : x.run with
  | none =>
    rw [hrun, hx] at h
    cases h
  | some r =>
    rw [hrun, hx] at h
    cases r with
    | error e => cases Option.some.inj h
    | ok a => exact ⟨a, rfl, h⟩

theorem ok_of_toOption {x : Option (Except ε α)} {a : α} (h : x.bind Except.toOption = some a) : x = some (.ok a) := by
  obtain ⟨r, hr, hok⟩ := Option.bind_eq_some_iff.1 h
  cases r with
  | error e => cases hok
  | ok b => rw [hr, Option.some.inj hok]

theorem ok_of_need {o : Option α} {a : α} (h : (need o : Checked ε α).run = some (.ok a)) : o = some a := by
  cases o with
  | none => cases h
  | some b => rw [Except.ok.inj (Option.some.inj h)]

theorem ok_of_check {o : Option α} {e : ε} {a : α} (h : (check o e).run = some (.ok a)) : o = some a := by
  cases o with
  | none => cases Option.some.inj h
  | some b => rw [Except.ok.inj (Option.some.inj h)]

/-! ## Postconditions -/

/-- the computation does not crash, and a value that it returns is as stated -/
def Ensures (x : Checked ε α) (Q : α → Prop) : Prop :=
  Responds x ∧ ∀ a, x.run = some (.ok a) → Q a

variable {P Q : α → Prop} {x : Checked ε α}

theorem ensures_pure {a : α} (h : Q a) : Ensures (pure a : Checked ε α) Q := by
  refine ⟨responds_pure a, ?_⟩
  intro b hb
  obtain rfl : a = b := Except.ok.inj (Option.some.inj hb)
  exact h

theorem ensures_throw (e : ε) : Ensures (throw e : Checked ε α) Q := by
  refine ⟨responds_throw e, ?_⟩
  intro a ha
  cases Option.some.inj ha

theorem ensures_need {o : Option α} {a : α} (ho : o = some a) (h : Q a) : Ensures (need o : Checked ε α) Q := by
  subst ho
  exact ensures_pure h

/-- what is returned is what the computation returns -/
theorem Ensures.returned (h : Ensures x P) : Ensures x fun a => P a ∧ x.run = some (.ok a) :=
  ⟨h.1, fun a ha => ⟨h.2 a ha, ha⟩⟩

theorem Ensures.bind {f : α → Checked ε β} {R : β → Prop} (h : Ensures x P) (hf : ∀ a, P a → Ensures (f a) R) :
    Ensures (x >>= f) R := by
  obtain ⟨hresp, hpost⟩ := h
  have hrun : (x >>= f).run = x.run >>= ExceptT.bindCont f := rfl
  cases hx : x.run with
  | none => exact absurd hx hresp
  | some r =>
    rw [hx] at hrun
    cases r with
    | error e =>
      refine ⟨fun hn => ?_, fun b hb => ?_⟩
      · rw [hrun] at hn
        cases hn
      · rw [hrun] at hb
        cases Option.some.inj hb
    | ok a =>
      have heq : x >>= f = f a := hrun
      rw [heq]
      exact hf a (hpost a hx)

theorem ensures_ite {p : Prop} [Decidable p] {y : Checked ε α} (hx : p → Ensures x Q) (hy : ¬ p → Ensures y Q) :
    Ensures (if p then x else y) Q := by
  split_ifs with h
  · exact hx h
  · exact hy h

end StoreService.Check
