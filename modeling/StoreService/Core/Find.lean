/-
Search for a text in another (strstr).

`strstr pat s` is the place of the first occurrence of `pat` in `s`, as libc finds it.

- `strstr_eq_none_iff`, `strstr_eq_some_iff`: nothing is found iff the text does not occur; a place is found iff it
  occurs there and at no place before.
- `strstr_append_of_not_starts`: a part in which no occurrence begins is skipped.
-/
import Mathlib.Tactic
import Mathlib.Data.List.Infix

namespace StoreService.Find

variable {α : Type} [DecidableEq α] {pat s : List α}

def strstr (pat : List α) : List α → Option ℕ
  | [] => if pat = [] then some 0 else none
  | c :: s => if pat <+: c :: s then some 0 else (strstr pat s).map (· + 1)

theorem strstr_of_isPrefix (h : pat <+: s) : strstr pat s = some 0 := by
  cases s with
  | nil => exact if_pos (List.prefix_nil.1 h)
  | cons c s => exact if_pos h

/-- a place at which it does not begin is skipped -/
theorem strstr_cons {c : α} (h : ¬ pat <+: c :: s) : strstr pat (c :: s) = (strstr pat s).map (· + 1) := if_neg h

/-- a part in which it does not begin is skipped -/
theorem strstr_append_of_not_starts {a b : List α} (h : ∀ u v, u ++ v = a → v ≠ [] → ¬ pat <+: v ++ b) :
    strstr pat (a ++ b) = (strstr pat b).map (· + a.length) := by
  induction a with
  | nil => simp
  | cons c a ih =>
    have hhere : ¬ pat <+: c :: (a ++ b) := h [] (c :: a) rfl (List.cons_ne_nil c a)
    have hrest := ih fun u v huv hv => h (c :: u) v (by rw [List.cons_append, huv]) hv
    rw [List.cons_append, strstr_cons hhere, hrest, Option.map_map, List.length_cons]
    rfl

/-- so is a part without its first element -/
theorem strstr_append_of_head {x : α} (hpat : pat.head? = some x) {a : List α} (ha : x ∉ a) (b : List α) :
    strstr pat (a ++ b) = (strstr pat b).map (· + a.length) := by
  apply strstr_append_of_not_starts
  rintro u v rfl hv ⟨t, ht⟩
  have hhead : (v ++ b).head? = some x := by rw [← ht, List.head?_append, hpat, Option.some_or]
  rw [List.head?_append_of_ne_nil _ hv] at hhead
  exact ha (List.mem_append_right _ (List.mem_of_mem_head? hhead))

/-- the place at which it begins is the first one if that is the start -/
theorem strstr_eq_some_iff_of_isPrefix {i : ℕ} (h : pat <+: s) : strstr pat s = some i ↔
    i ≤ s.length ∧ pat <+: s.drop i ∧ ∀ j < i, ¬ pat <+: s.drop j := by
  rw [strstr_of_isPrefix h]
  constructor
  · intro hi
    obtain rfl := Option.some.inj hi
    exact ⟨Nat.zero_le _, h, nofun⟩
  · rintro ⟨-, -, hfirst⟩
    cases i with
    | zero => rfl
    | succ i => exact absurd h (hfirst 0 (Nat.succ_pos i))

theorem strstr_eq_some_iff {i : ℕ} : strstr pat s = some i ↔
    i ≤ s.length ∧ pat <+: s.drop i ∧ ∀ j < i, ¬ pat <+: s.drop j := by
  induction s generalizing i with
  | nil =>
    by_cases hhere : pat <+: []
    · exact strstr_eq_some_iff_of_isPrefix hhere
    · rw [strstr, if_neg fun h => hhere (List.prefix_nil.2 h)]
      refine iff_of_false nofun ?_
      rintro ⟨-, hpre, -⟩
      rw [List.drop_nil] at hpre
      exact hhere hpre
  | cons c s ih =>
    by_cases hhere : pat <+: c :: s
    · exact strstr_eq_some_iff_of_isPrefix hhere
    · rw [strstr_cons hhere]
      constructor
      · intro h
        obtain ⟨j, hj, rfl⟩ := Option.map_eq_some_iff.1 h
        obtain ⟨hle, hpre, hfirst⟩ := ih.1 hj
        refine ⟨Nat.succ_le_succ hle, hpre, fun k hk => ?_⟩
        cases k with
        | zero => exact hhere
        | succ k => exact hfirst k (Nat.lt_of_succ_lt_succ hk)
      · rintro ⟨hle, hpre, hfirst⟩
        cases i with
        | zero => exact absurd hpre hhere
        | succ i =>
          rw [ih.2 ⟨Nat.le_of_succ_le_succ hle, hpre, fun k hk => hfirst (k + 1) (Nat.succ_lt_succ hk)⟩]
          rfl

theorem strstr_eq_none_iff : strstr pat s = none ↔ ¬ pat <:+: s := by
  induction s with
  | nil =>
    rw [strstr, List.infix_nil]
    split_ifs with h
    · exact iff_of_false nofun (not_not.2 h)
    · exact iff_of_true rfl h
  | cons c s ih =>
    rw [List.infix_cons_iff, not_or, strstr]
    split_ifs with h
    · exact iff_of_false nofun fun hnot => hnot.1 h
    · rw [Option.map_eq_none_iff, ih, and_iff_right h]

end StoreService.Find
