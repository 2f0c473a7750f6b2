/-
Words: the longest parts of a text without separators.

A stretch is a longest run of numbers on which a predicate holds. The words of a text are its parts at the stretches of
places without a separator, from left to right (`AreWords`); no two lists are the words of one text
(`AreWords.unique`).

Rules: `words_nil`, `words_single` (a text without separators), `words_cons` (a word, possibly empty, and the separator
behind it), `words_append_seps` (separators at the end change nothing).
-/
import Mathlib.Tactic

namespace StoreService.Words

/-! ## Stretches -/

/-- the numbers from `i` to below `j` are a longest run on which `p` holds -/
structure Stretch (p : ℕ → Prop) (i j : ℕ) : Prop where
  nonempty : i < j
  inside : ∀ k, i ≤ k → k < j → p k
  first : ∀ k, k + 1 = i → ¬ p k
  last : ¬ p j

/-- `p` holds below `n`, fails at `n` and goes on like `q` behind it -/
theorem stretch_iff {p q : ℕ → Prop} {n i j : ℕ} (hlow : ∀ k < n, p k) (hn : ¬ p n)
    (hhigh : ∀ k, p (n + 1 + k) ↔ q k) : Stretch p i j ↔
      (0 < n ∧ i = 0 ∧ j = n) ∨ ∃ i' j', i = n + 1 + i' ∧ j = n + 1 + j' ∧ Stretch q i' j' := by
  constructor
  · intro h
    have hij := h.nonempty
    by_cases hi : i < n
    · left
      have hj : ¬ n < j := fun hlt => hn (h.inside n hi.le hlt)
      have hj' : ¬ j < n := fun hlt => h.last (hlow j hlt)
      have hi0 : i = 0 := by
        by_contra hne
        obtain ⟨k, rfl⟩ := Nat.exists_eq_succ_of_ne_zero hne
        exact h.first k rfl (hlow k (by omega))
      exact ⟨by omega, hi0, by omega⟩
    · right
      have hne : i ≠ n := by
        rintro rfl
        exact hn (h.inside i le_rfl hij)
      obtain ⟨i', rfl⟩ : ∃ i', i = n + 1 + i' := Nat.exists_eq_add_of_le (by omega)
      obtain ⟨j', rfl⟩ : ∃ j', j = n + 1 + j' := Nat.exists_eq_add_of_le (by omega)
      refine ⟨i', j', rfl, rfl, by omega, fun k hk hk' => ?_, fun k hk => ?_, ?_⟩
      · exact (hhigh k).1 (h.inside _ (by omega) (by omega))
      · exact fun hq => h.first (n + 1 + k) (by omega) ((hhigh k).2 hq)
      · exact fun hq => h.last ((hhigh j').2 hq)
  · rintro (⟨hpos, rfl, rfl⟩ | ⟨i', j', rfl, rfl, h⟩)
    · exact ⟨hpos, fun k _ hk => hlow k hk, nofun, hn⟩
    · refine ⟨by have := h.nonempty; omega, fun k hk hk' => ?_, fun k hk => ?_, fun hp => h.last ((hhigh j').1 hp)⟩
      · obtain ⟨k', rfl⟩ : ∃ k', k = n + 1 + k' := Nat.exists_eq_add_of_le (by omega)
        exact (hhigh k').2 (h.inside k' (by omega) (by omega))
      · rcases Nat.eq_zero_or_pos i' with rfl | hpos
        · obtain rfl : k = n := by omega
          exact hn
        · obtain ⟨k', rfl⟩ : ∃ k', k = n + 1 + k' := Nat.exists_eq_add_of_le (by omega)
          exact fun hp => h.first k' (by omega) ((hhigh k').1 hp)

/-! ## The words of a text -/

variable {α : Type} {sep : α → Prop} {s t w : List α} {c : α} {ws ws' : List (List α)}

/-- at this place of the text stands an element that is no separator -/
def InWord (sep : α → Prop) (s : List α) (k : ℕ) : Prop := ∃ c, s[k]? = some c ∧ ¬ sep c

/-- the part of the text from place `i` to below place `j` -/
def part (s : List α) (i j : ℕ) : List α := (s.drop i).take (j - i)

/-- exactly the words of a text, from left to right -/
def AreWords (sep : α → Prop) (s : List α) (ws : List (List α)) : Prop :=
  ∃ spans : List (ℕ × ℕ), spans.Pairwise (fun a b => a.1 < b.1) ∧
    (∀ i j, (i, j) ∈ spans ↔ Stretch (InWord sep s) i j) ∧ ws = spans.map fun p => part s p.1 p.2

/-- **A text has one list of words.** -/
theorem AreWords.unique (h : AreWords sep s ws) (h' : AreWords sep s ws') : ws = ws' := by
  obtain ⟨spans, hsort, hmem, rfl⟩ := h
  obtain ⟨spans', hsort', hmem', rfl⟩ := h'
  have hnodup (l : List (ℕ × ℕ)) (hl : l.Pairwise fun a b => a.1 < b.1) : l.Nodup :=
    hl.imp fun hlt heq => absurd (congrArg Prod.fst heq) (ne_of_lt hlt)
  have hperm : spans.Perm spans' :=
    (List.perm_ext_iff_of_nodup (hnodup _ hsort) (hnodup _ hsort')).2 fun p =>
      (hmem p.1 p.2).trans (hmem' p.1 p.2).symm
  rw [List.Perm.eq_of_pairwise (fun a b _ _ hlt hgt => absurd hgt (lt_asymm hlt)) hsort hsort' hperm]

theorem words_nil (sep : α → Prop) : AreWords sep [] [] := by
  refine ⟨[], .nil, fun i j => ⟨nofun, fun h => ?_⟩, rfl⟩
  obtain ⟨c, hc, -⟩ := h.inside i le_rfl h.nonempty
  cases hc

section

variable (hw : ∀ c ∈ w, ¬ sep c)
include hw

theorem inWord_of_lt {k : ℕ} (hk : k < w.length) (s : List α) : InWord sep (w ++ s) k :=
  ⟨w[k], by rw [List.getElem?_append_left hk, List.getElem?_eq_getElem hk], hw _ (List.getElem_mem hk)⟩

/-- a text without separators is one word -/
theorem words_single (hne : w ≠ []) : AreWords sep w [w] := by
  have hpos := List.length_pos_iff.2 hne
  have hin (k : ℕ) : InWord sep w k ↔ k < w.length := by
    constructor
    · rintro ⟨c, hc, -⟩
      exact (List.getElem?_eq_some_iff.1 hc).1
    · intro hk
      simpa using inWord_of_lt hw hk []
  refine ⟨[(0, w.length)], List.pairwise_singleton _ _, fun i j => ?_, by simp [part]⟩
  have hstretch := stretch_iff (i := i) (j := j) (q := fun _ => False) (fun k hk => (hin k).2 hk)
    (fun hp => lt_irrefl _ ((hin _).1 hp)) fun k => iff_of_false (fun hp => by have := (hin _).1 hp; omega) id
  rw [hstretch, List.mem_singleton, Prod.mk.injEq]
  constructor
  · exact fun h => Or.inl ⟨hpos, h⟩
  · rintro (⟨-, h⟩ | ⟨i', j', -, -, h⟩)
    · exact h
    · exact (h.inside i' le_rfl h.nonempty).elim

/-- **A word and the separator behind it.** -/
theorem words_cons (hc : sep c) (h : AreWords sep s ws) :
    AreWords sep (w ++ c :: s) (if w = [] then ws else w :: ws) := by
  obtain ⟨spans, hsort, hmem, rfl⟩ := h
  have hat : ¬ InWord sep (w ++ c :: s) w.length := by
    rintro ⟨d, hd, hsep⟩
    rw [List.getElem?_append_right le_rfl, Nat.sub_self, List.getElem?_cons_zero, Option.some.injEq] at hd
    exact hsep (hd ▸ hc)
  have hbehind (k : ℕ) : InWord sep (w ++ c :: s) (w.length + 1 + k) ↔ InWord sep s k := by
    rw [InWord, InWord, List.getElem?_append_right (by omega),
      show w.length + 1 + k - w.length = k + 1 by omega, List.getElem?_cons_succ]
  have hpart (p : ℕ × ℕ) : part (w ++ c :: s) (w.length + 1 + p.1) (w.length + 1 + p.2) = part s p.1 p.2 := by
    rw [part, part, Nat.add_sub_add_left, ← List.drop_drop, List.append_cons, List.drop_left' (by simp)]
  have hshift : (spans.map fun p => (w.length + 1 + p.1, w.length + 1 + p.2)).Pairwise fun a b => a.1 < b.1 :=
    List.pairwise_map.2 (hsort.imp fun hlt => Nat.add_lt_add_left hlt _)
  have hstretch (i j : ℕ) := stretch_iff (i := i) (j := j) (fun k hk => inWord_of_lt hw hk (c :: s)) hat hbehind
  have hrest (i j : ℕ) : (i, j) ∈ spans.map (fun p => (w.length + 1 + p.1, w.length + 1 + p.2)) ↔
      ∃ i' j', i = w.length + 1 + i' ∧ j = w.length + 1 + j' ∧ Stretch (InWord sep s) i' j' := by
    simp only [List.mem_map, Prod.exists, Prod.mk.injEq, ← hmem]
    constructor
    · rintro ⟨i', j', hin, rfl, rfl⟩
      exact ⟨i', j', rfl, rfl, hin⟩
    · rintro ⟨i', j', rfl, rfl, hin⟩
      exact ⟨i', j', hin, rfl, rfl⟩
  have hparts : spans.map (fun p => part s p.1 p.2) =
      (spans.map fun p => (w.length + 1 + p.1, w.length + 1 + p.2)).map
        fun p => part (w ++ c :: s) p.1 p.2 := by
    rw [List.map_map]
    exact List.map_congr_left fun p _ => (hpart p).symm
  rw [hparts]
  by_cases hne : w = []
  · rw [if_pos hne]
    refine ⟨_, hshift, fun i j => ?_, rfl⟩
    rw [hstretch, hrest, or_iff_right fun h => absurd h.1 (by simp [hne])]
  · rw [if_neg hne]
    refine ⟨(0, w.length) :: _, List.pairwise_cons.2 ⟨fun p hp => ?_, hshift⟩, fun i j => ?_, ?_⟩
    · obtain ⟨q, -, rfl⟩ := List.mem_map.1 hp
      exact Nat.lt_of_lt_of_le (Nat.succ_pos _) (Nat.le_add_right _ _)
    · rw [List.mem_cons, Prod.mk.injEq, hstretch, hrest, and_iff_right (List.length_pos_iff.2 hne)]
    · rw [List.map_cons, part, List.drop_zero, Nat.sub_zero, List.take_left]

end

/-- separators at the end -/
theorem words_append_seps (ht : ∀ c ∈ t, sep c) (h : AreWords sep s ws) : AreWords sep (s ++ t) ws := by
  obtain ⟨spans, hsort, hmem, rfl⟩ := h
  have hin (k : ℕ) : InWord sep (s ++ t) k ↔ InWord sep s k := by
    rcases Nat.lt_or_ge k s.length with hk | hk
    · rw [InWord, InWord, List.getElem?_append_left hk]
    · refine iff_of_false ?_ ?_
      · rintro ⟨c, hc, hsep⟩
        rw [List.getElem?_append_right hk] at hc
        exact hsep (ht c (List.mem_of_getElem? hc))
      · rintro ⟨c, hc, -⟩
        rw [List.getElem?_eq_none hk] at hc
        cases hc
  have hsame : InWord sep (s ++ t) = InWord sep s := funext fun k => propext (hin k)
  refine ⟨spans, hsort, by rwa [hsame], List.map_congr_left fun p hp => ?_⟩
  have hp := (hmem p.1 p.2).1 hp
  -- the part ends in the text
  have hle : p.2 ≤ s.length := by
    by_contra hgt
    have hlt := hp.nonempty
    obtain ⟨c, hc, -⟩ := hp.inside (p.2 - 1) (by omega) (by omega)
    rw [List.getElem?_eq_none (by omega)] at hc
    cases hc
  rw [part, part, List.drop_append_of_le_length (hp.nonempty.le.trans hle),
    List.take_append_of_le_length (by rw [List.length_drop]; omega)]

end StoreService.Words
