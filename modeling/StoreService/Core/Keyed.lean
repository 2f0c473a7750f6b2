/-
Lists of records under keys, and maps with the same entries.

In a list whose keys are distinct, erasing the first record with a key erases all of them (`eraseP_eq_filter`), and
changing the first one changes all of them (`modify_eq_map`). Erasing by a key what was appended under it gives the list
back only if the list ends in copies of it (`eraseP_append_eq_self_iff`).

`Mirrors key value l m`: the map `m` has, under the key of each record of `l`, its value, and nothing else. The rules
say how the two are kept in step: `insert`, `erase`, `update`, `map_other`. A map is determined by the list it mirrors
(`unique`), and the order of the list does not matter (`perm`).
-/
import Mathlib.Tactic

namespace StoreService.Keyed

variable {K I V : Type} {key : K → I}

/-! ## Erasing -/

/-- erasing what the filter leaves out -/
theorem filter_eraseP {p q : K → Bool} {l : List K} (h : ∀ a ∈ l, p a → ¬ q a) :
    (l.eraseP p).filter q = l.filter q := by
  induction l with
  | nil => rfl
  | cons a l ih =>
    by_cases hp : p a
    · rw [List.eraseP_cons_of_pos hp, List.filter_cons_of_neg (h a List.mem_cons_self hp)]
    · rw [List.eraseP_cons_of_neg hp, List.filter_cons, List.filter_cons,
        ih fun b hb => h b (List.mem_cons_of_mem a hb)]

theorem eraseP_congr {p q : K → Bool} {l : List K} (h : ∀ a ∈ l, p a = q a) : l.eraseP p = l.eraseP q := by
  induction l with
  | nil => rfl
  | cons a l ih =>
    obtain ⟨ha, hl⟩ := List.forall_mem_cons.1 h
    rw [List.eraseP_cons, List.eraseP_cons, ha, ih hl]

theorem append_eq_cons_iff {a b : K} {l : List K} : l ++ [a] = b :: l ↔ ∀ x ∈ b :: l, x = a := by
  induction l generalizing b with
  | nil => simp [eq_comm]
  | cons c l ih =>
    rw [List.cons_append, List.cons_eq_cons, ih]
    constructor
    · rintro ⟨rfl, h⟩ x hx
      rcases List.mem_cons.1 hx with rfl | hx
      · exact h x List.mem_cons_self
      · exact h x hx
    · intro h
      have hc : c = a := h c (by simp)
      exact ⟨hc.trans (h b List.mem_cons_self).symm, fun x hx => h x (List.mem_cons_of_mem b hx)⟩

/-- what was appended and then erased from the front -/
theorem eraseP_append_eq_self_iff {p : K → Bool} {a : K} (ha : p a) (l : List K) :
    (l ++ [a]).eraseP p = l ↔ ∀ x ∈ l.dropWhile (!p ·), x = a := by
  induction l with
  | nil => simp [ha]
  | cons b l ih =>
    by_cases hb : p b
    · rw [List.cons_append, List.eraseP_cons_of_pos hb, append_eq_cons_iff,
        List.dropWhile_cons_of_neg (by simpa using hb)]
    · rw [List.cons_append, List.eraseP_cons_of_neg hb, List.cons_eq_cons, ih,
        List.dropWhile_cons_of_pos (by simpa using hb)]
      exact and_iff_right rfl

/-! ## Changing -/

theorem map_eq_self_iff {f : K → K} {l : List K} : l.map f = l ↔ ∀ a ∈ l, f a = a := by
  have h : l.map f = l.map id ↔ ∀ a ∈ l, f a = a := List.map_inj_left
  rwa [List.map_id] at h

theorem modify_eq_self_iff {f : K → K} {n : ℕ} {l : List K} : l.modify n f = l ↔ ∀ a, l[n]? = some a → f a = a := by
  constructor
  · intro h a ha
    have hat := congrArg (·[n]?) h
    simpa [List.getElem?_modify, ha] using hat
  · intro h
    refine List.ext_getElem? fun m => ?_
    rw [List.getElem?_modify, Option.map_eq_map]
    by_cases hm : n = m
    · subst hm
      cases ha : l[n]? with
      | none => rfl
      | some a => simp [h a ha]
    · simp [hm]

theorem map_modify {J : Type} {g : K → J} {f : K → K} {f' : J → J} (h : ∀ a, g (f a) = f' (g a)) (n : ℕ)
    (l : List K) : (l.modify n f).map g = (l.map g).modify n f' := by
  refine List.ext_getElem? fun m => ?_
  simp only [List.getElem?_map, List.getElem?_modify, Option.map_eq_map, Option.map_map]
  refine Option.map_congr fun a _ => ?_
  by_cases hm : n = m
  · simp [hm, h]
  · simp [hm]

/-! ## Distinct keys -/

section Distinct

variable [DecidableEq I]

theorem eraseP_eq_filter {l : List K} (h : (l.map key).Nodup) (i : I) :
    l.eraseP (key · = i) = l.filter (key · ≠ i) := by
  induction l with
  | nil => rfl
  | cons a l ih =>
    obtain ⟨ha, hl⟩ := List.nodup_cons.1 h
    by_cases hi : key a = i
    · rw [List.eraseP_cons_of_pos (by simpa using hi), List.filter_cons_of_neg (by simpa using hi)]
      refine (List.filter_eq_self.2 fun b hb => ?_).symm
      have hne : key b ≠ key a := fun he => ha (he ▸ List.mem_map_of_mem hb)
      simpa [hi] using hne
    · rw [List.eraseP_cons_of_neg (by simpa using hi), List.filter_cons_of_pos (by simpa using hi), ih hl]

/-- changing one record is changing all of its key, if the others stay as they are under the change -/
theorem modify_eq_map_iff {l : List K} {i : I} {n : ℕ} (hn : l.findIdx? (key · = i) = some n) (f : K → K) :
    l.modify n f = l.map (fun a => if key a = i then f a else a) ↔
      ∀ m, m ≠ n → ∀ a, l[m]? = some a → key a = i → f a = a := by
  obtain ⟨hlt, hkey, -⟩ := List.findIdx?_eq_some_iff_getElem.1 hn
  have hkey : key l[n] = i := by simpa using hkey
  constructor
  · intro h m hm a ha hi
    have hat := congrArg (·[m]?) h
    simp only [List.getElem?_modify, List.getElem?_map, ha, Option.map_eq_map, Option.map_some, hm.symm, hi, if_true,
      if_false, Option.some.injEq] at hat
    exact hat.symm
  · intro h
    refine List.ext_getElem? fun m => ?_
    rw [List.getElem?_modify, List.getElem?_map, Option.map_eq_map]
    refine Option.map_congr fun a ha => ?_
    by_cases hm : m = n
    · subst hm
      obtain rfl : l[m] = a := Option.some.inj ((List.getElem?_eq_getElem hlt).symm.trans ha)
      rw [if_pos rfl, if_pos hkey]
    · rw [if_neg (Ne.symm hm)]
      split_ifs with hi
      · exact (h m hm a ha hi).symm
      · rfl

theorem modify_eq_map {l : List K} (h : (l.map key).Nodup) {i : I} {n : ℕ} (hn : l.findIdx? (key · = i) = some n)
    (f : K → K) : l.modify n f = l.map fun a => if key a = i then f a else a := by
  refine (modify_eq_map_iff hn f).2 fun m hm a ha hi => absurd ?_ hm
  obtain ⟨hlt, hkey, -⟩ := List.findIdx?_eq_some_iff_getElem.1 hn
  have hkey : key l[n] = i := by simpa using hkey
  obtain ⟨hm, rfl⟩ := List.getElem?_eq_some_iff.1 ha
  refine (List.getElem?_inj (by simpa using hm) h).1 ?_
  simp [hm, hi, hlt, hkey]

end Distinct

/-! ## Maps with the entries of a list -/

structure Mirrors (key : K → I) (value : K → Option V) (l : List K) (m : I → Option V) : Prop where
  present : ∀ k ∈ l, ∃ v, value k = some v ∧ m (key k) = some v
  absent : ∀ i, (∀ k ∈ l, key k ≠ i) → m i = none

namespace Mirrors

variable {value : K → Option V} {l l' : List K} {m m' : I → Option V}

theorem nil : Mirrors key value [] fun _ => none := ⟨nofun, fun _ _ => rfl⟩

theorem none_iff (h : Mirrors key value l m) (i : I) : m i = none ↔ ∀ k ∈ l, key k ≠ i := by
  refine ⟨fun hn k hk hi => ?_, h.absent i⟩
  obtain ⟨v, -, hm⟩ := h.present k hk
  rw [hi, hn] at hm
  cases hm

theorem perm (h : Mirrors key value l m) (hp : l.Perm l') : Mirrors key value l' m :=
  ⟨fun k hk => h.present k (hp.mem_iff.2 hk), fun i hi => h.absent i fun k hk => hi k (hp.mem_iff.1 hk)⟩

theorem unique (h : Mirrors key value l m) (h' : Mirrors key value l m') : m = m' := by
  funext i
  by_cases hi : ∃ k ∈ l, key k = i
  · obtain ⟨k, hk, rfl⟩ := hi
    obtain ⟨v, hv, hm⟩ := h.present k hk
    obtain ⟨v', hv', hm'⟩ := h'.present k hk
    rw [hm, hm', ← hv, ← hv']
  · have hno : ∀ k ∈ l, key k ≠ i := fun k hk he => hi ⟨k, hk, he⟩
    rw [h.absent i hno, h'.absent i hno]

/-- the records change in what the map does not have -/
theorem map_other (h : Mirrors key value l m) {f : K → K} (hkey : ∀ k, key (f k) = key k)
    (hv : ∀ k, value (f k) = value k) : Mirrors key value (l.map f) m := by
  refine ⟨fun k hk => ?_, fun j hj => h.absent j fun k hk he => hj (f k) (List.mem_map_of_mem hk) ((hkey k).trans he)⟩
  obtain ⟨a, ha, rfl⟩ := List.mem_map.1 hk
  rw [hv, hkey]
  exact h.present a ha

variable [DecidableEq I]

theorem insert (h : Mirrors key value l m) {a : K} {v : V} (ha : ∀ k ∈ l, key k ≠ key a) (hv : value a = some v) :
    Mirrors key value (l ++ [a]) (Function.update m (key a) (some v)) := by
  refine ⟨fun k hk => ?_, fun i hi => ?_⟩
  · rcases List.mem_append.1 hk with hk | hk
    · rw [Function.update_of_ne (ha k hk)]
      exact h.present k hk
    · rw [List.mem_singleton.1 hk, Function.update_self]
      exact ⟨v, hv, rfl⟩
  · have hne : i ≠ key a := (hi a (List.mem_append_right _ (List.mem_singleton_self a))).symm
    rw [Function.update_of_ne hne]
    exact h.absent i fun k hk => hi k (List.mem_append_left _ hk)

theorem erase (h : Mirrors key value l m) (i : I) :
    Mirrors key value (l.filter (key · ≠ i)) (Function.update m i none) := by
  refine ⟨fun k hk => ?_, fun j hj => ?_⟩
  · obtain ⟨hk, hne⟩ := List.mem_filter.1 hk
    rw [Function.update_of_ne (by simpa using hne)]
    exact h.present k hk
  · by_cases hji : j = i
    · rw [hji, Function.update_self]
    · rw [Function.update_of_ne hji]
      refine h.absent j fun k hk he => hj k (List.mem_filter.2 ⟨hk, ?_⟩) he
      simpa [he] using hji

/-- the records with key `i` get the value `v` -/
theorem update (h : Mirrors key value l m) {f : K → K} {i : I} {v : V} (hkey : ∀ k, key (f k) = key k)
    (hv : ∀ k, key k = i → value (f k) = some v) (hother : ∀ k, key k ≠ i → f k = k) (hi : ∃ k ∈ l, key k = i) :
    Mirrors key value (l.map f) (Function.update m i (some v)) := by
  refine ⟨fun k hk => ?_, fun j hj => ?_⟩
  · obtain ⟨a, ha, rfl⟩ := List.mem_map.1 hk
    by_cases hai : key a = i
    · exact ⟨v, hv a hai, by rw [hkey, hai, Function.update_self]⟩
    · rw [hother a hai, Function.update_of_ne hai]
      exact h.present a ha
  · obtain ⟨a, ha, rfl⟩ := hi
    have hne : j ≠ key a := fun he => hj (f a) (List.mem_map_of_mem ha) ((hkey a).trans he.symm)
    rw [Function.update_of_ne hne]
    exact h.absent j fun k hk he => hj (f k) (List.mem_map_of_mem hk) ((hkey k).trans he)

end Mirrors

end StoreService.Keyed
