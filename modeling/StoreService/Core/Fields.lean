/-
Fields that are ended by separators and copied to arrays of fixed size.

`scanField` reads up to the separator or until the array is full; `scanFields` reads one field after the other. Both say
how far they have read. The memory goes on behind the text that is meant: nothing stops a scan at its end.

- `scanFields_eq_ok_iff`: a scan finds the fields exactly if they stand there, each shorter than its array and free of
  its separator.
- `readTo_le_iff`: a scan stays in a text exactly if the text covers it: each field it comes to is ended by its
  separator, or fills its array, before the text ends.
-/
import StoreService.Core.ByteMem

namespace StoreService.Fields

open StoreService.ByteMem

/-- one field, with room for so many more characters: the field and the place behind its separator, or the place reached
when the array is full -/
def scanField (mem : Mem) (sep : UInt8) : ℕ → ℕ → Except ℕ (List UInt8 × ℕ)
  | 0, pos => .error pos
  | room + 1, pos =>
    if mem pos = sep then .ok ([], pos + 1)
    else
      match scanField mem sep room (pos + 1) with
      | .error n => .error n
      | .ok (f, n) => .ok (mem pos :: f, n)

/-- one field after the other; a field is given by its separator and the size of its array -/
def scanFields (mem : Mem) : List (UInt8 × ℕ) → ℕ → Except ℕ (List (List UInt8) × ℕ)
  | [], pos => .ok ([], pos)
  | (sep, size) :: rest, pos =>
    match scanField mem sep size pos with
    | .error n => .error n
    | .ok (f, p) =>
      match scanFields mem rest p with
      | .error n => .error n
      | .ok (fs, n) => .ok (f :: fs, n)

/-- the place up to which a scan has read -/
def readTo : Except ℕ (List (List UInt8) × ℕ) → ℕ
  | .error n => n
  | .ok r => r.2

/-- fields with their separators -/
def fieldsText : List (UInt8 × ℕ) → List (List UInt8) → List UInt8
  | (sep, _) :: specs, f :: fs => f ++ sep :: fieldsText specs fs
  | _, _ => []

/-- each field is free of its separator and leaves room for a terminator -/
def Fits (specs : List (UInt8 × ℕ)) (fs : List (List UInt8)) : Prop :=
  List.Forall₂ (fun spec f => f.length < spec.2 ∧ spec.1 ∉ f) specs fs

/-- each field that a scan comes to is ended, or fills its array, in the text -/
def Covered : List (UInt8 × ℕ) → List UInt8 → Prop
  | [], _ => True
  | (sep, size) :: rest, text =>
    sep ∈ text.take size ∧ Covered rest (text.drop (text.idxOf sep + 1)) ∨ sep ∉ text.take size ∧ size ≤ text.length

/-! ## One field -/

section

variable {mem : Mem} {sep : UInt8} {pos size n : ℕ} {f : List UInt8}

theorem scanField_eq_ok_iff : scanField mem sep size pos = .ok (f, n) ↔
    f.length < size ∧ sep ∉ f ∧ n = pos + f.length + 1 ∧ slice mem pos (f.length + 1) = f ++ [sep] := by
  induction size generalizing pos f with
  | zero => exact iff_of_false nofun fun h => absurd h.1 (Nat.not_lt_zero _)
  | succ size ih =>
    by_cases hsep : mem pos = sep
    · rw [scanField, if_pos hsep]
      constructor
      · intro h
        obtain ⟨rfl, rfl⟩ := Prod.mk.inj (Except.ok.inj h)
        exact ⟨Nat.succ_pos size, List.not_mem_nil, rfl, by rw [← hsep]; rfl⟩
      · rintro ⟨-, hnot, rfl, htext⟩
        cases f with
        | nil => rfl
        | cons c f =>
          rw [List.length_cons, slice_succ, List.cons_append] at htext
          obtain ⟨hc, -⟩ := List.cons.inj htext
          exact absurd (List.mem_cons.2 (Or.inl (hsep.symm.trans hc))) hnot
    · rw [scanField, if_neg hsep]
      constructor
      · intro h
        split at h
        · cases h
        · rename_i g m hg
          obtain ⟨rfl, rfl⟩ := Prod.mk.inj (Except.ok.inj h)
          obtain ⟨hlen, hnot, rfl, htext⟩ := ih.1 hg
          refine ⟨Nat.succ_lt_succ hlen, ?_, by rw [List.length_cons]; omega, ?_⟩
          · exact List.not_mem_cons_of_ne_of_not_mem (Ne.symm hsep) hnot
          · rw [List.length_cons, slice_succ, htext]
            rfl
      · rintro ⟨hlen, hnot, rfl, htext⟩
        cases f with
        | nil =>
          rw [List.length_nil, slice_succ] at htext
          exact absurd (List.cons.inj htext).1 hsep
        | cons c f =>
          rw [List.length_cons, slice_succ, List.cons_append] at htext
          obtain ⟨rfl, hfield⟩ := List.cons.inj htext
          have hnot' : sep ∉ f := fun h => hnot (List.mem_cons_of_mem _ h)
          have hplace : pos + (mem pos :: f).length + 1 = pos + 1 + f.length + 1 := by
            rw [List.length_cons]
            omega
          rw [ih.2 ⟨Nat.lt_of_succ_lt_succ hlen, hnot', hplace, hfield⟩]

theorem exists_scanField_iff : (∃ n, scanField mem sep size pos = .ok (f, n)) ↔
    f.length < size ∧ sep ∉ f ∧ slice mem pos (f.length + 1) = f ++ [sep] := by
  constructor
  · rintro ⟨n, h⟩
    obtain ⟨hlen, hnot, -, htext⟩ := scanField_eq_ok_iff.1 h
    exact ⟨hlen, hnot, htext⟩
  · rintro ⟨hlen, hnot, htext⟩
    exact ⟨_, scanField_eq_ok_iff.2 ⟨hlen, hnot, rfl, htext⟩⟩

theorem scanField_eq_error_iff : scanField mem sep size pos = .error n ↔ n = pos + size ∧ sep ∉ slice mem pos size := by
  induction size generalizing pos with
  | zero =>
    rw [scanField, Except.error.injEq]
    exact ⟨fun h => ⟨h.symm, List.not_mem_nil⟩, fun h => h.1.symm⟩
  | succ size ih =>
    rw [scanField, slice_succ, List.mem_cons, not_or]
    by_cases hsep : mem pos = sep
    · rw [if_pos hsep]
      exact iff_of_false nofun fun h => h.2.1 hsep.symm
    · rw [if_neg hsep]
      constructor
      · intro h
        split at h
        · rename_i m hm
          obtain rfl := Except.error.inj h
          obtain ⟨rfl, hnot⟩ := ih.1 hm
          exact ⟨by omega, Ne.symm hsep, hnot⟩
        · cases h
      · rintro ⟨rfl, -, hnot⟩
        rw [ih.2 ⟨by omega, hnot⟩]

end

/-! ## All fields -/

section

variable {mem : Mem} {specs : List (UInt8 × ℕ)} {fs : List (List UInt8)} {pos n : ℕ}

theorem length_fieldsText_cons (spec : UInt8 × ℕ) (f : List UInt8) :
    (fieldsText (spec :: specs) (f :: fs)).length = f.length + 1 + (fieldsText specs fs).length := by
  rw [fieldsText, List.length_append, List.length_cons]
  omega

/-- **The fields that a scan finds.** -/
theorem scanFields_eq_ok_iff : scanFields mem specs pos = .ok (fs, n) ↔ Fits specs fs ∧
    n = pos + (fieldsText specs fs).length ∧ slice mem pos (fieldsText specs fs).length = fieldsText specs fs := by
  induction specs generalizing fs pos with
  | nil =>
    rw [scanFields, Except.ok.injEq, Prod.mk.injEq]
    constructor
    · rintro ⟨rfl, rfl⟩
      exact ⟨.nil, rfl, rfl⟩
    · rintro ⟨hfits, rfl, -⟩
      cases hfits
      exact ⟨rfl, rfl⟩
  | cons spec specs ih =>
    obtain ⟨sep, size⟩ := spec
    rw [scanFields]
    constructor
    · intro h
      split at h
      · cases h
      · rename_i f p hf
        split at h
        · cases h
        · rename_i gs m hgs
          obtain ⟨rfl, rfl⟩ := Prod.mk.inj (Except.ok.inj h)
          obtain ⟨hlen, hnot, rfl, htext⟩ := scanField_eq_ok_iff.1 hf
          obtain ⟨hfits, rfl, hrest⟩ := ih.1 hgs
          refine ⟨.cons ⟨hlen, hnot⟩ hfits, by rw [length_fieldsText_cons]; omega, ?_⟩
          rw [length_fieldsText_cons, slice_add, htext, ← add_assoc, hrest, fieldsText, List.append_assoc]
          rfl
    · rintro ⟨hfits, rfl, htext⟩
      cases hfits with
      | cons hf hfits =>
        rename_i f gs
        rw [length_fieldsText_cons, slice_add, fieldsText, List.append_cons] at htext
        obtain ⟨hfield, hrest⟩ := List.append_inj htext (by simp)
        rw [scanField_eq_ok_iff.2 ⟨hf.1, hf.2, rfl, hfield⟩, add_assoc]
        dsimp only
        rw [ih.2 ⟨hfits, by rw [length_fieldsText_cons]; omega, hrest⟩]

theorem readTo_cons {spec : UInt8 × ℕ} {f : List UInt8} {p : ℕ} (hf : scanField mem spec.1 spec.2 pos = .ok (f, p)) :
    readTo (scanFields mem (spec :: specs) pos) = readTo (scanFields mem specs p) := by
  rw [scanFields, hf]
  dsimp only
  cases scanFields mem specs p <;> rfl

theorem le_readTo (mem : Mem) (specs : List (UInt8 × ℕ)) (pos : ℕ) : pos ≤ readTo (scanFields mem specs pos) := by
  induction specs generalizing pos with
  | nil => exact le_rfl
  | cons spec specs ih =>
    cases hscan : scanField mem spec.1 spec.2 pos with
    | error n =>
      obtain ⟨rfl, -⟩ := scanField_eq_error_iff.1 hscan
      rw [scanFields, hscan]
      exact Nat.le_add_right _ _
    | ok r =>
      obtain ⟨f, p⟩ := r
      obtain ⟨-, -, rfl, -⟩ := scanField_eq_ok_iff.1 hscan
      rw [readTo_cons hscan]
      exact le_trans (by omega) (ih (pos + f.length + 1))

/-- a separator in reach ends its field: the other fields stand behind it -/
theorem covered_split {sep : UInt8} {size : ℕ} {f rest : List UInt8} (hlen : f.length < size) (hnot : sep ∉ f) :
    Covered ((sep, size) :: specs) (f ++ sep :: rest) ↔ Covered specs rest := by
  have hin : sep ∈ (f ++ sep :: rest).take size := by
    obtain ⟨k, rfl⟩ := Nat.exists_eq_add_of_lt hlen
    rw [add_assoc, List.take_length_add_append, List.take_succ_cons]
    exact List.mem_append_right _ List.mem_cons_self
  have hidx : (f ++ sep :: rest).idxOf sep = f.length := by
    rw [List.idxOf_append_of_notMem hnot, List.idxOf_cons_self, add_zero]
  have hdrop : (f ++ sep :: rest).drop (f.length + 1) = rest := by
    rw [List.append_cons, List.drop_left' (by simp)]
  rw [Covered, hidx, hdrop]
  exact ⟨fun h => (h.resolve_right fun h => h.1 hin).2, fun h => Or.inl ⟨hin, h⟩⟩

/-- with no separator in reach the text has to fill the array -/
theorem covered_of_notMem {sep : UInt8} {size : ℕ} {text : List UInt8} (hout : sep ∉ text.take size) :
    Covered ((sep, size) :: specs) text ↔ size ≤ text.length := by
  rw [Covered]
  exact ⟨fun h => (h.resolve_left fun h => hout h.1).2, fun h => Or.inr ⟨hout, h⟩⟩

/-- **How far a scan reads.** -/
theorem readTo_le_iff (len : ℕ) :
    readTo (scanFields mem specs pos) ≤ pos + len ↔ Covered specs (slice mem pos len) := by
  induction specs generalizing pos len with
  | nil => exact iff_of_true (Nat.le_add_right _ _) trivial
  | cons spec specs ih =>
    obtain ⟨sep, size⟩ := spec
    cases hscan : scanField mem sep size pos with
    | error n =>
      obtain ⟨rfl, hnot⟩ := scanField_eq_error_iff.1 hscan
      have hout : sep ∉ (slice mem pos len).take size := by
        rw [take_slice]
        exact fun h => hnot (mem_slice_of_le (min_le_left _ _) h)
      rw [covered_of_notMem hout, length_slice, scanFields, hscan]
      exact Nat.add_le_add_iff_left
    | ok r =>
      obtain ⟨f, p⟩ := r
      obtain ⟨hlen, hnot, rfl, htext⟩ := scanField_eq_ok_iff.1 hscan
      rw [readTo_cons hscan]
      by_cases hle : f.length + 1 ≤ len
      · -- the separator stands in the text: the rest of the scan reads the rest of the text
        obtain ⟨rest, rfl⟩ := Nat.exists_eq_add_of_le hle
        have hsplit : slice mem pos (f.length + 1 + rest) = f ++ sep :: slice mem (pos + f.length + 1) rest := by
          rw [slice_add, htext, List.append_assoc, ← add_assoc]
          rfl
        rw [hsplit, covered_split hlen hnot, ← ih rest, ← add_assoc, ← add_assoc]
      · -- it stands behind the text
        have hread := le_readTo mem specs (pos + f.length + 1)
        have hfield : slice mem pos f.length = f := by
          rw [slice_add] at htext
          exact (List.append_inj htext (length_slice _ _ _)).1
        have hout : sep ∉ (slice mem pos len).take size := by
          rw [take_slice]
          exact fun hin => hnot (hfield ▸ mem_slice_of_le (by omega) hin)
        rw [covered_of_notMem hout, length_slice]
        exact iff_of_false (by omega) (by omega)

end

end StoreService.Fields
