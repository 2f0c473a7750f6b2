/-
The path of a play command (`ServeInvoke`, rtmpsrv.cpp).

The player asks for a file by a path in which blanks may be written "%20". The loop that turns them back compares its
cursor with the end of the path by `!=`, goes on by one or by three, and looks at up to three bytes without asking how
many are left. Behind the path stands the rest of the packet, which the player has sent.

Model: the memory from the path's first byte on. `none` is a loop that has not ended after so many rounds; with the file
path it gives the number of bytes looked at, from the first on.

- `play_path_iff`: the loop ends, looks only at the path and gives the path with every "%20" replaced, iff the path ends
  neither in "%" nor in "%2".
- `play_path_ends_iff`: the loop ends at all iff the bytes behind the path do not complete a "%20" that begins in it.
- `play_path_runs_on`: with "20" behind it, the path "a%" is never left; with a zero behind it, that zero is looked at.
-/
import StoreService.Core.ByteMem
import StoreService.Common.Json

namespace StoreService.Playback

open StoreService.ByteMem StoreService.Json

/-! ## The loop -/

/-- the bytes that the test for "%20" looks at -/
def tested (m : Mem) (pathPtr : ℕ) : ℕ := if m pathPtr ≠ 37 then 1 else if m (pathPtr + 1) ≠ 50 then 2 else 3

/-- the test: '%', '2', '0' -/
def IsBlank (m : Mem) (pathPtr : ℕ) : Prop := m pathPtr = 37 ∧ m (pathPtr + 1) = 50 ∧ m (pathPtr + 2) = 48

instance (m : Mem) (pathPtr : ℕ) : Decidable (IsBlank m pathPtr) := inferInstanceAs (Decidable (_ ∧ _))

/-- the loop of `ServeInvoke`; `seen` is the number of bytes looked at so far -/
def pathLoop (m : Mem) (avLen : ℕ) : ℕ → ℕ → Str → ℕ → Option (Str × ℕ)
  | 0, _, _, _ => none
  | fuel + 1, pathPtr, filePath, seen =>
    if pathPtr = avLen then some (filePath, seen)
    else if IsBlank m pathPtr then
      pathLoop m avLen fuel (pathPtr + 3) (filePath ++ [32]) (max seen (pathPtr + tested m pathPtr))
    else pathLoop m avLen fuel (pathPtr + 1) (filePath ++ [m pathPtr]) (max seen (pathPtr + tested m pathPtr))

/-- the directory of the stream, with its slash -/
def streamDir (storePath app : Str) : Str := storePath ++ app ++ bytes "/"

/-! ## What it is for -/

/-- every "%20" replaced by a blank, from left to right -/
def unescaped : Str → Str
  | a :: b :: c :: s => if a = 37 ∧ b = 50 ∧ c = 48 then 32 :: unescaped s else a :: unescaped (b :: c :: s)
  | s => s

example : unescaped (bytes "a%20%2%20b%2") = bytes "a %2 b%2" := by decide +kernel

/-- the loop ends, having looked only at the path, with the path in clear -/
def DecodesInside (m : Mem) (avLen : ℕ) (storePath app : Str) : Prop :=
  ∃ fuel filePath seen, pathLoop m avLen fuel 0 (streamDir storePath app) 0 = some (filePath, seen) ∧ seen ≤ avLen ∧
    filePath = streamDir storePath app ++ unescaped (slice m 0 avLen)

/-- the path ends in no beginning of "%20" -/
def Clean (path : Str) : Prop := ¬ [37] <:+ path ∧ ¬ [37, 50] <:+ path

instance (path : Str) : Decidable (Clean path) := inferInstanceAs (Decidable (_ ∧ _))

/-- a "%20" that begins in the last `n` bytes of the path ends behind them -/
def StepsOver (m : Mem) (avLen n : ℕ) : Prop := ∃ i, avLen ≤ i + n ∧ i < avLen ∧ avLen < i + 3 ∧ IsBlank m i

/-! ## Rounds -/

section

variable {m : Mem} {avLen pathPtr : ℕ} {filePath : Str} {seen : ℕ} {r : Str × ℕ}

/-- the cursor after a round -/
def advance (m : Mem) (pathPtr : ℕ) : ℕ := if IsBlank m pathPtr then pathPtr + 3 else pathPtr + 1

/-- the byte of a round -/
def byteAt (m : Mem) (pathPtr : ℕ) : UInt8 := if IsBlank m pathPtr then 32 else m pathPtr

theorem pathLoop_succ (hne : pathPtr ≠ avLen) (fuel : ℕ) : pathLoop m avLen (fuel + 1) pathPtr filePath seen =
    pathLoop m avLen fuel (advance m pathPtr) (filePath ++ [byteAt m pathPtr])
      (max seen (pathPtr + tested m pathPtr)) := by
  rw [pathLoop, if_neg hne, advance, byteAt]
  split_ifs <;> rfl

/-- a round before the end only puts the end off -/
theorem ends_iff (hne : pathPtr ≠ avLen) : (∃ fuel, pathLoop m avLen fuel pathPtr filePath seen = some r) ↔
    ∃ fuel, pathLoop m avLen fuel (advance m pathPtr) (filePath ++ [byteAt m pathPtr])
      (max seen (pathPtr + tested m pathPtr)) = some r := by
  constructor
  · rintro ⟨fuel, h⟩
    cases fuel with
    | zero => cases h
    | succ fuel => exact ⟨fuel, (pathLoop_succ hne fuel).symm.trans h⟩
  · rintro ⟨fuel, h⟩
    exact ⟨fuel + 1, (pathLoop_succ hne fuel).trans h⟩

theorem ends_at_end : (∃ fuel, pathLoop m avLen fuel avLen filePath seen = some r) ↔ r = (filePath, seen) := by
  constructor
  · rintro ⟨fuel, h⟩
    cases fuel with
    | zero => cases h
    | succ fuel =>
      rw [pathLoop, if_pos rfl] at h
      exact (Option.some.inj h).symm
  · rintro rfl
    exact ⟨1, by rw [pathLoop, if_pos rfl]⟩

theorem lt_advance (m : Mem) (pathPtr : ℕ) : pathPtr < advance m pathPtr := by
  unfold advance
  split_ifs <;> omega

/-- behind the end there is no end -/
theorem pathLoop_behind (h : avLen < pathPtr) (fuel : ℕ) : pathLoop m avLen fuel pathPtr filePath seen = none := by
  induction fuel generalizing pathPtr filePath seen with
  | zero => rfl
  | succ fuel ih =>
    rw [pathLoop_succ (ne_of_gt h)]
    exact ih (h.trans (lt_advance m pathPtr))

/-- what has been looked at stays counted -/
theorem seen_le {fuel : ℕ} (h : pathLoop m avLen fuel pathPtr filePath seen = some r) : seen ≤ r.2 := by
  induction fuel generalizing pathPtr filePath seen with
  | zero => cases h
  | succ fuel ih =>
    by_cases hend : pathPtr = avLen
    · rw [pathLoop, if_pos hend] at h
      rw [← Option.some.inj h]
    · rw [pathLoop_succ hend] at h
      exact (le_max_left _ _).trans (ih h)

theorem tested_of_isBlank (h : IsBlank m pathPtr) : tested m pathPtr = 3 := by
  rw [tested, if_neg (not_not.2 h.1), if_neg (not_not.2 h.2.1)]

/-- the test looks over the end exactly if the bytes left begin a "%20" -/
theorem tested_le_iff {n : ℕ} (hn : 0 < n) : tested m pathPtr ≤ n ↔
    ¬ (n = 1 ∧ m pathPtr = 37) ∧ ¬ (n = 2 ∧ m pathPtr = 37 ∧ m (pathPtr + 1) = 50) := by
  unfold tested
  split_ifs with h1 h2
  · exact iff_of_true hn ⟨fun h => h1 h.2, fun h => h1 h.2.1⟩
  · have h1 := not_not.1 h1
    refine ⟨fun hle => ⟨fun h => by omega, fun h => h2 h.2.2⟩, fun h => ?_⟩
    by_contra hlt
    exact h.1 ⟨by omega, h1⟩
  · have h1 := not_not.1 h1
    have h2 := not_not.1 h2
    refine ⟨fun hle => ⟨fun h => by omega, fun h => by omega⟩, fun h => ?_⟩
    by_contra hlt
    rcases Nat.lt_or_ge n 2 with hn1 | hn2
    · exact h.1 ⟨by omega, h1⟩
    · exact h.2 ⟨by omega, h1, h2⟩

end

/-! ## The path -/

section

variable {m : Mem}

theorem clean_cons {c : UInt8} {s : Str} :
    Clean (c :: s) ↔ (¬ (s = [] ∧ c = 37) ∧ ¬ (s = [50] ∧ c = 37)) ∧ Clean s := by
  simp only [Clean, List.suffix_cons_iff, List.cons.injEq]
  constructor
  · rintro ⟨h1, h2⟩
    rw [not_or] at h1 h2
    exact ⟨⟨fun h => h1.1 ⟨h.2.symm, h.1.symm⟩, fun h => h2.1 ⟨h.2.symm, h.1.symm⟩⟩, h1.2, h2.2⟩
  · rintro ⟨⟨h1, h2⟩, h3, h4⟩
    exact ⟨fun h => h.elim (fun h => h1 ⟨h.2.symm, h.1.symm⟩) h3, fun h => h.elim (fun h => h2 ⟨h.2.symm, h.1.symm⟩) h4⟩

theorem clean_nil : Clean [] := by decide

/-- the bytes left are clean iff the test stays in them and the others are clean -/
theorem clean_slice_succ (m : Mem) (pathPtr n : ℕ) : Clean (slice m pathPtr (n + 1)) ↔
    tested m pathPtr ≤ n + 1 ∧ Clean (slice m (pathPtr + 1) n) := by
  have hnil : slice m (pathPtr + 1) n = [] ↔ n + 1 = 1 := by
    rw [← List.length_eq_zero_iff, length_slice]
    omega
  have hone : slice m (pathPtr + 1) n = [50] ↔ n + 1 = 2 ∧ m (pathPtr + 1) = 50 := by
    constructor
    · intro h
      have hlen := congrArg List.length h
      rw [length_slice, List.length_singleton] at hlen
      subst hlen
      exact ⟨rfl, (List.cons.inj h).1⟩
    · rintro ⟨hn, hbyte⟩
      obtain rfl : n = 1 := by omega
      rw [slice_succ, hbyte]
      rfl
  rw [slice_succ, clean_cons, hnil, hone, tested_le_iff (Nat.succ_pos n), and_assoc (c := m pathPtr = 37),
    and_comm (a := m (pathPtr + 1) = 50)]

/-- a "%20" in the path can be left out -/
theorem clean_slice_blank {pathPtr : ℕ} (h : IsBlank m pathPtr) (n : ℕ) :
    Clean (slice m pathPtr (n + 3)) ↔ Clean (slice m (pathPtr + 3) n) := by
  have h50 : tested m (pathPtr + 1) ≤ n + 1 + 1 := by
    rw [tested, h.2.1, if_pos (by decide)]
    omega
  have h48 : tested m (pathPtr + 2) ≤ n + 1 := by
    rw [tested, h.2.2, if_pos (by decide)]
    omega
  rw [clean_slice_succ, tested_of_isBlank h, and_iff_right (by omega), clean_slice_succ, and_iff_right h50,
    clean_slice_succ, and_iff_right h48]

theorem unescaped_blank {pathPtr : ℕ} (h : IsBlank m pathPtr) (n : ℕ) :
    unescaped (slice m pathPtr (n + 3)) = 32 :: unescaped (slice m (pathPtr + 3) n) := by
  rw [slice_succ, slice_succ, slice_succ, unescaped]
  exact if_pos h

theorem unescaped_cons {pathPtr n : ℕ} (h : ¬ IsBlank m pathPtr) :
    unescaped (slice m pathPtr (n + 1)) = m pathPtr :: unescaped (slice m (pathPtr + 1) n) := by
  match n with
  | 0 => rfl
  | 1 => rfl
  | n + 2 =>
    rw [slice_succ, slice_succ, slice_succ, unescaped]
    exact if_neg h

end

/-- the loop from some place of the path on -/
theorem pathLoop_iff (m : Mem) (avLen : ℕ) {pathPtr n seen : ℕ} (filePath : Str) (hpos : pathPtr + n = avLen)
    (hseen : seen ≤ avLen) :
    (∃ seen' ≤ avLen, ∃ fuel, pathLoop m avLen fuel pathPtr filePath seen =
      some (filePath ++ unescaped (slice m pathPtr n), seen')) ↔ Clean (slice m pathPtr n) := by
  induction n using Nat.strong_induction_on generalizing pathPtr filePath seen with
  | _ n ih =>
    match n with
    | 0 =>
      obtain rfl : pathPtr = avLen := hpos
      refine iff_of_true ⟨seen, hseen, ends_at_end.2 ?_⟩ clean_nil
      exact congrArg (·, seen) (List.append_nil filePath)
    | n + 1 =>
      have hne : pathPtr ≠ avLen := by omega
      simp only [ends_iff hne]
      by_cases htest : tested m pathPtr ≤ n + 1
      · have hseen' : max seen (pathPtr + tested m pathPtr) ≤ avLen := max_le hseen (by omega)
        by_cases hblank : IsBlank m pathPtr
        · -- "%20" lies in the path
          rw [tested_of_isBlank hblank] at htest
          obtain ⟨k, rfl⟩ : ∃ k, n = k + 2 := Nat.exists_eq_add_of_le' (by omega)
          have hrest := ih k (by omega) (filePath ++ [32]) (by omega : pathPtr + 3 + k = avLen) hseen'
          rw [clean_slice_blank hblank, ← hrest, unescaped_blank hblank, advance, byteAt, if_pos hblank,
            if_pos hblank, List.append_assoc]
          rfl
        · have hrest := ih n (by omega) (filePath ++ [m pathPtr]) (by omega : pathPtr + 1 + n = avLen) hseen'
          rw [clean_slice_succ, and_iff_right htest, ← hrest, unescaped_cons hblank, advance, byteAt, if_neg hblank,
            if_neg hblank, List.append_assoc]
          rfl
      · -- the test looks behind the path
        rw [clean_slice_succ]
        refine iff_of_false ?_ fun h => htest h.1
        rintro ⟨seen', hle, fuel, h⟩
        have hlook : pathPtr + tested m pathPtr ≤ seen' := (le_max_right _ _).trans (seen_le h)
        omega

/-- **When a path is decoded inside.** -/
theorem play_path_iff (m : Mem) (avLen : ℕ) (storePath app : Str) :
    DecodesInside m avLen storePath app ↔ Clean (slice m 0 avLen) := by
  rw [← pathLoop_iff m avLen (streamDir storePath app) (Nat.zero_add avLen) (Nat.zero_le avLen), DecodesInside]
  constructor
  · rintro ⟨fuel, filePath, seen, h, hle, rfl⟩
    exact ⟨seen, hle, fuel, h⟩
  · rintro ⟨seen, hle, fuel, h⟩
    exact ⟨fuel, _, seen, h, hle, rfl⟩

/-! ## The end of the loop -/

theorem stepsOver_succ {m : Mem} {avLen pathPtr n : ℕ} (hpos : pathPtr + (n + 1) = avLen)
    (h : IsBlank m pathPtr → avLen < pathPtr + 3 → False) : StepsOver m avLen (n + 1) ↔ StepsOver m avLen n := by
  constructor
  · rintro ⟨i, hle, hlt, hover, hblank⟩
    have hne : i ≠ pathPtr := by
      rintro rfl
      exact h hblank hover
    exact ⟨i, by omega, hlt, hover, hblank⟩
  · rintro ⟨i, hle, hlt, hover, hblank⟩
    exact ⟨i, by omega, hlt, hover, hblank⟩

theorem pathLoop_ends_iff (m : Mem) (avLen : ℕ) {pathPtr n seen : ℕ} (filePath : Str) (hpos : pathPtr + n = avLen) :
    (∃ r, ∃ fuel, pathLoop m avLen fuel pathPtr filePath seen = some r) ↔ ¬ StepsOver m avLen n := by
  induction n using Nat.strong_induction_on generalizing pathPtr filePath seen with
  | _ n ih =>
    match n with
    | 0 =>
      obtain rfl : pathPtr = avLen := hpos
      refine iff_of_true ⟨(filePath, seen), ends_at_end.2 rfl⟩ ?_
      rintro ⟨i, hle, hlt, -⟩
      omega
    | n + 1 =>
      have hne : pathPtr ≠ avLen := by omega
      simp only [ends_iff hne]
      by_cases hblank : IsBlank m pathPtr
      · rw [advance, if_pos hblank]
        by_cases hover : avLen < pathPtr + 3
        · refine iff_of_false ?_ (not_not.2 ⟨pathPtr, by omega, by omega, hover, hblank⟩)
          rintro ⟨r, fuel, h⟩
          rw [pathLoop_behind hover] at h
          cases h
        · -- neither the '2' nor the '0' begins another one
          obtain ⟨k, rfl⟩ : ∃ k, n = k + 2 := Nat.exists_eq_add_of_le' (by omega)
          have h50 : ¬ IsBlank m (pathPtr + 1) := fun h => absurd (hblank.2.1.symm.trans h.1) (by decide)
          have h48 : ¬ IsBlank m (pathPtr + 2) := fun h => absurd (hblank.2.2.symm.trans h.1) (by decide)
          rw [ih k (by omega) _ (by omega), stepsOver_succ hpos fun _ h => hover h,
            stepsOver_succ (by omega : pathPtr + 1 + (k + 1 + 1) = avLen) fun h _ => h50 h,
            stepsOver_succ (by omega : pathPtr + 2 + (k + 1) = avLen) fun h _ => h48 h]
      · rw [advance, if_neg hblank, ih n (by omega) _ (by omega), stepsOver_succ hpos fun h _ => hblank h]

/-- **When the loop ends.** -/
theorem play_path_ends_iff (m : Mem) (avLen : ℕ) (storePath app : Str) :
    (∃ r, ∃ fuel, pathLoop m avLen fuel 0 (streamDir storePath app) 0 = some r) ↔ ¬ StepsOver m avLen avLen :=
  pathLoop_ends_iff m avLen (streamDir storePath app) (Nat.zero_add avLen)

/-- a packet from the path on -/
def packet (s : Str) : Mem := fun i => s.getD i 0

theorem play_path_runs_on :
    (∀ fuel, pathLoop (packet (bytes "a%20")) 2 fuel 0 (streamDir (bytes "/store/") (bytes "1-1")) 0 = none) ∧
    ¬ DecodesInside (packet (bytes "a%20")) 2 (bytes "/store/") (bytes "1-1") ∧
    pathLoop (packet (bytes "a%")) 2 3 0 (streamDir (bytes "/store/") (bytes "1-1")) 0 =
      some (bytes "/store/1-1/a%", 3) := by
  have hover : StepsOver (packet (bytes "a%20")) 2 2 := ⟨1, by decide, by decide, by decide, by decide +kernel⟩
  have hnone : ∀ fuel, pathLoop (packet (bytes "a%20")) 2 fuel 0 (streamDir (bytes "/store/") (bytes "1-1")) 0 =
      none := by
    intro fuel
    by_contra hne
    obtain ⟨r, hr⟩ := Option.ne_none_iff_exists'.1 hne
    exact (pathLoop_ends_iff _ 2 _ (Nat.zero_add 2)).1 ⟨r, fuel, hr⟩ hover
  refine ⟨hnone, ?_, by decide +kernel⟩
  rintro ⟨fuel, filePath, seen, h, -⟩
  rw [hnone] at h
  cases h

end StoreService.Playback
