/-
Reading a store file into memory (`ReadStoreFileFrame`, store.cpp).

The loop asks for a block at the place reached so far until `read` returns 0. The result of `read` goes into an unsigned
variable: a failure, -1, is taken for 2^32 - 1 bytes, which moves the place back by one. Whether the buffer is large
enough is tested after the bytes were stored. Behind the loop there is no `return`; what the caller then reads is the
parameter `noRet`, a function of the bytes counted.

Model: the bytes of the file, and for each call of `read` whether it fails or how many bytes it delivers at most; at the
end of the file it delivers none. The ranges stored are kept as a ghost.

- `read_file_iff`: whatever the missing `return` leaves, a call is right (stays in its buffer, reports failures, and
  otherwise a value that is not negative with the file in the buffer) iff it gives up: the reads have failed as often as
  they delivered bytes, and fail again. If the missing `return` leaves values that are not negative, the call is right
  iff it gives up or no read fails and the file is not longer than the buffer.
- `read_file_wrong`: a failed read in the middle of a file, a file one byte longer than the buffer, and no value
  returned.
-/
import StoreService.Store.HandOff

namespace StoreService.Store

open StoreService.ByteMem

/-! ## The loop -/

/-- a call of `read`: it fails (`none`), or delivers at most so many bytes (and one) of what is left of the file -/
abbrev ReadRet := Option (Fin writeFileBlockSize)

/-- the bytes of a file, zeros behind them -/
def fileMem (file : List UInt8) : Mem := fun i => file.getD i 0

structure Reading where
  frameBuf : Mem
  totalRdSize : ℕ
  /-- the place in the file -/
  pos : ℕ
  /-- a read has failed -/
  failed : Bool
  /-- the ranges of the buffer that were stored: offset and length -/
  stored : List (ℕ × ℕ)

/-- the sum after a failed call of `read` -/
def Reading.back (s : Reading) : Reading :=
  { s with totalRdSize := u32 (2 ^ 32 - 1 + s.totalRdSize), failed := true }

@[simp] theorem Reading.back_pos (s : Reading) : s.back.pos = s.pos := by simp only [Reading.back]

@[simp] theorem Reading.back_failed (s : Reading) : s.back.failed = true := by simp only [Reading.back]

@[simp] theorem Reading.back_stored (s : Reading) : s.back.stored = s.stored := by simp only [Reading.back]

/-- a call of `read` that delivers n bytes, and the sum after it -/
def Reading.deliver (s : Reading) (file : List UInt8) (n : ℕ) : Reading where
  frameBuf := memcpy s.frameBuf s.totalRdSize (fileMem file) s.pos n
  totalRdSize := u32 (s.totalRdSize + n)
  pos := s.pos + n
  failed := s.failed
  stored := s.stored ++ [(s.totalRdSize, n)]

@[simp] theorem Reading.deliver_failed (s : Reading) (file : List UInt8) (n : ℕ) :
    (s.deliver file n).failed = s.failed := by
  simp only [Reading.deliver]

@[simp] theorem Reading.deliver_stored (s : Reading) (file : List UInt8) (n : ℕ) :
    (s.deliver file n).stored = s.stored ++ [(s.totalRdSize, n)] := by
  simp only [Reading.deliver]

/-- the loop from the i-th call of `read` on; the second result is what is returned, `none` if the loop has not ended -/
def readLoop (noRet : ℕ → ℤ) (file : List UInt8) (bufSize : ℕ) (results : ℕ → ReadRet) :
    ℕ → ℕ → Reading → Reading × Option ℤ
  | 0, _, s => (s, none)
  | fuel + 1, i, s =>
    match results i with
    | none =>
      let s := s.back
      if s.totalRdSize > bufSize then (s, some (-1)) else readLoop noRet file bufSize results fuel (i + 1) s
    | some n =>
      let readBlockSize := min (n.val + 1) (file.length - s.pos)
      if readBlockSize > 0 then
        let s := s.deliver file readBlockSize
        if s.totalRdSize > bufSize then (s, some (-1)) else readLoop noRet file bufSize results fuel (i + 1) s
      else (s, some (noRet s.totalRdSize))

/-- `ReadStoreFileFrame` on a file that can be opened -/
def readStoreFileFrame (noRet : ℕ → ℤ) (file : List UInt8) (frameBuf : Mem) (bufSize : ℕ) (results : ℕ → ReadRet)
    (fuel : ℕ) : Reading × Option ℤ :=
  readLoop noRet file bufSize results fuel 0 ⟨frameBuf, 0, 0, false, []⟩

/-- what the call is for: in bounds, failures reported, and otherwise the file in the buffer -/
structure Right (file : List UInt8) (bufSize : ℕ) (s : Reading) (ret : ℤ) : Prop where
  inside : ∀ r ∈ s.stored, r.1 + r.2 ≤ bufSize
  reported : s.failed = true ∨ bufSize < file.length → ret < 0
  success : s.failed = false → file.length ≤ bufSize → 0 ≤ ret ∧ slice s.frameBuf 0 file.length = file

/-- the call returns, and is right -/
def ReadsRight (noRet : ℕ → ℤ) (file : List UInt8) (frameBuf : Mem) (bufSize : ℕ) (results : ℕ → ReadRet) : Prop :=
  ∃ fuel s ret, readStoreFileFrame noRet file frameBuf bufSize results fuel = (s, some ret) ∧ Right file bufSize s ret

/-! ## The condition -/

/-- the place in the file after k reads -/
def posAt (file : List UInt8) (results : ℕ → ReadRet) : ℕ → ℕ
  | 0 => 0
  | k + 1 =>
    match results k with
    | none => posAt file results k
    | some n => min file.length (posAt file results k + (n.val + 1))

/-- how many of the first k reads fail -/
def failuresAt (results : ℕ → ReadRet) (k : ℕ) : ℕ := ((List.range k).filter fun j => results j = none).length

/-- the first k reads fail or deliver, and keep the bytes counted, delivered less failed, in the range of the buffer -/
structure GoesOn (file : List UInt8) (bufSize : ℕ) (results : ℕ → ReadRet) (k : ℕ) : Prop where
  more : ∀ j < k, results j = none ∨ posAt file results j < file.length
  low : ∀ j ≤ k, failuresAt results j ≤ posAt file results j
  high : ∀ j ≤ k, posAt file results j ≤ bufSize + failuresAt results j

/-- the reads have failed as often as they delivered bytes, and fail again -/
def GivesUp (file : List UInt8) (bufSize : ℕ) (results : ℕ → ReadRet) : Prop :=
  bufSize < 2 ^ 32 - 1 ∧ ∃ k, GoesOn file bufSize results k ∧ failuresAt results k = posAt file results k ∧
    results k = none

/-- no read fails up to the one that meets the end of the file, and the file fits -/
def Complete (file : List UInt8) (bufSize : ℕ) (results : ℕ → ReadRet) : Prop :=
  file.length ≤ bufSize ∧ ∃ k, posAt file results k = file.length ∧ ∀ j ≤ k, results j ≠ none

section Condition

variable {file : List UInt8} {bufSize : ℕ} {results : ℕ → ReadRet}

theorem posAt_le (file : List UInt8) (results : ℕ → ReadRet) (k : ℕ) : posAt file results k ≤ file.length := by
  induction k with
  | zero => exact Nat.zero_le _
  | succ k ih =>
    unfold posAt
    cases results k with
    | none => exact ih
    | some n => exact min_le_left _ _

theorem failuresAt_succ (results : ℕ → ReadRet) (k : ℕ) :
    failuresAt results (k + 1) = failuresAt results k + if results k = none then 1 else 0 := by
  unfold failuresAt
  rw [List.range_succ, List.filter_append, List.length_append]
  congr 1
  split_ifs with h <;> simp [h]

theorem failuresAt_eq_zero_iff {k : ℕ} : failuresAt results k = 0 ↔ ∀ j < k, results j ≠ none := by
  simp [failuresAt]

theorem GoesOn.zero : GoesOn file bufSize results 0 where
  more _ h := absurd h (Nat.not_lt_zero _)
  low j h := by rw [Nat.le_zero.1 h]; exact Nat.zero_le _
  high j h := by rw [Nat.le_zero.1 h]; exact Nat.zero_le _

theorem GoesOn.pred {k : ℕ} (h : GoesOn file bufSize results (k + 1)) : GoesOn file bufSize results k where
  more j hj := h.more j (by omega)
  low j hj := h.low j (by omega)
  high j hj := h.high j (by omega)

/-- one read more -/
theorem GoesOn.succ {k : ℕ} (h : GoesOn file bufSize results k)
    (hmore : results k = none ∨ posAt file results k < file.length)
    (hlow : failuresAt results (k + 1) ≤ posAt file results (k + 1))
    (hhigh : posAt file results (k + 1) ≤ bufSize + failuresAt results (k + 1)) :
    GoesOn file bufSize results (k + 1) where
  more j hj := by
    rcases Nat.lt_succ_iff_lt_or_eq.1 hj with hj | rfl
    · exact h.more j hj
    · exact hmore
  low j hj := by
    rcases Nat.le_succ_iff.1 hj with hj | rfl
    · exact h.low j hj
    · exact hlow
  high j hj := by
    rcases Nat.le_succ_iff.1 hj with hj | rfl
    · exact h.high j hj
    · exact hhigh

end Condition

/-! ## One read -/

/-- a state of the loop before the i-th read, as long as the count has stayed in the range of the buffer -/
structure ReadInv (file : List UInt8) (bufSize : ℕ) (results : ℕ → ReadRet) (i : ℕ) (s : Reading) : Prop where
  on : GoesOn file bufSize results i
  pos : s.pos = posAt file results i
  total : s.totalRdSize + failuresAt results i = posAt file results i
  failed : s.failed = true ↔ 0 < failuresAt results i
  stored : ∀ r ∈ s.stored, r.1 + r.2 ≤ bufSize
  bytes : failuresAt results i = 0 → slice s.frameBuf 0 s.pos = slice (fileMem file) 0 s.pos

theorem init_readInv (file : List UInt8) (frameBuf : Mem) (bufSize : ℕ) (results : ℕ → ReadRet) :
    ReadInv file bufSize results 0 ⟨frameBuf, 0, 0, false, []⟩ where
  on := GoesOn.zero
  pos := rfl
  total := rfl
  failed := by simp [failuresAt]
  stored := by simp
  bytes _ := rfl

section Step

variable {noRet : ℕ → ℤ} {file : List UInt8} {bufSize : ℕ} {results : ℕ → ReadRet} {fuel i : ℕ} {s : Reading}

theorem ReadInv.total_le (h : ReadInv file bufSize results i s) : s.totalRdSize ≤ bufSize := by
  have hhigh := h.on.high i le_rfl
  have htotal := h.total
  omega

theorem ReadInv.back_total (hbuf : bufSize < 2 ^ 32) (h : ReadInv file bufSize results i s)
    (hlt : failuresAt results i < posAt file results i) : s.back.totalRdSize = s.totalRdSize - 1 := by
  have hle := h.total_le
  have htotal := h.total
  simp only [Reading.back, u32]
  omega

/-- a failed read moves the place back by one, if there is one to move back to -/
theorem ReadInv.back (hbuf : bufSize < 2 ^ 32) (h : ReadInv file bufSize results i s) (hr : results i = none)
    (hlt : failuresAt results i < posAt file results i) : ReadInv file bufSize results (i + 1) s.back := by
  have hback := h.back_total hbuf hlt
  have htotal := h.total
  have hpos : posAt file results (i + 1) = posAt file results i := by rw [posAt, hr]
  have hfail : failuresAt results (i + 1) = failuresAt results i + 1 := by rw [failuresAt_succ, if_pos hr]
  refine ⟨?_, ?_, ?_, ?_, ?_, ?_⟩
  · refine h.on.succ (Or.inl hr) ?_ ?_
    · rw [hpos, hfail]
      exact hlt
    · have hhigh := h.on.high i le_rfl
      omega
  · rw [hpos, s.back_pos]
    exact h.pos
  · omega
  · simp [hfail]
  · rw [s.back_stored]
    exact h.stored
  · intro hzero
    omega

theorem readLoop_back (noRet : ℕ → ℤ) (hbuf : bufSize < 2 ^ 32) (h : ReadInv file bufSize results i s)
    (hr : results i = none) (hlt : failuresAt results i < posAt file results i) (fuel : ℕ) :
    readLoop noRet file bufSize results (fuel + 1) i s = readLoop noRet file bufSize results fuel (i + 1) s.back := by
  have hle := h.total_le
  have hback := h.back_total hbuf hlt
  simp only [readLoop, hr]
  rw [if_neg (by omega)]

/-- at the beginning of the buffer a failed read is noticed -/
theorem readLoop_gives_up (hbuf : bufSize < 2 ^ 32 - 1) (hr : results i = none) (h0 : s.totalRdSize = 0) :
    readLoop noRet file bufSize results (fuel + 1) i s = (s.back, some (-1)) := by
  simp only [readLoop, hr]
  rw [if_pos (by simp only [Reading.back, u32, h0]; omega)]

/-- the end of the file -/
theorem readLoop_eof {n : Fin writeFileBlockSize} (hr : results i = some n) (hpos : file.length ≤ s.pos) :
    readLoop noRet file bufSize results (fuel + 1) i s = (s, some (noRet s.totalRdSize)) := by
  simp only [readLoop, hr]
  rw [if_neg (by omega)]

theorem Reading.deliver_total (file : List UInt8) (hbuf : bufSize < 2 ^ 32) {k : ℕ}
    (hfit : s.totalRdSize + k ≤ bufSize) :
    (s.deliver file k).totalRdSize = s.totalRdSize + k := Nat.mod_eq_of_lt (by omega)

/-- a read that delivers inside the buffer -/
theorem ReadInv.deliver (hbuf : bufSize < 2 ^ 32) (h : ReadInv file bufSize results i s) {n : Fin writeFileBlockSize}
    (hr : results i = some n) (hpos : s.pos < file.length)
    (hfit : s.totalRdSize + min (n.val + 1) (file.length - s.pos) ≤ bufSize) :
    ReadInv file bufSize results (i + 1) (s.deliver file (min (n.val + 1) (file.length - s.pos))) := by
  have hsum := Reading.deliver_total file hbuf hfit
  have hnext : posAt file results (i + 1) = s.pos + min (n.val + 1) (file.length - s.pos) := by
    simp only [posAt, hr, ← h.pos]
    omega
  have hfail : failuresAt results (i + 1) = failuresAt results i := by simp [failuresAt_succ, hr]
  have htotal := h.total
  have hp := h.pos
  refine ⟨?_, hnext.symm, ?_, ?_, ?_, ?_⟩
  · have hlow := h.on.low i le_rfl
    exact h.on.succ (Or.inr (hp ▸ hpos)) (by omega) (by omega)
  · omega
  · rw [hfail, Reading.deliver_failed]
    exact h.failed
  · intro r hmem
    rw [Reading.deliver_stored] at hmem
    rcases List.mem_append.1 hmem with hmem | hmem
    · exact h.stored r hmem
    · rw [List.mem_singleton.1 hmem]
      exact hfit
  · intro hzero
    rw [hfail] at hzero
    -- without a failure the place in the buffer is the place in the file
    have hplace : s.totalRdSize = s.pos := by omega
    simp only [Reading.deliver, hplace]
    rw [slice_add, slice_add, zero_add, slice_memcpy, ← h.bytes hzero]
    congr 1
    exact slice_sameOn (sameOn_memcpy (Or.inl (by omega)))

theorem readLoop_deliver (noRet : ℕ → ℤ) (hbuf : bufSize < 2 ^ 32) {n : Fin writeFileBlockSize}
    (hr : results i = some n) (hpos : s.pos < file.length)
    (hfit : s.totalRdSize + min (n.val + 1) (file.length - s.pos) ≤ bufSize) (fuel : ℕ) :
    readLoop noRet file bufSize results (fuel + 1) i s = readLoop noRet file bufSize results fuel (i + 1)
      (s.deliver file (min (n.val + 1) (file.length - s.pos))) := by
  simp only [readLoop, hr]
  rw [if_pos (by omega), if_neg (by rw [Reading.deliver_total file hbuf hfit]; omega)]

/-- a read that delivers over the end of the buffer has stored its bytes before it is noticed -/
theorem readLoop_over (noRet : ℕ → ℤ) (bufSize fuel : ℕ) {n : Fin writeFileBlockSize} (hr : results i = some n)
    (hpos : s.pos < file.length) :
    ∃ s', (readLoop noRet file bufSize results (fuel + 1) i s = readLoop noRet file bufSize results fuel (i + 1) s' ∨
        readLoop noRet file bufSize results (fuel + 1) i s = (s', some (-1))) ∧
      (s.totalRdSize, min (n.val + 1) (file.length - s.pos)) ∈ s'.stored := by
  refine ⟨s.deliver file (min (n.val + 1) (file.length - s.pos)), ?_, ?_⟩
  · simp only [readLoop, hr]
    rw [if_pos (by omega)]
    split_ifs
    · exact Or.inr rfl
    · exact Or.inl rfl
  · rw [Reading.deliver_stored]
    exact List.mem_append_right _ (List.mem_singleton.2 rfl)

/-- what was stored and what has failed stays so -/
theorem readLoop_keeps (noRet : ℕ → ℤ) (file : List UInt8) (bufSize : ℕ) (results : ℕ → ReadRet) (fuel i : ℕ)
    (s : Reading) :
    (∀ r ∈ s.stored, r ∈ (readLoop noRet file bufSize results fuel i s).1.stored) ∧
      (s.failed = true → (readLoop noRet file bufSize results fuel i s).1.failed = true) := by
  induction fuel generalizing i s with
  | zero => exact ⟨fun r hr => hr, id⟩
  | succ fuel ih =>
    cases hr : results i with
    | none =>
      simp only [readLoop, hr]
      split_ifs
      · simp
      · obtain ⟨h1, h2⟩ := ih (i + 1) s.back
        rw [s.back_stored] at h1
        exact ⟨h1, fun _ => h2 s.back_failed⟩
    | some n =>
      simp only [readLoop, hr]
      split_ifs
      · rw [Reading.deliver_stored, Reading.deliver_failed]
        exact ⟨fun r hr => List.mem_append_left _ hr, id⟩
      · obtain ⟨h1, h2⟩ := ih (i + 1) (s.deliver file (min (n.val + 1) (file.length - s.pos)))
        rw [Reading.deliver_stored] at h1
        rw [Reading.deliver_failed] at h2
        exact ⟨fun r hr => h1 r (List.mem_append_left _ hr), h2⟩
      · exact ⟨fun r hr => hr, id⟩

/-- a buffer of 2^32 - 1 bytes is never too small -/
theorem readLoop_largest (hbuf : 2 ^ 32 - 1 ≤ bufSize) {s' : Reading} {ret : ℤ}
    (h : readLoop noRet file bufSize results fuel i s = (s', some ret)) : ∃ t, ret = noRet t := by
  have hsmall : ∀ x, ¬ u32 x > bufSize := by
    intro x
    have := Nat.mod_lt x (show 2 ^ 32 > 0 by decide)
    unfold u32
    omega
  induction fuel generalizing i s with
  | zero => exact absurd (congrArg Prod.snd h) nofun
  | succ fuel ih =>
    cases hr : results i with
    | none =>
      simp only [readLoop, hr] at h
      split_ifs at h with hover
      · exact absurd hover (hsmall _)
      · exact ih h
    | some n =>
      simp only [readLoop, hr] at h
      split_ifs at h with hpos hover
      · exact absurd hover (hsmall _)
      · exact ih h
      · exact ⟨_, (Option.some.inj (congrArg Prod.snd h)).symm⟩

/-- more fuel changes nothing once the loop has ended -/
theorem readLoop_fuel {s' : Reading} {ret : ℤ} (h : readLoop noRet file bufSize results fuel i s = (s', some ret))
    (d : ℕ) : readLoop noRet file bufSize results (fuel + d) i s = (s', some ret) := by
  induction fuel generalizing i s with
  | zero => exact absurd (congrArg Prod.snd h) nofun
  | succ fuel ih =>
    rw [Nat.succ_add]
    cases hr : results i with
    | none =>
      simp only [readLoop, hr] at h ⊢
      split_ifs at h ⊢
      · exact h
      · exact ih h
    | some n =>
      simp only [readLoop, hr] at h ⊢
      split_ifs at h ⊢
      · exact h
      · exact ih h
      · exact h

end Step

/-! ## A whole call -/

section Call

variable {noRet : ℕ → ℤ} {file : List UInt8} {frameBuf : Mem} {bufSize : ℕ} {results : ℕ → ReadRet}

/-- a call that has returned is right or not -/
theorem readsRight_iff {fuel : ℕ} {s : Reading} {ret : ℤ}
    (hrun : readStoreFileFrame noRet file frameBuf bufSize results fuel = (s, some ret)) :
    ReadsRight noRet file frameBuf bufSize results ↔ Right file bufSize s ret := by
  refine ⟨?_, fun h => ⟨fuel, s, ret, hrun, h⟩⟩
  rintro ⟨fuel', s', ret', hrun', hright⟩
  have heq := readLoop_fuel hrun fuel'
  rw [add_comm fuel, readLoop_fuel hrun' fuel] at heq
  obtain ⟨rfl, hval⟩ := Prod.mk.inj heq
  rwa [Option.some.inj hval] at hright

/-- the reads as long as the count stays in range -/
theorem readLoop_goesOn (hbuf : bufSize < 2 ^ 32) (noRet : ℕ → ℤ) (frameBuf : Mem) {k : ℕ}
    (hon : GoesOn file bufSize results k) :
    ∃ s, ReadInv file bufSize results k s ∧ ∀ fuel, readStoreFileFrame noRet file frameBuf bufSize results (fuel + k) =
      readLoop noRet file bufSize results fuel k s := by
  induction k with
  | zero => exact ⟨_, init_readInv file frameBuf bufSize results, fun fuel => rfl⟩
  | succ k ih =>
    obtain ⟨s, hs, hrun⟩ := ih hon.pred
    have hlow := hon.low (k + 1) le_rfl
    have hhigh := hon.high (k + 1) le_rfl
    rw [failuresAt_succ] at hlow hhigh
    have hstep : ∃ s', ReadInv file bufSize results (k + 1) s' ∧ ∀ fuel,
        readLoop noRet file bufSize results (fuel + 1) k s = readLoop noRet file bufSize results fuel (k + 1) s' := by
      cases hr : results k with
      | none =>
        rw [if_pos hr] at hlow
        simp only [posAt, hr] at hlow
        exact ⟨s.back, hs.back hbuf hr hlow, readLoop_back noRet hbuf hs hr hlow⟩
      | some n =>
        have hpos : s.pos < file.length := by
          rw [hs.pos]
          exact (hon.more k (Nat.lt_succ_self k)).resolve_left (by rw [hr]; exact nofun)
        have hfit : s.totalRdSize + min (n.val + 1) (file.length - s.pos) ≤ bufSize := by
          rw [if_neg (by rw [hr]; exact nofun)] at hhigh
          simp only [posAt, hr, ← hs.pos] at hhigh
          have htotal := hs.total
          rw [← hs.pos] at htotal
          omega
        exact ⟨_, hs.deliver hbuf hr hpos hfit, readLoop_deliver noRet hbuf hr hpos hfit⟩
    obtain ⟨s', hs', hnext⟩ := hstep
    refine ⟨s', hs', fun fuel => ?_⟩
    calc readStoreFileFrame noRet file frameBuf bufSize results (fuel + (k + 1))
        = readStoreFileFrame noRet file frameBuf bufSize results (fuel + 1 + k) := by rw [Nat.add_right_comm, add_assoc]
      _ = readLoop noRet file bufSize results (fuel + 1) k s := hrun (fuel + 1)
      _ = readLoop noRet file bufSize results fuel (k + 1) s' := hnext fuel

/-- giving up is right -/
theorem readsRight_of_givesUp (h : GivesUp file bufSize results) : ReadsRight noRet file frameBuf bufSize results := by
  obtain ⟨hbuf, k, hon, heq, hr⟩ := h
  obtain ⟨s, hs, hrun⟩ := readLoop_goesOn (by omega) noRet frameBuf hon
  have h0 : s.totalRdSize = 0 := by
    have htotal := hs.total
    omega
  refine ⟨1 + k, s.back, -1, (hrun 1).trans (readLoop_gives_up hbuf hr h0), ?_, fun _ => by decide, ?_⟩
  · rw [s.back_stored]
    exact hs.stored
  · intro hfailed
    rw [s.back_failed] at hfailed
    cases hfailed

theorem slice_fileMem (file : List UInt8) : slice (fileMem file) 0 file.length = file := by
  apply List.ext_getElem
  · rw [length_slice]
  · intro i h1 h2
    simp [slice, fileMem, h2]

/-- the first read at the end of the file is reached without a failure -/
theorem Complete.goesOn (h : Complete file bufSize results) : ∃ k n, GoesOn file bufSize results k ∧
    posAt file results k = file.length ∧ failuresAt results k = 0 ∧ results k = some n := by
  obtain ⟨hfit, hex⟩ := h
  obtain ⟨hend, hok⟩ := Nat.find_spec hex
  set k := Nat.find hex
  have hfail : ∀ j ≤ k, failuresAt results j = 0 := by
    intro j hj
    exact failuresAt_eq_zero_iff.2 fun i hi => hok i (by omega)
  obtain ⟨n, hn⟩ := Option.ne_none_iff_exists'.1 (hok k le_rfl)
  refine ⟨k, n, ⟨?_, ?_, ?_⟩, hend, hfail k le_rfl, hn⟩
  · intro j hj
    have hne : posAt file results j ≠ file.length := fun he => Nat.find_min hex hj ⟨he, fun i hi => hok i (by omega)⟩
    exact Or.inr (lt_of_le_of_ne (posAt_le file results j) hne)
  · intro j hj
    rw [hfail j hj]
    exact Nat.zero_le _
  · intro j hj
    have hle := posAt_le file results j
    omega

/-- a whole file without a failure: what is returned is what the missing `return` leaves -/
theorem readStoreFileFrame_complete (hbuf : bufSize < 2 ^ 32) (h : Complete file bufSize results) :
    ∃ fuel s, readStoreFileFrame noRet file frameBuf bufSize results fuel = (s, some (noRet file.length)) ∧
      (∀ r ∈ s.stored, r.1 + r.2 ≤ bufSize) ∧ s.failed = false ∧ slice s.frameBuf 0 file.length = file := by
  obtain ⟨k, n, hon, hend, hfail, hn⟩ := h.goesOn
  obtain ⟨s, hs, hrun⟩ := readLoop_goesOn hbuf noRet frameBuf hon
  have hpos : s.pos = file.length := hs.pos.trans hend
  have htotal : s.totalRdSize = file.length := by
    have hsum := hs.total
    rw [hfail] at hsum
    omega
  refine ⟨1 + k, s, ?_, hs.stored, ?_, ?_⟩
  · rw [hrun 1, readLoop_eof hn hpos.ge, htotal]
  · rw [← Bool.not_eq_true, hs.failed, hfail]
    exact lt_irrefl 0
  · have hbytes := hs.bytes hfail
    rw [hpos, slice_fileMem] at hbytes
    exact hbytes

/-- a buffer of 2^32 - 1 bytes: a failure goes unnoticed to the end -/
theorem largest_not_right (hret : ∀ t, 0 ≤ noRet t) (hlarge : 2 ^ 32 - 1 ≤ bufSize) {fuel i : ℕ} {s s' : Reading}
    {ret : ℤ} (hfailed : s.failed = true) (hrun : readLoop noRet file bufSize results fuel i s = (s', some ret)) :
    ¬ Right file bufSize s' ret := by
  intro hright
  obtain ⟨t, rfl⟩ := readLoop_largest hlarge hrun
  have hkeep := (readLoop_keeps noRet file bufSize results fuel i s).2 hfailed
  rw [hrun] at hkeep
  exact absurd (hright.reported (Or.inl hkeep)) (hret t).not_gt

/-- bytes over the end of the buffer stay stored there -/
theorem over_not_right {fuel i : ℕ} {s s' : Reading} {ret : ℤ} {n : Fin writeFileBlockSize} (hr : results i = some n)
    (hpos : s.pos < file.length) (hover : bufSize < s.totalRdSize + min (n.val + 1) (file.length - s.pos))
    (hrun : readLoop noRet file bufSize results (fuel + 1) i s = (s', some ret)) : ¬ Right file bufSize s' ret := by
  intro hright
  obtain ⟨s1, hnext, hmem⟩ := readLoop_over noRet bufSize fuel hr hpos
  have hmem' : (s.totalRdSize, min (n.val + 1) (file.length - s.pos)) ∈ s'.stored := by
    rcases hnext with hnext | hnext
    · have hkeep := (readLoop_keeps noRet file bufSize results fuel (i + 1) s1).1 _ hmem
      rwa [← hnext, hrun] at hkeep
    · rw [hnext] at hrun
      obtain ⟨rfl, -⟩ := Prod.mk.inj hrun
      exact hmem
  exact absurd (hright.inside _ hmem') hover.not_ge

/-- the end of the file, and a value that is not negative -/
theorem complete_of_eof {i : ℕ} {s : Reading} {ret : ℤ} {n : Fin writeFileBlockSize}
    (h : ReadInv file bufSize results i s) (hr : results i = some n) (hpos : file.length ≤ s.pos) (hret : 0 ≤ ret)
    (hright : Right file bufSize s ret) : Complete file bufSize results := by
  have hok : ¬ s.failed = true := fun hf => absurd (hright.reported (Or.inl hf)) hret.not_gt
  have hfit : file.length ≤ bufSize := by
    by_contra hlong
    exact absurd (hright.reported (Or.inr (not_le.1 hlong))) hret.not_gt
  have hzero : failuresAt results i = 0 := by
    rw [h.failed, Nat.pos_iff_ne_zero, not_not] at hok
    exact hok
  refine ⟨hfit, i, le_antisymm (posAt_le file results i) (h.pos ▸ hpos), ?_⟩
  intro j hj
  rcases hj.eq_or_lt with rfl | hj
  · rw [hr]
    exact Option.some_ne_none n
  · exact failuresAt_eq_zero_iff.1 hzero j hj

/-- from any state before a read: a call that returns and is right either has no failed read, or gives up -/
theorem complete_or_givesUp (hbuf : bufSize < 2 ^ 32) (hret : ∀ t, 0 ≤ noRet t) (fuel i : ℕ) (s : Reading)
    (h : ReadInv file bufSize results i s) {s' : Reading} {ret : ℤ}
    (hrun : readLoop noRet file bufSize results fuel i s = (s', some ret)) (hright : Right file bufSize s' ret) :
    Complete file bufSize results ∨ GivesUp file bufSize results := by
  induction fuel generalizing i s with
  | zero => exact absurd (congrArg Prod.snd hrun) nofun
  | succ fuel ih =>
    cases hr : results i with
    | none =>
      rcases (h.on.low i le_rfl).eq_or_lt with heq | hlt
      · rcases Nat.lt_or_ge bufSize (2 ^ 32 - 1) with hsmall | hlarge
        · exact Or.inr ⟨hsmall, i, h.on, heq, hr⟩
        · have hback : s.back.totalRdSize < 2 ^ 32 := Nat.mod_lt _ (by decide)
          simp only [readLoop, hr] at hrun
          rw [if_neg (by omega)] at hrun
          exact absurd hright (largest_not_right hret hlarge s.back_failed hrun)
      · rw [readLoop_back noRet hbuf h hr hlt] at hrun
        exact ih (i + 1) s.back (h.back hbuf hr hlt) hrun
    | some n =>
      rcases Nat.lt_or_ge s.pos file.length with hpos | hpos
      · rcases Nat.lt_or_ge bufSize (s.totalRdSize + min (n.val + 1) (file.length - s.pos)) with hover | hfit
        · exact absurd hright (over_not_right hr hpos hover hrun)
        · rw [readLoop_deliver noRet hbuf hr hpos hfit] at hrun
          exact ih (i + 1) _ (h.deliver hbuf hr hpos hfit) hrun
      · rw [readLoop_eof hr hpos] at hrun
        obtain ⟨rfl, hval⟩ := Prod.mk.inj hrun
        obtain rfl := Option.some.inj hval
        exact Or.inl (complete_of_eof h hr hpos (hret _) hright)

end Call

/-- **Reading a file.** Whatever the missing `return` leaves, the call is right iff it gives up. If the missing `return`
leaves only values that are not negative, the call is right iff it gives up or reads a whole file that fits without a
failure. -/
theorem read_file_iff (file : List UInt8) (frameBuf : Mem) (bufSize : ℕ) (hbuf : bufSize < 2 ^ 32)
    (results : ℕ → ReadRet) :
    ((∀ noRet, ReadsRight noRet file frameBuf bufSize results) ↔ GivesUp file bufSize results) ∧
    ∀ noRet : ℕ → ℤ, (∀ t, 0 ≤ noRet t) → (ReadsRight noRet file frameBuf bufSize results ↔
      Complete file bufSize results ∨ GivesUp file bufSize results) := by
  have hiff : ∀ noRet : ℕ → ℤ, (∀ t, 0 ≤ noRet t) → (ReadsRight noRet file frameBuf bufSize results ↔
      Complete file bufSize results ∨ GivesUp file bufSize results) := by
    intro noRet hret
    constructor
    · rintro ⟨fuel, s, ret, hrun, hright⟩
      exact complete_or_givesUp hbuf hret fuel 0 _ (init_readInv file frameBuf bufSize results) hrun hright
    · rintro (h | h)
      · obtain ⟨fuel, s, hrun, hin, hok, hbytes⟩ := readStoreFileFrame_complete hbuf h
        refine ⟨fuel, s, _, hrun, hin, ?_, fun _ _ => ⟨hret _, hbytes⟩⟩
        rintro (hf | hlong)
        · rw [hok] at hf
          cases hf
        · exact absurd h.1 hlong.not_ge
      · exact readsRight_of_givesUp h
  refine ⟨⟨?_, fun h noRet => readsRight_of_givesUp h⟩, hiff⟩
  intro hall
  rcases (hiff (fun _ => 0) fun _ => le_rfl).1 (hall _) with h | h
  · -- a build that leaves -1
    obtain ⟨fuel, s, hrun, -, hok, -⟩ := readStoreFileFrame_complete hbuf h
    have hright := (readsRight_iff hrun).1 (hall fun _ => -1)
    exact absurd (hright.success hok h.1).1 (by decide)
  · exact h

/-- reads of whole blocks -/
def wholeBlocks : ℕ → ReadRet := fun _ => some ⟨4095, by decide⟩

/-- one byte, then a failure, then the rest -/
def failsOnce : ℕ → ReadRet
  | 0 => some ⟨0, by decide⟩
  | 1 => none
  | _ => some ⟨4095, by decide⟩

theorem read_file_whole : ReadsRight (fun _ => 0) [1, 2, 3] (fun _ => 9) 10 wholeBlocks := by
  refine ((read_file_iff [1, 2, 3] (fun _ => 9) 10 (by decide) wholeBlocks).2 (fun _ => 0) fun _ => le_rfl).2 ?_
  exact Or.inl ⟨by decide, 1, by decide, fun j _ => Option.some_ne_none _⟩

/-- **A failed read goes unnoticed**: of a file of two bytes the buffer begins with the second, and 0 is returned, if
that is what the missing `return` leaves. A file one byte longer than the buffer is stored over its end before that is
noticed. A whole file is read, and -1 is returned, if that is what the missing `return` leaves. -/
theorem read_file_wrong :
    (readStoreFileFrame (fun _ => 0) [1, 2] (fun _ => 9) 10 failsOnce 4).2 = some 0 ∧
    slice (readStoreFileFrame (fun _ => 0) [1, 2] (fun _ => 9) 10 failsOnce 4).1.frameBuf 0 2 = [2, 9] ∧
    ¬ ReadsRight (fun _ => 0) [1, 2] (fun _ => 9) 10 failsOnce ∧
    (readStoreFileFrame (fun _ => 0) [1, 2, 3] (fun _ => 9) 2 wholeBlocks 1).1.stored = [(0, 3)] ∧
    ¬ ReadsRight (fun _ => 0) [1, 2, 3] (fun _ => 9) 2 wholeBlocks ∧
    (readStoreFileFrame (fun _ => -1) [1, 2, 3] (fun _ => 9) 10 wholeBlocks 2).2 = some (-1) ∧
    ¬ ReadsRight (fun _ => -1) [1, 2, 3] (fun _ => 9) 10 wholeBlocks := by
  refine ⟨by decide +kernel, by decide +kernel, ?_, by decide +kernel, ?_, by decide +kernel, ?_⟩
  · have hret : (readStoreFileFrame (fun _ => 0) [1, 2] (fun _ => 9) 10 failsOnce 4).2 = some 0 := by decide +kernel
    rw [readsRight_iff (Prod.ext rfl hret)]
    intro h
    exact absurd (h.reported (Or.inl (by decide +kernel))) (lt_irrefl 0)
  · have hret : (readStoreFileFrame (fun _ => 0) [1, 2, 3] (fun _ => 9) 2 wholeBlocks 1).2 = some (-1) := by
      decide +kernel
    rw [readsRight_iff (Prod.ext rfl hret)]
    intro h
    exact absurd (h.inside (0, 3) (by decide +kernel)) (by decide)
  · have hret : (readStoreFileFrame (fun _ => -1) [1, 2, 3] (fun _ => 9) 10 wholeBlocks 2).2 = some (-1) := by
      decide +kernel
    rw [readsRight_iff (Prod.ext rfl hret)]
    intro h
    exact absurd (h.success (by decide +kernel) (by decide)).1 (by decide)

end StoreService.Store
