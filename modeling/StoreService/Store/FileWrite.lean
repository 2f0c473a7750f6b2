/-
Writing a handed-over buffer to its file (`WriteToFileProc`, the loop of `write`, store.cpp).

Each call of `write` is given a whole block from the place the calls before it have reached, and may take all of it,
a part of it or nothing, or fail. The loop ends when as many bytes as the buffer has were taken, or at the first
failure. In both cases the file is closed and `storeCallback` registers it.

Model: the buffer in memory, the bytes of the file before (it is opened without O_TRUNC), and the results of the calls
in order. The offsets at which the calls read the buffer are kept as a ghost.

- `written_file_iff`: a registered file is the buffer, and no byte outside the buffer is given to `write`, iff there is
  a whole block left at each call, a failure comes only where the file already had the bytes that are left, and a file
  that was there is not longer than the buffer.
- `failed_write_registered`: a failure at the first call registers an empty file; a first write that is short by one
  byte makes the last call read over the end of the buffer.
-/
import StoreService.Core.FileSys
import StoreService.Store.HandOff

namespace StoreService.Store

open StoreService.ByteMem StoreService.FileSys

/-! ## The loop -/

/-- a result of `write`: the bytes taken, at most those given; `none` is -1 -/
abbrev WriteRet := Option (Fin (writeFileBlockSize + 1))

structure Writing where
  file : List UInt8
  totalWrSize : ℕ
  /-- the offset in the buffer of each call -/
  calls : List ℕ

/-- the loop; the second result is whether it has ended, so that the file is registered -/
def writeLoop (buf : Mem) : List WriteRet → Writing → Writing × Bool
  | [], w => (w, storeBufMaxSize ≤ w.totalWrSize)
  | r :: results, w =>
    if w.totalWrSize < storeBufMaxSize then
      let w := { w with calls := w.calls ++ [w.totalWrSize] }
      match r with
      | none => (w, true)
      | some n =>
        writeLoop buf results
          { w with
            file := writeAt w.file w.totalWrSize (slice buf w.totalWrSize n)
            totalWrSize := w.totalWrSize + n }
    else (w, true)

/-- a buffer written to a file that holds `old`, or does not exist -/
def writeToFile (buf : Mem) (old : List UInt8) (results : List WriteRet) : Writing × Bool :=
  writeLoop buf results ⟨old, 0, []⟩

/-- a registered file is the buffer, and `write` is given bytes of the buffer only -/
def FileIsBuffer (buf : Mem) (old : List UInt8) (results : List WriteRet) : Prop :=
  ((writeToFile buf old results).2 = true → (writeToFile buf old results).1.file = slice buf 0 storeBufMaxSize) ∧
    ∀ c ∈ (writeToFile buf old results).1.calls, c + writeFileBlockSize ≤ storeBufMaxSize

/-- the bytes taken by calls that do not fail -/
def taken (ns : List (Fin (writeFileBlockSize + 1))) : ℕ := (ns.map Fin.val).sum

@[simp] theorem taken_nil : taken [] = 0 := rfl

@[simp] theorem taken_cons (n : Fin (writeFileBlockSize + 1)) (ns : List (Fin (writeFileBlockSize + 1))) :
    taken (n :: ns) = n + taken ns := rfl

/-- what the results and the old file must be like -/
structure CleanWrites (buf : Mem) (old : List UInt8) (results : List WriteRet) : Prop where
  /-- a call that is made has a whole block before it -/
  room : ∀ ns r rest, results = ns.map some ++ r :: rest → taken ns < storeBufMaxSize →
    taken ns + writeFileBlockSize ≤ storeBufMaxSize
  /-- a call fails only where the rest is in the file already -/
  failure : ∀ ns rest, results = ns.map some ++ none :: rest → taken ns < storeBufMaxSize →
    old.drop (taken ns) = slice buf (taken ns) (storeBufMaxSize - taken ns)
  /-- when all bytes were taken, the old file was not longer -/
  tail : ∀ ns rest, results = ns.map some ++ rest → storeBufMaxSize ≤ taken ns → old.length ≤ storeBufMaxSize

/-! ## What the loop does -/

section Loop

variable {buf : Mem} {old : List UInt8} {results : List WriteRet} {w : Writing}

theorem writeLoop_end (h : storeBufMaxSize ≤ w.totalWrSize) : writeLoop buf results w = (w, true) := by
  cases results with
  | nil => simp [writeLoop, h]
  | cons r results => rw [writeLoop, if_neg h.not_gt]

/-- the file holds what was taken, over the old file -/
theorem writeLoop_file (hw : w.file = overlay old (slice buf 0 w.totalWrSize)) :
    (writeLoop buf results w).1.file = overlay old (slice buf 0 (writeLoop buf results w).1.totalWrSize) := by
  induction results generalizing w with
  | nil => exact hw
  | cons r results ih =>
    rcases le_or_gt storeBufMaxSize w.totalWrSize with hend | hlt
    · rw [writeLoop_end hend]
      exact hw
    · rw [writeLoop, if_pos hlt]
      cases r with
      | none => exact hw
      | some n =>
        apply ih
        have hnext := writeAt_overlay old (slice buf 0 w.totalWrSize) (slice buf w.totalWrSize n)
        rw [length_slice] at hnext
        dsimp only
        rw [hw, hnext, slice_add, zero_add]

/-- the calls that are made: at each offset below the end that the results lead to -/
theorem mem_calls_iff {c : ℕ} : c ∈ (writeLoop buf results w).1.calls ↔ c ∈ w.calls ∨
    ∃ ns r rest, results = ns.map some ++ r :: rest ∧ c = w.totalWrSize + taken ns ∧ c < storeBufMaxSize := by
  induction results generalizing w with
  | nil => simp [writeLoop]
  | cons r results ih =>
    rcases le_or_gt storeBufMaxSize w.totalWrSize with hend | hlt
    · rw [writeLoop_end hend]
      refine ⟨Or.inl, ?_⟩
      rintro (h | ⟨ns, r', rest, -, rfl, h⟩)
      · exact h
      · omega
    · rw [writeLoop, if_pos hlt]
      cases r with
      | none =>
        simp only [List.mem_append, List.mem_singleton]
        refine or_congr_right ⟨?_, ?_⟩
        · rintro rfl
          exact ⟨[], none, results, rfl, rfl, hlt⟩
        · rintro ⟨ns, r', rest, hsplit, rfl, -⟩
          cases ns with
          | nil => rfl
          | cons n ns => simp at hsplit
      | some n =>
        rw [ih]
        simp only [List.mem_append, List.mem_singleton, or_assoc]
        refine or_congr_right ⟨?_, ?_⟩
        · rintro (rfl | ⟨ns, r', rest, rfl, rfl, h⟩)
          · exact ⟨[], some n, results, rfl, rfl, hlt⟩
          · exact ⟨n :: ns, r', rest, rfl, by rw [taken_cons]; omega, by omega⟩
        · rintro ⟨ns, r', rest, hsplit, rfl, h⟩
          cases ns with
          | nil => exact Or.inl rfl
          | cons n' ns =>
            simp only [List.map_cons, List.cons_append, List.cons.injEq, Option.some.injEq] at hsplit
            obtain ⟨rfl, rfl⟩ := hsplit
            exact Or.inr ⟨ns, r', rest, rfl, by rw [taken_cons]; omega, by rwa [taken_cons] at h⟩

/-- no more is taken than the buffer has, if each call has a whole block before it -/
theorem writeLoop_total_le (hw : w.totalWrSize ≤ storeBufMaxSize)
    (hcalls : ∀ c ∈ (writeLoop buf results w).1.calls, c + writeFileBlockSize ≤ storeBufMaxSize) :
    (writeLoop buf results w).1.totalWrSize ≤ storeBufMaxSize := by
  induction results generalizing w with
  | nil => exact hw
  | cons r results ih =>
    rcases hw.eq_or_lt with hend | hlt
    · rw [writeLoop_end hend.ge]
      exact hw
    · have hcall : w.totalWrSize ∈ (writeLoop buf (r :: results) w).1.calls :=
        mem_calls_iff.2 (Or.inr ⟨[], r, results, rfl, rfl, hlt⟩)
      have hblock := hcalls _ hcall
      rw [writeLoop, if_pos hlt] at hcalls ⊢
      cases r with
      | none => exact hw
      | some n =>
        refine ih ?_ hcalls
        have hn := n.isLt
        dsimp only
        omega

/-- a failure ends the loop -/
theorem writeLoop_failure (buf : Mem) (w : Writing) (ns : List (Fin (writeFileBlockSize + 1))) (rest : List WriteRet)
    (hlt : w.totalWrSize + taken ns < storeBufMaxSize) :
    (writeLoop buf (ns.map some ++ none :: rest) w).2 = true ∧
      (writeLoop buf (ns.map some ++ none :: rest) w).1.totalWrSize = w.totalWrSize + taken ns := by
  induction ns generalizing w with
  | nil =>
    rw [List.map_nil, List.nil_append, writeLoop, if_pos (by simpa using hlt)]
    exact ⟨rfl, rfl⟩
  | cons n ns ih =>
    rw [taken_cons] at hlt
    rw [List.map_cons, List.cons_append, writeLoop, if_pos (by omega), taken_cons, ← add_assoc]
    apply ih
    dsimp only
    omega

/-- so do enough bytes -/
theorem writeLoop_full (buf : Mem) (w : Writing) (ns : List (Fin (writeFileBlockSize + 1))) (rest : List WriteRet)
    (hle : storeBufMaxSize ≤ w.totalWrSize + taken ns) :
    (writeLoop buf (ns.map some ++ rest) w).2 = true ∧
      storeBufMaxSize ≤ (writeLoop buf (ns.map some ++ rest) w).1.totalWrSize := by
  induction ns generalizing w with
  | nil =>
    rw [taken_nil, add_zero] at hle
    rw [writeLoop_end hle]
    exact ⟨rfl, hle⟩
  | cons n ns ih =>
    rcases le_or_gt storeBufMaxSize w.totalWrSize with hend | hlt
    · rw [writeLoop_end hend]
      exact ⟨rfl, hend⟩
    · rw [List.map_cons, List.cons_append, writeLoop, if_pos hlt]
      apply ih
      rw [taken_cons] at hle
      dsimp only
      omega

/-- and nothing else does -/
theorem writeLoop_ended (h : (writeLoop buf results w).2 = true) :
    ∃ ns rest, results = ns.map some ++ rest ∧ (writeLoop buf results w).1.totalWrSize = w.totalWrSize + taken ns ∧
      (storeBufMaxSize ≤ w.totalWrSize + taken ns ∨
        w.totalWrSize + taken ns < storeBufMaxSize ∧ ∃ rest', rest = none :: rest') := by
  induction results generalizing w with
  | nil => exact ⟨[], [], rfl, rfl, Or.inl (of_decide_eq_true h)⟩
  | cons r results ih =>
    rcases le_or_gt storeBufMaxSize w.totalWrSize with hend | hlt
    · rw [writeLoop_end hend]
      exact ⟨[], r :: results, rfl, rfl, Or.inl hend⟩
    · rw [writeLoop, if_pos hlt] at h ⊢
      cases r with
      | none => exact ⟨[], none :: results, rfl, rfl, Or.inr ⟨hlt, results, rfl⟩⟩
      | some n =>
        obtain ⟨ns, rest, rfl, htotal, hcases⟩ := ih h
        refine ⟨n :: ns, rest, rfl, ?_, ?_⟩
        · rw [taken_cons, ← add_assoc]
          exact htotal
        · rw [taken_cons, ← add_assoc]
          exact hcases

end Loop

/-! ## Registered files -/

/-- what the file must have been, once the number of bytes taken is known -/
theorem overlay_eq_buffer_iff {buf : Mem} {old : List UInt8} {t : ℕ} (ht : t ≤ storeBufMaxSize) :
    overlay old (slice buf 0 t) = slice buf 0 storeBufMaxSize ↔ old.drop t = slice buf t (storeBufMaxSize - t) := by
  have hsplit := slice_add buf 0 t (storeBufMaxSize - t)
  rw [Nat.add_sub_cancel' ht, zero_add] at hsplit
  rw [hsplit, overlay_eq_append_iff, length_slice]

theorem overlay_all_iff {buf : Mem} {old : List UInt8} :
    overlay old (slice buf 0 storeBufMaxSize) = slice buf 0 storeBufMaxSize ↔ old.length ≤ storeBufMaxSize := by
  rw [overlay_eq_buffer_iff le_rfl, Nat.sub_self]
  exact List.drop_eq_nil_iff

section WriteToFile

variable {buf : Mem} {old : List UInt8} {results : List WriteRet}

theorem writeToFile_file (buf : Mem) (old : List UInt8) (results : List WriteRet) :
    (writeToFile buf old results).1.file =
      overlay old (slice buf 0 (writeToFile buf old results).1.totalWrSize) := writeLoop_file rfl

theorem mem_writeToFile_calls {c : ℕ} : c ∈ (writeToFile buf old results).1.calls ↔
    ∃ ns r rest, results = ns.map some ++ r :: rest ∧ c = taken ns ∧ c < storeBufMaxSize := by
  rw [writeToFile, mem_calls_iff]
  simp only [List.not_mem_nil, false_or, zero_add]

theorem writeToFile_total_le
    (hcalls : ∀ c ∈ (writeToFile buf old results).1.calls, c + writeFileBlockSize ≤ storeBufMaxSize) :
    (writeToFile buf old results).1.totalWrSize ≤ storeBufMaxSize :=
  writeLoop_total_le (Nat.zero_le _) hcalls

/-- the results that a file is registered on -/
theorem writeToFile_ended (h : (writeToFile buf old results).2 = true) :
    ∃ ns rest, results = ns.map some ++ rest ∧ (writeToFile buf old results).1.totalWrSize = taken ns ∧
      (storeBufMaxSize ≤ taken ns ∨ taken ns < storeBufMaxSize ∧ ∃ rest', rest = none :: rest') := by
  obtain ⟨ns, rest, hres, htotal, hcases⟩ := writeLoop_ended h
  dsimp only at htotal hcases
  rw [zero_add] at htotal hcases
  exact ⟨ns, rest, hres, htotal, hcases⟩

end WriteToFile

/-- **A registered file is the buffer** exactly if each call has a whole block before it, a call fails only where the
rest was in the file already, and the file was not longer than the buffer. -/
theorem written_file_iff (buf : Mem) (old : List UInt8) (results : List WriteRet) :
    FileIsBuffer buf old results ↔ CleanWrites buf old results := by
  have hfile := writeToFile_file buf old results
  constructor
  · rintro ⟨hreg, hin⟩
    refine ⟨?_, ?_, ?_⟩
    · intro ns r rest hres hlt
      exact hin _ (mem_writeToFile_calls.2 ⟨ns, r, rest, hres, rfl, hlt⟩)
    · rintro ns rest rfl hlt
      obtain ⟨hend, htotal⟩ := writeLoop_failure buf ⟨old, 0, []⟩ ns rest (by simpa using hlt)
      have h := hreg hend
      rw [hfile, writeToFile, htotal, zero_add] at h
      exact (overlay_eq_buffer_iff hlt.le).1 h
    · rintro ns rest rfl hle
      obtain ⟨hend, htotal⟩ := writeLoop_full buf ⟨old, 0, []⟩ ns rest (by simpa using hle)
      have hmax := le_antisymm (writeToFile_total_le hin) htotal
      have h := hreg hend
      rw [hfile, hmax] at h
      exact overlay_all_iff.1 h
  · rintro ⟨hroom, hfail, hold⟩
    have hin : ∀ c ∈ (writeToFile buf old results).1.calls, c + writeFileBlockSize ≤ storeBufMaxSize := by
      intro c hc
      obtain ⟨ns, r, rest, hres, rfl, hlt⟩ := mem_writeToFile_calls.1 hc
      exact hroom ns r rest hres hlt
    refine ⟨?_, hin⟩
    intro hend
    obtain ⟨ns, rest, hres, htotal, hcase⟩ := writeToFile_ended hend
    have hle := writeToFile_total_le hin
    rw [htotal] at hle hfile
    rw [hfile]
    rcases hcase with hmax | ⟨hlt, rest', rfl⟩
    · rw [le_antisymm hle hmax]
      exact overlay_all_iff.2 (hold ns rest hres hmax)
    · exact (overlay_eq_buffer_iff hle).2 (hfail ns rest' hres hlt)

/-- every call takes its whole block -/
def fullBlocks : List WriteRet := List.replicate (storeBufMaxSize / writeFileBlockSize) (some (Fin.last _))

theorem fullBlocks_eq : fullBlocks = List.replicate (16383 + 1) (some (Fin.last _)) := by
  have hcount : storeBufMaxSize / writeFileBlockSize = 16383 + 1 := by decide
  rw [fullBlocks, hcount]

theorem taken_replicate (k : ℕ) : taken (List.replicate k (Fin.last _)) = k * writeFileBlockSize := by
  simp [taken]

/-- results that are all whole blocks -/
theorem eq_replicate_of_fullBlocks {ns : List (Fin (writeFileBlockSize + 1))} {rest : List WriteRet}
    (h : fullBlocks = ns.map some ++ rest) : ns = List.replicate ns.length (Fin.last _) := by
  refine List.eq_replicate_of_mem ?_
  intro n hn
  have hmem : some n ∈ fullBlocks := by
    rw [h]
    exact List.mem_append_left _ (List.mem_map_of_mem hn)
  exact Option.some.inj (List.eq_of_mem_replicate hmem)

theorem written_file_full_blocks : FileIsBuffer (fun _ => 7) [] fullBlocks := by
  refine (written_file_iff _ _ _).2 ⟨?_, ?_, ?_⟩
  · intro ns r rest h _
    have hlen := congrArg List.length h
    rw [fullBlocks_eq, List.length_replicate, List.length_append, List.length_map, List.length_cons] at hlen
    rw [eq_replicate_of_fullBlocks h, taken_replicate]
    calc ns.length * writeFileBlockSize + writeFileBlockSize = (ns.length + 1) * writeFileBlockSize := by ring
      _ ≤ 16384 * writeFileBlockSize := Nat.mul_le_mul_right _ (by omega)
      _ = storeBufMaxSize := by decide
  · intro ns rest h _
    have hmem : none ∈ fullBlocks := by
      rw [h]
      simp
    exact absurd (List.eq_of_mem_replicate hmem) nofun
  · intro _ _ _ _
    exact Nat.zero_le _

/-- the first call takes one byte less than its block, the others take theirs -/
def shortFirst : List WriteRet := some ⟨4095, by decide⟩ :: fullBlocks

/-- **A failed write is registered**: the first call fails, and an empty file is registered for a buffer that has 64 MB.
A first write short by one byte: the last call is made one byte before the end of the buffer. -/
theorem failed_write_registered :
    (writeToFile (fun _ => 7) [] [none]).2 = true ∧ (writeToFile (fun _ => 7) [] [none]).1.file = [] ∧
    ¬ FileIsBuffer (fun _ => 7) [] [none] ∧
    storeBufMaxSize - 1 ∈ (writeToFile (fun _ => 7) [] shortFirst).1.calls ∧
    ¬ FileIsBuffer (fun _ => 7) [] shortFirst := by
  have hcall : storeBufMaxSize - 1 ∈ (writeToFile (fun _ => 7) [] shortFirst).1.calls := by
    rw [mem_writeToFile_calls]
    refine ⟨⟨4095, by decide⟩ :: List.replicate 16383 (Fin.last _), some (Fin.last _), [], ?_, ?_, by decide⟩
    · have hmap : (List.replicate 16383 (Fin.last writeFileBlockSize)).map some ++ [some (Fin.last _)] =
          fullBlocks := by
        rw [fullBlocks_eq, List.map_replicate]
        exact List.replicate_succ'.symm
      rw [List.map_cons, List.cons_append, hmap, shortFirst]
    · rw [taken_cons, taken_replicate]
      decide
  refine ⟨rfl, rfl, ?_, hcall, ?_⟩
  · rintro ⟨h, -⟩
    have hlen := congrArg List.length (h rfl)
    rw [length_slice] at hlen
    exact absurd hlen (by decide)
  · rintro ⟨-, h⟩
    exact absurd (h _ hcall) (by decide)

end StoreService.Store
