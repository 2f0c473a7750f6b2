/-
The watchdog (daemon.cpp): `ReadPid`, `ExtraPid` and one round of the loop of `main`.

A round reads the pid of the service from its file, lets ps and grep list the processes whose pid contains its digits,
reads the first 256 bytes of that list into `result_buf`, and starts the service if the pid is not among the lines.

Model: the list is what the command prints for the running processes, a line each, in order of their pids. `none` is a
store outside of an array. The number of bytes that `fread` may store is a parameter of the round, `sizeof(result_buf)`
in the code: the terminator is stored behind them.

- `watchdog_iff`: for every list of processes and every pid, the service is started exactly when its pid is not running
  iff the command prints fewer than 256 bytes. If it prints more, the terminator is stored behind `result_buf`.
- `round_short`: that is all that goes wrong. With one byte less to read the round is right for every list: every other
  line is a larger number, so the pid is in the first line, and 255 bytes hold fewer lines than `pid_buf` has places.
- `crowd_out_of_bounds`: a list of 44 processes that is too long.
-/
import Mathlib.Data.List.Infix
import StoreService.Core.Numeral
import StoreService.Common.Dates

namespace StoreService.Daemon

open StoreService.Numeral StoreService.Json StoreService.Store StoreService.Dates

/-! ## The code -/

/-- `ReadPid` on the content of the file; `none` is a store outside `rd_buf` -/
def readPid (content : Str) : Option ℤ :=
  if content = [] then some (-1) else if 256 ≤ content.length then none else some (atoi content)

/-- the loop of `ExtraPid` on a C string: the pids stored, none for -1; `pidBuf` is the line so far -/
def extraPidLoop (pidSize : ℕ) : Str → Str → List ℤ → Option (Option (List ℤ))
  | [], _, pids => some (some pids)
  | pidCh :: pidsStr, pidBuf, pids =>
    if 256 ≤ pidBuf.length then none
    else if pidCh ≠ 0x0a then extraPidLoop pidSize pidsStr (pidBuf ++ [pidCh]) pids
    else if pidSize ≤ pids.length + 1 then some none
    else extraPidLoop pidSize pidsStr [] (pids ++ [atoi pidBuf])

/-- the round from `fread` on: whether `run_cmd` is run -/
def examine (rdMax : ℕ) (pid : ℤ) (output : Str) : Option Bool :=
  let rdSize := min rdMax output.length
  if rdSize = 0 then some true
  -- result_buf[rd_size] = 0
  else if 256 ≤ rdSize then none
  else
    (extraPidLoop 128 ((output.take rdSize).takeWhile (· ≠ 0)) [] []).map fun
      | none => false
      | some pids => decide (pid ∉ pids)

/-- the processes, by their pids -/
structure Processes where
  pids : List ℕ
  sorted : pids.Pairwise (· < ·)
  pos : ∀ q ∈ pids, 0 < q
  lt : ∀ q ∈ pids, q < 2 ^ 31

/-- one pid in decimal -/
def pidText (q : ℕ) : Str := Numeral.bytes (Nat.toDigits 10 q)

def pidLines (qs : List ℕ) : Str := qs.flatMap fun q => pidText q ++ [0x0a]

/-- the running processes whose pid contains the digits of `pid` -/
def Processes.matching (ps : Processes) (pid : ℕ) : List ℕ :=
  ps.pids.filter fun q => decide (Nat.toDigits 10 pid <:+: Nat.toDigits 10 q)

/-- what the command prints -/
def Processes.detect (ps : Processes) (pid : ℕ) : Str := pidLines (ps.matching pid)

/-- one round of the loop, with the content of the pid file if it exists: whether `run_cmd` is run -/
def round (rdMax : ℕ) (pidFile : Option Str) (ps : Processes) : Option Bool :=
  match pidFile with
  | none => some true
  | some content => do
    let pid ← readPid content
    if pid < 0 then some true else examine rdMax pid (ps.detect pid.toNat)

/-! ## Numbers in decimal -/

theorem pidText_step {n : ℕ} (h : 10 ≤ n) : pidText n = pidText (n / 10) ++ [(n % 10).digitChar.toUInt8] := by
  rw [pidText, Nat.toDigits_of_base_le (by decide) h, Numeral.bytes, List.map_append]
  rfl

theorem pidText_digit {n : ℕ} (h : n < 10) : pidText n = [n.digitChar.toUInt8] := by
  rw [pidText, Nat.toDigits_of_lt_base h]
  rfl

theorem digitChar_byte {n : ℕ} (h : n < 10) :
    isDigit n.digitChar.toUInt8 ∧ n.digitChar.toUInt8.toNat - 48 = n := by
  interval_cases n <;> decide

theorem pidText_isDigit (n : ℕ) : ∀ c ∈ pidText n, isDigit c := by
  induction n using Nat.strong_induction_on with
  | _ n ih =>
    intro c hc
    by_cases hn : 10 ≤ n
    · rw [pidText_step hn, List.mem_append, List.mem_singleton] at hc
      rcases hc with hc | hc
      · exact ih (n / 10) (by omega) c hc
      · exact hc ▸ (digitChar_byte (Nat.mod_lt n (by decide))).1
    · rw [pidText_digit (not_le.1 hn), List.mem_singleton] at hc
      exact hc ▸ (digitChar_byte (not_le.1 hn)).1

theorem digitsValue_pidText (n : ℕ) : digitsValue (pidText n) = n := by
  induction n using Nat.strong_induction_on with
  | _ n ih =>
    by_cases hn : 10 ≤ n
    · rw [pidText_step hn, digitsValue_append, ih (n / 10) (by omega), (digitChar_byte (Nat.mod_lt n (by decide))).2]
      omega
    · rw [pidText_digit (not_le.1 hn)]
      change 10 * 0 + (n.digitChar.toUInt8.toNat - 48) = n
      rw [(digitChar_byte (not_le.1 hn)).2]
      omega

theorem pidText_length (n : ℕ) : (pidText n).length = (Nat.toDigits 10 n).length := List.length_map ..

theorem pidText_ne_nil (n : ℕ) : pidText n ≠ [] := by
  intro h
  have hpos : 0 < (Nat.toDigits 10 n).length := Nat.length_toDigits_pos
  rw [← pidText_length, h] at hpos
  exact absurd hpos (by decide)

theorem atoi_pidText {q : ℕ} (h : q < 2 ^ 31) : atoi (pidText q) = q := by
  have hatoi := atoi_of_digits (pidText_ne_nil q) (pidText_isDigit q) (by rw [digitsValue_pidText]; exact h)
  rw [hatoi, digitsValue_pidText]

/-- a line takes at most eleven bytes -/
theorem pidText_length_le {q : ℕ} (h : q < 2 ^ 31) : (pidText q).length ≤ 10 := by
  rw [pidText_length]
  exact (Nat.length_toDigits_le_iff (by decide) (by decide)).2 (by omega)

theorem not_mem_pidText {q : ℕ} {c : UInt8} (hc : ¬ isDigit c) : c ∉ pidText q := fun h => hc (pidText_isDigit q c h)

/-! ## Whole lines -/

/-- the numbers of the whole lines of a text, behind the beginning of a line -/
def wholeLines : Str → Str → List ℤ
  | [], _ => []
  | c :: s, pidBuf => if c ≠ 0x0a then wholeLines s (pidBuf ++ [c]) else atoi pidBuf :: wholeLines s []

theorem wholeLines_unfinished {w : Str} (h : 0x0a ∉ w) (pidBuf : Str) : wholeLines w pidBuf = [] := by
  induction w generalizing pidBuf with
  | nil => rfl
  | cons c w ih =>
    rw [List.mem_cons, not_or] at h
    rw [wholeLines, if_pos (Ne.symm h.1)]
    exact ih h.2 _

theorem wholeLines_line {w : Str} (h : 0x0a ∉ w) (pidBuf s : Str) :
    wholeLines (w ++ 0x0a :: s) pidBuf = atoi (pidBuf ++ w) :: wholeLines s [] := by
  induction w generalizing pidBuf with
  | nil => rw [List.nil_append, List.append_nil, wholeLines, if_neg (not_not.2 rfl)]
  | cons c w ih =>
    rw [List.mem_cons, not_or] at h
    rw [List.cons_append, wholeLines, if_pos (Ne.symm h.1), ih h.2, List.append_assoc]
    rfl

theorem pidLines_cons (q : ℕ) (qs : List ℕ) : pidLines (q :: qs) = pidText q ++ 0x0a :: pidLines qs := by
  rw [pidLines, List.flatMap_cons, List.append_assoc]
  rfl

/-- **A cut leaves the first lines whole.** -/
theorem wholeLines_cut {qs : List ℕ} (hlt : ∀ q ∈ qs, q < 2 ^ 31) (n : ℕ) :
    ∃ k, wholeLines ((pidLines qs).take n) [] = (qs.take k).map Nat.cast ∧ (pidLines (qs.take k)).length ≤ n ∧
      (11 ≤ n → 0 < k) := by
  induction qs generalizing n with
  | nil => exact ⟨1, by rw [pidLines, List.flatMap_nil, List.take_nil]; rfl, Nat.zero_le n, fun _ => Nat.one_pos⟩
  | cons q qs ih =>
    have hq := hlt q List.mem_cons_self
    have hnot : (0x0a : UInt8) ∉ pidText q := not_mem_pidText (by decide)
    have hlen := pidText_length_le hq
    rw [pidLines_cons]
    by_cases hn : (pidText q).length < n
    · obtain ⟨k, hk, hsize, -⟩ := ih (fun r hr => hlt r (List.mem_cons_of_mem _ hr)) (n - (pidText q).length - 1)
      refine ⟨k + 1, ?_, ?_, fun _ => k.succ_pos⟩
      · have hcut : n - (pidText q).length = (n - (pidText q).length - 1) + 1 := by omega
        rw [List.take_append, List.take_of_length_le hn.le, hcut, List.take_succ_cons, wholeLines_line hnot,
          List.nil_append, atoi_pidText hq, hk, List.take_succ_cons, List.map_cons]
      · rw [List.take_succ_cons, pidLines_cons, List.length_append, List.length_cons]
        omega
    · refine ⟨0, ?_, Nat.zero_le n, fun h => absurd h (by omega)⟩
      rw [List.take_append_of_le_length (not_lt.1 hn), List.take_zero, List.map_nil]
      exact wholeLines_unfinished (fun h => hnot (List.mem_of_mem_take h)) []

/-! ## ExtraPid -/

/-- the loop stores the number of each whole line, if the lines fit its buffer and the numbers theirs -/
theorem extraPidLoop_eq (text : Str) {pidBuf : Str} {pids : List ℤ} (hbuf : pidBuf.length + text.length ≤ 256)
    (hsize : pids.length + (wholeLines text pidBuf).length < 128) :
    extraPidLoop 128 text pidBuf pids = some (some (pids ++ wholeLines text pidBuf)) := by
  induction text generalizing pidBuf pids with
  | nil => rw [extraPidLoop, wholeLines, List.append_nil]
  | cons c text ih =>
    rw [List.length_cons] at hbuf
    rw [wholeLines] at hsize ⊢
    rw [extraPidLoop, if_neg (by omega)]
    by_cases hfeed : c = 0x0a
    · rw [if_neg (not_not.2 hfeed), List.length_cons] at hsize
      rw [if_neg (not_not.2 hfeed), if_neg (not_not.2 hfeed), if_neg (by omega), ih, List.append_assoc]
      · rfl
      · rw [List.length_nil]
        omega
      · rw [List.length_append, List.length_singleton]
        omega
    · rw [if_pos hfeed] at hsize
      rw [if_pos hfeed, if_pos hfeed, ih _ hsize]
      rw [List.length_append, List.length_singleton]
      omega

/-! ## The order of the lines -/

section

variable {ps : Processes} {pid : ℕ}

theorem mem_matching {q : ℕ} : q ∈ ps.matching pid ↔ q ∈ ps.pids ∧ Nat.toDigits 10 pid <:+: Nat.toDigits 10 q := by
  rw [Processes.matching, List.mem_filter, decide_eq_true_eq]

theorem matching_sorted : (ps.matching pid).Pairwise (· < ·) := ps.sorted.filter _

/-- **A running process is in the first line.** -/
theorem matching_eq_cons (h : pid ∈ ps.pids) : ∃ rest, ps.matching pid = pid :: rest := by
  have hmem : pid ∈ ps.matching pid := mem_matching.2 ⟨h, List.infix_rfl⟩
  have hsorted : (ps.matching pid).Pairwise (· < ·) := matching_sorted
  have hle : ∀ q ∈ ps.matching pid, pid ≤ q := fun q hq => le_of_contains (mem_matching.1 hq).2
  cases hqs : ps.matching pid with
  | nil =>
    rw [hqs] at hmem
    cases hmem
  | cons q rest =>
    rw [hqs] at hmem hsorted hle
    rcases List.mem_cons.1 hmem with rfl | hrest
    · exact ⟨rest, rfl⟩
    · -- a smaller number cannot contain it
      have hlt : q < pid := (List.pairwise_cons.1 hsorted).1 pid hrest
      exact absurd (hle q List.mem_cons_self) (not_le.2 hlt)

theorem length_pidLines_ge {qs : List ℕ} (h : ∀ q ∈ qs, 2 ≤ (pidText q).length) :
    3 * qs.length ≤ (pidLines qs).length := by
  induction qs with
  | nil => exact Nat.zero_le _
  | cons q qs ih =>
    have hq := h q List.mem_cons_self
    have hqs := ih fun r hr => h r (List.mem_cons_of_mem _ hr)
    rw [pidLines_cons, List.length_append, List.length_cons, List.length_cons]
    omega

/-- all lines but the first have two digits or more -/
theorem length_le_of_matching {qs : List ℕ} (hsorted : qs.Pairwise (· < ·)) (hsub : ∀ q ∈ qs, q ∈ ps.matching pid) :
    3 * qs.length ≤ (pidLines qs).length + 1 := by
  cases qs with
  | nil => exact Nat.zero_le _
  | cons q rest =>
    have hdigits : ∀ r ∈ q :: rest, Nat.toDigits 10 pid <:+: Nat.toDigits 10 r := fun r hr =>
      (mem_matching.1 (hsub r hr)).2
    have hpos : 0 < (Nat.toDigits 10 pid).length := Nat.length_toDigits_pos
    have hrest : 3 * rest.length ≤ (pidLines rest).length := by
      refine length_pidLines_ge fun r hr => ?_
      have hlt : q < r := (List.pairwise_cons.1 hsorted).1 r hr
      have hle : pid ≤ q := le_of_contains (hdigits q List.mem_cons_self)
      have hlen := length_lt_of_contains (hdigits r (List.mem_cons_of_mem _ hr)) (by omega)
      rw [pidText_length]
      omega
    have hfirst := (hdigits q List.mem_cons_self).length_le
    rw [pidLines_cons, List.length_append, List.length_cons, List.length_cons, pidText_length]
    omega

theorem zero_not_mem_pidLines (qs : List ℕ) : (0 : UInt8) ∉ pidLines qs := by
  intro h
  obtain ⟨q, -, hq⟩ := List.mem_flatMap.1 h
  rcases List.mem_append.1 hq with hq | hq
  · exact not_mem_pidText (by decide) hq
  · exact absurd (List.mem_singleton.1 hq) (by decide)

/-- the lines that are read whole: fewer than the array has places, with the first among them -/
theorem lines_read (ps : Processes) (pid : ℕ) :
    ∃ k, wholeLines ((ps.detect pid).take 255) [] = ((ps.matching pid).take k).map Nat.cast ∧
      ((ps.matching pid).take k).length < 128 ∧ 0 < k := by
  obtain ⟨k, hlines, hsize, hk⟩ := wholeLines_cut (fun q hq => ps.lt q (mem_matching.1 hq).1) 255
  have hcount : 3 * ((ps.matching pid).take k).length ≤ (pidLines ((ps.matching pid).take k)).length + 1 :=
    length_le_of_matching (matching_sorted.sublist (List.take_sublist _ _)) fun q hq => List.mem_of_mem_take hq
  exact ⟨k, hlines, by omega, hk (by decide)⟩

/-- **The pid is among the lines read iff it runs.** -/
theorem mem_lines_read : (pid : ℤ) ∈ wholeLines ((ps.detect pid).take 255) [] ↔ pid ∈ ps.pids := by
  obtain ⟨k, hlines, -, hk⟩ := lines_read ps pid
  rw [hlines, List.mem_map]
  constructor
  · rintro ⟨q, hq, heq⟩
    rw [← Nat.cast_injective heq]
    exact (mem_matching.1 (List.mem_of_mem_take hq)).1
  · intro h
    obtain ⟨rest, hrest⟩ := matching_eq_cons h
    obtain ⟨j, rfl⟩ := Nat.exists_eq_succ_of_ne_zero hk.ne'
    exact ⟨pid, by rw [hrest, List.take_succ_cons]; exact List.mem_cons_self, rfl⟩

end

/-! ## A round -/

/-- the round on any output: the pid is looked for in the lines that are read whole -/
theorem examine_lines (pid : ℤ) {output : Str} (hzero : 0 ∉ output)
    (hcount : (wholeLines (output.take 255) []).length < 128) :
    examine 255 pid output = some (decide (pid ∉ wholeLines (output.take 255) [])) := by
  have htake : output.take (min 255 output.length) = output.take 255 := by
    rw [← List.take_take, List.take_length]
  have htext : (output.take 255).takeWhile (· ≠ 0) = output.take 255 := by
    rw [List.takeWhile_eq_self_iff]
    exact fun c hc => decide_eq_true fun h0 => hzero (h0 ▸ List.mem_of_mem_take hc)
  have hlen : (output.take 255).length ≤ 255 := by
    rw [List.length_take]
    exact Nat.min_le_left _ _
  have hrun : extraPidLoop 128 (output.take 255) [] [] = some (some ([] ++ wholeLines (output.take 255) [])) :=
    extraPidLoop_eq (output.take 255) (by rw [List.length_nil]; omega) (by rw [List.length_nil]; omega)
  rw [examine]
  by_cases hempty : output = []
  · rw [hempty]
    rfl
  · have hpos := List.length_pos_iff.2 hempty
    rw [if_neg (by omega), if_neg (by omega), htake, htext, hrun]
    rfl

/-- **The cut does no harm.** With a byte for the terminator, the service is started iff it does not run. -/
theorem examine_short (ps : Processes) (pid : ℕ) :
    examine 255 pid (ps.detect pid) = some (decide (pid ∉ ps.pids)) := by
  obtain ⟨k, hlines, hcount, -⟩ := lines_read ps pid
  have hzero : 0 ∉ ps.detect pid := zero_not_mem_pidLines _
  rw [examine_lines pid hzero (by rw [hlines, List.length_map]; exact hcount)]
  simp only [mem_lines_read]

theorem round_of_readPid {rdMax : ℕ} {content : Str} {pid : ℤ} {ps : Processes} (hread : readPid content = some pid)
    (hpos : 0 < pid) : round rdMax (some content) ps = examine rdMax pid (ps.detect pid.toNat) := by
  simp only [round, hread, Option.bind_eq_bind, Option.bind_some, if_neg (not_lt.2 hpos.le)]

/-- **One byte less to read** is enough for every list. -/
theorem round_short {content : Str} {pid : ℤ} (ps : Processes) (hread : readPid content = some pid) (hpos : 0 < pid) :
    round 255 (some content) ps = some (decide (pid.toNat ∉ ps.pids)) := by
  have hshort := examine_short ps pid.toNat
  rw [Int.toNat_of_nonneg hpos.le] at hshort
  rw [round_of_readPid hread hpos, hshort]

/-- an output that leaves room for the terminator is not cut -/
theorem examine_of_lt {pid : ℤ} {output : Str} (h : output.length < 256) :
    examine 256 pid output = examine 255 pid output := by
  have hmin : min 256 output.length = min 255 output.length := by omega
  rw [examine, examine, hmin]

theorem examine_of_le {pid : ℤ} {output : Str} (h : 256 ≤ output.length) : examine 256 pid output = none := by
  rw [examine, Nat.min_eq_left h]
  rfl

/-- **When the service is started exactly when it is gone**: for the lists that are printed in fewer than 256 bytes. -/
theorem watchdog_iff (content : Str) (pid : ℤ) (ps : Processes) (hread : readPid content = some pid) (hpos : 0 < pid) :
    round 256 (some content) ps = some (decide (pid.toNat ∉ ps.pids)) ↔ (ps.detect pid.toNat).length < 256 := by
  rw [round_of_readPid hread hpos]
  constructor
  · intro h
    by_contra hlong
    rw [examine_of_le (not_lt.1 hlong)] at h
    cases h
  · intro hlt
    rw [examine_of_lt hlt, ← round_of_readPid hread hpos, round_short ps hread hpos]

/-- 12 runs, and so do two processes whose pids contain its digits -/
def three : Processes where
  pids := [12, 120, 3125]
  sorted := by decide
  pos := by decide
  lt := by decide

theorem watchdog_iff_three : readPid (bytes "12\n") = some 12 ∧ three.detect 12 = bytes "12\n120\n3125\n" ∧
    round 256 (some (bytes "12\n")) three = some false := by
  have hread : readPid (bytes "12\n") = some 12 := by decide +kernel
  exact ⟨hread, by decide +kernel, (watchdog_iff _ 12 three hread (by decide)).2 (by decide +kernel)⟩

/-- 12 has ended; 44 processes have pids with its digits -/
def crowd : Processes where
  pids := [1290, 1291, 1292, 1293] ++ (List.range 40).map (12000 + ·)
  sorted := by decide
  pos := by decide
  lt := by decide

/-- **A store behind the buffer**, and 12 has to be started. -/
theorem crowd_out_of_bounds : readPid (bytes "12\n") = some 12 ∧ 12 ∉ crowd.pids ∧
    (crowd.detect 12).length = 260 ∧ round 256 (some (bytes "12\n")) crowd = none :=
  ⟨by decide +kernel, by decide, by decide +kernel, by decide +kernel⟩

end StoreService.Daemon
