/-
The settings (`LoadInfoFile`) and the cutting of texts at separators (`ExtraStr`, common.cpp).

`ExtraStr` appends the words of a text to a list. `LoadInfoFile` reads at most 512 bytes of the settings file, sets a
zero behind them and cuts the first line at its blanks with a loop of its own, which ends at a CR or LF and at nothing
else.

Model: `extraStrTo` with the int that `ExtraStr` keeps the size in; `RdBuf` is the array `rdBuf` after the read, with
what was on the stack behind the zero. `none` is a read behind the array.

- `split_iff`: `ExtraStr` appends exactly the words of a text, and the loop of `LoadInfoFile` finds what `ExtraStr`
  finds in the first line, iff the characters that the int does not count are separators and the file has a CR or LF.
- `loadInfoFile_words`: with a line end, the settings are the words of the first line.
- `line_without_end`: a file without a line end is read on into what the stack holds, or out of the array; of a text of
  2^31 characters nothing is read.

The read returns the whole file. A separator set is searched from its first element on; it has at most 256 characters,
so the index of that loop does not overflow.
-/
import StoreService.Core.Words
import StoreService.Common.DateParsers

namespace StoreService.Config

open StoreService.Json StoreService.Store StoreService.Words StoreService.Dates

/-! ## The functions -/

/-- `int size = in.size()`, as far as the loop goes -/
def intSize (str : Str) : ℕ := (Int.bmod str.length (2 ^ 32)).toNat

/-- `ExtraStr` with its third argument -/
def extraStrTo (str : Str) (ch : List UInt8) (out : List Str) : List Str :=
  extraStrLoop ch (str.take (intSize str)) [] out

/-- `rdBuf` with the file in it -/
structure RdBuf where
  content : Str
  /-- what was there before, behind the zero -/
  behind : Str
  size : content.length + 1 + behind.length = 512

def RdBuf.bytes (b : RdBuf) : Str := b.content ++ 0 :: b.behind

def isLineEnd (c : UInt8) : Bool := c = 0x0d || c = 0x0a

/-- the loop of `LoadInfoFile` -/
def loadLoop : Str → Str → List Str → Option (List Str)
  | [], _, _ => none
  | c :: rest, info, infoFromFile =>
    if isLineEnd c then some (if info = [] then infoFromFile else infoFromFile ++ [info])
    else if c ≠ 32 then loadLoop rest (info ++ [c]) infoFromFile
    else loadLoop rest [] (if info = [] then infoFromFile else infoFromFile ++ [info])

def RdBuf.infoFromFile (b : RdBuf) : Option (List Str) := loadLoop b.bytes [] []

structure Settings where
  serverIp : Str
  backupIp : Str
  streamMediaIp : Str
  downloadMediaIp : Str
  serverPort : ℤ
  playbackPort : ℤ
  backupPort : ℤ
  streamMediaPort : ℤ
  databaseUser : Str
  databasePasswd : Str
  databaseName : Str
  storePath : Str
  backupPath : Str
  transMediaPath : Str
deriving DecidableEq

/-- `load_file_num` -/
def loadFileNum : ℕ := 14

/-- the settings that the words of the first line give; `none` is the return value -1 -/
def settingsOf (infoFromFile : List Str) : Option Settings :=
  let info (i : ℕ) : Str := infoFromFile.getD i []
  if infoFromFile.length < loadFileNum then none
  else some {
    serverIp := info 0
    backupIp := info 1
    streamMediaIp := info 2
    downloadMediaIp := info 3
    serverPort := atoi (info 4)
    playbackPort := atoi (info 5)
    backupPort := atoi (info 6)
    streamMediaPort := atoi (info 7)
    databaseUser := info 8
    databasePasswd := info 9
    databaseName := info 10
    storePath := info 11
    backupPath := info 12
    transMediaPath := info 13 }

/-- `LoadInfoFile` -/
def loadInfoFile (b : RdBuf) : Option (Option Settings) := b.infoFromFile.map settingsOf

/-! ## What they are for -/

/-- the words are appended, and nothing else -/
def AppendsWords (str : Str) (ch : List UInt8) (out : List Str) : Prop :=
  ∃ ws, AreWords (· ∈ ch) str ws ∧ extraStrTo str ch out = out ++ ws

/-- up to the first CR or LF, or to the end of the file -/
def RdBuf.firstLine (b : RdBuf) : Str := b.content.takeWhile fun c => !isLineEnd c

/-- the loop finds what `ExtraStr` finds in the first line -/
def CutsFirstLine (b : RdBuf) : Prop := b.infoFromFile = some (extraStrTo b.firstLine [32] [])

theorem intSize_eq {str : Str} (h : str.length < 2 ^ 31) : intSize str = str.length := by
  have hbmod : Int.bmod str.length (2 ^ 32) = str.length := by
    apply Int.bmod_eq_of_le <;> omega
  exact congrArg Int.toNat hbmod

theorem extraStrTo_eq (str : Str) (ch : List UInt8) (out : List Str) :
    extraStrTo str ch out = out ++ extraStr (str.take (intSize str)) ch := extraStrLoop_out _ _ _

/-! ## ExtraStr -/

section

variable {ch : List UInt8}

/-- the cut so far is the beginning of a word -/
theorem areWords_loop (s : Str) {strCut : Str} (hcut : ∀ c ∈ strCut, c ∉ ch) :
    AreWords (· ∈ ch) (strCut ++ s) (extraStrLoop ch s strCut []) := by
  induction s generalizing strCut with
  | nil =>
    rw [extraStrLoop, List.append_nil]
    by_cases hne : strCut = []
    · rw [if_pos hne, hne]
      exact words_nil _
    · rw [if_neg hne, List.nil_append]
      exact words_single hcut hne
  | cons c s ih =>
    rw [extraStrLoop]
    by_cases hc : c ∈ ch
    · -- the cut ends here
      have hrest := words_cons hcut hc (ih (List.forall_mem_nil _))
      rw [if_pos hc, extraStrLoop_out]
      by_cases hne : strCut = []
      · rw [if_pos hne] at hrest ⊢
        exact hrest
      · rw [if_neg hne] at hrest ⊢
        exact hrest
    · rw [if_neg hc, List.append_cons]
      exact ih (List.forall_mem_append.2 ⟨hcut, List.forall_mem_singleton.2 hc⟩)

/-- **The words of a text.** -/
theorem areWords_extraStr (s : Str) : AreWords (· ∈ ch) s (extraStr s ch) :=
  areWords_loop s (List.forall_mem_nil _)

/-- the characters of the words -/
theorem flatten_extraStr (s : Str) : (extraStr s ch).flatten = s.filter (· ∉ ch) := by
  have hloop : ∀ strCut : Str, (extraStrLoop ch s strCut []).flatten = strCut ++ s.filter (· ∉ ch) := by
    induction s with
    | nil =>
      intro strCut
      by_cases hne : strCut = [] <;> simp [extraStrLoop, hne]
    | cons c s ih =>
      intro strCut
      rw [extraStrLoop]
      by_cases hc : c ∈ ch
      · rw [if_pos hc, extraStrLoop_out, List.flatten_append, ih, List.filter_cons_of_neg (by simpa using hc)]
        by_cases hne : strCut = [] <;> simp [hne]
      · rw [if_neg hc, ih, List.filter_cons_of_pos (by simpa using hc), List.append_assoc]
        rfl
  exact hloop []

theorem appendsWords_iff (str : Str) (out : List Str) :
    AppendsWords str ch out ↔ ∀ c ∈ str.drop (intSize str), c ∈ ch := by
  constructor
  · rintro ⟨ws, hws, hout⟩
    rw [extraStrTo_eq, List.append_right_inj] at hout
    have hsame : extraStr str ch = extraStr (str.take (intSize str)) ch :=
      (areWords_extraStr str).unique (hout ▸ hws)
    have hflat := congrArg List.flatten hsame
    rw [flatten_extraStr, flatten_extraStr] at hflat
    have hrest : (str.drop (intSize str)).filter (· ∉ ch) = [] := by
      rw [← List.append_cancel_left_eq ((str.take (intSize str)).filter (· ∉ ch)), ← List.filter_append,
        List.take_append_drop, hflat, List.append_nil]
    intro c hc
    simpa using List.filter_eq_nil_iff.1 hrest c hc
  · intro hseps
    refine ⟨extraStr (str.take (intSize str)) ch, ?_, extraStrTo_eq str ch out⟩
    have hwords := words_append_seps hseps (areWords_extraStr (str.take (intSize str)))
    rwa [List.take_append_drop] at hwords

end

/-! ## LoadInfoFile -/

/-- up to the first line end the loop is that of `ExtraStr` -/
theorem loadLoop_eq (s info : Str) (out : List Str) : loadLoop s info out =
    if ∃ c ∈ s, isLineEnd c then some (extraStrLoop [32] (s.takeWhile fun c => !isLineEnd c) info out) else none := by
  induction s generalizing info out with
  | nil => rfl
  | cons c s ih =>
    rw [loadLoop]
    by_cases hend : isLineEnd c
    · have hsome : ∃ d ∈ c :: s, isLineEnd d := ⟨c, List.mem_cons_self, hend⟩
      have hline : (c :: s).takeWhile (fun c => !isLineEnd c) = [] := by
        rw [List.takeWhile_cons, if_neg (by simpa using hend)]
      rw [if_pos hend, if_pos hsome, hline, extraStrLoop]
    · have hline : (c :: s).takeWhile (fun c => !isLineEnd c) = c :: s.takeWhile fun c => !isLineEnd c := by
        rw [List.takeWhile_cons, if_pos (by simpa using hend)]
      have hiff : (∃ d ∈ c :: s, isLineEnd d = true) ↔ ∃ d ∈ s, isLineEnd d = true := by
        simp [hend]
      simp only [if_neg hend, hline, hiff, extraStrLoop, List.mem_singleton, ih]
      by_cases hblank : c = 32 <;> simp [hblank]

/-- a line of the file is short -/
theorem extraStrTo_firstLine (b : RdBuf) : extraStrTo b.firstLine [32] [] = extraStr b.firstLine [32] := by
  have hsize := b.size
  have hline : b.firstLine.length ≤ b.content.length := List.IsPrefix.length_le (List.takeWhile_prefix _)
  rw [extraStrTo_eq, intSize_eq (by omega), List.take_length, List.nil_append]

theorem cutsFirstLine_iff (b : RdBuf) : CutsFirstLine b ↔ ∃ c ∈ b.content, isLineEnd c := by
  rw [CutsFirstLine, extraStrTo_firstLine, RdBuf.infoFromFile, loadLoop_eq, RdBuf.bytes]
  by_cases hend : ∃ c ∈ b.content, isLineEnd c
  · obtain ⟨c, hc, hendc⟩ := hend
    have hsome : ∃ c ∈ b.content ++ 0 :: b.behind, isLineEnd c := ⟨c, List.mem_append_left _ hc, hendc⟩
    have hstop : (b.content.takeWhile fun c => !isLineEnd c).length ≠ b.content.length := by
      intro hlen
      have hall := List.takeWhile_eq_self_iff.1 ((List.takeWhile_prefix _).eq_of_length hlen) c hc
      rw [hendc] at hall
      cases hall
    rw [if_pos hsome, List.takeWhile_append, if_neg hstop]
    exact iff_of_true rfl ⟨c, hc, hendc⟩
  · -- the zero is read as a character of the line
    have hall : ∀ c ∈ b.content, (!isLineEnd c) = true := by
      intro c hc
      rw [Bool.not_eq_true']
      exact Bool.eq_false_iff.2 fun hendc => hend ⟨c, hc, hendc⟩
    refine iff_of_false (fun hload => ?_) hend
    obtain ⟨-, hload⟩ := Option.ite_none_right_eq_some.1 hload
    have hlong : (b.content ++ 0 :: b.behind).takeWhile (fun c => !isLineEnd c) =
        b.content ++ 0 :: b.behind.takeWhile fun c => !isLineEnd c := by
      rw [List.takeWhile_append_of_pos hall, List.takeWhile_cons]
      rfl
    have hfirst : b.firstLine = b.content := List.takeWhile_eq_self_iff.2 hall
    have hflat := congrArg List.flatten (Option.some.inj hload)
    rw [hlong, hfirst] at hflat
    have hlen := congrArg List.length ((flatten_extraStr _).symm.trans (hflat.trans (flatten_extraStr _)))
    rw [List.filter_append, List.length_append, List.filter_cons_of_pos (by decide), List.length_cons] at hlen
    omega

/-- with a line end the settings are the words of the first line -/
theorem loadInfoFile_words {b : RdBuf} {ws : List Str} (hend : ∃ c ∈ b.content, isLineEnd c)
    (hws : AreWords (· ∈ [32]) b.firstLine ws) : loadInfoFile b = some (settingsOf ws) := by
  have hline : b.infoFromFile = some (extraStr b.firstLine [32]) := by
    rw [(cutsFirstLine_iff b).2 hend, extraStrTo_firstLine]
  rw [loadInfoFile, hline, Option.map_some, (areWords_extraStr b.firstLine).unique hws]

/-- **When texts are cut exactly.** -/
theorem split_iff (str : Str) (ch : List UInt8) (out : List Str) (b : RdBuf) :
    AppendsWords str ch out ∧ CutsFirstLine b ↔
      (∀ c ∈ str.drop (intSize str), c ∈ ch) ∧ ∃ c ∈ b.content, isLineEnd c :=
  and_congr (appendsWords_iff str out) (cutsFirstLine_iff b)

/-- as an int the size is negative -/
theorem not_appendsWords {str : Str} (hlen : str.length = 2 ^ 31) (hmem : 97 ∈ str) :
    ¬ AppendsWords str [32] [] := by
  intro h
  have hsize : intSize str = 0 := by
    have hneg : Int.bmod str.length (2 ^ 32) = -2 ^ 31 := by
      rw [hlen]
      decide +kernel
    exact congrArg Int.toNat hneg
  have hblank := (appendsWords_iff str []).1 h 97
  rw [hsize, List.drop_zero] at hblank
  exact absurd (hblank hmem) (by decide)

/-- "a b" without a line end, and what was on the stack behind it -/
def unended (behind : Str) (h : behind.length = 508) : RdBuf where
  content := Json.bytes "a b"
  behind := behind
  size := by
    have hlen : (Json.bytes "a b").length = 3 := by decide +kernel
    omega

theorem line_without_end :
    (unended (List.replicate 508 0) (List.length_replicate)).infoFromFile = none ∧
    (unended (Json.bytes " c\n" ++ List.replicate 505 0) (by decide +kernel)).infoFromFile =
      some [Json.bytes "a", Json.bytes "b\x00", Json.bytes "c"] ∧
    ¬ CutsFirstLine (unended (List.replicate 508 0) (List.length_replicate)) ∧
    ¬ AppendsWords (List.replicate (2 ^ 31) 97) [32] [] := by
  have hfault : (unended (List.replicate 508 0) (List.length_replicate)).infoFromFile = none := by decide +kernel
  refine ⟨hfault, by decide +kernel, ?_, ?_⟩
  · intro h
    rw [CutsFirstLine, hfault] at h
    cases h
  · exact not_appendsWords List.length_replicate (List.mem_replicate.2 ⟨by norm_num, rfl⟩)

end StoreService.Config
