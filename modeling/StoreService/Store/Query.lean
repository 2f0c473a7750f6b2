/-
The date query (`QueryInfoByDate`, `SearchClosestTimeFromDB`, `GetStoreInfoFromDB`, mysql.cpp).

Both ends of a range of dates are looked up in the start_time_ms column of the camera's table by bisection; the rows
between the two indices are the answer. A search also reports through a flag whether the time lies before the first
row (-1) or after the last (1).

Model: the rows of `SELECT *` in table order; `searchLoop` is the bisection with the rows it seeks, on fuel (`none` is
a search that has not ended). The searches, which see the same table, succeed as database calls. `mktime` is a
parameter: a function of the fields that a date sets and of tm_isdst, which nobody sets and which can move the time by
an hour. What the two `struct tm` and the two flags of the searches hold before is part of the query; a date means what
`mktime` gives for it with tm_isdst -1.

- `search_lower_bound`: on a sorted table the bisection ends, seeks only rows of the table and finds the lower bound.
- `query_by_date_iff`: the query answers with the rows of the range, whatever the flags and tm_isdst held, iff the table
  has a row and each date lies, with every tm_isdst, before the first start time or, with every one, after the last. For
  a time between them the search sets the pointer to null (`flag = 0`) and leaves the flag as it was; and the second
  index is a lower bound too.
- `query_between`: on three rows, a range with a row is not found, a range without one yields the row after it, the
  empty table is no error of the service, and a range around all rows is not found when tm_isdst holds 1.
-/
import StoreService.Common.Json

namespace StoreService.Store

open StoreService.Json

/-- `struct mysqlstoreinfo` -/
structure MysqlStoreInfo where
  fileName : Str
  fileType : Str
  fileStatus : Str
  fileBackup : Str
deriving DecidableEq

/-- a row of a camera's table, as the query reads it -/
structure CameraRow extends MysqlStoreInfo where
  startTimeMs : ℤ
deriving DecidableEq

/-! ## The bisection -/

/-- the `while (1)` from `row_start` and `row_end`: the index found and the rows sought -/
def searchLoop (rows : List CameraRow) (searchTime : ℤ) : ℕ → ℕ → ℕ → Option (ℤ × List ℕ)
  | 0, _, _ => none
  | fuel + 1, rowStart, rowEnd =>
    let average := (rowStart + rowEnd) / 2
    match rows[average]? with
    | none => some (-1, [average])
    | some row =>
      if rowEnd - rowStart > 1 then
        if searchTime < row.startTimeMs then
          (searchLoop rows searchTime fuel rowStart average).map fun r => (r.1, average :: r.2)
        else if searchTime > row.startTimeMs then
          (searchLoop rows searchTime fuel average rowEnd).map fun r => (r.1, average :: r.2)
        else some (average, [average])
      else if searchTime ≤ row.startTimeMs then some (rowStart, [average])
      else some (rowEnd, [average])

structure Search where
  searchRet : ℤ
  /-- `*flag` after the search -/
  flag : ℤ
  seeks : List ℕ
deriving DecidableEq

/-- `SearchClosestTimeFromDB`; `flag` is what the flag holds before -/
def searchClosestTimeFromDB (fuel : ℕ) (rows : List CameraRow) (searchTime flag : ℤ) : Option Search :=
  match rows[0]?, rows[rows.length - 1]? with
  | some rowStart, some rowEnd =>
    let seeks := [0, rows.length - 1]
    if searchTime < rowStart.startTimeMs then some ⟨0, -1, seeks⟩
    else if searchTime > rowEnd.startTimeMs then some ⟨(rows.length - 1 : ℕ), 1, seeks⟩
    else
      -- flag = 0 sets the pointer, not the flag
      (searchLoop rows searchTime fuel 0 (rows.length - 1)).map fun r => ⟨r.1, flag, seeks ++ r.2⟩
  | _, _ => some ⟨-1, flag, []⟩

/-- start_time_ms of row i -/
def startTime (rows : List CameraRow) (i : ℕ) : ℤ := (rows.map (·.startTimeMs)).getD i 0

/-- the start_time_ms column is nondecreasing -/
def SortedRows (rows : List CameraRow) : Prop := rows.Pairwise fun a b => a.startTimeMs ≤ b.startTimeMs

/-- row i is the lower bound of a time: the time itself, or the first row after it -/
def LowerBound (rows : List CameraRow) (searchTime : ℤ) (i : ℕ) : Prop :=
  i < rows.length ∧ searchTime ≤ startTime rows i ∧
    (startTime rows i = searchTime ∨ 0 < i ∧ startTime rows (i - 1) < searchTime)

theorem getElem?_startTime {rows : List CameraRow} {i : ℕ} (h : i < rows.length) :
    ∃ row, rows[i]? = some row ∧ row.startTimeMs = startTime rows i := by
  refine ⟨rows[i], List.getElem?_eq_getElem h, ?_⟩
  simp [startTime, h]

theorem SortedRows.mono {rows : List CameraRow} (hs : SortedRows rows) {i j : ℕ} (hij : i ≤ j) (hj : j < rows.length) :
    startTime rows i ≤ startTime rows j := by
  obtain rfl | hlt := hij.eq_or_lt
  · exact le_rfl
  · have h := List.pairwise_iff_getElem.1 hs i j (hlt.trans hj) hj hlt
    simpa [startTime, hj, hlt.trans hj] using h

/-- the loop between two rows around the time: the width shrinks in every round, and the time stays between them -/
theorem searchLoop_lowerBound {rows : List CameraRow} {searchTime : ℤ} (fuel rowStart rowEnd : ℕ)
    (hfuel : rowEnd - rowStart < fuel) (hle : rowStart ≤ rowEnd) (hend : rowEnd < rows.length)
    (hlo : startTime rows rowStart ≤ searchTime) (hhi : searchTime ≤ startTime rows rowEnd) :
    ∃ (i : ℕ) (seeks : List ℕ), searchLoop rows searchTime fuel rowStart rowEnd = some (↑i, seeks) ∧
      LowerBound rows searchTime i ∧ ∀ k ∈ seeks, k < rows.length := by
  induction fuel generalizing rowStart rowEnd with
  | zero => omega
  | succ fuel ih =>
    set average := (rowStart + rowEnd) / 2 with havg
    have hin : average < rows.length := by omega
    obtain ⟨row, hrow, htime⟩ := getElem?_startTime hin
    have hseek : ∀ k ∈ [average], k < rows.length := fun k hk => List.mem_singleton.1 hk ▸ hin
    simp only [searchLoop, ← havg, hrow, htime]
    by_cases hwide : rowEnd - rowStart > 1
    · rw [if_pos hwide]
      obtain hlt | heq | hgt := lt_trichotomy searchTime (startTime rows average)
      · obtain ⟨i, seeks, hrun, hi, hk⟩ := ih rowStart average (by omega) (by omega) hin hlo hlt.le
        refine ⟨i, average :: seeks, by rw [if_pos hlt, hrun]; rfl, hi, ?_⟩
        exact List.forall_mem_cons.2 ⟨hin, hk⟩
      · refine ⟨average, [average], ?_, ⟨hin, heq.le, Or.inl heq.symm⟩, hseek⟩
        rw [if_neg heq.not_lt, if_neg heq.symm.not_lt]
      · obtain ⟨i, seeks, hrun, hi, hk⟩ := ih average rowEnd (by omega) (by omega) hend hgt.le hhi
        refine ⟨i, average :: seeks, by rw [if_neg hgt.not_gt, if_pos hgt, hrun]; rfl, hi, ?_⟩
        exact List.forall_mem_cons.2 ⟨hin, hk⟩
    · -- adjacent or equal ends: the middle is row_start
      have hmid : average = rowStart := by omega
      rw [if_neg hwide, hmid]
      by_cases hle' : searchTime ≤ startTime rows rowStart
      · refine ⟨rowStart, [rowStart], if_pos hle', ?_, hmid ▸ hseek⟩
        exact ⟨hmid ▸ hin, hle', Or.inl (le_antisymm hlo hle')⟩
      · have hnext : rowEnd = rowStart + 1 := by
          have : rowStart ≠ rowEnd := by
            rintro rfl
            exact hle' hhi
          omega
        refine ⟨rowEnd, [rowStart], if_neg hle', ?_, hmid ▸ hseek⟩
        refine ⟨hend, hhi, Or.inr ⟨by omega, ?_⟩⟩
        rw [hnext, Nat.add_sub_cancel]
        exact not_le.1 hle'

/-- what a search returns on a table with a first and a last row -/
theorem search_cases {rows : List CameraRow} (hne : rows ≠ []) (fuel : ℕ) (searchTime flag : ℤ) :
    searchClosestTimeFromDB fuel rows searchTime flag =
      if searchTime < startTime rows 0 then some ⟨0, -1, [0, rows.length - 1]⟩
      else if startTime rows (rows.length - 1) < searchTime then
        some ⟨(rows.length - 1 : ℕ), 1, [0, rows.length - 1]⟩
      else (searchLoop rows searchTime fuel 0 (rows.length - 1)).map
        fun r => ⟨r.1, flag, [0, rows.length - 1] ++ r.2⟩ := by
  have hpos : 0 < rows.length := List.length_pos_iff.2 hne
  obtain ⟨first, hfirst, h0⟩ := getElem?_startTime hpos
  obtain ⟨last, hlast, h1⟩ := getElem?_startTime (Nat.sub_lt hpos one_pos)
  simp only [searchClosestTimeFromDB, hfirst, hlast, h0, h1, gt_iff_lt]

theorem ends_lt {rows : List CameraRow} (hne : rows ≠ []) : ∀ k ∈ [0, rows.length - 1], k < rows.length := by
  have hpos : 0 < rows.length := List.length_pos_iff.2 hne
  intro k hk
  rcases List.mem_pair.1 hk with rfl | rfl
  · exact hpos
  · exact Nat.sub_lt hpos one_pos

/-- a time between the first and the last start: the lower bound, and the flag as it was -/
theorem search_inside {rows : List CameraRow} {searchTime : ℤ} (hne : rows ≠ [])
    (hlo : startTime rows 0 ≤ searchTime) (hhi : searchTime ≤ startTime rows (rows.length - 1)) {fuel : ℕ}
    (hfuel : rows.length ≤ fuel) (flag : ℤ) :
    ∃ (i : ℕ) (seeks : List ℕ), searchClosestTimeFromDB fuel rows searchTime flag = some ⟨i, flag, seeks⟩ ∧
      LowerBound rows searchTime i ∧ ∀ k ∈ seeks, k < rows.length := by
  have hpos : 0 < rows.length := List.length_pos_iff.2 hne
  obtain ⟨i, seeks, hrun, hi, hk⟩ :=
    searchLoop_lowerBound fuel 0 (rows.length - 1) (by omega) (Nat.zero_le _) (by omega) hlo hhi
  refine ⟨i, [0, rows.length - 1] ++ seeks, ?_, hi, ?_⟩
  · rw [search_cases hne, if_neg hlo.not_gt, if_neg hhi.not_gt, hrun]
    rfl
  · intro k hmem
    rcases List.mem_append.1 hmem with hmem | hmem
    · exact ends_lt hne k hmem
    · exact hk k hmem

/-- **The bisection is a lower-bound search.** On every non-empty table in nondecreasing order of start time it ends,
seeks only rows of the table, and returns 0 for a time before the first row, the last index for a time after the last
row, and otherwise a row that is the lower bound of the time. -/
theorem search_lower_bound (rows : List CameraRow) (hne : rows ≠ []) (hsorted : SortedRows rows) (searchTime flag : ℤ)
    (fuel : ℕ) (hfuel : rows.length ≤ fuel) :
    ∃ r, searchClosestTimeFromDB fuel rows searchTime flag = some r ∧
      (∀ k ∈ r.seeks, k < rows.length) ∧
      (searchTime < startTime rows 0 → r.searchRet = 0) ∧
      (startTime rows (rows.length - 1) < searchTime → r.searchRet = (rows.length - 1 : ℕ)) ∧
      (startTime rows 0 ≤ searchTime → searchTime ≤ startTime rows (rows.length - 1) →
        ∃ i : ℕ, r.searchRet = i ∧ LowerBound rows searchTime i) := by
  have hends : startTime rows 0 ≤ startTime rows (rows.length - 1) :=
    hsorted.mono (Nat.zero_le _) (ends_lt hne _ (by simp))
  rcases lt_or_ge searchTime (startTime rows 0) with hlt | hlo
  · refine ⟨_, by rw [search_cases hne, if_pos hlt], ends_lt hne, fun _ => rfl, fun h => ?_, fun h => ?_⟩
    · exact absurd (hlt.trans_le hends) h.not_gt
    · exact absurd hlt h.not_gt
  rcases lt_or_ge (startTime rows (rows.length - 1)) searchTime with hgt | hhi
  · have hrun := search_cases hne fuel searchTime flag
    rw [if_neg hlo.not_gt, if_pos hgt] at hrun
    refine ⟨_, hrun, ends_lt hne, fun h => ?_, fun _ => rfl, fun _ h => ?_⟩
    · exact absurd h hlo.not_gt
    · exact absurd hgt h.not_gt
  · obtain ⟨i, seeks, hrun, hi, hk⟩ := search_inside hne hlo hhi hfuel flag
    refine ⟨_, hrun, hk, fun h => absurd h hlo.not_gt, fun h => absurd h hhi.not_gt, fun _ _ => ⟨i, rfl, hi⟩⟩

/-- a row with no file, started at time t -/
def rowAt (t : ℤ) : CameraRow := ⟨⟨[], [], [], []⟩, t⟩

theorem search_lower_bound_duplicates :
    ∃ r, searchClosestTimeFromDB 5 ([10, 20, 20, 20, 40].map rowAt) 20 0 = some r ∧
      ∃ i : ℕ, r.searchRet = i ∧ LowerBound ([10, 20, 20, 20, 40].map rowAt) 20 i := by
  obtain ⟨r, hr, -, -, -, hi⟩ := search_lower_bound ([10, 20, 20, 20, 40].map rowAt) (by decide)
    (by unfold SortedRows; decide) 20 0 5 (by decide)
  exact ⟨r, hr, hi (by decide) (by decide)⟩

/-! ## Dates -/

/-- the fields of `struct tm` that a date sets -/
structure DateTm where
  tmYear : ℤ
  tmMon : ℤ
  tmMday : ℤ
  tmHour : ℤ
  tmMin : ℤ
  tmSec : ℤ
deriving DecidableEq

/-- the loop of `ExtraStr`: the cut so far and the cuts pushed -/
def extraStrLoop (ch : List UInt8) : Str → Str → List Str → List Str
  | [], strCut, out => if strCut = [] then out else out ++ [strCut]
  | c :: rest, strCut, out =>
    if c ∈ ch then extraStrLoop ch rest [] (if strCut = [] then out else out ++ [strCut])
    else extraStrLoop ch rest (strCut ++ [c]) out

/-- `ExtraStr` -/
def extraStr (str : Str) (ch : List UInt8) : List Str := extraStrLoop ch str [] []

def isDigit (c : UInt8) : Bool := 48 ≤ c && c ≤ 57

/-- the number that digits write -/
def digitsValue (digits : Str) : ℕ := digits.foldl (fun n c => 10 * n + (c.toNat - 48)) 0

/-- std::stoi; `none` is an exception, which nobody catches -/
def stoi (s : Str) : Option ℤ :=
  let s := s.dropWhile fun c => c = 32 || (9 ≤ c && c ≤ 13)
  let digits := (if s.head? = some 45 ∨ s.head? = some 43 then s.tail else s).takeWhile isDigit
  let value : ℤ := if s.head? = some 45 then -digitsValue digits else digitsValue digits
  if digits = [] ∨ value < -2 ^ 31 ∨ 2 ^ 31 ≤ value then none else some value

/-- `TranslateToStructTM`; the inner `none` is the return value -1 -/
def translateToStructTM (dateTime : Str) : Option (Option DateTm) :=
  match extraStr dateTime (bytes "- :") with
  | e0 :: e1 :: e2 :: e3 :: e4 :: e5 :: _ => do
    let year ← stoi e0
    let mon ← stoi e1
    let mday ← stoi e2
    let hour ← stoi e3
    let min ← stoi e4
    let sec ← stoi e5
    let result : DateTm := ⟨year - 1900, mon - 1, mday, hour, min, sec⟩
    if result.tmYear < 0 then some none
    else if result.tmMon < 0 ∨ 11 < result.tmMon then some none
    else if result.tmMday < 0 ∨ 31 < result.tmMday then some none
    else if result.tmHour < 0 ∨ 24 < result.tmHour then some none
    else if result.tmMin < 0 ∨ 60 < result.tmMin then some none
    else if result.tmSec < 0 ∨ 60 < result.tmSec then some none
    else some (some result)
  | _ => some none

/-! ## The query -/

/-- the loop of `GetStoreInfoFromDB` over the rows from the one sought on; a row that is not there returns -1 -/
def fetchRows : List CameraRow → ℕ → ℕ → ℤ × List MysqlStoreInfo
  | [], cntIdx, endIdx => (if cntIdx ≤ endIdx then -1 else 0, [])
  | row :: rest, cntIdx, endIdx =>
    if cntIdx ≤ endIdx then
      ((fetchRows rest (cntIdx + 1) endIdx).1, row.toMysqlStoreInfo :: (fetchRows rest (cntIdx + 1) endIdx).2)
    else (0, [])

/-- `GetStoreInfoFromDB` -/
def getStoreInfoFromDB (rows : List CameraRow) (startIdx endIdx : ℕ) : ℤ × List MysqlStoreInfo :=
  fetchRows (rows.drop startIdx) startIdx endIdx

/-- what a query returns, the error it sets and the rows it pushes -/
structure Query where
  ret : ℤ
  error : Option ErrorNo
  result : List MysqlStoreInfo
deriving DecidableEq

/-- `QueryInfoByDate` after the dates are translated; the flags are what they hold before the searches -/
def queryRange (rows : List CameraRow) (startSec endSec startFlag endFlag : ℤ) : Option Query := do
  let s ← searchClosestTimeFromDB rows.length rows startSec startFlag
  let e ← searchClosestTimeFromDB rows.length rows endSec endFlag
  if s.searchRet < 0 ∨ e.searchRet < 0 then some ⟨1, none, []⟩
  else if s.flag < 0 ∧ e.flag < 0 then some ⟨-1, some .doNotFindRecFiles, []⟩
  else if s.flag > 0 ∧ e.flag > 0 then some ⟨-1, some .doNotFindRecFiles, []⟩
  else
    let r := getStoreInfoFromDB rows s.searchRet.toNat e.searchRet.toNat
    some ⟨r.1, none, r.2⟩

/-- the variables of `QueryInfoByDate` that hold what the stack held -/
structure Stack where
  /-- `date_start.tm_isdst` -/
  startIsdst : ℤ
  /-- `date_end.tm_isdst` -/
  endIsdst : ℤ
  startFlag : ℤ
  endFlag : ℤ

/-- `QueryInfoByDate`; `mktime` takes the fields of a date and tm_isdst -/
def queryInfoByDate (mktime : DateTm → ℤ → ℤ) (rows : List CameraRow) (start stop : Str) (stack : Stack) :
    Option Query := do
  match ← translateToStructTM start with
  | none => some ⟨-1, none, []⟩
  | some dateStart =>
    match ← translateToStructTM stop with
    | none => some ⟨-1, none, []⟩
    | some dateEnd =>
      queryRange rows (mktime dateStart stack.startIsdst) (mktime dateEnd stack.endIsdst) stack.startFlag stack.endFlag

/-- the rows of a range of times -/
def rowsIn (rows : List CameraRow) (startSec endSec : ℤ) : List MysqlStoreInfo :=
  (rows.filter fun r => startSec ≤ r.startTimeMs ∧ r.startTimeMs ≤ endSec).map (·.toMysqlStoreInfo)

/-- what the query is for: the rows of the range, or an error if there are none -/
def rangeAnswer (rows : List CameraRow) (startSec endSec : ℤ) : Query :=
  if rowsIn rows startSec endSec = [] then ⟨-1, some .doNotFindRecFiles, []⟩
  else ⟨0, none, rowsIn rows startSec endSec⟩

/-- the table has a row, and the time lies before all start times or after all of them -/
def OffTable (rows : List CameraRow) (t : ℤ) : Prop :=
  rows ≠ [] ∧ (t < startTime rows 0 ∨ startTime rows (rows.length - 1) < t)

instance (rows : List CameraRow) (t : ℤ) : Decidable (OffTable rows t) :=
  inferInstanceAs (Decidable (_ ∧ _))

/-- the time of a date lies off the table, and on the same side whatever tm_isdst holds -/
def Settled (rows : List CameraRow) (sec : ℤ → ℤ) : Prop :=
  rows ≠ [] ∧ ((∀ isdst, sec isdst < startTime rows 0) ∨ ∀ isdst, startTime rows (rows.length - 1) < sec isdst)

/-- the flag after a search: only a time off the table sets it -/
def flagAfter (rows : List CameraRow) (t flag : ℤ) : ℤ :=
  if t < startTime rows 0 then -1 else if startTime rows (rows.length - 1) < t then 1 else flag

theorem flagAfter_inside {rows : List CameraRow} {t : ℤ} (hne : rows ≠ []) (h : ¬ OffTable rows t) (flag : ℤ) :
    flagAfter rows t flag = flag := by
  have hin : ¬ (t < startTime rows 0 ∨ startTime rows (rows.length - 1) < t) := fun hoff => h ⟨hne, hoff⟩
  rw [not_or] at hin
  rw [flagAfter, if_neg hin.1, if_neg hin.2]

theorem search_flag {rows : List CameraRow} (hne : rows ≠ []) (t flag : ℤ) :
    ∃ (i : ℕ) (seeks : List ℕ),
      searchClosestTimeFromDB rows.length rows t flag = some ⟨i, flagAfter rows t flag, seeks⟩ := by
  rw [flagAfter]
  rcases lt_or_ge t (startTime rows 0) with hlt | hlo
  · exact ⟨0, _, by rw [search_cases hne, if_pos hlt, if_pos hlt]; rfl⟩
  rcases lt_or_ge (startTime rows (rows.length - 1)) t with hgt | hhi
  · rw [if_neg hlo.not_gt, if_pos hgt]
    exact ⟨_, _, by rw [search_cases hne, if_neg hlo.not_gt, if_pos hgt]⟩
  · obtain ⟨i, seeks, hrun, -⟩ := search_inside hne hlo hhi le_rfl flag
    rw [if_neg hlo.not_gt, if_neg hhi.not_gt]
    exact ⟨i, seeks, hrun⟩

/-- the two flags say that the range lies off the table -/
def BothOff (f g : ℤ) : Prop := f < 0 ∧ g < 0 ∨ f > 0 ∧ g > 0

/-- the error of a query is decided by the two flags alone -/
theorem queryRange_error {rows : List CameraRow} (hne : rows ≠ []) (startSec endSec startFlag endFlag : ℤ) :
    ∃ q, queryRange rows startSec endSec startFlag endFlag = some q ∧
      (q.error ≠ none ↔ BothOff (flagAfter rows startSec startFlag) (flagAfter rows endSec endFlag)) := by
  obtain ⟨i, seeks, hs⟩ := search_flag hne startSec startFlag
  obtain ⟨j, seeks', he⟩ := search_flag hne endSec endFlag
  simp only [queryRange, hs, he, Option.bind_eq_bind, Option.bind_some, BothOff]
  have hidx : ¬ ((i : ℤ) < 0 ∨ (j : ℤ) < 0) := by omega
  rw [if_neg hidx]
  split_ifs with hneg hpos
  · exact ⟨_, rfl, iff_of_true (Option.some_ne_none _) (Or.inl hneg)⟩
  · exact ⟨_, rfl, iff_of_true (Option.some_ne_none _) (Or.inr hpos)⟩
  · exact ⟨_, rfl, iff_of_false (fun h => h rfl) (not_or.2 ⟨hneg, hpos⟩)⟩

theorem flagAfter_sign (rows : List CameraRow) (t : ℤ) : flagAfter rows t (-1) < 0 ∨ flagAfter rows t (-1) > 0 := by
  unfold flagAfter
  split_ifs <;> decide

/-- a date inside the table: its flag decides whether the query finds anything -/
theorem queryRange_depends {rows : List CameraRow} (hne : rows ≠ []) {startSec endSec : ℤ}
    (h : ¬ (OffTable rows startSec ∧ OffTable rows endSec)) (a : Query) :
    ∃ f g, queryRange rows startSec endSec f g ≠ some a := by
  by_contra hall
  push Not at hall
  have herr : ∀ f g, a.error ≠ none ↔ BothOff (flagAfter rows startSec f) (flagAfter rows endSec g) := by
    intro f g
    obtain ⟨q, hq, herr⟩ := queryRange_error hne startSec endSec f g
    rwa [Option.some.inj ((hall f g).symm.trans hq)]
  -- flags 0: found; the sign of the other flag: not found
  have hfound : a.error = none := by
    by_contra hne'
    have h00 := (herr 0 0).1 hne'
    rcases not_and_or.1 h with hin | hin
    · rw [flagAfter_inside hne hin] at h00
      rcases h00 with h00 | h00 <;> exact lt_irrefl 0 h00.1
    · rw [flagAfter_inside hne hin] at h00
      rcases h00 with h00 | h00 <;> exact lt_irrefl 0 h00.2
  rcases not_and_or.1 h with hin | hin
  · refine (herr (flagAfter rows endSec (-1)) (-1)).2 ?_ hfound
    rw [flagAfter_inside hne hin]
    exact (flagAfter_sign rows endSec).imp (fun h => ⟨h, h⟩) (fun h => ⟨h, h⟩)
  · refine (herr (-1) (flagAfter rows startSec (-1))).2 ?_ hfound
    rw [flagAfter_inside hne hin]
    exact (flagAfter_sign rows startSec).imp (fun h => ⟨h, h⟩) (fun h => ⟨h, h⟩)

theorem fetchRows_all (rows : List CameraRow) (cntIdx endIdx : ℕ) (h : endIdx + 1 = cntIdx + rows.length) :
    fetchRows rows cntIdx endIdx = (0, rows.map (·.toMysqlStoreInfo)) := by
  induction rows generalizing cntIdx with
  | nil =>
    have hlt : ¬ cntIdx ≤ endIdx := by simp only [List.length_nil] at h; omega
    rw [fetchRows, if_neg hlt]
    rfl
  | cons row rows ih =>
    have hle : cntIdx ≤ endIdx := by simp only [List.length_cons] at h; omega
    rw [fetchRows, if_pos hle, ih (cntIdx + 1) (by simp only [List.length_cons] at h; omega)]
    rfl

theorem SortedRows.between {rows : List CameraRow} (hs : SortedRows rows) {r : CameraRow} (hr : r ∈ rows) :
    startTime rows 0 ≤ r.startTimeMs ∧ r.startTimeMs ≤ startTime rows (rows.length - 1) := by
  obtain ⟨i, hi, rfl⟩ := List.getElem_of_mem hr
  have htime : startTime rows i = rows[i].startTimeMs := by simp [startTime, hi]
  rw [← htime]
  exact ⟨hs.mono (Nat.zero_le i) hi, hs.mono (by omega) (by omega)⟩

/-- no row in a range that lies before the first row or after the last -/
theorem rowsIn_nil {rows : List CameraRow} (hs : SortedRows rows) {startSec endSec : ℤ}
    (h : endSec < startTime rows 0 ∨ startTime rows (rows.length - 1) < startSec) :
    rowsIn rows startSec endSec = [] := by
  rw [rowsIn, List.map_eq_nil_iff, List.filter_eq_nil_iff]
  intro r hr hin
  obtain ⟨hlo, hhi⟩ := hs.between hr
  have := of_decide_eq_true hin
  omega

theorem rowsIn_all {rows : List CameraRow} (hs : SortedRows rows) {startSec endSec : ℤ}
    (hlo : startSec < startTime rows 0) (hhi : startTime rows (rows.length - 1) < endSec) :
    rowsIn rows startSec endSec = rows.map (·.toMysqlStoreInfo) := by
  rw [rowsIn, List.filter_eq_self.2]
  intro r hr
  obtain ⟨h0, h1⟩ := hs.between hr
  exact decide_eq_true ⟨by omega, by omega⟩

/-- both dates off the table, and not around it the wrong way: the answer is all the rows or none -/
theorem queryRange_offTable {rows : List CameraRow} (hs : SortedRows rows) {startSec endSec : ℤ}
    (horder : startSec < startTime rows 0 ∨ startTime rows (rows.length - 1) < endSec)
    (hstart : OffTable rows startSec) (hend : OffTable rows endSec) (startFlag endFlag : ℤ) :
    queryRange rows startSec endSec startFlag endFlag = some (rangeAnswer rows startSec endSec) := by
  have hne := hstart.1
  have hends : startTime rows 0 ≤ startTime rows (rows.length - 1) := hs.mono (Nat.zero_le _) (ends_lt hne _ (by simp))
  simp only [queryRange, search_cases hne, rangeAnswer]
  rcases hstart.2 with hs0 | hs1
  · rcases hend.2 with he0 | he1
    · rw [rowsIn_nil hs (Or.inl he0), if_pos hs0, if_pos he0]
      rfl
    · have hne' : rows.map (·.toMysqlStoreInfo) ≠ [] := by simpa using hne
      have hlen := List.length_pos_iff.2 hne
      have hfetch := fetchRows_all rows 0 (rows.length - 1) (by omega)
      rw [rowsIn_all hs hs0 he1, if_pos hs0, if_neg (by omega), if_pos he1, if_neg hne']
      simp [getStoreInfoFromDB, hfetch]
  · have he1 := horder.resolve_left (hends.trans hs1.le).not_gt
    rw [rowsIn_nil hs (Or.inr hs1), if_neg (by omega), if_pos hs1, if_neg (by omega), if_pos he1]
    have hidx : ¬ (((rows.length - 1 : ℕ) : ℤ) < 0) := by omega
    simp [hidx]

theorem Settled.offTable {rows : List CameraRow} {sec : ℤ → ℤ} (h : Settled rows sec) (isdst : ℤ) :
    OffTable rows (sec isdst) :=
  ⟨h.1, h.2.imp (fun h => h isdst) (fun h => h isdst)⟩

/-- settled dates have the same rows between them whatever tm_isdst holds -/
theorem rowsIn_settled {rows : List CameraRow} (hsorted : SortedRows rows) {startSec endSec : ℤ → ℤ}
    (hstart : Settled rows startSec) (hend : Settled rows endSec) (i j : ℤ) :
    rowsIn rows (startSec i) (endSec j) = rowsIn rows (startSec (-1)) (endSec (-1)) := by
  rcases hstart.2 with hs | hs
  · rcases hend.2 with he | he
    · rw [rowsIn_nil hsorted (Or.inl (he j)), rowsIn_nil hsorted (Or.inl (he (-1)))]
    · rw [rowsIn_all hsorted (hs i) (he j), rowsIn_all hsorted (hs (-1)) (he (-1))]
  · rw [rowsIn_nil hsorted (Or.inr (hs i)), rowsIn_nil hsorted (Or.inr (hs (-1)))]

theorem queryRange_settled {rows : List CameraRow} (hsorted : SortedRows rows) {startSec endSec : ℤ → ℤ}
    (hle : startSec (-1) ≤ endSec (-1)) (hstart : Settled rows startSec) (hend : Settled rows endSec) (i j f g : ℤ) :
    queryRange rows (startSec i) (endSec j) f g = some (rangeAnswer rows (startSec (-1)) (endSec (-1))) := by
  have horder : startSec i < startTime rows 0 ∨ startTime rows (rows.length - 1) < endSec j := by
    rcases hstart.2 with hs | hs
    · exact Or.inl (hs i)
    · rcases hend.2 with he | he
      · have hends : startTime rows 0 ≤ startTime rows (rows.length - 1) :=
          hsorted.mono (Nat.zero_le _) (ends_lt hstart.1 _ (by simp))
        exact absurd ((hs (-1)).trans_le (hle.trans ((he (-1)).le.trans hends))) (lt_irrefl _)
      · exact Or.inr (he j)
  rw [queryRange_offTable hsorted horder (hstart.offTable i) (hend.offTable j) f g, rangeAnswer,
    rowsIn_settled hsorted hstart hend]
  rfl

/-- on which side of the table a time lies is all that the flag says -/
theorem flagAfter_offTable {rows : List CameraRow} {t : ℤ} (h : OffTable rows t) (flag : ℤ) :
    flagAfter rows t flag = flagAfter rows t 1 := by
  rw [flagAfter, flagAfter]
  rcases h.2 with hlt | hgt
  · rw [if_pos hlt, if_pos hlt]
  · rw [if_pos hgt, if_pos hgt]

theorem flagAfter_one (rows : List CameraRow) (t : ℤ) : flagAfter rows t 1 = -1 ∨ flagAfter rows t 1 = 1 := by
  unfold flagAfter
  split_ifs <;> decide

/-- the error of a query tells whether both times lie on the same side -/
theorem queryRange_sides {rows : List CameraRow} {startSec endSec : ℤ} (hstart : OffTable rows startSec)
    (hend : OffTable rows endSec) {a : Query} (h : queryRange rows startSec endSec 0 0 = some a) :
    a.error ≠ none ↔ flagAfter rows startSec 1 = flagAfter rows endSec 1 := by
  obtain ⟨q, hq, herr⟩ := queryRange_error hstart.1 startSec endSec 0 0
  rw [Option.some.inj (h.symm.trans hq), herr, BothOff, flagAfter_offTable hstart, flagAfter_offTable hend]
  rcases flagAfter_one rows startSec with hs | hs <;> rcases flagAfter_one rows endSec with he | he <;>
    rw [hs, he] <;> decide

/-- a time that is off the table with every tm_isdst, and on the side that the flag says -/
theorem settled_of_flag {rows : List CameraRow} {sec : ℤ → ℤ} (hoff : ∀ isdst, OffTable rows (sec isdst))
    (hside : ∀ isdst, flagAfter rows (sec isdst) 1 = flagAfter rows (sec (-1)) 1) : Settled rows sec := by
  refine ⟨(hoff (-1)).1, ?_⟩
  by_cases hlt : sec (-1) < startTime rows 0
  · have hflag : flagAfter rows (sec (-1)) 1 = -1 := if_pos hlt
    refine Or.inl fun isdst => ?_
    by_contra hge
    have hone : flagAfter rows (sec isdst) 1 = 1 := by
      rw [flagAfter, if_neg hge, ite_self]
    rw [hside, hflag] at hone
    cases hone
  · have hflag : flagAfter rows (sec (-1)) 1 = 1 := by rw [flagAfter, if_neg hlt, ite_self]
    refine Or.inr fun isdst => (hoff isdst).2.resolve_left fun hbefore => ?_
    have hminus : flagAfter rows (sec isdst) 1 = -1 := if_pos hbefore
    rw [hside, hflag] at hminus
    cases hminus

/-- one answer for all contents of the flags and of tm_isdst: both dates are off the table for good -/
theorem settled_of_constant {rows : List CameraRow} (hne : rows ≠ []) {startSec endSec : ℤ → ℤ} {a : Query}
    (h : ∀ i j f g, queryRange rows (startSec i) (endSec j) f g = some a) :
    Settled rows startSec ∧ Settled rows endSec := by
  have hoff : ∀ i j, OffTable rows (startSec i) ∧ OffTable rows (endSec j) := by
    intro i j
    by_contra hin
    obtain ⟨f, g, hfg⟩ := queryRange_depends hne hin a
    exact hfg (h i j f g)
  -- the error does not change, so neither end changes sides
  have hsame : ∀ i j, flagAfter rows (startSec i) 1 = flagAfter rows (endSec j) 1 ↔
      flagAfter rows (startSec (-1)) 1 = flagAfter rows (endSec (-1)) 1 := by
    intro i j
    rw [← queryRange_sides (hoff i j).1 (hoff i j).2 (h i j 0 0),
      ← queryRange_sides (hoff (-1) (-1)).1 (hoff (-1) (-1)).2 (h (-1) (-1) 0 0)]
  refine ⟨settled_of_flag (fun i => (hoff i (-1)).1) fun i => ?_,
    settled_of_flag (fun j => (hoff (-1) j).2) fun j => ?_⟩
  · have hiff := hsame i (-1)
    have h1 := flagAfter_one rows (startSec i)
    have h2 := flagAfter_one rows (startSec (-1))
    have h3 := flagAfter_one rows (endSec (-1))
    omega
  · have hiff := hsame (-1) j
    have h1 := flagAfter_one rows (endSec j)
    have h2 := flagAfter_one rows (endSec (-1))
    have h3 := flagAfter_one rows (startSec (-1))
    omega

/-- **A date query is right off the table only.** For every table in nondecreasing order of start time and valid dates
of a range, the query answers with exactly the rows of the range, whatever the stack held before, iff the table has a
row and each date lies, with every tm_isdst, before the first start time or, with every one, after the last. -/
theorem query_by_date_iff (mktime : DateTm → ℤ → ℤ) (rows : List CameraRow) (hsorted : SortedRows rows)
    (start stop : Str) (dateStart dateEnd : DateTm) (hstart : translateToStructTM start = some (some dateStart))
    (hstop : translateToStructTM stop = some (some dateEnd)) (hle : mktime dateStart (-1) ≤ mktime dateEnd (-1)) :
    (∀ stack, queryInfoByDate mktime rows start stop stack =
      some (rangeAnswer rows (mktime dateStart (-1)) (mktime dateEnd (-1)))) ↔
    Settled rows (mktime dateStart) ∧ Settled rows (mktime dateEnd) := by
  have hquery : ∀ stack, queryInfoByDate mktime rows start stop stack = queryRange rows
      (mktime dateStart stack.startIsdst) (mktime dateEnd stack.endIsdst) stack.startFlag stack.endFlag := by
    intro stack
    simp only [queryInfoByDate, hstart, hstop, Option.bind_eq_bind, Option.bind_some]
  constructor
  · intro hall
    by_cases hne : rows = []
    · have h := hall ⟨0, 0, 0, 0⟩
      rw [hquery, hne] at h
      have hret : (1 : ℤ) = -1 := congrArg Query.ret (Option.some.inj h)
      exact absurd hret (by decide)
    · exact settled_of_constant hne fun i j f g => (hquery ⟨i, j, f, g⟩).symm.trans (hall ⟨i, j, f, g⟩)
  · rintro ⟨hs, he⟩ stack
    rw [hquery]
    exact queryRange_settled hsorted hle hs he _ _ _ _

/-- `mktime` on the dates of one day; in summer time an hour less -/
def secondOfDay (d : DateTm) (isdst : ℤ) : ℤ :=
  3600 * d.tmHour + 60 * d.tmMin + d.tmSec - if 0 < isdst then 3600 else 0

/-- a recording of which only the name is known -/
def namedRow (t : ℤ) (name : String) : CameraRow := ⟨⟨bytes name, [], [], []⟩, t⟩

def threeRows : List CameraRow := [namedRow 10 "a", namedRow 20 "b", namedRow 30 "c"]

/-- a range around all rows, with an hour to spare, and two contents of the stack -/
theorem query_by_date_covering :
    queryInfoByDate secondOfDay threeRows (bytes "2020-01-01 00:00:05") (bytes "2020-01-01 02:00:00") ⟨0, 0, 0, 0⟩ =
        some (rangeAnswer threeRows 5 7200) ∧
      queryInfoByDate secondOfDay threeRows (bytes "2020-01-01 00:00:05") (bytes "2020-01-01 02:00:00")
        ⟨1, 1, -1, -1⟩ = some (rangeAnswer threeRows 5 7200) := by
  have hstart : Settled threeRows (secondOfDay ⟨120, 0, 1, 0, 0, 5⟩) := by
    refine ⟨by decide, Or.inl fun isdst => ?_⟩
    change 3600 * 0 + 60 * 0 + 5 - (if 0 < isdst then 3600 else 0) < (10 : ℤ)
    split_ifs <;> decide
  have hend : Settled threeRows (secondOfDay ⟨120, 0, 1, 2, 0, 0⟩) := by
    refine ⟨by decide, Or.inr fun isdst => ?_⟩
    change (30 : ℤ) < 3600 * 2 + 60 * 0 + 0 - (if 0 < isdst then 3600 else 0)
    split_ifs <;> decide
  have hquery := (query_by_date_iff secondOfDay threeRows (by unfold SortedRows; decide) (bytes "2020-01-01 00:00:05")
    (bytes "2020-01-01 02:00:00") ⟨120, 0, 1, 0, 0, 5⟩ ⟨120, 0, 1, 2, 0, 0⟩ (by decide +kernel) (by decide +kernel)
    (by decide)).2 ⟨hstart, hend⟩
  exact ⟨hquery ⟨0, 0, 0, 0⟩, hquery ⟨1, 1, -1, -1⟩⟩

/-- three rows at 10, 20 and 30: the range 10..20 is reported as not found when the flags happen to be negative; with
flags 0 the range 21..25, without a row, yields the row at 30, and 10..25 yields it too; the empty table gives 1; the
range 5..60 is reported as not found when the second tm_isdst happens to be 1 -/
theorem query_between :
    queryInfoByDate secondOfDay threeRows (bytes "2020-01-01 00:00:10") (bytes "2020-01-01 00:00:20") ⟨0, 0, -1, -1⟩ =
      some ⟨-1, some .doNotFindRecFiles, []⟩ ∧
    rowsIn threeRows 10 20 = [⟨bytes "a", [], [], []⟩, ⟨bytes "b", [], [], []⟩] ∧
    queryInfoByDate secondOfDay threeRows (bytes "2020-01-01 00:00:21") (bytes "2020-01-01 00:00:25") ⟨0, 0, 0, 0⟩ =
      some ⟨0, none, [⟨bytes "c", [], [], []⟩]⟩ ∧
    rowsIn threeRows 21 25 = [] ∧
    queryInfoByDate secondOfDay threeRows (bytes "2020-01-01 00:00:10") (bytes "2020-01-01 00:00:25") ⟨0, 0, 0, 0⟩ =
      some ⟨0, none, [⟨bytes "a", [], [], []⟩, ⟨bytes "b", [], [], []⟩, ⟨bytes "c", [], [], []⟩]⟩ ∧
    queryInfoByDate secondOfDay [] (bytes "2020-01-01 00:00:10") (bytes "2020-01-01 00:00:20") ⟨0, 0, 0, 0⟩ =
      some ⟨1, none, []⟩ ∧
    queryInfoByDate secondOfDay threeRows (bytes "2020-01-01 00:00:05") (bytes "2020-01-01 00:01:00") ⟨0, 1, 0, 0⟩ =
      some ⟨-1, some .doNotFindRecFiles, []⟩ := by
  decide +kernel

end StoreService.Store
