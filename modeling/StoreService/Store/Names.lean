/-
The names of the recordings and the time (`WriteToFileProc`, `GetFirstStoreInfoFromDB`, `MonitorProc`).

Model: `localtimeR` breaks a time down at a fixed UTC offset by the proleptic Gregorian calendar; `nameAt` is the name
that the writer prints for a start time. `LocalTm` is the `struct tm` of `Camera` with a year that may be before 1900.

- `localtimeR_before`: a later time has a later breakdown, field by field.
- `LocalTm.fileName_lt`: with years of four digits, a later breakdown has a later name.
- `newRow_namedFor`: the rows that the writer inserts are named for their start times.
- `fetches_earliest`: names sort by time, so the first name of a table is that of a recording with the smallest start
  time, and it is the one that the monitor fetches, in every state of every run.

Premises: every row is named by its start time, with a local year in 1000..9999; start times of rows are not negative.
-/
import StoreService.Core.Calendar
import StoreService.Core.Numeral
import StoreService.Store.Round

namespace StoreService.Store

open StoreService.Runs StoreService.FileSys StoreService.Calendar StoreService.Numeral

/-! ## The breakdown of a time and its name -/

/-- `struct tm`: years from 1900, months from 0 -/
structure LocalTm where
  tmYear : ℤ
  tmMon : ℕ
  tmMday : ℕ
  tmHour : ℕ
  tmMin : ℕ
  tmSec : ℕ
deriving DecidableEq, Repr

/-- `%4d` -/
def decimalYear (n : ℤ) : List Char :=
  if 0 ≤ n then decimal ' ' 4 n.toNat
  else List.replicate (3 - (Nat.toDigits 10 n.natAbs).length) ' ' ++ '-' :: Nat.toDigits 10 n.natAbs

/-- `"%4d-%02d-%02d %02d:%02d:%02d.store"` -/
def LocalTm.fileName (t : LocalTm) : List Char :=
  decimalYear (t.tmYear + 1900) ++ '-' :: decimal '0' 2 (t.tmMon + 1) ++ '-' :: decimal '0' 2 t.tmMday ++
    ' ' :: decimal '0' 2 t.tmHour ++ ':' :: decimal '0' 2 t.tmMin ++ ':' :: decimal '0' 2 t.tmSec ++ ".store".toList

/-- the local day of a time; 1 January 1970 is day 719162 -/
def localDay (offset t : ℤ) : ℤ := (t + offset) / 86400 + 719162

/-- the local seconds since midnight -/
def localSec (offset t : ℤ) : ℕ := ((t + offset) % 86400).toNat

/-- `localtime_r` at a fixed UTC offset -/
def localtimeR (offset t : ℤ) : LocalTm :=
  let date := dateOf (localDay offset t)
  let sec := localSec offset t
  ⟨date.year - 1900, date.month, date.day, sec / 3600, sec % 3600 / 60, sec % 60⟩

/-- the name of a recording that starts at `t` -/
def nameAt (offset t : ℤ) : List Char := (localtimeR offset t).fileName

/-- the year lies in 1000..9999 -/
def LocalTm.FourDigitYear (t : LocalTm) : Prop := 1000 ≤ t.tmYear + 1900 ∧ t.tmYear + 1900 ≤ 9999

instance (t : LocalTm) : Decidable t.FourDigitYear := inferInstanceAs (Decidable (_ ∧ _))

example : nameAt 28800 1709225999 = "2024-03-01 00:59:59.store".toList := by decide +kernel

/-- the breakdown of `Camera` -/
def LocalTm.ofTm (t : Tm) : LocalTm := ⟨t.tmYear, t.tmMon, t.tmMday, t.tmHour, t.tmMin, t.tmSec⟩

theorem LocalTm.fileName_ofTm (t : Tm) : (LocalTm.ofTm t).fileName = Store.fileName t := rfl

/-! ## A later time has a later breakdown -/

/-- compared field by field, the year first -/
def LocalTm.Before (a b : LocalTm) : Prop :=
  a.tmYear < b.tmYear ∨ a.tmYear = b.tmYear ∧ (a.tmMon < b.tmMon ∨ a.tmMon = b.tmMon ∧
    (a.tmMday < b.tmMday ∨ a.tmMday = b.tmMday ∧ (a.tmHour < b.tmHour ∨ a.tmHour = b.tmHour ∧
      (a.tmMin < b.tmMin ∨ a.tmMin = b.tmMin ∧ a.tmSec < b.tmSec))))

/-- every field but the year has at most two digits -/
structure LocalTm.TwoDigits (t : LocalTm) : Prop where
  mon : t.tmMon + 1 < 100
  mday : t.tmMday < 100
  hour : t.tmHour < 100
  min : t.tmMin < 100
  sec : t.tmSec < 100

theorem localSec_lt (offset t : ℤ) : localSec offset t < 86400 := by
  unfold localSec
  omega

theorem localtimeR_twoDigits (offset t : ℤ) : (localtimeR offset t).TwoDigits := by
  have hvalid := (dateOf_spec (localDay offset t)).1
  have hmonth := hvalid.month
  have hsec := localSec_lt offset t
  have hlength : (monthLengths (dateOf (localDay offset t)).year).getD (dateOf (localDay offset t)).month 0 ≤ 31 :=
    monthLengths_le _ _
  have hday := hvalid.last.trans hlength
  constructor <;> simp only [localtimeR] <;> omega

/-- an earlier time is on an earlier day, or earlier on the same day -/
theorem localDay_lt_or (offset : ℤ) {t₁ t₂ : ℤ} (h : t₁ < t₂) : localDay offset t₁ < localDay offset t₂ ∨
    localDay offset t₁ = localDay offset t₂ ∧ localSec offset t₁ < localSec offset t₂ := by
  unfold localDay localSec
  omega

/-- **A later time has a later breakdown**, whatever the offset and the year. -/
theorem localtimeR_before {offset t₁ t₂ : ℤ} (h : t₁ < t₂) :
    (localtimeR offset t₁).Before (localtimeR offset t₂) := by
  rcases localDay_lt_or offset h with hday | ⟨hday, hsec⟩
  · obtain ⟨hvalid₁, hnum₁⟩ := dateOf_spec (localDay offset t₁)
    obtain ⟨hvalid₂, hnum₂⟩ := dateOf_spec (localDay offset t₂)
    have hlt : dayNumber (dateOf (localDay offset t₁)) < dayNumber (dateOf (localDay offset t₂)) := by
      rwa [hnum₁, hnum₂]
    rcases before_of_dayNumber_lt hvalid₁ hvalid₂ hlt with hyear | ⟨hyear, hmonth | ⟨hmonth, hmday⟩⟩
    · exact Or.inl (Int.sub_lt_sub_right hyear 1900)
    · exact Or.inr ⟨congrArg (· - 1900) hyear, Or.inl hmonth⟩
    · exact Or.inr ⟨congrArg (· - 1900) hyear, Or.inr ⟨hmonth, Or.inl hmday⟩⟩
  · -- the same date; the seconds decide
    have hdate : dateOf (localDay offset t₁) = dateOf (localDay offset t₂) := congrArg dateOf hday
    have hclock : localSec offset t₁ / 3600 < localSec offset t₂ / 3600 ∨
        localSec offset t₁ / 3600 = localSec offset t₂ / 3600 ∧
          (localSec offset t₁ % 3600 / 60 < localSec offset t₂ % 3600 / 60 ∨
            localSec offset t₁ % 3600 / 60 = localSec offset t₂ % 3600 / 60 ∧
              localSec offset t₁ % 60 < localSec offset t₂ % 60) := by omega
    simp only [LocalTm.Before, localtimeR, hdate, lt_irrefl, false_or, true_and]
    exact hclock

/-! ## A later breakdown has a later name -/

/-- `%02d` of a number below 100 -/
theorem decimal_two {n : ℕ} (h : n < 100) : decimal '0' 2 n = numeral 2 n := by
  rcases Nat.lt_or_ge n 10 with hlt | hge
  · have hdiv : n / 10 = 0 := Nat.div_eq_of_lt hlt
    rw [decimal, Nat.toDigits_of_lt_base hlt, numeral, numeral, numeral, hdiv, Nat.mod_eq_of_lt hlt]
    rfl
  · have hdigits : Nat.toDigits 10 n = numeral 2 n := toDigits_eq_numeral (w := 1) hge h
    rw [decimal, hdigits, length_numeral]
    rfl

/-- `%4d` of a year of four digits -/
theorem decimalYear_four {n : ℤ} (hlow : 1000 ≤ n) (hhigh : n ≤ 9999) : decimalYear n = numeral 4 n.toNat := by
  have hdigits : Nat.toDigits 10 n.toNat = numeral 4 n.toNat :=
    toDigits_eq_numeral (w := 3) (by norm_num; omega) (by norm_num; omega)
  rw [decimalYear, if_pos (by omega), decimal, hdigits, length_numeral]
  rfl

/-- the name as six numerals of fixed widths, each with its separator -/
theorem LocalTm.fileName_eq {t : LocalTm} (h : t.TwoDigits) (hyear : t.FourDigitYear) :
    t.fileName = numeral 4 (t.tmYear + 1900).toNat ++ '-' :: (numeral 2 (t.tmMon + 1) ++ '-' :: (numeral 2 t.tmMday ++
      ' ' :: (numeral 2 t.tmHour ++ ':' :: (numeral 2 t.tmMin ++ ':' :: (numeral 2 t.tmSec ++
        '.' :: "store".toList))))) := by
  have hsuffix : ".store".toList = '.' :: "store".toList := by decide
  rw [LocalTm.fileName, decimalYear_four hyear.1 hyear.2, decimal_two h.mon, decimal_two h.mday, decimal_two h.hour,
    decimal_two h.min, decimal_two h.sec, hsuffix]
  simp only [List.append_assoc, List.cons_append]

theorem LocalTm.fileName_ascii {t : LocalTm} (h : t.TwoDigits) (hyear : t.FourDigitYear) : Ascii t.fileName := by
  have hstore : Ascii "store".toList := by
    have htext : "store".toList = ['s', 't', 'o', 'r', 'e'] := rfl
    intro c hc
    rw [htext] at hc
    simp only [List.mem_cons, List.not_mem_nil, or_false] at hc
    rcases hc with rfl | rfl | rfl | rfl | rfl <;> decide
  rw [LocalTm.fileName_eq h hyear]
  refine ascii_field (by decide) (ascii_field (by decide) (ascii_field (by decide) ?_))
  exact ascii_field (by decide) (ascii_field (by decide) (ascii_field (by decide) hstore))

/-- **A later breakdown has a later name.** -/
theorem LocalTm.fileName_lt {a b : LocalTm} (ha : a.TwoDigits) (hb : b.TwoDigits) (hya : a.FourDigitYear)
    (hyb : b.FourDigitYear) (h : a.Before b) : a.fileName < b.fileName := by
  obtain ⟨hlowa, hhigha⟩ := hya
  obtain ⟨hlowb, hhighb⟩ := hyb
  have hyear : (a.tmYear + 1900).toNat < 10 ^ 4 ∧ (b.tmYear + 1900).toNat < 10 ^ 4 := by omega
  rw [a.fileName_eq ha ⟨hlowa, hhigha⟩, b.fileName_eq hb ⟨hlowb, hhighb⟩, field_lt_iff hyear.1 hyear.2,
    field_lt_iff ha.mon hb.mon, field_lt_iff ha.mday hb.mday, field_lt_iff ha.hour hb.hour,
    field_lt_iff ha.min hb.min, field_lt_iff ha.sec hb.sec]
  rcases h with hlt | ⟨heq, h⟩
  · exact Or.inl (by omega)
  refine Or.inr ⟨by rw [heq], ?_⟩
  rcases h with hlt | ⟨heq, h⟩
  · exact Or.inl (Nat.succ_lt_succ hlt)
  refine Or.inr ⟨congrArg Nat.succ heq, ?_⟩
  -- day, hour, minute and second are printed as they are
  rcases h with hlt | ⟨hday, hlt | ⟨hhour, hlt | ⟨hmin, hlt⟩⟩⟩
  · exact Or.inl hlt
  · exact Or.inr ⟨hday, Or.inl hlt⟩
  · exact Or.inr ⟨hday, Or.inr ⟨hhour, Or.inl hlt⟩⟩
  · exact Or.inr ⟨hday, Or.inr ⟨hhour, Or.inr ⟨hmin, Or.inl hlt⟩⟩⟩

theorem nameAt_lt {offset t₁ t₂ : ℤ} (h₁ : (localtimeR offset t₁).FourDigitYear)
    (h₂ : (localtimeR offset t₂).FourDigitYear) (h : t₁ < t₂) : nameAt offset t₁ < nameAt offset t₂ :=
  LocalTm.fileName_lt (localtimeR_twoDigits offset t₁) (localtimeR_twoDigits offset t₂) h₁ h₂ (localtimeR_before h)

theorem nameAt_ascii {offset t : ℤ} (h : (localtimeR offset t).FourDigitYear) : Ascii (nameAt offset t) :=
  LocalTm.fileName_ascii (localtimeR_twoDigits offset t) h

/-! ## The first row of a table -/

/-- the name printed for a start time whose local year has four digits -/
def NamedFor (offset t : ℤ) (name : List Char) : Prop :=
  name = nameAt offset t ∧ (localtimeR offset t).FourDigitYear

instance (offset t : ℤ) (name : List Char) : Decidable (NamedFor offset t name) :=
  inferInstanceAs (Decidable (_ ∧ _))

/-- the row that the writer inserts is named for its start time -/
theorem newRow_namedFor {cfg : Config} {d : StoreDevice} {b : StoreBuf} {offset : ℤ}
    (htm : LocalTm.ofTm (cfg.localtime b.storeStartTime) = localtimeR offset b.storeStartTime)
    (hyear : (localtimeR offset b.storeStartTime).FourDigitYear) :
    NamedFor offset (Camera.newRow cfg d b).startTimeMs (Camera.newRow cfg d b).fileName := by
  refine ⟨?_, hyear⟩
  show Store.fileName (cfg.localtime b.storeStartTime) = nameAt offset b.storeStartTime
  rw [← LocalTm.fileName_ofTm, htm, nameAt]

theorem first_earliest {offset : ℤ} {rows : List Recording} {start : Recording → ℤ}
    (hnamed : ∀ r ∈ rows, NamedFor offset (start r) r.fileName) (hne : rows ≠ []) :
    ∃ r, getFirstStoreInfo rows = some r ∧ r ∈ rows ∧ ∀ q ∈ rows, start r ≤ start q := by
  cases hr : getFirstStoreInfo rows with
  | none => exact absurd (getFirstStoreInfo_none hr) hne
  | some r =>
    obtain ⟨hmem, hfirst⟩ := getFirstStoreInfo_oldest hr
    refine ⟨r, rfl, hmem, ?_⟩
    intro q hq
    by_contra hlt
    obtain ⟨hname, hyear⟩ := hnamed r hmem
    obtain ⟨hqname, hqyear⟩ := hnamed q hq
    -- a recording started before would have a smaller name
    apply hfirst q hq
    rw [hname, hqname]
    exact nameAt_lt hqyear hyear (not_le.1 hlt)

/-! ## Runs -/

/-- every row is named for its start time -/
def NamedRows (offset : ℤ) (tables : String → List Recording) : Prop :=
  ∀ id, ∀ r ∈ tables id, NamedFor offset r.startTimeMs r.fileName

/-- a row that is inserted is named for its start time -/
def NamesInsert (offset : ℤ) : MonOp → Prop
  | .insert _ r => NamedFor offset r.startTimeMs r.fileName
  | _ => True

theorem mem_updateStatus {name : List Char} {status : FileStatus} {rows : List Recording} {q : Recording}
    (h : q ∈ updateStatus name status rows) : ∃ r ∈ rows, q.toRow = r.toRow := by
  induction rows with
  | nil => cases h
  | cons r rows ih =>
    rw [updateStatus] at h
    split_ifs at h
    · rcases List.mem_cons.1 h with rfl | hq
      · exact ⟨r, List.mem_cons_self, rfl⟩
      · exact ⟨q, List.mem_cons_of_mem _ hq, rfl⟩
    · rcases List.mem_cons.1 h with rfl | hq
      · exact ⟨q, List.mem_cons_self, rfl⟩
      · obtain ⟨p, hp, heq⟩ := ih hq
        exact ⟨p, List.mem_cons_of_mem _ hp, heq⟩

theorem NamedRows.setTable {offset : ℤ} {s : Archive} {id : String} {rows : List Recording}
    (h : NamedRows offset s.tables) (hrows : ∀ r ∈ rows, NamedFor offset r.startTimeMs r.fileName) :
    NamedRows offset (s.setTable id rows).tables := by
  intro id' r hr
  by_cases hid : id' = id
  · subst hid
    simp only [Archive.setTable, Function.update_self] at hr
    exact hrows r hr
  · simp only [Archive.setTable, Function.update_of_ne hid] at hr
    exact h id' r hr

theorem NamedRows.step {site : Site} {offset : ℤ} {s t : Archive} {a : MonOp} (h : NamedRows offset s.tables)
    (hp : NamesInsert offset a) (ht : s.step site a = some t) : NamedRows offset t.tables := by
  cases a with
  | insert id r =>
    obtain rfl := Option.some.inj ht
    apply h.setTable
    intro q hq
    rcases List.mem_append.1 hq with hq | hq
    · exact h id q hq
    · obtain rfl := List.mem_singleton.1 hq
      exact hp
  | operate id name operateId =>
    rw [Archive.step] at ht
    split at ht
    · obtain rfl := Option.some.inj ht
      apply h.setTable
      intro q hq
      obtain ⟨r, hr, heq⟩ := mem_updateStatus hq
      rw [heq]
      exact h id r hr
    · exact Option.some.inj ht ▸ h
  | reading free =>
    rcases reading_cases ht with rfl | rfl
    · exact h
    · exact h
  | next ok =>
    rcases next_cases ht with ⟨i, rfl⟩ | rfl | ⟨i, id, r, -, -, -, rfl⟩ | ⟨i, id, name, -, rfl | rfl⟩ |
      ⟨i, id, name, -, rfl⟩
    · exact h
    · exact h
    · exact h
    · exact h
    · exact h.setTable fun q hq => h id q (List.mem_of_mem_eraseP hq)
    · exact h

/-- **Names sort by time.** Of two start times with local years in 1000..9999 the earlier one has the smaller name, also
byte by byte. In a table of recordings so named, the first name belongs to a recording with the smallest start time; and
in every state of every run on such rows, the next fetch of the monitor takes one from the camera's table. -/
theorem fetches_earliest (offset : ℤ) :
    (∀ t₁ t₂ : ℤ, (localtimeR offset t₁).FourDigitYear → (localtimeR offset t₂).FourDigitYear → t₁ < t₂ →
      nameAt offset t₁ < nameAt offset t₂ ∧ bytes (nameAt offset t₁) < bytes (nameAt offset t₂)) ∧
    (∀ (rows : List Recording) (start : Recording → ℤ), (∀ r ∈ rows, NamedFor offset (start r) r.fileName) →
      rows ≠ [] → ∃ r, getFirstStoreInfo rows = some r ∧ r ∈ rows ∧ ∀ q ∈ rows, start r ≤ start q) ∧
    ∀ (site : Site) (tables : String → List Recording) (files : Files) (ops : List MonOp) (s : Archive) (i : ℕ)
      (id : String), NamedRows offset tables →
      Steps (Archive.step site) (fun _ => NamesInsert offset) (Archive.start tables files) ops →
      run (Archive.step site) (Archive.start tables files) ops = some s → s.pc = .camera i →
      site.cameraInfoList[i]? = some id → s.tables id ≠ [] →
      ∃ r ∈ s.tables id, s.step site (.next true) = some { s with pc := .fetched i id r.fileName } ∧
        ∀ q ∈ s.tables id, r.startTimeMs ≤ q.startTimeMs := by
  refine ⟨?_, fun rows start => first_earliest, ?_⟩
  · intro t₁ t₂ h₁ h₂ hlt
    have hname := nameAt_lt h₁ h₂ hlt
    exact ⟨hname, (bytes_lt_iff (nameAt_ascii h₁) (nameAt_ascii h₂)).2 hname⟩
  · intro site tables files ops s i id htables hops hrun hpc hid hne
    have hstep : ∀ (s : Archive) (a : MonOp) (t : Archive), NamedRows offset s.tables → NamesInsert offset a →
        s.step site a = some t → NamedRows offset t.tables := by
      intro s a t hi hp ht
      exact hi.step hp ht
    have hnamed : NamedRows offset s.tables := run_inv hstep htables hops hrun
    obtain ⟨r, hr, hmem, hfirst⟩ := first_earliest (hnamed id) hne
    refine ⟨r, hmem, ?_, fun q hq => Int.ofNat_le.1 (hfirst q hq)⟩
    simp only [Archive.step, Archive.next, hpc, hid, if_true, hr]

/-- a recording that starts at `t`, eight hours east of Greenwich -/
def recordingAt (t : ℕ) : Row := ⟨t, nameAt 28800 t, .planned, [1]⟩

/-- the first second of March and the last of a leap day before it, stored in this order, then a low-space round -/
def aroundLeapDay : List MonOp :=
  [.insert "7" (recordingAt 1709222400), .insert "7" (recordingAt 1709222399), .reading (some 0)]

theorem fetches_earliest_leap_day :
    bytes (nameAt 28800 1709222399) < bytes (nameAt 28800 1709222400) ∧
    (∃ r, getFirstStoreInfo [⟨recordingAt 1709222400, .unlock⟩, ⟨recordingAt 1709222399, .unlock⟩] = some r ∧
      (r.startTimeMs : ℤ) ≤ 1709222399) ∧
    ∃ s, run (Archive.step oneCamera) emptyArchive aroundLeapDay = some s ∧
      ∃ r ∈ s.tables "7", s.step oneCamera (.next true) = some { s with pc := .fetched 0 "7" r.fileName } ∧
        ∀ q ∈ s.tables "7", r.startTimeMs ≤ q.startTimeMs := by
  obtain ⟨hnames, hrows, hruns⟩ := fetches_earliest 28800
  have hlast : NamedFor 28800 1709222399 (recordingAt 1709222399).fileName := by decide +kernel
  have hnext : NamedFor 28800 1709222400 (recordingAt 1709222400).fileName := by decide +kernel
  refine ⟨(hnames _ _ hlast.2 hnext.2 (by decide)).2, ?_, ?_⟩
  · obtain ⟨r, hr, -, hfirst⟩ := hrows [⟨recordingAt 1709222400, .unlock⟩, ⟨recordingAt 1709222399, .unlock⟩]
      (fun r => r.startTimeMs) (List.forall_mem_cons.2 ⟨hnext, List.forall_mem_singleton.2 hlast⟩)
      (List.cons_ne_nil _ _)
    exact ⟨r, hr, hfirst _ (List.mem_cons_of_mem _ List.mem_cons_self)⟩
  · have hrun : (run (Archive.step oneCamera) emptyArchive aroundLeapDay).map
        (fun s => (s.pc, (s.tables "7").length)) = some (.camera 0, 2) := by decide +kernel
    obtain ⟨s, hs, hstate⟩ := Option.map_eq_some_iff.1 hrun
    obtain ⟨hpc, hlen⟩ := Prod.mk.inj hstate
    refine ⟨s, hs, hruns oneCamera _ _ aroundLeapDay s 0 "7" (fun _ _ hr => ?_) ?_ hs hpc rfl ?_⟩
    · cases hr
    · exact ⟨hnext, fun _ _ => ⟨hlast, fun _ _ => ⟨trivial, fun _ _ => trivial⟩⟩⟩
    · intro hnil
      rw [hnil] at hlen
      cases hlen

end StoreService.Store
