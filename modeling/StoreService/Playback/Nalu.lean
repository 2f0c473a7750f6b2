/-
The player's view of a frame (`ParseH264Param`, `ParseVideoParam`, `ParseVideoData` in `rtmpsrv.cpp`), against the
recorder's (`ParseKeyFrame`).

Both scan a frame for the start codes 00 00 01 and 00 00 00 01 with four-byte loads, so at the end of the frame they
also see the bytes behind it. The player lists the NAL units it finds in a static vector; `is_key_frame` tells if one
of them has type 5. Before it scans, the player looks at the first four bytes: only if they are 00 00 00 01 is there a
scan, and otherwise the vector stays as the previous frame left it.

`nalUnits` splits the bytes of a frame, and only these, into NAL units. `scan_induction` is the induction along the
positions both scanners visit; with it each of them is related to `nalUnits`.

- `key_frames_agree_iff`: the player lists exactly the NAL units of the frame and agrees with the recorder on key frames
  if and only if the frame starts with 00 00 00 01 and no start code of it runs over its end (or else the old list
  happens to be right), and a frame without IDR slice is reported by `ParseKeyFrame`, whose `return` is missing, with
  a value that is not 0.
- `parseKeyFrame_decides_iff`: the recorder's answer is decided by the frame alone iff the frame has an IDR slice.
- `Closed.not_overruns`: no start code runs over the end of a frame that does not end in a zero or in 00 00 01.
- `trailing_zeros_decide`: two zero bytes at the end of a frame, and the bytes behind it make it a key frame.
- `stale_list`: a frame that starts with 00 00 01 after a key frame is played as a key frame.

Frames come from a store file, so sizes are far below 2^32.
-/
import StoreService.Common.KeyFrame

namespace StoreService.Playback

open StoreService.ByteMem StoreService.KeyFrame

/-! ## NAL units of a byte string -/

/-- what follows a start code at the beginning of the bytes -/
def afterCode (l : List UInt8) : Option (List UInt8) :=
  if l.take 4 = [0, 0, 0, 1] then some (l.drop 4)
  else if l.take 3 = [0, 0, 1] then some (l.drop 3)
  else none

/-- the bytes before the first NAL unit, and the NAL units: each begins behind a start code and ends before the next one
or at the end. A NAL unit has at least its header byte. -/
def splitNal : ℕ → List UInt8 → List UInt8 × List (List UInt8)
  | fuel + 1, b :: l =>
    match afterCode (b :: l) with
    | some (header :: rest) => ([], (header :: (splitNal fuel rest).1) :: (splitNal fuel rest).2)
    | _ => (b :: (splitNal fuel l).1, (splitNal fuel l).2)
  | _, _ => ([], [])

def nalUnits (frame : List UInt8) : List (List UInt8) := (splitNal (frame.length + 1) frame).2

def nalType (u : List UInt8) : ℕ := (u.headD 0).toNat % 32

/-- a NAL unit of type 5 -/
def HasIdr (us : List (List UInt8)) : Prop := ∃ u ∈ us, nalType u = 5

instance (us : List (List UInt8)) : Decidable (HasIdr us) := inferInstanceAs (Decidable (∃ u ∈ us, nalType u = 5))

example : nalUnits [9, 0, 0, 1, 0x67, 1, 0, 0, 0, 1, 0x65, 2, 0, 0, 1] = [[0x67, 1], [0x65, 2, 0, 0, 1]] := by
  decide +kernel

/-! ## The player -/

structure NaluInfo where
  type : ℕ
  /-- an address -/
  nalu : ℕ
  naluLen : ℕ
deriving DecidableEq, Repr

/-- the loop of `ParseH264Param`: `idx` grows in every round, so `size` rounds are enough; `first` is
`is_first_nalu` -/
def parseH264Loop (m : Mem) (pVideoData size : ℕ) : ℕ → ℕ → NaluInfo → Bool → List NaluInfo → List NaluInfo
  | 0, _, naluInfo, _, naluList => naluList ++ [naluInfo]
  | fuel + 1, idx, naluInfo, first, naluList =>
    if idx < size then
      let divide1 := readLE m (pVideoData + idx) 4
      let divide2 := divide1 % 2 ^ 24
      if divide1 ≠ 0x01000000 ∧ divide2 ≠ 0x00010000 then
        parseH264Loop m pVideoData size fuel (idx + 1) { naluInfo with naluLen := naluInfo.naluLen + 1 } first naluList
      else
        let idx := if divide1 = 0x01000000 then idx + 4 else if divide2 = 0x00010000 then idx + 3 else idx
        parseH264Loop m pVideoData size fuel (idx + 1) ⟨(m (pVideoData + idx)).toNat % 32, pVideoData + idx, 1⟩ true
          (if first then naluList ++ [naluInfo] else naluList)
    else naluList ++ [naluInfo]

/-- `junk` is `naluInfo`, which is not initialised -/
def parseH264Param (junk : NaluInfo) (m : Mem) (pVideoData size : ℕ) : List NaluInfo :=
  parseH264Loop m pVideoData size (size + 1) 0 junk false []

/-- the static variables of a frame -/
structure Player where
  naluList : List NaluInfo
  isKeyFrame : Bool
  keyFrameCnt : ℕ
  keyFrameIdx : ℤ
  spsIdx : ℤ
  ppsIdx : ℤ

namespace Player

/-- the variables at the start of the program -/
def init : Player := ⟨[], false, 0, 0, 0, 0⟩

def parseVideoParam (junk : NaluInfo) (m : Mem) (pVideoData size : ℕ) (p : Player) : Player :=
  if readLE m pVideoData 4 = 0x01000000 then { p with naluList := parseH264Param junk m pVideoData size } else p

/-- the loop over the list, with `is_key_frame_exist` -/
def parseUnits : ℕ → List NaluInfo → Player × Bool → Player × Bool
  | _, [], s => s
  | i, e :: l, (p, exist) =>
    parseUnits (i + 1) l
      (if e.type = 5 then ({ p with keyFrameCnt := 1, isKeyFrame := true, keyFrameIdx := i }, true)
      else if e.type = 7 then ({ p with spsIdx := i }, exist)
      else if e.type = 8 then ({ p with ppsIdx := i }, exist)
      else (p, exist))

def parseVideoData (junk : NaluInfo) (m : Mem) (pData dataSize : ℕ) (p : Player) : Player :=
  let p := { p with keyFrameIdx := -1, spsIdx := -1, ppsIdx := -1 }.parseVideoParam junk m pData dataSize
  let s := parseUnits 0 p.naluList (p, false)
  if s.2 then s.1 else { s.1 with keyFrameCnt := (s.1.keyFrameCnt + 1) % 2 ^ 32, isKeyFrame := false }

end Player

/-- type and bytes of a listed unit -/
def NaluInfo.unit (m : Mem) (e : NaluInfo) : ℕ × List UInt8 := (e.type, slice m e.nalu e.naluLen)

/-- the list gives the type and the bytes of each unit, in order -/
def Describes (m : Mem) (l : List NaluInfo) (us : List (List UInt8)) : Prop :=
  l.map (NaluInfo.unit m) = us.map fun u => (nalType u, u)

instance (m : Mem) (l : List NaluInfo) (us : List (List UInt8)) : Decidable (Describes m l us) :=
  inferInstanceAs (Decidable (_ = _))

theorem Describes.hasIdr_iff {m : Mem} {l : List NaluInfo} {us : List (List UInt8)} (h : Describes m l us) :
    (∃ e ∈ l, e.type = 5) ↔ HasIdr us := by
  have htypes : l.map NaluInfo.type = us.map nalType := by
    have := congrArg (List.map Prod.fst) h
    simpa [Function.comp_def, NaluInfo.unit] using this
  calc (∃ e ∈ l, e.type = 5) ↔ 5 ∈ l.map NaluInfo.type := List.mem_map.symm
    _ ↔ 5 ∈ us.map nalType := by rw [htypes]
    _ ↔ HasIdr us := List.mem_map

namespace Player

theorem parseUnits_spec (l : List NaluInfo) (i : ℕ) (p : Player) (exist : Bool) :
    (parseUnits i l (p, exist)).1.naluList = p.naluList ∧
      ((parseUnits i l (p, exist)).2 = true ↔ exist = true ∨ ∃ e ∈ l, e.type = 5) ∧
      ((exist = true → p.isKeyFrame = true) → (parseUnits i l (p, exist)).2 = true →
        (parseUnits i l (p, exist)).1.isKeyFrame = true) := by
  induction l generalizing i p exist with
  | nil => simp [parseUnits]
  | cons e l ih =>
    unfold parseUnits
    split_ifs with h5 h7 h8
    · obtain ⟨h1, h2, h3⟩ := ih (i + 1) { p with keyFrameCnt := 1, isKeyFrame := true, keyFrameIdx := i } true
      exact ⟨h1, h2.trans (by simp [h5]), fun _ => h3 fun _ => rfl⟩
    · obtain ⟨h1, h2, h3⟩ := ih (i + 1) { p with spsIdx := i } exist
      exact ⟨h1, h2.trans (by simp [h5]), h3⟩
    · obtain ⟨h1, h2, h3⟩ := ih (i + 1) { p with ppsIdx := i } exist
      exact ⟨h1, h2.trans (by simp [h5]), h3⟩
    · obtain ⟨h1, h2, h3⟩ := ih (i + 1) p exist
      exact ⟨h1, h2.trans (by simp [h5]), h3⟩

/-- the list after a frame -/
theorem parseVideoData_naluList (junk : NaluInfo) (m : Mem) (data size : ℕ) (p : Player) :
    (p.parseVideoData junk m data size).naluList =
      if readLE m data 4 = 0x01000000 then parseH264Param junk m data size else p.naluList := by
  simp only [parseVideoData, apply_ite Player.naluList, ite_self, (parseUnits_spec ..).1]
  simp only [parseVideoParam, apply_ite Player.naluList]

/-- a key frame is one with a unit of type 5 in the list -/
theorem parseVideoData_isKeyFrame (junk : NaluInfo) (m : Mem) (data size : ℕ) (p : Player) :
    (p.parseVideoData junk m data size).isKeyFrame = true ↔
      ∃ e ∈ (p.parseVideoData junk m data size).naluList, e.type = 5 := by
  unfold parseVideoData
  generalize { p with keyFrameIdx := -1, spsIdx := -1, ppsIdx := -1 }.parseVideoParam junk m data size = q
  obtain ⟨hlist, hexist, hkey⟩ := parseUnits_spec q.naluList 0 q false
  by_cases hs : (parseUnits 0 q.naluList (q, false)).2 = true
  · simp only [hs, if_true, hlist]
    exact iff_of_true (hkey nofun hs) ((hexist.1 hs).resolve_left nofun)
  · simp only [hs, if_false, hlist, Bool.false_eq_true, false_iff]
    exact fun h => hs (hexist.2 (Or.inr h))

end Player

/-! ## Start codes in memory -/

/-- the length of the start code at an address, 0 if there is none -/
def codeLen (m : Mem) (a : ℕ) : ℕ :=
  if readLE m a 4 = 0x01000000 then 4 else if readLE m a 4 % 2 ^ 24 = 0x00010000 then 3 else 0

section Codes

variable {m : Mem} {a k n : ℕ}

theorem codeLen_le (m : Mem) (a : ℕ) : codeLen m a ≤ 4 := by
  unfold codeLen
  split_ifs <;> omega

/-- a test on four bytes as tests on each of them -/
theorem readLE_four (m : Mem) (a : ℕ) : readLE m a 4 = (m a).toNat + 256 * ((m (a + 1)).toNat +
    256 * ((m (a + 2)).toNat + 256 * (m (a + 3)).toNat)) := by
  simp [readLE, add_assoc]

theorem four_code_iff : readLE m a 4 = 0x01000000 ↔ slice m a 4 = [0, 0, 0, 1] := by
  have hs : slice m a 4 = [m a, m (a + 1), m (a + 2), m (a + 3)] := rfl
  have h0 := (m a).toNat_lt
  have h1 := (m (a + 1)).toNat_lt
  have h2 := (m (a + 2)).toNat_lt
  rw [readLE_four, hs]
  simp only [List.cons.injEq, and_true, ← UInt8.toNat_inj, UInt8.toNat_ofNat]
  omega

theorem three_code_iff : readLE m a 4 % 2 ^ 24 = 0x00010000 ↔ slice m a 3 = [0, 0, 1] := by
  have hs : slice m a 3 = [m a, m (a + 1), m (a + 2)] := rfl
  have h0 := (m a).toNat_lt
  have h1 := (m (a + 1)).toNat_lt
  have h2 := (m (a + 2)).toNat_lt
  rw [readLE_four, hs]
  simp only [List.cons.injEq, and_true, ← UInt8.toNat_inj, UInt8.toNat_ofNat]
  omega

theorem slice_one (m : Mem) (a : ℕ) : slice m a 1 = [m a] := rfl

theorem take_slice (m : Mem) (a : ℕ) (h : k ≤ n) : (slice m a n).take k = slice m a k := by
  obtain ⟨r, rfl⟩ := Nat.exists_eq_add_of_le h
  rw [slice_add, List.take_left' (length_slice ..)]

theorem drop_slice (m : Mem) (a : ℕ) (h : k ≤ n) : (slice m a n).drop k = slice m (a + k) (n - k) := by
  obtain ⟨r, rfl⟩ := Nat.exists_eq_add_of_le h
  rw [slice_add, List.drop_left' (length_slice ..), Nat.add_sub_cancel_left]

/-- a code that the bytes hold whole is the code in memory -/
theorem take_slice_eq_iff {l : List UInt8} (h : l.length = k) :
    (slice m a n).take k = l ↔ k ≤ n ∧ slice m a k = l := by
  by_cases hk : k ≤ n
  · rw [take_slice m a hk]
    simp [hk]
  · have hlen : ((slice m a n).take k).length ≠ k := by
      rw [List.length_take, length_slice]
      omega
    refine iff_of_false (fun he => hlen (he ▸ h)) fun h => hk h.1

/-- the start code of a list of bytes is the one in memory, if the bytes hold it whole -/
theorem afterCode_slice (m : Mem) (a n : ℕ) : afterCode (slice m a n) =
    if codeLen m a ≠ 0 ∧ codeLen m a ≤ n then some (slice m (a + codeLen m a) (n - codeLen m a)) else none := by
  have hfour : (slice m a n).take 4 = [0, 0, 0, 1] ↔ 4 ≤ n ∧ readLE m a 4 = 0x01000000 := by
    rw [four_code_iff]
    exact take_slice_eq_iff rfl
  have hthree : (slice m a n).take 3 = [0, 0, 1] ↔ 3 ≤ n ∧ readLE m a 4 % 2 ^ 24 = 0x00010000 := by
    rw [three_code_iff]
    exact take_slice_eq_iff rfl
  simp only [afterCode, codeLen, hfour, hthree]
  by_cases h4 : readLE m a 4 = 0x01000000
  · by_cases hn : 4 ≤ n
    · simp [h4, hn, drop_slice m a hn]
    · simp [h4, hn]
  · by_cases h3 : readLE m a 4 % 2 ^ 24 = 0x00010000
    · by_cases hn : 3 ≤ n
      · simp only [h4, h3, hn, drop_slice m a hn]
        simpa using hn
      · simp only [h4, h3, hn]
        simpa using hn
    · simp only [h4, h3]
      simp

end Codes

/-! ## The positions both scanners visit -/

section Scan

variable {m : Mem} {data size : ℕ}

/-- **Induction along a scan**: at a byte without start code the scan goes on with the next byte, at a start code behind
the header of the NAL unit. A start code whose header is not in the frame is the last one. Each round takes fuel. -/
@[elab_as_elim] theorem scan_induction {P : ℕ → ℕ → Prop} (hend : ∀ fuel, P fuel size)
    (hplain : ∀ fuel pos, pos < size → codeLen m (data + pos) = 0 → P fuel (pos + 1) → P (fuel + 1) pos)
    (hinside : ∀ fuel pos, codeLen m (data + pos) ≠ 0 → pos + codeLen m (data + pos) < size →
      P fuel (pos + codeLen m (data + pos) + 1) → P (fuel + 1) pos)
    (hcut : ∀ fuel pos, pos < size → codeLen m (data + pos) ≠ 0 → size ≤ pos + codeLen m (data + pos) →
      P (fuel + 1) pos) (fuel pos : ℕ) (hpos : pos ≤ size) (hfuel : size - pos < fuel) : P fuel pos := by
  induction fuel generalizing pos with
  | zero => omega
  | succ fuel ih =>
    rcases hpos.eq_or_lt with rfl | h
    · exact hend _
    · by_cases hc : codeLen m (data + pos) = 0
      · exact hplain fuel pos h hc (ih (pos + 1) h (by omega))
      · by_cases hi : pos + codeLen m (data + pos) < size
        · exact hinside fuel pos hc hi (ih _ hi (by omega))
        · exact hcut fuel pos h hc (not_lt.1 hi)

/-- the header that the scan reads behind the end of the frame, with the position it ends at -/
def beyond (m : Mem) (data size : ℕ) : ℕ → ℕ → Option (ℕ × UInt8)
  | 0, _ => none
  | fuel + 1, pos =>
    if size ≤ pos then none
    else if codeLen m (data + pos) = 0 then beyond m data size fuel (pos + 1)
    else if pos + codeLen m (data + pos) < size then beyond m data size fuel (pos + codeLen m (data + pos) + 1)
    else some (pos + codeLen m (data + pos) + 1, m (data + pos + codeLen m (data + pos)))

variable {pos fuel : ℕ}

/-! What each function of the scan does at a position. -/

theorem splitNal_end (h : size ≤ pos) : splitNal fuel (slice m (data + pos) (size - pos)) = ([], []) := by
  rw [Nat.sub_eq_zero_of_le h]
  cases fuel <;> rfl

theorem slice_pos (h : pos < size) :
    slice m (data + pos) (size - pos) = m (data + pos) :: slice m (data + (pos + 1)) (size - (pos + 1)) := by
  rw [show size - pos = size - (pos + 1) + 1 by omega, slice_succ, add_assoc]

theorem splitNal_plain (h : pos < size) (hc : codeLen m (data + pos) = 0) :
    splitNal (fuel + 1) (slice m (data + pos) (size - pos)) =
      (m (data + pos) :: (splitNal fuel (slice m (data + (pos + 1)) (size - (pos + 1)))).1,
        (splitNal fuel (slice m (data + (pos + 1)) (size - (pos + 1)))).2) := by
  have hafter : afterCode (slice m (data + pos) (size - pos)) = none := by
    rw [afterCode_slice, if_neg (by simp [hc])]
  rw [slice_pos h] at hafter ⊢
  simp only [splitNal, hafter]

theorem splitNal_inside (hc : codeLen m (data + pos) ≠ 0) (h : pos + codeLen m (data + pos) < size) :
    splitNal (fuel + 1) (slice m (data + pos) (size - pos)) =
      let rest := slice m (data + (pos + codeLen m (data + pos) + 1)) (size - (pos + codeLen m (data + pos) + 1))
      ([], (m (data + pos + codeLen m (data + pos)) :: (splitNal fuel rest).1) :: (splitNal fuel rest).2) := by
  have hafter : afterCode (slice m (data + pos) (size - pos)) = some (m (data + pos + codeLen m (data + pos)) ::
      slice m (data + (pos + codeLen m (data + pos) + 1)) (size - (pos + codeLen m (data + pos) + 1))) := by
    rw [afterCode_slice, if_pos ⟨hc, by omega⟩, Nat.sub_sub, add_assoc, slice_pos h]
  rw [slice_pos (by omega)] at hafter ⊢
  simp only [splitNal, hafter]

/-- three bytes are no NAL unit with its start code -/
theorem splitNal_short {l : List UInt8} (h : l.length ≤ 3) : (splitNal fuel l).2 = [] := by
  induction fuel generalizing l with
  | zero => rfl
  | succ fuel ih =>
    cases l with
    | nil => rfl
    | cons b l =>
      have hrest : (splitNal fuel l).2 = [] := ih (by simp at h; omega)
      have hafter (header : UInt8) (rest : List UInt8) : afterCode (b :: l) ≠ some (header :: rest) := by
        intro he
        unfold afterCode at he
        split_ifs at he
        all_goals
          have := congrArg List.length (Option.some.inj he)
          simp at this h
          omega
      unfold splitNal
      split
      · exact absurd ‹_› (hafter _ _)
      · exact hrest

theorem splitNal_cut (h : pos < size) (hcut : size ≤ pos + codeLen m (data + pos)) :
    (splitNal (fuel + 1) (slice m (data + pos) (size - pos))).2 = [] := by
  have hle := codeLen_le m (data + pos)
  have hafter (header : UInt8) (rest : List UInt8) :
      afterCode (slice m (data + pos) (size - pos)) ≠ some (header :: rest) := by
    rw [afterCode_slice]
    intro he
    obtain ⟨-, he⟩ := Option.ite_none_right_eq_some.1 he
    have := congrArg List.length (Option.some.inj he)
    simp at this
    omega
  rw [slice_pos h] at hafter ⊢
  unfold splitNal
  split
  · exact absurd ‹_› (hafter _ _)
  · refine splitNal_short ?_
    rw [length_slice]
    omega

theorem codeLen_eq_zero_iff {a : ℕ} :
    codeLen m a = 0 ↔ readLE m a 4 ≠ 0x01000000 ∧ readLE m a 4 % 2 ^ 24 ≠ 0x00010000 := by
  unfold codeLen
  split_ifs with h4 h3
  · exact iff_of_false (by decide) fun h => h.1 h4
  · exact iff_of_false (by decide) fun h => h.2 h3
  · exact iff_of_true rfl ⟨h4, h3⟩

variable {noRet : ℕ → ℤ}

theorem keyFrameLoop_end {a : ℕ} (h : size ≤ pos) : parseKeyFrameLoop noRet m size fuel a pos = noRet pos := by
  cases fuel with
  | zero => rfl
  | succ fuel => simp [parseKeyFrameLoop, not_lt.2 h]

theorem keyFrameLoop_plain (h : pos < size) (hc : codeLen m (data + pos) = 0) :
    parseKeyFrameLoop noRet m size (fuel + 1) (data + pos) pos =
      parseKeyFrameLoop noRet m size fuel (data + (pos + 1)) (pos + 1) := by
  rw [parseKeyFrameLoop, if_pos h, if_pos (codeLen_eq_zero_iff.1 hc), add_assoc]

theorem keyFrameLoop_code (h : pos < size) (hc : codeLen m (data + pos) ≠ 0) :
    parseKeyFrameLoop noRet m size (fuel + 1) (data + pos) pos =
      if (m (data + pos + codeLen m (data + pos))).toNat % 32 = 5 then 0
      else parseKeyFrameLoop noRet m size fuel (data + (pos + codeLen m (data + pos) + 1))
        (pos + codeLen m (data + pos) + 1) := by
  have hoff : (if readLE m (data + pos) 4 % 2 ^ 24 = 0x00010000 then 3 else 4) = codeLen m (data + pos) := by
    rw [Ne, codeLen_eq_zero_iff] at hc
    unfold codeLen
    split_ifs <;> first | rfl | omega
  rw [parseKeyFrameLoop, if_pos h, if_neg (fun h => hc (codeLen_eq_zero_iff.2 h))]
  simp only [hoff, add_assoc]

theorem h264Loop_end {info : NaluInfo} {first : Bool} {list : List NaluInfo} (h : size ≤ pos) :
    parseH264Loop m data size fuel pos info first list = list ++ [info] := by
  cases fuel with
  | zero => rfl
  | succ fuel => simp [parseH264Loop, not_lt.2 h]

theorem h264Loop_plain {info : NaluInfo} {first : Bool} {list : List NaluInfo} (h : pos < size)
    (hc : codeLen m (data + pos) = 0) : parseH264Loop m data size (fuel + 1) pos info first list =
      parseH264Loop m data size fuel (pos + 1) { info with naluLen := info.naluLen + 1 } first list := by
  rw [parseH264Loop, if_pos h, if_pos (codeLen_eq_zero_iff.1 hc)]

theorem h264Loop_code {info : NaluInfo} {first : Bool} {list : List NaluInfo} (h : pos < size)
    (hc : codeLen m (data + pos) ≠ 0) : parseH264Loop m data size (fuel + 1) pos info first list =
      parseH264Loop m data size fuel (pos + codeLen m (data + pos) + 1)
        ⟨(m (data + pos + codeLen m (data + pos))).toNat % 32, data + pos + codeLen m (data + pos), 1⟩ true
        (if first then list ++ [info] else list) := by
  have hidx : (if readLE m (data + pos) 4 = 0x01000000 then pos + 4
      else if readLE m (data + pos) 4 % 2 ^ 24 = 0x00010000 then pos + 3 else pos) = pos + codeLen m (data + pos) := by
    unfold codeLen
    split_ifs <;> rfl
  rw [parseH264Loop, if_pos h, if_neg (fun h => hc (codeLen_eq_zero_iff.2 h))]
  simp only [hidx, add_assoc]

/-- the recorder's answer without an IDR slice in the frame is 0: from a header read behind the end, or for want of a
`return` -/
def ZeroAnyway (noRet : ℕ → ℤ) (size : ℕ) : Option (ℕ × UInt8) → Prop
  | none => noRet size = 0
  | some (total, header) => header.toNat % 32 = 5 ∨ noRet total = 0

instance (noRet : ℕ → ℤ) (size : ℕ) : ∀ o, Decidable (ZeroAnyway noRet size o)
  | none => inferInstanceAs (Decidable (_ = _))
  | some _ => inferInstanceAs (Decidable (_ ∨ _))

theorem beyond_end (h : size ≤ pos) : beyond m data size fuel pos = none := by
  cases fuel with
  | zero => rfl
  | succ fuel => rw [beyond, if_pos h]

theorem beyond_plain (h : pos < size) (hc : codeLen m (data + pos) = 0) :
    beyond m data size (fuel + 1) pos = beyond m data size fuel (pos + 1) := by
  rw [beyond, if_neg (not_le.2 h), if_pos hc]

theorem beyond_inside (hc : codeLen m (data + pos) ≠ 0) (h : pos + codeLen m (data + pos) < size) :
    beyond m data size (fuel + 1) pos = beyond m data size fuel (pos + codeLen m (data + pos) + 1) := by
  rw [beyond, if_neg (by omega), if_neg hc, if_pos h]

theorem beyond_cut (h : pos < size) (hc : codeLen m (data + pos) ≠ 0) (hcut : size ≤ pos + codeLen m (data + pos)) :
    beyond m data size (fuel + 1) pos =
      some (pos + codeLen m (data + pos) + 1, m (data + pos + codeLen m (data + pos))) := by
  rw [beyond, if_neg (not_le.2 h), if_neg hc, if_neg (not_lt.2 hcut)]

/-- the recorder's scan -/
theorem keyFrameLoop_zero_iff (fuel pos : ℕ) (hpos : pos ≤ size) (hfuel : size - pos < fuel) :
    parseKeyFrameLoop noRet m size fuel (data + pos) pos = 0 ↔
      HasIdr (splitNal fuel (slice m (data + pos) (size - pos))).2 ∨
        ZeroAnyway noRet size (beyond m data size fuel pos) := by
  refine scan_induction ?hend ?hplain ?hinside ?hcut fuel pos hpos hfuel
  case hend =>
    intro fuel
    rw [keyFrameLoop_end le_rfl, splitNal_end le_rfl, beyond_end le_rfl]
    simp [HasIdr, ZeroAnyway]
  case hplain =>
    intro fuel pos h hc ih
    rw [keyFrameLoop_plain h hc, splitNal_plain h hc, beyond_plain h hc]
    exact ih
  case hinside =>
    intro fuel pos hc h ih
    rw [keyFrameLoop_code (by omega) hc, splitNal_inside hc h, beyond_inside hc h]
    by_cases h5 : (m (data + pos + codeLen m (data + pos))).toNat % 32 = 5
    · simp [h5, HasIdr, nalType]
    · rw [if_neg h5, ih]
      simp [HasIdr, nalType, h5]
  case hcut =>
    intro fuel pos h hc hcut
    rw [keyFrameLoop_code h hc, keyFrameLoop_end (by omega), splitNal_cut h hcut, beyond_cut h hc hcut]
    split_ifs with h5 <;> simp [HasIdr, ZeroAnyway, h5]

/-- a unit that was read up to the position -/
structure ReadTo (m : Mem) (data pos : ℕ) (info : NaluInfo) : Prop where
  type : info.type = (m info.nalu).toNat % 32
  pos : info.nalu + info.naluLen = data + pos
  nonempty : 0 < info.naluLen

theorem ReadTo.next {info : NaluInfo} (h : ReadTo m data pos info) :
    ReadTo m data (pos + 1) { info with naluLen := info.naluLen + 1 } :=
  ⟨h.type, by simp only [← add_assoc, h.pos], Nat.succ_pos _⟩

theorem ReadTo.unit_eq {info : NaluInfo} (h : ReadTo m data pos info) :
    info.unit m = (nalType (slice m info.nalu info.naluLen), slice m info.nalu info.naluLen) := by
  obtain ⟨n, hn⟩ := Nat.exists_eq_succ_of_ne_zero h.nonempty.ne'
  simp only [NaluInfo.unit, hn, slice_succ, nalType, List.headD_cons, h.type]

theorem readTo_header (m : Mem) (data a : ℕ) :
    ReadTo m data (a + 1) ⟨(m (data + a)).toNat % 32, data + a, 1⟩ := ⟨rfl, rfl, Nat.one_pos⟩

theorem Describes.snoc {info : NaluInfo} {list : List NaluInfo} {us : List (List UInt8)} (hl : Describes m list us)
    (h : ReadTo m data pos info) : Describes m (list ++ [info]) (us ++ [slice m info.nalu info.naluLen]) := by
  unfold Describes at hl ⊢
  simp [hl, h.unit_eq]

/-- the player's scan: the unit being read is extended to the next start code, and the other units follow -/
theorem h264Loop_describes (fuel pos : ℕ) (hpos : pos ≤ size) (hfuel : size - pos < fuel) :
    ∀ (info : NaluInfo) (list : List NaluInfo) (us : List (List UInt8)), ReadTo m data pos info →
      Describes m list us → beyond m data size fuel pos = none →
      Describes m (parseH264Loop m data size fuel pos info true list)
        (us ++ (slice m info.nalu info.naluLen ++ (splitNal fuel (slice m (data + pos) (size - pos))).1) ::
          (splitNal fuel (slice m (data + pos) (size - pos))).2) := by
  refine scan_induction ?hend ?hplain ?hinside ?hcut fuel pos hpos hfuel
  case hend =>
    intro fuel info list us hinfo hlist _
    rw [h264Loop_end le_rfl, splitNal_end le_rfl, List.append_nil]
    exact hlist.snoc hinfo
  case hplain =>
    intro fuel pos h hc ih info list us hinfo hlist hb
    rw [h264Loop_plain h hc, splitNal_plain h hc]
    rw [beyond_plain h hc] at hb
    have hnext := ih _ list us hinfo.next hlist hb
    rw [slice_add m info.nalu info.naluLen 1, hinfo.pos, List.append_assoc] at hnext
    exact hnext
  case hinside =>
    intro fuel pos hc h ih info list us hinfo hlist hb
    rw [h264Loop_code (by omega) hc, splitNal_inside hc h]
    rw [beyond_inside hc h] at hb
    have hnext := ih _ (list ++ [info]) _ (readTo_header m data (pos + codeLen m (data + pos))) (hlist.snoc hinfo) hb
    simpa [add_assoc, slice_one] using hnext
  case hcut =>
    intro fuel pos h hc hcut info list us _ _ hb
    rw [beyond_cut h hc hcut] at hb
    cases hb

/-- the player's list has an entry for each unit, and one more for a header read behind the end -/
theorem h264Loop_length (fuel pos : ℕ) (hpos : pos ≤ size) (hfuel : size - pos < fuel) :
    ∀ (info : NaluInfo) (list : List NaluInfo), (parseH264Loop m data size fuel pos info true list).length =
      list.length + 1 + (splitNal fuel (slice m (data + pos) (size - pos))).2.length +
        (beyond m data size fuel pos).toList.length := by
  refine scan_induction ?hend ?hplain ?hinside ?hcut fuel pos hpos hfuel
  case hend =>
    intro fuel info list
    rw [h264Loop_end le_rfl, splitNal_end le_rfl, beyond_end le_rfl]
    simp
  case hplain =>
    intro fuel pos h hc ih info list
    rw [h264Loop_plain h hc, splitNal_plain h hc, beyond_plain h hc]
    exact ih _ list
  case hinside =>
    intro fuel pos hc h ih info list
    rw [h264Loop_code (by omega) hc, splitNal_inside hc h, beyond_inside hc h, ih]
    simp
    omega
  case hcut =>
    intro fuel pos h hc hcut info list
    rw [h264Loop_code h hc, h264Loop_end (by omega), splitNal_cut h hcut, beyond_cut h hc hcut]
    simp

end Scan

/-! ## Whole frames -/

section Frame

variable {m : Mem} {data size : ℕ} {noRet : ℕ → ℤ} {junk : NaluInfo}

/-- a start code of the frame runs over its end, or has no header there -/
def Overruns (m : Mem) (data size : ℕ) : Prop := beyond m data size (size + 1) 0 ≠ none

instance : Decidable (Overruns m data size) := inferInstanceAs (Decidable (_ ≠ _))

/-- **The recorder**: a frame is reported as a key frame if it has an IDR slice, or anyway. -/
theorem parseKeyFrame_zero_iff : parseKeyFrame noRet m data size = 0 ↔
    HasIdr (nalUnits (slice m data size)) ∨ ZeroAnyway noRet size (beyond m data size (size + 1) 0) := by
  rw [nalUnits, length_slice]
  exact keyFrameLoop_zero_iff (size + 1) 0 (Nat.zero_le size) (by omega)

/-- **The player's scanner**: it lists the units of a frame that starts with 00 00 00 01, unless a start code runs over
the end. -/
theorem parseH264Param_describes_iff (hs : 0 < size) (hcode : readLE m data 4 = 0x01000000) :
    Describes m (parseH264Param junk m data size) (nalUnits (slice m data size)) ↔ ¬ Overruns m data size := by
  have hc : codeLen m (data + 0) = 4 := if_pos hcode
  have hc0 : codeLen m (data + 0) ≠ 0 := by rw [hc]; decide
  have hfirst : parseH264Param junk m data size = parseH264Loop m data size size (0 + codeLen m (data + 0) + 1)
      ⟨(m (data + 0 + codeLen m (data + 0))).toNat % 32, data + 0 + codeLen m (data + 0), 1⟩ true [] :=
    h264Loop_code hs hc0
  have hunits : nalUnits (slice m data size) = (splitNal (size + 1) (slice m (data + 0) (size - 0))).2 := by
    rw [nalUnits, length_slice]
    rfl
  rw [Overruns, not_not, hfirst, hunits]
  by_cases h4 : 0 + codeLen m (data + 0) < size
  · rw [splitNal_inside hc0 h4, beyond_inside hc0 h4]
    have hlen : ∀ (info : NaluInfo) (list : List NaluInfo),
        (parseH264Loop m data size size (0 + codeLen m (data + 0) + 1) info true list).length = _ :=
      h264Loop_length size (0 + codeLen m (data + 0) + 1) h4 (by omega)
    constructor
    · intro hd
      have := congrArg List.length hd
      simp only [List.length_map, hlen, List.length_nil, List.length_cons] at this
      rw [← Option.toList_eq_nil_iff, ← List.length_eq_zero_iff]
      omega
    · intro hb
      have hinfo := readTo_header m data (0 + codeLen m (data + 0))
      simpa [slice_one, add_assoc] using h264Loop_describes size _ h4 (by omega) _ [] [] hinfo rfl hb
  · rw [splitNal_cut hs (not_lt.1 h4), beyond_cut hs hc0 (not_lt.1 h4), h264Loop_end (by omega)]
    simp [Describes]

/-- bytes in memory, zeros behind them -/
def frameMem (l : List UInt8) : Mem := fun i => l.getD i 0

/-- the recorder's answer is decided by the frame alone: 0 for an IDR slice, otherwise one value that is not 0 -/
def DecidesByFrame (m : Mem) (data size : ℕ) : Prop :=
  ∃ v : ℤ, v ≠ 0 ∧ ∀ noRet, parseKeyFrame noRet m data size = if HasIdr (nalUnits (slice m data size)) then 0 else v

/-- **The recorder decides by the frame alone on key frames only.** For a frame without IDR slice there is no `return`;
in a program where the missing one leaves `noRet total`, the answer is 0 for key frames and only for these iff no header
behind the end of the frame has type 5 and that value is not 0. -/
theorem parseKeyFrame_decides_iff (m : Mem) (data size : ℕ) :
    (DecidesByFrame m data size ↔ HasIdr (nalUnits (slice m data size))) ∧
    ∀ noRet, ((parseKeyFrame noRet m data size = 0 ↔ HasIdr (nalUnits (slice m data size))) ↔
      HasIdr (nalUnits (slice m data size)) ∨ ¬ ZeroAnyway noRet size (beyond m data size (size + 1) 0)) := by
  constructor
  · constructor
    · rintro ⟨v, hv, hall⟩
      by_contra hno
      -- the missing return may leave a 0
      have hzero : ZeroAnyway (fun _ => 0) size (beyond m data size (size + 1) 0) := by
        cases beyond m data size (size + 1) 0 with
        | none => exact rfl
        | some b => exact Or.inr rfl
      have h := hall fun _ => 0
      rw [if_neg hno, parseKeyFrame_zero_iff.2 (Or.inr hzero)] at h
      exact hv h.symm
    · intro hidr
      refine ⟨1, one_ne_zero, fun noRet => ?_⟩
      rw [if_pos hidr]
      exact parseKeyFrame_zero_iff.2 (Or.inl hidr)
  · intro noRet
    rw [parseKeyFrame_zero_iff]
    tauto

/-- a slice that is not IDR, with two zero bytes at its end; behind it either nothing or the bytes 01 65 -/
def trailingZeros (behind : List UInt8) : Mem := frameMem ([0, 0, 1, 0x41, 0x9a, 0, 0] ++ behind)

/-- **The bytes behind a frame decide**: the same seven bytes, without IDR slice, are a key frame when the bytes behind
them complete a start code and an IDR header, and no key frame when they do not; and without a `return` the value may be
0 all the same. -/
theorem trailing_zeros_decide :
    slice (trailingZeros [1, 0x65]) 0 7 = slice (trailingZeros []) 0 7 ∧
    ¬ HasIdr (nalUnits (slice (trailingZeros []) 0 7)) ∧
    parseKeyFrame (fun total => total) (trailingZeros [1, 0x65]) 0 7 = 0 ∧
    parseKeyFrame (fun total => total) (trailingZeros []) 0 7 = 7 ∧
    parseKeyFrame (fun _ => 0) (trailingZeros []) 0 7 = 0 := by
  decide +kernel

/-- the player has listed the units of this frame, and agrees with the recorder -/
structure Agrees (noRet : ℕ → ℤ) (m : Mem) (data size : ℕ) (p : Player) : Prop where
  lists : Describes m p.naluList (nalUnits (slice m data size))
  key : p.isKeyFrame = true ↔ parseKeyFrame noRet m data size = 0

/-- **Recorder and player agree on a frame** exactly if the frame is scanned and no start code runs over its end, or
it is not scanned and the list of the frame before is right for it too; and, for a frame without IDR slice,
`ParseKeyFrame` does not return 0 anyway. -/
theorem key_frames_agree_iff (noRet : ℕ → ℤ) (junk : NaluInfo) (m : Mem) (data size : ℕ) (hs : 1 ≤ size) (p : Player) :
    Agrees noRet m data size (p.parseVideoData junk m data size) ↔
      (if readLE m data 4 = 0x01000000 then ¬ Overruns m data size
        else Describes m p.naluList (nalUnits (slice m data size))) ∧
      (HasIdr (nalUnits (slice m data size)) ∨ ¬ ZeroAnyway noRet size (beyond m data size (size + 1) 0)) := by
  have hlist : Describes m (p.parseVideoData junk m data size).naluList (nalUnits (slice m data size)) ↔
      if readLE m data 4 = 0x01000000 then ¬ Overruns m data size
        else Describes m p.naluList (nalUnits (slice m data size)) := by
    rw [Player.parseVideoData_naluList]
    split_ifs with hcode
    · exact parseH264Param_describes_iff hs hcode
    · rfl
  rw [← hlist]
  constructor
  · rintro ⟨hd, hkey⟩
    refine ⟨hd, ?_⟩
    rw [Player.parseVideoData_isKeyFrame, hd.hasIdr_iff, parseKeyFrame_zero_iff] at hkey
    exact or_iff_not_imp_left.2 fun hno hzero => hno (hkey.2 (Or.inr hzero))
  · rintro ⟨hd, hor⟩
    refine ⟨hd, ?_⟩
    rw [Player.parseVideoData_isKeyFrame, hd.hasIdr_iff, parseKeyFrame_zero_iff]
    exact ⟨Or.inl, fun h => h.elim id fun hzero => hor.resolve_right (not_not.2 hzero)⟩

/-- an SPS, a PPS and an IDR slice, with both kinds of start codes -/
def idrFrame : Mem := frameMem [0, 0, 0, 1, 0x67, 1, 0, 0, 1, 0x68, 2, 0, 0, 1, 0x65, 3]

/-- a slice that is not IDR, with the short start code -/
def shortFrame : Mem := frameMem [0, 0, 1, 0x41, 2]

theorem key_frames_agree_idr :
    Agrees (fun total => total) idrFrame 0 16 (Player.init.parseVideoData ⟨0, 0, 0⟩ idrFrame 0 16) := by
  refine (key_frames_agree_iff _ _ idrFrame 0 16 (by decide) Player.init).2 ⟨?_, Or.inl (by decide +kernel)⟩
  rw [if_pos (by decide +kernel)]
  decide +kernel

/-- **The list of the frame before is kept**: after a key frame, a frame that begins with 00 00 01 is taken for a key
frame by the player and not by the recorder. The list describes other units than this frame's. -/
theorem stale_list :
    let p := Player.init.parseVideoData ⟨0, 0, 0⟩ idrFrame 0 16
    (p.parseVideoData ⟨0, 0, 0⟩ shortFrame 0 5).isKeyFrame = true ∧
      parseKeyFrame (fun total => total) shortFrame 0 5 = 5 ∧
      ¬ Describes shortFrame (p.parseVideoData ⟨0, 0, 0⟩ shortFrame 0 5).naluList (nalUnits (slice shortFrame 0 5)) ∧
      ¬ Agrees (fun total => total) shortFrame 0 5 (p.parseVideoData ⟨0, 0, 0⟩ shortFrame 0 5) := by
  intro p
  have hlist : ¬ Describes shortFrame (p.parseVideoData ⟨0, 0, 0⟩ shortFrame 0 5).naluList
      (nalUnits (slice shortFrame 0 5)) := by decide +kernel
  exact ⟨by decide +kernel, by decide +kernel, hlist, fun h => hlist h.lists⟩

end Frame

/-! ## Frames no start code runs over -/

/-- the frame does not end in a zero, nor in a whole start code -/
def Closed (f : List UInt8) : Prop := f.getLast? ≠ some 0 ∧ ¬ [0, 0, 1] <:+ f

instance (f : List UInt8) : Decidable (Closed f) := inferInstanceAs (Decidable (_ ∧ _))

/-- the bytes of a start code -/
theorem bytes_of_codeLen {m : Mem} {a : ℕ} (h : codeLen m a ≠ 0) :
    m a = 0 ∧ m (a + 1) = 0 ∧ (codeLen m a = 3 ∧ m (a + 2) = 1 ∨ codeLen m a = 4 ∧ m (a + 2) = 0 ∧ m (a + 3) = 1) := by
  have b0 := (m a).toNat_lt
  have b1 := (m (a + 1)).toNat_lt
  have b2 := (m (a + 2)).toNat_lt
  have b3 := (m (a + 3)).toNat_lt
  unfold codeLen at h ⊢
  simp only [readLE_four] at h ⊢
  split_ifs at h ⊢ with h4 h3
  · refine ⟨UInt8.toNat_inj.1 ?_, UInt8.toNat_inj.1 ?_, Or.inr ⟨rfl, UInt8.toNat_inj.1 ?_, UInt8.toNat_inj.1 ?_⟩⟩ <;>
      simp <;> omega
  · refine ⟨UInt8.toNat_inj.1 ?_, UInt8.toNat_inj.1 ?_, Or.inl ⟨rfl, UInt8.toNat_inj.1 ?_⟩⟩ <;> simp <;> omega
  · exact absurd rfl h

namespace Closed

variable {m : Mem} {data size : ℕ} {f : List UInt8}

theorem last_ne_zero (h : Closed f) (hf : slice m data size = f) (hpos : 0 < size) : m (data + (size - 1)) ≠ 0 := by
  intro hzero
  apply h.1
  rw [← hf, List.getLast?_eq_getElem?, length_slice]
  simp [slice, hpos, hzero]

theorem not_code (h : Closed f) (hf : slice m data size = f) {a : ℕ} (ha : a + 3 = size) (h0 : m (data + a) = 0)
    (h1 : m (data + a + 1) = 0) : m (data + a + 2) ≠ 1 := by
  intro h2
  apply h.2
  refine ⟨slice m data a, ?_⟩
  have hcode : slice m (data + a) 3 = [0, 0, 1] := by
    rw [show slice m (data + a) 3 = [m (data + a), m (data + a + 1), m (data + a + 2)] from rfl, h0, h1, h2]
  rw [← hf, ← ha, slice_add, hcode]

/-- no start code runs over the end, whatever is behind the frame -/
theorem beyond_eq_none (h : Closed f) (hf : slice m data size = f) (fuel pos : ℕ) (hpos : pos ≤ size)
    (hfuel : size - pos < fuel) : beyond m data size fuel pos = none := by
  induction fuel generalizing pos with
  | zero => omega
  | succ fuel ih =>
    rcases Nat.lt_or_ge pos size with hlt | hge
    · by_cases hc : codeLen m (data + pos) = 0
      · rw [beyond_plain hlt hc]
        exact ih _ hlt (by omega)
      · rcases Nat.lt_or_ge (pos + codeLen m (data + pos)) size with hin | hcut
        · rw [beyond_inside hc hin]
          exact ih _ hin (by omega)
        · -- the code reaches the end: the last byte is one of its zeros, or it is all there
          exfalso
          have hlast := h.last_ne_zero hf (Nat.zero_lt_of_lt hlt)
          obtain ⟨h0, h1, hrest⟩ := bytes_of_codeLen hc
          rcases hrest with ⟨h3, h2⟩ | ⟨h4, h2, h3⟩
          · rw [h3] at hcut
            obtain hs | hs | hs : size = pos + 1 ∨ size = pos + 2 ∨ size = pos + 3 := by omega
            · exact hlast (by rw [hs, Nat.add_sub_cancel, h0])
            · exact hlast (by rw [hs, show pos + 2 - 1 = pos + 1 by omega, ← add_assoc, h1])
            · exact h.not_code hf hs.symm h0 h1 h2
          · rw [h4] at hcut
            obtain hs | hs | hs | hs : size = pos + 1 ∨ size = pos + 2 ∨ size = pos + 3 ∨ size = pos + 4 := by omega
            · exact hlast (by rw [hs, Nat.add_sub_cancel, h0])
            · exact hlast (by rw [hs, show pos + 2 - 1 = pos + 1 by omega, ← add_assoc, h1])
            · exact hlast (by rw [hs, show pos + 3 - 1 = pos + 2 by omega, ← add_assoc, h2])
            · exact h.not_code hf (a := pos + 1) hs.symm h1 h2 h3
    · exact beyond_end hge

theorem not_overruns (h : Closed f) (hf : slice m data size = f) : ¬ Overruns m data size :=
  not_not.2 (h.beyond_eq_none hf (size + 1) 0 (Nat.zero_le _) (by omega))

end Closed

end StoreService.Playback
