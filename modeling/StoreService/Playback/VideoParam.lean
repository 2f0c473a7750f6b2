/-
The configuration record of the decoder (`PacketVideoParam`, `SendVideoParam`, rtmpsrv.cpp).

Before the first key frame the player is sent the stream's SPS and PPS: a header of five bytes and an
AVCDecoderConfigurationRecord with one unit of each kind, each behind a length of two bytes. The units come from the
list of the frame; the PPS is sent with a zero behind it, which its length counts.

Model: the units are read from the player's frame buffer and written to another one, as for video data. `decodeParam`
is what a receiver makes of a record.

- `video_param_iff`: the record is read to its end and gives the SPS and the PPS with at most one zero behind it, iff
  the SPS has fewer than 2^16 bytes and the PPS fewer than 2^16 - 1.
- `Player.videoParam_ne_none`: after any frame the indices that `SendVideoParam` uses lie in the list.
- `long_units`: an SPS of 2^16 bytes is announced as empty, and so is a PPS of 2^16 - 1 bytes.
-/
import StoreService.Playback.Packet

namespace StoreService.Playback

open StoreService.ByteMem StoreService.Store

/-! ## The functions -/

/-- a number in two bytes, the most significant first: `(n >> 8) & 0xff` and `n & 0xff` -/
def be16 (n : ℕ) : List UInt8 := [UInt8.ofNat (n / 2 ^ 8), UInt8.ofNat n]

/-- the bytes before the SPS -/
def paramHeader (m : Mem) (sps : NaluInfo) : List UInt8 :=
  [0x17, 0x00, 0x00, 0x00, 0x00, 0x01, m (sps.nalu + 1), m (sps.nalu + 2), m (sps.nalu + 3), 0xff, 0xe1] ++
    be16 sps.naluLen

/-- `PacketVideoParam`: the buffer, and the `i` it returns -/
def packetVideoParam (m : Mem) (naluList : List NaluInfo) (spsIdx ppsIdx : Fin naluList.length) (body : Mem) :
    Mem × ℕ :=
  let sps := naluList.get spsIdx
  let pps := naluList.get ppsIdx
  let b := (paramHeader m sps).foldl putByte (body, 0)
  let b := (slice m sps.nalu sps.naluLen).foldl putByte b
  let ppsSize := u32 (pps.naluLen + 1)
  let b := ((0x01 : UInt8) :: be16 ppsSize).foldl putByte b
  let b := (slice m pps.nalu pps.naluLen).foldl putByte b
  putByte b 0

/-- the record that `SendVideoParam` packs: the outer `none` is an index outside the list, the inner one that nothing is
sent -/
def Player.videoParam (m : Mem) (p : Player) (body : Mem) : Option (Option (Mem × ℕ)) :=
  if p.keyFrameIdx < 0 ∨ p.spsIdx < 0 ∨ p.ppsIdx < 0 then some none
  else if h : p.spsIdx.toNat < p.naluList.length ∧ p.ppsIdx.toNat < p.naluList.length then
    some (some (packetVideoParam m p.naluList ⟨p.spsIdx.toNat, h.1⟩ ⟨p.ppsIdx.toNat, h.2⟩ body))
  else none

/-! ## What a receiver does with a record -/

structure AvcConfig where
  profile : UInt8
  compatibility : UInt8
  level : UInt8
  sps : List UInt8
  pps : List UInt8
deriving DecidableEq

/-- a length of two bytes, so many bytes and the rest -/
def readUnit : List UInt8 → Option (List UInt8 × List UInt8)
  | a :: b :: rest =>
    let n := a.toNat * 2 ^ 8 + b.toNat
    if n ≤ rest.length then some (rest.take n, rest.drop n) else none
  | _ => none

/-- a header of five bytes and a record with one SPS and one PPS, and nothing behind it -/
def decodeParam : List UInt8 → Option AvcConfig
  | 0x17 :: 0 :: _ :: _ :: _ :: 1 :: profile :: compatibility :: level :: _ :: numSps :: rest =>
    if numSps.toNat % 32 = 1 then
      match readUnit rest with
      | some (sps, numPps :: rest) =>
        if numPps = 1 then
          match readUnit rest with
          | some (pps, []) => some ⟨profile, compatibility, level, sps, pps⟩
          | _ => none
        else none
      | _ => none
    else none
  | _ => none

/-- the bytes sent are such a record, with the two units -/
def Consistent (m : Mem) (naluList : List NaluInfo) (spsIdx ppsIdx : Fin naluList.length) (body : Mem) : Prop :=
  let sps := naluList.get spsIdx
  let pps := naluList.get ppsIdx
  let sent := packetVideoParam m naluList spsIdx ppsIdx body
  ∃ c, decodeParam (slice sent.1 0 sent.2) = some c ∧ c.sps = slice m sps.nalu sps.naluLen ∧
    (c.pps = slice m pps.nalu pps.naluLen ∨ c.pps = slice m pps.nalu pps.naluLen ++ [0])

/-! ## Units behind their lengths -/

theorem readUnit_be16 (n : ℕ) (l : List UInt8) : readUnit (be16 n ++ l) =
    if n % 2 ^ 16 ≤ l.length then some (l.take (n % 2 ^ 16), l.drop (n % 2 ^ 16)) else none := by
  have hvalue : (UInt8.ofNat (n / 2 ^ 8)).toNat * 2 ^ 8 + (UInt8.ofNat n).toNat = n % 2 ^ 16 := by
    simp only [UInt8.toNat_ofNat']
    omega
  rw [be16, List.cons_append, List.cons_append, List.nil_append, readUnit]
  simp only [hvalue]

/-- a unit is short -/
theorem length_of_readUnit {l u rest : List UInt8} (h : readUnit l = some (u, rest)) : u.length < 2 ^ 16 := by
  match l with
  | [] | [_] => cases h
  | a :: b :: l =>
    rw [readUnit] at h
    obtain ⟨-, h⟩ := Option.ite_none_right_eq_some.1 h
    obtain ⟨rfl, -⟩ := Prod.mk.inj (Option.some.inj h)
    have ha := a.toNat_lt
    have hb := b.toNat_lt
    rw [List.length_take]
    omega

/-- both units of a record are short -/
theorem lengths_of_decodeParam {l : List UInt8} {c : AvcConfig} (h : decodeParam l = some c) :
    c.sps.length < 2 ^ 16 ∧ c.pps.length < 2 ^ 16 := by
  unfold decodeParam at h
  split at h
  · split_ifs at h
    split at h
    · rename_i sps numPps rest hsps
      split_ifs at h
      split at h
      · rename_i pps hpps
        obtain rfl := Option.some.inj h
        exact ⟨length_of_readUnit hsps, length_of_readUnit hpps⟩
      · cases h
    · cases h
  · cases h

/-! ## The record -/

section

variable {m : Mem} {naluList : List NaluInfo} {spsIdx ppsIdx : Fin naluList.length} {body : Mem}

/-- the bytes of a record -/
theorem packetVideoParam_written (hsps : (naluList.get spsIdx).naluLen < 2 ^ 16)
    (hpps : (naluList.get ppsIdx).naluLen < 2 ^ 16) :
    Written (packetVideoParam m naluList spsIdx ppsIdx body)
      (paramHeader m (naluList.get spsIdx) ++ slice m (naluList.get spsIdx).nalu (naluList.get spsIdx).naluLen ++
        (1 :: be16 ((naluList.get ppsIdx).naluLen + 1)) ++
        slice m (naluList.get ppsIdx).nalu (naluList.get ppsIdx).naluLen ++ [0]) := by
  unfold packetVideoParam
  generalize naluList.get spsIdx = sps at hsps ⊢
  generalize naluList.get ppsIdx = pps at hpps ⊢
  have hsize : u32 (pps.naluLen + 1) = pps.naluLen + 1 := Nat.mod_eq_of_lt (by omega)
  have hheader : (paramHeader m sps).length = 13 := rfl
  have hlength : ((1 : UInt8) :: be16 (pps.naluLen + 1)).length = 3 := rfl
  have hempty : Written (body, 0) [] := ⟨rfl, rfl⟩
  have h1 := hempty.putBytes (paramHeader m sps) (by rw [hheader]; decide)
  have h2 := h1.putBytes (slice m sps.nalu sps.naluLen) (by simp only [List.nil_append, hheader, length_slice]; omega)
  have h3 := h2.putBytes (1 :: be16 (pps.naluLen + 1))
    (by simp only [List.nil_append, List.length_append, hheader, length_slice, hlength]; omega)
  have h4 := h3.putBytes (slice m pps.nalu pps.naluLen)
    (by simp only [List.nil_append, List.length_append, hheader, length_slice, hlength]; omega)
  have h5 := h4.putByte 0
    (by simp only [List.nil_append, List.length_append, hheader, length_slice, hlength]; omega)
  dsimp only
  rw [hsize]
  exact h5

/-- what a receiver makes of a record whose SPS has its right length -/
theorem decodeParam_record {sps : NaluInfo} (hsps : sps.naluLen < 2 ^ 16) (n : ℕ) (l : List UInt8) :
    decodeParam (paramHeader m sps ++ slice m sps.nalu sps.naluLen ++ (1 :: be16 n) ++ l) =
      if n % 2 ^ 16 = l.length then
        some ⟨m (sps.nalu + 1), m (sps.nalu + 2), m (sps.nalu + 3), slice m sps.nalu sps.naluLen, l⟩
      else none := by
  have hread := readUnit_be16 sps.naluLen (slice m sps.nalu sps.naluLen ++ ((1 :: be16 n) ++ l))
  rw [Nat.mod_eq_of_lt hsps, if_pos (by rw [List.length_append, length_slice]; omega),
    List.take_left' (length_slice _ _ _), List.drop_left' (length_slice _ _ _)] at hread
  simp only [paramHeader, List.append_assoc, List.cons_append, List.nil_append, decodeParam] at hread ⊢
  rw [if_pos (by decide), hread]
  simp only [if_true, readUnit_be16]
  rcases lt_trichotomy (n % 2 ^ 16) l.length with hlt | heq | hgt
  · have hrest : l.drop (n % 2 ^ 16) ≠ [] := by
      rw [Ne, List.drop_eq_nil_iff]
      omega
    rw [if_pos hlt.le, if_neg (ne_of_lt hlt)]
    cases hdrop : l.drop (n % 2 ^ 16) with
    | nil => exact absurd hdrop hrest
    | cons b rest => rfl
  · rw [if_pos heq.le, if_pos heq, heq, List.drop_length, List.take_length]
  · rw [if_neg (not_le.2 hgt), if_neg (ne_of_gt hgt)]

theorem decodeParam_sent (hsps : (naluList.get spsIdx).naluLen < 2 ^ 16)
    (hpps : (naluList.get ppsIdx).naluLen < 2 ^ 16) :
    decodeParam (slice (packetVideoParam m naluList spsIdx ppsIdx body).1 0
      (packetVideoParam m naluList spsIdx ppsIdx body).2) =
      if (naluList.get ppsIdx).naluLen + 1 < 2 ^ 16 then
        some ⟨m ((naluList.get spsIdx).nalu + 1), m ((naluList.get spsIdx).nalu + 2),
          m ((naluList.get spsIdx).nalu + 3), slice m (naluList.get spsIdx).nalu (naluList.get spsIdx).naluLen,
          slice m (naluList.get ppsIdx).nalu (naluList.get ppsIdx).naluLen ++ [0]⟩
      else none := by
  have hwritten : Written (packetVideoParam m naluList spsIdx ppsIdx body) _ := packetVideoParam_written hsps hpps
  obtain ⟨hi, hbytes⟩ := hwritten
  rw [hi, hbytes, List.append_assoc _ _ [0], decodeParam_record hsps, List.length_append, length_slice]
  have hfits : ((naluList.get ppsIdx).naluLen + 1) % 2 ^ 16 = (naluList.get ppsIdx).naluLen + [(0 : UInt8)].length ↔
      (naluList.get ppsIdx).naluLen + 1 < 2 ^ 16 := by
    rw [List.length_singleton]
    omega
  simp only [hfits]

/-- what is read has lengths of two bytes -/
theorem lengths_of_consistent (h : Consistent m naluList spsIdx ppsIdx body) :
    (naluList.get spsIdx).naluLen < 2 ^ 16 ∧ (naluList.get ppsIdx).naluLen + 1 < 2 ^ 16 := by
  obtain ⟨c, hdecode, hsps, hpps⟩ := h
  obtain ⟨hlen, hlen'⟩ := lengths_of_decodeParam hdecode
  rw [hsps, length_slice] at hlen
  have hle : (naluList.get ppsIdx).naluLen < 2 ^ 16 := by
    rcases hpps with h | h <;> simp only [h, List.length_append, length_slice] at hlen' <;> omega
  rw [decodeParam_sent hlen hle] at hdecode
  exact ⟨hlen, (Option.ite_none_right_eq_some.1 hdecode).1⟩

end

/-- **When a record is consistent.** -/
theorem video_param_iff (m : Mem) (naluList : List NaluInfo) (spsIdx ppsIdx : Fin naluList.length) (body : Mem) :
    Consistent m naluList spsIdx ppsIdx body ↔
      (naluList.get spsIdx).naluLen < 2 ^ 16 ∧ (naluList.get ppsIdx).naluLen + 1 < 2 ^ 16 := by
  constructor
  · exact lengths_of_consistent
  · rintro ⟨hsps, hpps⟩
    exact ⟨_, (decodeParam_sent hsps (by omega)).trans (if_pos hpps), rfl, Or.inr rfl⟩

/-- an SPS of 2^16 bytes; a PPS of 2^16 - 1 bytes -/
theorem long_units :
    ¬ Consistent (fun _ => 1) [⟨7, 4, 2 ^ 16⟩, ⟨8, 70000, 4⟩] ⟨0, by decide⟩ ⟨1, by decide⟩ (fun _ => 0) ∧
    ¬ Consistent (fun _ => 1) [⟨7, 4, 20⟩, ⟨8, 30, 2 ^ 16 - 1⟩] ⟨0, by decide⟩ ⟨1, by decide⟩ (fun _ => 0) :=
  ⟨fun h => absurd (lengths_of_consistent h).1 (by decide), fun h => absurd (lengths_of_consistent h).2 (by decide)⟩

/-! ## The indices -/

namespace Player

/-- an index that a frame leaves is -1 or lies in the list -/
theorem parseUnits_idx (l : List NaluInfo) (i : ℕ) (p : Player) (exist : Bool) :
    ((parseUnits i l (p, exist)).1.spsIdx = p.spsIdx ∨ (parseUnits i l (p, exist)).1.spsIdx < i + l.length) ∧
      ((parseUnits i l (p, exist)).1.ppsIdx = p.ppsIdx ∨ (parseUnits i l (p, exist)).1.ppsIdx < i + l.length) := by
  induction l generalizing i p exist with
  | nil => exact ⟨Or.inl rfl, Or.inl rfl⟩
  | cons e l ih =>
    unfold parseUnits
    rw [List.length_cons]
    split_ifs with h5 h7 h8
    · have hrest := ih (i + 1) { p with keyFrameCnt := 1, isKeyFrame := true, keyFrameIdx := i } true
      push_cast at hrest ⊢
      exact ⟨hrest.1.imp_right fun h => by omega, hrest.2.imp_right fun h => by omega⟩
    · have hrest := ih (i + 1) { p with spsIdx := i } exist
      push_cast at hrest ⊢
      exact ⟨Or.inr (by rcases hrest.1 with h | h <;> omega), hrest.2.imp_right fun h => by omega⟩
    · have hrest := ih (i + 1) { p with ppsIdx := i } exist
      push_cast at hrest ⊢
      exact ⟨hrest.1.imp_right fun h => by omega, Or.inr (by rcases hrest.2 with h | h <;> omega)⟩
    · have hrest := ih (i + 1) p exist
      push_cast at hrest ⊢
      exact ⟨hrest.1.imp_right fun h => by omega, hrest.2.imp_right fun h => by omega⟩

/-- **`SendVideoParam` stays in the list**, after any frame and whatever was there before. -/
theorem videoParam_ne_none (junk : NaluInfo) (m : Mem) (data size : ℕ) (p : Player) (body : Mem) :
    (p.parseVideoData junk m data size).videoParam m body ≠ none := by
  have hvalid : ((p.parseVideoData junk m data size).spsIdx = -1 ∨
      (p.parseVideoData junk m data size).spsIdx < (p.parseVideoData junk m data size).naluList.length) ∧
      ((p.parseVideoData junk m data size).ppsIdx = -1 ∨
        (p.parseVideoData junk m data size).ppsIdx < (p.parseVideoData junk m data size).naluList.length) := by
    unfold parseVideoData
    have hstart : ({ p with keyFrameIdx := -1, spsIdx := -1, ppsIdx := -1 }.parseVideoParam junk m data size).spsIdx =
        -1 ∧ ({ p with keyFrameIdx := -1, spsIdx := -1, ppsIdx := -1 }.parseVideoParam junk m data size).ppsIdx =
        -1 := by
      unfold parseVideoParam
      split_ifs <;> exact ⟨rfl, rfl⟩
    generalize { p with keyFrameIdx := -1, spsIdx := -1, ppsIdx := -1 }.parseVideoParam junk m data size = q at hstart ⊢
    have hidx := parseUnits_idx q.naluList 0 q false
    have hlist := (parseUnits_spec q.naluList 0 q false).1
    rw [hstart.1, hstart.2, Nat.cast_zero, zero_add] at hidx
    dsimp only
    split_ifs
    · rwa [hlist]
    · simp only [hlist]
      exact hidx
  unfold videoParam
  split_ifs with hsent hin
  · exact Option.some_ne_none _
  · exact Option.some_ne_none _
  · rw [not_or, not_or] at hsent
    exact absurd ⟨by omega, by omega⟩ hin

end Player

end StoreService.Playback
