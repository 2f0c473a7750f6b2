/-
A file as the client sees it (`StartPlaybackStoreFile`, `SendVideoParam`, `SendVideoData`, rtmpsrv.cpp).

The loop gets one frame after the other from the file. Until a key frame with an SPS and a PPS has been sent nothing is
sent; with it go a packet with the parameter sets and one with the frame, both at time 0, and every frame behind it goes
with its time since then. Two levels: `playback` is the loop with the static variables, the frame buffer, the buffer in
which bodies are put together and the packets as bytes; `shown` says what a client is to see of a list of frames: a
configuration, and for each frame its NAL units, whether it is a key frame, and its time.

- `playback_shows`: whatever the client's connection does, the packets of a file are received as `shown` says, if its
  frames are `Playable`: they begin with 00 00 00 01, do not end in a zero or in 00 00 01, have at most 300 KB, and
  their parameter sets have lengths that fit the record.
- `recorded_file_plays`: the whole way. In every run of a recorder that meets `RecordingOk`, what stands in the
  directory under the name of a file that was written is read by `ReadStoreFileFrame`, however the reads are cut, and
  played as the frames it was given.

Premises of `Playable`: without the first a frame is played as the one before it (`stale_list`), without the second a
unit may lie behind the frame (`unit_behind_frame`), a larger frame ends the playback (`large_frame_ends`), and a longer
parameter set is announced as empty (`long_units`).
-/
import StoreService.Store.Lossless
import StoreService.Playback.VideoParam

namespace StoreService.Playback

open StoreService.ByteMem StoreService.KeyFrame StoreService.Store StoreService.Runs

/-! ## What is sent -/

inductive HeaderType where
  | large
  | medium
deriving DecidableEq, Repr

/-- what is not the same in all packets given to `RTMP_SendPacket` -/
structure Packet where
  headerType : HeaderType
  timeStamp : ℕ
  body : List UInt8
deriving DecidableEq, Repr

/-- `sys_time - prev_sys_time`, a uint64_t, as the uint32_t of a packet -/
def elapsed (prevSysTime sysTime : ℕ) : ℕ := (sysTime + 2 ^ 64 - prevSysTime) % 2 ^ 64 % 2 ^ 32

/-- the variables of the loop, `VideoDataBody`, and the packets sent so far -/
structure Screening where
  playing : Playing
  videoDataBody : Mem
  sent : List Packet

namespace Screening

/-- a body is put together in `VideoDataBody` and given to `RTMP_SendPacket` -/
def sendPacket (s : Screening) (headerType : HeaderType) (timeStame : ℕ) (b : Mem × ℕ) : Screening :=
  { s with videoDataBody := b.1, sent := s.sent ++ [⟨headerType, timeStame, slice b.1 0 b.2⟩] }

def sendVideoData (s : Screening) (timeStame : ℕ) : Screening :=
  s.sendPacket .medium timeStame
    (packetVideoData s.playing.pOneFrame s.playing.player.isKeyFrame s.playing.player.naluList s.videoDataBody)

/-- `SendVideoParam`: the record and the frame itself, or nothing; `none` is an index outside the list -/
def sendVideoParam (s : Screening) (timeStame : ℕ) : Option Screening :=
  match s.playing.player.videoParam s.playing.pOneFrame s.videoDataBody with
  | some (some b) => if b.2 = 0 then some s else some ((s.sendPacket .large timeStame b).sendVideoData 0)
  | some none => some s
  | none => none

/-- a round on a frame of `size` bytes; the second result is whether the loop goes on -/
def round (client : Client) (junk : NaluInfo) (idx size : ℕ) (out : Mem) (sysTime : ℕ) (s : Screening) :
    Option (Screening × Bool) :=
  let r := { s.playing with pOneFrame := out, sysTime := sysTime }.body client junk idx size
  let t := { s with playing := r.1 }
  if s.playing.isGetFirstKeyFrame then some (t.sendVideoData (elapsed r.1.prevSysTime sysTime), r.2)
  else if r.1.player.isKeyFrame then (t.sendVideoParam 0).map fun u => (u, r.2)
  else some (t, r.2)

end Screening

/-- the loop from index `idx` on; `none` is a read outside the file or the list, or no end in sight -/
def playback (client : Client) (junk : NaluInfo) (pFrameBuf : Mem) : ℕ → ℕ → Screening → Option Screening
  | 0, _, _ => none
  | fuel + 1, idx, s =>
    match getOneFrameByIndex idx (some pFrameBuf) storeBufMaxSize (some s.playing.pOneFrame) playerFrameSize
        (some s.playing.sysTime) with
    | some (getFrameSize, some out, some sysTime) =>
      if getFrameSize > 0 then
        match s.round client junk idx getFrameSize.toNat out sysTime with
        | some (t, true) => playback client junk pFrameBuf fuel (idx + 1) t
        | some (t, false) => some t
        | none => none
      else some s
    | _ => none

/-! ## What is to be seen -/

inductive Received where
  | config (c : AvcConfig)
  | video (key : Bool) (time : ℕ) (units : List (List UInt8))
deriving DecidableEq

/-- what a client makes of a packet; the second byte of the body tells records from frames -/
def Packet.receive (p : Packet) : Option Received :=
  match p.body with
  | _ :: 0 :: _ => (decodeParam p.body).map Received.config
  | _ :: 1 :: _ =>
    match decodeBody p.body with
    | some (header, us) =>
      if header = videoHeader true then some (.video true p.timeStamp us)
      else if header = videoHeader false then some (.video false p.timeStamp us)
      else none
    | none => none
  | _ => none

/-- the last unit of a type -/
def lastOfType (n : ℕ) (us : List (List UInt8)) : Option (List UInt8) := us.reverse.find? fun u => nalType u = n

/-- SPS and PPS of a key frame that brings both -/
def paramSets (us : List (List UInt8)) : Option (List UInt8 × List UInt8) :=
  if HasIdr us then
    match lastOfType 7 us, lastOfType 8 us with
    | some sps, some pps => some (sps, pps)
    | _, _ => none
  else none

/-- profile, compatibility and level are the bytes behind the header of the SPS; the PPS goes with a zero behind it -/
def configOf (sps pps : List UInt8) : AvcConfig := ⟨sps.getD 1 0, sps.getD 2 0, sps.getD 3 0, sps, pps ++ [0]⟩

/-- the frames behind the first key frame, which has the time `start`, while the client is connected -/
def follow (client : Client) (start : ℕ) : ℕ → List (List UInt8 × ℕ) → List Received
  | _, [] => []
  | i, f :: fs =>
    .video (HasIdr (nalUnits f.1)) (elapsed start f.2) (nalUnits f.1) ::
      if client.isConnected i then follow client start (i + 1) fs else []

/-- **What the client is to see** of frames from index `i` on: the first key frame with its parameter sets, and the
frames behind it; a key frame that could not be sent is not the first -/
def shown (client : Client) : ℕ → List (List UInt8 × ℕ) → List Received
  | _, [] => []
  | i, f :: fs =>
    match paramSets (nalUnits f.1) with
    | some (sps, pps) =>
      .config (configOf sps pps) :: .video true 0 (nalUnits f.1) ::
        if client.sendPacket i then follow client f.2 (i + 1) fs else shown client (i + 1) fs
    | none => shown client (i + 1) fs

structure Playable (f : List UInt8) : Prop where
  code : f.take 4 = [0, 0, 0, 1]
  closed : Closed f
  size : f.length ≤ playerFrameSize
  params : ∀ sps pps, paramSets (nalUnits f) = some (sps, pps) →
    4 ≤ sps.length ∧ sps.length < 2 ^ 16 ∧ pps.length + 1 < 2 ^ 16

/-! ## The indices of the parameter sets -/

namespace Player

/-- the last index, counted from `i`, of a unit of type `n`; `d` without one -/
def lastIdx (n : ℕ) : ℕ → List NaluInfo → ℤ → ℤ
  | _, [], d => d
  | i, e :: l, d => lastIdx n (i + 1) l (if e.type = n then i else d)

theorem parseUnits_lastIdx (l : List NaluInfo) (i : ℕ) (p : Player) (exist : Bool) :
    (parseUnits i l (p, exist)).1.keyFrameIdx = lastIdx 5 i l p.keyFrameIdx ∧
      (parseUnits i l (p, exist)).1.spsIdx = lastIdx 7 i l p.spsIdx ∧
      (parseUnits i l (p, exist)).1.ppsIdx = lastIdx 8 i l p.ppsIdx := by
  induction l generalizing i p exist with
  | nil => exact ⟨rfl, rfl, rfl⟩
  | cons e l ih =>
    simp only [parseUnits, lastIdx]
    split_ifs with h5 h7 h8 <;> first | omega | exact ih _ _ _

theorem lastIdx_spec (n : ℕ) (l : List NaluInfo) (i : ℕ) (d : ℤ) :
    (lastIdx n i l d = d ∧ (l.reverse.find? fun e => e.type = n) = none) ∨
      ∃ k, ∃ h : k < l.length, lastIdx n i l d = (i + k : ℕ) ∧ (l.reverse.find? fun e => e.type = n) = some l[k] := by
  induction l generalizing i d with
  | nil => exact Or.inl ⟨rfl, rfl⟩
  | cons e l ih =>
    rw [lastIdx, List.reverse_cons, List.find?_append]
    rcases ih (i + 1) (if e.type = n then i else d) with ⟨hd, hnone⟩ | ⟨k, hk, hd, hsome⟩
    · rw [hd, hnone]
      by_cases he : e.type = n
      · refine Or.inr ⟨0, by simp, by simp [he], by simp [he]⟩
      · exact Or.inl ⟨by simp [he], by simp [he]⟩
    · refine Or.inr ⟨k + 1, by simpa using hk, ?_, ?_⟩
      · rw [hd]
        push_cast
        ring
      · rw [hsome]
        rfl

theorem parseVideoData_indices (junk : NaluInfo) (m : Mem) (data size : ℕ) (p : Player) :
    (p.parseVideoData junk m data size).keyFrameIdx =
        lastIdx 5 0 (p.parseVideoData junk m data size).naluList (-1) ∧
      (p.parseVideoData junk m data size).spsIdx = lastIdx 7 0 (p.parseVideoData junk m data size).naluList (-1) ∧
      (p.parseVideoData junk m data size).ppsIdx = lastIdx 8 0 (p.parseVideoData junk m data size).naluList (-1) := by
  have hstart : let q := { p with keyFrameIdx := -1, spsIdx := -1, ppsIdx := -1 }.parseVideoParam junk m data size
      q.keyFrameIdx = -1 ∧ q.spsIdx = -1 ∧ q.ppsIdx = -1 := by
    unfold parseVideoParam
    split_ifs <;> exact ⟨rfl, rfl, rfl⟩
  unfold parseVideoData
  generalize { p with keyFrameIdx := -1, spsIdx := -1, ppsIdx := -1 }.parseVideoParam junk m data size = q at hstart ⊢
  obtain ⟨hkey, hsps, hpps⟩ := parseUnits_lastIdx q.naluList 0 q false
  have hlist := (parseUnits_spec q.naluList 0 q false).1
  rw [hstart.1] at hkey
  rw [hstart.2.1] at hsps
  rw [hstart.2.2] at hpps
  dsimp only
  split_ifs
  · rw [hlist]
    exact ⟨hkey, hsps, hpps⟩
  · simp only [hlist]
    exact ⟨hkey, hsps, hpps⟩

end Player

/-- the last unit of a type, in the list and in the frame -/
theorem Describes.lastOfType {m : Mem} {l : List NaluInfo} {us : List (List UInt8)} (h : Describes m l us) (n : ℕ) :
    lastOfType n us = (l.reverse.find? fun e => e.type = n).map fun e => slice m e.nalu e.naluLen := by
  have hrev : l.reverse.map (NaluInfo.unit m) = us.reverse.map fun u => (nalType u, u) := by
    rw [List.map_reverse, List.map_reverse]
    exact congrArg List.reverse h
  have hfind := congrArg (fun xs => (xs.find? fun x => x.1 = n).map Prod.snd) hrev
  simp only [List.find?_map, Option.map_map] at hfind
  exact (congrFun Option.map_id _).symm.trans hfind.symm

/-! ## A frame that can be played -/

section Frame

variable {m : Mem} {size : ℕ} {f : List UInt8}

theorem Playable.pos (h : Playable f) : 4 ≤ f.length := by
  have hlen := congrArg List.length h.code
  rw [List.length_take] at hlen
  simp only [List.length_cons, List.length_nil] at hlen
  omega

theorem Playable.load (h : Playable f) (hf : slice m 0 f.length = f) : readLE m 0 4 = 0x01000000 := by
  have hpos := h.pos
  have hfour : slice m 0 4 = [0, 0, 0, 1] := by
    have htake := ByteMem.take_slice m 0 f.length 4
    rw [hf, min_eq_left hpos, h.code] at htake
    exact htake.symm
  have hbytes : slice m 0 4 = [m 0, m 1, m 2, m 3] := rfl
  rw [hbytes] at hfour
  simp only [List.cons.injEq, and_true] at hfour
  obtain ⟨h0, h1, h2, h3⟩ := hfour
  rw [readLE_four, zero_add, zero_add, zero_add, h0, h1, h2, h3]
  rfl

/-- the list of a frame that can be played, whatever was there before and whatever is behind the frame -/
theorem Playable.parse (h : Playable f) (hf : slice m 0 f.length = f) (junk : NaluInfo) (p : Player) :
    Describes m (p.parseVideoData junk m 0 f.length).naluList (nalUnits f) ∧
      ((p.parseVideoData junk m 0 f.length).isKeyFrame = true ↔ HasIdr (nalUnits f)) ∧
      bodySize (p.parseVideoData junk m 0 f.length).naluList ≤ videoDataBufSize := by
  have hload := h.load hf
  have hpos := h.pos
  have hlist : Describes m (p.parseVideoData junk m 0 f.length).naluList (nalUnits f) := by
    have hdesc : Describes m (parseH264Param junk m 0 f.length) (nalUnits (slice m 0 f.length)) :=
      (parseH264Param_describes_iff (by omega) hload).2 (h.closed.not_overruns hf)
    rw [hf] at hdesc
    rw [Player.parseVideoData_naluList, if_pos hload]
    exact hdesc
  refine ⟨hlist, (Player.parseVideoData_isKeyFrame junk m 0 f.length p).trans hlist.hasIdr_iff, ?_⟩
  rw [Player.parseVideoData_naluList, if_pos hload]
  refine fits_of_code junk m 0 f.length h.size ⟨0, by omega, ?_⟩
  rw [codeLen, if_pos (by rw [zero_add]; exact hload)]
  decide

/-- `SendVideoParam` sends the parameter sets of the frame, or nothing if there are none -/
theorem videoParam_of_describes {junk : NaluInfo} {p : Player} {us : List (List UInt8)} (body : Mem)
    (h : Describes m (p.parseVideoData junk m 0 size).naluList us) :
    (paramSets us = none → (p.parseVideoData junk m 0 size).videoParam m body = some none) ∧
      ∀ sps pps, paramSets us = some (sps, pps) → 4 ≤ sps.length → sps.length < 2 ^ 16 → pps.length + 1 < 2 ^ 16 →
        ∃ b, (p.parseVideoData junk m 0 size).videoParam m body = some (some b) ∧ b.2 ≠ 0 ∧
          decodeParam (slice b.1 0 b.2) = some (configOf sps pps) := by
  obtain ⟨hkey, hsps, hpps⟩ := p.parseVideoData_indices junk m 0 size
  generalize p.parseVideoData junk m 0 size = q at h hkey hsps hpps ⊢
  have nothing : q.keyFrameIdx < 0 ∨ q.spsIdx < 0 ∨ q.ppsIdx < 0 → q.videoParam m body = some none := by
    intro hneg
    rw [Player.videoParam, if_pos hneg]
  -- a set that is missing: nothing is packed, and nothing is to be seen
  have missing : q.videoParam m body = some none → paramSets us = none →
      (paramSets us = none → q.videoParam m body = some none) ∧
      ∀ sps pps, paramSets us = some (sps, pps) → 4 ≤ sps.length → sps.length < 2 ^ 16 → pps.length + 1 < 2 ^ 16 →
        ∃ b, q.videoParam m body = some (some b) ∧ b.2 ≠ 0 ∧
          decodeParam (slice b.1 0 b.2) = some (configOf sps pps) := by
    intro hnone hsets
    refine ⟨fun _ => hnone, fun sps pps hsome => ?_⟩
    rw [hsets] at hsome
    cases hsome
  rcases Player.lastIdx_spec 5 q.naluList 0 (-1) with ⟨hd, hnone⟩ | ⟨k5, hk5, hd5, hsome5⟩
  · refine missing (nothing (Or.inl (by rw [hkey, hd]; decide))) (if_neg fun hidr => ?_)
    obtain ⟨e, he, htype⟩ := h.hasIdr_iff.2 hidr
    have hno := List.find?_eq_none.1 hnone e (List.mem_reverse.2 he)
    simp [htype] at hno
  · have hidr : HasIdr us := by
      refine h.hasIdr_iff.1 ⟨_, List.getElem_mem hk5, ?_⟩
      simpa using List.find?_some hsome5
    rcases Player.lastIdx_spec 7 q.naluList 0 (-1) with ⟨hd, hnone⟩ | ⟨k7, hk7, hd7, hsome7⟩
    · refine missing (nothing (Or.inr (Or.inl (by rw [hsps, hd]; decide)))) ?_
      rw [paramSets, if_pos hidr, h.lastOfType 7, hnone]
      rfl
    · rcases Player.lastIdx_spec 8 q.naluList 0 (-1) with ⟨hd, hnone⟩ | ⟨k8, hk8, hd8, hsome8⟩
      · refine missing (nothing (Or.inr (Or.inr (by rw [hpps, hd]; decide)))) ?_
        rw [paramSets, if_pos hidr, h.lastOfType 7, h.lastOfType 8, hnone, hsome7]
        rfl
      · have hsets : paramSets us = some (slice m (q.naluList[k7]).nalu (q.naluList[k7]).naluLen,
            slice m (q.naluList[k8]).nalu (q.naluList[k8]).naluLen) := by
          rw [paramSets, if_pos hidr, h.lastOfType 7, h.lastOfType 8, hsome7, hsome8]
          rfl
        rw [hd5] at hkey
        rw [hd7, zero_add] at hsps
        rw [hd8, zero_add] at hpps
        refine ⟨fun hnone => ?_, fun sps pps hsome h4 hs hp => ?_⟩
        · rw [hsets] at hnone
          cases hnone
        · rw [hsets, Option.some.injEq, Prod.mk.injEq] at hsome
          obtain ⟨rfl, rfl⟩ := hsome
          rw [length_slice] at h4 hs hp
          have hin : q.spsIdx.toNat < q.naluList.length ∧ q.ppsIdx.toNat < q.naluList.length := by
            rw [hsps, hpps, Int.toNat_natCast, Int.toNat_natCast]
            exact ⟨hk7, hk8⟩
          have hget7 : q.naluList.get ⟨q.spsIdx.toNat, hin.1⟩ = q.naluList[k7] := by
            simp only [hsps, Int.toNat_natCast, List.get_eq_getElem]
          have hget8 : q.naluList.get ⟨q.ppsIdx.toNat, hin.2⟩ = q.naluList[k8] := by
            simp only [hpps, Int.toNat_natCast, List.get_eq_getElem]
          set b := packetVideoParam m q.naluList ⟨q.spsIdx.toNat, hin.1⟩ ⟨q.ppsIdx.toNat, hin.2⟩ body with hb
          have hsent : decodeParam (slice b.1 0 b.2) = _ :=
            decodeParam_sent (by rw [hget7]; exact hs) (by rw [hget8]; omega)
          rw [hget7, hget8, if_pos hp] at hsent
          refine ⟨b, ?_, ?_, ?_⟩
          · rw [Player.videoParam, if_neg (by omega), dif_pos hin]
          · intro hzero
            rw [hzero] at hsent
            cases hsent
          · have hbyte : ∀ i, i < (q.naluList[k7]).naluLen →
                (slice m (q.naluList[k7]).nalu (q.naluList[k7]).naluLen).getD i 0 = m ((q.naluList[k7]).nalu + i) := by
              intro i hi
              simp [slice, hi]
            rw [hsent, configOf, hbyte 1 (by omega), hbyte 2 (by omega), hbyte 3 (by omega)]

end Frame

/-! ## Packets -/

/-- a record is received as its configuration -/
theorem receive_config {p : Packet} {c : AvcConfig} (h : decodeParam p.body = some c) :
    p.receive = some (.config c) := by
  obtain ⟨rest, hrest⟩ : ∃ rest, p.body = 0x17 :: 0 :: rest := by
    unfold decodeParam at h
    split at h
    · exact ⟨_, by assumption⟩
    · cases h
  unfold Packet.receive
  rw [h]
  simp only [hrest, Option.map_some]

theorem le_bodySize {list : List NaluInfo} {e : NaluInfo} (he : e ∈ list) : e.naluLen ≤ bodySize list := by
  have hle : 4 + e.naluLen ≤ (list.map fun e => 4 + e.naluLen).sum :=
    List.le_sum_of_mem (List.mem_map_of_mem (f := fun e : NaluInfo => 4 + e.naluLen) he)
  rw [bodySize]
  omega

/-- a frame is received as its units -/
theorem receive_video (m : Mem) (key : Bool) (list : List NaluInfo) (body : Mem) (headerType : HeaderType) (time : ℕ)
    (hsize : bodySize list ≤ videoDataBufSize) :
    Packet.receive ⟨headerType, time,
        slice (packetVideoData m key list body).1 0 (packetVideoData m key list body).2⟩ =
      some (.video key time (list.map fun e => slice m e.nalu e.naluLen)) := by
  have hlt : bodySize list < 2 ^ 32 := lt_of_le_of_lt hsize (by decide)
  obtain ⟨hi, hbytes⟩ := packetVideoData_written m key list body hlt
  have hdecode := decodeBody_header (videoHeader key) rfl (list.map fun e => slice m e.nalu e.naluLen) (by
    intro u hu
    obtain ⟨e, he, rfl⟩ := List.mem_map.1 hu
    rw [length_slice]
    exact lt_of_le_of_lt (le_bodySize he) hlt)
  rw [hi, hbytes]
  unfold Packet.receive
  simp only [hdecode]
  cases key with
  | true => simp [videoHeader]
  | false => simp [videoHeader]

/-! ## A round -/

section Round

variable (client : Client) (junk : NaluInfo) (idx time : ℕ) {out : Mem} {f : List UInt8} {s : Screening}

/-- the units a list describes are those of the frame -/
theorem Describes.slices {m : Mem} {l : List NaluInfo} {us : List (List UInt8)} (h : Describes m l us) :
    (l.map fun e => slice m e.nalu e.naluLen) = us := by
  have hsnd := congrArg (List.map Prod.snd) h
  rw [List.map_map, List.map_map] at hsnd
  exact hsnd.trans (List.map_id _)

/-- the variables of the loop after a round: the frame is parsed, and a key frame that could be sent is the first -/
theorem Playing.body_spec (client : Client) (junk : NaluInfo) (idx size : ℕ) (s : Playing) :
    let p := s.player.parseVideoData junk s.pOneFrame 0 size
    let r := s.body client junk idx size
    r.1.player = p ∧ r.1.pOneFrame = s.pOneFrame ∧
      (s.isGetFirstKeyFrame = true →
        r.2 = client.isConnected idx ∧ r.1.isGetFirstKeyFrame = true ∧ r.1.prevSysTime = s.prevSysTime) ∧
      (s.isGetFirstKeyFrame = false → r.2 = true ∧
        if p.isKeyFrame = true ∧ p.sendVideoParam (client.sendPacket idx) = true then
          r.1.isGetFirstKeyFrame = true ∧ r.1.prevSysTime = s.sysTime
        else r.1.isGetFirstKeyFrame = false) := by
  obtain ⟨player, first, frame, firstTime, sysTime, prevTime⟩ := s
  dsimp only
  unfold Playing.body
  dsimp only
  -- `first_sys_time` is set and never read
  have hfirst : ∀ c : Prop, ∀ [Decidable c], (if c then (⟨player, first, frame, sysTime, sysTime, prevTime⟩ : Playing)
      else ⟨player, first, frame, firstTime, sysTime, prevTime⟩) =
      ⟨player, first, frame, if c then sysTime else firstTime, sysTime, prevTime⟩ := by
    intro c _
    split_ifs <;> rfl
  rw [hfirst]
  cases first with
  | true => simp
  | false =>
    by_cases hk : (player.parseVideoData junk frame 0 size).isKeyFrame = true
    · by_cases hsend : (player.parseVideoData junk frame 0 size).sendVideoParam (client.sendPacket idx) = true
      · simp [hk, hsend]
      · simp [hk, hsend]
    · simp [hk]

/-- behind the first key frame each frame is sent -/
theorem round_follow (h : Playable f) (hout : slice out 0 f.length = f)
    (hget : s.playing.isGetFirstKeyFrame = true) :
    ∃ t packet, s.round client junk idx f.length out time = some (t, client.isConnected idx) ∧
      t.playing.isGetFirstKeyFrame = true ∧ t.playing.prevSysTime = s.playing.prevSysTime ∧
      t.sent = s.sent ++ [packet] ∧
      packet.receive = some (.video (HasIdr (nalUnits f)) (elapsed s.playing.prevSysTime time) (nalUnits f)) := by
  obtain ⟨hdesc, hkey, hsize⟩ := h.parse hout junk s.playing.player
  obtain ⟨hplayer, hframe, hfirst, -⟩ := Playing.body_spec client junk idx f.length
    { s.playing with pOneFrame := out, sysTime := time }
  obtain ⟨hgo, hstays, hprev⟩ := hfirst hget
  unfold Screening.round
  dsimp only at hplayer hframe hgo hstays hprev ⊢
  generalize ({ s.playing with pOneFrame := out, sysTime := time } : Playing).body client junk idx f.length = r at *
  rw [if_pos hget, hgo]
  refine ⟨_, _, rfl, hstays, hprev, rfl, ?_⟩
  have hkeyb : r.1.player.isKeyFrame = decide (HasIdr (nalUnits f)) := by
    rw [Bool.eq_iff_iff, hplayer, hkey, decide_eq_true_iff]
  rw [← hplayer] at hdesc hsize
  rw [← hframe] at hdesc
  have hreceive := receive_video r.1.pOneFrame r.1.player.isKeyFrame r.1.player.naluList s.videoDataBody .medium
    (elapsed r.1.prevSysTime time) hsize
  rw [hdesc.slices, hkeyb, hprev] at hreceive
  rw [← hprev, ← hkeyb] at hreceive ⊢
  exact hreceive

/-- a player that has nothing to send does not look at the connection -/
theorem Player.sendVideoParam_eq {p : Player} {m body : Mem} (ok : Bool) :
    (p.videoParam m body = some none → p.sendVideoParam ok = false) ∧
      ∀ b, p.videoParam m body = some (some b) → p.sendVideoParam ok = ok := by
  unfold Player.videoParam Player.sendVideoParam
  split_ifs with hneg hin
  · refine ⟨fun _ => rfl, fun b h => ?_⟩
    cases h
  · refine ⟨fun h => ?_, fun _ _ => rfl⟩
    cases h
  · refine ⟨fun h => ?_, fun b h => ?_⟩
    · cases h
    · cases h

/-- before the first key frame: a frame without parameter sets is not sent -/
theorem round_skips (h : Playable f) (hout : slice out 0 f.length = f) (hget : s.playing.isGetFirstKeyFrame = false)
    (hsets : paramSets (nalUnits f) = none) :
    ∃ t, s.round client junk idx f.length out time = some (t, true) ∧ t.playing.isGetFirstKeyFrame = false ∧
      t.sent = s.sent := by
  obtain ⟨hdesc, hkey, hsize⟩ := h.parse hout junk s.playing.player
  have hparam := (videoParam_of_describes s.videoDataBody hdesc).1 hsets
  obtain ⟨hplayer, hframe, -, hfirst⟩ := Playing.body_spec client junk idx f.length
    { s.playing with pOneFrame := out, sysTime := time }
  obtain ⟨hgo, hstays⟩ := hfirst hget
  unfold Screening.round
  dsimp only at hplayer hframe hgo hstays ⊢
  rw [(Player.sendVideoParam_eq _).1 hparam, if_neg (by simp)] at hstays
  generalize ({ s.playing with pOneFrame := out, sysTime := time } : Playing).body client junk idx f.length = r at *
  rw [if_neg (by simp [hget]), hgo]
  by_cases hk : r.1.player.isKeyFrame = true
  · rw [if_pos hk, Screening.sendVideoParam]
    dsimp only
    rw [hplayer, hframe, hparam]
    exact ⟨_, rfl, hstays, rfl⟩
  · rw [if_neg hk]
    exact ⟨_, rfl, hstays, rfl⟩

/-- before the first key frame: one with parameter sets is sent behind them, and is the first if it could be sent -/
theorem round_first (h : Playable f) (hout : slice out 0 f.length = f) (hget : s.playing.isGetFirstKeyFrame = false)
    {sps pps : List UInt8} (hsets : paramSets (nalUnits f) = some (sps, pps)) :
    ∃ t config video, s.round client junk idx f.length out time = some (t, true) ∧
      t.playing.isGetFirstKeyFrame = client.sendPacket idx ∧
      (client.sendPacket idx = true → t.playing.prevSysTime = time) ∧
      t.sent = s.sent ++ [config, video] ∧ config.receive = some (.config (configOf sps pps)) ∧
      video.receive = some (.video true 0 (nalUnits f)) := by
  obtain ⟨hdesc, hkey, hsize⟩ := h.parse hout junk s.playing.player
  obtain ⟨h4, hsps, hpps⟩ := h.params sps pps hsets
  obtain ⟨b, hparam, hb, hrecord⟩ := (videoParam_of_describes s.videoDataBody hdesc).2 sps pps hsets h4 hsps hpps
  have hidr : HasIdr (nalUnits f) := by
    by_contra hno
    rw [paramSets, if_neg hno] at hsets
    cases hsets
  obtain ⟨hplayer, hframe, -, hfirst⟩ := Playing.body_spec client junk idx f.length
    { s.playing with pOneFrame := out, sysTime := time }
  obtain ⟨hgo, hstays⟩ := hfirst hget
  unfold Screening.round
  dsimp only at hplayer hframe hgo hstays ⊢
  rw [(Player.sendVideoParam_eq _).2 b hparam] at hstays
  generalize ({ s.playing with pOneFrame := out, sysTime := time } : Playing).body client junk idx f.length = r at *
  have hk : r.1.player.isKeyFrame = true := by
    rw [hplayer]
    exact hkey.2 hidr
  rw [if_neg (by simp [hget]), hgo, if_pos hk, Screening.sendVideoParam]
  dsimp only
  rw [hplayer] at hk
  rw [hplayer, hframe, hparam]
  dsimp only
  rw [if_neg hb, Option.map_some]
  refine ⟨_, _, _, rfl, ?_, ?_, List.append_assoc _ _ _, receive_config hrecord, ?_⟩
  · show r.1.isGetFirstKeyFrame = _
    cases hsend : client.sendPacket idx with
    | true =>
      rw [if_pos ⟨hk, hsend⟩] at hstays
      exact hstays.1
    | false =>
      rw [if_neg (by simp [hsend])] at hstays
      exact hstays
  · intro hsend
    rw [if_pos ⟨hk, hsend⟩] at hstays
    exact hstays.2
  · show Packet.receive ⟨.medium, 0,
      slice (packetVideoData r.1.pOneFrame r.1.player.isKeyFrame r.1.player.naluList b.1).1 0
        (packetVideoData r.1.pOneFrame r.1.player.isKeyFrame r.1.player.naluList b.1).2⟩ = _
    rw [hplayer, hframe]
    have hreceive := receive_video out (s.playing.player.parseVideoData junk out 0 f.length).isKeyFrame
      (s.playing.player.parseVideoData junk out 0 f.length).naluList b.1 .medium 0 hsize
    rw [hdesc.slices] at hreceive
    rw [hreceive, hk]

end Round

/-! ## The loop -/

/-- one answer of the reader: the end, or a frame, whatever the frame buffer holds -/
theorem decodeFrom_cases {m : Mem} {outSize fuel idx : ℕ} {fs : List (List UInt8 × ℕ)} (hout : outSize < 2 ^ 31)
    (h : decodeFrom m outSize (fuel + 1) idx = some fs) :
    (fs = [] ∧ ∀ o t, getOneFrameByIndex idx (some m) storeBufMaxSize (some o) outSize (some t) =
      some (-1, some o, some t)) ∨
    ∃ f rest, fs = f :: rest ∧ decodeFrom m outSize fuel (idx + 1) = some rest ∧
      ∀ o t, ∃ out, getOneFrameByIndex idx (some m) storeBufMaxSize (some o) outSize (some t) =
        some ((f.1.length : ℤ), some out, some f.2) ∧ slice out 0 f.1.length = f.1 := by
  rw [decodeFrom] at h
  unfold getOneFrameByIndex at h ⊢
  dsimp only at h ⊢
  generalize readInfo m (storeBufMaxSize - sizeofStoreInfo - sizeofStoreInfo * idx) = r at h ⊢
  by_cases hin : sizeofStoreInfo * (idx + 1) ≤ storeBufMaxSize
  · rw [if_pos hin] at h
    by_cases hhead : r.head ≠ storeInfoHead
    · rw [if_pos hhead] at h
      cases h
      refine Or.inl ⟨rfl, fun o t => ?_⟩
      rw [if_pos hin, if_pos hhead]
    · rw [if_neg hhead] at h
      by_cases hlarge : r.frameSize > outSize
      · rw [if_pos hlarge] at h
        cases h
        refine Or.inl ⟨rfl, fun o t => ?_⟩
        rw [if_pos hin, if_neg hhead, if_pos hlarge]
      · rw [if_neg hlarge] at h
        by_cases hend : r.frameOffset + r.frameSize ≤ storeBufMaxSize
        · rw [if_pos hend] at h
          have hint : int32 r.frameSize = r.frameSize := if_pos (by omega)
          have hne : (r.frameSize : ℤ) ≠ -1 := by omega
          simp only [hint, if_neg hne, Int.toNat_natCast, slice_memcpy] at h
          obtain ⟨rest, hrest, rfl⟩ := Option.map_eq_some_iff.1 h
          refine Or.inr ⟨_, rest, rfl, hrest, fun o t => ?_⟩
          rw [if_pos hin, if_neg hhead, if_neg hlarge, if_pos hend, length_slice, hint]
          exact ⟨_, rfl, slice_memcpy _ _ _ _ _⟩
        · rw [if_neg hend] at h
          cases h
  · rw [if_neg hin] at h
    cases h

section Loop

variable {client : Client} {junk : NaluInfo} {m : Mem} {fuel idx : ℕ} {s : Screening} {fs : List (List UInt8 × ℕ)}

theorem playback_frame {f : List UInt8 × ℕ} {out : Mem} {t : Screening} {go : Bool}
    (hget : getOneFrameByIndex idx (some m) storeBufMaxSize (some s.playing.pOneFrame) playerFrameSize
      (some s.playing.sysTime) = some ((f.1.length : ℤ), some out, some f.2)) (hpos : 0 < f.1.length)
    (hround : s.round client junk idx f.1.length out f.2 = some (t, go)) :
    playback client junk m (fuel + 1) idx s = if go then playback client junk m fuel (idx + 1) t else some t := by
  rw [playback, hget]
  dsimp only
  rw [if_pos (by omega), Int.toNat_natCast, hround]
  cases go with
  | true => rfl
  | false => rfl

theorem playback_end (hget : getOneFrameByIndex idx (some m) storeBufMaxSize (some s.playing.pOneFrame) playerFrameSize
      (some s.playing.sysTime) = some (-1, some s.playing.pOneFrame, some s.playing.sysTime)) :
    playback client junk m (fuel + 1) idx s = some s := by
  rw [playback, hget]
  rfl

theorem playerFrameSize_lt : playerFrameSize < 2 ^ 31 := by decide

/-- the frames behind the first key frame -/
theorem playback_follow (client : Client) (junk : NaluInfo) (hread : decodeFrom m playerFrameSize fuel idx = some fs)
    (hfs : ∀ f ∈ fs, Playable f.1) (hget : s.playing.isGetFirstKeyFrame = true) :
    ∃ t packets, playback client junk m fuel idx s = some t ∧ t.sent = s.sent ++ packets ∧
      packets.map Packet.receive = (follow client s.playing.prevSysTime idx fs).map some := by
  induction fuel generalizing idx s fs with
  | zero => cases hread
  | succ fuel ih =>
    rcases decodeFrom_cases playerFrameSize_lt hread with ⟨rfl, hend⟩ | ⟨f, rest, rfl, hrest, hframe⟩
    · exact ⟨s, [], playback_end (hend _ _), (List.append_nil _).symm, rfl⟩
    · obtain ⟨out, hout, hslice⟩ := hframe s.playing.pOneFrame s.playing.sysTime
      have hf := hfs f List.mem_cons_self
      have hpos := hf.pos
      obtain ⟨t, packet, hround, hstays, hprev, hsent, hreceive⟩ := round_follow client junk idx f.2 hf hslice hget
      have hplay : playback client junk m (fuel + 1) idx s = _ := playback_frame hout (by omega) hround
      rw [follow]
      cases hconn : client.isConnected idx with
      | false =>
        rw [hconn] at hplay
        exact ⟨t, [packet], hplay, hsent, by simp [hreceive]⟩
      | true =>
        rw [hconn] at hplay
        obtain ⟨u, packets, hu, husent, hureceive⟩ := ih hrest (fun g hg => hfs g (List.mem_cons_of_mem _ hg)) hstays
        refine ⟨u, packet :: packets, hplay.trans hu, ?_, ?_⟩
        · rw [husent, hsent, List.append_assoc]
          rfl
        · rw [List.map_cons, hureceive, hprev, hreceive]
          rfl

/-- the frames up to the first key frame, and those behind it -/
theorem playback_shown (client : Client) (junk : NaluInfo) (hread : decodeFrom m playerFrameSize fuel idx = some fs)
    (hfs : ∀ f ∈ fs, Playable f.1) (hget : s.playing.isGetFirstKeyFrame = false) :
    ∃ t packets, playback client junk m fuel idx s = some t ∧ t.sent = s.sent ++ packets ∧
      packets.map Packet.receive = (shown client idx fs).map some := by
  induction fuel generalizing idx s fs with
  | zero => cases hread
  | succ fuel ih =>
    rcases decodeFrom_cases playerFrameSize_lt hread with ⟨rfl, hend⟩ | ⟨f, rest, rfl, hrest, hframe⟩
    · exact ⟨s, [], playback_end (hend _ _), (List.append_nil _).symm, rfl⟩
    · obtain ⟨out, hout, hslice⟩ := hframe s.playing.pOneFrame s.playing.sysTime
      have hf := hfs f List.mem_cons_self
      have hpos := hf.pos
      have htail : ∀ g ∈ rest, Playable g.1 := fun g hg => hfs g (List.mem_cons_of_mem _ hg)
      rw [shown]
      cases hsets : paramSets (nalUnits f.1) with
      | none =>
        obtain ⟨t, hround, hstays, hsent⟩ := round_skips client junk idx f.2 hf hslice hget hsets
        obtain ⟨u, packets, hu, husent, hureceive⟩ := ih hrest htail hstays
        exact ⟨u, packets, (playback_frame hout (by omega) hround).trans hu, by rw [husent, hsent], hureceive⟩
      | some sets =>
        obtain ⟨sps, pps⟩ := sets
        obtain ⟨t, config, video, hround, hstays, hprev, hsent, hconfig, hvideo⟩ :=
          round_first client junk idx f.2 hf hslice hget hsets
        have hplay : playback client junk m (fuel + 1) idx s = _ := playback_frame hout (by omega) hround
        obtain ⟨u, packets, hu, husent, hureceive⟩ : ∃ u packets, playback client junk m fuel (idx + 1) t = some u ∧
            u.sent = t.sent ++ packets ∧ packets.map Packet.receive =
              (if client.sendPacket idx then follow client f.2 (idx + 1) rest
                else shown client (idx + 1) rest).map some := by
          cases hsend : client.sendPacket idx with
          | true =>
            rw [hsend] at hstays
            rw [if_pos rfl, ← hprev hsend]
            exact playback_follow client junk hrest htail hstays
          | false =>
            rw [hsend] at hstays
            exact ih hrest htail hstays
        refine ⟨u, config :: video :: packets, hplay.trans hu, ?_, ?_⟩
        · rw [husent, hsent, List.append_assoc]
          rfl
        · rw [List.map_cons, List.map_cons, hureceive, hconfig, hvideo]
          rfl

end Loop

/-- **A file as the client sees it.** Any bytes that are read as frames that can be played, any client: the loop ends,
and the packets it has sent are received as `shown` says. -/
theorem playback_shows (client : Client) (junk : NaluInfo) (m : Mem) (fs : List (List UInt8 × ℕ)) (s : Screening)
    (hread : decode m playerFrameSize = some fs) (hfs : ∀ f ∈ fs, Playable f.1)
    (hget : s.playing.isGetFirstKeyFrame = false) (hsent : s.sent = []) :
    ∃ t, playback client junk m (storeBufMaxSize / sizeofStoreInfo + 1) 0 s = some t ∧
      t.sent.map Packet.receive = (shown client 0 fs).map some := by
  obtain ⟨t, packets, ht, hpackets, hreceive⟩ := playback_shown client junk hread hfs hget
  rw [hsent, List.nil_append] at hpackets
  rw [← hpackets] at hreceive
  exact ⟨t, ht, hreceive⟩

/-- an SPS, a PPS and an IDR slice; and a slice that is not IDR -/
def cameraFrames : List (List UInt8) :=
  [[0, 0, 0, 1, 0x67, 0x42, 0xe0, 0x1f, 0, 0, 1, 0x68, 0xce, 0, 0, 1, 0x65, 0x88], [0, 0, 0, 1, 0x41, 0x9a]]

/-- they are recorded, one each second -/
def cameraCalls : List Call :=
  (cameraFrames.zipIdx 1).map fun f => ⟨⟨fileMem f.1, f.1.length⟩, false, f.2, f.2, 0⟩

theorem cameraFrames_playable : ∀ f ∈ cameraFrames, Playable f := by
  intro f hf
  have hparams : ∀ f ∈ cameraFrames, ∀ sets, paramSets (nalUnits f) = some sets →
      4 ≤ sets.1.length ∧ sets.1.length < 2 ^ 16 ∧ sets.2.length + 1 < 2 ^ 16 := by
    decide +kernel
  have hrest : ∀ f ∈ cameraFrames, f.take 4 = [0, 0, 0, 1] ∧ Closed f ∧ f.length ≤ playerFrameSize := by
    decide +kernel
  exact ⟨(hrest f hf).1, (hrest f hf).2.1, (hrest f hf).2.2, fun sps pps => hparams f hf (sps, pps)⟩

/-- the variables before a playback -/
def screen : Screening := ⟨⟨.init, false, fun _ => 0, 0, 0, 0⟩, fun _ => 0, []⟩

/-- a key frame and the frame behind it, one second later -/
theorem playback_shows_camera :
    ∃ m t, decode m playerFrameSize = some (cameraFrames.zip [1000, 2000]) ∧
      playback ⟨fun _ => true, fun _ => true⟩ ⟨0, 0, 0⟩ m (storeBufMaxSize / sizeofStoreInfo + 1) 0 screen = some t ∧
      t.sent.map Packet.receive =
        [some (.config ⟨0x42, 0xe0, 0x1f, [0x67, 0x42, 0xe0, 0x1f], [0x68, 0xce, 0]⟩),
          some (.video true 0 [[0x67, 0x42, 0xe0, 0x1f], [0x68, 0xce], [0x65, 0x88]]),
          some (.video false 1000 [[0x41, 0x9a]])] := by
  have hfit : Steps (StoreDevice.writeFrameToBuf fun t => t) Fits
      (addStoreDevice "" .planned (fun _ => 0) (fun _ => 0) 0) cameraCalls := by
    decide +kernel
  have hfree : (run (StoreDevice.writeFrameToBuf fun t => t) (addStoreDevice "" .planned (fun _ => 0) (fun _ => 0) 0)
      cameraCalls).map (fun d => (readInfo d.cur.storeBuf (slotPos 2)).head) = some 0 := by
    decide +kernel
  obtain ⟨d, hd, hholds, -⟩ := appends_hold (addStoreDevice_holds _ _ _ _ _) hfit
  rw [hd, Option.map_some, Option.some.injEq] at hfree
  have himage : Image d.cur.storeBuf (entries 0 cameraCalls) := ⟨hholds.indexed, hholds.room, by
    rw [length_entries]
    exact hfree.trans_ne (by decide)⟩
  have hdecode : decode d.cur.storeBuf playerFrameSize = some (cameraFrames.zip [1000, 2000]) :=
    (himage.decode (by decide +kernel)).trans (by decide +kernel)
  obtain ⟨t, ht, hreceive⟩ := playback_shows ⟨fun _ => true, fun _ => true⟩ ⟨0, 0, 0⟩ d.cur.storeBuf _ screen hdecode
    (fun f hf => cameraFrames_playable f.1 (List.of_mem_zip hf).1) rfl rfl
  exact ⟨d.cur.storeBuf, t, hdecode, ht, hreceive.trans (by decide +kernel)⟩

/-! ## From the recorder to the client -/

/-- the reader looks at no byte outside the buffer -/
theorem getOneFrameByIndex_sameOn {m m' : Mem} (h : SameOn m' m 0 storeBufMaxSize) (idx outSize : ℕ) (o : Mem) (t : ℕ) :
    getOneFrameByIndex idx (some m') storeBufMaxSize (some o) outSize (some t) =
      getOneFrameByIndex idx (some m) storeBufMaxSize (some o) outSize (some t) := by
  unfold getOneFrameByIndex
  dsimp only
  by_cases hin : sizeofStoreInfo * (idx + 1) ≤ storeBufMaxSize
  · have hinfo : readInfo m' (storeBufMaxSize - sizeofStoreInfo - sizeofStoreInfo * idx) =
        readInfo m (storeBufMaxSize - sizeofStoreInfo - sizeofStoreInfo * idx) := by
      refine readInfo_sameOn (h.mono (Nat.zero_le _) ?_)
      simp only [sizeofStoreInfo] at hin ⊢
      omega
    rw [if_pos hin, if_pos hin, hinfo]
    generalize readInfo m (storeBufMaxSize - sizeofStoreInfo - sizeofStoreInfo * idx) = r
    by_cases hend : r.frameOffset + r.frameSize ≤ storeBufMaxSize
    · have hcopy : memcpy o 0 m' r.frameOffset r.frameSize = memcpy o 0 m r.frameOffset r.frameSize := by
        funext i
        unfold memcpy
        split_ifs with hi
        · exact h _ (Nat.zero_le _) (by omega)
        · rfl
      rw [hcopy]
    · rw [if_neg hend, if_neg hend]
  · rw [if_neg hin, if_neg hin]

theorem decodeFrom_sameOn {m m' : Mem} (h : SameOn m' m 0 storeBufMaxSize) (outSize fuel idx : ℕ) :
    decodeFrom m' outSize fuel idx = decodeFrom m outSize fuel idx := by
  induction fuel generalizing idx with
  | zero => rfl
  | succ fuel ih => rw [decodeFrom, decodeFrom, getOneFrameByIndex_sameOn h, ih]

/-- `StartPlaybackStoreFile`: read the file, and play it unless that failed -/
def startPlaybackStoreFile (noRet : ℕ → ℤ) (file : List UInt8) (frameBuf : Mem) (results : ℕ → ReadRet) (fuel : ℕ)
    (client : Client) (junk : NaluInfo) (s : Screening) : Option Screening :=
  match readStoreFileFrame noRet file frameBuf storeBufMaxSize results fuel with
  | (_, none) => none
  | (r, some ret) =>
    if ret < 0 then some s
    else playback client junk r.frameBuf (storeBufMaxSize / sizeofStoreInfo + 1) 0 s

/-- a file is played to every client as these frames, however the reads are cut and whatever is in the buffers, if the
missing `return` of `ReadStoreFileFrame` leaves nothing negative -/
def PlaysAs (file : List UInt8) (fs : List (List UInt8 × ℕ)) : Prop :=
  ∀ (noRet : ℕ → ℤ) (frameBuf : Mem) (results : ℕ → ReadRet) (client : Client) (junk : NaluInfo) (s : Screening),
    0 ≤ noRet file.length → Complete file storeBufMaxSize results → s.playing.isGetFirstKeyFrame = false → s.sent = [] →
      ∃ fuel t, startPlaybackStoreFile noRet file frameBuf results fuel client junk s = some t ∧
        t.sent.map Packet.receive = (shown client 0 fs).map some

theorem playsAs_of_reads {file : List UInt8} {fs : List (List UInt8 × ℕ)} (h : Reads file fs)
    (hfs : ∀ f ∈ fs, Playable f.1) : PlaysAs file fs := by
  intro noRet frameBuf results client junk s hret hcomplete hget hsent
  obtain ⟨fuel, r, hread, -, -, hbytes⟩ :
      ∃ fuel r, readStoreFileFrame noRet file frameBuf storeBufMaxSize results fuel = (r, some (noRet file.length)) ∧
        _ ∧ _ ∧ _ :=
    readStoreFileFrame_complete maxSize_lt hcomplete
  have hsame : SameOn r.frameBuf (fileMem file) 0 storeBufMaxSize := by
    have hall := slice_eq_iff.1 (hbytes.trans (slice_fileMem file).symm)
    rw [h.length] at hall
    intro i _ hi
    have hbyte := hall i (by omega)
    rw [zero_add] at hbyte
    exact hbyte
  have hdecode : decode r.frameBuf playerFrameSize = some fs := by
    rw [decode, decodeFrom_sameOn hsame]
    exact h.frames playerFrameSize fun f hf => (hfs f hf).size
  obtain ⟨t, packets, ht, hpackets, hreceive⟩ := playback_shown client junk hdecode hfs hget
  refine ⟨fuel, t, ?_, ?_⟩
  · rw [startPlaybackStoreFile, hread]
    exact (if_neg (not_lt.2 hret)).trans ht
  · rw [hpackets, hsent, List.nil_append]
    exact hreceive

/-- **From the camera to the client.** In every run of a recorder that meets `RecordingOk` the frames of its calls with
flag 0 are accounted for, and each file in the directory whose frames can be played is played as its frames. -/
theorem recorded_file_plays (cfg : Config) (ping pong : Mem) (pongStart : ℕ) (disk : FileSys.Files)
    (ops : List RecordOp)
    (h : Steps (Recorder.step cfg) (RecordingOk cfg) (Recorder.init cfg ping pong pongStart disk) ops) :
    ∃ s stored waiting current, run (Recorder.step cfg) (Recorder.init cfg ping pong pongStart disk) ops = some s ∧
      Account s stored waiting current ∧ stored.flatten ++ waiting ++ current = ops.flatMap RecordOp.recorded ∧
      List.Forall₂ (fun path fs => ∃ file, s.disk path = some file ∧ ((∀ f ∈ fs, Playable f.1) → PlaysAs file fs))
        s.closed stored := by
  obtain ⟨s, hrun, hinv, hdisk⟩ := recording_run h
  obtain ⟨stored, waiting, current, hacc, hflat⟩ := hinv.account hdisk
  refine ⟨s, stored, waiting, current, hrun, hacc, hflat, hacc.files.imp fun path fs hfile => ?_⟩
  obtain ⟨file, hpath, hreads⟩ := hfile
  exact ⟨file, hpath, playsAs_of_reads hreads⟩

/-- the frames are recorded, and the device is removed -/
def cameraOps : List RecordOp := callOps cameraCalls ++ [.remove]

/-- up to the removal; its name is free -/
theorem cameraOps_ok : ∃ s, Steps (Recorder.step oneDay) (RecordingOk oneDay) newRecorder cameraOps ∧
    run (Recorder.step oneDay) newRecorder cameraOps = some s ∧ s.phase = .removing ∧ NewFile oneDay s := by
  have hsmall : Steps (Recorder.step oneDay) (fun s op => smallOk s op = true) newRecorder (callOps cameraCalls) := by
    decide +kernel
  have hready : (run (Recorder.step oneDay) newRecorder (callOps cameraCalls)).map (fun s =>
      decide (s.phase = .recording ∧ s.sys.dev.pStoreBufWr = none ∧
        (readInfo s.sys.dev.cur.storeBuf s.sys.dev.cur.storeInfoOffset).head ≠ storeInfoHead)) = some true := by
    decide +kernel
  have hok := Steps.mono (fun _ _ hop => recordingOk_of_small hop) hsmall
  obtain ⟨s, hrun, hs⟩ := Option.map_eq_some_iff.1 hready
  rw [decide_eq_true_eq] at hs
  have hremove : RecordingOk oneDay s .remove := hs
  have hstep : s.step oneDay .remove = some { s with
      sys := s.sys.flush { s.sys.dev with pStoreBufWr := some s.sys.dev.pCurStoreBuf }
      phase := .removing } := by
    rw [Recorder.step, if_pos ⟨hremove.1, hremove.2.1⟩]
  refine ⟨_, hok.append hrun ⟨hremove, fun _ _ => trivial⟩, (run_append hrun).trans (run_cons_some hstep rfl), rfl,
    fun _ i _ _ => ?_⟩
  obtain ⟨hdisk, hclosed⟩ := callOps_frame hrun
  rw [hdisk, hclosed]
  exact ⟨List.not_mem_nil, fun old hold => by cases hold⟩

/-- the two frames, from the removal of the device on to the end of the writer's work: they are in files, and each file
is played -/
theorem recorded_file_plays_camera :
    ∃ (ws : List Act) (s : Recorder) (stored : List (List (List UInt8 × ℕ))),
      run (Recorder.step oneDay) newRecorder (cameraOps ++ ws.map RecordOp.act) = some s ∧
      stored.flatten = cameraFrames.zip [1000, 2000] ∧
      List.Forall₂ (fun path fs => ∃ file, s.disk path = some file ∧ PlaysAs file fs) s.closed stored := by
  obtain ⟨s, hok, hrun, hremoving, hnew⟩ := cameraOps_ok
  obtain ⟨s', hs', hinv, hdisk⟩ := recording_run hok
  cases hrun.symm.trans hs'
  obtain ⟨ws, t, hws, -, hsteps, ht, hnone, hphase, -, -⟩ := hinv.drain hdisk hnew
  obtain ⟨u, stored, waiting, current, hu, hacc, hflat, hplays⟩ := recorded_file_plays oneDay (fun _ => 0)
    (fun _ => 0) 0 (fun _ => none) (cameraOps ++ ws.map RecordOp.act) (hok.append hrun hsteps)
  cases ((run_append hrun).trans ht).symm.trans hu
  cases hacc.free hnone
  cases hacc.flushed (by rw [hphase, hremoving]; decide)
  rw [List.append_nil, List.append_nil, List.flatMap_append, recorded_writer hws, List.append_nil] at hflat
  have hframes : stored.flatten = cameraFrames.zip [1000, 2000] := hflat.trans (by decide +kernel)
  have hplayable : ∀ fs ∈ stored, ∀ f ∈ fs, Playable f.1 := by
    intro fs hfs f hf
    have hmem := List.mem_flatten_of_mem hfs hf
    rw [hframes] at hmem
    exact cameraFrames_playable f.1 (List.of_mem_zip hmem).1
  refine ⟨ws, t, stored, hu, hframes, List.forall₂_iff_get.2 ⟨hplays.length_eq, fun k hk hk' => ?_⟩⟩
  obtain ⟨file, hpath, hplay⟩ := hplays.get hk hk'
  exact ⟨file, hpath, hplay (hplayable _ (List.get_mem _ _))⟩

end StoreService.Playback
