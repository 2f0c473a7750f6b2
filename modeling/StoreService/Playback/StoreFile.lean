/-
Playing a store file (`StartPlaybackStoreFile` in `rtmpsrv.cpp`): the loop over `GetOneFrameByIndex`.

The loop asks for frame 0, 1, 2, … until the answer is not positive. The player's frame buffer has 300 KB; a larger
frame is answered with -1, as the end of the index is. The frames of a file are those of its image (`Image`).

- `playLoop_visits`: of an image the loop visits the frames before the first that is too large.
- `plays_all_iff`: append frames while they fit, then let a call seal the buffer. The loop visits all the frames of the
  sealed image, in order, exactly if none is larger than 300 KB and the call is not a stop flush that appends its own
  frame (the flush then clears the record it has just written).
- `large_frame_ends`: one frame of 300 KB and one byte, and nothing is played.

Reading the file and building the packets are left out: the loop starts with the bytes of the file in memory.
-/
import Mathlib.Data.List.TakeWhile
import StoreService.Store.Image
import StoreService.Playback.Nalu

namespace StoreService.Playback

open StoreService.ByteMem StoreService.KeyFrame StoreService.Store StoreService.Runs

/-! ## The loop -/

/-- `FrameSize` -/
def playerFrameSize : ℕ := 300 * 1024

/-- what the client's connection answers in each round -/
structure Client where
  sendPacket : ℕ → Bool
  isConnected : ℕ → Bool

structure Playing where
  player : Player
  isGetFirstKeyFrame : Bool
  pOneFrame : Mem
  firstSysTime : ℕ
  sysTime : ℕ
  prevSysTime : ℕ

/-- a round of the loop: the index asked for, the frame and its time -/
structure Visit where
  idx : ℕ
  frame : List UInt8
  sysTime : ℕ
deriving DecidableEq, Repr

/-- `SendVideoParam` returns 0 without a key frame and its parameter sets in the list, or when a send fails -/
def Player.sendVideoParam (p : Player) (sendPacket : Bool) : Bool :=
  if p.keyFrameIdx < 0 ∨ p.spsIdx < 0 ∨ p.ppsIdx < 0 then false else sendPacket

namespace Playing

/-- the body of the loop; the second result is whether it goes on -/
def body (client : Client) (junk : NaluInfo) (idx size : ℕ) (s : Playing) : Playing × Bool :=
  let s := if s.firstSysTime = 0 then { s with firstSysTime := s.sysTime } else s
  let s := { s with player := s.player.parseVideoData junk s.pOneFrame 0 size }
  if s.isGetFirstKeyFrame then (s, client.isConnected idx)
  else if s.player.isKeyFrame then
    if s.player.sendVideoParam (client.sendPacket idx) then
      ({ s with prevSysTime := s.sysTime, isGetFirstKeyFrame := true }, true)
    else (s, true)
  else (s, true)

theorem body_goes_on {client : Client} (h : ∀ i, client.isConnected i = true) (junk : NaluInfo) (idx size : ℕ)
    (s : Playing) : (s.body client junk idx size).2 = true := by
  unfold body
  dsimp only
  split_ifs <;> first | exact h idx | rfl

end Playing

/-- the rounds from index `idx` on; `none` is a read outside the file, or no end in sight -/
def playLoop (client : Client) (junk : NaluInfo) (pFrameBuf : Mem) : ℕ → ℕ → Playing → Option (List Visit)
  | 0, _, _ => none
  | fuel + 1, idx, s =>
    match getOneFrameByIndex idx (some pFrameBuf) storeBufMaxSize (some s.pOneFrame) playerFrameSize
        (some s.sysTime) with
    | some (getFrameSize, some out, some sysTime) =>
      if getFrameSize > 0 then
        let size := getFrameSize.toNat
        let r := { s with pOneFrame := out, sysTime := sysTime }.body client junk idx size
        if r.2 then (playLoop client junk pFrameBuf fuel (idx + 1) r.1).map (⟨idx, slice out 0 size, sysTime⟩ :: ·)
        else some [⟨idx, slice out 0 size, sysTime⟩]
      else some []
    | _ => none

/-- a round for each frame, in order, from index `i` on -/
def visits : ℕ → List Entry → List Visit
  | _, [] => []
  | i, e :: L => ⟨i, e.bytes, e.time⟩ :: visits (i + 1) L

@[simp] theorem length_visits (i : ℕ) (L : List Entry) : (visits i L).length = L.length := by
  induction L generalizing i with
  | nil => rfl
  | cons e L ih => simp [visits, ih]

section Loop

variable {client : Client} {junk : NaluInfo} {m : Mem} {fuel idx : ℕ} {s : Playing}

/-- a round on a frame that fits the player's buffer -/
theorem playLoop_frame (hc : ∀ i, client.isConnected i = true) {F : List Entry} (h : Image m F) {k : ℕ} {e : Entry}
    (hk : F[k]? = some e) (hne : e.bytes ≠ []) (hfit : e.size ≤ playerFrameSize) :
    ∃ s', playLoop client junk m (fuel + 1) k s =
      (playLoop client junk m fuel (k + 1) s').map (⟨k, e.bytes, e.time⟩ :: ·) := by
  obtain ⟨hlt, rfl⟩ := List.getElem?_eq_some_iff.1 hk
  have hget := getOneFrameByIndex_get h.holds hlt s.pOneFrame hfit s.sysTime
  have hpos : ((F[k]).size : ℤ) > 0 := by
    have := List.length_pos_iff.2 hne
    simp only [Entry.size]
    omega
  have hbytes := h.holds.slice_copy hlt s.pOneFrame
  simp only [playLoop, hget, hpos, if_true, Int.toNat_natCast, hbytes, Playing.body_goes_on hc]
  exact ⟨_, rfl⟩

/-- a frame that is too large, or the end of the index: the loop ends -/
theorem playLoop_large {F : List Entry} (h : Image m F) {k : ℕ} {e : Entry} (hk : F[k]? = some e)
    (hlarge : playerFrameSize < e.size) : playLoop client junk m (fuel + 1) k s = some [] := by
  obtain ⟨hlt, rfl⟩ := List.getElem?_eq_some_iff.1 hk
  have hroom := h.room
  have hinfo := h.holds.info_slot k hlt
  have hget : getOneFrameByIndex k (some m) storeBufMaxSize (some s.pOneFrame) playerFrameSize (some s.sysTime) =
      some (-1, some s.pOneFrame, some s.sysTime) := by
    simp only [getOneFrameByIndex, slot_addr, hinfo, Entry.info]
    rw [if_pos (by simp only [sizeofStoreInfo]; omega), if_neg (by simp), if_pos hlarge]
  simp [playLoop, hget]

theorem playLoop_end {F : List Entry} (h : Image m F) : playLoop client junk m (fuel + 1) F.length s = some [] := by
  have hroom := h.room
  have hget := getOneFrameByIndex_end (by omega) h.stop s.pOneFrame playerFrameSize s.sysTime
  simp [playLoop, hget]

/-- **The loop** visits the frames before the first that does not fit the player's buffer. -/
theorem playLoop_visits (hc : ∀ i, client.isConnected i = true) {F : List Entry} (h : Image m F)
    (hne : ∀ e ∈ F, e.bytes ≠ []) (hf : F.length < fuel) :
    playLoop client junk m fuel 0 s = some (visits 0 (F.takeWhile fun e => e.size ≤ playerFrameSize)) := by
  -- induction over the frames that are left, behind those that were visited
  have rest : ∀ (L P : List Entry) (fuel : ℕ) (s : Playing), F = P ++ L → L.length < fuel →
      playLoop client junk m fuel P.length s =
        some (visits P.length (L.takeWhile fun e => e.size ≤ playerFrameSize)) := by
    intro L
    induction L with
    | nil =>
      intro P fuel s hF hfuel
      obtain ⟨fuel, rfl⟩ := Nat.exists_eq_succ_of_ne_zero hfuel.ne'
      rw [List.append_nil] at hF
      rw [← hF, playLoop_end h]
      rfl
    | cons e L ih =>
      intro P fuel s hF hfuel
      obtain ⟨fuel, rfl⟩ := Nat.exists_eq_succ_of_ne_zero (Nat.ne_of_gt (Nat.zero_lt_of_lt hfuel))
      have hk : F[P.length]? = some e := by simp [hF]
      by_cases hfit : e.size ≤ playerFrameSize
      · obtain ⟨s', hs'⟩ : ∃ s', playLoop client junk m (fuel + 1) P.length s =
            (playLoop client junk m fuel (P.length + 1) s').map (⟨P.length, e.bytes, e.time⟩ :: ·) :=
          playLoop_frame hc h hk (hne e (by simp [hF])) hfit
        have hnext := ih (P ++ [e]) fuel s' (by simp [hF]) (by simpa using hfuel)
        rw [List.length_append, List.length_singleton] at hnext
        rw [hs', hnext, List.takeWhile_cons_of_pos (by simpa using hfit)]
        rfl
      · rw [playLoop_large h hk (not_le.1 hfit), List.takeWhile_cons_of_neg (by simpa using hfit)]
        rfl
  exact rest F [] fuel s rfl hf

/-- an answer that is a size comes from a record -/
theorem getOneFrameByIndex_head {k outSize t : ℕ} {out : Mem} {r : ℤ} {o : Option Mem} {t' : Option ℕ}
    (h : getOneFrameByIndex k (some m) storeBufMaxSize (some out) outSize (some t) = some (r, o, t')) (hr : r > 0) :
    (readInfo m (slotPos k)).head = storeInfoHead := by
  obtain ⟨-, h⟩ := Option.ite_none_right_eq_some.1 h
  by_contra hne
  rw [slot_addr, if_pos hne] at h
  obtain ⟨rfl, -⟩ := Prod.mk.inj (Option.some.inj h)
  omega

/-- every round found a record -/
theorem playLoop_head {V : List Visit} (h : playLoop client junk m fuel idx s = some V) :
    ∀ i < V.length, (readInfo m (slotPos (idx + i))).head = storeInfoHead := by
  induction fuel generalizing idx s V with
  | zero => cases h
  | succ fuel ih =>
    unfold playLoop at h
    split at h
    · rename_i size out t hget
      dsimp only at h
      split_ifs at h with hpos hgo
      · obtain ⟨V', hV', rfl⟩ := Option.map_eq_some_iff.1 h
        intro i hi
        cases i with
        | zero => exact getOneFrameByIndex_head hget hpos
        | succ i =>
          have := ih hV' i (by simpa using hi)
          rwa [add_assoc, add_comm 1 i] at this
      · obtain rfl := Option.some.inj h
        intro i hi
        obtain rfl : i = 0 := by simpa using hi
        exact getOneFrameByIndex_head hget hpos
      · obtain rfl := Option.some.inj h
        intro i hi
        simp at hi
    · cases h

end Loop

theorem visits_takeWhile_iff {p : Entry → Bool} {F : List Entry} :
    visits 0 (F.takeWhile p) = visits 0 F ↔ ∀ e ∈ F, p e = true := by
  rw [← List.takeWhile_eq_self_iff]
  constructor
  · intro h
    have hlen := congrArg List.length h
    rw [length_visits, length_visits] at hlen
    exact (List.takeWhile_prefix p).eq_of_length hlen
  · intro h
    rw [h]

/-- **Everything recorded can be played** exactly if no frame of the image is larger than the player's frame buffer and
the image was not sealed by a stop flush that appends its own frame. `L0` are the frames a tail move has left in the
buffer; there are none after any other rewind. -/
theorem plays_all_iff (noRet : ℕ → ℤ) (client : Client) (hc : ∀ i, client.isConnected i = true) (junk : NaluInfo)
    (d : StoreDevice) (L0 : List Entry) (h0 : Holds d.cur L0) (calls : List Call)
    (hfit : Steps (StoreDevice.writeFrameToBuf noRet) Fits d calls) :
    ∃ d1, run (StoreDevice.writeFrameToBuf noRet) d calls = some d1 ∧
      ∀ c d2, Seals d1 c → d1.writeFrameToBuf noRet c = some d2 →
        ∀ F, F = sealedFrames noRet d1 (L0 ++ entries d.frameIndex calls) c → (∀ e ∈ F, e.bytes ≠ []) →
          ∀ s fuel, F.length < fuel →
            (playLoop client junk (d2.buf d.pCurStoreBuf).storeBuf fuel 0 s = some (visits 0 F) ↔
              (c.flag = true → d1.Full c) ∧ ∀ e ∈ F, e.size ≤ playerFrameSize) := by
  obtain ⟨d1, hr, h1, hcur⟩ := appends_hold h0 hfit
  refine ⟨d1, hr, fun c d2 hseals hd2 F hF hne s fuel hfuel => ?_⟩
  rw [← hcur]
  have played (hi : Image (d2.buf d1.pCurStoreBuf).storeBuf F) :
      playLoop client junk (d2.buf d1.pCurStoreBuf).storeBuf fuel 0 s = some (visits 0 F) ↔
        ∀ e ∈ F, e.size ≤ playerFrameSize := by
    rw [playLoop_visits hc hi hne hfuel, Option.some.injEq, visits_takeWhile_iff]
    simp
  cases hflag : c.flag with
  | false =>
    have hfull : d1.Full c := hseals.resolve_left (by simp [hflag])
    rw [played (hF ▸ image_rotate h1 hflag hfull hd2)]
    simp
  | true =>
    by_cases hfull : d1.Full c
    · rw [played (hF ▸ image_stop h1 hflag hfull hd2)]
      simp [hfull]
    · refine iff_of_false (fun hplay => ?_) fun h => hfull (h.1 rfl)
      -- the record of the flushed frame is cleared, so the loop never gets to it
      have hlast := playLoop_head hplay (L0 ++ entries d.frameIndex calls).length ?_
      · rw [zero_add, stop_clears_record h1 hflag hfull hd2] at hlast
        exact absurd hlast (by decide)
      · rw [length_visits, hF, sealedFrames, if_pos hflag, if_neg hfull]
        simp

/-- the device of the runs below -/
def playDevice : StoreDevice := addStoreDevice "" .planned (fun _ => 0) (fun _ => 0) 0

theorem playDevice_holds : Holds playDevice.cur [] := addStoreDevice_holds _ _ _ _ _

/-- calls that fit into it fill its buffer with their frames -/
theorem playDevice_appends {calls : List Call}
    (hfit : Steps (StoreDevice.writeFrameToBuf fun t => t) Fits playDevice calls) :
    ∃ d1, run (StoreDevice.writeFrameToBuf fun t => t) playDevice calls = some d1 ∧ Holds d1.cur (entries 0 calls) ∧
      d1.pCurStoreBuf = .ping :=
  appends_hold playDevice_holds hfit

/-- a key frame that does not fit seals the frames of the buffer -/
theorem key_seals {d1 : StoreDevice} {L : List Entry} {k : ℕ} (h : Holds d1.cur L)
    (hk : k + 192 ≤ storeBufMaxSize) (hk0 : 0 < k) (hL : storeBufMaxSize < total L + k + 96 * (L.length + 2)) :
    d1.Full (idrCall k) ∧ ∃ d2, d1.writeFrameToBuf (fun t => t) (idrCall k) = some d2 ∧
      sealedFrames (fun t => t) d1 L (idrCall k) = L := by
  have hkey := parse_idrCall (fun t => t) hk0
  refine ⟨(StoreDevice.full_iff h _).2 hL, ?_⟩
  obtain ⟨d2, hd2, -⟩ := writeFrame_holds h ⟨rfl, hk, fun _ h => absurd hkey h⟩ fun _ h => absurd hkey h
  refine ⟨d2, hd2, ?_⟩
  rw [sealedFrames, if_neg (by simp [idrCall]), if_pos hkey]

/-- two key frames of 100 KB, sealed by a third one -/
theorem plays_all_two :
    ∃ d1 d2, run (StoreDevice.writeFrameToBuf fun t => t) playDevice [idrCall 100000, idrCall 100000] = some d1 ∧
      d1.writeFrameToBuf (fun t => t) (idrCall 67000000) = some d2 ∧
      playLoop ⟨fun _ => true, fun _ => true⟩ ⟨0, 0, 0⟩ (d2.buf .ping).storeBuf 3 0
          ⟨.init, false, fun _ => 0, 0, 0, 0⟩ =
        some (visits 0 (entries 0 [idrCall 100000, idrCall 100000])) := by
  have hfit : Steps (StoreDevice.writeFrameToBuf fun t => t) Fits playDevice [idrCall 100000, idrCall 100000] :=
    fits_of_room playDevice_holds (by simp [idrCall]) (by decide)
  obtain ⟨d1, hr, hall⟩ := plays_all_iff (fun t => t) ⟨fun _ => true, fun _ => true⟩ (fun _ => rfl) ⟨0, 0, 0⟩
    playDevice [] playDevice_holds _ hfit
  rw [List.nil_append, show playDevice.frameIndex = 0 from rfl] at hall
  obtain ⟨d1', hr', h1, -⟩ := playDevice_appends hfit
  cases hr'.symm.trans hr
  have hsize : ∀ e ∈ entries 0 [idrCall 100000, idrCall 100000], e.size = 100000 := by simp [entries, idrCall]
  obtain ⟨hfull, d2, hd2, hframes⟩ := key_seals (k := 67000000) h1 (by decide) (by decide)
    (by rw [total_entries, length_entries]; decide)
  refine ⟨d1, d2, hr, hd2, ?_⟩
  refine (hall _ d2 (Or.inr hfull) hd2 _ hframes.symm (fun e he hnil => ?_) _ 3 (by simp)).2
    ⟨fun hflag => absurd hflag (by decide), fun e he => ?_⟩
  · have := hsize e he
    simp [Entry.size, hnil] at this
  · rw [hsize e he]
    decide

/-- **A frame of 300 KB and one byte ends the playback**: it is the only frame of the file, and no round is made. -/
theorem large_frame_ends :
    ∃ d1 d2, run (StoreDevice.writeFrameToBuf fun t => t) playDevice [idrCall 307201] = some d1 ∧
      d1.writeFrameToBuf (fun t => t) (idrCall 67000000) = some d2 ∧
      sealedFrames (fun t => t) d1 (entries 0 [idrCall 307201]) (idrCall 67000000) = entries 0 [idrCall 307201] ∧
      ∀ fuel s, 0 < fuel →
        playLoop ⟨fun _ => true, fun _ => true⟩ ⟨0, 0, 0⟩ (d2.buf .ping).storeBuf fuel 0 s = some [] := by
  have hfit : Steps (StoreDevice.writeFrameToBuf fun t => t) Fits playDevice [idrCall 307201] :=
    fits_of_room playDevice_holds (by simp [idrCall]) (by decide)
  obtain ⟨d1, hr, h1, hcur⟩ := playDevice_appends hfit
  obtain ⟨hfull, d2, hd2, hframes⟩ := key_seals (k := 67000000) h1 (by decide) (by decide)
    (by rw [total_entries, length_entries]; decide)
  have himage := image_rotate h1 rfl hfull hd2
  rw [hframes, hcur] at himage
  refine ⟨d1, d2, hr, hd2, hframes, fun fuel s hfuel => ?_⟩
  obtain ⟨fuel, rfl⟩ := Nat.exists_eq_succ_of_ne_zero hfuel.ne'
  exact playLoop_large (k := 0) himage rfl (by rw [Frame.entry_size]; decide)

end StoreService.Playback
