/-
The frame reader on any image (`GetOneFrameByIndex`, and the loop of `StartPlaybackStoreFile` over it).

A record is looked up from the end of the image by its index, and the frame by the offset in the record. Neither the
index nor the offset is compared with the size of the image; what a file holds that no recorder has written decides
where the reader goes.

- `any_image_iff`: a call stays in the image and does what it is for iff the record lies in the image and, if it is one
  and its size is not refused, its range lies in the image (and the size is not negative as an `int32_t`). The loop
  ends, for every client, iff some record in the image stops it and the ranges of the records before it lie in the
  image.
- `crafted_images`: images of one record whose range, or whose neighbour, lies outside.

An address outside the image counts as an access there, also for a frame of no bytes.
-/
import StoreService.Playback.StoreFile

namespace StoreService.Playback

open StoreService.ByteMem StoreService.Store

/-! ## One call -/

/-- the record with index `idx`, counted from the end of the image -/
def recordAt (m : Mem) (framesSize idx : ℕ) : StoreInfo :=
  readInfo m (framesSize - sizeofStoreInfo - sizeofStoreInfo * idx)

/-- the record lies in the image, is one, and describes a range of the image that the caller has room for -/
structure Describing (m : Mem) (framesSize idx outSize : ℕ) : Prop where
  inside : sizeofStoreInfo * (idx + 1) ≤ framesSize
  head : (recordAt m framesSize idx).head = storeInfoHead
  range : (recordAt m framesSize idx).frameOffset + (recordAt m framesSize idx).frameSize ≤ framesSize
  room : (recordAt m framesSize idx).frameSize ≤ outSize

/-- what a call should do: the frame of a describing record, -1 and nothing else otherwise -/
def Serves (m : Mem) (framesSize idx : ℕ) (out : Mem) (outSize sysTime : ℕ) : Prop :=
  let r := recordAt m framesSize idx
  (Describing m framesSize idx outSize →
    getOneFrameByIndex idx (some m) framesSize (some out) outSize (some sysTime) =
      some ((r.frameSize : ℤ), some (memcpy out 0 m r.frameOffset r.frameSize), some r.frameStartTime)) ∧
  (¬ Describing m framesSize idx outSize →
    getOneFrameByIndex idx (some m) framesSize (some out) outSize (some sysTime) = some (-1, some out, some sysTime))

/-- the record lies in the image; if it is one, and not too large for the caller, its range does too -/
structure RecordInside (m : Mem) (framesSize idx outSize : ℕ) : Prop where
  inside : sizeofStoreInfo * (idx + 1) ≤ framesSize
  range : (recordAt m framesSize idx).head = storeInfoHead → (recordAt m framesSize idx).frameSize ≤ outSize →
    (recordAt m framesSize idx).frameOffset + (recordAt m framesSize idx).frameSize ≤ framesSize ∧
      (recordAt m framesSize idx).frameSize < 2 ^ 31

section OneCall

variable {m : Mem} {framesSize idx outSize : ℕ} (out : Mem) (sysTime : ℕ)

theorem getOneFrame_outside (h : ¬ sizeofStoreInfo * (idx + 1) ≤ framesSize) :
    getOneFrameByIndex idx (some m) framesSize (some out) outSize (some sysTime) = none := by
  simp only [getOneFrameByIndex, if_neg h]

/-- a record that is refused -/
theorem getOneFrame_refused (h : sizeofStoreInfo * (idx + 1) ≤ framesSize)
    (hr : (recordAt m framesSize idx).head ≠ storeInfoHead ∨ outSize < (recordAt m framesSize idx).frameSize) :
    getOneFrameByIndex idx (some m) framesSize (some out) outSize (some sysTime) =
      some (-1, some out, some sysTime) := by
  unfold recordAt at hr
  simp only [getOneFrameByIndex, if_pos h]
  by_cases hhead : (readInfo m (framesSize - sizeofStoreInfo - sizeofStoreInfo * idx)).head ≠ storeInfoHead
  · rw [if_pos hhead]
  · rw [if_neg hhead, if_pos (hr.resolve_left hhead)]

/-- a record that is taken -/
theorem getOneFrame_taken (h : sizeofStoreInfo * (idx + 1) ≤ framesSize)
    (hhead : (recordAt m framesSize idx).head = storeInfoHead)
    (hroom : (recordAt m framesSize idx).frameSize ≤ outSize) :
    getOneFrameByIndex idx (some m) framesSize (some out) outSize (some sysTime) =
      if (recordAt m framesSize idx).frameOffset + (recordAt m framesSize idx).frameSize ≤ framesSize then
        some (int32 (recordAt m framesSize idx).frameSize,
          some (memcpy out 0 m (recordAt m framesSize idx).frameOffset (recordAt m framesSize idx).frameSize),
          some (recordAt m framesSize idx).frameStartTime)
      else none := by
  unfold recordAt at hhead hroom ⊢
  simp only [getOneFrameByIndex, if_pos h, hhead, ne_eq, not_true_eq_false, if_false, hroom.not_gt]

theorem int32_eq_iff (x : ℕ) : int32 x = x ↔ x < 2 ^ 31 := by
  unfold int32
  split_ifs with h
  · exact iff_of_true rfl h
  · refine iff_of_false ?_ h
    omega

/-- a call is safe exactly on a record that lies inside, with its range -/
theorem serves_iff : Serves m framesSize idx out outSize sysTime ↔ RecordInside m framesSize idx outSize := by
  by_cases hin : sizeofStoreInfo * (idx + 1) ≤ framesSize
  · by_cases hr : (recordAt m framesSize idx).head = storeInfoHead ∧ (recordAt m framesSize idx).frameSize ≤ outSize
    · obtain ⟨hhead, hroom⟩ := hr
      have hcall := getOneFrame_taken out sysTime hin hhead hroom
      by_cases hrange : (recordAt m framesSize idx).frameOffset + (recordAt m framesSize idx).frameSize ≤ framesSize
      · -- the frame is copied; the size comes back as it is if it is not negative
        have hdesc : Describing m framesSize idx outSize := ⟨hin, hhead, hrange, hroom⟩
        rw [if_pos hrange] at hcall
        simp only [Serves, hcall, hdesc, true_implies, not_true_eq_false, false_implies, and_true, Option.some.injEq,
          Prod.mk.injEq, int32_eq_iff]
        exact ⟨fun h => ⟨hin, fun _ _ => ⟨hrange, h⟩⟩, fun h => (h.range hhead hroom).2⟩
      · rw [if_neg hrange] at hcall
        refine iff_of_false ?_ fun h => hrange (h.range hhead hroom).1
        intro h
        have hno := h.2 fun hdesc => hrange hdesc.range
        rw [hcall] at hno
        cases hno
    · have hdesc : ¬ Describing m framesSize idx outSize := fun h => hr ⟨h.head, h.room⟩
      rw [not_and_or, not_le] at hr
      refine iff_of_true ⟨fun h => absurd h hdesc, fun _ => getOneFrame_refused out sysTime hin hr⟩ ⟨hin, ?_⟩
      intro hhead hroom
      exact absurd hroom (hr.resolve_left (not_not.2 hhead)).not_ge
  · refine iff_of_false ?_ fun h => hin h.inside
    intro h
    have hno := h.2 fun hdesc => hin hdesc.inside
    rw [getOneFrame_outside out sysTime hin] at hno
    cases hno

end OneCall

/-! ## The loop -/

/-- a round at this record plays a frame -/
structure PlaysAt (m : Mem) (idx : ℕ) : Prop where
  desc : Describing m storeBufMaxSize idx playerFrameSize
  pos : 0 < (recordAt m storeBufMaxSize idx).frameSize

/-- the loop stops at this record: it is none, or too large, or has no bytes -/
structure StopsAt (m : Mem) (idx : ℕ) : Prop where
  inside : sizeofStoreInfo * (idx + 1) ≤ storeBufMaxSize
  stop : (recordAt m storeBufMaxSize idx).head ≠ storeInfoHead ∨
    playerFrameSize < (recordAt m storeBufMaxSize idx).frameSize ∨
    (recordAt m storeBufMaxSize idx).frameSize = 0 ∧ (recordAt m storeBufMaxSize idx).frameOffset ≤ storeBufMaxSize

/-- the loop ends, whenever the client goes away -/
def PlaybackEnds (junk : NaluInfo) (m : Mem) (s : Playing) : Prop :=
  ∀ client, ∃ fuel visits, playLoop client junk m fuel 0 s = some visits

section Loop

variable {client : Client} {junk : NaluInfo} {m : Mem} {idx : ℕ}

theorem playLoop_stop (h : StopsAt m idx) (fuel : ℕ) (s : Playing) :
    playLoop client junk m (fuel + 1) idx s = some [] := by
  by_cases hr : (recordAt m storeBufMaxSize idx).head ≠ storeInfoHead ∨
      playerFrameSize < (recordAt m storeBufMaxSize idx).frameSize
  · have hcall := getOneFrame_refused s.pOneFrame s.sysTime h.inside hr
    simp [playLoop, hcall]
  · have hstop := h.stop
    rw [← or_assoc] at hstop
    obtain ⟨hzero, hoff⟩ := hstop.resolve_left hr
    rw [not_or, not_not, not_lt] at hr
    have hcall := getOneFrame_taken s.pOneFrame s.sysTime h.inside hr.1 hr.2
    rw [if_pos (by rw [hzero]; exact hoff), hzero] at hcall
    simp [playLoop, hcall, int32]

/-- a round that plays a frame goes on, or the client is gone -/
theorem playLoop_play (client : Client) (junk : NaluInfo) (h : PlaysAt m idx) (s : Playing) :
    ∃ v s' b, ((∀ i, client.isConnected i = true) → b = true) ∧ ∀ fuel, playLoop client junk m (fuel + 1) idx s =
      if b = true then (playLoop client junk m fuel (idx + 1) s').map (v :: ·) else some [v] := by
  have hcall := getOneFrame_taken s.pOneFrame s.sysTime h.desc.inside h.desc.head h.desc.room
  rw [if_pos h.desc.range] at hcall
  have hsmall : (recordAt m storeBufMaxSize idx).frameSize < 2 ^ 31 :=
    h.desc.room.trans_lt (by decide)
  rw [(int32_eq_iff _).2 hsmall] at hcall
  have hpos : ((recordAt m storeBufMaxSize idx).frameSize : ℤ) > 0 := by exact_mod_cast h.pos
  set r := recordAt m storeBufMaxSize idx
  set out := memcpy s.pOneFrame 0 m r.frameOffset r.frameSize
  refine ⟨⟨idx, slice out 0 r.frameSize, r.frameStartTime⟩,
    ({ s with pOneFrame := out, sysTime := r.frameStartTime }.body client junk idx r.frameSize).1, _,
    fun hc => Playing.body_goes_on hc junk idx r.frameSize { s with pOneFrame := out, sysTime := r.frameStartTime }, ?_⟩
  intro fuel
  simp only [playLoop, hcall, hpos, if_true, Int.toNat_natCast]

/-- to a record that stops the loop, over records that are played -/
theorem playLoop_ends (client : Client) (junk : NaluInfo) {k : ℕ} (hstop : StopsAt m k) (n : ℕ) (hn : n ≤ k)
    (hplay : ∀ j, k - n ≤ j → j < k → PlaysAt m j) (s : Playing) :
    ∃ visits, playLoop client junk m (n + 1) (k - n) s = some visits := by
  induction n generalizing s with
  | zero => exact ⟨[], playLoop_stop hstop 0 s⟩
  | succ n ih =>
    obtain ⟨v, s', b, -, hround⟩ := playLoop_play client junk (hplay (k - (n + 1)) le_rfl (by omega)) s
    rw [hround, show k - (n + 1) + 1 = k - n by omega]
    obtain ⟨visits, hrest⟩ := ih (by omega) (fun j hj hjk => hplay j (by omega) hjk) s'
    split_ifs
    · exact ⟨v :: visits, by rw [hrest]; rfl⟩
    · exact ⟨[v], rfl⟩

/-- a loop that has ended, with a client that stays, has met such a record -/
theorem stop_of_playLoop (hc : ∀ i, client.isConnected i = true) (fuel idx : ℕ) (s : Playing) {visits : List Visit}
    (h : playLoop client junk m fuel idx s = some visits) :
    ∃ k, idx ≤ k ∧ StopsAt m k ∧ ∀ j, idx ≤ j → j < k → PlaysAt m j := by
  induction fuel generalizing idx s visits with
  | zero => cases h
  | succ fuel ih =>
    have hstop : StopsAt m idx → ∃ k, idx ≤ k ∧ StopsAt m k ∧ ∀ j, idx ≤ j → j < k → PlaysAt m j :=
      fun hs => ⟨idx, le_rfl, hs, fun j h1 h2 => absurd h2 h1.not_gt⟩
    by_cases hin : sizeofStoreInfo * (idx + 1) ≤ storeBufMaxSize
    · by_cases hr : (recordAt m storeBufMaxSize idx).head = storeInfoHead ∧
          (recordAt m storeBufMaxSize idx).frameSize ≤ playerFrameSize
      · by_cases hrange : (recordAt m storeBufMaxSize idx).frameOffset +
            (recordAt m storeBufMaxSize idx).frameSize ≤ storeBufMaxSize
        · rcases Nat.eq_zero_or_pos (recordAt m storeBufMaxSize idx).frameSize with hzero | hpos
          · exact hstop ⟨hin, Or.inr (Or.inr ⟨hzero, by omega⟩)⟩
          · -- a frame is played, and the rest of the loop ends
            have hplay : PlaysAt m idx := ⟨⟨hin, hr.1, hrange, hr.2⟩, hpos⟩
            obtain ⟨v, s', b, hb, hround⟩ := playLoop_play client junk hplay s
            rw [hround, if_pos (hb hc)] at h
            obtain ⟨rest, hrest, -⟩ := Option.map_eq_some_iff.1 h
            obtain ⟨k, hk, hs, hbefore⟩ := ih (idx + 1) s' hrest
            refine ⟨k, by omega, hs, ?_⟩
            intro j hj hjk
            rcases hj.eq_or_lt with rfl | hj
            · exact hplay
            · exact hbefore j hj hjk
        · have hcall := getOneFrame_taken s.pOneFrame s.sysTime hin hr.1 hr.2
          rw [if_neg hrange] at hcall
          simp [playLoop, hcall] at h
      · rw [not_and_or, not_le] at hr
        exact hstop ⟨hin, hr.imp id Or.inl⟩
    · simp [playLoop, getOneFrame_outside s.pOneFrame s.sysTime hin] at h

theorem playbackEnds_iff (junk : NaluInfo) (m : Mem) (s : Playing) :
    PlaybackEnds junk m s ↔ ∃ k, StopsAt m k ∧ ∀ j < k, PlaysAt m j := by
  constructor
  · intro hends
    obtain ⟨fuel, visits, h⟩ := hends ⟨fun _ => true, fun _ => true⟩
    obtain ⟨k, -, hs, hbefore⟩ := stop_of_playLoop (fun _ => rfl) fuel 0 s h
    exact ⟨k, hs, fun j hj => hbefore j (Nat.zero_le j) hj⟩
  · rintro ⟨k, hs, hbefore⟩ client
    have hrun := playLoop_ends client junk hs k le_rfl (fun j _ hjk => hbefore j hjk) s
    rw [Nat.sub_self] at hrun
    exact ⟨k + 1, hrun⟩

end Loop

/-- **The frame reader on any image.** A call serves its caller exactly if the record lies inside the image and, if it
is one that is not refused, its range does too. The playback loop ends exactly if a record inside the image stops it and
the records before it describe ranges of the image. -/
theorem any_image_iff (m : Mem) (framesSize idx : ℕ) (out : Mem) (outSize sysTime : ℕ) (junk : NaluInfo)
    (s : Playing) :
    (Serves m framesSize idx out outSize sysTime ↔ RecordInside m framesSize idx outSize) ∧
      (PlaybackEnds junk m s ↔ ∃ k, StopsAt m k ∧ ∀ j < k, PlaysAt m j) :=
  ⟨serves_iff out sysTime, playbackEnds_iff junk m s⟩

/-- an image of zeros with one record at its end -/
def oneRecord (framesSize : ℕ) (r : StoreInfo) : Mem :=
  memcpy (fun _ => 0) (framesSize - sizeofStoreInfo) r.bytes 0 sizeofStoreInfo

/-- the player before the first frame -/
def idlePlayer : Playing := ⟨Player.init, false, fun _ => 0, 0, 0, 0⟩

/-- a record of 10 bytes at offset 1000 of an image of 96 bytes -/
def farRecord : Mem := oneRecord 96 ⟨storeInfoHead, 1, 0, 1000, 10⟩

/-- a record of 10 bytes behind the end of a store file -/
def farFile : Mem := oneRecord storeBufMaxSize ⟨storeInfoHead, 1, 0, storeBufMaxSize, 10⟩

/-- zeros: no record carries the head -/
theorem any_image_zeros :
    Serves (fun _ => 0) 96 0 (fun _ => 0) 20 0 ∧ PlaybackEnds ⟨0, 0, 0⟩ (fun _ => 0) idlePlayer := by
  obtain ⟨hcall, hloop⟩ := any_image_iff (fun _ => 0) 96 0 (fun _ => 0) 20 0 ⟨0, 0, 0⟩ idlePlayer
  constructor
  · exact hcall.2 ⟨by decide, fun hhead => absurd hhead (by decide +kernel)⟩
  · exact hloop.2 ⟨0, ⟨by decide, Or.inl (by decide +kernel)⟩, fun j hj => absurd hj (Nat.not_lt_zero j)⟩

/-- **Crafted images.** The range of the only record lies behind the image, and the bytes there are copied. The record
before it does not exist, and is read. A file whose last record describes a range behind the file: no fuel lets the
playback loop end. -/
theorem crafted_images :
    getOneFrameByIndex 0 (some farRecord) 96 (some fun _ => 0) 20 (some 0) = none ∧
    ¬ Serves farRecord 96 0 (fun _ => 0) 20 0 ∧
    getOneFrameByIndex 1 (some farRecord) 96 (some fun _ => 0) 20 (some 0) = none ∧
    ¬ Serves farRecord 96 1 (fun _ => 0) 20 0 ∧
    ∀ client junk fuel, playLoop client junk farFile fuel 0 idlePlayer = none := by
  refine ⟨?_, ?_, getOneFrame_outside _ _ (by decide), ?_, ?_⟩
  · rw [getOneFrame_taken _ _ (by decide) (by decide +kernel) (by decide +kernel)]
    exact if_neg (by decide +kernel)
  · rw [serves_iff]
    intro h
    exact absurd (h.range (by decide +kernel) (by decide +kernel)).1 (by decide +kernel)
  · rw [serves_iff]
    intro h
    exact absurd h.inside (by decide)
  · intro client junk fuel
    cases fuel with
    | zero => rfl
    | succ fuel =>
      have hcall := getOneFrame_taken (m := farFile) idlePlayer.pOneFrame idlePlayer.sysTime
        (show sizeofStoreInfo * (0 + 1) ≤ storeBufMaxSize by decide) (by decide +kernel)
        (show _ ≤ playerFrameSize by decide +kernel)
      rw [if_neg (by decide +kernel)] at hcall
      simp only [playLoop, hcall]

end StoreService.Playback
