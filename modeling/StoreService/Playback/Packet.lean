/-
From a frame to the body of a video packet (`ParseH264Param`, `PacketVideoData`, rtmpsrv.cpp).

The player cuts a frame into NAL units at its start codes and sends them with their lengths: a header of five bytes,
then for each unit four bytes of length, the most significant first, and its bytes. The body is put together in a static
buffer of VIDEO_DATA_BUF_SIZE bytes; nobody compares its size with that.

- `tiles_iff`: the units listed for a frame that begins with 00 00 00 01 tile the frame, each behind its start code, iff
  no start code of the frame runs over its end.
- `unit_behind_frame`: zero bytes at the end of a frame, a longer frame before it in the same buffer, and the list has a
  unit that lies behind the frame.
- `video_body_decodes`: the body decodes to the listed units, with nothing left over; and the body of a frame of the
  player fits into the buffer. A unit of the list takes at least four bytes of the frame, so its length field makes the
  body longer than the frame by a quarter at most.

The units are read from the player's frame buffer and written to another one.
-/
import StoreService.Playback.StoreFile

namespace StoreService.Playback

open StoreService.ByteMem StoreService.Store

/-! ## The list tiles the frame -/

def IsCode (c : List UInt8) : Prop := c = [0, 0, 1] ∨ c = [0, 0, 0, 1]

instance (c : List UInt8) : Decidable (IsCode c) := inferInstanceAs (Decidable (_ ∨ _))

/-- the units are ranges of the frame, and together with their start codes they are the frame -/
structure Tiles (m : Mem) (data size : ℕ) (l : List NaluInfo) : Prop where
  inside : ∀ e ∈ l, 0 < e.naluLen ∧ data ≤ e.nalu ∧ e.nalu + e.naluLen ≤ data + size
  type : ∀ e ∈ l, e.type = (m e.nalu).toNat % 32
  whole : ∃ codes : List (List UInt8), codes.length = l.length ∧ (∀ c ∈ codes, IsCode c) ∧
    (List.zipWith (fun c e => c ++ slice m e.nalu e.naluLen) codes l).flatten = slice m data size

/-- units one behind the other, each behind its start code, from address `a` to address `b` -/
def Covers (m : Mem) : ℕ → List NaluInfo → ℕ → Prop
  | a, [], b => a = b
  | a, e :: l, b => a ≤ e.nalu ∧ IsCode (slice m a (e.nalu - a)) ∧ 0 < e.naluLen ∧ e.type = (m e.nalu).toNat % 32 ∧
      Covers m (e.nalu + e.naluLen) l b

section Tiling

variable {m : Mem} {a b data size pos : ℕ}

theorem Covers.le {l : List NaluInfo} (h : Covers m a l b) : a ≤ b := by
  induction l generalizing a with
  | nil => exact le_of_eq h
  | cons e l ih =>
    obtain ⟨hle, -, -, -, hl⟩ := h
    exact hle.trans ((Nat.le_add_right _ _).trans (ih hl))

theorem Covers.snoc {l : List NaluInfo} {e : NaluInfo} (h : Covers m a l b) (hle : b ≤ e.nalu)
    (hcode : IsCode (slice m b (e.nalu - b))) (hlen : 0 < e.naluLen) (htype : e.type = (m e.nalu).toNat % 32) :
    Covers m a (l ++ [e]) (e.nalu + e.naluLen) := by
  induction l generalizing a with
  | nil =>
    obtain rfl : a = b := h
    exact ⟨hle, hcode, hlen, htype, rfl⟩
  | cons e' l ih =>
    obtain ⟨h1, h2, h3, h4, hl⟩ := h
    exact ⟨h1, h2, h3, h4, ih hl⟩

theorem Covers.inside {l : List NaluInfo} (h : Covers m a l b) :
    ∀ e ∈ l, (0 < e.naluLen ∧ a ≤ e.nalu ∧ e.nalu + e.naluLen ≤ b) ∧ e.type = (m e.nalu).toNat % 32 := by
  induction l generalizing a with
  | nil => exact fun e he => absurd he List.not_mem_nil
  | cons e l ih =>
    obtain ⟨hle, -, hlen, htype, hl⟩ := h
    intro e' he'
    rcases List.mem_cons.1 he' with rfl | he'
    · exact ⟨⟨hlen, hle, hl.le⟩, htype⟩
    · obtain ⟨⟨hlen', hle', hb'⟩, htype'⟩ := ih hl e' he'
      exact ⟨⟨hlen', by omega, hb'⟩, htype'⟩

/-- the code and the bytes of each unit are the bytes from `a` to `b` -/
theorem Covers.whole {l : List NaluInfo} (h : Covers m a l b) :
    ∃ codes : List (List UInt8), codes.length = l.length ∧ (∀ c ∈ codes, IsCode c) ∧
      (List.zipWith (fun c e => c ++ slice m e.nalu e.naluLen) codes l).flatten = slice m a (b - a) := by
  induction l generalizing a with
  | nil =>
    obtain rfl : a = b := h
    exact ⟨[], rfl, by simp, by simp [slice]⟩
  | cons e l ih =>
    obtain ⟨hle, hcode, -, -, hl⟩ := h
    obtain ⟨codes, hlen, hcodes, hflat⟩ := ih hl
    refine ⟨slice m a (e.nalu - a) :: codes, by simp [hlen], List.forall_mem_cons.2 ⟨hcode, hcodes⟩, ?_⟩
    have hb := hl.le
    calc (List.zipWith (fun c e => c ++ slice m e.nalu e.naluLen) (slice m a (e.nalu - a) :: codes) (e :: l)).flatten
        = slice m a (e.nalu - a) ++ slice m e.nalu e.naluLen ++
            slice m (e.nalu + e.naluLen) (b - (e.nalu + e.naluLen)) := by
          rw [List.zipWith_cons_cons, List.flatten_cons, hflat]
      _ = slice m a (e.nalu - a) ++ slice m e.nalu (b - e.nalu) := by
          rw [List.append_assoc, ← slice_add, show e.naluLen + (b - (e.nalu + e.naluLen)) = b - e.nalu by omega]
      _ = slice m a (b - a) := by
          rw [show b - a = e.nalu - a + (b - e.nalu) by omega, slice_add, Nat.add_sub_cancel' hle]

theorem Covers.tiles {l : List NaluInfo} (h : Covers m data l (data + size)) : Tiles m data size l where
  inside e he := (h.inside e he).1
  type e he := (h.inside e he).2
  whole := by simpa using h.whole

theorem isCode_codeLen (h : codeLen m a ≠ 0) : IsCode (slice m a (codeLen m a)) := by
  unfold codeLen at h ⊢
  split_ifs at h ⊢ with h4 h3
  · exact Or.inr (four_code_iff.1 h4)
  · exact Or.inl (three_code_iff.1 h3)
  · exact absurd rfl h

/-- the player's scan: the units listed cover the frame up to the start code of the unit being read -/
theorem h264Loop_covers (fuel pos : ℕ) (hpos : pos ≤ size) (hfuel : size - pos < fuel) :
    ∀ (info : NaluInfo) (list : List NaluInfo) (b : ℕ), Covers m data list b → b ≤ info.nalu →
      IsCode (slice m b (info.nalu - b)) → ReadTo m data pos info → beyond m data size fuel pos = none →
      Covers m data (parseH264Loop m data size fuel pos info true list) (data + size) := by
  refine scan_induction ?hend ?hplain ?hinside ?hcut fuel pos hpos hfuel
  case hend =>
    intro fuel info list b hl hle hcode hinfo _
    rw [h264Loop_end le_rfl, ← hinfo.pos]
    exact hl.snoc hle hcode hinfo.nonempty hinfo.type
  case hplain =>
    intro fuel pos h hc ih info list b hl hle hcode hinfo hb
    rw [h264Loop_plain h hc]
    rw [beyond_plain h hc] at hb
    exact ih _ list b hl hle hcode hinfo.next hb
  case hinside =>
    intro fuel pos hc h ih info list b hl hle hcode hinfo hb
    rw [h264Loop_code (by omega) hc]
    rw [beyond_inside hc h] at hb
    have hl' := hl.snoc hle hcode hinfo.nonempty hinfo.type
    rw [hinfo.pos] at hl'
    refine ih _ (list ++ [info]) (data + pos) hl' (Nat.le_add_right _ _) ?_ ?_ hb
    · rw [Nat.add_sub_cancel_left]
      exact isCode_codeLen hc
    · simpa only [add_assoc] using readTo_header m data (pos + codeLen m (data + pos))
  case hcut =>
    intro fuel pos h hc hcut info list b _ _ _ _ hb
    rw [beyond_cut h hc hcut] at hb
    cases hb

/-- a header read behind the end is listed as a unit -/
theorem h264Loop_outside (fuel pos : ℕ) (hpos : pos ≤ size) (hfuel : size - pos < fuel) :
    ∀ (info : NaluInfo) (first : Bool) (list : List NaluInfo), beyond m data size fuel pos ≠ none →
      ∃ e ∈ parseH264Loop m data size fuel pos info first list, data + size < e.nalu + e.naluLen := by
  refine scan_induction ?hend ?hplain ?hinside ?hcut fuel pos hpos hfuel
  case hend =>
    intro fuel info first list hb
    exact absurd (beyond_end le_rfl) hb
  case hplain =>
    intro fuel pos h hc ih info first list hb
    rw [h264Loop_plain h hc]
    rw [beyond_plain h hc] at hb
    exact ih _ first list hb
  case hinside =>
    intro fuel pos hc h ih info first list hb
    rw [h264Loop_code (by omega) hc]
    rw [beyond_inside hc h] at hb
    exact ih _ true _ hb
  case hcut =>
    intro fuel pos h hc hcut info first list _
    rw [h264Loop_code h hc, h264Loop_end (by omega)]
    refine ⟨_, List.mem_append_right _ (List.mem_singleton.2 rfl), ?_⟩
    simp only
    omega

end Tiling

/-- the first round of the scan of a frame that begins with a start code of four bytes -/
theorem parseH264Param_first {junk : NaluInfo} {m : Mem} {data size : ℕ} (hs : 0 < size)
    (hcode : readLE m data 4 = 0x01000000) : parseH264Param junk m data size =
      parseH264Loop m data size size 5 ⟨(m (data + 4)).toNat % 32, data + 4, 1⟩ true [] := by
  have hc : codeLen m (data + 0) = 4 := if_pos hcode
  have hfirst : parseH264Param junk m data size = parseH264Loop m data size size (0 + codeLen m (data + 0) + 1)
      ⟨(m (data + 0 + codeLen m (data + 0))).toNat % 32, data + 0 + codeLen m (data + 0), 1⟩ true [] :=
    h264Loop_code hs (by rw [hc]; decide)
  rw [hfirst, hc]

/-- **The listed units tile the frame** exactly if no start code of the frame runs over its end. The frame begins with
00 00 00 01; whatever is behind it may complete a start code. -/
theorem tiles_iff (junk : NaluInfo) (m : Mem) (data size : ℕ) (hcode : (slice m data size).take 4 = [0, 0, 0, 1]) :
    Tiles m data size (parseH264Param junk m data size) ↔ ¬ Overruns m data size := by
  have hlen : ([0, 0, 0, 1] : List UInt8).length = 4 := rfl
  obtain ⟨hsize, hslice⟩ := (take_slice_eq_iff hlen).1 hcode
  have hread : readLE m data 4 = 0x01000000 := four_code_iff.2 hslice
  constructor
  · intro htiles hover
    obtain ⟨e, he, hout⟩ := h264Loop_outside (size + 1) 0 (Nat.zero_le _) (by omega) junk false [] hover
    have hin := (htiles.inside e he).2.2
    omega
  · intro hover
    have hc : codeLen m (data + 0) = 4 := if_pos hread
    have hb : beyond m data size (size + 1) 0 = none := not_not.1 hover
    rcases hsize.eq_or_lt with rfl | h4
    · -- the header of the only start code lies behind the frame
      rw [beyond_cut (by decide) (by rw [hc]; decide) (by rw [hc])] at hb
      cases hb
    · rw [beyond_inside (by rw [hc]; decide) (by rw [hc]; omega), hc] at hb
      rw [parseH264Param_first (by omega) hread]
      apply Covers.tiles
      refine h264Loop_covers size 5 h4 (by omega) _ [] data rfl (Nat.le_add_right _ _) ?_ ?_ hb
      · rw [Nat.add_sub_cancel_left]
        exact Or.inr hslice
      · exact readTo_header m data 4

theorem tiles_idr : Tiles idrFrame 0 16 (parseH264Param ⟨0, 0, 0⟩ idrFrame 0 16) :=
  (tiles_iff ⟨0, 0, 0⟩ idrFrame 0 16 (by decide +kernel)).2 (by decide +kernel)

/-- seven bytes with two zero bytes at the end, where a longer frame has left the bytes 01 65 behind them -/
def leftoverFrame : Mem := frameMem [0, 0, 0, 1, 0x41, 0, 0, 1, 0x65, 0x88]

/-- **A unit behind the frame**: the last two bytes of the frame are taken for the beginning of a start code that the
leftover completes, and the list has a unit of type 5 at offset 8 of a frame of 7 bytes. -/
theorem unit_behind_frame :
    (slice leftoverFrame 0 7).take 4 = [0, 0, 0, 1] ∧
    parseH264Param ⟨0, 0, 0⟩ leftoverFrame 0 7 = [⟨1, 4, 1⟩, ⟨5, 8, 1⟩] ∧
    ¬ Tiles leftoverFrame 0 7 (parseH264Param ⟨0, 0, 0⟩ leftoverFrame 0 7) := by
  have hlist : parseH264Param ⟨0, 0, 0⟩ leftoverFrame 0 7 = [⟨1, 4, 1⟩, ⟨5, 8, 1⟩] := by decide +kernel
  refine ⟨by decide +kernel, hlist, ?_⟩
  intro h
  rw [hlist] at h
  exact absurd (h.inside ⟨5, 8, 1⟩ (by decide)).2.2 (by decide)

/-! ## The body -/

/-- `VIDEO_DATA_BUF_SIZE` -/
def videoDataBufSize : ℕ := 50 * 1024 * 1024

/-- `body[i++] = v`; `i` is a uint32_t -/
def putByte (b : Mem × ℕ) (v : UInt8) : Mem × ℕ := (memset b.1 b.2 v 1, u32 (b.2 + 1))

/-- a number in four bytes, the most significant first -/
def be32 (n : ℕ) : List UInt8 :=
  [UInt8.ofNat (n / 2 ^ 24), UInt8.ofNat (n / 2 ^ 16), UInt8.ofNat (n / 2 ^ 8), UInt8.ofNat n]

/-- a round of the loop of `PacketVideoData` -/
def packetUnit (m : Mem) (b : Mem × ℕ) (e : NaluInfo) : Mem × ℕ :=
  let b := (be32 e.naluLen).foldl putByte b
  (memcpy b.1 b.2 m e.nalu e.naluLen, u32 (b.2 + e.naluLen))

def videoHeader (isKeyFrame : Bool) : List UInt8 := [if isKeyFrame then 0x17 else 0x27, 0x01, 0x00, 0x00, 0x00]

/-- `PacketVideoData`: the buffer, and the `i` it returns -/
def packetVideoData (m : Mem) (isKeyFrame : Bool) (naluList : List NaluInfo) (body : Mem) : Mem × ℕ :=
  naluList.foldl (packetUnit m) ((videoHeader isKeyFrame).foldl putByte (body, 0))

/-- header, and for each unit its length and its bytes -/
def bodySize (naluList : List NaluInfo) : ℕ := 5 + (naluList.map fun e => 4 + e.naluLen).sum

/-! What a receiver does with a body. -/

def readBE : List UInt8 → Option (ℕ × List UInt8)
  | a :: b :: c :: d :: rest => some (a.toNat * 2 ^ 24 + b.toNat * 2 ^ 16 + c.toNat * 2 ^ 8 + d.toNat, rest)
  | _ => none

/-- units until nothing is left; a length that goes over the end is an error. A unit has at least four bytes, so the
fuel is enough. -/
def decodeUnits : ℕ → List UInt8 → Option (List (List UInt8))
  | 0, _ => none
  | _ + 1, [] => some []
  | fuel + 1, b :: l =>
    match readBE (b :: l) with
    | some (n, rest) =>
      if n ≤ rest.length then (decodeUnits fuel (rest.drop n)).map fun us => rest.take n :: us else none
    | none => none

/-- the five bytes of the header, and the units -/
def decodeBody (l : List UInt8) : Option (List UInt8 × List (List UInt8)) :=
  if 5 ≤ l.length then (decodeUnits (l.length + 1) (l.drop 5)).map fun us => (l.take 5, us) else none

theorem readBE_be32 {n : ℕ} (h : n < 2 ^ 32) (rest : List UInt8) : readBE (be32 n ++ rest) = some (n, rest) := by
  have hvalue : (UInt8.ofNat (n / 2 ^ 24)).toNat * 2 ^ 24 + (UInt8.ofNat (n / 2 ^ 16)).toNat * 2 ^ 16 +
      (UInt8.ofNat (n / 2 ^ 8)).toNat * 2 ^ 8 + (UInt8.ofNat n).toNat = n := by
    simp only [UInt8.toNat_ofNat']
    omega
  simp only [be32, List.cons_append, List.nil_append, readBE, hvalue]

/-- a unit as it stands in a body -/
def encodeUnit (u : List UInt8) : List UInt8 := be32 u.length ++ u

theorem decodeUnits_encode {us : List (List UInt8)} (hus : ∀ u ∈ us, u.length < 2 ^ 32) {fuel : ℕ}
    (hfuel : us.length < fuel) : decodeUnits fuel (us.map encodeUnit).flatten = some us := by
  induction us generalizing fuel with
  | nil =>
    obtain ⟨fuel, rfl⟩ := Nat.exists_eq_succ_of_ne_zero (Nat.ne_of_gt hfuel)
    rfl
  | cons u us ih =>
    obtain ⟨fuel, rfl⟩ := Nat.exists_eq_succ_of_ne_zero (Nat.ne_of_gt (Nat.zero_lt_of_lt hfuel))
    obtain ⟨hu, hus⟩ := List.forall_mem_cons.1 hus
    have hrest := ih hus (Nat.lt_of_succ_lt_succ hfuel)
    have hread := readBE_be32 hu (u ++ (us.map encodeUnit).flatten)
    simp only [List.map_cons, List.flatten_cons, encodeUnit, List.append_assoc]
    -- the first byte of the length shows that something is left
    simp only [be32, List.cons_append, List.nil_append] at hread ⊢
    rw [decodeUnits, hread]
    simp [hrest]

/-! ## What is written -/

/-- the first bytes of the buffer, as many as `i` says -/
def Written (b : Mem × ℕ) (l : List UInt8) : Prop := b.2 = l.length ∧ slice b.1 0 l.length = l

section Writing

variable {b : Mem × ℕ} {l : List UInt8}

/-- bytes behind those that are written -/
theorem Written.memcpy (h : Written b l) (src : Mem) (a n : ℕ) (hlen : l.length + n < 2 ^ 32) :
    Written (memcpy b.1 b.2 src a n, u32 (b.2 + n)) (l ++ slice src a n) := by
  obtain ⟨hi, hslice⟩ := h
  refine ⟨?_, ?_⟩
  · rw [List.length_append, length_slice, hi]
    exact Nat.mod_eq_of_lt hlen
  · simp only [List.length_append, length_slice, hi]
    rw [slice_add, zero_add, slice_memcpy]
    congr 1
    calc slice (ByteMem.memcpy b.1 l.length src a n) 0 l.length
        = slice b.1 0 l.length := slice_sameOn (sameOn_memcpy (Or.inl (by omega)))
      _ = l := hslice

theorem Written.putByte (h : Written b l) (v : UInt8) (hlen : l.length + 1 < 2 ^ 32) :
    Written (putByte b v) (l ++ [v]) :=
  h.memcpy (fun _ => v) 0 1 hlen

theorem Written.putBytes (h : Written b l) (vs : List UInt8) (hlen : l.length + vs.length < 2 ^ 32) :
    Written (vs.foldl Playback.putByte b) (l ++ vs) := by
  induction vs generalizing b l with
  | nil => simpa using h
  | cons v vs ih =>
    rw [List.length_cons] at hlen
    have hnext := ih (h.putByte v (by omega)) (by rw [List.length_append, List.length_singleton]; omega)
    rwa [List.append_assoc] at hnext

theorem Written.packetUnit (h : Written b l) (m : Mem) (e : NaluInfo) (hlen : l.length + (4 + e.naluLen) < 2 ^ 32) :
    Written (packetUnit m b e) (l ++ encodeUnit (slice m e.nalu e.naluLen)) := by
  have hbe : (be32 e.naluLen).length = 4 := rfl
  have hhead := h.putBytes (be32 e.naluLen) (by omega)
  have hunit := hhead.memcpy m e.nalu e.naluLen (by rw [List.length_append, hbe]; omega)
  rw [encodeUnit, length_slice, ← List.append_assoc]
  exact hunit

theorem length_encodeUnit (u : List UInt8) : (encodeUnit u).length = 4 + u.length := by
  rw [encodeUnit, List.length_append]
  rfl

theorem Written.packetUnits (h : Written b l) (m : Mem) (list : List NaluInfo)
    (hlen : l.length + (list.map fun e => 4 + e.naluLen).sum < 2 ^ 32) :
    Written (list.foldl (Playback.packetUnit m) b)
      (l ++ ((list.map fun e => slice m e.nalu e.naluLen).map encodeUnit).flatten) := by
  induction list generalizing b l with
  | nil => simpa using h
  | cons e list ih =>
    rw [List.map_cons, List.sum_cons] at hlen
    have hnext := ih (h.packetUnit m e (by omega))
      (by rw [List.length_append, length_encodeUnit, length_slice]; omega)
    rwa [List.append_assoc] at hnext

theorem length_body (m : Mem) (isKeyFrame : Bool) (list : List NaluInfo) :
    (videoHeader isKeyFrame ++ ((list.map fun e => slice m e.nalu e.naluLen).map encodeUnit).flatten).length =
      bodySize list := by
  simp [bodySize, videoHeader, Function.comp_def, length_encodeUnit]
  omega

/-- the bytes of a body -/
theorem packetVideoData_written (m : Mem) (isKeyFrame : Bool) (list : List NaluInfo) (body : Mem)
    (hsize : bodySize list < 2 ^ 32) :
    Written (packetVideoData m isKeyFrame list body)
      (videoHeader isKeyFrame ++ ((list.map fun e => slice m e.nalu e.naluLen).map encodeUnit).flatten) := by
  have hempty : Written (body, 0) [] := ⟨rfl, rfl⟩
  have hhead := hempty.putBytes (videoHeader isKeyFrame) (by cases isKeyFrame <;> decide)
  exact hhead.packetUnits m list hsize

theorem decodeBody_header (header : List UInt8) (hlen : header.length = 5) (us : List (List UInt8))
    (hus : ∀ u ∈ us, u.length < 2 ^ 32) :
    decodeBody (header ++ (us.map encodeUnit).flatten) = some (header, us) := by
  have hcount : us.length ≤ (us.map encodeUnit).flatten.length := by
    rw [List.length_flatten, List.map_map]
    calc us.length = us.length • 1 := by simp
      _ ≤ _ := by
        rw [← List.length_map (f := List.length ∘ encodeUnit)]
        refine List.card_nsmul_le_sum _ 1 ?_
        intro x hx
        obtain ⟨u, -, rfl⟩ := List.mem_map.1 hx
        rw [Function.comp_apply, length_encodeUnit]
        omega
  have hfuel : us.length < (header ++ (us.map encodeUnit).flatten).length + 1 := by
    rw [List.length_append]
    omega
  rw [decodeBody, if_pos (by rw [List.length_append]; omega), List.drop_left' hlen, List.take_left' hlen,
    decodeUnits_encode hus hfuel]
  rfl

end Writing

/-! ## The size of a body -/

section Size

variable {m : Mem} {data size : ℕ}

/-- the bytes the units of a list take in a body -/
def unitsSize (l : List NaluInfo) : ℕ := (l.map fun e => 4 + e.naluLen).sum

theorem unitsSize_snoc (l : List NaluInfo) (e : NaluInfo) : unitsSize (l ++ [e]) = unitsSize l + (4 + e.naluLen) := by
  simp [unitsSize]

theorem three_le_codeLen {a : ℕ} (h : codeLen m a ≠ 0) : 3 ≤ codeLen m a := by
  unfold codeLen at h ⊢
  split_ifs at h ⊢ <;> omega

/-- every unit has taken a start code and a header, at least four bytes of the scan, for the four bytes of its length -/
theorem h264Loop_unitsSize (fuel pos : ℕ) (hpos : pos ≤ size) (hfuel : size - pos < fuel) :
    ∀ (info : NaluInfo) (list : List NaluInfo), 4 * unitsSize (list ++ [info]) ≤ 5 * pos →
      4 * unitsSize (parseH264Loop m data size fuel pos info true list) ≤ 5 * (size + 4) := by
  refine scan_induction ?hend ?hplain ?hinside ?hcut fuel pos hpos hfuel
  case hend =>
    intro fuel info list h
    rw [h264Loop_end le_rfl]
    omega
  case hplain =>
    intro fuel pos h hc ih info list hinv
    rw [h264Loop_plain h hc]
    apply ih
    simp only [unitsSize_snoc] at hinv ⊢
    omega
  case hinside =>
    intro fuel pos hc h ih info list hinv
    have hcode := three_le_codeLen hc
    rw [h264Loop_code (by omega) hc]
    apply ih
    simp only [if_true, unitsSize_snoc] at hinv ⊢
    omega
  case hcut =>
    intro fuel pos h hc hcut info list hinv
    have hcode := codeLen_le m (data + pos)
    rw [h264Loop_code h hc, h264Loop_end (by omega)]
    simp only [if_true, unitsSize_snoc] at hinv ⊢
    omega

/-- a scan that finds a start code: what was counted before it, from a length nobody set, is dropped -/
theorem h264Loop_unitsSize_first (fuel pos : ℕ) (hpos : pos ≤ size) (hfuel : size - pos < fuel) :
    ∀ info : NaluInfo, (∃ k < size, pos ≤ k ∧ codeLen m (data + k) ≠ 0) →
      4 * unitsSize (parseH264Loop m data size fuel pos info false []) ≤ 5 * (size + 4) := by
  induction fuel generalizing pos with
  | zero => omega
  | succ fuel ih =>
    rintro info ⟨k, hk, hle, hcode⟩
    by_cases hc : codeLen m (data + pos) = 0
    · rw [h264Loop_plain (by omega) hc]
      have hne : pos ≠ k := by
        rintro rfl
        exact hcode hc
      exact ih (pos + 1) (by omega) (by omega) _ ⟨k, hk, by omega, hcode⟩
    · have h3 := three_le_codeLen hc
      have h4 := codeLen_le m (data + pos)
      rw [h264Loop_code (by omega) hc]
      rcases le_or_gt (pos + codeLen m (data + pos) + 1) size with hin | hout
      · refine h264Loop_unitsSize fuel _ hin (by omega) _ [] ?_
        simp only [List.nil_append, unitsSize, List.map_cons, List.map_nil, List.sum_cons, List.sum_nil]
        omega
      · rw [h264Loop_end (by omega)]
        simp [unitsSize]
        omega

/-- the body of what a scan with a start code lists -/
theorem fits_of_code (junk : NaluInfo) (m : Mem) (data size : ℕ) (hsize : size ≤ playerFrameSize)
    (hcode : ∃ k < size, codeLen m (data + k) ≠ 0) : bodySize (parseH264Param junk m data size) ≤ videoDataBufSize := by
  obtain ⟨k, hk, hne⟩ := hcode
  have hunits := h264Loop_unitsSize_first (size + 1) 0 (Nat.zero_le _) (by omega) junk ⟨k, hk, Nat.zero_le k, hne⟩
  have hbody : bodySize (parseH264Param junk m data size) = 5 + unitsSize (parseH264Param junk m data size) := rfl
  rw [hbody, parseH264Param]
  simp only [playerFrameSize, videoDataBufSize] at hsize ⊢
  omega

/-- a call of `ParseVideoData`: a frame in memory, and what the uninitialised `naluInfo` holds -/
structure ParseCall where
  junk : NaluInfo
  mem : Mem
  pData : ℕ
  dataSize : ℕ

def Player.parseFrame (p : Player) (f : ParseCall) : Player := p.parseVideoData f.junk f.mem f.pData f.dataSize

/-- a frame either is scanned, and begins with a start code, or leaves the list as it was -/
theorem frames_fit (frames : List ParseCall) (p : Player) (hp : bodySize p.naluList ≤ videoDataBufSize)
    (hframes : ∀ f ∈ frames, 0 < f.dataSize ∧ f.dataSize ≤ playerFrameSize) :
    bodySize (frames.foldl Player.parseFrame p).naluList ≤ videoDataBufSize := by
  induction frames generalizing p with
  | nil => exact hp
  | cons f frames ih =>
    obtain ⟨⟨hpos, hle⟩, hframes⟩ := List.forall_mem_cons.1 hframes
    refine ih _ ?_ hframes
    rw [Player.parseFrame, Player.parseVideoData_naluList]
    split_ifs with hcode
    · refine fits_of_code f.junk f.mem f.pData f.dataSize hle ⟨0, hpos, ?_⟩
      have h4 : codeLen f.mem (f.pData + 0) = 4 := if_pos hcode
      rw [h4]
      decide
    · exact hp

end Size

/-- **The body of a video packet decodes to the listed units.** For every list of units whose body is below 2^32 bytes,
the bytes that are sent are the header and length-prefixed units that decode to exactly this list. The body fits into
the buffer for every list that a scan with a start code builds of at most 300 KB, and so it does for whatever list the
player has after any frames of one byte to 300 KB, also when a frame leaves the list of the one before. -/
theorem video_body_decodes :
    (∀ (m : Mem) (isKeyFrame : Bool) (naluList : List NaluInfo) (body : Mem),
      (∀ e ∈ naluList, e.naluLen < 2 ^ 32) → bodySize naluList < 2 ^ 32 →
      (packetVideoData m isKeyFrame naluList body).2 = bodySize naluList ∧
      decodeBody (slice (packetVideoData m isKeyFrame naluList body).1 0
        (packetVideoData m isKeyFrame naluList body).2) =
          some (videoHeader isKeyFrame, naluList.map fun e => slice m e.nalu e.naluLen)) ∧
    (∀ (junk : NaluInfo) (m : Mem) (data size : ℕ), size ≤ playerFrameSize →
      (∃ k < size, codeLen m (data + k) ≠ 0) → bodySize (parseH264Param junk m data size) ≤ videoDataBufSize) ∧
    (∀ frames : List ParseCall, (∀ f ∈ frames, 0 < f.dataSize ∧ f.dataSize ≤ playerFrameSize) →
      bodySize (frames.foldl Player.parseFrame Player.init).naluList ≤ videoDataBufSize) := by
  refine ⟨?_, fits_of_code, ?_⟩
  · intro m isKeyFrame naluList body hlen hsize
    obtain ⟨hi, hbytes⟩ := packetVideoData_written m isKeyFrame naluList body hsize
    refine ⟨?_, ?_⟩
    · rw [hi, length_body]
    · rw [hi, hbytes]
      refine decodeBody_header _ rfl _ ?_
      intro u hu
      obtain ⟨e, he, rfl⟩ := List.mem_map.1 hu
      rw [length_slice]
      exact hlen e he
  · intro frames hframes
    exact frames_fit frames Player.init (by decide) hframes

theorem video_body_decodes_idr :
    decodeBody (slice (packetVideoData idrFrame true (parseH264Param ⟨0, 0, 0⟩ idrFrame 0 16) (fun _ => 0)).1 0
      (packetVideoData idrFrame true (parseH264Param ⟨0, 0, 0⟩ idrFrame 0 16) (fun _ => 0)).2) =
        some ([0x17, 1, 0, 0, 0], [[0x67, 1], [0x68, 2], [0x65, 3]]) ∧
    bodySize (parseH264Param ⟨0, 0, 0⟩ idrFrame 0 16) ≤ videoDataBufSize := by
  have hlist : parseH264Param ⟨0, 0, 0⟩ idrFrame 0 16 = [⟨7, 4, 2⟩, ⟨8, 9, 2⟩, ⟨5, 14, 2⟩] := by decide +kernel
  refine ⟨?_, video_body_decodes.2.1 ⟨0, 0, 0⟩ idrFrame 0 16 (by decide) ⟨0, by decide, by decide +kernel⟩⟩
  rw [hlist]
  exact (video_body_decodes.1 idrFrame true [⟨7, 4, 2⟩, ⟨8, 9, 2⟩, ⟨5, 14, 2⟩] (fun _ => 0) (by decide) (by decide)).2

end StoreService.Playback
