/-
A chunk request cut by the network (`ClientResponseProc` in `server.cpp`, `DoingRecvBakFile` in `backup.cpp`).

The server reads from a non-blocking socket until a read finds nothing, puts a zero behind what it has and calls
`BackupRespond`: "no data yet" counts as the end of the request. `DoingRecvBakFile` then writes as many bytes as the
header asks for, wherever the data ended. `arrivals` says how many bytes are there at each read; the receive buffer
comes from malloc and holds anything.

- `chunk_survives_iff`: whatever the buffer held before, exactly the chunk is appended, or the request is refused and
  nothing is appended, if and only if what was read ends inside the name of the request, or the server cannot write for
  any stream number that fits the bytes received, or the chunk was received (its last byte may be missing if it is zero,
  as the terminator is) and written whole; and the buffer is not overrun.
- `header_alone`: the header arrives first and the chunk after the read that finds nothing. The server appends the
  contents of its buffer.
-/
import StoreService.Backup.Respond

namespace StoreService.Backup

open StoreService.ByteMem StoreService.FileSys

/-! ## The read loop -/

/-- `read` until nothing is there; `none` when it writes past the end of the buffer. A read returns what has arrived, as
far as READ_BUF_MAX_SIZE allows. -/
def readLoop (msg : Mem) (total readBufSize : ℕ) : List ℕ → Mem → ℕ → Option (Mem × ℕ)
  | [], buf, readIndex => some (buf, readIndex)
  | there :: arrivals, buf, readIndex =>
    let rdSize := min there (min (total - readIndex) (readBufMaxSize - readIndex))
    if rdSize = 0 then some (buf, readIndex)
    else if readBufSize < readIndex + rdSize then none
    else
      let buf := memcpy buf readIndex msg readIndex rdSize
      if readBufMaxSize ≤ readIndex + rdSize then some (buf, readBufMaxSize - 1)
      else readLoop msg total readBufSize arrivals buf (readIndex + rdSize)

/-- `ClientResponseProc` after `select`: the buffer that the callback gets, if it is called -/
def clientResponse (msg : Mem) (total readBufSize : ℕ) (arrivals : List ℕ) (junk : Mem) : Option (Option Mem) :=
  (readLoop msg total readBufSize arrivals junk 0).bind fun r =>
    if r.2 = 0 then some none
    else if r.2 < readBufSize then some (some (Function.update r.1 r.2 0))
    else none

/-- how many bytes the loop reads, from `readIndex` on -/
def bytesRead (total : ℕ) : List ℕ → ℕ → ℕ
  | [], readIndex => readIndex
  | there :: arrivals, readIndex =>
    let rdSize := min there (min (total - readIndex) (readBufMaxSize - readIndex))
    if rdSize = 0 ∨ readBufMaxSize ≤ readIndex + rdSize then readIndex + rdSize
    else bytesRead total arrivals (readIndex + rdSize)

theorem le_bytesRead (total : ℕ) (arrivals : List ℕ) : ∀ readIndex, readIndex ≤ bytesRead total arrivals readIndex := by
  induction arrivals with
  | nil => intro readIndex; exact le_rfl
  | cons there arrivals ih =>
    intro readIndex
    rw [bytesRead]
    split_ifs
    · exact Nat.le_add_right _ _
    · exact (Nat.le_add_right _ _).trans (ih _)

theorem bytesRead_le (total : ℕ) (arrivals : List ℕ) : ∀ readIndex, readIndex ≤ total → readIndex ≤ readBufMaxSize →
    bytesRead total arrivals readIndex ≤ min total readBufMaxSize := by
  induction arrivals with
  | nil => intro readIndex h1 h2; exact le_min h1 h2
  | cons there arrivals ih =>
    intro readIndex h1 h2
    rw [bytesRead]
    split_ifs
    · omega
    · exact ih _ (by omega) (by omega)

/-- the loop copies what it reads, or overruns the buffer -/
theorem readLoop_eq {msg : Mem} {total readBufSize : ℕ} (arrivals : List ℕ) : ∀ (buf : Mem) (readIndex : ℕ),
    readIndex < readBufMaxSize → readIndex ≤ readBufSize →
    readLoop msg total readBufSize arrivals buf readIndex =
      if bytesRead total arrivals readIndex ≤ readBufSize then
        some (memcpy buf readIndex msg readIndex (bytesRead total arrivals readIndex - readIndex),
          min (bytesRead total arrivals readIndex) (readBufMaxSize - 1))
      else none := by
  induction arrivals with
  | nil =>
    intro buf readIndex hmax hsize
    rw [readLoop, bytesRead, if_pos hsize, Nat.sub_self, memcpy_zero, min_eq_left (by omega)]
  | cons there arrivals ih =>
    intro buf readIndex hmax hsize
    rw [readLoop, bytesRead]
    generalize min there (min (total - readIndex) (readBufMaxSize - readIndex)) = rdSize
    have hle := le_bytesRead total arrivals (readIndex + rdSize)
    by_cases h0 : rdSize = 0
    · subst h0
      simp only [true_or, if_true, Nat.add_zero, Nat.sub_self, memcpy_zero]
      rw [if_pos hsize, min_eq_left (by omega)]
    · simp only [h0, if_false, false_or]
      by_cases hfull : readBufMaxSize ≤ readIndex + rdSize
      · simp only [if_pos hfull, Nat.add_sub_cancel_left,
          min_eq_right (Nat.sub_le_of_le_add (Nat.le_add_right_of_le hfull))]
        by_cases hover : readBufSize < readIndex + rdSize
        · rw [if_pos hover, if_neg (by omega)]
        · rw [if_neg hover, if_pos (by omega)]
      · simp only [if_neg hfull]
        by_cases hover : readBufSize < readIndex + rdSize
        · rw [if_pos hover, if_neg (by omega)]
        · rw [if_neg hover, ih _ _ (by omega) (by omega), memcpy_add, ← Nat.sub_sub, Nat.add_sub_cancel' (by omega)]

/-! ## What the handler does with a chunk -/

namespace Server

/-- the `ret` of `DoingRecvBakFile`, before it is stored in a uint8_t -/
def doingRet (sv : Server) (id : ℕ) (chunk : List UInt8) (openOk : Bool) (written : Option ℕ) : ℤ :=
  let path := resolve ((sv.queue id).getD [])
  match sv.files path with
  | none => -1
  | some _ =>
    if path ≠ [] ∧ openOk then
      match written with
      | none => -1
      | some n => (min n chunk.length : ℕ)
    else -1

/-- the server can write for stream `id`: it has a file that can be opened and written to -/
structure Takes (sv : Server) (id : ℕ) (openOk : Bool) (written : Option ℕ) : Prop where
  named : resolve ((sv.queue id).getD []) ≠ []
  exists_file : sv.files (resolve ((sv.queue id).getD [])) ≠ none
  opens : openOk = true
  writes : written ≠ none

variable {sv : Server} {id : ℕ} {chunk : List UInt8} {openOk : Bool} {written : Option ℕ}

theorem doingRecvBakFile_result : (sv.doingRecvBakFile id chunk openOk written).2 =
    uint8 (sv.doingRet id chunk openOk written) := by
  cases hf : sv.files (resolve ((sv.queue id).getD [])) with
  | none => simp only [doingRecvBakFile, writeChunk, doingRet, hf]
  | some old =>
    simp only [doingRecvBakFile, writeChunk, doingRet, hf]
    split_ifs
    · cases written <;> rfl
    · rfl

/-- a failure is reported exactly when the server cannot write -/
theorem doingRet_neg_iff : sv.doingRet id chunk openOk written < 0 ↔ ¬ sv.Takes id openOk written := by
  cases hf : sv.files (resolve ((sv.queue id).getD [])) with
  | none =>
    simp only [doingRet, hf]
    exact iff_of_true (by decide) fun h => h.exists_file hf
  | some old =>
    simp only [doingRet, hf]
    split_ifs with ho
    · cases written with
      | none => exact iff_of_true (by norm_num) fun h => h.writes rfl
      | some n => exact iff_of_false (not_lt.2 (Int.natCast_nonneg _)) (not_not.2 ⟨ho.1, by simp [hf], ho.2, nofun⟩)
    · exact iff_of_true (by decide) fun h => ho ⟨h.named, h.opens⟩

theorem doingRecv_refused (h : ¬ sv.Takes id openOk written) :
    (sv.doingRecvBakFile id chunk openOk written).1.files = sv.files := by
  unfold doingRecvBakFile writeChunk
  cases hf : sv.files (resolve ((sv.queue id).getD [])) with
  | none => simp [hf]
  | some old =>
    simp only [hf]
    split_ifs with ho
    · cases written with
      | none => rfl
      | some n => exact absurd ⟨ho.1, by simp [hf], ho.2, nofun⟩ h
    · rfl

theorem doingRecv_taken {n : ℕ} (h : sv.Takes id openOk (some n)) :
    (sv.doingRecvBakFile id chunk openOk (some n)).1.files =
      append sv.files (resolve ((sv.queue id).getD [])) (chunk.take n) := by
  obtain ⟨old, hf⟩ := Option.ne_none_iff_exists'.1 h.exists_file
  simp only [doingRecvBakFile, writeChunk, hf, h.opens, and_true, if_pos h.named]

end Server

/-- the files tell where a chunk was appended, and which -/
theorem append_inj {fs : Files} {p q : List (List Char)} {a b : List UInt8} (hb : b ≠ []) :
    append fs p a = append fs q b ↔ p = q ∧ a = b := by
  constructor
  · intro h
    have hq := congrFun h q
    simp only [append, Function.update_self] at hq
    by_cases hpq : p = q
    · subst hpq
      simpa using hq
    · rw [Function.update_of_ne (Ne.symm hpq)] at hq
      cases hf : fs q with
      | none => simp [hf] at hq
      | some old => simp [hf, hb] at hq
  · rintro ⟨rfl, rfl⟩
    rfl

/-! ## A request, cut anywhere -/

/-- a chunk request, how it arrives, and what happens to it on the server -/
structure Delivery where
  server : Server
  id : ℕ
  chunk : List UInt8
  /-- bytes that are there at each read; 0 for "no data yet" -/
  arrivals : List ℕ
  /-- TCP_MAXSEG -/
  mss : ℕ
  openOk : Bool
  written : Option ℕ
  /-- the client sends what `read` returned, which is not nothing -/
  chunk_ne : chunk ≠ []
  fits : (Request.doing id chunk).Fits

namespace Delivery

def request (d : Delivery) : Request := .doing d.id d.chunk

/-- rd_buf_size -/
def readBufSize (d : Delivery) : ℕ := d.mss * 128

/-- the file of the stream -/
def path (d : Delivery) : List (List Char) := resolve ((d.server.queue d.id).getD [])

/-- the buffer the callback gets, if the malloc'd buffer held `junk` -/
def received (d : Delivery) (junk : Mem) : Option (Option Mem) :=
  clientResponse d.request.message d.request.size d.readBufSize d.arrivals junk

/-- exactly the chunk is appended to the file of the stream, or the request is refused and no file changes -/
def Survives (d : Delivery) (junk : Mem) : Prop :=
  match d.received junk with
  | none => False
  | some none => True
  | some (some m) =>
    match decode m with
    | none => True
    | some (.doing id chunk) =>
      (d.server.doingRecvBakFile id chunk d.openOk d.written).1.files = append d.server.files d.path d.chunk ∨
        d.server.doingRet id chunk d.openOk d.written < 0 ∧
          (d.server.doingRecvBakFile id chunk d.openOk d.written).1.files = d.server.files
    | some _ => False

/-- ReadIndex after the loop -/
def readIndex (d : Delivery) : ℕ := min (bytesRead d.request.size d.arrivals 0) (readBufMaxSize - 1)

/-- the receive buffer: what was read, the terminator, and what was there before -/
def buffer (d : Delivery) (junk : Mem) : Mem := fun i =>
  if i < d.readIndex then d.request.message i else if i = d.readIndex then 0 else junk i

/-- the loop and the terminator stay inside the buffer -/
def InBounds (d : Delivery) : Prop :=
  bytesRead d.request.size d.arrivals 0 ≤ d.readBufSize ∧ (0 < d.readIndex → d.readIndex < d.readBufSize)

instance (d : Delivery) : Decidable d.InBounds := inferInstanceAs (Decidable (_ ∧ (_ → _)))

/-- when a cut does no harm -/
structure Safe (d : Delivery) : Prop where
  bounds : d.InBounds
  harmless :
    -- the name of the request is not complete
    d.readIndex < 23 ∨
    -- whatever number stands in the buffer, the server cannot write for that stream
    (∀ junk, ¬ d.server.Takes (readLE (d.buffer junk) 24 4) d.openOk d.written) ∨
    -- the chunk is complete, or lacks its last byte and this is zero; and it is written whole
    ((∃ n, d.written = some n ∧ d.chunk.length ≤ n) ∧
      (d.request.size ≤ d.readIndex ∨ d.readIndex + 1 = d.request.size ∧ d.chunk.getLast? = some 0))

/-- the zero is put behind what was read, or on its last byte if the buffer is full -/
theorem buffer_eq (d : Delivery) (junk : Mem) :
    Function.update (memcpy junk 0 d.request.message 0 (bytesRead d.request.size d.arrivals 0)) d.readIndex 0 =
      d.buffer junk := by
  have hle := bytesRead_le d.request.size d.arrivals 0 (Nat.zero_le _) (Nat.zero_le _)
  have hidx : d.readIndex = min (bytesRead d.request.size d.arrivals 0) (readBufMaxSize - 1) := rfl
  funext i
  rcases lt_trichotomy i d.readIndex with hlt | heq | hgt
  · rw [buffer, if_pos hlt, Function.update_of_ne hlt.ne, memcpy_of_mem (Nat.zero_le i) (by omega), Nat.sub_zero,
      Nat.zero_add]
  · rw [heq, buffer, if_neg (lt_irrefl _), if_pos rfl, Function.update_self]
  · rw [buffer, if_neg hgt.not_gt, if_neg hgt.ne', Function.update_of_ne hgt.ne']
    exact sameOn_memcpy (b := i) (k := 1) (Or.inr (by omega)) i le_rfl (by omega)

theorem received_eq (d : Delivery) (junk : Mem) : d.received junk =
    if d.InBounds then some (if d.readIndex = 0 then none else some (d.buffer junk)) else none := by
  have hmax : 0 < readBufMaxSize := by decide
  rw [received, clientResponse, readLoop_eq d.arrivals junk 0 hmax (Nat.zero_le _), Nat.sub_zero]
  by_cases hsize : bytesRead d.request.size d.arrivals 0 ≤ d.readBufSize
  · rw [if_pos hsize, Option.bind_some]
    change (if d.readIndex = 0 then some none else if d.readIndex < d.readBufSize then
      some (some (Function.update _ d.readIndex 0)) else none) = _
    rw [buffer_eq]
    by_cases h0 : d.readIndex = 0
    · rw [if_pos h0, if_pos h0, if_pos ⟨hsize, fun h => absurd h0 (Nat.ne_of_gt h)⟩]
    · rw [if_neg h0, if_neg h0]
      by_cases hidx : d.readIndex < d.readBufSize
      · rw [if_pos hidx, if_pos ⟨hsize, fun _ => hidx⟩]
      · rw [if_neg hidx, if_neg fun h => hidx (h.2 (Nat.pos_of_ne_zero h0))]
  · rw [if_neg hsize, if_neg fun h => hsize h.1]
    rfl

/-! ## What the server reads from it -/

/-- the stream number in the buffer -/
def idRead (d : Delivery) (junk : Mem) : ℕ := readLE (d.buffer junk) 24 4

/-- the chunk in the buffer -/
def chunkRead (d : Delivery) (junk : Mem) : List UInt8 := slice (d.buffer junk) 32 (readLE (d.buffer junk) 28 4)

theorem buffer_of_lt (d : Delivery) (junk : Mem) {i : ℕ} (h : i < d.readIndex) :
    d.buffer junk i = d.request.message i := if_pos h

theorem buffer_of_gt (d : Delivery) (junk : Mem) {i : ℕ} (h : d.readIndex < i) : d.buffer junk i = junk i := by
  rw [buffer, if_neg h.not_gt, if_neg h.ne']

theorem buffer_readIndex (d : Delivery) (junk : Mem) : d.buffer junk d.readIndex = 0 := by
  rw [buffer, if_neg (lt_irrefl _), if_pos rfl]

/-- a name that is cut is not known -/
theorem decode_cut (d : Delivery) (junk : Mem) (h : d.readIndex < 23) : decode (d.buffer junk) = none := by
  have hlen : (doingHead.take d.readIndex).length = d.readIndex := by
    rw [List.length_take, min_eq_left (h.le.trans_eq (by decide +kernel))]
  have hne : ∀ b ∈ doingHead, b ≠ 0 := by decide +kernel
  have hhead : cString (d.buffer junk) (headMaxSize + 1) 0 = doingHead.take d.readIndex := by
    refine reqHead_eq (fun h0 => hne 0 (List.mem_of_mem_take h0) rfl) ?_ fun i hi => ?_
    · rw [hlen]
      exact h.le.trans (by decide)
    · rw [hlen] at hi
      rcases hi.lt_or_eq with hlt | rfl
      · rw [buffer_of_lt d junk hlt, request, (doing_message d.id d.chunk).1 i (by omega), ofList, ofList,
          List.getD_eq_getElem?_getD, List.getD_eq_getElem?_getD, List.getElem?_take_of_lt hlt]
      · rw [buffer_readIndex, ofList, List.getD_eq_getElem?_getD, List.getElem?_eq_none hlen.le, Option.getD_none]
  have other {head : List UInt8} (hl : 23 ≤ head.length) : doingHead.take d.readIndex ≠ head := by
    rintro rfl
    omega
  rw [decode, hhead, hlen, if_neg (by have : headMaxSize = 128 := rfl; omega), if_neg (other (by decide +kernel)),
    if_neg (other (by decide +kernel)), if_neg (other (by decide +kernel))]

/-- with the whole name there, the fields are read from the buffer -/
theorem decode_named (d : Delivery) (junk : Mem) (h : 23 ≤ d.readIndex) :
    decode (d.buffer junk) = some (.doing (d.idRead junk) (d.chunkRead junk)) := by
  refine decode_doing fun i hi => ?_
  have hhead := (doing_message d.id d.chunk).1
  by_cases hlt : i < d.readIndex
  · rw [buffer_of_lt d junk hlt]
    exact hhead i hi
  · obtain ⟨rfl, hidx⟩ : i = 23 ∧ d.readIndex = 23 := by omega
    rw [← hidx, buffer_readIndex, hidx]
    decide +kernel

/-- the request is handled: if the server can write for the number it reads, this must be the stream's file and what is
written must be the chunk -/
theorem survives_iff (d : Delivery) (junk : Mem) (hb : d.InBounds) (h : 23 ≤ d.readIndex) : d.Survives junk ↔
    (d.server.Takes (d.idRead junk) d.openOk d.written → ∀ n, d.written = some n →
      resolve ((d.server.queue (d.idRead junk)).getD []) = d.path ∧ (d.chunkRead junk).take n = d.chunk) := by
  rw [Survives, received_eq, if_pos hb, if_neg (by omega)]
  simp only [decode_named d junk h]
  rw [Server.doingRet_neg_iff]
  by_cases ht : d.server.Takes (d.idRead junk) d.openOk d.written
  · obtain ⟨n, hn⟩ := Option.ne_none_iff_exists'.1 ht.writes
    rw [hn] at ht ⊢
    rw [Server.doingRecv_taken ht, append_inj d.chunk_ne]
    simp [ht]
  · rw [Server.doingRecv_refused ht]
    simp [ht]

/-- the fields of the header, once they are read -/
theorem header_read (d : Delivery) (junk : Mem) (h : 32 ≤ d.readIndex) :
    d.idRead junk = d.id ∧ readLE (d.buffer junk) 28 4 = d.chunk.length := by
  obtain ⟨-, hid, hsize, -⟩ := doing_message d.id d.chunk
  obtain ⟨hid32, hlen32⟩ := d.fits
  have hsame (a : ℕ) (ha : a + 4 ≤ 32) : SameOn (d.buffer junk) d.request.message a 4 :=
    fun i _ hi => d.buffer_of_lt junk (by omega)
  constructor
  · rw [idRead, readLE_sameOn (hsame 24 (by omega)), request, hid, Nat.mod_eq_of_lt (by omega)]
  · rw [readLE_sameOn (hsame 28 (by omega)), request, hsize, Nat.mod_eq_of_lt (by omega)]

theorem message_chunk (d : Delivery) {i : ℕ} (hi : i < d.chunk.length) :
    d.request.message (32 + i) = ofList d.chunk i :=
  (doing_message d.id d.chunk).2.2.2 i hi

theorem size_eq (d : Delivery) : d.request.size = 32 + d.chunk.length := rfl

theorem getLast?_ofList (d : Delivery) : d.chunk.getLast? = some (ofList d.chunk (d.chunk.length - 1)) := by
  have hpos := List.length_pos_iff.2 d.chunk_ne
  rw [List.getLast?_eq_getElem?, ofList, List.getD_eq_getElem?_getD, List.getElem?_eq_getElem (by omega),
    Option.getD_some]

/-- the chunk was received, up to a last byte that is zero -/
theorem sameOn_of_complete (d : Delivery) (junk : Mem)
    (h : d.request.size ≤ d.readIndex ∨ d.readIndex + 1 = d.request.size ∧ d.chunk.getLast? = some 0) :
    SameOn (d.buffer junk) d.request.message 0 d.request.size := by
  intro i _ hi
  rw [Nat.zero_add] at hi
  rcases h with hall | ⟨hlast, hzero⟩
  · exact d.buffer_of_lt junk (by omega)
  · by_cases hlt : i < d.readIndex
    · exact d.buffer_of_lt junk hlt
    · -- the missing byte: the terminator stands in its place
      have hpos := List.length_pos_iff.2 d.chunk_ne
      rw [size_eq] at hi hlast
      obtain rfl : i = d.readIndex := by omega
      rw [buffer_readIndex, show d.readIndex = 32 + (d.chunk.length - 1) by omega, message_chunk d (by omega)]
      rw [getLast?_ofList] at hzero
      exact (Option.some.inj hzero).symm

theorem Safe.survives {d : Delivery} (h : d.Safe) (junk : Mem) : d.Survives junk := by
  by_cases hcut : d.readIndex < 23
  · rw [Survives, received_eq, if_pos h.bounds]
    by_cases h0 : d.readIndex = 0
    · simp only [h0, if_true]
    · simp only [h0, if_false, decode_cut d junk hcut]
  · rw [survives_iff d junk h.bounds (by omega)]
    intro ht n hn
    rcases h.harmless with hlt | hno | ⟨⟨k, hk, hwhole⟩, hall⟩
    · exact absurd hlt hcut
    · exact absurd ht (hno junk)
    · have hread := decode_message d.fits (d.sameOn_of_complete junk hall)
      rw [decode_named d junk (by omega), Option.some.injEq, Request.doing.injEq] at hread
      obtain rfl := Option.some.inj (hk.symm.trans hn)
      rw [hread.1, hread.2, List.take_of_length_le hwhole]
      exact ⟨rfl, rfl⟩

/-- the header itself is cut: the first byte of the chunk is not there yet, and need not be right -/
theorem not_survives_of_header_cut {d : Delivery} {junk : Mem} (hb : d.InBounds) (hnamed : 23 ≤ d.readIndex)
    (hcut : d.readIndex < 32) (ht : d.server.Takes (d.idRead junk) d.openOk d.written) :
    ∃ junk, ¬ d.Survives junk := by
  obtain ⟨n, hn⟩ := Option.ne_none_iff_exists'.1 ht.writes
  obtain ⟨c, chunk, hc⟩ := List.exists_cons_of_ne_nil d.chunk_ne
  refine ⟨Function.update junk 32 (c + 1), fun hs => ?_⟩
  have hsame : SameOn (d.buffer (Function.update junk 32 (c + 1))) (d.buffer junk) 0 32 := by
    intro i _ hi
    simp only [buffer, Function.update_of_ne (show i ≠ 32 by omega)]
  have hid : d.idRead (Function.update junk 32 (c + 1)) = d.idRead junk :=
    readLE_sameOn (hsame.mono (by omega) (by omega))
  rw [survives_iff d _ hb hnamed, hid] at hs
  have hread := (hs ht n hn).2
  rw [hc] at hread
  -- what is written begins with the byte of the buffer
  have hfirst : (d.chunkRead (Function.update junk 32 (c + 1))).head? = some c := by
    have htake := List.head?_take (l := d.chunkRead (Function.update junk 32 (c + 1))) (i := n)
    rw [hread] at htake
    split_ifs at htake
    · cases htake
    · exact htake.symm
  rw [chunkRead, slice, List.head?_map] at hfirst
  cases hsize : readLE (d.buffer (Function.update junk 32 (c + 1))) 28 4 with
  | zero => simp [hsize] at hfirst
  | succ k => simp [hsize, List.range_succ_eq_map, buffer_of_gt d _ hcut] at hfirst

theorem safe_of_survives {d : Delivery} (h : ∀ junk, d.Survives junk) : d.Safe := by
  have hb : d.InBounds := by
    by_contra hb
    have := h fun _ => 0
    rw [Survives, received_eq, if_neg hb] at this
    exact this
  refine ⟨hb, ?_⟩
  by_cases hcut : d.readIndex < 23
  · exact Or.inl hcut
  by_cases hno : ∀ junk, ¬ d.server.Takes (readLE (d.buffer junk) 24 4) d.openOk d.written
  · exact Or.inr (Or.inl hno)
  simp only [not_forall, not_not] at hno
  obtain ⟨junk, ht⟩ := hno
  by_cases hhead : d.readIndex < 32
  · obtain ⟨junk', hs⟩ := not_survives_of_header_cut hb (by omega) hhead ht
    exact absurd (h junk') hs
  -- the header is there: every buffer must have the chunk in it
  obtain ⟨n, hn⟩ := Option.ne_none_iff_exists'.1 ht.writes
  have hchunk (junk' : Mem) : (slice (d.buffer junk') 32 d.chunk.length).take n = d.chunk := by
    have hid : d.idRead junk' = d.idRead junk := by
      rw [(d.header_read junk' (by omega)).1, (d.header_read junk (by omega)).1]
    have hs := h junk'
    rw [survives_iff d junk' hb (by omega), hid, chunkRead, (d.header_read junk' (by omega)).2] at hs
    exact (hs ht n hn).2
  have hwhole : d.chunk.length ≤ n := by
    have hlen := congrArg List.length (hchunk junk)
    rw [List.length_take, length_slice] at hlen
    omega
  have hbyte (junk' : Mem) : ∀ i < d.chunk.length, d.buffer junk' (32 + i) = ofList d.chunk i := by
    have hs := hchunk junk'
    rw [List.take_of_length_le (by rw [length_slice]; exact hwhole)] at hs
    exact slice_eq_list_iff.1 hs
  refine Or.inr (Or.inr ⟨⟨n, hn, hwhole⟩, ?_⟩)
  by_cases hall : d.request.size ≤ d.readIndex
  · exact Or.inl hall
  rw [size_eq] at hall ⊢
  -- behind the terminator the buffer is whatever it was
  have hnext : ¬ d.readIndex + 1 < 32 + d.chunk.length := by
    intro hlt
    have hbad := hbyte (fun _ => ofList d.chunk (d.readIndex + 1 - 32) + 1) (d.readIndex + 1 - 32) (by omega)
    rw [buffer_of_gt d _ (by omega)] at hbad
    simp at hbad
  have hlast := hbyte junk (d.chunk.length - 1) (by omega)
  rw [show 32 + (d.chunk.length - 1) = d.readIndex by omega, buffer_readIndex] at hlast
  exact Or.inr ⟨by omega, by rw [getLast?_ofList, ← hlast]⟩

end Delivery

/-- **When a cut does no harm.** Whatever the receive buffer held, exactly the chunk is appended or the request is
refused with no file changed, if and only if the delivery is `Safe`. -/
theorem chunk_survives_iff (d : Delivery) : (∀ junk, d.Survives junk) ↔ d.Safe :=
  ⟨Delivery.safe_of_survives, fun h junk => h.survives junk⟩

/-! ## The header comes alone -/

/-- stream 0 is open for an empty file; the header is there at the first read, the chunk is not -/
def headerFirst : Delivery where
  server := ⟨fun p => if p = [['f']] then some [] else none, fun i => if i = 0 then some ['f'] else none, 1⟩
  id := 0
  chunk := [1, 2, 3]
  arrivals := [32, 0]
  mss := 1460
  openOk := true
  written := some 3
  chunk_ne := by decide
  fits := by constructor <;> decide

/-- three zeros of the buffer are appended in place of the chunk, and nobody is told -/
theorem header_alone : ¬ headerFirst.Survives (fun _ => 0) ∧
    ∃ m, headerFirst.received (fun _ => 0) = some (some m) ∧ decode m = some (.doing 0 [0, 0, 0]) ∧
      (headerFirst.server.doingRecvBakFile 0 [0, 0, 0] true (some 3)).1.files [['f']] = some [0, 0, 0] ∧
      (headerFirst.server.doingRecvBakFile 0 [0, 0, 0] true (some 3)).2 = 3 := by
  have hidx : headerFirst.readIndex = 32 := by decide +kernel
  have hb : headerFirst.InBounds := by decide +kernel
  have hread : headerFirst.idRead (fun _ => 0) = 0 ∧ headerFirst.chunkRead (fun _ => 0) = [0, 0, 0] := by decide +kernel
  refine ⟨fun hs => ?_, headerFirst.buffer fun _ => 0, ?_, ?_, by decide +kernel, by decide +kernel⟩
  · rw [Delivery.survives_iff _ _ hb (by omega), hread.1, hread.2] at hs
    have htakes : headerFirst.server.Takes 0 headerFirst.openOk headerFirst.written :=
      ⟨by decide +kernel, by decide +kernel, rfl, nofun⟩
    exact absurd (hs htakes 3 rfl).2 (by decide)
  · rw [Delivery.received_eq, if_pos hb, if_neg (by omega)]
  · rw [Delivery.decode_named _ _ (by omega), hread.1, hread.2]

end StoreService.Backup
