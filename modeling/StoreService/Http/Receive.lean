/-
Receiving a request (`ClientResponseProc`, server.cpp; `ParseContentLen`, `ResponseClient`, http.cpp).

The service reads what has arrived into a buffer, sets a zero behind it and hands it to `ResponseClient`, which compares
the Content-Length header with what follows the blank line and reads once more, behind what is there.

Model: the memory from the first byte of the buffer on, with every store to it in a log (index and count). What each
read() finds in the socket is a parameter; it returns at most what it is asked for, and the loop ends with the first
that returns nothing. `stack` is what the array `len` of `ParseContentLen`, which gets no terminator, held before.

- `receive_bounded_iff`: all stores lie in the buffer iff what was received, with the zero, and the bytes of the last
  read fit it. The loop is bounded by READ_BUF_MAX_SIZE, not by the size of the buffer.
- `receive_overrun`: the configured buffer of 10 KiB and 10240 bytes.
-/
import StoreService.Common.Dates
import StoreService.Http.Registry
import StoreService.Http.Request

namespace StoreService.Http

open StoreService.ByteMem StoreService.Fields StoreService.Find StoreService.Json StoreService.Dates

/-! ## The functions -/

def readBufMaxSize : ℕ := 32768 * 128

/-- bytes of the buffer: `rd_buf_size`, or a multiple of the mss -/
def bufSize (rdBufSize mss : ℕ) : ℕ := if rdBufSize = 0 then mss * 128 % 2 ^ 32 else rdBufSize

structure ClientBuf where
  pReadBuf : Mem
  readIndex : ℕ
  /-- index and count of every store -/
  stores : List (ℕ × ℕ)

/-- bytes stored behind what is there -/
def ClientBuf.append (b : ClientBuf) (data : Str) : ClientBuf where
  pReadBuf := putBytes b.pReadBuf b.readIndex data
  readIndex := b.readIndex + data.length
  stores := b.stores ++ [(b.readIndex, data.length)]

/-- the `while` around read(); each element is what the next call finds -/
def readLoop : ClientBuf → List Str → ClientBuf
  | b, [] => b
  | b, found :: more =>
    let data := found.take (readBufMaxSize - b.readIndex)
    if data = [] then b
    else if (b.append data).readIndex ≥ readBufMaxSize then { b.append data with readIndex := readBufMaxSize - 1 }
    else readLoop (b.append data) more

/-- `ClientResponseProc` up to the callback; `none` if nothing was read -/
def receive (prior : Mem) (found : List Str) : Option ClientBuf :=
  let b := readLoop ⟨prior, 0, []⟩ found
  if b.readIndex = 0 then none
  else some { b with pReadBuf := putBytes b.pReadBuf b.readIndex [0], stores := b.stores ++ [(b.readIndex, 1)] }

/-- the C string that `ResponseClient` gets -/
def ClientBuf.content (b : ClientBuf) : Str := cText (slice b.pReadBuf 0 b.readIndex)

/-- `ParseContentLen`; the loop that copies the number looks only for '\r' -/
def parseContentLen (stack : Str) (info : Mem) (content : Str) : ℤ :=
  match strstr (bytes "Content-Length: ") content with
  | none => -1
  | some i =>
    match scanField info 13 128 (i + 16) with
    | .error _ => -1
    | .ok (len, _) => atoi (len ++ stack.drop len.length)

/-- how much `ResponseClient` asks for -/
def ClientBuf.missing (stack : Str) (b : ClientBuf) : ℕ :=
  match parsePostData b.content with
  | none => 0
  | some info =>
    let parse := parseContentLen stack b.pReadBuf b.content
    if 0 < parse ∧ info.length < parse then (parse - info.length).toNat else 0

/-- the further read() of `ResponseClient`, which finds `extra` -/
def ClientBuf.readMore (stack extra : Str) (b : ClientBuf) : ClientBuf :=
  let data := extra.take (b.missing stack)
  if data = [] then b
  else { b with pReadBuf := putBytes b.pReadBuf b.readIndex data, stores := b.stores ++ [(b.readIndex, data.length)] }

/-! ## Stores -/

/-- every store lies below the size -/
def ClientBuf.Within (size : ℕ) (b : ClientBuf) : Prop := ∀ st ∈ b.stores, st.1 + st.2 ≤ size

/-- a connection stores only in its buffer -/
def ReceiveBounded (size : ℕ) (prior : Mem) (found : List Str) (stack extra : Str) : Prop :=
  ∀ b, receive prior found = some b → (b.readMore stack extra).Within size

/-- what the loop takes of the bytes it is offered -/
def arrived (found : List Str) : Str := (found.takeWhile (· ≠ [])).flatten.take readBufMaxSize

/-- the bytes stored by the further read -/
def further (prior : Mem) (found : List Str) (stack extra : Str) : ℕ :=
  ((receive prior found).map fun b => (extra.take (b.missing stack)).length).getD 0

/-- what the stores need -/
def needed (n k : ℕ) : ℕ :=
  if n = 0 then 0 else if n < readBufMaxSize then n + max 1 k else readBufMaxSize - 1 + max 1 k

theorem within_append {size : ℕ} {b : ClientBuf} {a n : ℕ} :
    (∀ st ∈ b.stores ++ [(a, n)], st.1 + st.2 ≤ size) ↔ b.Within size ∧ a + n ≤ size := by
  simp [ClientBuf.Within, or_imp, forall_and]

/-- a loop that takes nothing -/
theorem within_nothing {size : ℕ} {b : ClientBuf} :
    b.Within size ↔ b.Within size ∧ (([] : Str) = [] ∨ b.readIndex ≤ size) :=
  ⟨fun h => ⟨h, Or.inl rfl⟩, fun h => h.1⟩

/-! ## The loop -/

section

variable {b : ClientBuf} {f : Str} {more : List Str}

/-- read() finds nothing -/
theorem readLoop_nothing : readLoop b ([] :: more) = b := by rw [readLoop, List.take_nil, if_pos rfl]

/-- what read() takes when it fills the buffer -/
theorem length_fill (hfull : readBufMaxSize ≤ b.readIndex + f.length) :
    (f.take (readBufMaxSize - b.readIndex)).length = readBufMaxSize - b.readIndex :=
  List.length_take_of_le (by omega)

theorem fill_ne_nil (hroom : b.readIndex < readBufMaxSize) (hfull : readBufMaxSize ≤ b.readIndex + f.length) :
    f.take (readBufMaxSize - b.readIndex) ≠ [] := by
  apply List.ne_nil_of_length_pos
  rw [length_fill hfull]
  omega

/-- read() fills the buffer -/
theorem readLoop_fills (hroom : b.readIndex < readBufMaxSize) (hfull : readBufMaxSize ≤ b.readIndex + f.length) :
    readLoop b (f :: more) =
      { b.append (f.take (readBufMaxSize - b.readIndex)) with readIndex := readBufMaxSize - 1 } := by
  have hlen := length_fill hfull
  have hindex : (b.append (f.take (readBufMaxSize - b.readIndex))).readIndex ≥ readBufMaxSize := by
    change b.readIndex + (f.take (readBufMaxSize - b.readIndex)).length ≥ readBufMaxSize
    omega
  rw [readLoop, if_neg (fill_ne_nil hroom hfull), if_pos hindex]

/-- read() leaves room in the buffer -/
theorem readLoop_next (hf : f ≠ []) (hshort : b.readIndex + f.length < readBufMaxSize) :
    readLoop b (f :: more) = readLoop (b.append f) more := by
  have hall : f.take (readBufMaxSize - b.readIndex) = f := List.take_of_length_le (by omega)
  have hindex : ¬ (b.append f).readIndex ≥ readBufMaxSize := not_le.2 hshort
  rw [readLoop, hall, if_neg hf, if_neg hindex]

end

/-- what the loop does with what it is offered -/
theorem readLoop_spec {b : ClientBuf} (hroom : b.readIndex < readBufMaxSize) (found : List Str) :
    ∃ p : Str, (found.takeWhile (· ≠ [])).flatten.take (readBufMaxSize - b.readIndex) = p ∧
      (readLoop b found).pReadBuf = putBytes b.pReadBuf b.readIndex p ∧
      (readLoop b found).readIndex =
        (if b.readIndex + p.length < readBufMaxSize then b.readIndex + p.length else readBufMaxSize - 1) ∧
      ∀ size, (readLoop b found).Within size ↔ b.Within size ∧ (p = [] ∨ b.readIndex + p.length ≤ size) := by
  induction found generalizing b with
  | nil => exact ⟨[], List.take_nil, (putBytes_nil _ _).symm, (if_pos hroom).symm, fun size => within_nothing⟩
  | cons f more ih =>
    by_cases hf : f = []
    · rw [hf, readLoop_nothing]
      exact ⟨[], List.take_nil, (putBytes_nil _ _).symm, (if_pos hroom).symm, fun size => within_nothing⟩
    have hwhile : (f :: more).takeWhile (· ≠ []) = f :: more.takeWhile (· ≠ []) := by
      rw [List.takeWhile_cons, if_pos (by simpa using hf)]
    rw [hwhile, List.flatten_cons, List.take_append]
    by_cases hfull : readBufMaxSize ≤ b.readIndex + f.length
    · have hlen := length_fill hfull
      have hrest : readBufMaxSize - b.readIndex - f.length = 0 := by omega
      rw [readLoop_fills hroom hfull, hrest, List.take_zero, List.append_nil]
      refine ⟨_, rfl, rfl, ?_, fun size => ?_⟩
      · rw [if_neg (by omega)]
      · rw [or_iff_right (fill_ne_nil hroom hfull)]
        exact within_append
    · have hshort : b.readIndex + f.length < readBufMaxSize := not_le.1 hfull
      obtain ⟨p, hp, hmem, hindex, hwithin⟩ := ih (b := b.append f) hshort
      have hplace : (b.append f).readIndex = b.readIndex + f.length := rfl
      rw [hplace, ← Nat.sub_sub] at hp
      rw [readLoop_next hf hshort, hp, List.take_of_length_le (by omega)]
      refine ⟨f ++ p, rfl, ?_, ?_, fun size => ?_⟩
      · rw [hmem, putBytes_append]
        rfl
      · rw [hindex, hplace, List.length_append, add_assoc]
      · rw [hwithin, hplace, List.length_append, add_assoc]
        have happ : (b.append f).Within size ↔ b.Within size ∧ b.readIndex + f.length ≤ size := within_append
        rw [happ, and_assoc, List.append_eq_nil_iff]
        refine and_congr_right fun _ => ?_
        cases p with
        | nil => simp [hf]
        | cons c p => simp [hf]; omega

theorem readBufMaxSize_pos : 1 < readBufMaxSize := by decide

/-- the buffer that the callback gets -/
theorem receive_spec (prior : Mem) {found : List Str} (hsome : arrived found ≠ []) :
    ∃ b, receive prior found = some b ∧ b.pReadBuf = putBytes (putBytes prior 0 (arrived found)) b.readIndex [0] ∧
      b.readIndex =
        (if (arrived found).length < readBufMaxSize then (arrived found).length else readBufMaxSize - 1) ∧
      ∀ size, b.Within size ↔ (arrived found).length ≤ size ∧ b.readIndex + 1 ≤ size := by
  have hpos := readBufMaxSize_pos
  have hbegin : (⟨prior, 0, []⟩ : ClientBuf).readIndex < readBufMaxSize := Nat.zero_lt_of_lt hpos
  obtain ⟨p, hp, hmem, hindex, hwithin⟩ := readLoop_spec hbegin found
  rw [Nat.sub_zero] at hp
  change arrived found = p at hp
  subst hp
  simp only [Nat.zero_add] at hmem hindex hwithin
  have hne : (readLoop ⟨prior, 0, []⟩ found).readIndex ≠ 0 := by
    have : 0 < (arrived found).length := List.length_pos_iff.2 hsome
    rw [hindex]
    split_ifs <;> omega
  refine ⟨_, if_neg hne, by rw [hmem], hindex, fun size => ?_⟩
  rw [ClientBuf.Within, within_append, hwithin, or_iff_right hsome]
  simp [ClientBuf.Within]

theorem receive_nothing (prior : Mem) {found : List Str} (hnone : arrived found = []) : receive prior found = none := by
  have hbegin : (⟨prior, 0, []⟩ : ClientBuf).readIndex < readBufMaxSize := Nat.zero_lt_of_lt readBufMaxSize_pos
  obtain ⟨p, hp, -, hindex, -⟩ := readLoop_spec hbegin found
  rw [Nat.sub_zero] at hp
  obtain rfl : arrived found = p := hp
  rw [hnone] at hindex
  exact if_pos hindex

theorem within_readMore {size : ℕ} {b : ClientBuf} (stack extra : Str) : (b.readMore stack extra).Within size ↔
    b.Within size ∧ (extra.take (b.missing stack) = [] ∨
      b.readIndex + (extra.take (b.missing stack)).length ≤ size) := by
  rw [ClientBuf.readMore]
  split_ifs with hdata
  · exact ⟨fun h => ⟨h, Or.inl hdata⟩, fun h => h.1⟩
  · rw [or_iff_right hdata]
    exact within_append

/-- **The receive buffer.** -/
theorem receive_bounded_iff (rdBufSize mss : ℕ) (prior : Mem) (found : List Str) (stack extra : Str) :
    ReceiveBounded (bufSize rdBufSize mss) prior found stack extra ↔
      needed (arrived found).length (further prior found stack extra) ≤ bufSize rdBufSize mss := by
  generalize bufSize rdBufSize mss = size
  by_cases hsome : arrived found = []
  · rw [ReceiveBounded, receive_nothing prior hsome, hsome]
    exact iff_of_true nofun (Nat.zero_le size)
  obtain ⟨b, hb, -, hindex, hwithin⟩ := receive_spec prior hsome
  have hpos : 0 < (arrived found).length := List.length_pos_iff.2 hsome
  have hle : (arrived found).length ≤ readBufMaxSize := List.length_take_le _ _
  have hfurther : further prior found stack extra = (extra.take (b.missing stack)).length := by
    rw [further, hb, Option.map_some, Option.getD_some]
  have hbounded : ReceiveBounded size prior found stack extra ↔ (b.readMore stack extra).Within size := by
    rw [ReceiveBounded, hb]
    exact ⟨fun h => h b rfl, fun h c hc => Option.some.inj hc ▸ h⟩
  rw [hbounded, within_readMore, hwithin, hfurther, ← List.length_eq_zero_iff, needed, if_neg hpos.ne']
  generalize (extra.take (b.missing stack)).length = k
  split_ifs at hindex ⊢ <;> omega

theorem arrived_single {f : Str} (hne : f ≠ []) (hlen : f.length ≤ readBufMaxSize) : arrived [f] = f := by
  have hwhile : [f].takeWhile (· ≠ []) = [f] := by
    rw [List.takeWhile_cons, if_pos (by simpa using hne), List.takeWhile_nil]
  rw [arrived, hwhile, List.flatten_singleton, List.take_of_length_le hlen]

/-- one read that fills the buffer: the zero is stored behind it -/
theorem receive_full {f : Str} (hne : f ≠ []) (hlen : f.length < readBufMaxSize) (prior : Mem) (stack extra : Str) :
    ¬ ReceiveBounded f.length prior [f] stack extra := by
  have harrived := arrived_single hne hlen.le
  obtain ⟨b, hb, -, hindex, hwithin⟩ := receive_spec prior (by rwa [harrived] : arrived [f] ≠ [])
  rw [harrived, if_pos hlen] at hindex
  intro h
  have hzero := (hwithin f.length).1 ((within_readMore stack extra).1 (h b hb)).1
  omega

/-- a request whose body is read behind its head -/
def shortHead : Str := bytes "POST /playback HTTP/1.1\r\nContent-Length: 20000\r\n\r\n"

/-- the configured 10 KiB: as many bytes in one read, and a body that is read behind its head -/
theorem receive_overrun :
    ¬ ReceiveBounded (bufSize (10 * 1024) 0) (fun _ => 0) [List.replicate 10240 65] [] [] ∧
    ¬ ReceiveBounded (bufSize (10 * 1024) 0) (fun _ => 0) [shortHead] [] (List.replicate 20000 65) := by
  constructor
  · have hsize : bufSize (10 * 1024) 0 = (List.replicate 10240 (65 : UInt8)).length := by
      rw [List.length_replicate]
      rfl
    have hmax : (List.replicate 10240 (65 : UInt8)).length < readBufMaxSize := by
      rw [List.length_replicate]
      decide
    have hne : List.replicate 10240 (65 : UInt8) ≠ [] := List.cons_ne_nil 65 (List.replicate 10239 65)
    rw [hsize]
    exact receive_full hne hmax (fun _ => 0) [] []
  · have heval : (receive (fun _ => 0) [shortHead]).map (·.missing []) = some 20000 := by decide +kernel
    obtain ⟨b, hb, hmissing⟩ := Option.map_eq_some_iff.1 heval
    intro h
    obtain ⟨-, hnil | hroom⟩ := (within_readMore [] (List.replicate 20000 65)).1 (h b hb)
    · rw [hmissing, List.take_replicate] at hnil
      cases hnil
    · rw [hmissing, List.take_replicate, List.length_replicate] at hroom
      have hsize : bufSize (10 * 1024) 0 = 10240 := rfl
      omega

end StoreService.Http
