/-
The requests of a backup on the wire, and how `BackupRespond` reads them (`backup.cpp`).

A request is a struct that starts with its name as a C string. `BackupRespond` finds the handler by that name and the
handlers cast the receive buffer to their struct: what they read is the memory behind the buffer, whatever was received
(`decode`). `Request.message` is the struct as the client fills it in.

- `decode_message`: from a buffer that begins with the whole of a request the server reads that request.

An answer is the bytes that are written back (`Reply.bytes`). `FinishBakFile` returns sizeof(uint8_t) as the size of its
answer, so only the first byte of it is sent. Paddings and unset bytes are zero here; nobody reads them.
-/
import StoreService.Core.ByteMem
import StoreService.Common.Json
import StoreService.Backup.Transfer

namespace StoreService.Backup

open StoreService.ByteMem StoreService.FileSys StoreService.Json

/-- REQ_START_TRANS_BAK_FILE -/
def startHead : List UInt8 := bytes "start transfer bak file"

/-- REQ_DOING_TRANS_BAK_FILE -/
def doingHead : List UInt8 := bytes "doing transfer bak file"

/-- REQ_FINISH_TRANS_BAK_FILE -/
def finishHead : List UInt8 := bytes "finish transfer bak file"

/-- HAED_MAX_SIZE -/
def headMaxSize : ℕ := 128

/-- READ_BUF_MAX_SIZE -/
def readBufMaxSize : ℕ := 32768 * 128

inductive Request where
  | start (bakId bakName : List UInt8)
  | doing (bakStreamId : ℕ) (streamChunk : List UInt8)
  | finish (bakStreamId : ℕ)
deriving DecidableEq, Repr

/-! ## Reading a request -/

/-- the C string at an address, as far as `fuel` characters -/
def cString (m : Mem) : ℕ → ℕ → List UInt8
  | 0, _ => []
  | fuel + 1, a => if m a = 0 then [] else m a :: cString m fuel (a + 1)

/-- the lookup of `BackupRespond` and the fields of the struct the handler casts to -/
def decode (m : Mem) : Option Request :=
  let reqHead := cString m (headMaxSize + 1) 0
  if headMaxSize < reqHead.length then none
  else if reqHead = startHead then some (.start (cString m readBufMaxSize 24) (cString m readBufMaxSize 66))
  else if reqHead = doingHead then some (.doing (readLE m 24 4) (slice m 32 (readLE m 28 4)))
  else if reqHead = finishHead then some (.finish (readLE m 28 4))
  else none

/-! ## Sending a request -/

/-- a list of bytes as a memory -/
def ofList (l : List UInt8) : Mem := fun i => l.getD i 0

/-- `strcpy` into a zeroed struct -/
def putString (m : Mem) (a : ℕ) (s : List UInt8) : Mem := memcpy m a (ofList s) 0 (s.length + 1)

/-- the struct of a request -/
def Request.message : Request → Mem
  | .start bakId bakName => putString (putString (ofList startHead) 24 bakId) 66 bakName
  | .doing id chunk =>
    memcpy (writeLE (writeLE (ofList doingHead) 24 4 id) 28 4 chunk.length) 32 (ofList chunk) 0 chunk.length
  | .finish id => writeLE (ofList finishHead) 28 4 id

/-- how much of it the client sends -/
def Request.size : Request → ℕ
  | .start _ _ => 92
  | .doing _ chunk => 32 + chunk.length
  | .finish _ => 32

/-- the values the client's types can hold, and texts that fit their arrays -/
def Request.Fits : Request → Prop
  | .start bakId bakName => bakId.length < 42 ∧ bakName.length < 26 ∧ 0 ∉ bakId ∧ 0 ∉ bakName
  | .doing id chunk => id < 2 ^ 32 ∧ chunk.length < 2 ^ 32
  | .finish id => id < 2 ^ 32

/-! ## Answers -/

/-- results of the file operations of a request -/
structure FileOps where
  dirOk : Bool
  openOk : Bool
  written : Option ℕ
  serverJunk : ℕ

inductive Reply where
  | start (result bakStreamId : ℕ)
  | doing (result : ℕ)
  | finish (result : ℕ)
deriving DecidableEq, Repr

/-- what is written to the socket -/
def Reply.bytes : Reply → List UInt8
  | .start result id => startHead ++ [0, UInt8.ofNat result, 0, 0, 0] ++ slice (leBytes id) 0 4
  | .doing result => doingHead ++ [0, UInt8.ofNat result]
  | .finish result => (finishHead ++ [0, UInt8.ofNat result]).take 1

/-- where the client's struct has `result` -/
def Reply.resultAt : Reply → ℕ
  | .start _ _ => 24
  | .doing _ => 24
  | .finish _ => 25

/-- the answer tells of a failure: its `result` has arrived and is (uint8_t)-1 -/
def Reply.Failed (r : Reply) : Prop := r.bytes[r.resultAt]? = some (UInt8.ofNat (uint8 (-1)))

/-- a text of bytes as a path -/
def text (s : List UInt8) : List Char := s.map fun b => Char.ofNat b.toNat

/-- the path of a start request -/
def bakPath (backupPath : List Char) (bakId bakName : List UInt8) : List Char :=
  backupPath ++ text bakId ++ '/' :: text bakName

/-- the handlers -/
def Server.handle (sv : Server) (backupPath : List Char) (ops : FileOps) : Request → Server × Reply
  | .start bakId bakName =>
    let r := sv.transBakFile (bakPath backupPath bakId bakName) ops.dirOk ops.openOk ops.serverJunk
    (r.1, .start r.2.1 r.2.2)
  | .doing id chunk =>
    let r := sv.doingRecvBakFile id chunk ops.openOk ops.written
    (r.1, .doing r.2)
  | .finish id =>
    let r := sv.finishBakFile id
    (r.1, .finish r.2)

/-! ## What is read is what was sent -/

@[simp] theorem ofList_cons_zero (b : UInt8) (l : List UInt8) : ofList (b :: l) 0 = b := rfl

@[simp] theorem ofList_cons_succ (b : UInt8) (l : List UInt8) (i : ℕ) : ofList (b :: l) (i + 1) = ofList l i := rfl

/-- a memory that holds a text and its terminator -/
theorem cString_eq {m : Mem} {l : List UInt8} {a fuel : ℕ} (hne : 0 ∉ l) (hl : ∀ i ≤ l.length, m (a + i) = ofList l i)
    (hf : l.length < fuel) : cString m fuel a = l := by
  induction l generalizing a fuel with
  | nil =>
    obtain ⟨fuel, rfl⟩ := Nat.exists_eq_succ_of_ne_zero (Nat.ne_of_gt hf)
    have hend : m a = 0 := hl 0 le_rfl
    rw [cString, if_pos hend]
  | cons b l ih =>
    obtain ⟨fuel, rfl⟩ := Nat.exists_eq_succ_of_ne_zero (Nat.ne_of_gt (Nat.zero_lt_of_lt hf))
    rw [List.mem_cons, not_or] at hne
    have hb : m a = b := hl 0 (Nat.zero_le _)
    have hrest : cString m fuel (a + 1) = l := by
      refine ih hne.2 (fun i hi => ?_) (by simpa using hf)
      rw [show a + 1 + i = a + (i + 1) by omega, hl (i + 1) (by simpa using hi), ofList_cons_succ]
    rw [cString, if_neg (by rw [hb]; exact Ne.symm hne.1), hb, hrest]

/-- a buffer that begins with the name of a request -/
theorem reqHead_eq {m : Mem} {head : List UInt8} (hne : 0 ∉ head) (hlen : head.length ≤ headMaxSize)
    (h : ∀ i ≤ head.length, m i = ofList head i) : cString m (headMaxSize + 1) 0 = head :=
  cString_eq hne (fun i hi => by rw [Nat.zero_add]; exact h i hi) (Nat.lt_succ_of_le hlen)

theorem decode_start {m : Mem} (h : ∀ i ≤ 23, m i = ofList startHead i) :
    decode m = some (.start (cString m readBufMaxSize 24) (cString m readBufMaxSize 66)) := by
  have hhead : cString m (headMaxSize + 1) 0 = startHead := reqHead_eq (by decide +kernel) (by decide +kernel) h
  rw [decode, hhead, if_neg (by decide +kernel), if_pos rfl]

theorem decode_doing {m : Mem} (h : ∀ i ≤ 23, m i = ofList doingHead i) :
    decode m = some (.doing (readLE m 24 4) (slice m 32 (readLE m 28 4))) := by
  have hhead : cString m (headMaxSize + 1) 0 = doingHead := reqHead_eq (by decide +kernel) (by decide +kernel) h
  rw [decode, hhead, if_neg (by decide +kernel), if_neg (by decide +kernel), if_pos rfl]

theorem decode_finish {m : Mem} (h : ∀ i ≤ 24, m i = ofList finishHead i) :
    decode m = some (.finish (readLE m 28 4)) := by
  have hhead : cString m (headMaxSize + 1) 0 = finishHead := reqHead_eq (by decide +kernel) (by decide +kernel) h
  rw [decode, hhead, if_neg (by decide +kernel), if_neg (by decide +kernel), if_neg (by decide +kernel), if_pos rfl]

theorem putString_of_lt {m : Mem} {a i : ℕ} {s : List UInt8} (h : i < a) : putString m a s i = m i :=
  sameOn_memcpy (b := i) (k := 1) (Or.inl (by omega)) i le_rfl (by omega)

theorem putString_same {m : Mem} {a i : ℕ} {s : List UInt8} (h : i ≤ s.length) :
    putString m a s (a + i) = ofList s i := by
  rw [putString, memcpy_of_mem (by omega) (by omega)]
  congr 1
  omega

theorem writeLE_of_lt {m : Mem} {a n v i : ℕ} (h : i < a) : writeLE m a n v i = m i :=
  sameOn_writeLE (b := i) (k := 1) (Or.inl (by omega)) i le_rfl (by omega)

/-- the fields of a chunk request, as the client wrote them -/
theorem doing_message (id : ℕ) (chunk : List UInt8) :
    (∀ i ≤ 23, (Request.doing id chunk).message i = ofList doingHead i) ∧
      readLE (Request.doing id chunk).message 24 4 = id % 256 ^ 4 ∧
      readLE (Request.doing id chunk).message 28 4 = chunk.length % 256 ^ 4 ∧
      ∀ i < chunk.length, (Request.doing id chunk).message (32 + i) = ofList chunk i := by
  refine ⟨fun i hi => ?_, ?_, ?_, fun i hi => ?_⟩
  · have hbelow (m : Mem) : SameOn (memcpy m 32 (ofList chunk) 0 chunk.length) m 0 32 :=
      sameOn_memcpy (Or.inl (by omega))
    rw [Request.message, hbelow _ i (Nat.zero_le i) (by omega), writeLE_of_lt (by omega), writeLE_of_lt (by omega)]
  · rw [Request.message, readLE_sameOn (sameOn_memcpy (Or.inl (by omega))),
      readLE_sameOn (sameOn_writeLE (Or.inl (by omega))), readLE_writeLE]
  · rw [Request.message, readLE_sameOn (sameOn_memcpy (Or.inl (by omega))), readLE_writeLE]
  · rw [Request.message, memcpy_of_mem (by omega) (by omega)]
    congr 1
    omega

theorem slice_eq_list_iff {m : Mem} {a : ℕ} {l : List UInt8} :
    slice m a l.length = l ↔ ∀ i < l.length, m (a + i) = ofList l i := by
  have hget (i : ℕ) (hi : i < l.length) : ofList l i = l[i] := by simp [ofList, hi]
  constructor
  · intro h i hi
    rw [hget i hi]
    simpa [slice, hi] using congrArg (·[i]?) h
  · intro h
    refine List.ext_getElem (length_slice ..) fun i h1 h2 => ?_
    simp [slice, h i h2, hget i h2]

/-- **A whole request is read as it was sent**, whatever the buffer holds after it. -/
theorem decode_message {r : Request} (hr : r.Fits) {m : Mem} (hm : SameOn m r.message 0 r.size) :
    decode m = some r := by
  cases r with
  | start bakId bakName =>
    obtain ⟨hid, hname, hid0, hname0⟩ := hr
    have hmsg : ∀ i < 92, m i = putString (putString (ofList startHead) 24 bakId) 66 bakName i :=
      fun i hi => hm i (Nat.zero_le i) (by rw [Nat.zero_add]; exact hi)
    have hmax : 92 < readBufMaxSize := by decide
    rw [decode_start fun i hi => ?_, cString_eq hid0 (fun i hi => ?_) (by omega),
      cString_eq hname0 (fun i hi => ?_) (by omega)]
    · rw [hmsg _ (by omega), putString_same hi]
    · rw [hmsg _ (by omega), putString_of_lt (by omega), putString_same hi]
    · rw [hmsg _ (by omega), putString_of_lt (by omega), putString_of_lt (by omega)]
  | doing id chunk =>
    obtain ⟨hid, hlen⟩ := hr
    obtain ⟨hhead, hread, hsize, hdata⟩ := doing_message id chunk
    have hsub (a n : ℕ) (h : a + n ≤ 32 + chunk.length) : SameOn m (Request.doing id chunk).message a n :=
      hm.mono (Nat.zero_le a) (by rw [Nat.zero_add]; exact h)
    rw [decode_doing fun i hi => ?_, readLE_sameOn (hsub 24 4 (by omega)), readLE_sameOn (hsub 28 4 (by omega)), hread,
      hsize, Nat.mod_eq_of_lt (by omega), Nat.mod_eq_of_lt (by omega), slice_eq_list_iff.2 fun i hi => ?_]
    · rw [hsub (32 + i) 1 (by omega) _ le_rfl (by omega)]
      exact hdata i hi
    · rw [hsub i 1 (by omega) _ le_rfl (by omega)]
      exact hhead i hi
  | finish id =>
    have hsub (a n : ℕ) (h : a + n ≤ 32) : SameOn m (Request.finish id).message a n :=
      hm.mono (Nat.zero_le a) (by rw [Nat.zero_add]; exact h)
    have hid : id < 256 ^ 4 := hr
    rw [decode_finish fun i hi => ?_, readLE_sameOn (hsub 28 4 (by omega)), Request.message, readLE_writeLE,
      Nat.mod_eq_of_lt hid]
    rw [hsub i 1 (by omega) _ le_rfl (by omega), Request.message]
    exact writeLE_of_lt (by omega)

end StoreService.Backup
