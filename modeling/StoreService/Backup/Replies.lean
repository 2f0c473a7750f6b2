/-
What the answers of the backup server mean to the client (`backup.cpp`).

A handler ends with `ret`: 0, a number of bytes written, or -1. It is put into `result`, a uint8_t, and the client asks
whether what it has read is negative. The client reads an answer over a struct of its own, whose head is set by its
constructor and whose `result` is not set; of the answer to a finish request only the first byte is sent.

- `handle_reply`: the handlers of `Respond` answer by these outcomes.
- `received_reply_eq_iff`: a chunk of which 255 bytes (modulo 256) were written is answered like a failed one.
- `replies_agree_iff`: the client says "failed" exactly if the handler failed, by bytes that were sent, if and only if
  the handler did not fail and the request was not a finish request.
- `failure_unnoticed`: a chunk that could not be written, and a finish request.

Answers arrive whole: timeouts and closed connections are in `Transfer`.
-/
import StoreService.Backup.Respond

namespace StoreService.Backup

open StoreService.ByteMem StoreService.FileSys

/-! ## The server's side -/

inductive RequestKind where
  | start
  | doing
  | finish
deriving DecidableEq, Repr

/-- how a handler ended -/
inductive HandlerOutcome where
  | started (bakStreamId : ℕ)
  /-- `bak_stream_id` of the answer is not set -/
  | startFailed (serverJunk : ℕ)
  | received (written : ℕ)
  | receiveFailed
  | finished
  | finishFailed
deriving DecidableEq, Repr

namespace HandlerOutcome

def kind : HandlerOutcome → RequestKind
  | started _ | startFailed _ => .start
  | received _ | receiveFailed => .doing
  | finished | finishFailed => .finish

/-- `ret` at the end of the handler -/
def ret : HandlerOutcome → ℤ
  | started _ | finished => 0
  | received written => written
  | startFailed _ | receiveFailed | finishFailed => -1

/-- the handler failed -/
def Failed (o : HandlerOutcome) : Prop := o.ret < 0

instance (o : HandlerOutcome) : Decidable o.Failed := inferInstanceAs (Decidable (_ < _))

def reply : HandlerOutcome → Reply
  | started id => .start (uint8 0) id
  | startFailed junk => .start (uint8 (-1)) junk
  | received written => .doing (uint8 written)
  | receiveFailed => .doing (uint8 (-1))
  | finished => .finish (uint8 0)
  | finishFailed => .finish (uint8 (-1))

end HandlerOutcome

/-- how the handler of a request ends -/
def Server.outcome (sv : Server) (backupPath : List Char) (ops : FileOps) : Request → HandlerOutcome
  | .start bakId bakName =>
    if ops.dirOk ∧ ((sv.files (resolve (bakPath backupPath bakId bakName))).isSome ∨ ops.openOk) then .started sv.idx
    else .startFailed ops.serverJunk
  | .doing id chunk =>
    let path := resolve ((sv.queue id).getD [])
    if (sv.files path).isSome ∧ path ≠ [] ∧ ops.openOk then
      match ops.written with
      | some n => .received (min n chunk.length)
      | none => .receiveFailed
    else .receiveFailed
  | .finish id => if (sv.queue id).isSome then .finished else .finishFailed

theorem handle_reply (sv : Server) (backupPath : List Char) (ops : FileOps) (r : Request) :
    (sv.handle backupPath ops r).2 = (sv.outcome backupPath ops r).reply := by
  cases r with
  | start bakId bakName =>
    simp only [Server.handle, Server.transBakFile, Server.outcome]
    cases ops.dirOk <;> cases sv.files (resolve (bakPath backupPath bakId bakName)) <;> cases ops.openOk <;> rfl
  | doing id chunk =>
    simp only [Server.handle, Server.doingRecvBakFile, Server.writeChunk, Server.outcome]
    cases sv.files (resolve ((sv.queue id).getD [])) with
    | none => simp [HandlerOutcome.reply]
    | some _ =>
      simp only [Option.isSome_some, true_and]
      split_ifs
      · cases ops.written <;> rfl
      · rfl
  | finish id =>
    simp only [Server.handle, Server.finishBakFile, Server.outcome]
    cases sv.queue id <;> rfl

/-! ## The client's side -/

def RequestKind.head : RequestKind → List UInt8
  | .start => startHead
  | .doing => doingHead
  | .finish => finishHead

/-- where the struct of the answer has `result`: behind the head and its terminator -/
def RequestKind.resultAt (k : RequestKind) : ℕ := k.head.length + 1

/-- the client's struct before the read: the head of its constructor, and anything behind it -/
def clientStruct (k : RequestKind) (junk : Mem) : Mem := putString junk 0 k.head

/-- `read` of an answer into the struct -/
def readInto (m : Mem) (answer : List UInt8) : Mem := memcpy m 0 (ofList answer) 0 answer.length

/-- `strcmp(resp.head, REQ_...)` is 0 -/
def headMatches (k : RequestKind) (m : Mem) : Prop := slice m 0 (k.head.length + 1) = k.head ++ [0]

instance (k : RequestKind) (m : Mem) : Decidable (headMatches k m) := inferInstanceAs (Decidable (_ = _))

/-- what the client's test finds negative. `StartTransferBakFile` returns its uint8_t `result`, which its caller
compares with 0; the other two compare `resp.result`. -/
def clientFails (k : RequestKind) (m : Mem) : Prop :=
  match k with
  | .start => ((if headMatches k m then (m k.resultAt).toNat else uint8 (-1) : ℕ) : ℤ) < 0
  | .doing => ¬ headMatches k m ∨ ((m k.resultAt).toNat : ℤ) < 0
  | .finish => ¬ headMatches k m ∨ ((m k.resultAt).toNat : ℤ) < 0

/-- **An answer means the same on both sides**: the client finds a failure exactly if there was one, whatever its struct
contained before, and by nothing but the bytes of the answer -/
structure RepliesAgree (o : HandlerOutcome) : Prop where
  agree : ∀ junk, clientFails o.kind (readInto (clientStruct o.kind junk) o.reply.bytes) ↔ o.Failed
  sent : ∀ m m', clientFails o.kind (readInto m o.reply.bytes) ↔ clientFails o.kind (readInto m' o.reply.bytes)

section Client

variable {k : RequestKind} {m : Mem}

theorem ofList_terminated (l rest : List UInt8) {i : ℕ} (h : i ≤ l.length) :
    ofList (l ++ 0 :: rest) i = ofList l i := by
  rcases h.lt_or_eq with h | rfl
  · simp [ofList, List.getElem?_append_left h]
  · simp [ofList]

/-- the test of a struct, byte by byte -/
theorem headMatches_iff : headMatches k m ↔ ∀ i ≤ k.head.length, m i = ofList k.head i := by
  have hlen : (k.head ++ [0]).length = k.head.length + 1 := List.length_append
  rw [headMatches, ← hlen, slice_eq_list_iff, hlen]
  constructor
  · intro h i hi
    rw [← ofList_terminated k.head [] hi, ← h i (Nat.lt_succ_of_le hi), Nat.zero_add]
  · intro h i hi
    have hle : i ≤ k.head.length := Nat.le_of_lt_succ hi
    rw [ofList_terminated k.head [] hle, Nat.zero_add]
    exact h i hle

/-- an answer with the name of the request and its terminator decides the test alone -/
theorem headMatches_whole (rest : List UInt8) : headMatches k (readInto m (k.head ++ 0 :: rest)) := by
  rw [headMatches_iff]
  intro i hi
  rw [readInto, memcpy_of_mem (Nat.zero_le _) (by simp; omega), Nat.zero_add, Nat.sub_zero, ofList_terminated _ _ hi]

/-- the head of the constructor makes up for any part of the answer that is not sent -/
theorem headMatches_first (junk : Mem) (rest : List UInt8) (n : ℕ) :
    headMatches k (readInto (clientStruct k junk) ((k.head ++ 0 :: rest).take n)) := by
  rw [headMatches_iff]
  intro i hi
  by_cases hlt : i < ((k.head ++ 0 :: rest).take n).length
  · have hn : i < n := lt_of_lt_of_le hlt (List.length_take_le _ _)
    rw [readInto, memcpy_of_mem (Nat.zero_le _) (by omega), Nat.zero_add, Nat.sub_zero, ← ofList_terminated _ rest hi]
    simp [ofList, hn]
  · have hout : ¬ (0 ≤ i ∧ i < 0 + ((k.head ++ 0 :: rest).take n).length) := by omega
    have hinit := putString_same (m := junk) (a := 0) hi
    rw [Nat.zero_add] at hinit
    rw [readInto, memcpy, if_neg hout]
    exact hinit

theorem not_clientFails_of_matches (h : headMatches k m) : ¬ clientFails k m := by
  cases k with
  | start => exact not_natCast_neg _
  | doing => exact not_or.2 ⟨not_not.2 h, not_natCast_neg _⟩
  | finish => exact not_or.2 ⟨not_not.2 h, not_natCast_neg _⟩

end Client

/-- an answer begins with the name of its request; that to a finish request is cut after the first byte -/
theorem reply_bytes (o : HandlerOutcome) : ∃ rest,
    o.reply.bytes = if o.kind = .finish then (o.kind.head ++ 0 :: rest).take 1 else o.kind.head ++ 0 :: rest := by
  cases o with
  | started id => exact ⟨_, List.append_assoc _ _ _⟩
  | startFailed junk => exact ⟨_, List.append_assoc _ _ _⟩
  | received n => exact ⟨_, rfl⟩
  | receiveFailed => exact ⟨_, rfl⟩
  | finished => exact ⟨_, rfl⟩
  | finishFailed => exact ⟨_, rfl⟩

/-- the client never finds a failure in an answer that arrived whole -/
theorem not_clientFails (o : HandlerOutcome) (junk : Mem) :
    ¬ clientFails o.kind (readInto (clientStruct o.kind junk) o.reply.bytes) := by
  apply not_clientFails_of_matches
  obtain ⟨rest, hbytes⟩ := reply_bytes o
  rw [hbytes]
  split_ifs
  · exact headMatches_first junk rest 1
  · exact headMatches_whole rest

/-- **Answers mean the same on both sides** exactly for the successful start and chunk requests. -/
theorem replies_agree_iff (o : HandlerOutcome) : RepliesAgree o ↔ ¬ o.Failed ∧ o.kind ≠ .finish := by
  constructor
  · rintro ⟨hagree, hsent⟩
    refine ⟨fun hfailed => not_clientFails o (fun _ => 0) ((hagree _).2 hfailed), fun hfinish => ?_⟩
    -- over a struct of zeros the same answer is taken for a failure
    apply not_clientFails o fun _ => 0
    rw [hsent _ fun _ => 0]
    obtain ⟨rest, hbytes⟩ := reply_bytes o
    rw [if_pos hfinish] at hbytes
    rw [hbytes, hfinish]
    refine Or.inl fun hmatches => ?_
    have hsecond := headMatches_iff.1 hmatches 1 (by decide +kernel)
    have hunsent : ¬ (0 ≤ 1 ∧ 1 < 0 + ((RequestKind.finish.head ++ 0 :: rest).take 1).length) := by simp
    rw [readInto, memcpy, if_neg hunsent] at hsecond
    exact absurd hsecond (by decide +kernel)
  · rintro ⟨hok, hkind⟩
    obtain ⟨rest, hbytes⟩ := reply_bytes o
    rw [if_neg hkind] at hbytes
    have hnever (m : Mem) : ¬ clientFails o.kind (readInto m o.reply.bytes) := by
      rw [hbytes]
      exact not_clientFails_of_matches (headMatches_whole rest)
    exact ⟨fun junk => iff_of_false (hnever _) hok, fun m m' => iff_of_false (hnever m) (hnever m')⟩

/-- one byte does not tell them apart: 255 bytes written, modulo 256, are answered like a failure -/
theorem received_reply_eq_iff (n : ℕ) :
    (HandlerOutcome.received n).reply = HandlerOutcome.receiveFailed.reply ↔ n % 256 = 255 := by
  have hfail : uint8 (-1) = 255 := by decide
  have hn : uint8 n = n % 256 := by
    rw [uint8]
    omega
  rw [HandlerOutcome.reply, HandlerOutcome.reply, hfail, hn]
  exact ⟨fun h => Reply.doing.inj h, fun h => congrArg Reply.doing h⟩

/-- **A failure goes unnoticed**: a chunk is not written, and the client takes the answer for success. To a finish
request the server sends one byte, and the client looks at bytes that were never sent. -/
theorem failure_unnoticed :
    HandlerOutcome.receiveFailed.Failed ∧
      ¬ clientFails .doing (readInto (clientStruct .doing fun _ => 0) HandlerOutcome.receiveFailed.reply.bytes) ∧
      ¬ RepliesAgree .receiveFailed ∧
    ¬ HandlerOutcome.finished.Failed ∧ HandlerOutcome.finished.reply.bytes.length = 1 ∧ ¬ RepliesAgree .finished := by
  refine ⟨by decide, not_clientFails .receiveFailed _, fun h => ?_, by decide, by decide +kernel, fun h => ?_⟩
  · exact not_clientFails .receiveFailed (fun _ => 0) ((h.agree _).2 (by decide))
  · have hzero := (h.sent (clientStruct .finish fun _ => 0) fun _ => 0).2 (Or.inl (by decide +kernel))
    exact not_clientFails .finished _ hzero

end StoreService.Backup
