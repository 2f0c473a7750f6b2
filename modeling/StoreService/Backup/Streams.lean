/-
The table of backup streams (`bakStreamQueue` in `backup.cpp`) under any requests, and under many clients.

`TransBakFile` enters the path of a start request under the next number, chunks look their file up by number, and
`FinishBakFile` removes the entry. Chunks look it up with operator[], which makes an entry for a number that has none.

- `stream_table_kept`: in every run of requests in which each chunk and each finish names a stream that is open, the
  table is exactly the streams started and not finished, each with the path of its start.
- `planted_entry`: a chunk for a number that was not given out yet makes an entry with an empty path; the stream that
  later gets this number is answered with success and has no file. And the answer to a finish of an unknown stream is
  cut before its result.
- `backups_do_not_mix`: any number of clients with different files, each using the number of its own start, in any
  order: the file of a client that has finished is what it was before the run, followed by the client's chunks in the
  order sent.

The numbers are 32 bits wide; fewer than 2^32 streams are started.
-/
import StoreService.Core.Runs
import StoreService.Backup.Receive

namespace StoreService.Backup

open StoreService.FileSys StoreService.Runs

/-! ## The three handlers -/

namespace Server

variable {sv : Server}

/-- a start that can make its file enters the next number -/
theorem transBakFile_ok {path : List Char} {openOk : Bool} (serverJunk : ℕ)
    (h : sv.files (resolve path) ≠ none ∨ openOk = true) :
    ∃ files, sv.transBakFile path true openOk serverJunk =
        ({ sv with files := files }.insertStream path, uint8 0, sv.idx) ∧
      files (resolve path) = some ((sv.files (resolve path)).getD []) ∧ ∀ p ≠ resolve path, files p = sv.files p := by
  unfold transBakFile
  cases hf : sv.files (resolve path) with
  | some old =>
    refine ⟨sv.files, ?_, hf, fun _ _ => rfl⟩
    simp
  | none =>
    obtain rfl : openOk = true := h.resolve_left (not_not.2 hf)
    refine ⟨overwrite sv.files (resolve path) [], ?_, ?_, fun p hp => overwrite_of_ne hp⟩
    · simp
    · exact overwrite_same fun old hold => by simp [hf] at hold

/-- and any other fails and changes nothing -/
theorem transBakFile_failed {path : List Char} {dirOk openOk : Bool} (serverJunk : ℕ)
    (h : ¬ (dirOk = true ∧ (sv.files (resolve path) ≠ none ∨ openOk = true))) :
    sv.transBakFile path dirOk openOk serverJunk = (sv, uint8 (-1), serverJunk) := by
  unfold transBakFile
  cases dirOk with
  | false => rfl
  | true =>
    simp only [true_and, not_or, not_not, Bool.not_eq_true] at h
    simp [h.1, h.2]

theorem insertStream_queue {path : List Char} (h : sv.queue sv.idx = none) :
    (sv.insertStream path).queue = Function.update sv.queue sv.idx (some path) := if_pos h

/-- the files of an unknown stream: there is none under the empty path -/
theorem not_takes_of_unknown {id : ℕ} {openOk : Bool} {written : Option ℕ} (h : sv.queue id = none) :
    ¬ sv.Takes id openOk written := by
  intro ht
  refine ht.named ?_
  rw [h]
  rfl

theorem doingRet_of_not_takes {id : ℕ} {chunk : List UInt8} {openOk : Bool} {written : Option ℕ}
    (h : ¬ sv.Takes id openOk written) : sv.doingRet id chunk openOk written = -1 := by
  have hneg : sv.doingRet id chunk openOk written < 0 := doingRet_neg_iff.2 h
  have hge : -1 ≤ sv.doingRet id chunk openOk written := by
    unfold doingRet
    dsimp only
    repeat' split
    all_goals omega
  omega

theorem doingRecvBakFile_queue {id : ℕ} {chunk : List UInt8} {openOk : Bool} {written : Option ℕ} :
    (sv.doingRecvBakFile id chunk openOk written).1.queue =
      Function.update sv.queue id (some ((sv.queue id).getD [])) := writeChunk_queue ..

theorem writeChunk_idx (p : List (List Char)) (c : List UInt8) (openOk : Bool) (written : Option ℕ) :
    (sv.writeChunk p c openOk written).1.idx = sv.idx := by
  unfold writeChunk
  repeat' split
  all_goals rfl

theorem doingRecvBakFile_idx {id : ℕ} {chunk : List UInt8} {openOk : Bool} {written : Option ℕ} :
    (sv.doingRecvBakFile id chunk openOk written).1.idx = sv.idx := writeChunk_idx ..

theorem finishBakFile_queue {id : ℕ} : (sv.finishBakFile id).1.queue = Function.update sv.queue id none := by
  unfold finishBakFile
  cases h : sv.queue id with
  | some path => rfl
  | none => exact (Function.update_eq_self_iff.2 h.symm).symm

theorem finishBakFile_idx {id : ℕ} : (sv.finishBakFile id).1.idx = sv.idx := by
  unfold finishBakFile
  split <;> rfl

end Server

/-! ## Any requests -/

/-- a request and how the file operations of its handler go -/
structure Arrival where
  request : Request
  ops : FileOps

/-- the server, with the streams it should have -/
structure Streams where
  server : Server
  /-- ghost: the numbers of successful starts that were not finished, with the path of the start -/
  opened : ℕ → Option (List Char)
  /-- ghost: streams started so far -/
  started : ℕ

namespace Streams

/-- `BackupServerInit`, on any disk -/
def init (files : Files) : Streams := ⟨⟨files, fun _ => none, 0⟩, fun _ => none, 0⟩

def step (backupPath : List Char) (s : Streams) (a : Arrival) : Option Streams :=
  let r := s.server.handle backupPath a.ops a.request
  match a.request, r.2 with
  | .start bakId bakName, .start result id =>
    if result = uint8 0 then
      some ⟨r.1, Function.update s.opened id (some (bakPath backupPath bakId bakName)), s.started + 1⟩
    else some { s with server := r.1 }
  | .finish id, _ => some { s with server := r.1, opened := Function.update s.opened id none }
  | _, _ => some { s with server := r.1 }

/-- fewer than 2^32 streams are started -/
def FewStarts (s : Streams) : Request → Prop
  | .start _ _ => s.started + 1 < 2 ^ 32
  | _ => True

/-- a chunk or a finish names an open stream -/
def Known (s : Streams) : Request → Prop
  | .start _ _ => True
  | .doing id _ => s.opened id ≠ none
  | .finish id => s.opened id ≠ none

instance (s : Streams) : ∀ r, Decidable (s.FewStarts r)
  | .start _ _ => inferInstanceAs (Decidable (_ < _))
  | .doing _ _ => .isTrue trivial
  | .finish _ => .isTrue trivial

instance (s : Streams) : ∀ r, Decidable (s.Known r)
  | .start _ _ => .isTrue trivial
  | .doing _ _ => inferInstanceAs (Decidable (_ ≠ _))
  | .finish _ => inferInstanceAs (Decidable (_ ≠ _))

end Streams

/-- the table, and what a request for any other number does -/
structure StreamTable (backupPath : List Char) (s : Streams) : Prop where
  table : s.server.queue = s.opened
  chunk_refused : ∀ id chunk ops, s.opened id = none →
    (s.server.handle backupPath ops (.doing id chunk)).2.Failed ∧
      (s.server.handle backupPath ops (.doing id chunk)).1.files = s.server.files
  finish_ignored : ∀ id ops, s.opened id = none → (s.server.handle backupPath ops (.finish id)).1 = s.server

structure StreamsInv (s : Streams) : Prop where
  table : s.server.queue = s.opened
  idx : s.server.idx = s.started
  few : s.started < 2 ^ 32
  fresh : ∀ id, s.started ≤ id → s.opened id = none

namespace StreamsInv

variable {backupPath : List Char} {s t : Streams}

theorem init (files : Files) : StreamsInv (Streams.init files) := ⟨rfl, rfl, by norm_num [Streams.init], fun _ _ => rfl⟩

theorem start {bakId bakName : List UInt8} {ops : FileOps} (h : StreamsInv s) (hfew : s.started + 1 < 2 ^ 32)
    (ht : s.step backupPath ⟨.start bakId bakName, ops⟩ = some t) : StreamsInv t := by
  by_cases hok : ops.dirOk = true ∧ (s.server.files (resolve (bakPath backupPath bakId bakName)) ≠ none ∨
      ops.openOk = true)
  · obtain ⟨files, hr, -, -⟩ := Server.transBakFile_ok ops.serverJunk hok.2
    simp only [Streams.step, Server.handle, hok.1, hr, if_true, Option.some.injEq] at ht
    subst ht
    have hfree : s.server.queue s.server.idx = none := by
      rw [h.table, h.idx]
      exact h.fresh _ le_rfl
    refine ⟨?_, ?_, hfew, fun id hid => ?_⟩
    · exact (Server.insertStream_queue hfree).trans (by rw [h.table])
    · simp only [Server.insertStream, h.idx, Nat.mod_eq_of_lt hfew]
    · have hid : s.started < id := hid
      have hne : id ≠ s.server.idx := h.idx ▸ hid.ne'
      exact (Function.update_of_ne hne ..).trans (h.fresh id hid.le)
  · have hr := Server.transBakFile_failed ops.serverJunk hok
    have hne : ¬ uint8 (-1) = uint8 0 := by decide
    simp only [Streams.step, Server.handle, hr, hne, if_false, Option.some.injEq] at ht
    subst ht
    exact h

theorem doing {id : ℕ} {chunk : List UInt8} {ops : FileOps} (h : StreamsInv s) (hknown : s.opened id ≠ none)
    (ht : s.step backupPath ⟨.doing id chunk, ops⟩ = some t) : StreamsInv t := by
  simp only [Streams.step, Server.handle, Option.some.injEq] at ht
  subst ht
  refine ⟨?_, Server.doingRecvBakFile_idx.trans h.idx, h.few, h.fresh⟩
  obtain ⟨path, hpath⟩ := Option.ne_none_iff_exists'.1 hknown
  rw [Server.doingRecvBakFile_queue, h.table, hpath]
  exact Function.update_eq_self_iff.2 hpath.symm

theorem finish {id : ℕ} {ops : FileOps} (h : StreamsInv s)
    (ht : s.step backupPath ⟨.finish id, ops⟩ = some t) : StreamsInv t := by
  simp only [Streams.step, Server.handle, Option.some.injEq] at ht
  subst ht
  refine ⟨?_, Server.finishBakFile_idx.trans h.idx, h.few, fun id' hid => ?_⟩
  · rw [Server.finishBakFile_queue, h.table]
  · by_cases hne : id' = id
    · rw [hne]
      exact Function.update_self ..
    · simp only [Function.update_of_ne hne]
      exact h.fresh id' hid

theorem step {a : Arrival} (h : StreamsInv s) (hfew : s.FewStarts a.request) (hknown : s.Known a.request)
    (ht : s.step backupPath a = some t) : StreamsInv t := by
  obtain ⟨request, ops⟩ := a
  cases request with
  | start bakId bakName => exact h.start hfew ht
  | doing id chunk => exact h.doing hknown ht
  | finish id => exact h.finish ht

theorem doing_failed : (Reply.doing (uint8 (-1))).Failed := by
  unfold Reply.Failed
  decide +kernel

/-- what the invariant says of requests for other numbers -/
theorem streamTable (h : StreamsInv s) : StreamTable backupPath s := by
  refine ⟨h.table, fun id chunk ops hid => ?_, fun id ops hid => ?_⟩
  · have hno : ¬ s.server.Takes id ops.openOk ops.written := Server.not_takes_of_unknown (by rw [h.table]; exact hid)
    have hneg : s.server.doingRet id chunk ops.openOk ops.written = -1 := Server.doingRet_of_not_takes hno
    refine ⟨?_, Server.doingRecv_refused hno⟩
    simp only [Server.handle, Server.doingRecvBakFile_result, hneg]
    exact doing_failed
  · have hnone : s.server.queue id = none := by rw [h.table]; exact hid
    simp only [Server.handle, Server.finishBakFile, hnone]

end StreamsInv

/-- **The table holds the open streams**: after any requests whose chunks and finishes name open streams, the table is
the streams started and not finished, each with its path. A chunk for another number would be refused and a finish
ignored, with no file touched. -/
theorem stream_table_kept (backupPath : List Char) (files : Files) (l : List Arrival) (s : Streams)
    (hl : Steps (Streams.step backupPath) (fun s a => s.FewStarts a.request ∧ s.Known a.request) (Streams.init files) l)
    (hr : run (Streams.step backupPath) (Streams.init files) l = some s) : StreamTable backupPath s := by
  have hinv : StreamsInv s :=
    run_inv (fun u a v hu ha hv => hu.step ha.1 ha.2 hv) (StreamsInv.init files) hl hr
  exact hinv.streamTable

/-- all file operations succeed, `n` bytes are written -/
def FileOps.ok (n : ℕ) : FileOps := ⟨true, true, some n, 0⟩

/-- a start, two chunks, of which one cannot be written, and a finish -/
def oneStream : List Arrival :=
  [⟨.start [97] [98], .ok 0⟩, ⟨.doing 0 [1, 2], .ok 2⟩, ⟨.doing 0 [3], ⟨true, true, none, 0⟩⟩, ⟨.finish 0, .ok 0⟩]

theorem stream_table_kept_one : ∃ s, run (Streams.step ['/']) (Streams.init fun _ => none) oneStream = some s ∧
    s.started = 1 ∧ StreamTable ['/'] s := by
  have h : (run (Streams.step ['/']) (Streams.init fun _ => none) oneStream).map (·.started) = some 1 := by
    decide +kernel
  obtain ⟨s, hs, h1⟩ := Option.map_eq_some_iff.1 h
  exact ⟨s, hs, h1, stream_table_kept ['/'] (fun _ => none) oneStream s (by decide +kernel) hs⟩

/-- a chunk for number 0 before any start, and the start that gets this number -/
def planted : List Arrival := [⟨.doing 0 [1], .ok 1⟩, ⟨.start [97] [98], .ok 0⟩]

/-- **A chunk for an unknown stream makes an entry.** The start that then gets its number is answered with success, but
its path is not entered. And a finish of a stream that does not exist is not answered with a failure. -/
theorem planted_entry :
    (∃ s, run (Streams.step ['/']) (Streams.init fun _ => none) planted = some s ∧
      s.opened 0 = some ['/', 'a', '/', 'b'] ∧ s.server.queue 0 = some [] ∧ ¬ StreamTable ['/'] s) ∧
    ¬ ((Streams.init fun _ => none).server.handle ['/'] (.ok 0) (.finish 0)).2.Failed := by
  refine ⟨?_, ?_⟩
  · have h : (run (Streams.step ['/']) (Streams.init fun _ => none) planted).map
        (fun s => (s.opened 0, s.server.queue 0)) = some (some ['/', 'a', '/', 'b'], some []) := by decide +kernel
    obtain ⟨s, hs, he⟩ := Option.map_eq_some_iff.1 h
    obtain ⟨hopened, hqueue⟩ := Prod.mk.inj he
    refine ⟨s, hs, hopened, hqueue, fun ht => ?_⟩
    have heq : s.server.queue 0 = s.opened 0 := by rw [ht.table]
    rw [hopened, hqueue] at heq
    cases heq
  · unfold Reply.Failed
    decide +kernel

/-! ## Many clients -/

/-- clients and the files they back up to, pairwise different -/
structure Targets (C : Type) where
  backupPath : List Char
  bakId : C → List UInt8
  bakName : C → List UInt8
  distinct : Function.Injective fun i => resolve (bakPath backupPath (bakId i) (bakName i))
  /-- a file is not the root directory -/
  named : ∀ i, resolve (bakPath backupPath (bakId i) (bakName i)) ≠ []

namespace Targets

variable {C : Type} (T : Targets C)

/-- `store_path` -/
def path (i : C) : List Char := bakPath T.backupPath (T.bakId i) (T.bakName i)

def file (i : C) : List (List Char) := resolve (T.path i)

theorem file_ne {i j : C} (h : i ≠ j) : T.file i ≠ T.file j := T.distinct.ne h

end Targets

/-- how far a client is: `sent` are the chunks that were handled -/
inductive Progress where
  | ready
  | sending (id : ℕ) (sent : List (List UInt8))
  | finished (sent : List (List UInt8))
deriving DecidableEq

def Progress.sent : Progress → List (List UInt8)
  | .ready => []
  | .sending _ sent => sent
  | .finished sent => sent

/-- a request of a client that the server handles -/
inductive ClientOp (C : Type) where
  | start (i : C)
  | chunk (i : C) (c : List UInt8)
  | finish (i : C)

/-- the chunk, if it is one of client `i` -/
def ClientOp.chunkOf {C : Type} [DecidableEq C] (i : C) : ClientOp C → Option (List UInt8)
  | .chunk j c => if j = i then some c else none
  | _ => none

structure Backups (C : Type) where
  server : Server
  progress : C → Progress
  started : ℕ

namespace Backups

variable {C : Type} [DecidableEq C]

/-- nobody has started; any disk -/
def init (files : Files) : Backups C := ⟨⟨files, fun _ => none, 0⟩, fun _ => .ready, 0⟩

def set (b : Backups C) (server : Server) (i : C) (p : Progress) : Backups C :=
  { b with server := server, progress := Function.update b.progress i p }

@[simp] theorem set_server (b : Backups C) (sv : Server) (i : C) (p : Progress) : (b.set sv i p).server = sv := rfl

/-- the server handles a request; the client keeps the number of its own start's answer -/
def step (T : Targets C) (b : Backups C) : ClientOp C → Option (Backups C)
  | .start i =>
    match b.progress i with
    | .ready =>
      match b.server.handle T.backupPath (.ok 0) (.start (T.bakId i) (T.bakName i)) with
      | (server, .start _ id) => some { b.set server i (.sending id []) with started := b.started + 1 }
      | _ => none
    | _ => none
  | .chunk i c =>
    match b.progress i with
    | .sending id sent =>
      some (b.set (b.server.handle T.backupPath (.ok c.length) (.doing id c)).1 i (.sending id (sent ++ [c])))
    | _ => none
  | .finish i =>
    match b.progress i with
    | .sending id sent => some (b.set (b.server.handle T.backupPath (.ok 0) (.finish id)).1 i (.finished sent))
    | _ => none

/-- fewer than 2^32 starts -/
def FewStarts (b : Backups C) : ClientOp C → Prop
  | .start _ => b.started + 1 < 2 ^ 32
  | _ => True

instance (b : Backups C) : ∀ op, Decidable (b.FewStarts op)
  | .start _ => inferInstanceAs (Decidable (_ < _))
  | .chunk _ _ => .isTrue trivial
  | .finish _ => .isTrue trivial

variable {T : Targets C} {b t : Backups C}

/-- what a step does: the server's request, and the client's new state -/
theorem step_cases {op : ClientOp C} (h : b.step T op = some t) :
    (∃ i files, op = .start i ∧ b.progress i = .ready ∧
      files (T.file i) = some ((b.server.files (T.file i)).getD []) ∧ (∀ p ≠ T.file i, files p = b.server.files p) ∧
      t = { b.set ({ b.server with files := files }.insertStream (T.path i)) i (.sending b.server.idx []) with
        started := b.started + 1 }) ∨
    (∃ i c id sent, op = .chunk i c ∧ b.progress i = .sending id sent ∧
      t = b.set (b.server.doingRecvBakFile id c true (some c.length)).1 i (.sending id (sent ++ [c]))) ∨
    ∃ i id sent, op = .finish i ∧ b.progress i = .sending id sent ∧
      t = b.set (b.server.finishBakFile id).1 i (.finished sent) := by
  cases op with
  | start i =>
    cases hp : b.progress i with
    | ready =>
      have hopen : b.server.files (resolve (T.path i)) ≠ none ∨ true = true := Or.inr rfl
      obtain ⟨files, hr, hfile, hother⟩ := Server.transBakFile_ok 0 hopen
      refine Or.inl ⟨i, files, rfl, hp, hfile, hother, ?_⟩
      simp only [Targets.path] at hr
      simp only [step, hp, Server.handle, FileOps.ok, hr, Option.some.injEq] at h
      exact h.symm
    | sending id sent => simp [step, hp] at h
    | finished sent => simp [step, hp] at h
  | chunk i c =>
    cases hp : b.progress i with
    | ready => simp [step, hp] at h
    | sending id sent =>
      simp only [step, hp, Server.handle, FileOps.ok, Option.some.injEq] at h
      exact Or.inr (Or.inl ⟨i, c, id, sent, rfl, hp, h.symm⟩)
    | finished sent => simp [step, hp] at h
  | finish i =>
    cases hp : b.progress i with
    | ready => simp [step, hp] at h
    | sending id sent =>
      simp only [step, hp, Server.handle, Option.some.injEq] at h
      exact Or.inr (Or.inr ⟨i, id, sent, rfl, hp, h.symm⟩)
    | finished sent => simp [step, hp] at h

end Backups

/-- what the server has of a client: its file is what it was at first (`files`), followed by the chunks, and while it is
sending its number stands for its path -/
def ClientOk {C : Type} (T : Targets C) (files : Files) (sv : Server) (i : C) : Progress → Prop
  | .ready => sv.files (T.file i) = files (T.file i)
  | .sending id sent =>
    sv.queue id = some (T.path i) ∧ sv.files (T.file i) = some ((files (T.file i)).getD [] ++ sent.flatten)
  | .finished sent => sv.files (T.file i) = some ((files (T.file i)).getD [] ++ sent.flatten)

structure BackupsInv {C : Type} (T : Targets C) (files : Files) (b : Backups C) : Prop where
  idx : b.server.idx = b.started
  few : b.started < 2 ^ 32
  fresh : ∀ id, b.started ≤ id → b.server.queue id = none
  clients : ∀ i, ClientOk T files b.server i (b.progress i)

section Clients

variable {C : Type} {T : Targets C} {files : Files} {b t : Backups C} {sv sv' : Server} {i : C}

/-- a request of another client that keeps the file and the entry -/
theorem ClientOk.congr {p : Progress} (h : ClientOk T files sv i p)
    (hf : sv'.files (T.file i) = sv.files (T.file i))
    (hq : ∀ id, sv.queue id = some (T.path i) → sv'.queue id = some (T.path i)) : ClientOk T files sv' i p := by
  cases p with
  | ready => exact hf.trans h
  | sending id sent => exact ⟨hq id h.1, hf.trans h.2⟩
  | finished sent => exact hf.trans h

theorem clients_set [DecidableEq C] {p : Progress} (h : ∀ j, ClientOk T files b.server j (b.progress j))
    (hi : ClientOk T files sv' i p) (hf : ∀ j ≠ i, sv'.files (T.file j) = b.server.files (T.file j))
    (hq : ∀ j ≠ i, ∀ id, b.server.queue id = some (T.path j) → sv'.queue id = some (T.path j)) :
    ∀ j, ClientOk T files sv' j (Function.update b.progress i p j) := by
  intro j
  by_cases hj : j = i
  · rw [hj, Function.update_self]
    exact hi
  · rw [Function.update_of_ne hj]
    exact (h j).congr (hf j hj) (hq j hj)

namespace BackupsInv

theorem init [DecidableEq C] (T : Targets C) (files : Files) : BackupsInv T files (Backups.init files) :=
  ⟨rfl, by norm_num [Backups.init], fun _ _ => rfl, fun _ => rfl⟩

variable [DecidableEq C]

theorem start {new : Files} (h : BackupsInv T files b) (hfew : b.started + 1 < 2 ^ 32) (hp : b.progress i = .ready)
    (hfile : new (T.file i) = some ((b.server.files (T.file i)).getD []))
    (hother : ∀ p ≠ T.file i, new p = b.server.files p) :
    BackupsInv T files
      { b.set ({ b.server with files := new }.insertStream (T.path i)) i (.sending b.server.idx []) with
      started := b.started + 1 } := by
  have hfree : b.server.queue b.server.idx = none := h.fresh _ h.idx.ge
  have hqueue : ({ b.server with files := new }.insertStream (T.path i)).queue =
      Function.update b.server.queue b.server.idx (some (T.path i)) := Server.insertStream_queue hfree
  have hready : b.server.files (T.file i) = files (T.file i) := by
    have := h.clients i
    rwa [hp] at this
  refine ⟨?_, hfew, fun id hid => ?_, ?_⟩
  · simp only [Backups.set, Server.insertStream, h.idx, Nat.mod_eq_of_lt hfew]
  · have hid : b.started < id := hid
    have hne : id ≠ b.server.idx := h.idx ▸ hid.ne'
    exact (congrFun hqueue id).trans ((Function.update_of_ne hne ..).trans (h.fresh id hid.le))
  · refine clients_set h.clients ⟨?_, ?_⟩ (fun j hj => hother _ (T.file_ne hj)) fun j hj id hid => ?_
    · exact (congrFun hqueue _).trans (Function.update_self ..)
    · rw [List.flatten_nil, List.append_nil, ← hready]
      exact hfile
    · have hne : id ≠ b.server.idx := by
        rintro rfl
        rw [hfree] at hid
        cases hid
      exact (congrFun hqueue id).trans ((Function.update_of_ne hne ..).trans hid)

theorem chunk {c : List UInt8} {id : ℕ} {sent : List (List UInt8)} (h : BackupsInv T files b)
    (hp : b.progress i = .sending id sent) :
    BackupsInv T files
      (b.set (b.server.doingRecvBakFile id c true (some c.length)).1 i (.sending id (sent ++ [c]))) := by
  obtain ⟨hid, hfile⟩ : ClientOk T files b.server i (.sending id sent) := hp ▸ h.clients i
  have hqueue : (b.server.doingRecvBakFile id c true (some c.length)).1.queue = b.server.queue := by
    rw [Server.doingRecvBakFile_queue, hid]
    exact Function.update_eq_self_iff.2 hid.symm
  have hpath : resolve ((b.server.queue id).getD []) = T.file i := by
    rw [hid]
    rfl
  have htakes : b.server.Takes id true (some c.length) := by
    refine ⟨?_, ?_, rfl, nofun⟩ <;> rw [hpath]
    · exact T.named i
    · simp [hfile]
  have hfiles : (b.server.doingRecvBakFile id c true (some c.length)).1.files = _ := Server.doingRecv_taken htakes
  rw [hpath, List.take_length] at hfiles
  refine ⟨Server.doingRecvBakFile_idx.trans h.idx, h.few, fun id' hid' => ?_, ?_⟩
  · rw [Backups.set, hqueue]
    exact h.fresh id' hid'
  · refine clients_set h.clients ⟨hqueue ▸ hid, ?_⟩ (fun j hj => ?_) fun j hj id' hid' => hqueue ▸ hid'
    · rw [Backups.set_server, hfiles, append, Function.update_self, hfile]
      simp
    · rw [Backups.set_server, hfiles, append, Function.update_of_ne (T.file_ne hj)]

theorem finish {id : ℕ} {sent : List (List UInt8)} (h : BackupsInv T files b) (hp : b.progress i = .sending id sent) :
    BackupsInv T files (b.set (b.server.finishBakFile id).1 i (.finished sent)) := by
  obtain ⟨hid, hfile⟩ : ClientOk T files b.server i (.sending id sent) := hp ▸ h.clients i
  have hfiles : (b.server.finishBakFile id).1.files = b.server.files := Server.finishBakFile_files ..
  refine ⟨Server.finishBakFile_idx.trans h.idx, h.few, fun id' hid' => ?_, ?_⟩
  · rw [Backups.set, Server.finishBakFile_queue]
    by_cases hne : id' = id
    · rw [hne, Function.update_self]
    · rw [Function.update_of_ne hne]
      exact h.fresh id' hid'
  · refine clients_set h.clients ?_ (fun j _ => congrFun hfiles _) fun j hj id' hid' => ?_
    · exact (congrFun hfiles _).trans hfile
    · -- the entry of another client has another path, so another number
      have hne : id' ≠ id := by
        rintro rfl
        rw [hid] at hid'
        exact T.file_ne hj (congrArg resolve (Option.some.inj hid').symm)
      rw [Backups.set_server, Server.finishBakFile_queue, Function.update_of_ne hne]
      exact hid'

theorem step {op : ClientOp C} (h : BackupsInv T files b) (hfew : b.FewStarts op) (ht : b.step T op = some t) :
    BackupsInv T files t := by
  obtain ⟨i, new, rfl, hp, hfile, hother, rfl⟩ | ⟨i, c, id, sent, rfl, hp, rfl⟩ | ⟨i, id, sent, rfl, hp, rfl⟩ :=
    Backups.step_cases ht
  · exact h.start hfew hp hfile hother
  · exact h.chunk hp
  · exact h.finish hp

end BackupsInv

/-- one request adds the chunk it carries to its client's -/
theorem step_sent [DecidableEq C] {op : ClientOp C} (ht : b.step T op = some t) (i : C) :
    (t.progress i).sent = (b.progress i).sent ++ (op.chunkOf i).toList := by
  have hset {j : C} {p : Progress} (new : List (List UInt8)) (hp : p.sent = (b.progress j).sent ++ new) :
      (Function.update b.progress j p i).sent = (b.progress i).sent ++ if j = i then new else [] := by
    by_cases hj : j = i
    · subst hj
      simp [hp]
    · simp [hj, Function.update_of_ne (Ne.symm hj)]
  obtain ⟨j, new, rfl, hp, -, -, rfl⟩ | ⟨j, c, id, sent, rfl, hp, rfl⟩ | ⟨j, id, sent, rfl, hp, rfl⟩ :=
    Backups.step_cases ht
  · refine (hset [] (by rw [hp]; rfl)).trans ?_
    simp [ClientOp.chunkOf]
  · refine (hset [c] (by rw [hp]; rfl)).trans ?_
    by_cases hj : j = i <;> simp [ClientOp.chunkOf, hj]
  · refine (hset [] (by rw [hp]; simp [Progress.sent])).trans ?_
    simp [ClientOp.chunkOf]

/-- the chunks of a client are those it sent in the run, in this order -/
theorem run_sent [DecidableEq C] {ops : List (ClientOp C)} (hr : run (Backups.step T) b ops = some t) (i : C) :
    (t.progress i).sent = (b.progress i).sent ++ ops.filterMap (·.chunkOf i) := by
  induction ops generalizing b with
  | nil =>
    obtain rfl := Option.some.inj hr
    simp
  | cons op ops ih =>
    obtain ⟨u, hu, hut⟩ := Option.bind_eq_some_iff.1 hr
    rw [ih hut, step_sent hu, List.append_assoc]
    cases hc : op.chunkOf i <;> simp [hc]

/-- **Concurrent backups do not mix**: the file of a client whose finish was handled is what it was, followed by the
chunks this client sent, in their order, whatever the others sent in between. -/
theorem backups_do_not_mix [DecidableEq C] (T : Targets C) (files : Files) (ops : List (ClientOp C)) (b : Backups C)
    (hfew : Steps (Backups.step T) Backups.FewStarts (Backups.init files) ops)
    (hr : run (Backups.step T) (Backups.init files) ops = some b) (i : C) (sent : List (List UInt8))
    (hfin : b.progress i = .finished sent) :
    b.server.files (T.file i) = some ((files (T.file i)).getD [] ++ (ops.filterMap (·.chunkOf i)).flatten) := by
  have hinv : BackupsInv T files b := run_inv (fun u a v hu ha hv => hu.step ha hv) (BackupsInv.init T files) hfew hr
  have hfile : ClientOk T files b.server i (.finished sent) := hfin ▸ hinv.clients i
  have hsent : sent = ops.filterMap (·.chunkOf i) := by
    have := run_sent hr i
    rwa [hfin] at this
  rw [← hsent]
  exact hfile

/-- two files of the same directory -/
def twoTargets : Targets Bool where
  backupPath := ['/']
  bakId _ := [97]
  bakName i := if i then [98] else [99]
  distinct := by decide +kernel
  named := by decide +kernel

/-- two clients take turns -/
def twoClients : List (ClientOp Bool) :=
  [.start true, .start false, .chunk true [1], .chunk false [2], .chunk true [3], .finish true, .chunk false [4]]

theorem backups_do_not_mix_two : ∃ b, run (Backups.step twoTargets) (Backups.init fun _ => none) twoClients = some b ∧
    b.progress true = .finished [[1], [3]] ∧ b.server.files (twoTargets.file true) = some [1, 3] := by
  have h : (run (Backups.step twoTargets) (Backups.init fun _ => none) twoClients).map (·.progress true) =
      some (.finished [[1], [3]]) := by decide +kernel
  obtain ⟨b, hb, hfin⟩ := Option.map_eq_some_iff.1 h
  exact ⟨b, hb, hfin, backups_do_not_mix twoTargets (fun _ => none) twoClients b (by decide +kernel) hb true _ hfin⟩

end Clients

end StoreService.Backup
