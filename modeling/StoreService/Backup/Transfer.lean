/-
One backup attempt (`backup.cpp`): the client's three calls, the server's three handlers, and every way they can fail.

The client starts a stream, sends the file in chunks over one connection each, and finishes the stream. Failures are the
inputs of an attempt (`Attempt`): connections refused, a request lost on the way or answered too late (`Outcome`), a
socket write that fails, and on the server mkdir, open and write failures, short writes included. Where the source uses
a variable that was never set, its value is an input too (`clientJunk`, `serverJunk`).

How results travel, as written in the source:
- `StartTransferBakFile` keeps its result in a uint8_t, so -1 comes back as 255 and the caller's test `< 0` never holds;
- the responses' `result` is a uint8_t as well, so `resp.result < 0` is never true;
- after `select`, `DoingTransBakFile` assigns to a local `ret` that shadows the one it returns.

- `backup_sound_iff`: a file marked as backed up is a copy of the source exactly if the failure is one of those that are
  reported (`Reported`) or the whole file was delivered under the right stream (`Delivered`).
- `refused_start`: an attempt that is neither.

Left out: failures to read the source, `getsockopt` and `malloc` (the last two are reported), and other clients of the
server during the attempt. A request that is answered too late is handled before the client's next one. A request that
is not lost is received whole (`Receive` has requests that come in pieces), and the camera's id and the name of the file
fit `bak_id` and `bak_name`, arrays of 42 and 26 bytes with their terminators (`Handlers` has the longer ones).
-/
import StoreService.Core.FileSys

namespace StoreService.Backup

open StoreService.FileSys

/-! ## The server -/

structure Server where
  files : Files
  /-- `bakStreamQueue`: the path of each open stream -/
  queue : ℕ → Option (List Char)
  /-- `bakStreamIdx` -/
  idx : ℕ

/-- an int stored in a uint8_t -/
def uint8 (r : ℤ) : ℕ := (r % 256).toNat

namespace Server

/-- `std::map::insert` does not replace an entry -/
def insertStream (sv : Server) (path : List Char) : Server :=
  { sv with
    queue := if sv.queue sv.idx = none then Function.update sv.queue sv.idx (some path) else sv.queue
    idx := (sv.idx + 1) % 2 ^ 32 }

/-- `TransBakFile`: the `result` and `bak_stream_id` of the response. `dirOk`: the directory is there or can be made;
`openOk`: the file can be created. -/
def transBakFile (sv : Server) (path : List Char) (dirOk openOk : Bool) (serverJunk : ℕ) : Server × ℕ × ℕ :=
  if dirOk then
    match sv.files (resolve path) with
    | some _ => (sv.insertStream path, uint8 0, sv.idx)
    | none =>
      if openOk then
        ({ sv with files := overwrite sv.files (resolve path) [] }.insertStream path, uint8 0, sv.idx)
      else (sv, uint8 (-1), serverJunk)
  else (sv, uint8 (-1), serverJunk)

/-- open a file, go to its end and write a chunk; `written` is what `write` returns, `none` when it fails. There is no
file to open under the empty path. -/
def writeChunk (sv : Server) (path : List (List Char)) (chunk : List UInt8) (openOk : Bool) (written : Option ℕ) :
    Server × ℕ :=
  match sv.files path with
  | none => (sv, uint8 (-1))
  | some _ =>
    if path ≠ [] ∧ openOk then
      match written with
      | none => (sv, uint8 (-1))
      | some n => ({ sv with files := append sv.files path (chunk.take n) }, uint8 (min n chunk.length : ℕ))
    else (sv, uint8 (-1))

/-- `DoingRecvBakFile`: the server and the `result` of the response. `operator[]` makes an entry with an empty path for
an unknown stream. -/
def doingRecvBakFile (sv : Server) (id : ℕ) (chunk : List UInt8) (openOk : Bool) (written : Option ℕ) :
    Server × ℕ :=
  let path := (sv.queue id).getD []
  { sv with queue := Function.update sv.queue id (some path) }.writeChunk (resolve path) chunk openOk written

/-- `FinishBakFile` -/
def finishBakFile (sv : Server) (id : ℕ) : Server × ℕ :=
  match sv.queue id with
  | some _ => ({ sv with queue := Function.update sv.queue id none }, uint8 0)
  | none => (sv, uint8 (-1))

/-- stream `id` is open for the file -/
def OpenFor (sv : Server) (id : ℕ) (path : List (List Char)) : Prop := (sv.queue id).map resolve = some path

end Server

/-! ## Failures -/

/-- what becomes of a request: it does not arrive, it is handled but the answer comes too late, it is answered -/
inductive Outcome where
  | lost
  | late
  | answered
deriving DecidableEq, Repr

structure StartFault where
  connect : Bool
  outcome : Outcome
  dirOk : Bool
  openOk : Bool

structure ChunkFault where
  connect : Bool
  send : Bool
  outcome : Outcome
  openOk : Bool
  written : Option ℕ

structure FinishFault where
  connect : Bool
  outcome : Outcome

/-- one attempt: the server before it, the file, and the failures on the way -/
structure Attempt where
  server : Server
  backupPath : List Char
  bakId : List Char
  bakName : List Char
  source : List UInt8
  sourceOpen : Bool
  /-- TCP_MAXSEG -/
  mss : ℕ
  start : StartFault
  /-- failures of the `k`-th chunk -/
  chunks : ℕ → ChunkFault
  finish : FinishFault
  clientJunk : ℕ
  serverJunk : ℕ
  mss_pos : 0 < mss
  /-- a file has a name -/
  name_ne : resolve bakName ≠ []
  /-- there is no copy on the server yet -/
  no_copy : server.files (resolve (backupPath ++ bakId ++ '/' :: bakName)) = none

/-- `store_path` on the server -/
def Attempt.storePath (a : Attempt) : List Char := a.backupPath ++ a.bakId ++ '/' :: a.bakName

def Attempt.path (a : Attempt) : List (List Char) := resolve a.storePath

/-! ## The client -/

/-- `StartTransferBakFile`: the return value, and `bakStreamId` -/
def startTransferBakFile (a : Attempt) : Server × ℤ × ℕ :=
  if a.start.connect then
    let r := a.server.transBakFile a.storePath a.start.dirOk a.start.openOk a.serverJunk
    match a.start.outcome with
    | .lost => (a.server, uint8 (-1), a.clientJunk)
    | .late => (r.1, uint8 (-1), a.clientJunk)
    | .answered => (r.1, r.2.1, r.2.2)
  else (a.server, uint8 (-1), a.clientJunk)

/-- the blocks that successive `read` calls of `n` bytes return -/
def readBlocks (n : ℕ) : ℕ → List UInt8 → List (List UInt8)
  | 0, _ => []
  | fuel + 1, src => if src = [] then [] else src.take n :: readBlocks n fuel (src.drop n)

/-- the loop of `DoingTransBakFile`. `sock` says that a connection is open already; `faults` are those of the chunks to
come. Every exit after `select` leaves the outer `ret` at 0. -/
def sendChunks (id : ℕ) : (ℕ → ChunkFault) → Bool → List (List UInt8) → Server → Server × ℤ
  | _, _, [], sv => (sv, 0)
  | faults, sock, c :: cs, sv =>
    if !sock && !(faults 0).connect then (sv, -1)
    else if !(faults 0).send then (sv, -1)
    else
      let r := sv.doingRecvBakFile id c (faults 0).openOk (faults 0).written
      match (faults 0).outcome with
      | .lost => (sv, 0)
      | .late => (r.1, 0)
      | .answered => if (r.2 : ℤ) < 0 then (r.1, 0) else sendChunks id (fun k => faults (k + 1)) false cs r.1

/-- size of the chunks: `mss * 100` less the 32 bytes of the header -/
def Attempt.chunkSize (a : Attempt) : ℕ := a.mss * 100 - 32

def Attempt.blocks (a : Attempt) : List (List UInt8) := readBlocks a.chunkSize a.source.length a.source

/-- `DoingTransBakFile` -/
def doingTransBakFile (a : Attempt) (id : ℕ) (sv : Server) : Server × ℤ :=
  if !a.sourceOpen then (sv, -1)
  else if !(a.chunks 0).connect then (sv, -1)
  else sendChunks id a.chunks true a.blocks sv

/-- `FinishTransBakFile` -/
def finishTransBakFile (a : Attempt) (id : ℕ) (sv : Server) : Server × ℤ :=
  if a.finish.connect then
    match a.finish.outcome with
    | .lost => (sv, -1)
    | .late => ((sv.finishBakFile id).1, -1)
    | .answered =>
      let r := sv.finishBakFile id
      if (r.2 : ℤ) < 0 then (r.1, -1) else (r.1, 0)
  else (sv, -1)

/-- `BackupClientStart`: the return value, and whether `UpdateBackupToTable` is called with 'yes' -/
def backupClientStart (a : Attempt) : Server × ℤ × Bool :=
  let s := startTransferBakFile a
  if s.2.1 < 0 then (s.1, -1, false)
  else
    let d := doingTransBakFile a s.2.2 s.1
    if d.2 < 0 then (d.1, -1, false)
    else
      let f := finishTransBakFile a s.2.2 d.1
      if f.2 < 0 then (f.1, -1, false) else (f.1, 0, true)

/-- a file marked as backed up is a copy of the source -/
def BackedUp (a : Attempt) : Prop :=
  (backupClientStart a).2 = (0, true) → (backupClientStart a).1.files a.path = some a.source

/-! ## What is reported, and what is delivered -/

/-- the client gives up on chunk `k` and says so: it cannot connect (unless it is connected already) or cannot send -/
def ChunkFault.Fails (f : ChunkFault) (sock : Bool) : Prop := (sock = false ∧ f.connect = false) ∨ f.send = false

/-- the loop reaches a chunk that fails: all chunks before it were answered -/
def LoopReports (faults : ℕ → ChunkFault) (sock : Bool) (cs : List (List UInt8)) : Prop :=
  ∃ k < cs.length, (∀ j < k, (faults j).outcome = .answered) ∧ (faults k).Fails (sock && k == 0)

/-- the chunk reaches the server and is written to the end -/
structure ChunkFault.Lands (f : ChunkFault) (chunk : List UInt8) : Prop where
  arrives : f.outcome ≠ .lost
  opens : f.openOk = true
  whole : ∃ n, f.written = some n ∧ chunk.length ≤ n

/-- every chunk lands, and is answered if another follows -/
def AllLand (faults : ℕ → ChunkFault) (cs : List (List UInt8)) : Prop :=
  ∀ k (hk : k < cs.length), (faults k).Lands cs[k] ∧ (k + 1 < cs.length → (faults k).outcome = .answered)

/-- failures that reach `BackupClientStart` -/
def Reported (a : Attempt) : Prop :=
  a.sourceOpen = false ∨ (a.chunks 0).connect = false ∨ LoopReports a.chunks true a.blocks ∨
    a.finish.connect = false ∨ a.finish.outcome ≠ .answered

/-- the start request created the file -/
structure Attempt.Created (a : Attempt) : Prop where
  connect : a.start.connect = true
  arrives : a.start.outcome ≠ .lost
  dir : a.start.dirOk = true
  opens : a.start.openOk = true

/-- the stream id that the client goes on with: the one in the answer, or what its variable happened to contain -/
def Attempt.streamId (a : Attempt) : ℕ := if a.start.outcome = .answered then a.server.idx else a.clientJunk

/-- the server has that stream open for the file: it is the new one and its number was free, or another stream that
happens to be open for the same file -/
def Attempt.RightStream (a : Attempt) : Prop :=
  (a.streamId = a.server.idx ∧ a.server.queue a.streamId = none) ∨ a.server.OpenFor a.streamId a.path

/-- the file was created, and every byte of it was sent to the right stream and written -/
structure Delivered (a : Attempt) : Prop where
  created : a.Created
  stream : a.source ≠ [] → a.RightStream
  chunks : AllLand a.chunks a.blocks

/-! ## Chunks -/

theorem not_natCast_neg (n : ℕ) : ¬ (n : ℤ) < 0 := not_lt.2 (Int.natCast_nonneg n)

theorem readBlocks_flatten {n : ℕ} (hn : 0 < n) : ∀ (fuel : ℕ) (src : List UInt8), src.length ≤ fuel →
    (readBlocks n fuel src).flatten = src := by
  intro fuel
  induction fuel with
  | zero =>
    intro src h
    rw [List.length_eq_zero_iff.1 (Nat.le_zero.1 h)]
    rfl
  | succ fuel ih =>
    intro src h
    rw [readBlocks]
    split_ifs with hs
    · rw [hs]
      rfl
    · have hpos : 0 < src.length := List.length_pos_iff.2 hs
      rw [List.flatten_cons, ih _ (by rw [List.length_drop]; omega), List.take_append_drop]

theorem readBlocks_ne_nil {n : ℕ} (hn : 0 < n) : ∀ (fuel : ℕ) (src : List UInt8),
    ∀ c ∈ readBlocks n fuel src, c ≠ [] := by
  intro fuel
  induction fuel with
  | zero => intro src c hc; cases hc
  | succ fuel ih =>
    intro src c hc
    rw [readBlocks] at hc
    split_ifs at hc with hs
    · cases hc
    · rcases List.mem_cons.1 hc with rfl | hc
      · simp [hs, hn.ne']
      · exact ih _ c hc

theorem Attempt.chunkSize_pos (a : Attempt) : 0 < a.chunkSize := by
  have := a.mss_pos
  rw [Attempt.chunkSize]
  omega

theorem Attempt.blocks_flatten (a : Attempt) : a.blocks.flatten = a.source :=
  readBlocks_flatten a.chunkSize_pos _ _ le_rfl

theorem Attempt.blocks_ne_nil (a : Attempt) : ∀ c ∈ a.blocks, c ≠ [] := readBlocks_ne_nil a.chunkSize_pos _ _

theorem Attempt.path_ne_nil (a : Attempt) : a.path ≠ [] := by
  rw [Attempt.path, Attempt.storePath, resolve_append_slash]
  exact fun h => a.name_ne (List.append_eq_nil_iff.1 h).2

theorem ChunkFault.fails_iff {f : ChunkFault} {sock : Bool} :
    f.Fails sock ↔ (!sock && !f.connect) = true ∨ (!f.send) = true := by
  simp [ChunkFault.Fails]

theorem loopReports_cons {faults : ℕ → ChunkFault} {sock : Bool} {c : List UInt8} {cs : List (List UInt8)} :
    LoopReports faults sock (c :: cs) ↔ (faults 0).Fails sock ∨
      ((faults 0).outcome = .answered ∧ LoopReports (fun k => faults (k + 1)) false cs) := by
  constructor
  · rintro ⟨k, hk, hbefore, hfail⟩
    cases k with
    | zero => exact Or.inl (by simpa using hfail)
    | succ k =>
      refine Or.inr ⟨hbefore 0 (Nat.succ_pos k), k, by simpa using hk, fun j hj => hbefore (j + 1) (by omega), ?_⟩
      simpa using hfail
  · rintro (hfail | ⟨h0, k, hk, hbefore, hfail⟩)
    · exact ⟨0, by simp, by simp, by simpa using hfail⟩
    · refine ⟨k + 1, by simpa using hk, fun j hj => ?_, by simpa using hfail⟩
      cases j with
      | zero => exact h0
      | succ j => exact hbefore j (by omega)

theorem allLand_cons {faults : ℕ → ChunkFault} {c : List UInt8} {cs : List (List UInt8)} :
    AllLand faults (c :: cs) ↔ (faults 0).Lands c ∧ (cs ≠ [] → (faults 0).outcome = .answered) ∧
      AllLand (fun k => faults (k + 1)) cs := by
  constructor
  · intro h
    refine ⟨(h 0 (by simp)).1, fun hne => (h 0 (by simp)).2 ?_, fun k hk => ?_⟩
    · have := List.length_pos_iff.2 hne
      simpa using this
    · have := h (k + 1) (by simpa using hk)
      simpa using this
  · rintro ⟨h0, hnext, hrest⟩ k hk
    cases k with
    | zero =>
      refine ⟨h0, fun hlt => hnext ?_⟩
      rintro rfl
      simp at hlt
    | succ k =>
      have := hrest k (by simpa using hk)
      simpa using this

/-! ## The server during the loop -/

/-- the part of a chunk that a landing chunk adds to the file -/
def ChunkFault.piece (f : ChunkFault) (chunk : List UInt8) : List UInt8 :=
  if f.openOk then chunk.take (f.written.getD 0) else []

/-- what the loop adds to the file of the stream -/
def appended : (ℕ → ChunkFault) → Bool → List (List UInt8) → List UInt8
  | _, _, [] => []
  | faults, sock, c :: cs =>
    if !sock && !(faults 0).connect then []
    else if !(faults 0).send then []
    else
      match (faults 0).outcome with
      | .lost => []
      | .late => (faults 0).piece c
      | .answered => (faults 0).piece c ++ appended (fun k => faults (k + 1)) false cs

namespace Server

variable {sv : Server} {id : ℕ} {path : List (List Char)}

theorem writeChunk_queue (p : List (List Char)) (c : List UInt8) (openOk : Bool) (written : Option ℕ) :
    (sv.writeChunk p c openOk written).1.queue = sv.queue := by
  unfold writeChunk
  repeat' split
  all_goals rfl

theorem writeChunk_same (f : ChunkFault) (c : List UInt8) {old : List UInt8} (hp : path ≠ [])
    (hf : sv.files path = some old) :
    (sv.writeChunk path c f.openOk f.written).1.files path = some (old ++ f.piece c) := by
  simp only [writeChunk, hf, ChunkFault.piece]
  cases f.openOk with
  | false => simp [hf]
  | true =>
    cases f.written with
    | none => simp [hf, hp]
    | some n => simp [hp, append, hf]

theorem writeChunk_of_ne {p : List (List Char)} (f : ChunkFault) (c : List UInt8) (hp : path ≠ p) :
    (sv.writeChunk p c f.openOk f.written).1.files path = sv.files path := by
  unfold writeChunk
  repeat' split
  all_goals first | rfl | exact Function.update_of_ne hp _ _

theorem writeChunk_none {p : List (List Char)} (f : ChunkFault) (c : List UInt8) (hf : sv.files path = none) :
    (sv.writeChunk p c f.openOk f.written).1.files path = none := by
  by_cases hp : path = p
  · subst hp
    simp only [writeChunk, hf]
  · rw [writeChunk_of_ne f c hp, hf]

/-- the handler leaves the stream as it was, an unknown one with an empty path -/
theorem doingRecv_queue (f : ChunkFault) (c : List UInt8) :
    (sv.doingRecvBakFile id c f.openOk f.written).1.queue id = some ((sv.queue id).getD []) := by
  rw [doingRecvBakFile, writeChunk_queue]
  exact Function.update_self ..

/-- a chunk for the stream of the file -/
theorem doingRecv_named (f : ChunkFault) (c : List UInt8) {old : List UInt8} (hopen : sv.OpenFor id path)
    (hp : path ≠ []) (hf : sv.files path = some old) :
    (sv.doingRecvBakFile id c f.openOk f.written).1.files path = some (old ++ f.piece c) ∧
      (sv.doingRecvBakFile id c f.openOk f.written).1.OpenFor id path := by
  obtain ⟨q, hq, rfl⟩ := Option.map_eq_some_iff.1 hopen
  rw [OpenFor, doingRecv_queue, hq]
  refine ⟨?_, rfl⟩
  simp only [doingRecvBakFile, hq, Option.getD_some]
  exact writeChunk_same f c hp hf

/-- a chunk for another stream, or for none -/
theorem doingRecv_other (f : ChunkFault) (c : List UInt8) (hq : ¬ sv.OpenFor id path) (hp : path ≠ []) :
    (sv.doingRecvBakFile id c f.openOk f.written).1.files path = sv.files path ∧
      ¬ (sv.doingRecvBakFile id c f.openOk f.written).1.OpenFor id path := by
  have hne : path ≠ resolve ((sv.queue id).getD []) := by
    rintro rfl
    cases h : sv.queue id with
    | none =>
      rw [h] at hp
      exact hp rfl
    | some q => exact hq (by rw [OpenFor, h]; rfl)
  refine ⟨writeChunk_of_ne f c hne, ?_⟩
  rw [OpenFor, doingRecv_queue]
  exact fun he => hne (Option.some.inj he).symm

/-- the handler does not create files -/
theorem doingRecv_none (id : ℕ) (f : ChunkFault) (c : List UInt8) (hf : sv.files path = none) :
    (sv.doingRecvBakFile id c f.openOk f.written).1.files path = none :=
  writeChunk_none f c hf

theorem finishBakFile_files : (sv.finishBakFile id).1.files = sv.files := by
  unfold finishBakFile
  split <;> rfl

end Server

/-! ## The loop -/

section Loop

variable {id : ℕ} {path : List (List Char)}

/-- the loop fails exactly at a chunk it cannot connect for or cannot send -/
theorem sendChunks_neg_iff (id : ℕ) (cs : List (List UInt8)) : ∀ (faults : ℕ → ChunkFault) (sock : Bool) (sv : Server),
    (sendChunks id faults sock cs sv).2 < 0 ↔ LoopReports faults sock cs := by
  induction cs with
  | nil => intro faults sock sv; simp [sendChunks, LoopReports]
  | cons c cs ih =>
    intro faults sock sv
    rw [loopReports_cons, sendChunks]
    by_cases hfails : (faults 0).Fails sock
    · refine iff_of_true ?_ (Or.inl hfails)
      rcases ChunkFault.fails_iff.1 hfails with hconn | hsend
      · simp [hconn]
      · rw [if_pos hsend]
        split_ifs <;> simp
    · obtain ⟨hconn, hsend⟩ := not_or.1 (mt ChunkFault.fails_iff.2 hfails)
      rw [if_neg hconn, if_neg hsend]
      cases (faults 0).outcome with
      | lost => simp [hfails]
      | late => simp [hfails]
      | answered => simp [hfails, not_natCast_neg, ih]

/-- on a stream that is open for the file -/
theorem sendChunks_named (hp : path ≠ []) (cs : List (List UInt8)) :
    ∀ (faults : ℕ → ChunkFault) (sock : Bool) (sv : Server) (old : List UInt8),
      sv.OpenFor id path → sv.files path = some old →
        (sendChunks id faults sock cs sv).1.files path = some (old ++ appended faults sock cs) := by
  induction cs with
  | nil => intro faults sock sv old _ hf; simpa [sendChunks, appended] using hf
  | cons c cs ih =>
    intro faults sock sv old hq hf
    obtain ⟨hf', hq'⟩ := sv.doingRecv_named (faults 0) c hq hp hf
    rw [sendChunks, appended]
    split_ifs
    · simpa using hf
    · simpa using hf
    · cases (faults 0).outcome with
      | lost => simpa using hf
      | late => exact hf'
      | answered =>
        simp only [not_natCast_neg, if_false]
        rw [ih _ _ _ _ hq' hf', List.append_assoc]

/-- on any other stream -/
theorem sendChunks_other (hp : path ≠ []) (cs : List (List UInt8)) :
    ∀ (faults : ℕ → ChunkFault) (sock : Bool) (sv : Server), ¬ sv.OpenFor id path →
      (sendChunks id faults sock cs sv).1.files path = sv.files path := by
  induction cs with
  | nil => intro faults sock sv _; rfl
  | cons c cs ih =>
    intro faults sock sv hq
    obtain ⟨hf, hq'⟩ := sv.doingRecv_other (faults 0) c hq hp
    rw [sendChunks]
    split_ifs
    · rfl
    · rfl
    · cases (faults 0).outcome with
      | lost => rfl
      | late => exact hf
      | answered =>
        simp only [not_natCast_neg, if_false]
        rw [ih _ _ _ hq', hf]

/-- without the file -/
theorem sendChunks_none (cs : List (List UInt8)) : ∀ (faults : ℕ → ChunkFault) (sock : Bool) (sv : Server),
    sv.files path = none → (sendChunks id faults sock cs sv).1.files path = none := by
  induction cs with
  | nil => intro faults sock sv hf; exact hf
  | cons c cs ih =>
    intro faults sock sv hf
    have hf' := sv.doingRecv_none id (faults 0) c hf
    rw [sendChunks]
    split_ifs
    · exact hf
    · exact hf
    · cases (faults 0).outcome with
      | lost => exact hf
      | late => exact hf'
      | answered =>
        simp only [not_natCast_neg, if_false]
        exact ih _ _ _ hf'

end Loop

theorem ChunkFault.length_piece_le (f : ChunkFault) (c : List UInt8) : (f.piece c).length ≤ c.length := by
  unfold ChunkFault.piece
  split_ifs <;> simp

/-- a chunk is written whole or not -/
theorem ChunkFault.piece_eq_iff (f : ChunkFault) {c : List UInt8} (hc : c ≠ []) :
    f.piece c = c ↔ f.openOk = true ∧ ∃ n, f.written = some n ∧ c.length ≤ n := by
  unfold ChunkFault.piece
  cases f.openOk with
  | false => simpa using hc.symm
  | true =>
    cases f.written with
    | none => simpa using hc.symm
    | some n => simp

/-- neither part can make up for what is missing of the other -/
theorem ChunkFault.piece_append_eq_iff (f : ChunkFault) {c added rest : List UInt8} (hc : c ≠ [])
    (hle : added.length ≤ rest.length) :
    f.piece c ++ added = c ++ rest ↔ (f.openOk = true ∧ ∃ n, f.written = some n ∧ c.length ≤ n) ∧ added = rest := by
  rw [← f.piece_eq_iff hc]
  constructor
  · intro h
    have hlen := f.length_piece_le c
    have hsum := congrArg List.length h
    simp only [List.length_append] at hsum
    exact List.append_inj h (by omega)
  · rintro ⟨hpiece, rfl⟩
    rw [hpiece]

theorem length_appended_le (cs : List (List UInt8)) : ∀ (faults : ℕ → ChunkFault) (sock : Bool),
    (appended faults sock cs).length ≤ cs.flatten.length := by
  induction cs with
  | nil => intro faults sock; simp [appended]
  | cons c cs ih =>
    intro faults sock
    have hpiece := (faults 0).length_piece_le c
    have hrest := ih (fun k => faults (k + 1)) false
    rw [appended, List.flatten_cons, List.length_append]
    split_ifs
    · exact Nat.zero_le _
    · exact Nat.zero_le _
    · cases (faults 0).outcome with
      | lost => exact Nat.zero_le _
      | late => exact le_add_right hpiece
      | answered => simpa using add_le_add hpiece hrest

/-- the loop adds the whole file exactly if every chunk lands: nothing can make up for a missing byte, since no chunk
adds more than its own bytes -/
theorem appended_eq_iff (cs : List (List UInt8)) (hne : ∀ c ∈ cs, c ≠ []) :
    ∀ (faults : ℕ → ChunkFault) (sock : Bool), ¬ LoopReports faults sock cs →
      (appended faults sock cs = cs.flatten ↔ AllLand faults cs) := by
  induction cs with
  | nil =>
    intro faults sock _
    exact ⟨fun _ k hk => absurd hk (Nat.not_lt_zero k), fun _ => rfl⟩
  | cons c cs ih =>
    intro faults sock hrep
    have hc : c ≠ [] := hne c List.mem_cons_self
    have hcs : ∀ d ∈ cs, d ≠ [] := fun d hd => hne d (List.mem_cons_of_mem c hd)
    rw [loopReports_cons, not_or] at hrep
    obtain ⟨hfails, hrest⟩ := hrep
    obtain ⟨hconn, hsend⟩ := not_or.1 (mt ChunkFault.fails_iff.2 hfails)
    rw [appended, if_neg hconn, if_neg hsend, allLand_cons, List.flatten_cons]
    cases hout : (faults 0).outcome with
    | lost =>
      refine ⟨fun h => absurd (List.append_eq_nil_iff.1 h.symm).1 hc, fun h => absurd hout h.1.arrives⟩
    | late =>
      -- nothing is added behind this chunk, so it has to be the last
      dsimp only
      rw [← List.append_nil ((faults 0).piece c), (faults 0).piece_append_eq_iff hc (Nat.zero_le _)]
      constructor
      · rintro ⟨⟨hopen, hwhole⟩, hnil⟩
        have hcs0 : cs = [] := List.eq_nil_iff_forall_not_mem.2 fun d hd =>
          hcs d hd (List.flatten_eq_nil_iff.1 hnil.symm d hd)
        subst hcs0
        exact ⟨⟨by simp [hout], hopen, hwhole⟩, by simp, fun k hk => absurd hk (Nat.not_lt_zero k)⟩
      · rintro ⟨hland, hnext, -⟩
        have hcs0 : cs = [] := by
          by_contra h
          exact absurd (hnext h) (by simp)
        subst hcs0
        exact ⟨⟨hland.opens, hland.whole⟩, rfl⟩
    | answered =>
      have hrest' : ¬ LoopReports (fun k => faults (k + 1)) false cs := fun h => hrest ⟨hout, h⟩
      have hle := length_appended_le cs (fun k => faults (k + 1)) false
      dsimp only
      rw [← ih hcs _ false hrest', (faults 0).piece_append_eq_iff hc hle]
      constructor
      · rintro ⟨⟨hopen, hwhole⟩, happ⟩
        exact ⟨⟨by simp [hout], hopen, hwhole⟩, fun _ => rfl, happ⟩
      · rintro ⟨hland, -, happ⟩
        exact ⟨⟨hland.opens, hland.whole⟩, happ⟩

/-! ## The start request -/

section Start

variable {a : Attempt}

/-- a uint8_t is never negative: no failed start stops the client -/
theorem start_not_neg (a : Attempt) : ¬ (startTransferBakFile a).2.1 < 0 := by
  unfold startTransferBakFile
  split_ifs
  · cases a.start.outcome <;> exact not_natCast_neg _
  · exact not_natCast_neg _

theorem transBakFile_ok (hdir : a.start.dirOk = true) (hopen : a.start.openOk = true) :
    a.server.transBakFile a.storePath a.start.dirOk a.start.openOk a.serverJunk =
      ({ a.server with files := overwrite a.server.files a.path [] }.insertStream a.storePath, uint8 0,
        a.server.idx) := by
  have hnone : a.server.files (resolve a.storePath) = none := a.no_copy
  simp [Server.transBakFile, hdir, hopen, hnone, Attempt.path]

theorem transBakFile_fails (h : ¬ (a.start.dirOk = true ∧ a.start.openOk = true)) :
    (a.server.transBakFile a.storePath a.start.dirOk a.start.openOk a.serverJunk).1 = a.server := by
  have hnone : a.server.files (resolve a.storePath) = none := a.no_copy
  unfold Server.transBakFile
  rw [hnone]
  split_ifs with hdir hopen
  · exact absurd ⟨hdir, hopen⟩ h
  · rfl
  · rfl

theorem start_created (h : a.Created) :
    (startTransferBakFile a).1 =
        { a.server with files := overwrite a.server.files a.path [] }.insertStream a.storePath ∧
      (startTransferBakFile a).2.2 = a.streamId := by
  rw [startTransferBakFile, if_pos h.connect, transBakFile_ok h.dir h.opens, Attempt.streamId]
  cases hout : a.start.outcome with
  | lost => exact absurd hout h.arrives
  | late => exact ⟨rfl, by simp⟩
  | answered => exact ⟨rfl, by simp⟩

theorem start_not_created (h : ¬ a.Created) : (startTransferBakFile a).1.files a.path = none := by
  have hnone : a.server.files a.path = none := a.no_copy
  unfold startTransferBakFile
  split_ifs with hconn
  · by_cases hout : a.start.outcome = .lost
    · rw [hout]
      exact hnone
    · have hfail := transBakFile_fails (a := a) fun hok => h ⟨hconn, hout, hok.1, hok.2⟩
      cases a.start.outcome with
      | lost => exact hnone
      | late => exact (congrFun (congrArg Server.files hfail) _).trans hnone
      | answered => exact (congrFun (congrArg Server.files hfail) _).trans hnone
  · exact hnone

/-- the stream the client goes on with is open for the file -/
theorem insertStream_openFor_iff {files : Files} :
    ({ a.server with files := files }.insertStream a.storePath).OpenFor a.streamId a.path ↔ a.RightStream := by
  simp only [Server.insertStream, Attempt.RightStream, Server.OpenFor, Attempt.path]
  by_cases hfree : a.server.queue a.server.idx = none
  · rw [if_pos hfree]
    by_cases hid : a.streamId = a.server.idx
    · simp [hid, hfree]
    · simp [hid]
  · rw [if_neg hfree]
    refine ⟨Or.inr, ?_⟩
    rintro (⟨hid, hnone⟩ | hq)
    · exact absurd (hid ▸ hnone) hfree
    · exact hq

end Start

/-! ## The attempt -/

section Attempt

variable {a : Attempt}

theorem doing_neg_iff (id : ℕ) (sv : Server) : (doingTransBakFile a id sv).2 < 0 ↔
    a.sourceOpen = false ∨ (a.chunks 0).connect = false ∨ LoopReports a.chunks true a.blocks := by
  rw [doingTransBakFile, ← sendChunks_neg_iff id a.blocks a.chunks true sv]
  cases a.sourceOpen with
  | false => simp
  | true => cases (a.chunks 0).connect <;> simp

theorem finish_neg_iff (id : ℕ) (sv : Server) : (finishTransBakFile a id sv).2 < 0 ↔
    a.finish.connect = false ∨ a.finish.outcome ≠ .answered := by
  unfold finishTransBakFile
  cases a.finish.connect with
  | false => simp
  | true => cases a.finish.outcome <;> simp [not_natCast_neg]

theorem finish_files (id : ℕ) (sv : Server) : (finishTransBakFile a id sv).1.files = sv.files := by
  unfold finishTransBakFile
  cases a.finish.connect with
  | false => rfl
  | true => cases a.finish.outcome <;> simp [not_natCast_neg, Server.finishBakFile_files]

/-- a file is marked exactly if no failure is reported -/
theorem marked_iff (a : Attempt) : (backupClientStart a).2 = (0, true) ↔ ¬ Reported a := by
  have hassoc : Reported a ↔
      (a.sourceOpen = false ∨ (a.chunks 0).connect = false ∨ LoopReports a.chunks true a.blocks) ∨
        (a.finish.connect = false ∨ a.finish.outcome ≠ .answered) := by
    simp only [Reported, or_assoc]
  simp only [backupClientStart, if_neg (start_not_neg a)]
  split_ifs with hdoing hfinish
  · rw [doing_neg_iff] at hdoing
    exact iff_of_false (by simp) (not_not_intro (hassoc.2 (Or.inl hdoing)))
  · rw [finish_neg_iff] at hfinish
    exact iff_of_false (by simp) (not_not_intro (hassoc.2 (Or.inr hfinish)))
  · rw [doing_neg_iff] at hdoing
    rw [finish_neg_iff] at hfinish
    exact iff_of_true rfl fun h => (hassoc.1 h).elim hdoing hfinish

/-- a marked file is what the loop made of it -/
theorem marked_files (h : ¬ Reported a) : (backupClientStart a).1.files =
    (sendChunks (startTransferBakFile a).2.2 a.chunks true a.blocks (startTransferBakFile a).1).1.files := by
  simp only [Reported, not_or, Bool.not_eq_false] at h
  obtain ⟨hopen, hconn, hloop, hfin⟩ := h
  have hdoing : doingTransBakFile a (startTransferBakFile a).2.2 (startTransferBakFile a).1 =
      sendChunks (startTransferBakFile a).2.2 a.chunks true a.blocks (startTransferBakFile a).1 := by
    simp [doingTransBakFile, hopen, hconn]
  have hnd := mt (doing_neg_iff (a := a) (startTransferBakFile a).2.2 (startTransferBakFile a).1).1 (by simp [*])
  simp only [backupClientStart, if_neg (start_not_neg a), if_neg hnd]
  split_ifs <;> rw [finish_files, hdoing]

/-- the copy is the source exactly if everything was delivered -/
theorem copy_iff (h : ¬ Reported a) :
    (backupClientStart a).1.files a.path = some a.source ↔ Delivered a := by
  rw [marked_files h]
  by_cases hcr : a.Created
  · obtain ⟨hserver, hid⟩ := start_created hcr
    have hempty : (startTransferBakFile a).1.files a.path = some [] := by
      rw [hserver]
      exact overwrite_same fun old hold => absurd (hold.symm.trans a.no_copy) (by simp)
    by_cases hstream : a.RightStream
    · have hq : (startTransferBakFile a).1.OpenFor (startTransferBakFile a).2.2 a.path := by
        rw [hserver, hid]
        exact insertStream_openFor_iff.2 hstream
      have hloop : ¬ LoopReports a.chunks true a.blocks := fun hl => h (Or.inr (Or.inr (Or.inl hl)))
      rw [sendChunks_named a.path_ne_nil _ _ _ _ _ hq hempty, List.nil_append, Option.some_inj, ← a.blocks_flatten,
        appended_eq_iff _ a.blocks_ne_nil _ _ hloop]
      exact ⟨fun hl => ⟨hcr, fun _ => hstream, hl⟩, fun hd => hd.chunks⟩
    · have hq : ¬ (startTransferBakFile a).1.OpenFor (startTransferBakFile a).2.2 a.path := by
        rw [hserver, hid]
        exact mt insertStream_openFor_iff.1 hstream
      rw [sendChunks_other a.path_ne_nil _ _ _ _ hq, hempty, Option.some_inj]
      -- no chunk reaches the file, so only an empty source is copied
      constructor
      · intro hsrc
        have hblocks : a.blocks = [] := by rw [Attempt.blocks, ← hsrc]; rfl
        refine ⟨hcr, fun hne => absurd hsrc.symm hne, fun k hk => ?_⟩
        rw [hblocks] at hk
        exact absurd hk (Nat.not_lt_zero k)
      · intro hd
        by_contra hne
        exact hstream (hd.stream fun hs => hne hs.symm)
  · rw [sendChunks_none _ _ _ _ (start_not_created hcr)]
    exact iff_of_false (by simp) fun hd => hcr hd.created

end Attempt

/-- **A recording marked as backed up is a copy of the source exactly if the failure was one that is reported, or
nothing was lost**: the file was created, the client knew its stream, and every chunk landed. -/
theorem backup_sound_iff (a : Attempt) : BackedUp a ↔ Reported a ∨ Delivered a := by
  rw [BackedUp, marked_iff]
  constructor
  · intro h
    by_cases hr : Reported a
    · exact Or.inl hr
    · exact Or.inr ((copy_iff hr).1 (h hr))
  · rintro (hr | hd) hn
    · exact absurd hr hn
    · exact (copy_iff hn).2 hd

/-- the connection for the start request is refused; everything after that goes well -/
def refusedStart : Attempt where
  server := ⟨fun _ => none, fun _ => none, 0⟩
  backupPath := "/backup/".toList
  bakId := "cam".toList
  bakName := "a.store".toList
  source := [1]
  sourceOpen := true
  mss := 1448
  start := ⟨false, .answered, true, true⟩
  chunks := fun _ => ⟨true, true, .answered, true, some 1⟩
  finish := ⟨true, .answered⟩
  clientJunk := 0
  serverJunk := 0
  mss_pos := by decide
  name_ne := by decide
  no_copy := rfl

/-- nothing was sent to a file, and the recording is marked as backed up -/
theorem refused_start : (backupClientStart refusedStart).2 = (0, true) ∧
    (backupClientStart refusedStart).1.files refusedStart.path = none ∧ ¬ BackedUp refusedStart := by
  have hmarked : (backupClientStart refusedStart).2 = (0, true) := by decide +kernel
  have hfile : (backupClientStart refusedStart).1.files refusedStart.path = none := by decide +kernel
  refine ⟨hmarked, hfile, fun h => ?_⟩
  exact absurd (hfile.symm.trans (h hmarked)) (by simp)

end StoreService.Backup
