/-
Repeated backups of one file (`backup.cpp`), when no step fails.

`TransBakFile` leaves a file that is already there as it is, and `DoingRecvBakFile` writes every chunk at the end of the
file. What a complete exchange leaves thus depends on what an earlier one, complete or not, has left.

- `backupClientStart_good`: an exchange is `BackupClientStart` when nothing fails in it.
- `exchanges_append`: each exchange on the right stream appends the source to the file; one whose stream number is taken
  by a stream for another file leaves it alone.
- `repeat_iff`: the file is a copy after some exchanges exactly if one of them wrote it and it was absent or empty, or
  the source is empty and it was absent or empty, or none of them wrote it and it was a copy already.
- `repeat_doubles`: two backups of one file, and one after an attempt that stopped midway.

A stream number is taken again only when `bakStreamIdx` has wrapped around.
-/
import StoreService.Backup.Transfer

namespace StoreService.Backup

open StoreService.FileSys

/-- a file to back up -/
structure Job where
  backupPath : List Char
  bakId : List Char
  bakName : List Char
  source : List UInt8
  /-- a file has a name -/
  name_ne : resolve bakName ≠ []

namespace Job

/-- `store_path` on the server -/
def storePath (j : Job) : List Char := j.backupPath ++ j.bakId ++ '/' :: j.bakName

def path (j : Job) : List (List Char) := resolve j.storePath

/-- a chunk that is sent, written whole and answered -/
def goodChunk (size : ℕ) : ChunkFault := ⟨true, true, .answered, true, some size⟩

/-- the chunks of the file over connections with this TCP_MAXSEG -/
def blocks (j : Job) (mss : ℕ+) : List (List UInt8) := readBlocks (mss * 100 - 32) j.source.length j.source

/-- the complete exchange, `StartTransferBakFile`, `DoingTransBakFile` and `FinishTransBakFile`, when no step fails -/
def exchange (j : Job) (sv : Server) (mss : ℕ+) : Server :=
  let s := sv.transBakFile j.storePath true true 0
  let d := sendChunks s.2.2 (fun _ => goodChunk (mss * 100 - 32)) true (j.blocks mss) s.1
  (d.1.finishBakFile s.2.2).1

theorem path_ne_nil (j : Job) : j.path ≠ [] := by
  rw [path, storePath, resolve_append_slash]
  exact fun h => j.name_ne (List.append_eq_nil_iff.1 h).2

/-- the number of the next stream is free, or taken by a stream for the same file -/
def RightStream (j : Job) (sv : Server) : Prop := sv.queue sv.idx = none ∨ sv.OpenFor sv.idx j.path

instance (j : Job) (sv : Server) : Decidable (j.RightStream sv) :=
  inferInstanceAs (Decidable (_ = _ ∨ (_ = _)))

/-- the bytes in the file before an exchange; a file that is not there has none -/
def content (j : Job) (sv : Server) : List UInt8 := (sv.files j.path).getD []

end Job

namespace Job

variable {j : Job} {sv : Server} {mss : ℕ+}

/-! ## One exchange -/

theorem readBlocks_length_le {n : ℕ} (fuel : ℕ) (src : List UInt8) : ∀ c ∈ readBlocks n fuel src, c.length ≤ n := by
  induction fuel generalizing src with
  | zero => nofun
  | succ fuel ih =>
    intro c hc
    rw [readBlocks] at hc
    split_ifs at hc
    · cases hc
    · rcases List.mem_cons.1 hc with rfl | hc
      · exact List.length_take_le n src
      · exact ih _ c hc

/-- the start request makes sure the file is there -/
theorem start_spec (j : Job) (sv : Server) :
    (sv.transBakFile j.storePath true true 0).2.2 = sv.idx ∧
      (sv.transBakFile j.storePath true true 0).1.files j.path = some (j.content sv) ∧
      (sv.transBakFile j.storePath true true 0).1.queue = (sv.insertStream j.storePath).queue := by
  rw [content, Server.transBakFile, if_pos rfl, ← path]
  cases hf : sv.files j.path with
  | none =>
    refine ⟨rfl, overwrite_same ?_, rfl⟩
    intro old hold
    cases hf.symm.trans hold
  | some old => exact ⟨rfl, hf, rfl⟩

theorem start_openFor (j : Job) (sv : Server) :
    (sv.transBakFile j.storePath true true 0).1.OpenFor sv.idx j.path ↔ j.RightStream sv := by
  rw [Server.OpenFor, (start_spec j sv).2.2, Server.insertStream, RightStream]
  cases hq : sv.queue sv.idx with
  | none => simp [path]
  | some q => simp [Server.OpenFor, hq]

/-- chunks that never fail are not reported as failed -/
theorem not_loopReports (size : ℕ) (sock : Bool) (cs : List (List UInt8)) :
    ¬ LoopReports (fun _ => goodChunk size) sock cs := by
  rintro ⟨k, -, -, ⟨-, hconnect⟩ | hsend⟩
  · cases hconnect
  · cases hsend

theorem chunkSize_pos (mss : ℕ+) : 0 < (mss : ℕ) * 100 - 32 := by
  have hpos := mss.pos
  omega

/-- the loop appends the whole file -/
theorem appended_good (j : Job) (mss : ℕ+) :
    appended (fun _ => goodChunk (mss * 100 - 32)) true (j.blocks mss) = j.source := by
  have hpos := chunkSize_pos mss
  have hland : AllLand (fun _ => goodChunk (mss * 100 - 32)) (j.blocks mss) := fun k hk =>
    ⟨⟨nofun, rfl, _, rfl, readBlocks_length_le _ _ _ (List.getElem_mem hk)⟩, fun _ => rfl⟩
  calc appended (fun _ => goodChunk (mss * 100 - 32)) true (j.blocks mss) = (j.blocks mss).flatten :=
        (appended_eq_iff _ (readBlocks_ne_nil hpos _ _) _ _ (not_loopReports _ _ _)).2 hland
    _ = j.source := readBlocks_flatten hpos _ _ le_rfl

/-- **One exchange**: the file is there, and on the right stream the source was appended -/
theorem exchange_files (j : Job) (sv : Server) (mss : ℕ+) :
    (j.exchange sv mss).files j.path =
      some (if j.RightStream sv then j.content sv ++ j.source else j.content sv) := by
  obtain ⟨hid, hfile, -⟩ := start_spec j sv
  rw [exchange, hid, Server.finishBakFile_files]
  split_ifs with hright
  · rw [sendChunks_named j.path_ne_nil _ _ _ _ _ ((start_openFor j sv).2 hright) hfile, appended_good]
  · rw [sendChunks_other j.path_ne_nil _ _ _ _ (mt (start_openFor j sv).1 hright), hfile]

/-- `BackupClientStart`, when nothing fails in it, is an exchange and marks the file as backed up -/
theorem backupClientStart_good (a : Attempt) (mss : ℕ+) (hmss : a.mss = mss) (hsource : a.sourceOpen = true)
    (hstart : a.start = ⟨true, .answered, true, true⟩) (hchunks : a.chunks = fun _ => goodChunk (mss * 100 - 32))
    (hfinish : a.finish = ⟨true, .answered⟩) :
    backupClientStart a =
      (exchange ⟨a.backupPath, a.bakId, a.bakName, a.source, a.name_ne⟩ a.server mss, 0, true) := by
  set j : Job := ⟨a.backupPath, a.bakId, a.bakName, a.source, a.name_ne⟩
  have hs : a.server.transBakFile a.storePath true true a.serverJunk =
      a.server.transBakFile j.storePath true true 0 := by
    rw [Server.transBakFile, Server.transBakFile]
    rfl
  have hblocks : a.blocks = j.blocks mss := by rw [Attempt.blocks, Attempt.chunkSize, hmss]; rfl
  have hloop := mt (sendChunks_neg_iff (a.server.transBakFile j.storePath true true 0).2.2 (j.blocks mss)
    (fun _ => goodChunk (mss * 100 - 32)) true (a.server.transBakFile j.storePath true true 0).1).1
      (not_loopReports _ _ _)
  have hconnect : (goodChunk (mss * 100 - 32)).connect = true := rfl
  simp only [backupClientStart, startTransferBakFile, doingTransBakFile, finishTransBakFile, hstart, hsource, hchunks,
    hfinish, hs, hblocks, hconnect, if_true, not_natCast_neg, if_false, Bool.not_true, Bool.false_eq_true, hloop,
    exchange, lt_irrefl]

/-! ## Repeated exchanges -/

/-- how many of the exchanges write the file -/
def landings (j : Job) : Server → List ℕ+ → ℕ
  | _, [] => 0
  | sv, mss :: runs => (if j.RightStream sv then 1 else 0) + landings j (j.exchange sv mss) runs

theorem exchanges_append (j : Job) (sv : Server) (runs : List ℕ+) :
    j.content (runs.foldl j.exchange sv) = j.content sv ++ (List.replicate (j.landings sv runs) j.source).flatten := by
  induction runs generalizing sv with
  | nil => simp [landings]
  | cons mss runs ih =>
    have hcontent : j.content (j.exchange sv mss) =
        if j.RightStream sv then j.content sv ++ j.source else j.content sv := by
      rw [content, exchange_files, Option.getD_some]
    rw [List.foldl_cons, ih, hcontent, landings]
    split_ifs
    · rw [add_comm 1, List.replicate_succ, List.flatten_cons, List.append_assoc]
    · rw [zero_add]

/-- after an exchange the file is there -/
theorem exchanges_exist (j : Job) (sv : Server) {runs : List ℕ+} (h : runs ≠ []) :
    (runs.foldl j.exchange sv).files j.path = some (j.content (runs.foldl j.exchange sv)) := by
  -- the last exchange decides
  rw [← List.dropLast_append_getLast h, List.foldl_append, List.foldl_cons, List.foldl_nil, content, exchange_files,
    Option.getD_some]

/-- some bytes and copies of the source behind them are the source -/
theorem append_copies_eq_iff (old source : List UInt8) (m : ℕ) :
    old ++ (List.replicate m source).flatten = source ↔
      (m = 1 ∧ old = []) ∨ (source = [] ∧ old = []) ∨ (m = 0 ∧ old = source) := by
  constructor
  · intro h
    have hlen : old.length + m * source.length = source.length := by simpa using congrArg List.length h
    match m with
    | 0 => exact Or.inr (Or.inr ⟨rfl, by simpa using h⟩)
    | 1 =>
      have hold : old.length = 0 := by omega
      exact Or.inl ⟨rfl, List.length_eq_zero_iff.1 hold⟩
    | m + 2 =>
      have hold : old.length = 0 ∧ source.length = 0 := by
        rw [Nat.add_mul] at hlen
        omega
      exact Or.inr (Or.inl ⟨List.length_eq_zero_iff.1 hold.2, List.length_eq_zero_iff.1 hold.1⟩)
  · rintro (⟨rfl, rfl⟩ | ⟨rfl, rfl⟩ | ⟨rfl, rfl⟩) <;> simp

end Job

open Job in
/-- **Repeating a backup** leaves a copy of the source, for any file, any server and any number of exchanges, exactly if
one of the exchanges writes the file and the file was absent or empty, or there is nothing to write and it was absent or
empty, or none of the exchanges writes the file and it was a copy already. -/
theorem repeat_iff (j : Job) (sv : Server) (runs : List ℕ+) (h : runs ≠ []) :
    (runs.foldl j.exchange sv).files j.path = some j.source ↔
      (j.landings sv runs = 1 ∧ j.content sv = []) ∨ (j.source = [] ∧ j.content sv = []) ∨
        (j.landings sv runs = 0 ∧ j.content sv = j.source) := by
  rw [exchanges_exist j sv h, Option.some.injEq, exchanges_append, append_copies_eq_iff]

/-- two bytes, and no stream open -/
def smallJob : Job := ⟨"/bak/".toList, "1-1".toList, "2020.store".toList, [1, 2], by decide⟩

/-- a server with this content of the backup file -/
def smallServer (old : Option (List UInt8)) : Server :=
  ⟨fun p => if p = smallJob.path then old else none, fun _ => none, 0⟩

/-- one backup of a file that is not there yet -/
theorem repeat_iff_once : ([1460].foldl smallJob.exchange (smallServer none)).files smallJob.path = some [1, 2] :=
  (repeat_iff smallJob (smallServer none) [1460] (by decide)).2 (Or.inl (by decide))

/-- **The copy doubles**: two complete exchanges, and one after an attempt that stopped behind the first byte. -/
theorem repeat_doubles :
    ([1460, 1460].foldl smallJob.exchange (smallServer none)).files smallJob.path = some [1, 2, 1, 2] ∧
    ([1460].foldl smallJob.exchange (smallServer (some [1]))).files smallJob.path = some [1, 1, 2] := by
  decide

end StoreService.Backup
