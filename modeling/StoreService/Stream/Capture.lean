/-
The capture thread of a stream (`StreamProc` in `stream.cpp`) and the requests that stop it.

The thread connects, opens the stream by seven calls that may each fail, and reads packets; those of the video stream go
to the callback. A loop over the streams of the connection finds it; `video_idx` outlives the connection, so a
connection without video leaves the index of an earlier one, and `streams[video_idx]` may be read behind the end of the
streams. A stop request is a write of thread_stopping by another thread (`StopStreamThread`, `DeleteStream`). The thread
looks at `thread_state` in three places: before the callback, where it sets `isStreamStop` for this last call, after
each packet, and after the connection is closed. The call with `isStreamStop` set makes `WriteFrameToBuf` write the
buffer out.

The machine has a step for every place between two of which a request can land, and the results of grpcClientStart, of
the calls and of av_read_frame and the streams of a connection are chosen by the environment. A read behind the streams
has no next step. `sys_flag` stays 1.

- `step_does`: what a step does, branch by branch (`Does`). Invariants of the thread are case analyses of it.
- `capture_flushes`: if a request lands only where the test before the callback is the next one to see it, and while it
  is pending the calls succeed and the next packet is video (`Flushable`), then a thread that has passed a frame on and
  has stopped made exactly one call with `isStreamStop` set.
- `stop_after_callback`: a request between the callback and the test after it. The thread stops and the last buffer is
  never written out.
-/
import StoreService.Stream.Threads

namespace StoreService.Stream

open StoreService.Runs

/-! ## The thread -/

/-- what opens a stream: calls that may each fail, and the loop over the streams -/
inductive OpenCall where
  | allocContext
  | openInput
  | findStreamInfo
  /-- the loop -/
  | findVideo
  | findDecoder
  | allocContext3
  | codecOpen2
  | frameRate
deriving DecidableEq, Repr

def openCalls : List OpenCall :=
  [.allocContext, .openInput, .findStreamInfo, .findVideo, .findDecoder, .allocContext3, .codecOpen2, .frameRate]

/-- it reads `pFmtCtx->streams[video_idx]` -/
def OpenCall.reads : OpenCall → Bool
  | .findDecoder | .frameRate => true
  | _ => false

/-- the loop over the streams: `video_idx` after it, with a mark at each video stream -/
def findVideo (videoIdx : Option ℕ) (streams : List Bool) : Option ℕ :=
  streams.zipIdx.foldl (fun idx p => if p.1 then some p.2 else idx) videoIdx

theorem findVideo_append (idx : Option ℕ) (streams : List Bool) (v : Bool) :
    findVideo idx (streams ++ [v]) = if v then some streams.length else findVideo idx streams := by
  rw [findVideo, List.zipIdx_append, List.foldl_append]
  simp [findVideo]

/-- without a video stream the index stays -/
theorem findVideo_none {streams : List Bool} (h : true ∉ streams) (idx : Option ℕ) : findVideo idx streams = idx := by
  induction streams using List.reverseRecOn with
  | nil => rfl
  | append_singleton streams v ih =>
    rw [List.mem_append, not_or, List.mem_singleton] at h
    rw [findVideo_append, if_neg (fun hv => h.2 hv.symm), ih h.1]

/-- with one it is that of a stream -/
theorem findVideo_some {streams : List Bool} (h : true ∈ streams) (idx : Option ℕ) :
    ∃ k < streams.length, findVideo idx streams = some k := by
  induction streams using List.reverseRecOn with
  | nil => exact absurd h List.not_mem_nil
  | append_singleton streams v ih =>
    rw [findVideo_append, List.length_append, List.length_singleton]
    cases v with
    | true => exact ⟨streams.length, Nat.lt_succ_self _, if_pos rfl⟩
    | false =>
      obtain ⟨k, hk, hfind⟩ := ih (by simpa using h)
      exact ⟨k, Nat.lt_succ_of_lt hk, hfind⟩

theorem findVideo_keeps {idx : Option ℕ} (h : idx.isSome) (streams : List Bool) : (findVideo idx streams).isSome := by
  by_cases hv : true ∈ streams
  · obtain ⟨k, -, hfind⟩ := findVideo_some hv idx
    rw [hfind]
    rfl
  · rwa [findVideo_none hv]

/-- a packet of the stream `video_idx`, or of another one -/
inductive Packet where
  | video
  | other
deriving DecidableEq, Repr

/-- where the thread is: what it does next -/
inductive Pc where
  /-- before it sets thread_running -/
  | start
  /-- grpcClientStart -/
  | connect
  | opening (todo : List OpenCall)
  /-- av_read_frame -/
  | read
  /-- the test before the callback -/
  | test
  | callback
  /-- the test after a packet -/
  | unref
  /-- the connection is closed, and the test after that -/
  | close
  | sleep
  /-- before it sets thread_stopped -/
  | leave
  | done
deriving DecidableEq, Repr

/-- past the loop over the streams -/
def Pc.tuned : Pc → Bool
  | .opening todo => .findVideo ∉ todo
  | .read | .test | .callback | .unref => true
  | _ => false

structure Capture where
  pc : Pc
  threadState : ThreadState
  /-- `video_idx`; `none` is -1 -/
  videoIdx : Option ℕ
  /-- `pFmtCtx->streams`: which of them are video -/
  streams : List Bool
  isStreamStop : Bool
  /-- calls of `stream_cb` -/
  passed : ℕ
  /-- those with `isStreamStop` set -/
  flushes : ℕ
  /-- a `DeleteStream` waits -/
  deleting : Bool
deriving DecidableEq, Repr

inductive Act where
  /-- the thread goes on -/
  | go
  /-- grpcClientStart returns no url, or one whose connection has these streams -/
  | url (found : Option (List Bool))
  | call (ok : Bool)
  /-- av_read_frame; `none` if it fails -/
  | packet (p : Option Packet)
  /-- `StopStreamThread` -/
  | stop
  /-- `DeleteStream`, up to its wait -/
  | delete
  /-- `DeleteStream` after its wait -/
  | cancel
deriving DecidableEq, Repr

namespace Capture

/-- as `StartStreamThread` leaves it -/
def spawned : Capture := ⟨.start, .creating, none, [], false, 0, 0, false⟩

/-- `video_idx` is the index of a stream -/
def reaches (s : Capture) : Bool := s.videoIdx.any (· < s.streams.length)

/-- a step of the thread that depends on nothing outside -/
def go (s : Capture) : Option Capture :=
  match s.pc with
  | .start => some { s with pc := .connect, threadState := .running }
  | .opening [] => some { s with pc := .read }
  | .opening (.findVideo :: todo) => some { s with
      pc := if findVideo s.videoIdx s.streams = none then .close else .opening todo
      videoIdx := findVideo s.videoIdx s.streams }
  | .test => some { s with pc := .callback, isStreamStop := s.isStreamStop || s.threadState = .stopping }
  | .callback => some { s with pc := .unref, passed := s.passed + 1, flushes := s.flushes + s.isStreamStop.toNat }
  | .unref => some { s with pc := if s.threadState = .stopping then .close else .read }
  | .close => some { s with pc := if s.threadState = .stopping then .leave else .sleep }
  | .sleep => some { s with pc := .connect }
  | .leave => some { s with pc := .done, threadState := .stopped }
  | _ => none

def step (s : Capture) : Act → Option Capture
  | .go => s.go
  | .url found =>
    if s.pc = .connect then
      match found with
      | some streams => some { s with pc := .opening openCalls, streams := streams }
      | none => some s
    else none
  | .call ok =>
    match s.pc with
    | .opening (c :: todo) =>
      -- the loop is no call, and a read behind the streams has no result
      if c = .findVideo ∨ c.reads ∧ ¬ s.reaches then none
      else some { s with pc := if ok then .opening todo else .close }
    | _ => none
  | .packet p =>
    if s.pc = .read then
      match p with
      | some .video => some { s with pc := .test }
      | some .other => some { s with pc := .unref }
      | none => some { s with pc := .close }
    else none
  | .stop => some { s with threadState := if s.threadState = .running then .stopping else s.threadState }
  | .delete =>
    if s.deleting then none
    else if s.threadState = .cancel then some s
    else some { s with threadState := if s.threadState ≠ .stopped then .stopping else .stopped, deleting := true }
  | .cancel =>
    if s.deleting ∧ s.threadState ≠ .stopping then some { s with threadState := .cancel, deleting := false } else none

/-! ## What a step does -/

/-- the steps of the thread and of those who stop it, one for each branch -/
inductive Does (s : Capture) : Act → Capture → Prop
  | start (hpc : s.pc = .start) : Does s .go { s with pc := .connect, threadState := .running }
  | opened (hpc : s.pc = .opening []) : Does s .go { s with pc := .read }
  | noVideo {todo : List OpenCall} (hpc : s.pc = .opening (.findVideo :: todo))
      (hnone : findVideo s.videoIdx s.streams = none) :
      Does s .go { s with pc := .close, videoIdx := findVideo s.videoIdx s.streams }
  | video {todo : List OpenCall} (hpc : s.pc = .opening (.findVideo :: todo))
      (hsome : findVideo s.videoIdx s.streams ≠ none) :
      Does s .go { s with pc := .opening todo, videoIdx := findVideo s.videoIdx s.streams }
  | test (hpc : s.pc = .test) :
      Does s .go { s with pc := .callback, isStreamStop := s.isStreamStop || s.threadState = .stopping }
  | callback (hpc : s.pc = .callback) :
      Does s .go { s with pc := .unref, passed := s.passed + 1, flushes := s.flushes + s.isStreamStop.toNat }
  | lastPacket (hpc : s.pc = .unref) (hs : s.threadState = .stopping) : Does s .go { s with pc := .close }
  | nextPacket (hpc : s.pc = .unref) (hs : s.threadState ≠ .stopping) : Does s .go { s with pc := .read }
  | ended (hpc : s.pc = .close) (hs : s.threadState = .stopping) : Does s .go { s with pc := .leave }
  | again (hpc : s.pc = .close) (hs : s.threadState ≠ .stopping) : Does s .go { s with pc := .sleep }
  | sleep (hpc : s.pc = .sleep) : Does s .go { s with pc := .connect }
  | leave (hpc : s.pc = .leave) : Does s .go { s with pc := .done, threadState := .stopped }
  | offline (hpc : s.pc = .connect) : Does s (.url none) s
  | online (hpc : s.pc = .connect) (streams : List Bool) :
      Does s (.url (some streams)) { s with pc := .opening openCalls, streams := streams }
  | called {c : OpenCall} {todo : List OpenCall} (hpc : s.pc = .opening (c :: todo)) (hc : c ≠ .findVideo)
      (hreads : c.reads → s.reaches) : Does s (.call true) { s with pc := .opening todo }
  | failed {c : OpenCall} {todo : List OpenCall} (hpc : s.pc = .opening (c :: todo)) (hc : c ≠ .findVideo)
      (hreads : c.reads → s.reaches) : Does s (.call false) { s with pc := .close }
  | frame (hpc : s.pc = .read) : Does s (.packet (some .video)) { s with pc := .test }
  | other (hpc : s.pc = .read) : Does s (.packet (some .other)) { s with pc := .unref }
  | lost (hpc : s.pc = .read) : Does s (.packet none) { s with pc := .close }
  | stop (hs : s.threadState = .running) : Does s .stop { s with threadState := .stopping }
  | stopIdle (hs : s.threadState ≠ .running) : Does s .stop s
  | delete (hc : s.threadState ≠ .cancel) (hs : s.threadState ≠ .stopped) (hd : s.deleting = false) :
      Does s .delete { s with threadState := .stopping, deleting := true }
  | deleteStopped (hs : s.threadState = .stopped) (hd : s.deleting = false) :
      Does s .delete { s with threadState := .stopped, deleting := true }
  | deleteCancelled (hc : s.threadState = .cancel) (hd : s.deleting = false) : Does s .delete s
  | cancel (hs : s.threadState ≠ .stopping) (hd : s.deleting = true) :
      Does s .cancel { s with threadState := .cancel, deleting := false }

variable {s t : Capture}

theorem go_does (ht : s.go = some t) : s.Does .go t := by
  unfold go at ht
  split at ht
  · rename_i hpc
    exact Option.some.inj ht ▸ .start hpc
  · rename_i hpc
    exact Option.some.inj ht ▸ .opened hpc
  · rename_i todo hpc
    obtain rfl := Option.some.inj ht
    by_cases hnone : findVideo s.videoIdx s.streams = none
    · simp only [if_pos hnone]
      exact .noVideo hpc hnone
    · simp only [if_neg hnone]
      exact .video hpc hnone
  · rename_i hpc
    exact Option.some.inj ht ▸ .test hpc
  · rename_i hpc
    exact Option.some.inj ht ▸ .callback hpc
  · rename_i hpc
    obtain rfl := Option.some.inj ht
    by_cases hs : s.threadState = .stopping
    · simp only [if_pos hs]
      exact .lastPacket hpc hs
    · simp only [if_neg hs]
      exact .nextPacket hpc hs
  · rename_i hpc
    obtain rfl := Option.some.inj ht
    by_cases hs : s.threadState = .stopping
    · simp only [if_pos hs]
      exact .ended hpc hs
    · simp only [if_neg hs]
      exact .again hpc hs
  · rename_i hpc
    exact Option.some.inj ht ▸ .sleep hpc
  · rename_i hpc
    exact Option.some.inj ht ▸ .leave hpc
  · cases ht

theorem step_does {a : Act} (ht : s.step a = some t) : s.Does a t := by
  cases a with
  | go => exact go_does ht
  | url found =>
    obtain ⟨hpc, ht⟩ := Option.ite_none_right_eq_some.1 ht
    cases found with
    | none => exact Option.some.inj ht ▸ .offline hpc
    | some streams => exact Option.some.inj ht ▸ .online hpc streams
  | call ok =>
    simp only [step] at ht
    split at ht
    · rename_i c todo hpc
      obtain ⟨hc, ht⟩ := Option.ite_none_left_eq_some.1 ht
      rw [not_or, not_and, not_not] at hc
      cases ok with
      | true => exact Option.some.inj ht ▸ .called hpc hc.1 hc.2
      | false => exact Option.some.inj ht ▸ .failed hpc hc.1 hc.2
    · cases ht
  | packet p =>
    obtain ⟨hpc, ht⟩ := Option.ite_none_right_eq_some.1 ht
    rcases p with - | - | -
    · exact Option.some.inj ht ▸ .lost hpc
    · exact Option.some.inj ht ▸ .frame hpc
    · exact Option.some.inj ht ▸ .other hpc
  | stop =>
    obtain rfl := Option.some.inj ht
    by_cases hs : s.threadState = .running
    · simp only [if_pos hs]
      exact .stop hs
    · simp only [if_neg hs]
      exact .stopIdle hs
  | delete =>
    obtain ⟨hd, ht⟩ := Option.ite_none_left_eq_some.1 ht
    rw [Bool.not_eq_true] at hd
    split_ifs at ht with hc hs
    · exact Option.some.inj ht ▸ .deleteCancelled hc hd
    · exact Option.some.inj ht ▸ .delete hc hs hd
    · exact Option.some.inj ht ▸ .deleteStopped (not_not.1 hs) hd
  | cancel =>
    obtain ⟨⟨hd, hs⟩, ht⟩ := Option.ite_none_right_eq_some.1 ht
    exact Option.some.inj ht ▸ .cancel hs hd

/-! ## When requests are seen in time -/

/-- the action is the write of thread_stopping -/
def Lands (s : Capture) : Act → Prop
  | .stop => s.threadState = .running
  | .delete => s.threadState ≠ .cancel ∧ s.threadState ≠ .stopped ∧ s.threadState ≠ .stopping
  | _ => False

/-- the test before the callback comes too late: the frame in hand has passed it, or one has been passed on and a later
test comes first -/
def Late (s : Capture) : Prop := s.pc = .callback ∨ 0 < s.passed ∧ (s.pc = .unref ∨ s.pc = .close)

/-- results that keep the thread from its next video packet -/
def Misses : Act → Prop
  | .call ok => ok = false
  | .packet p => p ≠ some .video
  | _ => False

/-- a request is not late, and while one is pending nothing keeps the thread from its next video packet -/
structure Flushable (s : Capture) (a : Act) : Prop where
  lands : s.Lands a → ¬ s.Late
  pending : s.threadState = .stopping → 0 < s.passed → ¬ Misses a

instance (s : Capture) : ∀ a, Decidable (s.Lands a)
  | .stop => inferInstanceAs (Decidable (_ = _))
  | .delete => inferInstanceAs (Decidable (_ ∧ _ ∧ _))
  | .go | .url _ | .call _ | .packet _ | .cancel => .isFalse id

instance (s : Capture) : Decidable s.Late := inferInstanceAs (Decidable (_ ∨ _ ∧ (_ ∨ _)))

instance : ∀ a, Decidable (Misses a)
  | .call _ => inferInstanceAs (Decidable (_ = _))
  | .packet _ => inferInstanceAs (Decidable (_ ≠ _))
  | .go | .url _ | .stop | .delete | .cancel => .isFalse id

instance (s : Capture) (a : Act) : Decidable (s.Flushable a) :=
  decidable_of_iff ((s.Lands a → ¬ s.Late) ∧ (s.threadState = .stopping → 0 < s.passed → ¬ Misses a))
    ⟨fun h => ⟨h.1, h.2⟩, fun h => ⟨h.lands, h.pending⟩⟩

/-! ## Invariants -/

/-- whoever reads packets or has passed one on has found a video stream -/
def Tuned (s : Capture) : Prop := 0 < s.passed ∨ s.pc.tuned = true → s.videoIdx.isSome

/-- no call with `isStreamStop` yet -/
def Quiet (s : Capture) : Prop := s.isStreamStop = false ∧ s.flushes = 0

/-- one call with `isStreamStop` -/
def Flushed (s : Capture) : Prop := s.isStreamStop = true ∧ s.flushes = 1

/-- a test that follows the callback finds a stop that was flushed, or none, or no frame to flush -/
def AtTest (s : Capture) : Prop :=
  s.Flushed ∧ s.threadState = .stopping ∨ s.Quiet ∧ (s.threadState = .stopping → s.passed = 0)

def FlushInv (s : Capture) : Prop :=
  match s.pc with
  | .callback => s.flushes = 0 ∧ (s.isStreamStop = true ↔ s.threadState = .stopping)
  | .unref | .close => s.AtTest
  | .leave | .done => s.Flushed ∨ s.Quiet ∧ s.passed = 0
  | _ => s.Quiet

namespace Tuned

theorem mono (h : s.Tuned) (hidx : t.videoIdx = s.videoIdx)
    (hnext : 0 < t.passed ∨ t.pc.tuned = true → 0 < s.passed ∨ s.pc.tuned = true) : t.Tuned := by
  intro ht
  rw [hidx]
  exact h (hnext ht)

theorem step {a : Act} (h : s.Tuned) (ht : s.step a = some t) : t.Tuned := by
  cases step_does ht with
  | noVideo hpc hnone =>
    -- the connection has no video, and there was none before
    rintro (hpassed | htuned)
    · exact findVideo_keeps (h (Or.inl hpassed)) s.streams
    · cases htuned
  | video hpc hsome => exact fun _ => Option.isSome_iff_ne_none.2 hsome
  | opened hpc | test hpc | callback hpc | lastPacket hpc | nextPacket hpc | frame hpc | other hpc | lost hpc =>
    exact h.mono rfl fun _ => Or.inr (by rw [hpc]; rfl)
  | start | ended | again | sleep | leave | online | failed =>
    refine h.mono rfl fun hx => hx.imp_right fun htuned => ?_
    cases htuned
  | @called c todo hpc hc =>
    refine h.mono rfl fun hx => hx.imp_right fun htuned => ?_
    have hnot : OpenCall.findVideo ∉ todo := of_decide_eq_true htuned
    rw [hpc]
    exact decide_eq_true (List.not_mem_cons_of_ne_of_not_mem (Ne.symm hc) hnot)
  | offline | stopIdle | deleteCancelled => exact h
  | stop | delete | deleteStopped | cancel => exact h.mono rfl id

end Tuned

theorem AtTest.quiet (h : s.AtTest) (hs : s.threadState ≠ .stopping) : s.Quiet := by
  rcases h with hf | hq
  · exact absurd hf.2 hs
  · exact hq.1

theorem AtTest.setState (h : s.AtTest) {ts : ThreadState} {b : Bool}
    (hkeep : s.threadState = .stopping → ts = .stopping)
    (hnew : ts = .stopping → s.threadState = .stopping ∨ s.passed = 0) :
    AtTest { s with threadState := ts, deleting := b } := by
  refine h.imp (fun hf => ⟨hf.1, hkeep hf.2⟩) fun hq => ⟨hq.1, fun hts => ?_⟩
  rcases hnew hts with hs | hp
  · exact hq.2 hs
  · exact hp

/-- a result that keeps the thread from its next video packet: no stop is pending, or there is no frame to flush -/
theorem Flushable.atTest {a : Act} (hf : s.Flushable a) (hm : Misses a) (hq : s.Quiet) : s.AtTest :=
  Or.inr ⟨hq, fun hs => Nat.eq_zero_of_not_pos fun hp => hf.pending hs hp hm⟩

namespace FlushInv

/-- another thread writes `thread_state`: a pending stop stays, and a new one is not late -/
theorem setState (h : FlushInv s) {ts : ThreadState} {b : Bool} (hkeep : s.threadState = .stopping → ts = .stopping)
    (hnew : ts = .stopping → s.threadState = .stopping ∨ ¬ s.Late) :
    FlushInv { s with threadState := ts, deleting := b } := by
  have hpass (hl : ts = .stopping) (hpc : s.pc = .unref ∨ s.pc = .close) : s.threadState = .stopping ∨ s.passed = 0 :=
    (hnew hl).imp_right fun hlate => Nat.eq_zero_of_not_pos fun hp => hlate (Or.inr ⟨hp, hpc⟩)
  simp only [FlushInv] at h ⊢
  cases hpc : s.pc with
  | callback =>
    simp only [hpc] at h ⊢
    refine ⟨h.1, fun hs => hkeep (h.2.1 hs), fun hts => ?_⟩
    rcases hnew hts with hs | hl
    · exact h.2.2 hs
    · exact absurd (Or.inl hpc) hl
  | unref =>
    simp only [hpc] at h ⊢
    exact h.setState (b := b) hkeep fun hts => hpass hts (Or.inl hpc)
  | close =>
    simp only [hpc] at h ⊢
    exact h.setState (b := b) hkeep fun hts => hpass hts (Or.inr hpc)
  | _ =>
    simp only [hpc] at h ⊢
    exact h

theorem step {a : Act} (h : FlushInv s) (hidx : s.Tuned) (hf : Flushable s a) (ht : s.step a = some t) :
    FlushInv t := by
  have hkeep := h
  simp only [FlushInv] at h
  cases step_does ht with
  | noVideo hpc hnone =>
    -- whoever has passed a frame on finds a stream again
    simp only [hpc] at h
    refine Or.inr ⟨h, fun _ => Nat.eq_zero_of_not_pos fun hpassed => ?_⟩
    have hsome := findVideo_keeps (hidx (Or.inl hpassed)) s.streams
    rw [hnone] at hsome
    cases hsome
  | test hpc =>
    simp only [hpc] at h
    exact ⟨h.2, by simp [h.1]⟩
  | callback hpc =>
    simp only [hpc] at h
    -- the call is the flush exactly if the stop was seen before it
    by_cases hstop : s.isStreamStop = true
    · exact Or.inl ⟨⟨hstop, by simp [h.1, hstop]⟩, h.2.1 hstop⟩
    · have hquiet : s.isStreamStop = false := by simpa using hstop
      exact Or.inr ⟨⟨hquiet, by simp [h.1, hquiet]⟩, fun hs => absurd (h.2.2 hs) hstop⟩
  | ended hpc hs =>
    simp only [hpc] at h
    exact h.imp (·.1) fun hq => ⟨hq.1, hq.2 hs⟩
  | nextPacket hpc hs | again hpc hs =>
    simp only [hpc] at h
    exact h.quiet hs
  | failed hpc =>
    simp only [hpc] at h
    exact hf.atTest rfl h
  | other hpc | lost hpc =>
    simp only [hpc] at h
    exact hf.atTest nofun h
  | start hpc | opened hpc | video hpc | lastPacket hpc | sleep hpc | leave hpc | online hpc | called hpc | frame hpc =>
    simp only [hpc] at h
    exact h
  | offline | stopIdle | deleteCancelled => exact hkeep
  | stop hs => exact hkeep.setState (fun _ => rfl) fun _ => Or.inr (hf.lands hs)
  | delete hc hs =>
    refine hkeep.setState (fun _ => rfl) fun _ => ?_
    by_cases hstop : s.threadState = .stopping
    · exact Or.inl hstop
    · exact Or.inr (hf.lands ⟨hc, hs, hstop⟩)
  | deleteStopped hs => exact hkeep.setState (fun hstop => by rw [hs] at hstop; cases hstop) nofun
  | cancel hs => exact hkeep.setState (fun hstop => absurd hstop hs) nofun

end FlushInv

end Capture

/-- **A session ends with its flush** in every run whose requests and connections are `Flushable`: a thread that has
passed a frame on and has stopped made exactly one call with `isStreamStop` set. -/
theorem capture_flushes {s : Capture} {acts : List Act} (hl : Steps Capture.step Capture.Flushable Capture.spawned acts)
    (hr : run Capture.step Capture.spawned acts = some s) (hdone : s.pc = .done) (hpassed : 0 < s.passed) :
    s.flushes = 1 := by
  have hstart : Capture.spawned.FlushInv ∧ Capture.spawned.Tuned := ⟨⟨rfl, rfl⟩, fun h => absurd h (by decide)⟩
  obtain ⟨hinv, -⟩ := run_inv (fun (s : Capture) _ _ (h : s.FlushInv ∧ s.Tuned) hf ht =>
    ⟨h.1.step h.2 hf ht, h.2.step ht⟩) hstart hl hr
  simp only [Capture.FlushInv, hdone] at hinv
  rcases hinv with hf | hq
  · exact hf.2
  · exact absurd hq.2 hpassed.ne'

/-- every call that opens the stream succeeds -/
def opens : List Act := List.replicate 3 (.call true) ++ .go :: List.replicate 4 (.call true)

/-- the thread starts, opens a connection with sound and video and passes its first frame on -/
def firstFrame : List Act :=
  ([.go, .url (some [false, true])] : List Act) ++ opens ++ ([.go, .packet (some .video), .go, .go] : List Act)

/-- a stop that the test of the next frame sees -/
theorem capture_flushes_next_frame : ∃ s, run Capture.step Capture.spawned
      (firstFrame ++ ([.go, .stop, .packet (some .video), .go, .go, .go, .go, .go] : List Act)) = some s ∧
    s.pc = .done ∧ 0 < s.passed ∧ s.flushes = 1 := by
  have hl : Steps Capture.step Capture.Flushable Capture.spawned
      (firstFrame ++ ([.go, .stop, .packet (some .video), .go, .go, .go, .go, .go] : List Act)) := by decide +kernel
  have hr : run Capture.step Capture.spawned
      (firstFrame ++ ([.go, .stop, .packet (some .video), .go, .go, .go, .go, .go] : List Act)) =
        some ⟨.done, .stopped, some 1, [false, true], true, 2, 1, false⟩ := by decide +kernel
  exact ⟨_, hr, rfl, by decide, capture_flushes hl hr rfl (by decide)⟩

/-- the stop lands after the callback of the first frame -/
theorem stop_after_callback : ∃ s,
    run Capture.step Capture.spawned (firstFrame ++ ([.stop, .go, .go, .go] : List Act)) = some s ∧
      s.pc = .done ∧ s.threadState = .stopped ∧ s.passed = 1 ∧ s.flushes = 0 :=
  ⟨⟨.done, .stopped, some 1, [false, true], false, 1, 0, false⟩, by decide +kernel, rfl, rfl, rfl, rfl⟩

end StoreService.Stream
