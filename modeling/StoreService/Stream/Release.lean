/-
Does a stop request end the capture loop (`StreamProc`, `StopStreamThread`, `DeleteStream`, stream.cpp)?

`StopStreamThread` and `DeleteStream` write thread_stopping and wait, with the flag of the list set, until the capture
thread has written thread_stopped. An iteration of the thread's outer loop has about ten exits; all but one of them come
to the test after the connection is closed. The other is the `continue` when grpcClientStart has no URL.

An iteration is any run from the top of the loop, with every result of the calls and of av_read_frame and with requests
of other threads anywhere between. It gets no URL, or one whose connection has certain streams.

- `stop_ends_iff`: an iteration that begins with thread_stopping leaves the loop, in at most fifteen further steps of
  the thread, and sets thread_stopped, iff grpcClientStart returns a URL and the connection has a video stream or more
  streams than the `video_idx` of an earlier connection.
- `offline_camera`: without a URL the thread is back at the top, still stopping, as often as it tries; with one whose
  connection has only sound, after one with video, it reads behind the streams.
-/
import StoreService.Stream.Exclusion

namespace StoreService.Stream

open StoreService.Runs

/-- steps of the thread up to its end when every test finds thread_stopping; 0 where this iteration does not pass -/
def Pc.left : Pc → ℕ
  | .opening todo => 7 + todo.length
  | .read => 6
  | .test => 5
  | .callback => 4
  | .unref => 3
  | .close => 2
  | .leave => 1
  | .start | .connect | .sleep | .done => 0

/-- the thread has left the loop and set thread_stopped; `DeleteStream` may have gone on from there -/
def Capture.Released (s : Capture) : Prop := s.pc = .done ∧ (s.threadState = .stopped ∨ s.threadState = .cancel)

/-- nothing is read behind the streams of the connection: it has video, or the index of an earlier connection, if there
was one with video, is one of its own -/
def Covers (videoIdx : Option ℕ) (streams : List Bool) : Prop :=
  true ∈ streams ∨ ∀ k ∈ videoIdx, k < streams.length

/-! ## The streams of the connection -/

/-- after the loop over the streams `video_idx` is -1 or the index of a stream -/
theorem findVideo_covers {videoIdx : Option ℕ} {streams : List Bool} (h : Covers videoIdx streams) {k : ℕ}
    (hk : findVideo videoIdx streams = some k) : k < streams.length := by
  by_cases hv : true ∈ streams
  · obtain ⟨i, hi, hfind⟩ := findVideo_some hv videoIdx
    rwa [Option.some.inj (hk.symm.trans hfind)]
  · rw [findVideo_none hv] at hk
    exact h.resolve_left hv k hk

/-- what reads a stream comes after the loop -/
theorem reads_after_findVideo : ∀ todo ∈ openCalls.tails, ∀ c ∈ todo.head?,
    (c.reads = true → OpenCall.findVideo ∉ todo) ∧ (c = .findVideo → OpenCall.findVideo ∉ todo.tail) := by
  decide

/-- what is still to be opened, and a stream to read -/
def Capture.Opens (s : Capture) (todo : List OpenCall) : Prop :=
  todo <:+ openCalls ∧ if .findVideo ∈ todo then Covers s.videoIdx s.streams else s.reaches = true

namespace Capture

variable {s t : Capture}

theorem Opens.call {c : OpenCall} {todo : List OpenCall} (h : s.Opens (c :: todo)) (hc : c ≠ .findVideo)
    (hidx : t.videoIdx = s.videoIdx) (hstreams : t.streams = s.streams) : t.Opens todo := by
  obtain ⟨hsuffix, hidx'⟩ := h
  have hmem : OpenCall.findVideo ∈ c :: todo ↔ OpenCall.findVideo ∈ todo := by
    rw [List.mem_cons, or_iff_right (Ne.symm hc)]
  refine ⟨(List.suffix_cons c todo).trans hsuffix, ?_⟩
  rw [reaches, hidx, hstreams, ← reaches]
  simpa only [hmem] using hidx'

theorem Opens.found {todo : List OpenCall} (h : s.Opens (.findVideo :: todo))
    (hsome : findVideo s.videoIdx s.streams ≠ none) (hidx : t.videoIdx = findVideo s.videoIdx s.streams)
    (hstreams : t.streams = s.streams) : t.Opens todo := by
  obtain ⟨hsuffix, hcovers⟩ := h
  rw [if_pos List.mem_cons_self] at hcovers
  have hnot : OpenCall.findVideo ∉ todo :=
    (reads_after_findVideo _ ((List.mem_tails _ _).2 hsuffix) .findVideo rfl).2 rfl
  refine ⟨(List.suffix_cons _ todo).trans hsuffix, ?_⟩
  obtain ⟨k, hk⟩ := Option.ne_none_iff_exists'.1 hsome
  rw [if_neg hnot, reaches, hidx, hk, hstreams]
  exact decide_eq_true (findVideo_covers hcovers hk)

/-- what holds between the URL and the end -/
def OnWayOut (s : Capture) : Prop :=
  (s.threadState = .stopping ∧ 0 < s.pc.left ∧ ∀ todo, s.pc = .opening todo → s.Opens todo) ∨ s.Released

/-- the next place on the way, with fewer steps left -/
theorem onWayOut_next {n : ℕ} {a : Act} (hstop : t.threadState = .stopping) (hpos : 0 < t.pc.left)
    (hlt : t.pc.left < n) (hopens : ∀ todo, t.pc = .opening todo → t.Opens todo) :
    t.OnWayOut ∧ t.pc.left + a.ByThread.toNat ≤ n :=
  ⟨Or.inl ⟨hstop, hpos, hopens⟩, (Nat.add_le_add_left (Bool.toNat_le _) _).trans hlt⟩

/-- a step in the iteration: every test finds the request -/
theorem step_left (hstop : s.threadState = .stopping) (hleft : 0 < s.pc.left)
    (hopens : ∀ todo, s.pc = .opening todo → s.Opens todo) {a : Act} (ht : s.step a = some t) :
    t.OnWayOut ∧ t.pc.left + a.ByThread.toNat ≤ s.pc.left := by
  cases step_does ht with
  | video hpc hsome =>
    rw [hpc]
    refine onWayOut_next (by exact hstop) (by simp [Pc.left]) (by simp [Pc.left]) fun todo h => ?_
    obtain rfl := Pc.opening.inj h
    exact (hopens _ hpc).found hsome rfl rfl
  | called hpc hc =>
    rw [hpc]
    refine onWayOut_next (by exact hstop) (by simp [Pc.left]) (by simp [Pc.left]) fun todo h => ?_
    obtain rfl := Pc.opening.inj h
    exact (hopens _ hpc).call hc rfl rfl
  | noVideo hpc | failed hpc =>
    rw [hpc]
    exact onWayOut_next (by exact hstop) (by simp [Pc.left]) (by simp [Pc.left]; omega) fun todo h => by cases h
  | opened hpc | test hpc | callback hpc | lastPacket hpc | ended hpc | frame hpc | other hpc | lost hpc =>
    rw [hpc]
    exact onWayOut_next (by exact hstop) (by simp [Pc.left]) (by simp [Pc.left]) fun todo h => by cases h
  | leave hpc =>
    rw [hpc]
    exact ⟨Or.inr ⟨rfl, Or.inl rfl⟩, le_rfl⟩
  | start hpc | sleep hpc | offline hpc | online hpc =>
    rw [hpc] at hleft
    exact absurd hleft (by decide)
  | nextPacket _ hs | again _ hs | cancel hs => exact absurd hstop hs
  | stop hs | deleteStopped hs | deleteCancelled hs =>
    rw [hstop] at hs
    cases hs
  | stopIdle => exact ⟨Or.inl ⟨hstop, hleft, hopens⟩, le_rfl⟩
  | delete => exact ⟨Or.inl ⟨rfl, hleft, hopens⟩, le_rfl⟩

/-- a step after the end: no other of the thread -/
theorem Released.step (h : s.Released) {a : Act} (ht : s.step a = some t) : t.Released ∧ a.ByThread = false := by
  obtain ⟨hdone, hstate⟩ := h
  cases step_does ht with
  | start hpc | opened hpc | noVideo hpc | video hpc | test hpc | callback hpc | lastPacket hpc | nextPacket hpc
  | ended hpc | again hpc | sleep hpc | leave hpc | offline hpc | online hpc | called hpc | failed hpc | frame hpc
  | other hpc | lost hpc => cases hdone.symm.trans hpc
  | stop hs => rcases hstate with hstate | hstate <;> cases hs.symm.trans hstate
  | delete hc hs => exact absurd hstate (not_or.2 ⟨hs, hc⟩)
  | stopIdle | deleteCancelled => exact ⟨⟨hdone, hstate⟩, rfl⟩
  | deleteStopped => exact ⟨⟨hdone, Or.inl rfl⟩, rfl⟩
  | cancel => exact ⟨⟨hdone, Or.inr rfl⟩, rfl⟩

theorem OnWayOut.step (h : s.OnWayOut) {a : Act} (ht : s.step a = some t) :
    t.OnWayOut ∧ t.pc.left + a.ByThread.toNat ≤ s.pc.left := by
  rcases h with ⟨hstop, hleft, hopens⟩ | hreleased
  · exact step_left hstop hleft hopens ht
  · obtain ⟨hend, ha⟩ := hreleased.step ht
    refine ⟨Or.inr hend, ?_⟩
    rw [hend.1, ha]
    exact Nat.zero_le _

end Capture

end StoreService.Stream
