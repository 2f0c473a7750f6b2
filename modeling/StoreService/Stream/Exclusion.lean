/-
The threads that share `streamThreadList` (`stream.cpp`): the scheduler, the requests and the capture threads.

`AddStream`, `DeleteStream` and `UpdateRecodeSchedule` wait until `isThreadListUsed` is 0 and set it to 1, in one step.
`StreamScheduleProc` tests it once, before a pass over the list, and then sets it to 1 for every entry without looking.
Between the two writes of the flag each of them reads and writes the `thread_state` of one entry, one access a step
(`Phase`), and polls it where the source waits. A capture thread is the machine of `Capture` on the state of its entry;
its write of thread_stopped is its last step, and it ends at once if its id has no '-'.

- `one_capture_thread`: in every run in which the scheduler finds the flag 0 each time it sets it, an entry has at most
  one capture thread, and a cancelled entry has none.
- `flag_taken_twice`: a request holds the flag when the scheduler sets it, and clears it while the scheduler waits for
  the thread it has created. `DeleteStream` comes in, the new thread overwrites its thread_stopping, the entry is
  cancelled with the thread alive, and after an `AddStream` it gets a second one.

The iterator visits the entries in the order of their ids; here a pass may visit any entry next. Capture threads of
events have a `stream_thread` of their own and are not in the list.
-/
import StoreService.Stream.Capture

namespace StoreService.Stream

open StoreService.Json StoreService.Schedule StoreService.Runs

/-! ## One entry -/

/-- an entry of the list and the capture threads that were given its address -/
structure Cell where
  entry : Option StreamThread
  procs : List Capture

/-- what a thread does next between its two writes of `isThreadListUsed` -/
inductive Phase where
  /-- `StreamScheduleProc` looks up the schedule -/
  | lookUp
  | startTest
  | startWrite
  | startCreate
  | startWait
  | stopTest
  | stopWrite
  | stopWait
  | addLook (schedule : Week) (streamCb : StreamCb)
  | addWrite (schedule : Week) (streamCb : StreamCb)
  | deleteLook
  | deleteTest
  | deleteWrite
  | deleteWait
  | deleteCancel
  | updateWrite (schedule : Week)
  /-- before it clears the flag -/
  | leave

def Cell.threadState (c : Cell) : Option ThreadState := c.entry.map (·.threadState)

/-- `iter->second.thread_state = state` -/
def Cell.setState (c : Cell) (state : ThreadState) : Cell :=
  { c with entry := c.entry.map fun e => { e with threadState := state } }

/-- the next access to the entry of `streamId`; `none` where the source goes on waiting -/
def Phase.step (streamId : Str) (now : Clock) (c : Cell) : Phase → Option (Cell × Phase)
  | .lookUp => c.entry.map fun e =>
      let daySchedule := e.recSchedule.day now.day
      (c, if daySchedule.findIdx (·.covers now.sec) < daySchedule.length then .startTest else .stopTest)
  | .startTest => some (c, if c.threadState = some .stopped then .startWrite else .leave)
  | .startWrite => some (c.setState .creating, .startCreate)
  | .startCreate => some ({ c with procs := c.procs ++ [Capture.spawned] }, .startWait)
  | .startWait => if c.threadState = some .creating then none else some (c, .leave)
  | .stopTest => some (c, if c.threadState = some .running then .stopWrite else .leave)
  | .stopWrite => some (c.setState .stopping, .stopWait)
  | .stopWait => if c.threadState = some .stopping then none else some (c, .leave)
  | .addLook schedule cb =>
      some (c, if c.threadState = none ∨ c.threadState = some .cancel then .addWrite schedule cb else .leave)
  | .addWrite schedule cb => some ({ c with entry := some ⟨streamId, cb, .stopped, schedule⟩ }, .leave)
  | .deleteLook => some (c, if c.threadState = none ∨ c.threadState = some .cancel then .leave else .deleteTest)
  | .deleteTest => some (c, if c.threadState = some .stopped then .deleteCancel else .deleteWrite)
  | .deleteWrite => some (c.setState .stopping, .deleteWait)
  | .deleteWait => if c.threadState = some .stopping then none else some (c, .deleteCancel)
  | .deleteCancel => some (c.setState .cancel, .leave)
  | .updateWrite schedule =>
      some ({ c with entry := c.entry.map fun e => { e with recSchedule := schedule } }, .leave)
  | .leave => none

/-- the actions of the capture thread itself -/
def Act.ByThread : Act → Bool
  | .go | .url _ | .call _ | .packet _ => true
  | .stop | .delete | .cancel => false

/-- a step of the `k`-th capture thread of an entry -/
def Cell.capture (streamId : Str) (c : Cell) (k : ℕ) (a : Act) : Option Cell :=
  match c.entry, c.procs[k]? with
  | some e, some p =>
    if a.ByThread = false then none
    -- "stream id format error": it returns and leaves thread_creating behind
    else if p.pc = .start ∧ 45 ∉ streamId then some { c with procs := c.procs.eraseIdx k }
    else (Capture.step { p with threadState := e.threadState } a).map fun p' =>
      { entry := some { e with threadState := p'.threadState }
        procs := if p'.pc = .done then c.procs.eraseIdx k else c.procs.set k p' }
  | _, _ => none

/-! ## All threads -/

/-- the scheduler, or a thread that makes requests -/
inductive Agent where
  | scheduler
  | request (r : ℕ)
deriving DecidableEq, Repr

inductive Place where
  /-- outside the list: the scheduler asleep, a request thread between two requests -/
  | out
  /-- the scheduler, between two entries -/
  | pass
  /-- the scheduler has read a state other than thread_cancel -/
  | seen (streamId : Str)
  /-- between the two writes of the flag -/
  | inside (streamId : Str) (phase : Phase)

/-- the requests -/
inductive Request where
  | add (streamId : Str) (schedule : Week) (streamCb : StreamCb)
  | delete (streamId : Str)
  | update (streamId : Str) (schedule : Week)

def Request.place : Request → Place
  | .add id schedule cb => .inside id (.addLook schedule cb)
  | .delete id => .inside id .deleteLook
  | .update id schedule => .inside id (.updateWrite schedule)

structure Threads where
  isThreadListUsed : Bool
  cells : Str → Cell
  place : Agent → Place

inductive Move where
  /-- the scheduler tests the flag before a pass -/
  | poll
  /-- it comes to an entry and reads its state -/
  | visit (streamId : Str)
  /-- it sets the flag -/
  | mark
  | endPass
  /-- a request finds the flag 0 and sets it -/
  | enter (r : ℕ) (call : Request)
  /-- the next access of a thread that has set the flag -/
  | go (agent : Agent) (now : Clock)
  | capture (streamId : Str) (k : ℕ) (a : Act)

namespace Threads

def init : Threads := ⟨false, fun _ => ⟨none, []⟩, fun _ => .out⟩

def setPlace (s : Threads) (agent : Agent) (p : Place) : Threads := { s with place := Function.update s.place agent p }

def setCell (s : Threads) (streamId : Str) (c : Cell) : Threads :=
  { s with cells := Function.update s.cells streamId c }

/-- where a thread is after it has cleared the flag -/
def outside : Agent → Place
  | .scheduler => .pass
  | .request _ => .out

/-- an access of a thread that has set the flag, or the write that clears it -/
def go (s : Threads) (agent : Agent) (now : Clock) : Option Threads :=
  match s.place agent with
  | .inside _ .leave => some { s.setPlace agent (outside agent) with isThreadListUsed := false }
  | .inside id phase => (phase.step id now (s.cells id)).map fun r => (s.setCell id r.1).setPlace agent (.inside id r.2)
  | _ => none

def step (s : Threads) : Move → Option Threads
  | .poll =>
    match s.place .scheduler with
    | .out => some (if s.isThreadListUsed then s else s.setPlace .scheduler .pass)
    | _ => none
  | .visit id =>
    match s.place .scheduler, (s.cells id).threadState with
    | .pass, some state => some (if state = .cancel then s else s.setPlace .scheduler (.seen id))
    | _, _ => none
  | .mark =>
    match s.place .scheduler with
    | .seen id => some { s.setPlace .scheduler (.inside id .lookUp) with isThreadListUsed := true }
    | _ => none
  | .endPass =>
    match s.place .scheduler with
    | .pass => some (s.setPlace .scheduler .out)
    | _ => none
  | .enter r call =>
    match s.place (.request r) with
    | .out =>
      if s.isThreadListUsed then none
      else some { s.setPlace (.request r) call.place with isThreadListUsed := true }
    | _ => none
  | .go agent now => s.go agent now
  | .capture id k a => ((s.cells id).capture id k a).map (s.setCell id)

/-- the scheduler finds the flag 0 when it sets it -/
def Exclusive (s : Threads) : Move → Prop
  | .mark => s.isThreadListUsed = false
  | _ => True

instance (s : Threads) : ∀ m, Decidable (s.Exclusive m)
  | .mark => inferInstanceAs (Decidable (_ = _))
  | .poll | .visit _ | .endPass | .enter _ _ | .go _ _ | .capture _ _ _ => .isTrue trivial

end Threads

/-! ## What a capture thread does to the state of its entry -/

/-- past its start and not yet leaving -/
def Pc.busy : Pc → Bool
  | .start | .leave | .done => false
  | _ => true

theorem Pc.ne_of_busy {pc : Pc} (h : pc.busy = true) : pc ≠ .start ∧ pc ≠ .leave ∧ pc ≠ .done := by
  refine ⟨?_, ?_, ?_⟩ <;> rintro rfl <;> cases h

/-- a thread writes thread_running first and thread_stopped last, and leaves only when it has seen thread_stopping -/
theorem Capture.step_cases {p q : Capture} {a : Act} (ha : a.ByThread = true) (h : p.step a = some q) :
    (p.pc = .start ∧ q.pc.busy = true ∧ q.threadState = .running) ∨
      (p.pc = .leave ∧ q.pc = .done ∧ q.threadState = .stopped) ∨
      (p.pc.busy = true ∧ q.threadState = p.threadState ∧
        (q.pc.busy = true ∨ q.pc = .leave ∧ p.threadState = .stopping)) := by
  cases step_does h with
  | start hpc => exact Or.inl ⟨hpc, rfl, rfl⟩
  | leave hpc => exact Or.inr (Or.inl ⟨hpc, rfl, rfl⟩)
  | ended hpc hs => exact Or.inr (Or.inr ⟨by rw [hpc]; rfl, rfl, Or.inr ⟨rfl, hs⟩⟩)
  | offline hpc => exact Or.inr (Or.inr ⟨by rw [hpc]; rfl, rfl, Or.inl (by rw [hpc]; rfl)⟩)
  | opened hpc | noVideo hpc | video hpc | test hpc | callback hpc | lastPacket hpc | nextPacket hpc | again hpc
  | sleep hpc | online hpc | called hpc | failed hpc | frame hpc | other hpc | lost hpc =>
    exact Or.inr (Or.inr ⟨by rw [hpc]; rfl, rfl, Or.inl rfl⟩)
  | stop | stopIdle | delete | deleteStopped | deleteCancelled | cancel => cases ha

/-! ## Invariant -/

namespace Cell

/-- registered or not, without a thread -/
structure Idle (c : Cell) : Prop where
  state : c.threadState = none ∨ c.threadState = some .stopped ∨ c.threadState = some .cancel
  procs : c.procs = []

structure Stopped (c : Cell) : Prop where
  state : c.threadState = some .stopped
  procs : c.procs = []

/-- one thread, which has seen no stop -/
structure Live (c : Cell) : Prop where
  state : c.threadState = some .running
  procs : ∃ p, c.procs = [p] ∧ p.pc.busy = true

/-- one thread, which has been asked to stop -/
structure Ending (c : Cell) : Prop where
  state : c.threadState = some .stopping
  procs : ∃ p, c.procs = [p] ∧ p.pc ≠ .start

/-- the state is set, the thread is not there yet -/
structure Blank (c : Cell) : Prop where
  state : c.threadState = some .creating
  procs : c.procs = []

/-- one thread that has not begun -/
structure Fresh (c : Cell) : Prop where
  state : c.threadState = some .creating
  procs : ∃ p, c.procs = [p] ∧ p.pc = .start

/-- an entry that nobody waits for -/
def Quiet (c : Cell) : Prop := c.Idle ∨ c.Live

theorem Stopped.idle {c : Cell} (h : c.Stopped) : c.Idle := ⟨Or.inr (Or.inl h.state), h.procs⟩

/-- without the flag the state of an entry tells whether it has a thread -/
theorem Quiet.idle {c : Cell} (h : c.Quiet) (hst : c.threadState ≠ some .running) : c.Idle :=
  h.resolve_right fun hc => hst hc.state

theorem Quiet.live {c : Cell} (h : c.Quiet) (hst : c.threadState = some .running) : c.Live := by
  refine h.resolve_left fun hc => ?_
  rcases hc.state with hne | hne | hne <;> exact absurd (hne.symm.trans hst) (by decide)

end Cell

/-- what the thread that has the flag knows of its entry -/
def Phase.Knows (c : Cell) : Phase → Prop
  | .startWrite | .deleteCancel => c.Stopped
  | .startCreate => c.Blank
  | .startWait => c.Blank ∨ c.Fresh ∨ c.Live
  | .stopWrite | .deleteWrite => c.Live
  | .stopWait | .deleteWait => c.Ending ∨ c.Stopped
  | .addWrite _ _ => c.Idle
  | .deleteTest => c.Stopped ∨ c.Live
  | _ => c.Quiet

/-- at most one thread, none if cancelled -/
def Cell.AtMostOne (c : Cell) : Prop := c.procs.length ≤ 1 ∧ (c.threadState = some .cancel → c.procs = [])

theorem Cell.threadState_setState {c : Cell} {old : ThreadState} (h : c.threadState = some old) (state : ThreadState) :
    (c.setState state).threadState = some state := by
  obtain ⟨e, he, -⟩ := Option.map_eq_some_iff.1 h
  simp [setState, threadState, he]

namespace Phase.Knows

/-- in every phase an entry has at most one thread -/
theorem atMostOne {c : Cell} {phase : Phase} (h : phase.Knows c) : c.AtMostOne := by
  have idle (h : c.Idle) : c.AtMostOne := ⟨by simp [h.procs], fun _ => h.procs⟩
  have one {state : ThreadState} (hs : c.threadState = some state) (hne : state ≠ .cancel)
      (hp : ∃ p, c.procs = [p]) : c.AtMostOne := by
    obtain ⟨p, hp⟩ := hp
    exact ⟨by simp [hp], fun hc => absurd (Option.some.inj (hs.symm.trans hc)) hne⟩
  have live (h : c.Live) : c.AtMostOne := one h.state nofun (h.procs.imp fun _ h => h.1)
  have blank (h : c.Blank) : c.AtMostOne := ⟨by simp [h.procs], fun _ => h.procs⟩
  cases phase with
  | startWrite | deleteCancel => exact idle (Cell.Stopped.idle h)
  | startCreate => exact blank h
  | startWait =>
    rcases h with h | h | h
    · exact blank h
    · exact one h.state nofun (h.procs.imp fun _ h => h.1)
    · exact live h
  | stopWrite | deleteWrite => exact live h
  | stopWait | deleteWait =>
    rcases h with h | h
    · exact one h.state nofun (h.procs.imp fun _ h => h.1)
    · exact idle h.idle
  | addWrite w cb => exact idle h
  | deleteTest =>
    rcases h with h | h
    · exact idle h.idle
    · exact live h
  | lookUp | startTest | stopTest | addLook _ _ | deleteLook | updateWrite _ | leave =>
    rcases h with h | h
    · exact idle h
    · exact live h

/-- **One access** of the thread that has the flag. -/
theorem step {id : Str} {now : Clock} {c c' : Cell} {phase phase' : Phase} (h : phase.Knows c)
    (hs : phase.step id now c = some (c', phase')) : phase'.Knows c' := by
  cases phase with
  | lookUp =>
    obtain ⟨e, -, heq⟩ := Option.map_eq_some_iff.1 hs
    obtain ⟨rfl, rfl⟩ := Prod.mk.inj heq
    split_ifs <;> exact h
  | startTest =>
    obtain ⟨rfl, rfl⟩ := Prod.mk.inj (Option.some.inj hs)
    split_ifs with hst
    · have hc : c.Idle := Cell.Quiet.idle h (by rw [hst]; decide)
      exact ⟨hst, hc.procs⟩
    · exact h
  | startWrite =>
    obtain ⟨rfl, rfl⟩ := Prod.mk.inj (Option.some.inj hs)
    have hc : c.Stopped := h
    exact ⟨Cell.threadState_setState hc.state _, hc.procs⟩
  | startCreate =>
    obtain ⟨rfl, rfl⟩ := Prod.mk.inj (Option.some.inj hs)
    have hc : c.Blank := h
    exact Or.inr (Or.inl ⟨hc.state, Capture.spawned, by simp [hc.procs], rfl⟩)
  | startWait =>
    obtain ⟨hne, hs⟩ := Option.ite_none_left_eq_some.1 hs
    obtain ⟨rfl, rfl⟩ := Prod.mk.inj (Option.some.inj hs)
    rcases h with h | h | h
    · exact absurd h.state hne
    · exact absurd h.state hne
    · exact Or.inr h
  | stopTest =>
    obtain ⟨rfl, rfl⟩ := Prod.mk.inj (Option.some.inj hs)
    split_ifs with hst
    · exact Cell.Quiet.live h hst
    · exact h
  | stopWrite | deleteWrite =>
    obtain ⟨rfl, rfl⟩ := Prod.mk.inj (Option.some.inj hs)
    have hc : c.Live := h
    obtain ⟨p, hp, hb⟩ := hc.procs
    exact Or.inl ⟨Cell.threadState_setState hc.state _, p, hp, (Pc.ne_of_busy hb).1⟩
  | stopWait | deleteWait =>
    obtain ⟨hne, hs⟩ := Option.ite_none_left_eq_some.1 hs
    obtain ⟨rfl, rfl⟩ := Prod.mk.inj (Option.some.inj hs)
    rcases h with h | h
    · exact absurd h.state hne
    · first | exact h | exact Or.inl h.idle
  | addLook w cb =>
    obtain ⟨rfl, rfl⟩ := Prod.mk.inj (Option.some.inj hs)
    split_ifs with hst
    · rcases hst with hst | hst <;> exact Cell.Quiet.idle h (by rw [hst]; decide)
    · exact h
  | addWrite w cb =>
    obtain ⟨rfl, rfl⟩ := Prod.mk.inj (Option.some.inj hs)
    have hc : c.Idle := h
    exact Or.inl ⟨Or.inr (Or.inl rfl), hc.procs⟩
  | deleteLook =>
    obtain ⟨rfl, rfl⟩ := Prod.mk.inj (Option.some.inj hs)
    split_ifs with hst
    · exact h
    · rcases h with h | h
      · rcases h.state with hn | hn | hn
        · exact absurd (Or.inl hn) hst
        · exact Or.inl ⟨hn, h.procs⟩
        · exact absurd (Or.inr hn) hst
      · exact Or.inr h
  | deleteTest =>
    obtain ⟨rfl, rfl⟩ := Prod.mk.inj (Option.some.inj hs)
    split_ifs with hst
    · rcases h with h | h
      · exact h
      · exact absurd (h.state.symm.trans hst) (by decide)
    · rcases h with h | h
      · exact absurd h.state hst
      · exact h
  | deleteCancel =>
    obtain ⟨rfl, rfl⟩ := Prod.mk.inj (Option.some.inj hs)
    have hc : c.Stopped := h
    exact Or.inl ⟨Or.inr (Or.inr (Cell.threadState_setState hc.state _)), hc.procs⟩
  | updateWrite w =>
    obtain ⟨rfl, rfl⟩ := Prod.mk.inj (Option.some.inj hs)
    have hsame : Cell.threadState { c with entry := c.entry.map fun e => { e with recSchedule := w } } =
        c.threadState := by
      simp [Cell.threadState, Function.comp_def]
    rcases h with h | h
    · exact Or.inl ⟨by rw [hsame]; exact h.state, h.procs⟩
    · exact Or.inr ⟨hsame.trans h.state, h.procs⟩
  | leave => cases hs

end Phase.Knows

/-! ## Steps of a capture thread -/

namespace Cell

variable {id : Str} {c c' : Cell} {k : ℕ} {a : Act}

theorem capture_nil (hp : c.procs = []) : c.capture id k a = none := by
  unfold capture
  cases c.entry <;> simp [hp]

/-- what the only thread of an entry can do -/
theorem capture_one {e : StreamThread} {p : Capture} (he : c.entry = some e) (hp : c.procs = [p])
    (h : c.capture id k a = some c') :
    (p.pc = .start ∧ c' = { c with procs := [] }) ∨
      ∃ q, a.ByThread = true ∧ Capture.step { p with threadState := e.threadState } a = some q ∧
        c' = ⟨some { e with threadState := q.threadState }, if q.pc = .done then [] else [q]⟩ := by
  unfold capture at h
  cases k with
  | succ k => simp [he, hp] at h
  | zero =>
    simp only [he, hp, List.getElem?_cons_zero] at h
    obtain ⟨hthread, h⟩ := Option.ite_none_left_eq_some.1 h
    split_ifs at h with hstart
    · obtain rfl := Option.some.inj h
      exact Or.inl ⟨hstart.1, by rw [he]; rfl⟩
    · obtain ⟨q, hq, rfl⟩ := Option.map_eq_some_iff.1 h
      exact Or.inr ⟨q, by simpa using hthread, hq, rfl⟩

theorem exists_entry {state : ThreadState} (h : c.threadState = some state) :
    ∃ e, c.entry = some e ∧ e.threadState = state :=
  Option.map_eq_some_iff.1 h

/-- a thread that has seen no stop goes on -/
theorem Live.capture (hc : c.Live) (h : c.capture id k a = some c') : c'.Live := by
  obtain ⟨e, he, hs⟩ := exists_entry hc.state
  obtain ⟨p, hp, hb⟩ := hc.procs
  rcases capture_one he hp h with ⟨hstart, -⟩ | ⟨q, ha, hq, rfl⟩
  · exact absurd hstart (Pc.ne_of_busy hb).1
  · rcases Capture.step_cases ha hq with ⟨hpc, -, -⟩ | ⟨hpc, -, -⟩ | ⟨-, hstate, hbusy | ⟨-, hstop⟩⟩
    · exact absurd hpc (Pc.ne_of_busy hb).1
    · exact absurd hpc (Pc.ne_of_busy hb).2.1
    · exact ⟨by simp [threadState, hstate, hs], q, if_neg (Pc.ne_of_busy hbusy).2.2, hbusy⟩
    · exact absurd (hs.symm.trans hstop) (by decide)

/-- a thread that has been asked to stop goes on, or writes thread_stopped and is gone -/
theorem Ending.capture (hc : c.Ending) (h : c.capture id k a = some c') : c'.Ending ∨ c'.Stopped := by
  obtain ⟨e, he, hs⟩ := exists_entry hc.state
  obtain ⟨p, hp, hns⟩ := hc.procs
  rcases capture_one he hp h with ⟨hstart, -⟩ | ⟨q, ha, hq, rfl⟩
  · exact absurd hstart hns
  · rcases Capture.step_cases ha hq with ⟨hpc, -, -⟩ | ⟨-, hdone, hstate⟩ | ⟨-, hstate, hrest⟩
    · exact absurd hpc hns
    · exact Or.inr ⟨by simp [threadState, hstate], if_pos hdone⟩
    · have hpc : q.pc ≠ .start ∧ q.pc ≠ .done := by
        rcases hrest with hb | ⟨hl, -⟩
        · exact ⟨(Pc.ne_of_busy hb).1, (Pc.ne_of_busy hb).2.2⟩
        · rw [hl]
          decide
      exact Or.inl ⟨by simp [threadState, hstate, hs], q, if_neg hpc.2, hpc.1⟩

/-- a thread that has not begun writes thread_running, or returns -/
theorem Fresh.capture (hc : c.Fresh) (h : c.capture id k a = some c') : c'.Blank ∨ c'.Live := by
  obtain ⟨e, he, hs⟩ := exists_entry hc.state
  obtain ⟨p, hp, hstart⟩ := hc.procs
  rcases capture_one he hp h with ⟨-, rfl⟩ | ⟨q, ha, hq, rfl⟩
  · exact Or.inl ⟨hc.state, rfl⟩
  · rcases Capture.step_cases ha hq with ⟨-, hbusy, hstate⟩ | ⟨hpc, -, -⟩ | ⟨hb, -, -⟩
    · exact Or.inr ⟨by simp [threadState, hstate], q, if_neg (Pc.ne_of_busy hbusy).2.2, hbusy⟩
    · exact absurd (hstart.symm.trans hpc) (by decide)
    · exact absurd hstart (Pc.ne_of_busy hb).1

theorem Quiet.capture (hc : c.Quiet) (h : c.capture id k a = some c') : c'.Quiet := by
  rcases hc with hc | hc
  · simp [capture_nil hc.procs] at h
  · exact Or.inr (hc.capture h)

end Cell

/-- **One step of a capture thread** leaves the thread that has the flag with what it knows. -/
theorem Phase.Knows.capture {id : Str} {c c' : Cell} {k : ℕ} {a : Act} {phase : Phase} (h : phase.Knows c)
    (ht : c.capture id k a = some c') : phase.Knows c' := by
  cases phase with
  | startWrite | deleteCancel =>
    have hc : c.Stopped := h
    simp [Cell.capture_nil hc.procs] at ht
  | startCreate =>
    have hc : c.Blank := h
    simp [Cell.capture_nil hc.procs] at ht
  | startWait =>
    rcases h with h | h | h
    · simp [Cell.capture_nil h.procs] at ht
    · rcases h.capture ht with hb | hl
      · exact Or.inl hb
      · exact Or.inr (Or.inr hl)
    · exact Or.inr (Or.inr (h.capture ht))
  | stopWrite | deleteWrite => exact Cell.Live.capture h ht
  | stopWait | deleteWait =>
    rcases h with h | h
    · exact h.capture ht
    · simp [Cell.capture_nil h.procs] at ht
  | addWrite w cb =>
    have hc : c.Idle := h
    simp [Cell.capture_nil hc.procs] at ht
  | deleteTest =>
    rcases h with h | h
    · simp [Cell.capture_nil h.procs] at ht
    · exact Or.inr (h.capture ht)
  | lookUp | startTest | stopTest | addLook _ _ | deleteLook | updateWrite _ | leave => exact Cell.Quiet.capture h ht

/-! ## Steps of all threads -/

structure ExclInv (s : Threads) : Prop where
  alone : ∀ a b id id' phase phase', s.place a = .inside id phase → s.place b = .inside id' phase' → a = b
  flag : ∀ a id phase, s.place a = .inside id phase → s.isThreadListUsed = true
  knows : ∀ a id phase, s.place a = .inside id phase → phase.Knows (s.cells id)
  quiet : ∀ id, (∀ a phase, s.place a ≠ .inside id phase) → (s.cells id).Quiet

namespace ExclInv

variable {s t : Threads}

/-- at most one thread at every entry -/
theorem atMostOne (h : ExclInv s) (id : Str) : (s.cells id).AtMostOne := by
  by_cases hin : ∃ a phase, s.place a = .inside id phase
  · obtain ⟨a, phase, ha⟩ := hin
    exact (h.knows a id phase ha).atMostOne
  · have hq : Phase.Knows (s.cells id) .leave := h.quiet id fun a phase ha => hin ⟨a, phase, ha⟩
    exact hq.atMostOne

/-- a thread moves outside the list -/
theorem move (h : ExclInv s) {agent : Agent} {p : Place} (hold : ∀ id phase, s.place agent ≠ .inside id phase)
    (hnew : ∀ id phase, p ≠ .inside id phase) : ExclInv (s.setPlace agent p) := by
  have same (a : Agent) (id : Str) (phase : Phase) :
      (s.setPlace agent p).place a = .inside id phase ↔ s.place a = .inside id phase := by
    by_cases ha : a = agent
    · subst ha
      simp only [Threads.setPlace, Function.update_self]
      exact ⟨fun hp => absurd hp (hnew id phase), fun hp => absurd hp (hold id phase)⟩
    · simp only [Threads.setPlace, Function.update_of_ne ha]
  refine ⟨fun a b id id' phase phase' ha hb => ?_, fun a id phase ha => ?_, fun a id phase ha => ?_, fun id hno => ?_⟩
  · exact h.alone a b id id' phase phase' ((same a id phase).1 ha) ((same b id' phase').1 hb)
  · exact h.flag a id phase ((same a id phase).1 ha)
  · exact h.knows a id phase ((same a id phase).1 ha)
  · exact h.quiet id fun a phase ha => hno a phase ((same a id phase).2 ha)

/-- nobody has the flag -/
theorem of_nobody (hno : ∀ a id phase, s.place a ≠ .inside id phase) (hq : ∀ id, (s.cells id).Quiet) : ExclInv s :=
  ⟨fun a _ id _ phase _ ha => absurd ha (hno a id phase), fun a id phase ha => absurd ha (hno a id phase),
    fun a id phase ha => absurd ha (hno a id phase), fun id _ => hq id⟩

theorem init : ExclInv Threads.init :=
  of_nobody (fun _ _ _ ha => by cases ha) fun _ => Or.inl ⟨Or.inl rfl, rfl⟩

/-- one thread has the flag, and all entries but its own are quiet -/
theorem of_holder {agent : Agent} {id : Str} {phase : Phase} (hin : s.place agent = .inside id phase)
    (hno : ∀ a ≠ agent, ∀ id' phase', s.place a ≠ .inside id' phase') (hf : s.isThreadListUsed = true)
    (hk : phase.Knows (s.cells id)) (hq : ∀ id' ≠ id, (s.cells id').Quiet) : ExclInv s := by
  have only {a : Agent} {id' : Str} {phase' : Phase} (ha : s.place a = .inside id' phase') : a = agent := by
    by_contra hne
    exact hno a hne id' phase' ha
  refine ⟨fun a b _ _ _ _ ha hb => ?_, fun _ _ _ _ => hf, fun a id' phase' ha => ?_, fun id' hfree => ?_⟩
  · exact (only ha).trans (only hb).symm
  · obtain rfl := only ha
    obtain ⟨rfl, rfl⟩ := Place.inside.inj (hin.symm.trans ha)
    exact hk
  · refine hq id' fun hid => ?_
    subst hid
    exact hfree agent phase hin

/-- nobody else has the flag -/
theorem others (h : ExclInv s) {agent : Agent} {id : Str} {phase : Phase} (hin : s.place agent = .inside id phase) :
    ∀ a ≠ agent, ∀ id' phase', s.place a ≠ .inside id' phase' :=
  fun a ha id' phase' hb => ha (h.alone a agent id' id phase' phase hb hin)

/-- the entries that the thread with the flag is not at -/
theorem quiet_of_ne (h : ExclInv s) {agent : Agent} {id : Str} {phase : Phase} (hin : s.place agent = .inside id phase)
    {id' : Str} (hid : id' ≠ id) : (s.cells id').Quiet := by
  refine h.quiet id' fun a phase' ha => ?_
  obtain rfl : a = agent := h.alone a agent id' id phase' phase ha hin
  exact hid (Place.inside.inj (ha.symm.trans hin)).1

/-- a thread sets the flag when it is 0 -/
theorem enter (h : ExclInv s) (hf : s.isThreadListUsed = false) (agent : Agent) (id : Str) {phase : Phase}
    (hk : ∀ c : Cell, c.Quiet → phase.Knows c) :
    ExclInv { s.setPlace agent (.inside id phase) with isThreadListUsed := true } := by
  have nobody (a : Agent) (id : Str) (phase : Phase) : s.place a ≠ .inside id phase := by
    intro ha
    rw [h.flag a id phase ha] at hf
    cases hf
  have quiet (id : Str) : (s.cells id).Quiet := h.quiet id fun a phase => nobody a id phase
  refine of_holder (Function.update_self agent _ _) (fun a ha id' phase' => ?_) rfl (hk _ (quiet id))
    fun id' _ => quiet id'
  simp only [Threads.setPlace, Function.update_of_ne ha]
  exact nobody a id' phase'

/-- the thread that has the flag clears it -/
theorem leave (h : ExclInv s) {agent : Agent} {id : Str} (hin : s.place agent = .inside id .leave) :
    ExclInv { s.setPlace agent (Threads.outside agent) with isThreadListUsed := false } := by
  refine of_nobody (fun a id' phase' => ?_) fun id' => ?_
  · by_cases ha : a = agent
    · subst ha
      simp only [Threads.setPlace, Function.update_self]
      cases a <;> nofun
    · simp only [Threads.setPlace, Function.update_of_ne ha]
      exact h.others hin a ha id' phase'
  · by_cases hid : id' = id
    · subst hid
      exact h.knows agent id' .leave hin
    · exact h.quiet_of_ne hin hid

/-- the thread that has the flag makes its next access -/
theorem access (h : ExclInv s) {agent : Agent} {now : Clock} {id : Str} {phase phase' : Phase} {c' : Cell}
    (hin : s.place agent = .inside id phase) (hs : phase.step id now (s.cells id) = some (c', phase')) :
    ExclInv ((s.setCell id c').setPlace agent (.inside id phase')) := by
  have hin' : ((s.setCell id c').setPlace agent (.inside id phase')).place agent = .inside id phase' :=
    Function.update_self agent _ _
  refine of_holder hin' (fun a ha id1 phase1 => ?_)
    (h.flag agent id phase hin) ?_ fun id1 hid => ?_
  · simp only [Threads.setPlace, Function.update_of_ne ha]
    exact h.others hin a ha id1 phase1
  · simp only [Threads.setPlace, Threads.setCell, Function.update_self]
    exact (h.knows agent id phase hin).step hs
  · simp only [Threads.setPlace, Threads.setCell, Function.update_of_ne hid]
    exact h.quiet_of_ne hin hid

theorem go (h : ExclInv s) {agent : Agent} {now : Clock} (ht : s.go agent now = some t) : ExclInv t := by
  unfold Threads.go at ht
  cases hin : s.place agent with
  | out | pass | seen id => simp [hin] at ht
  | inside id phase =>
    by_cases hleave : phase = .leave
    · subst hleave
      simp only [hin, Option.some.injEq] at ht
      exact ht ▸ h.leave hin
    · have hmap : (phase.step id now (s.cells id)).map (fun r => (s.setCell id r.1).setPlace agent (.inside id r.2)) =
          some t := by
        rw [← ht, hin]
        cases phase <;> first | rfl | exact absurd rfl hleave
      obtain ⟨⟨c', phase'⟩, hs, rfl⟩ := Option.map_eq_some_iff.1 hmap
      exact h.access hin hs

theorem capture (h : ExclInv s) {id : Str} {k : ℕ} {a : Act} {c' : Cell}
    (hc : (s.cells id).capture id k a = some c') : ExclInv (s.setCell id c') := by
  refine ⟨h.alone, h.flag, fun b id1 phase hb => ?_, fun id1 hno => ?_⟩
  · by_cases hid : id1 = id
    · subst hid
      simp only [Threads.setCell, Function.update_self]
      exact (h.knows b id1 phase hb).capture hc
    · simp only [Threads.setCell, Function.update_of_ne hid]
      exact h.knows b id1 phase hb
  · by_cases hid : id1 = id
    · subst hid
      simp only [Threads.setCell, Function.update_self]
      exact (h.quiet id1 hno).capture hc
    · simp only [Threads.setCell, Function.update_of_ne hid]
      exact h.quiet id1 hno

theorem step (h : ExclInv s) {m : Move} (hm : s.Exclusive m) (ht : s.step m = some t) : ExclInv t := by
  cases m with
  | poll =>
    simp only [Threads.step] at ht
    split at ht
    · rename_i hout
      obtain rfl := Option.some.inj ht
      split_ifs
      · exact h
      · exact h.move (by rw [hout]; nofun) nofun
    · cases ht
  | visit id =>
    simp only [Threads.step] at ht
    split at ht
    · rename_i state hpass _
      obtain rfl := Option.some.inj ht
      split_ifs
      · exact h
      · exact h.move (by rw [hpass]; nofun) nofun
    · cases ht
  | mark =>
    simp only [Threads.step] at ht
    split at ht
    · rename_i id _
      obtain rfl := Option.some.inj ht
      exact h.enter hm .scheduler id fun _ hc => hc
    · cases ht
  | endPass =>
    simp only [Threads.step] at ht
    split at ht
    · rename_i hpass
      obtain rfl := Option.some.inj ht
      exact h.move (by rw [hpass]; nofun) nofun
    · cases ht
  | enter r call =>
    simp only [Threads.step] at ht
    split at ht
    · obtain ⟨hf, ht⟩ := Option.ite_none_left_eq_some.1 ht
      obtain rfl := Option.some.inj ht
      have hf : s.isThreadListUsed = false := by simpa using hf
      cases call with
      | add id w cb => exact h.enter hf (.request r) id fun _ hc => hc
      | delete id => exact h.enter hf (.request r) id fun _ hc => hc
      | update id w => exact h.enter hf (.request r) id fun _ hc => hc
    · cases ht
  | go agent now => exact h.go ht
  | capture id k a =>
    obtain ⟨c', hc, rfl⟩ := Option.map_eq_some_iff.1 ht
    exact h.capture hc

end ExclInv

/-- **At most one capture thread per stream**, and none for a cancelled entry, in every state of every run in which the
scheduler finds `isThreadListUsed` 0 each time it sets it. -/
theorem one_capture_thread {s : Threads} {moves : List Move}
    (hl : Steps Threads.step Threads.Exclusive Threads.init moves) (hr : run Threads.step Threads.init moves = some s)
    (id : Str) : (s.cells id).AtMostOne :=
  ExclInv.atMostOne (run_inv (fun _ _ _ h hm ht => h.step hm ht) ExclInv.init hl hr) id

/-! ## The flag taken twice -/

/-- every day from 08:30:00 to 17:30:00 -/
def officeWeek : Week := ⟨List.replicate 7 [⟨⟨8, 30, 0⟩, ⟨17, 30, 0⟩⟩], rfl⟩

def nine : Clock := ⟨.monday, 9 * 3600⟩

def scheduled (n : ℕ) : List Move := List.replicate n (.go .scheduler nine)

/-- `n` accesses of request thread `r` -/
def requested (r n : ℕ) : List Move := List.replicate n (.go (.request r) nine)

def addOne : Request := .add (bytes "1-1") officeWeek .storePlannedStream

def deleteOne : Request := .delete (bytes "1-1")

/-- stream 1-1 is added; the scheduler comes to it -/
def firstVisit : List Move := .enter 0 addOne :: requested 0 3 ++ ([.poll, .visit (bytes "1-1")] : List Move)

/-- the scheduler starts the stream, and then a request deletes it, up to its wait -/
def startThenDelete : List Move :=
  firstVisit ++ .mark :: scheduled 4 ++ .capture (bytes "1-1") 0 .go :: scheduled 2 ++ .enter 0 deleteOne ::
    requested 0 3

theorem one_capture_thread_deleted : ∃ s, run Threads.step Threads.init startThenDelete = some s ∧
    (s.cells (bytes "1-1")).procs.length = 1 ∧ (s.cells (bytes "1-1")).threadState = some .stopping ∧
      (s.cells (bytes "1-1")).AtMostOne := by
  have hl : Steps Threads.step Threads.Exclusive Threads.init startThenDelete := by decide +kernel
  have hr : (run Threads.step Threads.init startThenDelete).map
      (fun s => ((s.cells (bytes "1-1")).procs.length, (s.cells (bytes "1-1")).threadState)) =
        some (1, some .stopping) := by decide +kernel
  obtain ⟨s, hs, hval⟩ := Option.map_eq_some_iff.1 hr
  obtain ⟨hlen, hstate⟩ := Prod.mk.inj hval
  exact ⟨s, hs, hlen, hstate, one_capture_thread hl hs _⟩

/-- the scheduler sets the flag while a request has it, and the request clears it; `DeleteStream` then meets
thread_creating, and the new thread overwrites its thread_stopping -/
def deleteWhileCreating : List Move :=
  firstVisit ++ ([.enter 1 (.update (bytes "1-1") officeWeek), .mark] : List Move) ++ requested 1 2 ++ scheduled 4 ++
    .enter 2 deleteOne :: requested 2 3 ++ .capture (bytes "1-1") 0 .go :: requested 2 2

/-- the request returns, the stream is added again, and the scheduler starts it once more -/
def addAgain : List Move :=
  requested 2 1 ++ .enter 2 addOne :: requested 2 3 ++ scheduled 2 ++
    ([.endPass, .poll, .visit (bytes "1-1"), .mark] : List Move) ++ scheduled 4

/-- the entry is cancelled with its thread alive, and later has two threads -/
theorem flag_taken_twice :
    (∃ s, run Threads.step Threads.init deleteWhileCreating = some s ∧
      (s.cells (bytes "1-1")).threadState = some .cancel ∧ (s.cells (bytes "1-1")).procs.length = 1) ∧
    ∃ s, run Threads.step Threads.init (deleteWhileCreating ++ addAgain) = some s ∧
      (s.cells (bytes "1-1")).procs.length = 2 := by
  have h1 : (run Threads.step Threads.init deleteWhileCreating).map
      (fun s => ((s.cells (bytes "1-1")).threadState, (s.cells (bytes "1-1")).procs.length)) =
        some (some .cancel, 1) := by decide +kernel
  have h2 : (run Threads.step Threads.init (deleteWhileCreating ++ addAgain)).map
      (fun s => (s.cells (bytes "1-1")).procs.length) = some 2 := by decide +kernel
  obtain ⟨s, hs, hval⟩ := Option.map_eq_some_iff.1 h1
  exact ⟨⟨s, hs, Prod.mk.inj hval⟩, Option.map_eq_some_iff.1 h2⟩

end StoreService.Stream
