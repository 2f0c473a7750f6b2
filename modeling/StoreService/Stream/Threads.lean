/-
The list of streams and its scheduler (`stream.cpp`).

An entry of `streamThreadList` has a schedule and a `thread_state`; deleting a stream leaves the entry behind as
`thread_cancel`, and adding it again takes the entry up. Once a second `StreamScheduleProc` looks up the schedule of
each entry and starts or stops its capture thread, and waits until `StreamProc` has answered (`answer`).

- `recording_follows_schedule`: whatever streams were added, deleted, given new schedules and scheduled before, after a
  tick a registered stream is running if an interval posted for the weekday contains the second of day, and stopped
  otherwise.

The requests and the scheduler exclude each other through `isThreadListUsed`; here each of them is one step, with its
waits ended. `StreamProc` itself is the subject of `Stream.Capture`.
-/
import StoreService.Common.Schedule
import StoreService.Core.Runs

namespace StoreService.Stream

open StoreService.Json StoreService.Schedule StoreService.Runs

inductive ThreadState where
  | creating
  | running
  | stopping
  | stopped
  | cancel
deriving DecidableEq, Repr

/-- the callbacks of `main.cpp` -/
inductive StreamCb where
  | storePlannedStream
  | storeManualStream
  | storeAlarmStream
deriving DecidableEq, Repr

/-- `struct stream_thread` -/
structure StreamThread where
  streamId : Str
  streamCb : StreamCb
  threadState : ThreadState
  recSchedule : Week

/-- `streamThreadList` -/
abbrev StreamList := Str → Option StreamThread

/-! ## The scheduler -/

/-- what `StreamProc` makes of a state that waits for it -/
def answer : ThreadState → ThreadState
  | .creating => .running
  | .stopping => .stopped
  | s => s

/-- `StartStreamThread` -/
def startStreamThread (e : StreamThread) : StreamThread :=
  if e.threadState ≠ .stopped then e else { e with threadState := answer .creating }

/-- `StopStreamThread` -/
def stopStreamThread (e : StreamThread) : StreamThread :=
  if e.threadState ≠ .running then e else { e with threadState := answer .stopping }

/-- local time, as far as the scheduler looks at it -/
structure Clock where
  day : Weekday
  sec : ℕ

/-- the body of `StreamScheduleProc`'s loop over the list -/
def scheduleStream (now : Clock) (e : StreamThread) : StreamThread :=
  if e.threadState = .cancel then e
  else
    let daySchedule := e.recSchedule.day now.day
    -- where the loop over the intervals breaks, or their number
    let j := daySchedule.findIdx (·.covers now.sec)
    let e := if j < daySchedule.length then startStreamThread e else e
    if j = daySchedule.length then stopStreamThread e else e

/-- one pass over the list; the clock is read for each entry -/
def StreamList.tick (l : StreamList) (now : Str → Clock) : StreamList := fun id => (l id).map (scheduleStream (now id))

/-! ## Requests -/

/-- `AddStream` -/
def StreamList.addStream (l : StreamList) (streamId : Str) (schedule : Week) (streamCb : StreamCb) :
    Except ErrorNo StreamList :=
  match l streamId with
  | some e =>
    if e.threadState = .cancel then
      .ok (Function.update l streamId (some ⟨streamId, streamCb, .stopped, schedule⟩))
    else .error .deviceAlreadyExist
  | none => .ok (Function.update l streamId (some ⟨streamId, streamCb, .stopped, schedule⟩))

/-- `DeleteStream`, once a thread that was running has stopped -/
def StreamList.deleteStream (l : StreamList) (streamId : Str) : Except ErrorNo StreamList :=
  match l streamId with
  | some e =>
    if e.threadState ≠ .cancel then .ok (Function.update l streamId (some { e with threadState := .cancel }))
    else .error .doNotFindCamera
  | none => .error .doNotFindCamera

/-- `UpdateRecodeSchedule`; it does not look at the state of the entry -/
def StreamList.updateRecodeSchedule (l : StreamList) (streamId : Str) (schedule : Week) : Except ErrorNo StreamList :=
  match l streamId with
  | some e => .ok (Function.update l streamId (some { e with recSchedule := schedule }))
  | none => .error .doNotFindCamera

/-- the streams that are not cancelled, with their schedules -/
def StreamList.registered (l : StreamList) (id : Str) : Option Week :=
  (l id).bind fun e => if e.threadState = .cancel then none else some e.recSchedule

/-! ## Runs -/

/-- the list, with the JSON last posted for each stream -/
structure Service where
  list : StreamList
  posted : Str → Option Str

inductive Op where
  | add (streamId json : Str) (streamCb : StreamCb)
  | delete (streamId : Str)
  | update (streamId json : Str)
  | tick (now : Str → Clock)

namespace Service

def init : Service := ⟨fun _ => none, fun _ => none⟩

/-- keep the list a request returns -/
def commit (s : Service) (streamId json : Str) : Except ErrorNo StreamList → Service
  | .ok l => ⟨l, Function.update s.posted streamId (some json)⟩
  | .error _ => s

/-- a schedule is posted: it is parsed, and if it is accepted `request` is made with it -/
def post (J : Codec) (s : Service) (streamId json : Str) (request : Week → Except ErrorNo StreamList) :
    Option Service :=
  match parseSchedule J json with
  | none => none
  | some (.error _) => some s
  | some (.ok w) => some (s.commit streamId json (request w))

def step (J : Codec) (s : Service) : Op → Option Service
  | .add id json cb => s.post J id json fun w => s.list.addStream id w cb
  | .delete id =>
    match s.list.deleteStream id with
    | .ok l => some { s with list := l }
    | .error _ => some s
  | .update id json => s.post J id json fun w => s.list.updateRecodeSchedule id w
  | .tick now => some { s with list := s.list.tick now }

end Service

/-! ## One tick -/

/-- a capture thread that waits for nothing -/
def Settled (e : StreamThread) : Prop := e.threadState = .running ∨ e.threadState = .stopped

theorem startStreamThread_state {e : StreamThread} (h : Settled e) : (startStreamThread e).threadState = .running := by
  unfold startStreamThread
  rcases h with h | h
  · rw [if_pos (by rw [h]; decide), h]
  · rw [if_neg (not_not.2 h)]
    rfl

theorem stopStreamThread_state {e : StreamThread} (h : Settled e) : (stopStreamThread e).threadState = .stopped := by
  unfold stopStreamThread
  rcases h with h | h
  · rw [if_neg (not_not.2 h)]
    rfl
  · rw [if_pos (by rw [h]; decide), h]

theorem startStreamThread_schedule (e : StreamThread) : (startStreamThread e).recSchedule = e.recSchedule := by
  unfold startStreamThread
  split_ifs <;> rfl

theorem stopStreamThread_schedule (e : StreamThread) : (stopStreamThread e).recSchedule = e.recSchedule := by
  unfold stopStreamThread
  split_ifs <;> rfl

/-- the scan of the intervals and the index test after it -/
theorem scheduleStream_eq {e : StreamThread} (now : Clock) (h : e.threadState ≠ .cancel) : scheduleStream now e =
    if ∃ v ∈ e.recSchedule.day now.day, v.covers now.sec then startStreamThread e else stopStreamThread e := by
  simp only [scheduleStream, if_neg h]
  by_cases hex : ∃ v ∈ e.recSchedule.day now.day, v.covers now.sec = true
  · have hlt := List.findIdx_lt_length_of_exists hex
    rw [if_pos hex, if_pos hlt, if_neg hlt.ne]
  · have heq : (e.recSchedule.day now.day).findIdx (·.covers now.sec) = (e.recSchedule.day now.day).length := by
      refine List.findIdx_eq_length.2 fun v hv => ?_
      rw [Bool.eq_false_iff]
      exact fun hc => hex ⟨v, hv, hc⟩
    rw [if_neg hex, heq, if_neg (lt_irrefl _), if_pos rfl]

theorem scheduleStream_schedule (now : Clock) (e : StreamThread) :
    (scheduleStream now e).recSchedule = e.recSchedule := by
  by_cases h : e.threadState = .cancel
  · rw [scheduleStream, if_pos h]
  · rw [scheduleStream_eq now h]
    split_ifs
    · exact startStreamThread_schedule e
    · exact stopStreamThread_schedule e

theorem scheduleStream_state {e : StreamThread} (now : Clock) (h : Settled e) : (scheduleStream now e).threadState =
    if ∃ v ∈ e.recSchedule.day now.day, v.covers now.sec then .running else .stopped := by
  have hc : e.threadState ≠ .cancel := by rcases h with h | h <;> simp [h]
  rw [scheduleStream_eq now hc]
  split_ifs
  · exact startStreamThread_state h
  · exact stopStreamThread_state h

theorem scheduleStream_kept {e : StreamThread} {now : Clock} (h : e.threadState ≠ .cancel) :
    (scheduleStream now e).threadState ≠ .cancel := by
  rw [scheduleStream_eq now h]
  unfold startStreamThread stopStreamThread
  split_ifs
  all_goals first | exact h | simp [answer]

/-- the scheduler does not register a cancelled stream -/
theorem scheduleStream_registered {e : StreamThread} {now : Clock} (h : (scheduleStream now e).threadState ≠ .cancel) :
    e.threadState ≠ .cancel := by
  intro hc
  rw [scheduleStream, if_pos hc] at h
  exact h hc

theorem Settled.tick {e : StreamThread} (now : Clock) (h : Settled e) : Settled (scheduleStream now e) := by
  rw [Settled, scheduleStream_state now h]
  split_ifs
  · exact Or.inl rfl
  · exact Or.inr rfl

/-- an interval of the table covers a second if the posted one does -/
theorem covers_iff_span (v : Interval) (sec : ℕ) : v.covers sec = true ↔ v.span.1 ≤ sec ∧ (sec : ℤ) ≤ v.span.2 := by
  simp [Interval.covers, Interval.span]

/-! ## The list as a map -/

namespace StreamList

variable {l : StreamList} {id : Str} {w : Week}

theorem registered_update (l : StreamList) (id : Str) (e : StreamThread) : registered (Function.update l id (some e)) =
    Function.update l.registered id (if e.threadState = .cancel then none else some e.recSchedule) :=
  Function.comp_update (fun o : Option StreamThread =>
    o.bind fun e => if e.threadState = .cancel then none else some e.recSchedule) l id (some e)

theorem addStream_of_none (cb : StreamCb) (h : l.registered id = none) :
    ∃ l', l.addStream id w cb = .ok l' ∧ l'.registered = Function.update l.registered id (some w) := by
  have hnew := registered_update l id ⟨id, cb, .stopped, w⟩
  unfold addStream
  unfold registered at h
  cases hl : l id with
  | none => exact ⟨_, rfl, hnew⟩
  | some e =>
    have hc : e.threadState = .cancel := by simpa [hl] using h
    exact ⟨_, if_pos hc, hnew⟩

theorem deleteStream_registered (l : StreamList) (id : Str) :
    ((l.deleteStream id).toOption.getD l).registered = Function.update l.registered id none := by
  unfold deleteStream
  cases hl : l id with
  | none =>
    have hr : l.registered id = none := by simp [registered, hl]
    exact (Function.update_eq_self_iff.2 hr.symm).symm
  | some e =>
    by_cases hc : e.threadState = .cancel
    · have hr : l.registered id = none := by simp [registered, hl, hc]
      simp only [hc, ne_eq, not_true_eq_false, if_false]
      exact (Function.update_eq_self_iff.2 hr.symm).symm
    · simp only [ne_eq, hc, not_false_eq_true, if_true]
      exact (registered_update l id _).trans (by simp)

theorem updateRecodeSchedule_registered {w' : Week} (h : l.registered id = some w') :
    ((l.updateRecodeSchedule id w).toOption.getD l).registered = Function.update l.registered id (some w) := by
  unfold registered at h
  unfold updateRecodeSchedule
  cases hl : l id with
  | none => simp [hl] at h
  | some e =>
    have hc : e.threadState ≠ .cancel := by
      intro hc
      simp [hl, hc] at h
    exact (registered_update l id _).trans (by simp [hc])

theorem tick_registered (l : StreamList) (now : Str → Clock) : (l.tick now).registered = l.registered := by
  funext id
  simp only [registered, tick]
  cases l id with
  | none => rfl
  | some e =>
    by_cases hc : e.threadState = .cancel
    · simp [scheduleStream, hc]
    · have hc' : (scheduleStream (now id) e).threadState ≠ .cancel := scheduleStream_kept hc
      simp [hc, hc', scheduleStream_schedule]

end StreamList

/-! ## Every run -/

/-- a registered stream waits for nothing and has the schedule last posted for it -/
structure OnSchedule (J : Codec) (posted : Str → Option Str) (id : Str) (e : StreamThread) : Prop where
  settled : Settled e
  posted : ∃ json, posted id = some json ∧ parseSchedule J json = some (.ok e.recSchedule)

def ListInv (J : Codec) (s : Service) : Prop :=
  ∀ id e, s.list id = some e → e.threadState ≠ .cancel → OnSchedule J s.posted id e

namespace ListInv

variable {J : Codec} {s t : Service}

/-- one entry and the schedule posted for it change -/
theorem update (h : ListInv J s) {id json : Str} {e : StreamThread}
    (he : e.threadState ≠ .cancel → Settled e ∧ parseSchedule J json = some (.ok e.recSchedule)) :
    ListInv J ⟨Function.update s.list id (some e), Function.update s.posted id (some json)⟩ := by
  intro id' e' hl hreg
  by_cases hid : id' = id
  · subst hid
    obtain rfl : e = e' := by simpa using hl
    exact ⟨(he hreg).1, json, by simp, (he hreg).2⟩
  · simp only [Function.update_of_ne hid] at hl
    obtain ⟨hset, json', hj, hp⟩ := h id' e' hl hreg
    exact ⟨hset, json', by simpa [Function.update_of_ne hid] using hj, hp⟩

theorem add (h : ListInv J s) {id json : Str} {w : Week} (cb : StreamCb) (hw : parseSchedule J json = some (.ok w)) :
    ListInv J (s.commit id json (s.list.addStream id w cb)) := by
  have hnew : ListInv J
      ⟨Function.update s.list id (some ⟨id, cb, .stopped, w⟩), Function.update s.posted id (some json)⟩ :=
    h.update fun _ => ⟨Or.inr rfl, hw⟩
  unfold StreamList.addStream
  cases s.list id with
  | none => exact hnew
  | some e =>
    simp only
    split_ifs
    · exact hnew
    · exact h

theorem updateSchedule (h : ListInv J s) {id json : Str} {w : Week} (hw : parseSchedule J json = some (.ok w)) :
    ListInv J (s.commit id json (s.list.updateRecodeSchedule id w)) := by
  unfold StreamList.updateRecodeSchedule
  cases hl : s.list id with
  | none => exact h
  | some e => exact h.update fun hreg => ⟨(h id e hl hreg).settled, hw⟩

theorem post (h : ListInv J s) {id json : Str} {request : Week → Except ErrorNo StreamList}
    (hreq : ∀ w, parseSchedule J json = some (.ok w) → ListInv J (s.commit id json (request w)))
    (ht : s.post J id json request = some t) : ListInv J t := by
  unfold Service.post at ht
  split at ht
  · cases ht
  · exact Option.some.inj ht ▸ h
  · rename_i w hw
    exact Option.some.inj ht ▸ hreq w hw

theorem delete (h : ListInv J s) {id : Str} {l : StreamList} (hl : s.list.deleteStream id = .ok l) :
    ListInv J { s with list := l } := by
  unfold StreamList.deleteStream at hl
  cases he : s.list id with
  | none => simp [he] at hl
  | some e =>
    simp only [he] at hl
    split_ifs at hl
    obtain rfl := Except.ok.inj hl
    intro id' e' hl' hreg
    by_cases hid : id' = id
    · subst hid
      obtain rfl : { e with threadState := ThreadState.cancel } = e' := by simpa using hl'
      exact absurd rfl hreg
    · simp only [Function.update_of_ne hid] at hl'
      exact h id' e' hl' hreg

theorem tick (h : ListInv J s) (now : Str → Clock) : ListInv J { s with list := s.list.tick now } := by
  intro id e hl hreg
  obtain ⟨e0, he0, rfl⟩ := Option.map_eq_some_iff.1 hl
  obtain ⟨hset, json, hj, hp⟩ := h id e0 he0 (scheduleStream_registered hreg)
  exact ⟨hset.tick (now id), json, hj, by rw [scheduleStream_schedule]; exact hp⟩

theorem step {op : Op} (h : ListInv J s) (ht : s.step J op = some t) : ListInv J t := by
  cases op with
  | add id json cb => exact h.post (fun w hw => h.add cb hw) ht
  | delete id =>
    simp only [Service.step] at ht
    split at ht
    · rename_i l hl
      exact Option.some.inj ht ▸ h.delete hl
    · exact Option.some.inj ht ▸ h
  | update id json => exact h.post (fun w hw => h.updateSchedule hw) ht
  | tick now => exact Option.some.inj ht ▸ h.tick now

end ListInv

theorem listInv_of_run {J : Codec} {s : Service} {ops : List Op} (hr : run (Service.step J) Service.init ops = some s) :
    ListInv J s :=
  run_inv (P := fun _ _ => True) (fun _ _ _ h _ ht => h.step ht) (fun _ _ h => by cases h)
    (Steps.of_forall fun _ _ _ => trivial) hr

/-- **Recording follows the posted schedule.** In every run of requests and ticks, a tick leaves a registered stream
running if an interval posted for the weekday contains the second of day, and stopped otherwise. -/
theorem recording_follows_schedule {J : Codec} {s t : Service} {ops : List Op}
    (hr : run (Service.step J) Service.init ops = some s) {now : Str → Clock} (ht : s.step J (.tick now) = some t)
    {id : Str} {e : StreamThread} (he : t.list id = some e) (hreg : e.threadState ≠ .cancel) :
    ∃ json obj, t.posted id = some json ∧ J.parse json = some obj ∧
      e.threadState = if ∃ v ∈ posted obj (now id).day, v.1 ≤ (now id).sec ∧ ((now id).sec : ℤ) ≤ v.2 then .running
        else .stopped := by
  have hinv := listInv_of_run hr
  obtain rfl := Option.some.inj ht
  obtain ⟨json, hj, hp⟩ := (hinv.tick now id e he hreg).posted
  obtain ⟨e0, he0, rfl⟩ := Option.map_eq_some_iff.1 he
  rw [scheduleStream_schedule] at hp
  obtain ⟨obj, hobj, hposted⟩ := parseSchedule_posted hp
  refine ⟨json, obj, hj, hobj, ?_⟩
  rw [scheduleStream_state (now id) (hinv id e0 he0 (scheduleStream_registered hreg)).settled, ← hposted]
  simp only [covers_iff_span, List.mem_map, exists_exists_and_eq_and]

/-- half past eight to half past five, every day -/
def officeDay : CJson := .array [.str (.ofStr (bytes "08:30:00-17:30:00") (by decide))]

def officeText : Str :=
  bytes ("[[\"08:30:00-17:30:00\"],[\"08:30:00-17:30:00\"],[\"08:30:00-17:30:00\"],[\"08:30:00-17:30:00\"]," ++
    "[\"08:30:00-17:30:00\"],[\"08:30:00-17:30:00\"],[\"08:30:00-17:30:00\"]]")

/-- a parser that knows this text -/
def officeCodec : Codec where
  parse s := if s = officeText then some (.array (List.replicate 7 officeDay)) else none
  print _ := officeText
  parse_nil := if_neg (by decide)

def officeClock : Str → Clock := fun _ => ⟨.monday, 9 * 3600⟩

theorem recording_follows_schedule_office : ∃ s t e,
    run (Service.step officeCodec) Service.init [.add (bytes "1-1") officeText .storePlannedStream] = some s ∧
      s.step officeCodec (.tick officeClock) = some t ∧ t.list (bytes "1-1") = some e ∧ e.threadState = .running ∧
        ∃ json obj, t.posted (bytes "1-1") = some json ∧ officeCodec.parse json = some obj ∧
          e.threadState = if ∃ v ∈ posted obj .monday, v.1 ≤ 9 * 3600 ∧ 9 * 3600 ≤ v.2 then .running else .stopped := by
  have hrun : (run (Service.step officeCodec) Service.init [.add (bytes "1-1") officeText .storePlannedStream]).map
      (fun s => ((s.list.tick officeClock) (bytes "1-1")).map (·.threadState)) = some (some .running) := by
    decide +kernel
  obtain ⟨s, hs, he⟩ := Option.map_eq_some_iff.1 hrun
  obtain ⟨e, he, hstate⟩ := Option.map_eq_some_iff.1 he
  exact ⟨s, _, e, hs, rfl, he, hstate, recording_follows_schedule hs rfl he (by rw [hstate]; decide)⟩

end StoreService.Stream
