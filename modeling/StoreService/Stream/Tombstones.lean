/-
Deleted streams (`stream.cpp`): the entries that `DeleteStream` leaves in `streamThreadList` as `thread_cancel`.

What the list is for is a map from stream ids to schedule and callback (`StreamMap`): adding fails on an id that is
there, deleting and updating on one that is not. `AddStream`, `DeleteStream` and the scheduler treat a cancelled entry
as absent; `UpdateRecodeSchedule` does not look at the state of the entry it finds.

- `toMap_call`: whatever a call answers, what is left in the list and in the map is the same.
- `result_eq_iff`: the answer is the same unless the call is an update of a cancelled entry.
- `tombstones_simulate_iff`: a sequence of calls and scheduler passes is answered like the map, with the same streams to
  start at every point, exactly if no update names a cancelled stream when it is made.
- `update_accepts_deleted`: an update after a delete succeeds, where the map refuses it.

Calls and passes do not overlap, and `StreamProc` answers its handshakes, as in `Threads`; ids and callbacks are not
null.
-/
import StoreService.Core.Simulation
import StoreService.Stream.Threads

namespace StoreService.Stream

open StoreService.Json StoreService.Schedule StoreService.Simulation

inductive StreamCall where
  | add (streamId : Str) (schedule : Week) (streamCb : StreamCb)
  | delete (streamId : Str)
  | update (streamId : Str) (schedule : Week)
  /-- a pass of the scheduler -/
  | pass (now : Str → Clock)

/-- keep the state a call returns, and answer with its error, if any -/
def settle {S : Type} (s : S) : Except ErrorNo S → S × Option ErrorNo
  | .ok s' => (s', none)
  | .error e => (s, some e)

def StreamList.call (l : StreamList) : StreamCall → StreamList × Option ErrorNo
  | .add id w cb => settle l (l.addStream id w cb)
  | .delete id => settle l (l.deleteStream id)
  | .update id w => settle l (l.updateRecodeSchedule id w)
  | .pass now => (l.tick now, none)

/-! ## The map -/

/-- the streams that are registered, with schedule and callback -/
abbrev StreamMap := Str → Option (Week × StreamCb)

namespace StreamMap

def add (m : StreamMap) (id : Str) (w : Week) (cb : StreamCb) : Except ErrorNo StreamMap :=
  match m id with
  | some _ => .error .deviceAlreadyExist
  | none => .ok (Function.update m id (some (w, cb)))

def delete (m : StreamMap) (id : Str) : Except ErrorNo StreamMap :=
  match m id with
  | some _ => .ok (Function.update m id none)
  | none => .error .doNotFindCamera

def update (m : StreamMap) (id : Str) (w : Week) : Except ErrorNo StreamMap :=
  match m id with
  | some (_, cb) => .ok (Function.update m id (some (w, cb)))
  | none => .error .doNotFindCamera

def call (m : StreamMap) : StreamCall → StreamMap × Option ErrorNo
  | .add id w cb => settle m (m.add id w cb)
  | .delete id => settle m (m.delete id)
  | .update id w => settle m (m.update id w)
  | .pass _ => (m, none)

end StreamMap

/-! ## The list as this map -/

/-- what a stream that is not cancelled has in the map -/
def StreamThread.value (e : StreamThread) : Option (Week × StreamCb) :=
  if e.threadState = .cancel then none else some (e.recSchedule, e.streamCb)

namespace StreamList

/-- the entries the scheduler does not skip -/
def toMap (l : StreamList) : StreamMap := fun id => (l id).bind StreamThread.value

/-- a cancelled entry -/
def Tombstone (l : StreamList) (id : Str) : Prop := ∃ e, l id = some e ∧ e.threadState = .cancel

/-- the call is no update of a cancelled entry -/
def SparesTombstones (l : StreamList) : StreamCall → Prop
  | .update id _ => ¬ l.Tombstone id
  | _ => True

/-- the callback of a stream whose capture thread runs -/
def recording (l : StreamList) (id : Str) : Option StreamCb :=
  (l id).bind fun e => if e.threadState = .running then some e.streamCb else none

variable {l : StreamList} {id : Str}

theorem toMap_update (l : StreamList) (id : Str) (e : StreamThread) :
    toMap (Function.update l id (some e)) = Function.update l.toMap id e.value :=
  Function.comp_update (fun o : Option StreamThread => o.bind StreamThread.value) l id (some e)

theorem toMap_none (h : l id = none) : l.toMap id = none := by rw [toMap, h]; rfl

theorem toMap_cancel {e : StreamThread} (h : l id = some e) (hc : e.threadState = .cancel) : l.toMap id = none := by
  rw [toMap, h, Option.bind_some, StreamThread.value, if_pos hc]

theorem toMap_some {e : StreamThread} (h : l id = some e) (hc : e.threadState ≠ .cancel) :
    l.toMap id = some (e.recSchedule, e.streamCb) := by
  rw [toMap, h, Option.bind_some, StreamThread.value, if_neg hc]

/-- an entry is absent, cancelled or in the map -/
theorem entry_cases (l : StreamList) (id : Str) :
    l id = none ∨ (∃ e, l id = some e ∧ e.threadState = .cancel) ∨ ∃ e, l id = some e ∧ e.threadState ≠ .cancel := by
  cases h : l id with
  | none => exact Or.inl rfl
  | some e =>
    by_cases hc : e.threadState = .cancel
    · exact Or.inr (Or.inl ⟨e, rfl, hc⟩)
    · exact Or.inr (Or.inr ⟨e, rfl, hc⟩)

/-! ## One call -/

theorem call_add (l : StreamList) (id : Str) (w : Week) (cb : StreamCb) :
    (l.call (.add id w cb)).1.toMap = (l.toMap.call (.add id w cb)).1 ∧
      (l.call (.add id w cb)).2 = (l.toMap.call (.add id w cb)).2 := by
  have hnew := toMap_update l id ⟨id, cb, .stopped, w⟩
  rcases l.entry_cases id with h | ⟨e, h, hc⟩ | ⟨e, h, hc⟩
  · simp only [call, addStream, StreamMap.call, StreamMap.add, h, toMap_none h, settle]
    exact ⟨hnew, trivial⟩
  · simp only [call, addStream, StreamMap.call, StreamMap.add, h, toMap_cancel h hc, hc, if_true, settle]
    exact ⟨hnew, trivial⟩
  · simp only [call, addStream, StreamMap.call, StreamMap.add, h, toMap_some h hc, hc, if_false, settle]
    exact ⟨trivial, trivial⟩

theorem call_delete (l : StreamList) (id : Str) :
    (l.call (.delete id)).1.toMap = (l.toMap.call (.delete id)).1 ∧
      (l.call (.delete id)).2 = (l.toMap.call (.delete id)).2 := by
  rcases l.entry_cases id with h | ⟨e, h, hc⟩ | ⟨e, h, hc⟩
  · simp only [call, deleteStream, StreamMap.call, StreamMap.delete, h, toMap_none h, settle]
    exact ⟨trivial, trivial⟩
  · simp only [call, deleteStream, StreamMap.call, StreamMap.delete, h, toMap_cancel h hc, hc, ne_eq, not_true_eq_false,
      if_false, settle]
    exact ⟨trivial, trivial⟩
  · simp only [call, deleteStream, StreamMap.call, StreamMap.delete, h, toMap_some h hc, hc, ne_eq, not_false_eq_true,
      if_true, settle]
    exact ⟨toMap_update l id _, trivial⟩

/-- an update of a cancelled entry is not seen in the map, but it is not refused either -/
theorem call_update (l : StreamList) (id : Str) (w : Week) :
    (l.call (.update id w)).1.toMap = (l.toMap.call (.update id w)).1 ∧
      ((l.call (.update id w)).2 = (l.toMap.call (.update id w)).2 ↔ ¬ l.Tombstone id) := by
  rcases l.entry_cases id with h | ⟨e, h, hc⟩ | ⟨e, h, hc⟩
  · have hno : ¬ l.Tombstone id := by
      rintro ⟨e, he, -⟩
      rw [h] at he
      cases he
    simp only [call, updateRecodeSchedule, StreamMap.call, StreamMap.update, h, toMap_none h, settle]
    exact ⟨trivial, iff_of_true trivial hno⟩
  · have hmap : Function.update l.toMap id none = l.toMap := Function.update_eq_self_iff.2 (toMap_cancel h hc).symm
    simp only [call, updateRecodeSchedule, StreamMap.call, StreamMap.update, h, toMap_cancel h hc, settle]
    refine ⟨?_, iff_of_false nofun (not_not.2 ⟨e, h, hc⟩)⟩
    rw [toMap_update, StreamThread.value, if_pos hc, hmap]
  · have hno : ¬ l.Tombstone id := by
      rintro ⟨e', he', hc'⟩
      rw [h] at he'
      cases he'
      exact hc hc'
    simp only [call, updateRecodeSchedule, StreamMap.call, StreamMap.update, h, toMap_some h hc, settle]
    refine ⟨?_, iff_of_true trivial hno⟩
    rw [toMap_update, StreamThread.value, if_neg hc]

theorem value_scheduleStream (now : Clock) (e : StreamThread) : (scheduleStream now e).value = e.value := by
  by_cases hc : e.threadState = .cancel
  · rw [scheduleStream, if_pos hc]
  · have hcb : (scheduleStream now e).streamCb = e.streamCb := by
      rw [scheduleStream_eq now hc]
      unfold startStreamThread stopStreamThread
      split_ifs <;> rfl
    rw [StreamThread.value, StreamThread.value, if_neg (scheduleStream_kept hc), if_neg hc, scheduleStream_schedule,
      hcb]

theorem toMap_tick (l : StreamList) (now : Str → Clock) : (l.tick now).toMap = l.toMap := by
  funext id
  rw [toMap, tick, toMap, Option.bind_map]
  exact congrArg (Option.bind (l id)) (funext fun e => value_scheduleStream (now id) e)

/-- **What a call leaves** is the same in the list and in the map -/
theorem toMap_call (l : StreamList) (c : StreamCall) : (l.call c).1.toMap = (l.toMap.call c).1 := by
  cases c with
  | add id w cb => exact (l.call_add id w cb).1
  | delete id => exact (l.call_delete id).1
  | update id w => exact (l.call_update id w).1
  | pass now => exact l.toMap_tick now

/-- **What a call answers** is the same unless it updates a cancelled entry -/
theorem result_eq_iff (l : StreamList) (c : StreamCall) :
    (l.call c).2 = (l.toMap.call c).2 ↔ l.SparesTombstones c := by
  cases c with
  | add id w cb => exact iff_of_true (l.call_add id w cb).2 trivial
  | delete id => exact iff_of_true (l.call_delete id).2 trivial
  | update id w => exact (l.call_update id w).2
  | pass now => exact iff_of_true rfl trivial

end StreamList

/-! ## Sequences of calls -/

/-- a stream that is not cancelled waits for nothing -/
def StreamList.AllSettled (l : StreamList) : Prop := ∀ id e, l id = some e → e.threadState ≠ .cancel → Settled e

namespace StreamList.AllSettled

variable {l : StreamList}

theorem update (h : l.AllSettled) (id : Str) {e : StreamThread} (he : e.threadState ≠ .cancel → Settled e) :
    AllSettled (Function.update l id (some e)) := by
  intro i e' hi hc
  by_cases hid : i = id
  · subst hid
    obtain rfl : e = e' := by simpa using hi
    exact he hc
  · rw [Function.update_of_ne hid] at hi
    exact h i e' hi hc

theorem call (h : l.AllSettled) (c : StreamCall) : (l.call c).1.AllSettled := by
  cases c with
  | add id w cb =>
    have hnew : AllSettled (Function.update l id (some ⟨id, cb, .stopped, w⟩)) := h.update id fun _ => Or.inr rfl
    simp only [StreamList.call, addStream]
    split
    · split_ifs
      · exact hnew
      · exact h
    · exact hnew
  | delete id =>
    simp only [StreamList.call, deleteStream]
    split
    · split_ifs
      · exact h.update id fun hc => absurd rfl hc
      · exact h
    · exact h
  | update id w =>
    simp only [StreamList.call, updateRecodeSchedule]
    split
    · rename_i e he
      exact h.update id fun hc => h id e he hc
    · exact h
  | pass now =>
    intro id e he hc
    obtain ⟨e0, he0, rfl⟩ := Option.map_eq_some_iff.1 he
    exact (h id e0 he0 (scheduleStream_registered hc)).tick (now id)

end StreamList.AllSettled

/-- **The streams the scheduler may start** are those of the map: it looks at these entries and no others, and after a
pass at any time the captures that run are those whose schedule covers it, with their callbacks -/
structure Follows (l : StreamList) (m : StreamMap) : Prop where
  entries : l.toMap = m
  started : ∀ (now : Str → Clock) (id : Str) (cb : StreamCb), (l.tick now).recording id = some cb ↔
    ∃ w, m id = some (w, cb) ∧ ∃ v ∈ w.day (now id).day, v.covers (now id).sec = true

theorem StreamList.AllSettled.follows {l : StreamList} (h : l.AllSettled) : Follows l l.toMap := by
  refine ⟨rfl, fun now id cb => ?_⟩
  rw [recording, tick]
  rcases l.entry_cases id with he | ⟨e, he, hc⟩ | ⟨e, he, hc⟩
  · rw [he, toMap_none he]
    refine iff_of_false ?_ ?_
    · intro hnone
      cases hnone
    · rintro ⟨w, hw, -⟩
      cases hw
  · have hskip : scheduleStream (now id) e = e := by rw [scheduleStream, if_pos hc]
    rw [he, toMap_cancel he hc, Option.map_some, Option.bind_some, hskip, hc]
    refine iff_of_false ?_ ?_
    · intro hnone
      cases hnone
    · rintro ⟨w, hw, -⟩
      cases hw
  · have hstate := scheduleStream_state (now id) (h id e he hc)
    have hvalue := value_scheduleStream (now id) e
    rw [StreamThread.value, StreamThread.value, if_neg hc, if_neg (scheduleStream_kept hc), Option.some.injEq,
      Prod.mk.injEq] at hvalue
    rw [he, toMap_some he hc, Option.map_some, Option.bind_some, hstate, hvalue.2]
    by_cases hcovers : ∃ v ∈ e.recSchedule.day (now id).day, v.covers (now id).sec = true
    · rw [if_pos hcovers, if_pos rfl]
      constructor
      · intro hcb
        cases hcb
        exact ⟨_, rfl, hcovers⟩
      · rintro ⟨w, hw, -⟩
        cases hw
        rfl
    · rw [if_neg hcovers, if_neg (by decide)]
      refine iff_of_false ?_ ?_
      · intro hnone
        cases hnone
      · rintro ⟨w, hw, hcov⟩
        cases hw
        exact hcovers hcov

/-- **Simulation**: the calls are answered like the map, and at every point the streams to start are those of the map -/
structure Simulates (calls : List StreamCall) : Prop where
  results : outputs StreamList.call (fun _ => none) calls = outputs StreamMap.call (fun _ => none) calls
  starts : ∀ done, done <+: calls →
    Follows (final StreamList.call (fun _ => none) done) (final StreamMap.call (fun _ => none) done)

/-- **Cancelled entries behave as absent ones** exactly in the sequences in which no update names a cancelled stream. -/
theorem tombstones_simulate_iff (calls : List StreamCall) :
    Simulates calls ↔ Along StreamList.call StreamList.SparesTombstones (fun _ => none) calls := by
  -- the relation both sides keep, whatever is answered
  let R (l : StreamList) (m : StreamMap) : Prop := l.AllSettled ∧ l.toMap = m
  have hstep (l : StreamList) (m : StreamMap) (c : StreamCall) : R l m → R (l.call c).1 (m.call c).1 := by
    rintro ⟨hset, rfl⟩
    exact ⟨hset.call c, l.toMap_call c⟩
  have hout (l : StreamList) (m : StreamMap) (c : StreamCall) : R l m →
      ((l.call c).2 = (m.call c).2 ↔ l.SparesTombstones c) := by
    rintro ⟨-, rfl⟩
    exact l.result_eq_iff c
  have hinit : R (fun _ => none) fun _ => none := ⟨nofun, rfl⟩
  rw [← outputs_eq_iff hstep hout hinit]
  refine ⟨fun h => h.results, fun h => ⟨h, fun done _ => ?_⟩⟩
  obtain ⟨hset, hmap⟩ := final_sim hstep hinit done
  rw [← hmap]
  exact hset.follows

/-- day and night, each day of the week -/
def allDays : List (List Interval) := List.replicate 7 [⟨⟨0, 0, 0⟩, ⟨23, 59, 59⟩⟩]

theorem length_allDays : allDays.length = 7 := rfl

/-- record day and night -/
def allWeek : Week := ⟨allDays, length_allDays⟩

/-- a stream is added, deleted and given a new schedule -/
def deletedCalls : List StreamCall :=
  [.add (bytes "1-1") allWeek .storePlannedStream, .delete (bytes "1-1"), .update (bytes "1-1") allWeek]

/-- **An update after a delete** is accepted, where the map refuses it. -/
theorem update_accepts_deleted :
    outputs StreamList.call (fun _ => none) deletedCalls = [none, none, none] ∧
      outputs StreamMap.call (fun _ => none) deletedCalls = [none, none, some .doNotFindCamera] ∧
      ¬ Simulates deletedCalls := by
  have hlist : outputs StreamList.call (fun _ => none) deletedCalls = [none, none, none] := by decide +kernel
  have hmap : outputs StreamMap.call (fun _ => none) deletedCalls = [none, none, some .doNotFindCamera] := by
    decide +kernel
  refine ⟨hlist, hmap, fun h => ?_⟩
  have heq := h.results
  rw [hlist, hmap] at heq
  exact absurd heq (by decide)

end StoreService.Stream
