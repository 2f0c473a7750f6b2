/-
What an event leaves behind (`StreamEventProc`, stream.cpp; `WriteFrameToBuf`, store.cpp; `EventRecode`, http.cpp).

The entry of an event is made by the request and removed by the call of `WriteFrameToBuf` that carries the stop flag; no
other code removes it when the thread of the event returns. The states and steps are those of `Events`, with the frames
delivered so far beside them: a frame that the stop finds no room for is delivered and not accepted. As in `Events`, the
read of the erased entry behind `RemoveStoreEvent`, for a log line, is left out.

`NothingLeft`: when the thread of an event returns, the entry is gone and every frame delivered is in a file.

- `ended_leaves_nothing`: in every run in which a request comes only when the earlier events have ended, no round of a
  thread finds its window over before it has opened, the stream delivers a frame to a capture thread that is to stop,
  and each frame is in order, the run does not fault and every step of it is `NothingLeft`.
- `event_leftovers`: a window in the past leaves the entry; a stream that ends without a call with the stop flag leaves
  the entry and the frames in it; a stop that comes with a frame too large for the rest of the buffer loses the frame.
-/
import StoreService.Store.Events

namespace StoreService.Store

open StoreService.Runs

/-- the events, and the frames `WriteFrameToBuf` was called with -/
structure Traced where
  sys : EventSys
  delivered : List Entry

/-- the frame a step passes on -/
def EventSys.passed (s : EventSys) : EventAct → List Entry
  | .frame i c =>
    if s.phase i = some .capturing ∨ s.phase i = some .stopping then
      (s.entry.map fun d => c.frame.entry c.ms d.frameIndex).toList
    else []
  | _ => []

namespace Traced

def init : Traced := ⟨EventSys.init, []⟩

def step (noRet : ℕ → ℤ) (path : String) (type : RecodeType) (s : Traced) (a : EventAct) : Option Traced :=
  (s.sys.step noRet path type a).map fun t => ⟨t, s.delivered ++ s.sys.passed a⟩

/-- the thread of event `i` returns in the step from `s` to `t` -/
def Returns (s t : Traced) (i : ℕ) : Prop := s.sys.phase i ≠ some .ended ∧ t.sys.phase i = some .ended

/-- **What a finished event owes**: no entry, and every frame in a file -/
def NothingLeft (s t : Traced) : Prop :=
  ∀ i, Returns s t i → t.sys.entry = none ∧ InFiles t.sys.files t.delivered

/-- one event after the other, with a window that opens, a stream that delivers the stop and frames in order -/
def InOrder (noRet : ℕ → ℤ) (s : Traced) (a : EventAct) : Prop :=
  Apart noRet s.sys a ∧
    match a with
    | .poll i now => ∀ e, s.sys.events[i]? = some e → e.phase = .waiting → now ≤ e.endTime
    | .frame i c => ∀ d, s.sys.entry = some d → s.sys.phase i = some .stopping → ¬ d.Full c
    | _ => True

/-! ## The invariant -/

/-- the invariant of the events, and every frame delivered was accepted -/
structure Inv (s : Traced) : Prop where
  events : EventsInv s.sys
  accepted : s.delivered = s.sys.accepted

variable {noRet : ℕ → ℤ} {path : String} {type : RecodeType} {s t : Traced} {a : EventAct}

/-- without the stop of a capture thread no event ends, and the frames passed on are accepted -/
structure Goes (s : EventSys) (a : EventAct) (u : EventSys) : Prop where
  phases : ∀ i, s.phase i ≠ some .ended → u.phase i ≠ some .ended
  accepted : u.accepted = s.accepted ++ s.passed a

theorem goes_poll {s : EventSys} {i : ℕ} {now : ℤ}
    (h : ∀ e, s.events[i]? = some e → e.phase = .waiting → now ≤ e.endTime) :
    Goes s (.poll i now) { s with events := s.events.modify i (Event.poll now) } := by
  refine ⟨fun j hj hend => ?_, (List.append_nil _).symm⟩
  rw [EventSys.phase, List.getElem?_modify, Option.map_eq_map, Option.map_map] at hend
  obtain ⟨e, he, hphase⟩ := Option.map_eq_some_iff.1 hend
  have hne : e.phase ≠ .ended := fun h => hj (by rw [EventSys.phase, he, Option.map_some, h])
  by_cases hij : i = j
  · subst hij
    have hwait := h e he
    simp only [Function.comp_apply, if_true, Event.poll] at hphase
    split_ifs at hphase with hin hover
    · cases hp : e.phase <;> simp [hp] at hphase hne
    · cases hp : e.phase with
      | waiting => exact absurd (hwait hp) (not_le.2 hover)
      | capturing | stopping => simp [hp] at hphase
      | ended => exact hne hp
    · exact hne hphase
  · simp only [Function.comp_apply, if_neg hij] at hphase
    exact hne hphase

theorem goes_request {s : EventSys} (startTime endTime : ℤ) (ping pong : ByteMem.Mem) (pongStart : ℕ)
    (entry : Option StoreDevice) : Goes s (.request startTime endTime ping pong pongStart)
      { s with entry := entry, events := s.events ++ [⟨startTime, endTime, .waiting⟩] } := by
  refine ⟨fun i hi hend => ?_, (List.append_nil _).symm⟩
  rw [EventSys.phase, List.getElem?_append] at hend
  split_ifs at hend with hlt
  · exact hi hend
  · obtain ⟨e, he, hphase⟩ := Option.map_eq_some_iff.1 hend
    rw [List.mem_singleton.1 (List.mem_of_getElem? he)] at hphase
    cases hphase

theorem goes_capture {s u : EventSys} {i : ℕ} {c : Call} (hi : s.phase i = some .capturing)
    (hu : s.capture noRet c = some u) : Goes s (.frame i c) u := by
  obtain ⟨d, hd, hwrite⟩ := Option.bind_eq_some_iff.1 hu
  obtain ⟨d', -, rfl⟩ := Option.map_eq_some_iff.1 hwrite
  refine ⟨fun j hj => hj, ?_⟩
  simp only [EventSys.passed, if_pos (Or.inl hi), hd, Option.map_some, Option.toList_some]

/-- the call with the stop flag: the entry is removed, and the frame is accepted if there is room for it -/
theorem flush_entry {s u : EventSys} {i : ℕ} {c : Call} (hi : s.phase i = some .stopping)
    (hroom : ∀ d, s.entry = some d → ¬ d.Full c) (hu : s.flush c = some u) :
    u.entry = none ∧ u.events = s.events ∧ u.accepted = s.accepted ++ s.passed (.frame i c) := by
  obtain ⟨d, hd, hseal⟩ := Option.bind_eq_some_iff.1 hu
  obtain ⟨d', -, rfl⟩ := Option.map_eq_some_iff.1 hseal
  refine ⟨rfl, rfl, ?_⟩
  simp only [EventSys.passed, if_pos (Or.inr hi), if_neg (hroom d hd), hd, Option.map_some, Option.toList_some]

/-- a step in which no event ends -/
theorem Goes.inv {u : EventSys} (h : Inv s) (hgoes : Goes s.sys a u) (hinv : EventsInv u) :
    Inv ⟨u, s.delivered ++ s.sys.passed a⟩ ∧ NothingLeft s ⟨u, s.delivered ++ s.sys.passed a⟩ := by
  refine ⟨⟨hinv, ?_⟩, fun i hret => absurd hret.2 (hgoes.phases i hret.1)⟩
  rw [hgoes.accepted, ← h.accepted]

/-- the step in which an event ends -/
theorem Inv.flush {u : EventSys} {i : ℕ} {c : Call} (h : Inv s) (hi : s.sys.phase i = some .stopping)
    (hroom : ∀ d, s.sys.entry = some d → ¬ d.Full c) (hu : s.sys.flush c = some u)
    (hinv : EventsInv (u.setPhase i .ended)) :
    Inv ⟨u.setPhase i .ended, s.delivered ++ s.sys.passed (.frame i c)⟩ ∧
      NothingLeft s ⟨u.setPhase i .ended, s.delivered ++ s.sys.passed (.frame i c)⟩ := by
  obtain ⟨hentry, hevents, hacc⟩ := flush_entry hi hroom hu
  have hdelivered : s.delivered ++ s.sys.passed (.frame i c) = (u.setPhase i .ended).accepted := by
    rw [h.accepted, ← hacc]
    rfl
  refine ⟨⟨hinv, hdelivered⟩, fun j _ => ⟨hentry, ?_⟩⟩
  rw [hdelivered]
  apply hinv.undestroyed.written
  obtain ⟨e, he, hphase⟩ := EventSys.phase_eq_some hi
  have hall := h.events.all_ended he (by rw [hphase]; decide)
  rwa [EventSys.setPhase, ← hevents] at hall

theorem Inv.step (h : Inv s) (ha : InOrder noRet s a) :
    ∃ t, s.step noRet path type a = some t ∧ Inv t ∧ NothingLeft s t := by
  obtain ⟨hapart, horder⟩ := ha
  have hstep : ∃ u, s.sys.step noRet path type a = some u ∧ EventsInv u := h.events.step hapart
  obtain ⟨u, hu, hinv⟩ := hstep
  refine ⟨⟨u, s.delivered ++ s.sys.passed a⟩, by rw [Traced.step, hu, Option.map_some], ?_⟩
  cases a with
  | request startTime endTime ping pong pongStart =>
    obtain rfl := Option.some.inj hu
    exact Goes.inv h (goes_request ..) hinv
  | poll i now =>
    obtain rfl := Option.some.inj hu
    exact Goes.inv h (goes_poll horder) hinv
  | frame i c =>
    simp only [EventSys.step, EventSys.frame] at hu
    split at hu
    · rename_i hi
      exact Goes.inv h (goes_capture hi hu) hinv
    · rename_i hi
      obtain ⟨v, hv, rfl⟩ := Option.map_eq_some_iff.1 hu
      exact h.flush hi (fun d hd => horder d hd hi) hv hinv
    · rename_i hcap hstop
      obtain rfl := Option.some.inj hu
      have hnone : ¬ (s.sys.phase i = some .capturing ∨ s.sys.phase i = some .stopping) := not_or.2 ⟨hcap, hstop⟩
      refine Goes.inv h ⟨fun i hi => hi, ?_⟩ hinv
      rw [EventSys.passed, if_neg hnone, List.append_nil]
  | lost i =>
    obtain rfl := Option.some.inj hu
    have hsame : s.sys.lost i = s.sys := by
      unfold EventSys.lost
      split
      · rename_i hi
        exact absurd hi hapart
      · rfl
    rw [hsame] at hinv ⊢
    exact Goes.inv h ⟨fun i hi => hi, (List.append_nil _).symm⟩ hinv
  | serve =>
    obtain rfl := Option.some.inj hu
    exact Goes.inv h ⟨fun i hi => hi, (List.append_nil _).symm⟩ hinv

end Traced

/-- **A finished event leaves nothing behind** in every run whose steps are `InOrder`. -/
theorem ended_leaves_nothing (noRet : ℕ → ℤ) (path : String) (type : RecodeType) (acts : List EventAct)
    (h : Steps (Traced.step noRet path type) (Traced.InOrder noRet) Traced.init acts) :
    (∃ s, run (Traced.step noRet path type) Traced.init acts = some s) ∧
      Steps (Traced.step noRet path type)
        (fun s a => ∀ t, s.step noRet path type a = some t → Traced.NothingLeft s t) Traced.init acts := by
  have hinit : Traced.init.Inv := ⟨EventsInv.init, rfl⟩
  constructor
  · obtain ⟨s, hs, -⟩ := run_total (fun _ _ hs ha => (hs.step ha).imp fun _ ht => ⟨ht.1, ht.2.1⟩) hinit h
    exact ⟨s, hs⟩
  · refine steps_guarantee (fun s a hs ha t ht => ?_) (fun s a t hs ha ht => ?_) hinit h
    · obtain ⟨u, hu, -, hnothing⟩ := hs.step ha
      rwa [← Option.some.inj (hu.symm.trans ht)]
    · obtain ⟨u, hu, hinv, -⟩ := hs.step ha
      rwa [← Option.some.inj (hu.symm.trans ht)]

/-- a sufficient condition that can be computed -/
def Traced.Calm (s : Traced) (a : EventAct) : Bool :=
  Roomy s.sys a &&
    match a with
    | .poll i now => (s.sys.events[i]?).all fun e => e.phase ≠ .waiting || decide (now ≤ e.endTime)
    | _ => true

theorem Traced.Calm.inOrder {noRet : ℕ → ℤ} {s : Traced} {a : EventAct} (h : s.Calm a = true) : s.InOrder noRet a := by
  obtain ⟨hroomy, hpoll⟩ := Bool.and_eq_true_iff.1 h
  refine ⟨Roomy.apart hroomy, ?_⟩
  cases a with
  | poll i now =>
    intro e he hwait
    dsimp only at hpoll
    rw [he, Option.all_some, Bool.or_eq_true] at hpoll
    simpa [hwait] using hpoll
  | frame i c =>
    intro d hd _
    rw [Roomy, hd, Option.all_some] at hroomy
    exact (of_decide_eq_true hroomy).1
  | request | lost | serve => trivial

theorem ended_leaves_nothing_two : Steps (Traced.step (fun t => t) "" .manual)
    (fun s a => ∀ t, s.step (fun t => t) "" .manual a = some t → Traced.NothingLeft s t) Traced.init twoEvents := by
  have hcalm : Steps (Traced.step (fun t => t) "" .manual) (fun s a => s.Calm a = true) Traced.init twoEvents := by
    decide +kernel
  exact (ended_leaves_nothing (fun t => t) "" .manual twoEvents (hcalm.mono fun _ _ => Traced.Calm.inOrder)).2

/-! ## Leftovers -/

theorem total_le_of_subperm {L L' : List Entry} (h : L.Subperm L') : total L ≤ total L' := by
  obtain ⟨K, hperm, hsub⟩ := h
  calc total L = total K := (hperm.map Entry.size).sum_eq.symm
    _ ≤ total L' := (hsub.map Entry.size).sum_le_sum fun _ _ => Nat.zero_le _

/-- files have room for so many bytes of frames -/
theorem InFiles.total_le {files : List ByteMem.Mem} {L : List Entry} (h : InFiles files L) :
    total L ≤ files.length * storeBufMaxSize := by
  obtain ⟨F, hF, hL⟩ := h
  refine (total_le_of_subperm hL).trans ?_
  clear hL
  induction hF with
  | nil => exact Nat.zero_le _
  | cons hstored _ ih =>
    rw [List.flatten_cons, total_append, List.length_cons, Nat.add_one_mul, add_comm]
    exact Nat.add_le_add ih hstored.room

/-- an event whose window is over when its thread first looks -/
def pastWindow : List EventAct := [zeroRequest 0 10]

/-- an event with one frame, at its end -/
def oneFrame : List EventAct := [zeroRequest 0 10, .poll 0 5, .frame 0 (zeroCall 10), .poll 0 11]

/-- the last step of a run: the states before and after it -/
def lastStep (acts : List EventAct) (a : EventAct) : Option (Traced × Traced) :=
  (run (Traced.step (fun t => t) "" .manual) Traced.init acts).bind fun s =>
    (s.step (fun t => t) "" .manual a).map fun t => (s, t)

theorem lastStep_delivered {acts : List EventAct} {a : EventAct} {s t : Traced} (h : lastStep acts a = some (s, t)) :
    t.delivered = s.delivered ++ s.sys.passed a := by
  obtain ⟨r, -, hr⟩ := Option.bind_eq_some_iff.1 h
  obtain ⟨u, hu, heq⟩ := Option.map_eq_some_iff.1 hr
  obtain ⟨rfl, rfl⟩ := Prod.mk.inj heq
  obtain ⟨v, -, rfl⟩ := Option.map_eq_some_iff.1 hu
  rfl

/-- an entry that is left, or more bytes delivered than the files have room for -/
theorem not_nothingLeft {s t : Traced} {i : ℕ} (hreturns : Traced.Returns s t i)
    (hleft : t.sys.entry.isSome ∨ t.sys.files.length * storeBufMaxSize < total t.delivered) :
    ¬ Traced.NothingLeft s t := by
  intro hnothing
  obtain ⟨hnone, hin⟩ := hnothing i hreturns
  rcases hleft with h | h
  · rw [hnone] at h
    cases h
  · exact absurd hin.total_le (not_le.2 h)

/-- the entry is there when the thread of the event has returned -/
theorem entry_left {acts : List EventAct} {a : EventAct} {before : EventPhase} (hbefore : before ≠ .ended)
    (heval : (lastStep acts a).map (fun p => (p.1.sys.phase 0, p.2.sys.phase 0, p.2.sys.entry.isSome)) =
      some (some before, some .ended, true)) :
    ∃ s t, lastStep acts a = some (s, t) ∧ t.sys.entry.isSome ∧ ¬ Traced.NothingLeft s t := by
  obtain ⟨⟨s, t⟩, hlast, hproj⟩ := Option.map_eq_some_iff.1 heval
  simp only [Prod.mk.injEq] at hproj
  obtain ⟨hs, ht, hentry⟩ := hproj
  have hreturns : Traced.Returns s t 0 := ⟨by rw [hs]; exact fun h => hbefore (Option.some.inj h), ht⟩
  exact ⟨s, t, hlast, hentry, not_nothingLeft hreturns (Or.inl hentry)⟩

/-- **Three leftovers**: a window that is over, a stream that ends without the stop, and a last frame too large. -/
theorem event_leftovers :
    (∃ s t, lastStep pastWindow (.poll 0 11) = some (s, t) ∧ t.sys.entry.isSome ∧ ¬ Traced.NothingLeft s t) ∧
    (∃ s t, lastStep oneFrame (.lost 0) = some (s, t) ∧ t.sys.entry.isSome ∧ ¬ Traced.NothingLeft s t) ∧
    ∃ s t, lastStep oneFrame (.frame 0 (zeroCall storeBufMaxSize)) = some (s, t) ∧ ¬ Traced.NothingLeft s t := by
  have hpast : (lastStep pastWindow (.poll 0 11)).map (fun p => (p.1.sys.phase 0, p.2.sys.phase 0,
      p.2.sys.entry.isSome)) = some (some .waiting, some .ended, true) := by decide +kernel
  have hlost : (lastStep oneFrame (.lost 0)).map (fun p => (p.1.sys.phase 0, p.2.sys.phase 0,
      p.2.sys.entry.isSome)) = some (some .stopping, some .ended, true) := by decide +kernel
  have hlarge : (lastStep oneFrame (.frame 0 (zeroCall storeBufMaxSize))).map (fun p => (p.1.sys.phase 0,
      p.1.sys.entry.isSome, total p.1.delivered, p.2.sys.phase 0, p.2.sys.files.length)) =
        some (some .stopping, true, 10, some .ended, 1) := by decide +kernel
  refine ⟨entry_left (by decide) hpast, entry_left (by decide) hlost, ?_⟩
  obtain ⟨⟨s, t⟩, hlast, hproj⟩ := Option.map_eq_some_iff.1 hlarge
  simp only [Prod.mk.injEq] at hproj
  obtain ⟨hs, hentry, hbytes, ht, hfiles⟩ := hproj
  obtain ⟨d, hd⟩ := Option.isSome_iff_exists.1 hentry
  refine ⟨s, t, hlast, not_nothingLeft ⟨by rw [hs]; decide, ht⟩ (Or.inr ?_)⟩
  rw [lastStep_delivered hlast, total_append, hbytes, hfiles, EventSys.passed, if_pos (Or.inr hs), hd, Option.map_some,
    Option.toList_some, total_cons, Frame.entry_size, total_nil]
  have hsize : (zeroCall storeBufMaxSize).frame.size = storeBufMaxSize := rfl
  omega

end StoreService.Store
