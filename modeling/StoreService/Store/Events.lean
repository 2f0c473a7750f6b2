/-
Event recordings of one camera and one type (`EventRecode`, `AddStoreEvent`, `StreamEventProc`, `WriteFrameToBuf`).

An EventRecode request adds a store entry and starts a thread that waits for the window of the event, starts a capture
thread in it and stops that at the end of it. The entry has the camera and the type for a key: a second request finds
the entry of the first, gives it new buffers and rewinds it, and the stop of one event removes it.

State: the entry, the events with the phase their thread is in, the files written and, as a ghost, the frames
`WriteFrameToBuf` has accepted. Polls (with the time they read), frames, requests and the writer interleave freely. A
frame write to an entry that is not there is a null pointer (`none`).

`Undestroyed`: every accepted frame is in a written file, in the buffer the writer has been given or in the current
buffer; when all events have ended all of them are in files; and an event that captures has an entry.

- `events_kept`: if a request comes only when the earlier events have ended, and every recording on its own is in order
  (`Alone`: the frames fit, the writer keeps up, the stream delivers a frame after the end of the window and the flush
  keeps the first record), then the run does not fault and every state of it is `Undestroyed`.
- `overlap_destroys`: a second request discards the frame of the first event; and the stop of one event removes the
  entry to which another still delivers, whose next frame is written through a null pointer.

A frame is in a file if its bytes are; whether its record survives a stop flush is in `Image`. Files have names of their
own here (`Catalogue` has the names). Mallocs succeed (`Lists` has their failures) and threads are created. At its end
`WriteFrameToBuf` compares two offsets of the entry, for a log line; after a stop this reads the entry that
`RemoveStoreEvent` has just erased, in every run. The read is left out, with the line it is for.
-/
import Mathlib.Data.List.Perm.Subperm
import StoreService.Store.Image

namespace StoreService.Store

open StoreService.ByteMem StoreService.KeyFrame StoreService.Runs

/-! ## Events -/

/-- where the thread of an event is: before the capture thread, with it, waiting for it to stop, or gone -/
inductive EventPhase where
  | waiting
  | capturing
  | stopping
  | ended
deriving DecidableEq, Repr

structure Event where
  startTime : ℤ
  endTime : ℤ
  phase : EventPhase
deriving DecidableEq, Repr

/-- the event has a capture thread -/
def Event.active (e : Event) : Prop := e.phase = .capturing ∨ e.phase = .stopping

/-- a round of `StreamEventProc`. `StartStreamThread` does nothing to a thread that runs, and `StopStreamThread` waits
for one that does. -/
def Event.poll (now : ℤ) (e : Event) : Event :=
  if e.startTime ≤ now ∧ now ≤ e.endTime then
    match e.phase with
    | .waiting => { e with phase := .capturing }
    | _ => e
  else if now > e.endTime then
    match e.phase with
    | .waiting => { e with phase := .ended }
    | .capturing => { e with phase := .stopping }
    | _ => e
  else e

/-- `AddStoreEvent`: an entry that is there gets new buffers and keeps its frame counter and pong's start time -/
def addStoreEvent (path : String) (type : RecodeType) (ping pong : Mem) (pongStart : ℕ) :
    Option StoreDevice → StoreDevice
  | none => addStoreDevice path type ping pong pongStart
  | some d =>
    { addStoreDevice d.storePath type ping pong d.pongStoreBuf.storeStartTime with frameIndex := d.frameIndex }

structure EventSys where
  /-- `storeManualList[devId]` or `storeAlarmList[devId]` -/
  entry : Option StoreDevice
  events : List Event
  files : List Mem
  /-- the frames `WriteFrameToBuf` has stored -/
  accepted : List Entry

inductive EventAct where
  /-- `EventRecode`, with the contents of the memory it allocates -/
  | request (startTime endTime : ℤ) (ping pong : Mem) (pongStart : ℕ)
  /-- a round of the thread of event `i` -/
  | poll (i : ℕ) (now : ℤ)
  /-- the stream of event `i` delivers a frame -/
  | frame (i : ℕ) (c : Call)
  /-- the capture thread of event `i` ends without a call that carries the stop flag -/
  | lost (i : ℕ)
  /-- the writer comes to the entry -/
  | serve

namespace EventSys

def init : EventSys := ⟨none, [], [], []⟩

/-- a frame with flag 0 -/
def capture (noRet : ℕ → ℤ) (s : EventSys) (c : Call) : Option EventSys :=
  s.entry.bind fun d => (d.writeFrameToBuf noRet { c with flag := false }).map fun d' =>
    { s with entry := some d', accepted := s.accepted ++ [c.frame.entry c.ms d.frameIndex] }

/-- a frame with flag 1: the writer empties the slot, writes the flushed buffer, and the entry is removed -/
def flush (s : EventSys) (c : Call) : Option EventSys :=
  s.entry.bind fun d => ({ d with pStoreBufWr := none }.stopSeal c).map fun d' : StoreDevice =>
    { s with
      entry := none
      files := s.files ++ d.written ++ d'.written
      accepted := if d.Full c then s.accepted else s.accepted ++ [c.frame.entry c.ms d.frameIndex] }

def setPhase (s : EventSys) (i : ℕ) (p : EventPhase) : EventSys :=
  { s with events := s.events.modify i fun e => { e with phase := p } }

def frame (noRet : ℕ → ℤ) (s : EventSys) (i : ℕ) (c : Call) : Option EventSys :=
  match (s.events[i]?).map Event.phase with
  | some .capturing => s.capture noRet c
  | some .stopping => (s.flush c).map fun t => t.setPhase i .ended
  | _ => some s

def lost (s : EventSys) (i : ℕ) : EventSys :=
  match (s.events[i]?).map Event.phase with
  | some .stopping => s.setPhase i .ended
  | _ => s

def serve (s : EventSys) : EventSys :=
  { s with
    entry := s.entry.map fun d => { d with pStoreBufWr := none }
    files := s.files ++ (s.entry.map StoreDevice.written).getD [] }

def step (noRet : ℕ → ℤ) (path : String) (type : RecodeType) (s : EventSys) : EventAct → Option EventSys
  | .request startTime endTime ping pong pongStart =>
    some { s with
      entry := some (addStoreEvent path type ping pong pongStart s.entry)
      events := s.events ++ [⟨startTime, endTime, .waiting⟩] }
  | .poll i now => some { s with events := s.events.modify i (Event.poll now) }
  | .frame i c => s.frame noRet i c
  | .lost i => some (s.lost i)
  | .serve => some s.serve

end EventSys

/-! ## Where the frames are -/

/-- the frames stand back to back from byte 0 of the bytes, which the writer accepts -/
structure Stored (m : Mem) (F : List Entry) : Prop where
  bytes : slice m 0 (total F) = F.flatMap Entry.bytes
  room : total F ≤ storeBufMaxSize
  head : F ≠ [] → (readInfo m (slotPos 0)).head = storeInfoHead

/-- the frames are in files, each file with its own -/
def InFiles (files : List Mem) (L : List Entry) : Prop :=
  ∃ F, List.Forall₂ Stored files F ∧ L.Subperm F.flatten

/-- the frames of the slot's buffer, which is not the current one -/
def InSlot (d : StoreDevice) (P : List Entry) : Prop :=
  match d.pStoreBufWr with
  | none => P = []
  | some i => i ≠ d.pCurStoreBuf ∧ Stored (d.buf i).storeBuf P

/-- `P` are the frames the writer has been given, `L` those of the current buffer -/
def InEntry : Option StoreDevice → List Entry → List Entry → Prop
  | none, P, L => P = [] ∧ L = []
  | some d, P, L => InSlot d P ∧ Holds d.cur L

/-- **What overlapping recordings may not break**: every accepted frame is kept, in a file when all events have ended,
and an event that still gets frames has its entry. -/
structure Undestroyed (s : EventSys) : Prop where
  kept : ∃ W P L, InFiles s.files W ∧ InEntry s.entry P L ∧ s.accepted.Subperm (W ++ (P ++ L))
  written : (∀ e ∈ s.events, e.phase = .ended) → InFiles s.files s.accepted
  entry : ∀ e ∈ s.events, e.active → s.entry.isSome

/-! ## Recordings one after the other -/

/-- a frame of a recording that is in order: it fits an empty buffer, a tail move finds a key frame and leaves room, and
the writer has emptied the slot before a rotation -/
structure FrameOk (noRet : ℕ → ℤ) (d : StoreDevice) (c : Call) : Prop where
  admissible : Admissible noRet d c
  tail : TailFits noRet d c
  slot : d.Full c → d.pStoreBufWr = none

/-- a flush that appends its frame keeps the record in the last slot -/
def FlushOk (d : StoreDevice) (c : Call) : Prop :=
  ¬ d.Full c → d.cur.storeInfoOffset + c.frame.size + 2 * sizeofStoreInfo ≤ storeBufMaxSize

def EventSys.phase (s : EventSys) (i : ℕ) : Option EventPhase := (s.events[i]?).map Event.phase

/-- a request comes when the earlier events have ended, and each recording is in order -/
def Apart (noRet : ℕ → ℤ) (s : EventSys) : EventAct → Prop
  | .request .. => ∀ e ∈ s.events, e.phase = .ended
  | .frame i c => ∀ d, s.entry = some d →
      (s.phase i = some .capturing → FrameOk noRet d { c with flag := false }) ∧
        (s.phase i = some .stopping → FlushOk d c)
  | .lost i => s.phase i ≠ some .stopping
  | _ => True

/-! ## Frames on their way to a file -/

theorem Indexed.flatMap_bytes {m : Mem} {off j : ℕ} {L : List Entry} (h : Indexed m off j L) :
    slice m off (total L) = L.flatMap Entry.bytes := by
  induction L generalizing off j with
  | nil => rfl
  | cons e L ih =>
    obtain ⟨-, hbytes, hrest⟩ := h
    rw [total_cons, slice_add, hbytes, ih hrest, List.flatMap_cons]

theorem Image.stored {m : Mem} {F : List Entry} (h : Image m F) : Stored m F := by
  have hroom := h.room
  refine ⟨h.indexed.flatMap_bytes, by omega, fun hne => ?_⟩
  exact h.holds.head_slot 0 (List.length_pos_iff.2 hne)

theorem InFiles.append {files files' : List Mem} {L L' : List Entry} (h : InFiles files L) (h' : InFiles files' L') :
    InFiles (files ++ files') (L ++ L') := by
  obtain ⟨F, hF, hL⟩ := h
  obtain ⟨F', hF', hL'⟩ := h'
  refine ⟨F ++ F', List.rel_append hF hF', ?_⟩
  rw [List.flatten_append]
  exact hL.append hL'

theorem InFiles.mono {files : List Mem} {L L' : List Entry} (h : InFiles files L) (hL : L'.Subperm L) :
    InFiles files L' := by
  obtain ⟨F, hF, hsub⟩ := h
  exact ⟨F, hF, hL.trans hsub⟩

theorem inFiles_nil : InFiles [] [] := ⟨[], .nil, List.nil_subperm⟩

/-- the writer brings the frames of the slot to a file -/
theorem written_inFiles {d : StoreDevice} {i : BufId} {P : List Entry} (hi : d.pStoreBufWr = some i)
    (hsize : (d.buf i).storeSize = storeBufMaxSize) (h : Stored (d.buf i).storeBuf P) : InFiles d.written P := by
  simp only [StoreDevice.written, hi, hsize, ← slotPos_zero]
  split_ifs with hhead
  · exact ⟨[P], .cons h .nil, by simpa using List.Subperm.refl P⟩
  · -- a buffer that is dropped had no frames
    have hnil : P = [] := by
      by_contra hne
      exact hhead (h.head hne)
    rw [hnil]
    exact inFiles_nil

theorem InSlot.written {d : StoreDevice} {P : List Entry} (h : InSlot d P)
    (hsize : ∀ i, (d.buf i).storeSize = storeBufMaxSize) : InFiles d.written P := by
  unfold InSlot at h
  cases hi : d.pStoreBufWr with
  | none =>
    rw [hi] at h
    obtain rfl : P = [] := h
    simp only [StoreDevice.written, hi]
    exact inFiles_nil
  | some i =>
    rw [hi] at h
    exact written_inFiles hi (hsize i) h.2

section Device

variable {noRet : ℕ → ℤ} {d : StoreDevice} {P L : List Entry} {c : Call}

/-- the frames a tail move copies start with those the buffer holds from the key frame on -/
theorem tail_moved (h : Holds d.cur L) {k : ℕ} (hk : k ≤ L.length) {R : List StoreInfo}
    (hR : d.tail (slotPos k) = some R) : L.drop k <+: R.map (StoreInfo.moved d.cur.storeBuf) := by
  have hroom := h.room
  have hlen : (L.drop k).length = L.length - k := List.length_drop
  obtain ⟨fuel, hfuel⟩ : ∃ fuel, storeBufMaxSize / sizeofStoreInfo + 1 = fuel + (L.drop k).length :=
    ⟨storeBufMaxSize / sizeofStoreInfo + 1 - (L.drop k).length, by simp only [sizeofStoreInfo]; omega⟩
  rw [StoreDevice.tail, hfuel, (h.indexed.drop hk).walk_append (by omega)] at hR
  obtain ⟨R', -, rfl⟩ := Option.map_eq_some_iff.1 hR
  rw [List.map_append, (h.indexed.drop hk).moved_infos]
  exact List.prefix_append _ _

/-- an append: one frame more in the current buffer, and the slot is not touched -/
theorem append_inEntry (noRet : ℕ → ℤ) (hs : InSlot d P) (h : Holds d.cur L) (hflag : c.flag = false)
    (hf : ¬ d.Full c) :
    ∃ d', d.writeFrameToBuf noRet c = some d' ∧ InSlot d' P ∧
      Holds d'.cur (L ++ [c.frame.entry c.ms d.frameIndex]) := by
  have hfit := hf
  rw [StoreDevice.full_iff h] at hfit
  obtain ⟨d', hd', h', -⟩ := StoreDevice.store_holds h c (by omega)
  obtain ⟨hcur, hwr, -, hother, -⟩ := StoreDevice.store_frame hd'
  refine ⟨d', ?_, ?_, h'⟩
  · rw [StoreDevice.writeFrameToBuf_of_flag_false hflag, StoreDevice.writeFrame_append hf, hd']
  · unfold InSlot at hs ⊢
    rw [hwr]
    cases hi : d.pStoreBufWr with
    | none =>
      rw [hi] at hs
      exact hs
    | some i =>
      rw [hi] at hs
      obtain ⟨hne, hstored⟩ := hs
      refine ⟨by rwa [hcur], ?_⟩
      rw [StoreDevice.eq_other_of_ne hne] at hstored ⊢
      rwa [hother]

/-- a rotation: the frames it seals go to the slot, and the current buffer has the others and the new one -/
theorem rotate_inEntry (h : Holds d.cur L) (hf : d.Full c) (ha : Admissible noRet d c) (ht : TailFits noRet d c) :
    ∃ d' K M, d.writeFrameToBuf noRet c = some d' ∧ InSlot d' K ∧
      Holds d'.cur (M ++ [c.frame.entry c.ms d.frameIndex]) ∧ L.Subperm (K ++ M) := by
  obtain ⟨d', M, hd', hM, hkey, hmove⟩ := rotate_holds h hf ha ht
  obtain ⟨-, -, -, hcur, hwr, -⟩ := StoreDevice.writeFrame_rotates hf hd'
  rw [← StoreDevice.writeFrameToBuf_of_flag_false ha.flag] at hd'
  have hslot : InSlot d' (sealedFrames noRet d L c) := by
    rw [InSlot, hwr]
    exact ⟨by rw [hcur]; exact StoreDevice.ne_other _, (image_rotate h ha.flag hf hd').stored⟩
  refine ⟨d', _, M, hd', hslot, hM, ?_⟩
  rw [sealedFrames, if_neg (by simp [ha.flag])]
  by_cases hk : parseKeyFrame noRet c.frame.data 0 c.frame.size = 0
  · rw [if_pos hk, hkey hk, List.append_nil]
  · obtain ⟨k, hkL, R, hs, hR, rfl⟩ := hmove hk
    rw [if_neg hk, hs]
    simp only [h.slotOf_slotPos hkL]
    -- stale records the move may have copied stand behind the frames it should copy
    have hsub := (List.Sublist.refl (L.take k)).append (tail_moved h hkL.le hR).sublist
    rw [List.take_append_drop] at hsub
    exact hsub.subperm

/-- a flush whose frame does not fit: the buffer is sealed as it is -/
theorem flush_full (h : Holds d.cur L) (hf : d.Full c) :
    ∃ d', d.stopSeal c = some d' ∧ Stored d'.cur.storeBuf L := by
  obtain ⟨d', hd'⟩ := stopSeal_returns h fun hnf => absurd hf hnf
  refine ⟨d', hd', ?_⟩
  rw [StoreDevice.stopSeal_full hf hd']
  exact (image_sealed h).stored

/-- a flush that appends its frame: the bytes of all frames stay, and the record in the last slot does -/
theorem flush_fits (h : Holds d.cur L) (hf : ¬ d.Full c)
    (hkeep : d.cur.storeInfoOffset + c.frame.size + 2 * sizeofStoreInfo ≤ storeBufMaxSize) :
    ∃ d', d.stopSeal c = some d' ∧ Stored d'.cur.storeBuf (L ++ [c.frame.entry c.ms d.frameIndex]) := by
  obtain ⟨d', hd'⟩ := stopSeal_returns (c := c) h fun _ => by omega
  obtain ⟨b, -, hholds, hmem, hend, -⟩ := StoreDevice.stopSeal_appends h hf hd'
  have hslot := slotPos_zero_add
  have hroom := hholds.room
  refine ⟨d', hd', ?_⟩
  rw [hmem]
  refine ⟨?_, by omega, fun _ => ?_⟩
  · rw [slice_sameOn (sameOn_memset (Or.inl (by simp))), hholds.indexed.flatMap_bytes]
  · rw [head_memset (by simp only [sizeofStoreInfo] at hkeep hend ⊢; omega)]
    exact hholds.head_slot 0 (by simp)

/-- a flush in order brings what the buffer holds to a file, and its own frame if that fits -/
theorem flush_inFiles (h : Holds d.cur L) (hsize : d.cur.storeSize = storeBufMaxSize) (hok : FlushOk d c) :
    ∃ d', { d with pStoreBufWr := none }.stopSeal c = some d' ∧
      InFiles d'.written (if d.Full c then L else L ++ [c.frame.entry c.ms d.frameIndex]) := by
  obtain ⟨d', hd', hstored⟩ : ∃ d', { d with pStoreBufWr := none }.stopSeal c = some d' ∧
      Stored d'.cur.storeBuf (if d.Full c then L else L ++ [c.frame.entry c.ms d.frameIndex]) := by
    by_cases hf : d.Full c
    · rw [if_pos hf]
      exact flush_full (d := { d with pStoreBufWr := none }) h hf
    · rw [if_neg hf]
      exact flush_fits (d := { d with pStoreBufWr := none }) h hf (hok hf)
  obtain ⟨hpcur, hwr, -, hfields⟩ := StoreDevice.stopSeal_frame hd'
  refine ⟨d', hd', written_inFiles hwr ((hfields _).1.trans hsize) ?_⟩
  rwa [StoreDevice.cur, hpcur] at hstored

/-- a frame in order is in the entry afterwards, with all that was there before -/
theorem frame_inEntry (hslot : InSlot d P) (hcur : Holds d.cur L) (hok : FrameOk noRet d c) :
    ∃ d' P' L', d.writeFrameToBuf noRet c = some d' ∧ InSlot d' P' ∧ Holds d'.cur L' ∧
      (P ++ L ++ [c.frame.entry c.ms d.frameIndex]).Subperm (P' ++ L') := by
  obtain ⟨ha, ht, hfree⟩ := hok
  by_cases hf : d.Full c
  · obtain ⟨d', K, M, hd', hK, hM, hsub⟩ := rotate_inEntry hcur hf ha ht
    have hP : P = [] := by
      rw [InSlot, hfree hf] at hslot
      exact hslot
    refine ⟨d', K, _, hd', hK, hM, ?_⟩
    rw [hP, List.nil_append, ← List.append_assoc]
    exact hsub.append (List.Subperm.refl _)
  · obtain ⟨d', hd', hP, hL⟩ := append_inEntry noRet hslot hcur ha.flag hf
    refine ⟨d', P, _, hd', hP, hL, ?_⟩
    rw [List.append_assoc]

end Device

/-! ## The invariant -/

/-- only one event has not ended, its entry is there, and without a capture thread the entry is empty -/
structure EventsInv (s : EventSys) : Prop where
  size : ∀ d, s.entry = some d → ∀ i, (d.buf i).storeSize = storeBufMaxSize
  kept : ∃ W P L, InFiles s.files W ∧ InEntry s.entry P L ∧ s.accepted.Subperm (W ++ (P ++ L)) ∧
    ((∀ e ∈ s.events, ¬ e.active) → P = [] ∧ L = [])
  one : ∀ (i j : ℕ) (e f : Event), s.events[i]? = some e → s.events[j]? = some f →
    e.phase ≠ .ended → f.phase ≠ .ended → i = j
  entry : ∀ e ∈ s.events, e.phase ≠ .ended → s.entry.isSome

theorem Event.poll_ended {now : ℤ} {e : Event} (h : (e.poll now).phase ≠ .ended) : e.phase ≠ .ended := by
  intro he
  apply h
  unfold Event.poll
  split_ifs <;> simp [he]

theorem Event.active.poll {now : ℤ} {e : Event} (h : e.active) : (e.poll now).active := by
  unfold Event.poll
  rcases h with h | h
  · split_ifs <;> simp [h, Event.active]
  · split_ifs <;> simp [h, Event.active]

theorem Event.active.not_ended {e : Event} (h : e.active) : e.phase ≠ .ended := by
  rcases h with h | h <;> simp [h]

theorem EventSys.phase_eq_some {s : EventSys} {i : ℕ} {p : EventPhase} (h : s.phase i = some p) :
    ∃ e, s.events[i]? = some e ∧ e.phase = p := Option.map_eq_some_iff.1 h

namespace EventsInv

variable {noRet : ℕ → ℤ} {s : EventSys}

theorem init : EventsInv EventSys.init := by
  refine ⟨nofun, ⟨[], [], [], inFiles_nil, ⟨rfl, rfl⟩, List.nil_subperm, fun _ => ⟨rfl, rfl⟩⟩, ?_, nofun⟩
  intro i j e f he
  cases he

theorem undestroyed (h : EventsInv s) : Undestroyed s := by
  obtain ⟨W, P, L, hW, hentry, hacc, hidle⟩ := h.kept
  refine ⟨⟨W, P, L, hW, hentry, hacc⟩, fun hended => ?_, fun e he hact => h.entry e he hact.not_ended⟩
  obtain ⟨rfl, rfl⟩ := hidle fun e he hact => hact.not_ended (hended e he)
  rw [List.append_nil, List.append_nil] at hacc
  exact hW.mono hacc

/-- a request after the end of all events: the entry it rewinds is empty -/
theorem request (h : EventsInv s) (hended : ∀ e ∈ s.events, e.phase = .ended) (path : String) (type : RecodeType)
    (startTime endTime : ℤ) (ping pong : Mem) (pongStart : ℕ) :
    EventsInv { s with
      entry := some (addStoreEvent path type ping pong pongStart s.entry)
      events := s.events ++ [⟨startTime, endTime, .waiting⟩] } := by
  have hnew : InSlot (addStoreEvent path type ping pong pongStart s.entry) [] ∧
      Holds (addStoreEvent path type ping pong pongStart s.entry).cur [] ∧
      ∀ i, ((addStoreEvent path type ping pong pongStart s.entry).buf i).storeSize = storeBufMaxSize := by
    cases s.entry with
    | none => exact ⟨rfl, addStoreDevice_holds _ _ _ _ _, fun i => by cases i <;> rfl⟩
    | some d => exact ⟨rfl, ⟨rfl, rfl, by decide, trivial⟩, fun i => by cases i <;> rfl⟩
  -- an event that has not ended is the new one
  have hlast : ∀ (i : ℕ) (e : Event), (s.events ++ [⟨startTime, endTime, .waiting⟩])[i]? = some e → e.phase ≠ .ended →
      i = s.events.length := by
    intro i e he hne
    by_contra hi
    have hlt : i < s.events.length := by
      have := (List.getElem?_eq_some_iff.1 he).1
      rw [List.length_append, List.length_singleton] at this
      omega
    rw [List.getElem?_append_left hlt] at he
    exact hne (hended e (List.mem_of_getElem? he))
  refine ⟨?_, ?_, fun i j e f he hf hne hnf => (hlast i e he hne).trans (hlast j f hf hnf).symm, fun _ _ _ => rfl⟩
  · intro d hd
    cases hd
    exact hnew.2.2
  · exact ⟨s.accepted, [], [], h.undestroyed.written hended, ⟨hnew.1, hnew.2.1⟩, by simpa using List.Subperm.refl _,
      fun _ => ⟨rfl, rfl⟩⟩

theorem poll (h : EventsInv s) (i : ℕ) (now : ℤ) :
    EventsInv { s with events := s.events.modify i (Event.poll now) } := by
  have before : ∀ {j : ℕ} {e : Event}, (s.events.modify i (Event.poll now))[j]? = some e → e.phase ≠ .ended →
      ∃ e' : Event, s.events[j]? = some e' ∧ e'.phase ≠ .ended := by
    intro j e he hne
    rw [List.getElem?_modify] at he
    obtain ⟨e', he', rfl⟩ := Option.map_eq_some_iff.1 he
    refine ⟨e', he', ?_⟩
    split_ifs at hne
    · exact Event.poll_ended hne
    · exact hne
  refine ⟨h.size, ?_, ?_, ?_⟩
  · obtain ⟨W, P, L, hW, hentry, hacc, hidle⟩ := h.kept
    refine ⟨W, P, L, hW, hentry, hacc, fun hnone => hidle fun e he hact => ?_⟩
    obtain ⟨j, hj⟩ := List.getElem?_of_mem he
    have hj' := congrArg (Option.map fun a => if i = j then Event.poll now a else a) hj
    refine hnone _ (List.mem_of_getElem? ((List.getElem?_modify ..).trans hj')) ?_
    split_ifs
    · exact hact.poll
    · exact hact
  · intro j k e f he hf hne hnf
    obtain ⟨e', he', hne'⟩ := before he hne
    obtain ⟨f', hf', hnf'⟩ := before hf hnf
    exact h.one j k e' f' he' hf' hne' hnf'
  · intro e he hne
    obtain ⟨j, hj⟩ := List.getElem?_of_mem he
    obtain ⟨e', he', hne'⟩ := before hj hne
    exact h.entry e' (List.mem_of_getElem? he') hne'

theorem serve (h : EventsInv s) : EventsInv s.serve := by
  obtain ⟨W, P, L, hW, hentry, hacc, hidle⟩ := h.kept
  refine ⟨?_, ?_, h.one, fun e he hne => ?_⟩
  · intro d hd
    obtain ⟨d0, hd0, rfl⟩ := Option.map_eq_some_iff.1 hd
    exact h.size d0 hd0
  · -- the frames of the slot are in a file now
    cases hd : s.entry with
    | none =>
      rw [hd] at hentry
      refine ⟨W, P, L, ?_, ?_, hacc, hidle⟩
      · simpa [EventSys.serve, hd] using hW
      · simpa [EventSys.serve, hd] using hentry
    | some d =>
      rw [hd] at hentry
      obtain ⟨hslot, hcur⟩ := hentry
      refine ⟨W ++ P, [], L, ?_, ?_, ?_, fun hnone => ⟨rfl, (hidle hnone).2⟩⟩
      · simpa [EventSys.serve, hd] using hW.append (hslot.written (h.size d hd))
      · simp only [EventSys.serve, hd, Option.map_some]
        exact ⟨rfl, hcur⟩
      · rw [List.nil_append, List.append_assoc]
        exact hacc
  · rw [EventSys.serve, Option.isSome_map]
    exact h.entry e he hne

/-- an event that has not ended has its entry -/
theorem entry_of_phase (h : EventsInv s) {i : ℕ} {p : EventPhase} (hi : s.phase i = some p) (hp : p ≠ .ended) :
    ∃ e d, s.events[i]? = some e ∧ e.phase = p ∧ s.entry = some d := by
  obtain ⟨e, he, hphase⟩ := EventSys.phase_eq_some hi
  obtain ⟨d, hd⟩ := Option.isSome_iff_exists.1 (h.entry e (List.mem_of_getElem? he) (by rwa [hphase]))
  exact ⟨e, d, he, hphase, hd⟩

/-- a frame of a capture thread -/
theorem capture (h : EventsInv s) {i : ℕ} {c : Call} (hi : s.phase i = some .capturing)
    (hok : ∀ d, s.entry = some d → FrameOk noRet d { c with flag := false }) :
    ∃ t, s.capture noRet c = some t ∧ EventsInv t := by
  obtain ⟨e, d, he, hphase, hd⟩ := h.entry_of_phase hi (by decide)
  obtain ⟨W, P, L, hW, hentry, hacc, -⟩ := h.kept
  rw [hd] at hentry
  obtain ⟨d', P', L', hd', hslot', hcur', hsub⟩ := frame_inEntry hentry.1 hentry.2 (hok d hd)
  refine ⟨{ s with entry := some d', accepted := s.accepted ++ [c.frame.entry c.ms d.frameIndex] }, ?_, ?_, ?_, h.one,
    fun _ _ _ => rfl⟩
  · rw [EventSys.capture, hd, Option.bind_some, hd', Option.map_some]
  · intro d'' hd''
    cases hd''
    intro i
    rw [StoreDevice.writeFrameToBuf_of_flag_false rfl] at hd'
    rw [StoreDevice.writeFrame_storeSize hd', h.size d hd]
  · refine ⟨W, P', L', hW, ⟨hslot', hcur'⟩, ?_, ?_⟩
    · have := hacc.append (List.Subperm.refl [c.frame.entry c.ms d.frameIndex])
      rw [List.append_assoc] at this
      exact this.trans ((List.Subperm.refl W).append hsub)
    · intro hnone
      exact absurd (Or.inl hphase) (hnone e (List.mem_of_getElem? he))

/-- when the one event that has not ended ends, all have -/
theorem all_ended (h : EventsInv s) {i : ℕ} {e : Event} (he : s.events[i]? = some e) (hne : e.phase ≠ .ended) :
    ∀ f ∈ (s.setPhase i .ended).events, f.phase = .ended := by
  intro f hf
  obtain ⟨j, hj⟩ := List.getElem?_of_mem hf
  rw [EventSys.setPhase, List.getElem?_modify] at hj
  obtain ⟨f', hf', rfl⟩ := Option.map_eq_some_iff.1 hj
  split_ifs with hij
  · rfl
  · by_contra hnf
    exact hij (h.one i j e f' he hf' hne hnf)

/-- the last frame of a capture thread: the entry goes, and all its frames are in files -/
theorem flush (h : EventsInv s) {i : ℕ} {c : Call} (hi : s.phase i = some .stopping)
    (hok : ∀ d, s.entry = some d → FlushOk d c) : ∃ t, s.flush c = some t ∧ EventsInv (t.setPhase i .ended) := by
  obtain ⟨e, d, he, hphase, hd⟩ := h.entry_of_phase hi (by decide)
  have hgone := h.all_ended he (by rw [hphase]; decide)
  obtain ⟨W, P, L, hW, hentry, hacc, -⟩ := h.kept
  rw [hd] at hentry
  obtain ⟨d', hd', hlast⟩ := flush_inFiles hentry.2 (h.size d hd _) (hok d hd)
  have hfiles := (hW.append (hentry.1.written (h.size d hd))).append hlast
  refine ⟨_, by rw [EventSys.flush, hd, Option.bind_some, hd', Option.map_some], fun _ hnone => ?_, ?_, ?_, ?_⟩
  · cases hnone
  · refine ⟨_, [], [], hfiles, ⟨rfl, rfl⟩, ?_, fun _ => ⟨rfl, rfl⟩⟩
    have hall : (W ++ P ++ L) = W ++ (P ++ L) := List.append_assoc _ _ _
    rw [List.append_nil, List.append_nil]
    show (if d.Full c then s.accepted else s.accepted ++ [c.frame.entry c.ms d.frameIndex]).Subperm _
    split_ifs
    · rwa [hall]
    · rw [← List.append_assoc, hall]
      exact hacc.append (List.Subperm.refl _)
  · intro j _ f _ hf _ hnf
    exact absurd (hgone f (List.mem_of_getElem? hf)) hnf
  · intro f hf hnf
    exact absurd (hgone f hf) hnf

theorem step {path : String} {type : RecodeType} {a : EventAct} (h : EventsInv s) (ha : Apart noRet s a) :
    ∃ t, s.step noRet path type a = some t ∧ EventsInv t := by
  cases a with
  | request startTime endTime ping pong pongStart => exact ⟨_, rfl, h.request ha path type _ _ _ _ _⟩
  | poll i now => exact ⟨_, rfl, h.poll i now⟩
  | frame i c =>
    simp only [EventSys.step, EventSys.frame]
    split
    · rename_i hi
      exact h.capture hi fun d hd => (ha d hd).1 hi
    · rename_i hi
      obtain ⟨t, ht, hinv⟩ := h.flush hi fun d hd => (ha d hd).2 hi
      exact ⟨_, by rw [ht, Option.map_some], hinv⟩
    · exact ⟨s, rfl, h⟩
  | lost i =>
    refine ⟨s.lost i, rfl, ?_⟩
    unfold EventSys.lost
    split
    · rename_i hi
      exact absurd hi ha
    · exact h
  | serve => exact ⟨_, rfl, h.serve⟩

end EventsInv

/-- **Event recordings do not destroy each other** if a request comes only when the earlier events have ended and each
recording is in order: the run does not fault, and no accepted frame is lost on the way to its file. -/
theorem events_kept (noRet : ℕ → ℤ) (path : String) (type : RecodeType) (acts : List EventAct)
    (h : Steps (EventSys.step noRet path type) (Apart noRet) EventSys.init acts) :
    ∃ s, run (EventSys.step noRet path type) EventSys.init acts = some s ∧ Undestroyed s := by
  obtain ⟨s, hr, hinv⟩ := run_total (fun _ _ hs ha => hs.step ha) EventsInv.init h
  exact ⟨s, hr, hinv.undestroyed⟩

/-- a frame that does not fill the buffer -/
def RoomyFrame (d : StoreDevice) (c : Call) (p : Option EventPhase) : Prop :=
  ¬ d.Full c ∧ c.frame.size + 2 * sizeofStoreInfo ≤ storeBufMaxSize ∧ (p = some .stopping → FlushOk d c)

instance (d : StoreDevice) (c : Call) : Decidable (FlushOk d c) := by unfold FlushOk; infer_instance

instance (d : StoreDevice) (c : Call) (p : Option EventPhase) : Decidable (RoomyFrame d c p) := by
  unfold RoomyFrame; infer_instance

/-- a sufficient condition that can be computed: requests after the end of all events, and no frame fills the buffer -/
def Roomy (s : EventSys) : EventAct → Bool
  | .request .. => s.events.all fun e => e.phase = .ended
  | .frame i c => s.entry.all fun d => decide (RoomyFrame d c (s.phase i))
  | .lost _ => false
  | _ => true

theorem RoomyFrame.frameOk {noRet : ℕ → ℤ} {d : StoreDevice} {c : Call} {p : Option EventPhase} (h : RoomyFrame d c p) :
    FrameOk noRet d { c with flag := false } := by
  have hf : ¬ d.Full { c with flag := false } := h.1
  exact ⟨⟨rfl, h.2.1, fun h => absurd h hf⟩, fun h => absurd h hf, fun h => absurd h hf⟩

theorem Roomy.apart {noRet : ℕ → ℤ} {s : EventSys} {a : EventAct} (h : Roomy s a = true) : Apart noRet s a := by
  cases a with
  | request => exact fun e he => of_decide_eq_true (List.all_eq_true.1 h e he)
  | poll => trivial
  | frame i c =>
    intro d hd
    have hroomy : RoomyFrame d c (s.phase i) := by
      rw [Roomy, hd, Option.all_some] at h
      exact of_decide_eq_true h
    exact ⟨fun _ => hroomy.frameOk, hroomy.2.2⟩
  | lost => cases h
  | serve => trivial

/-- a request on zeroed memory -/
def zeroRequest (startTime endTime : ℤ) : EventAct := .request startTime endTime (fun _ => 0) (fun _ => 0) 0

/-- an event from second 0 to second 10 with three frames, and then another one -/
def twoEvents : List EventAct :=
  [zeroRequest 0 10, .poll 0 5, .frame 0 (zeroCall 10), .frame 0 (zeroCall 10), .poll 0 11, .frame 0 (zeroCall 50),
    zeroRequest 20 30, .poll 1 25, .frame 1 (zeroCall 10)]

theorem events_kept_two :
    ∃ s, run (EventSys.step (fun t => t) "" .manual) EventSys.init twoEvents = some s ∧ Undestroyed s ∧
      s.accepted.length = 4 ∧ s.files.length = 1 := by
  have hroomy : Steps (EventSys.step (fun t => t) "" .manual) (fun s a => Roomy s a = true) EventSys.init
      twoEvents := by decide +kernel
  have heval : (run (EventSys.step (fun t => t) "" .manual) EventSys.init twoEvents).map (fun s =>
      (s.accepted.length, s.files.length)) = some (4, 1) := by decide +kernel
  obtain ⟨s, hs, hkept⟩ := events_kept (fun t => t) "" .manual twoEvents (hroomy.mono fun _ _ => Roomy.apart)
  rw [hs, Option.map_some, Option.some.injEq, Prod.mk.injEq] at heval
  exact ⟨s, hs, hkept, heval⟩

/-! ## Overlapping events -/

/-- the second request comes while the first event captures -/
def requestAgain : List EventAct := [zeroRequest 0 10, .poll 0 5, .frame 0 (zeroCall 10), zeroRequest 0 30]

/-- both events capture, and the first ends -/
def stopFirst : List EventAct :=
  [zeroRequest 0 10, zeroRequest 0 30, .poll 0 5, .poll 1 5, .frame 0 (zeroCall 10), .frame 1 (zeroCall 10), .poll 0 11,
    .frame 0 (zeroCall 50)]

/-- a frame that was accepted is in no file if there is none, and not in an entry that has just been rewound -/
theorem not_undestroyed {s : EventSys} {d : StoreDevice} (hacc : s.accepted ≠ []) (hfiles : s.files = [])
    (hd : s.entry = some d) (hslot : d.pStoreBufWr = none) (hinfo : d.cur.storeInfoOffset = slotPos 0) :
    ¬ Undestroyed s := by
  intro h
  obtain ⟨W, P, L, ⟨F, hF, hW⟩, hentry, hsub⟩ := h.kept
  rw [hfiles, List.forall₂_nil_left_iff] at hF
  rw [hF, List.flatten_nil, List.subperm_nil] at hW
  rw [hd] at hentry
  obtain ⟨hP, hL⟩ := hentry
  rw [InSlot, hslot] at hP
  have hnil : L = [] := by
    have h1 := hL.infoOffset_add
    have h2 := slotPos_zero_add
    exact List.length_eq_zero_iff.1 (by omega)
  rw [hW, hP, hnil] at hsub
  exact hacc (List.subperm_nil.1 hsub)

/-- **Overlapping events**: a second request throws away the frame of the first event; and the stop of one event removes
the entry of another, whose next frame is a crash. -/
theorem overlap_destroys :
    (∃ s, run (EventSys.step (fun t => t) "" .manual) EventSys.init requestAgain = some s ∧ ¬ Undestroyed s) ∧
      (∃ s, run (EventSys.step (fun t => t) "" .manual) EventSys.init stopFirst = some s ∧ ¬ Undestroyed s) ∧
      run (EventSys.step (fun t => t) "" .manual) EventSys.init (stopFirst ++ [.frame 1 (zeroCall 10)]) = none := by
  refine ⟨?_, ?_, ?_⟩
  · have heval : (run (EventSys.step (fun t => t) "" .manual) EventSys.init requestAgain).map (fun s =>
        (s.accepted.length, s.files.length, s.entry.map fun d => (d.pStoreBufWr, d.cur.storeInfoOffset))) =
          some (1, 0, some (none, slotPos 0)) := by decide +kernel
    obtain ⟨s, hs, hproj⟩ := Option.map_eq_some_iff.1 heval
    simp only [Prod.mk.injEq, Option.map_eq_some_iff] at hproj
    obtain ⟨hacc, hfiles, d, hd, hslot, hinfo⟩ := hproj
    exact ⟨s, hs, not_undestroyed (List.length_pos_iff.1 (by omega)) (List.length_eq_zero_iff.1 hfiles) hd hslot hinfo⟩
  · have heval : (run (EventSys.step (fun t => t) "" .manual) EventSys.init stopFirst).map (fun s =>
        (s.entry.isSome, s.events)) = some (false, [⟨0, 10, .ended⟩, ⟨0, 30, .capturing⟩]) := by decide +kernel
    obtain ⟨s, hs, hproj⟩ := Option.map_eq_some_iff.1 heval
    rw [Prod.mk.injEq] at hproj
    refine ⟨s, hs, fun h => ?_⟩
    have := h.entry ⟨0, 30, .capturing⟩ (by rw [hproj.2]; simp) (Or.inl rfl)
    rw [hproj.1] at this
    cases this
  · have heval : (run (EventSys.step (fun t => t) "" .manual) EventSys.init
        (stopFirst ++ [.frame 1 (zeroCall 10)])).isNone = true := by decide +kernel
    exact Option.isNone_iff_eq_none.1 heval

end StoreService.Store
