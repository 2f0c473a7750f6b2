/-
The three lists of store entries (`storeDeviceList`, `storeManualList`, `storeAlarmList` in `store.cpp`) with their
pointers.

In `Device` an entry is a value. Here it is what the source has: a struct with two buffer pointers and two pointers to
its own buffers, any of which may be null or not initialised, over a heap of allocated blocks (`RawDevice`, `Heap`).
Mallocs and directory creations may fail; both are inputs of a call. A call gives the lists it leaves behind and its
return value, none if it crashes. On an entry that is ready a frame write is the one of `Device` (`RawDevice.load`,
`Lists.save`).

- `entries_ready_iff`: in a run of calls every entry is ready after each call, and a call that returns -1 has changed no
  list, if and only if no malloc fails in a call that gets to it and every frame write of a known type names an entry
  that is there (`AllocsAndKnown`).
- `half_built_entry`: the second malloc of `AddStoreDevice` fails. It returns -1 and leaves an entry without a second
  buffer, which the next `AddStoreDevice` takes for a device that already exists.

Blocks of different entries are different; that is the invariant behind it (`ListsInv`). The writer thread serves one
entry at a time (`serve`), and the calls that wait for it wait until it has. Reading the entry once more after a stop
has removed it (the last test of `WriteFrameToBuf`) is left out.
-/
import StoreService.Common.Json
import StoreService.Store.Rotation

namespace StoreService.Store

open StoreService.ByteMem StoreService.Runs StoreService.Json

/-! ## Entries and blocks -/

/-- `store_buf`: null, not initialised, or a block that malloc has returned -/
inductive Ptr where
  | null
  | wild
  | block (n : ℕ)
deriving DecidableEq, Repr

/-- `pCurStoreBuf`, `pStoreBufWr`: null, not initialised, or one of the entry's own buffers -/
inductive BufPtr where
  | null
  | wild
  | own (i : BufId)
deriving DecidableEq, Repr

structure RawBuf where
  storeBuf : Ptr
  storeSize : ℕ
  storeOffset : ℕ
  storeInfoOffset : ℕ
  storeStartTime : ℕ

structure RawDevice where
  storePath : String
  pingStoreBuf : RawBuf
  pongStoreBuf : RawBuf
  pCurStoreBuf : BufPtr
  pStoreBufWr : BufPtr
  frameIndex : ℕ
  storeType : String

/-- the contents of the blocks that are allocated -/
abbrev Heap := ℕ → Option Mem

/-- `free`: of the null pointer it does nothing, of anything but an allocated block it is a fault -/
def Heap.free (heap : Heap) : Ptr → Option Heap
  | .null => some heap
  | .wild => none
  | .block n => if heap n = none then none else some (Function.update heap n none)

/-- new contents for a block -/
def Heap.write (heap : Heap) (m : Mem) : Ptr → Heap
  | .block n => Function.update heap n (some m)
  | _ => heap

/-- read the buffer behind a struct -/
def RawBuf.load (heap : Heap) (b : RawBuf) : Option StoreBuf :=
  match b.storeBuf with
  | .block n => (heap n).map fun m => ⟨m, b.storeSize, b.storeOffset, b.storeInfoOffset, b.storeStartTime⟩
  | _ => none

/-- the fields of a buffer, behind the pointer that was there -/
def RawBuf.save (b : RawBuf) (c : StoreBuf) : RawBuf :=
  ⟨b.storeBuf, c.storeSize, c.storeOffset, c.storeInfoOffset, c.storeStartTime⟩

namespace RawDevice

def buf (e : RawDevice) : BufId → RawBuf
  | .ping => e.pingStoreBuf
  | .pong => e.pongStoreBuf

/-- what operator[] makes: all pointers null -/
def zero : RawDevice := ⟨"", ⟨.null, 0, 0, 0, 0⟩, ⟨.null, 0, 0, 0, 0⟩, .null, .null, 0, ""⟩

/-- the device of `Device`, if all pointers are good -/
def load (heap : Heap) (type : RecodeType) (e : RawDevice) : Option StoreDevice :=
  match e.pingStoreBuf.load heap, e.pongStoreBuf.load heap, e.pCurStoreBuf, e.pStoreBufWr with
  | some ping, some pong, .own cur, .null => some ⟨e.storePath, ping, pong, cur, none, e.frameIndex, type⟩
  | some ping, some pong, .own cur, .own wr => some ⟨e.storePath, ping, pong, cur, some wr, e.frameIndex, type⟩
  | _, _, _, _ => none

/-- `WriteToFileProc` on an entry: `none` if it follows a bad pointer -/
def served (heap : Heap) (e : RawDevice) : Option RawDevice :=
  match e.pStoreBufWr with
  | .null => some e
  | .wild => none
  | .own i => ((e.buf i).load heap).map fun _ => { e with pStoreBufWr := .null }

end RawDevice

/-- an entry that can be used: both buffers allocated, the current one its own, the slot empty or one of its own -/
structure Ready (heap : Heap) (e : RawDevice) : Prop where
  alloc : ∀ i, ∃ n m, (e.buf i).storeBuf = .block n ∧ heap n = some m
  cur : ∃ i, e.pCurStoreBuf = .own i
  slot : e.pStoreBufWr = .null ∨ ∃ i, e.pStoreBufWr = .own i

/-! ## The calls -/

structure Lists where
  heap : Heap
  /-- blocks from here on were never returned by malloc -/
  next : ℕ
  entry : RecodeType × String → Option RawDevice

/-- return value and `SetError` -/
structure Ret where
  ret : ℤ
  error : Option ErrorNo
deriving DecidableEq

def recodeType (type : String) : Option RecodeType :=
  if type = "planned" then some .planned
  else if type = "manual" then some .manual
  else if type = "alarming" then some .alarm
  else none

/-- the list of `AddStoreEvent` -/
def eventType (type : String) : Option RecodeType :=
  if type = "manual" then some .manual else if type = "alarming" then some .alarm else none

namespace Lists

def put (s : Lists) (key : RecodeType × String) (e : Option RawDevice) : Lists :=
  { s with entry := Function.update s.entry key e }

def malloc (s : Lists) (m : Mem) : Lists :=
  { s with heap := Function.update s.heap s.next (some m), next := s.next + 1 }

/-- both adds from the first malloc on, on the entry that is in the list by then; `ping` and `pong` are what the mallocs
return (`none` for null) -/
def fill (s : Lists) (key : RecodeType × String) (e : RawDevice) (type : String) (ping pong : Option Mem) :
    Lists × Option Ret :=
  match ping with
  | none =>
    (s.put key (some { e with pingStoreBuf := { e.pingStoreBuf with storeBuf := .null } }),
      some ⟨-1, some .mallocMemoryFail⟩)
  | some m =>
    let e := { e with pingStoreBuf := { e.pingStoreBuf with storeBuf := .block s.next } }
    match pong with
    | none =>
      ((s.malloc m).put key (some { e with pongStoreBuf := { e.pongStoreBuf with storeBuf := .null } }),
        some ⟨-1, some .mallocMemoryFail⟩)
    | some m' =>
      (((s.malloc m).malloc m').put key (some { e with
          pingStoreBuf := ⟨.block s.next, storeBufMaxSize, 0, storeBufMaxSize - sizeofStoreInfo, 0⟩
          pongStoreBuf := ⟨.block (s.next + 1), storeBufMaxSize, 0, storeBufMaxSize - sizeofStoreInfo,
            e.pongStoreBuf.storeStartTime⟩
          pCurStoreBuf := .own .ping
          pStoreBufWr := .null
          storeType := type }),
        some ⟨0, none⟩)

/-- the local `storeDevice` as it is inserted: its pointers and offsets are not initialised (`junk`) -/
def newEntry (storePath devId : String) (junk : RawDevice) : RawDevice :=
  { junk with storePath := storePath ++ devId, frameIndex := 0, storeType := "" }

def addStoreDevice (storePath : String) (s : Lists) (devId type : String) (dirOk : Bool) (junk : RawDevice)
    (ping pong : Option Mem) : Lists × Option Ret :=
  if s.entry (.planned, devId) ≠ none then (s, some ⟨-1, some .deviceAlreadyExist⟩)
  else if dirOk then s.fill (.planned, devId) (newEntry storePath devId junk) type ping pong
  else (s, some ⟨-1, some .createStoreDirectoryFail⟩)

/-- insert does not replace an entry; the entry that was there is filled again -/
def addStoreEvent (storePath : String) (s : Lists) (devId type : String) (dirOk : Bool) (junk : RawDevice)
    (ping pong : Option Mem) : Lists × Option Ret :=
  if dirOk then
    match eventType type with
    | some t => s.fill (t, devId) ((s.entry (t, devId)).getD (newEntry storePath devId junk)) type ping pong
    | none => (s, some ⟨0, none⟩)
  else (s, some ⟨-1, some .createStoreDirectoryFail⟩)

/-- free both buffers and erase the entry -/
def erase (s : Lists) (key : RecodeType × String) (e : RawDevice) : Lists × Option Ret :=
  match (s.heap.free e.pingStoreBuf.storeBuf).bind fun heap => heap.free e.pongStoreBuf.storeBuf with
  | some heap => ({ s with heap := heap }.put key none, some ⟨0, none⟩)
  | none => (s, none)

/-- wait for the writer, hand the current buffer over, wait again, erase -/
def removeStoreDevice (s : Lists) (devId : String) : Lists × Option Ret :=
  match s.entry (.planned, devId) with
  | none => (s, some ⟨-1, some .doNotFindCamera⟩)
  | some e =>
    match e.served s.heap with
    | none => (s, none)
    | some e =>
      let e := { e with pStoreBufWr := e.pCurStoreBuf }
      match e.served s.heap with
      | none => (s.put (.planned, devId) (some e), none)
      | some e => (s.put (.planned, devId) (some e)).erase (.planned, devId) e

/-- `RemoveStoreEvent`, with the list it has chosen -/
def removeEvent (s : Lists) (key : RecodeType × String) : Lists × Option Ret :=
  match s.entry key with
  | none => (s, some ⟨-1, none⟩)
  | some e => s.erase key e

/-- any type but "manual" is taken for an alarm -/
def removeStoreEvent (s : Lists) (devId type : String) : Lists × Option Ret :=
  s.removeEvent (if type = "manual" then .manual else .alarm, devId)

/-- write a device back to its entry and its blocks -/
def save (s : Lists) (key : RecodeType × String) (e : RawDevice) (d : StoreDevice) : Lists :=
  { s with
    heap := (s.heap.write d.pingStoreBuf.storeBuf e.pingStoreBuf.storeBuf).write d.pongStoreBuf.storeBuf
      e.pongStoreBuf.storeBuf }.put key
    (some { e with
      pingStoreBuf := e.pingStoreBuf.save d.pingStoreBuf
      pongStoreBuf := e.pongStoreBuf.save d.pongStoreBuf
      pCurStoreBuf := .own d.pCurStoreBuf
      pStoreBufWr := match d.pStoreBufWr with
        | none => .null
        | some i => .own i
      frameIndex := d.frameIndex })

/-- the end of `WriteFrameToBuf`, with the device it has made (`none`: a fault). A stop of an event ends with
`RemoveStoreEvent`. -/
def writeBack (s : Lists) (key : RecodeType × String) (e : RawDevice) (stopEvent : Bool) :
    Option StoreDevice → Lists × Option Ret
  | none => (s, none)
  | some d =>
    if stopEvent then
      (((s.save key e d).removeEvent key).1, ((s.save key e d).removeEvent key).2.map fun _ => ⟨0, none⟩)
    else (s.save key e d, some ⟨0, none⟩)

/-- a stop flush of an event, up to the second wait and behind it -/
def stopEvent (d : StoreDevice) (c : Call) : Option StoreDevice :=
  ({ d with pStoreBufWr := none }.stopSeal c).map fun d' : StoreDevice => { d' with pStoreBufWr := none }

/-- `WriteFrameToBuf` on an entry -/
def writeEntry (noRet : ℕ → ℤ) (s : Lists) (key : RecodeType × String) (e : RawDevice) (c : Call) :
    Lists × Option Ret :=
  match e.load s.heap key.1 with
  | none => (s, none)
  | some d =>
    if c.flag = true ∧ key.1 ≠ .planned then s.writeBack key e true (stopEvent d c)
    else s.writeBack key e false (d.writeFrameToBuf noRet c)

/-- the lookup with operator[] -/
def writeFrameToBuf (noRet : ℕ → ℤ) (s : Lists) (devId type : String) (c : Call) : Lists × Option Ret :=
  match recodeType type with
  | none => (s, some ⟨-1, none⟩)
  | some t =>
    match s.entry (t, devId) with
    | some e => s.writeEntry noRet (t, devId) e c
    | none => (s.put (t, devId) (some .zero)).writeEntry noRet (t, devId) .zero c

/-- the writer thread on an entry -/
def serve (s : Lists) (key : RecodeType × String) : Lists × Option Ret :=
  match s.entry key with
  | none => (s, some ⟨0, none⟩)
  | some e =>
    match e.served s.heap with
    | none => (s, none)
    | some e => (s.put key (some e), some ⟨0, none⟩)

end Lists

inductive StoreOp where
  | addStoreDevice (devId type : String) (dirOk : Bool) (junk : RawDevice) (ping pong : Option Mem)
  | addStoreEvent (devId type : String) (dirOk : Bool) (junk : RawDevice) (ping pong : Option Mem)
  | removeStoreDevice (devId : String)
  | removeStoreEvent (devId type : String)
  | writeFrameToBuf (devId type : String) (c : Call)
  | serve (key : RecodeType × String)

/-- `noRet` of `ParseKeyFrame` and `storePath` of the configuration -/
structure StoreEnv where
  noRet : ℕ → ℤ
  storePath : String

namespace Lists

def call (env : StoreEnv) (s : Lists) : StoreOp → Lists × Option Ret
  | .addStoreDevice devId type dirOk junk ping pong => s.addStoreDevice env.storePath devId type dirOk junk ping pong
  | .addStoreEvent devId type dirOk junk ping pong => s.addStoreEvent env.storePath devId type dirOk junk ping pong
  | .removeStoreDevice devId => s.removeStoreDevice devId
  | .removeStoreEvent devId type => s.removeStoreEvent devId type
  | .writeFrameToBuf devId type c => s.writeFrameToBuf env.noRet devId type c
  | .serve key => s.serve key

/-- a run goes on after a call that returns -/
def step (env : StoreEnv) (s : Lists) (op : StoreOp) : Option Lists := (s.call env op).2.map fun _ => (s.call env op).1

def init : Lists := ⟨fun _ => none, 0, fun _ => none⟩

end Lists

/-- what is asked of a call: every entry it leaves is ready, and a -1 means that the lists did not change -/
structure SoundCall (env : StoreEnv) (s : Lists) (op : StoreOp) : Prop where
  ready : ∀ key e, (s.call env op).1.entry key = some e → Ready (s.call env op).1.heap e
  kept : ∀ r, (s.call env op).2 = some r → r.ret = -1 → (s.call env op).1.entry = s.entry

/-- no malloc that is called fails, and a frame write of a known type names an entry -/
def AllocsAndKnown (s : Lists) : StoreOp → Prop
  | .addStoreDevice devId _ dirOk _ ping pong =>
    s.entry (.planned, devId) = none → dirOk = true → ping ≠ none ∧ pong ≠ none
  | .addStoreEvent _ type dirOk _ ping pong => eventType type ≠ none → dirOk = true → ping ≠ none ∧ pong ≠ none
  | .writeFrameToBuf devId type _ => ∀ t, recodeType type = some t → s.entry (t, devId) ≠ none
  | _ => True

/-! ## Blocks of different entries are different -/

structure ListsInv (s : Lists) : Prop where
  ready : ∀ key e, s.entry key = some e → Ready s.heap e
  fresh : ∀ key e i n, s.entry key = some e → (e.buf i).storeBuf = .block n → n < s.next
  apart : ∀ key e i key' e' j n, s.entry key = some e → s.entry key' = some e' → (e.buf i).storeBuf = .block n →
    (e'.buf j).storeBuf = .block n → key = key' ∧ i = j

section Inv

variable {s t : Lists} {key : RecodeType × String} {e e' : RawDevice} {heap heap' : Heap}

theorem Ready.alive (h : Ready heap e) (i : BufId) : ∃ n, (e.buf i).storeBuf = .block n ∧ heap n ≠ none := by
  obtain ⟨n, m, hn, hm⟩ := h.alloc i
  exact ⟨n, hn, by simp [hm]⟩

/-- an entry stays ready while its blocks stay allocated -/
theorem Ready.congr (h : Ready heap e)
    (hkeep : ∀ i n, (e.buf i).storeBuf = .block n → heap n ≠ none → heap' n ≠ none) : Ready heap' e := by
  refine ⟨fun i => ?_, h.cur, h.slot⟩
  obtain ⟨n, hn, halive⟩ := h.alive i
  obtain ⟨m, hm⟩ := Option.ne_none_iff_exists'.1 (hkeep i n hn halive)
  exact ⟨n, m, hn, hm⟩

/-- a ready entry is a device of `Device` -/
theorem Ready.load (h : Ready heap e) (type : RecodeType) : ∃ d, e.load heap type = some d := by
  have hbuf (i : BufId) : ∃ b, (e.buf i).load heap = some b := by
    obtain ⟨n, m, hn, hm⟩ := h.alloc i
    simp only [RawBuf.load, hn, hm, Option.map_some]
    exact ⟨_, rfl⟩
  obtain ⟨ping, hping⟩ := hbuf .ping
  obtain ⟨pong, hpong⟩ := hbuf .pong
  obtain ⟨cur, hcur⟩ := h.cur
  unfold RawDevice.load
  simp only [RawDevice.buf] at hping hpong
  rcases h.slot with hslot | ⟨i, hslot⟩
  · exact ⟨_, by rw [hping, hpong, hcur, hslot]⟩
  · exact ⟨_, by rw [hping, hpong, hcur, hslot]⟩

/-- the writer can serve a ready entry, and empties its slot -/
theorem Ready.served (h : Ready heap e) : e.served heap = some { e with pStoreBufWr := .null } := by
  unfold RawDevice.served
  rcases h.slot with hslot | ⟨i, hslot⟩
  · rw [hslot]
    cases e
    simp only at hslot ⊢
    rw [hslot]
  · obtain ⟨n, m, hn, hm⟩ := h.alloc i
    rw [hslot]
    simp only [RawBuf.load, hn, hm, Option.map_some]

theorem put_entry (s : Lists) (key : RecodeType × String) (o : Option RawDevice) : (s.put key o).entry key = o :=
  Function.update_self ..

theorem put_entry_of_ne {k : RecodeType × String} (s : Lists) (o : Option RawDevice) (h : k ≠ key) :
    (s.put key o).entry k = s.entry k := Function.update_of_ne h ..

/-- entries that have the blocks they had before -/
theorem ListsInv.of_blocks (h : ListsInv s) (hnext : s.next ≤ t.next)
    (hsub : ∀ key e, t.entry key = some e →
      ∃ e0, s.entry key = some e0 ∧ ∀ i, (e.buf i).storeBuf = (e0.buf i).storeBuf)
    (hready : ∀ key e, t.entry key = some e → Ready t.heap e) : ListsInv t := by
  refine ⟨hready, fun key e i n he hn => ?_, fun key e i key' e' j n he he' hn hn' => ?_⟩
  · obtain ⟨e0, h0, hb⟩ := hsub key e he
    exact (h.fresh key e0 i n h0 (hb i ▸ hn)).trans_le hnext
  · obtain ⟨e0, h0, hb⟩ := hsub key e he
    obtain ⟨e0', h0', hb'⟩ := hsub key' e' he'
    exact h.apart key e0 i key' e0' j n h0 h0' (hb i ▸ hn) (hb' j ▸ hn')

/-- an entry is replaced by a ready one with the same blocks, and no block is freed -/
theorem ListsInv.put_same (h : ListsInv s) (he : s.entry key = some e)
    (hb : ∀ i, (e'.buf i).storeBuf = (e.buf i).storeBuf) (hheap : ∀ n, s.heap n ≠ none → heap' n ≠ none)
    (hcur : ∃ i, e'.pCurStoreBuf = .own i) (hslot : e'.pStoreBufWr = .null ∨ ∃ i, e'.pStoreBufWr = .own i) :
    ListsInv ({ s with heap := heap' }.put key (some e')) := by
  refine h.of_blocks le_rfl (fun k e1 hk => ?_) fun k e1 hk => ?_
  · by_cases hkey : k = key
    · rw [hkey, put_entry, Option.some.injEq] at hk
      exact ⟨e, hkey ▸ he, fun i => hk ▸ hb i⟩
    · rw [put_entry_of_ne _ _ hkey] at hk
      exact ⟨e1, hk, fun _ => rfl⟩
  · by_cases hkey : k = key
    · rw [hkey, put_entry, Option.some.injEq] at hk
      subst hk
      have hready : Ready s.heap e' := ⟨fun i => by rw [hb i]; exact (h.ready key e he).alloc i, hcur, hslot⟩
      exact hready.congr fun _ n _ hn => hheap n hn
    · rw [put_entry_of_ne _ _ hkey] at hk
      exact (h.ready k e1 hk).congr fun _ n _ hn => hheap n hn

/-- both buffers are freed and the entry erased -/
theorem ListsInv.erase_eq (h : ListsInv s) (he : s.entry key = some e) :
    ∃ heap', s.erase key e = ({ s with heap := heap' }.put key none, some ⟨0, none⟩) ∧
      ∀ n, (∀ i, (e.buf i).storeBuf ≠ .block n) → heap' n = s.heap n := by
  obtain ⟨a, ha, haliveA⟩ := (h.ready key e he).alive .ping
  obtain ⟨b, hb, haliveB⟩ := (h.ready key e he).alive .pong
  have hne : b ≠ a := by
    rintro rfl
    have := (h.apart key e .ping key e .pong b he he ha hb).2
    cases this
  refine ⟨Function.update (Function.update s.heap a none) b none, ?_, fun n hn => ?_⟩
  · simp only [RawDevice.buf] at ha hb
    simp only [Lists.erase, ha, hb, Heap.free, haliveA, if_false, Option.bind_some, Function.update_of_ne hne, haliveB]
  · have hna : n ≠ a := fun h => hn .ping (h ▸ ha)
    have hnb : n ≠ b := fun h => hn .pong (h ▸ hb)
    rw [Function.update_of_ne hnb, Function.update_of_ne hna]

theorem ListsInv.erase (h : ListsInv s) (he : s.entry key = some e) : ListsInv (s.erase key e).1 := by
  obtain ⟨heap', heq, hheap⟩ := h.erase_eq he
  rw [heq]
  have hold (k : RecodeType × String) (e1 : RawDevice)
      (hk : ({ s with heap := heap' }.put key none).entry k = some e1) : k ≠ key ∧ s.entry k = some e1 := by
    by_cases hkey : k = key
    · rw [hkey, put_entry] at hk
      cases hk
    · rw [put_entry_of_ne _ _ hkey] at hk
      exact ⟨hkey, hk⟩
  refine h.of_blocks le_rfl (fun k e1 hk => ⟨e1, (hold k e1 hk).2, fun _ => rfl⟩) fun k e1 hk => ?_
  obtain ⟨hkey, hk⟩ := hold k e1 hk
  refine (h.ready k e1 hk).congr fun i n hn halive => ?_
  show heap' n ≠ none
  rw [hheap n fun j hj => hkey (h.apart k e1 i key e j n hk he hn hj).1]
  exact halive

/-- the block of each buffer after two mallocs -/
def freshBlock (n : ℕ) : BufId → ℕ
  | .ping => n
  | .pong => n + 1

theorem malloc_heap (s : Lists) (m m' : Mem) (n : ℕ) :
    (n < s.next → ((s.malloc m).malloc m').heap n = s.heap n) ∧
      ∀ i, ((s.malloc m).malloc m').heap (freshBlock s.next i) ≠ none := by
  refine ⟨fun hn => ?_, fun i => ?_⟩
  · have h1 : n ≠ s.next + 1 := by omega
    have h2 : n ≠ s.next := by omega
    simp only [Lists.malloc, Function.update_of_ne h1, Function.update_of_ne h2]
  · cases i with
    | ping => simp [Lists.malloc, freshBlock]
    | pong => simp [Lists.malloc, freshBlock]

/-- an entry with two fresh blocks -/
theorem ListsInv.put_fresh (h : ListsInv s) (m m' : Mem) (hb : ∀ i, (e'.buf i).storeBuf = .block (freshBlock s.next i))
    (hcur : ∃ i, e'.pCurStoreBuf = .own i) (hslot : e'.pStoreBufWr = .null) :
    ListsInv (((s.malloc m).malloc m').put key (some e')) := by
  have hcases (k : RecodeType × String) (e1 : RawDevice)
      (hk : (((s.malloc m).malloc m').put key (some e')).entry k = some e1) :
      (k = key ∧ e1 = e') ∨ (k ≠ key ∧ s.entry k = some e1) := by
    by_cases hkey : k = key
    · rw [hkey, put_entry, Option.some.injEq] at hk
      exact Or.inl ⟨hkey, hk.symm⟩
    · rw [put_entry_of_ne _ _ hkey] at hk
      exact Or.inr ⟨hkey, hk⟩
  have hge (i : BufId) : s.next ≤ freshBlock s.next i ∧ freshBlock s.next i < s.next + 2 := by
    cases i <;> simp [freshBlock]
  refine ⟨fun k e1 hk => ?_, fun k e1 i n hk hn => ?_, fun k e1 i k' e2 j n hk hk' hn hn' => ?_⟩
  · rcases hcases k e1 hk with ⟨-, rfl⟩ | ⟨-, hold⟩
    · refine ⟨fun i => ?_, hcur, Or.inl hslot⟩
      obtain ⟨m1, hm1⟩ := Option.ne_none_iff_exists'.1 ((malloc_heap s m m' 0).2 i)
      exact ⟨_, m1, hb i, hm1⟩
    · refine (h.ready k e1 hold).congr fun i n hn halive => ?_
      show ((s.malloc m).malloc m').heap n ≠ none
      rw [(malloc_heap s m m' n).1 (h.fresh k e1 i n hold hn)]
      exact halive
  · show n < s.next + 1 + 1
    rcases hcases k e1 hk with ⟨-, rfl⟩ | ⟨-, hold⟩
    · rw [hb i, Ptr.block.injEq] at hn
      exact hn ▸ (hge i).2
    · exact (h.fresh k e1 i n hold hn).trans (by omega)
  · rcases hcases k e1 hk with ⟨rfl, rfl⟩ | ⟨-, hold⟩ <;> rcases hcases k' e2 hk' with ⟨rfl, rfl⟩ | ⟨-, hold'⟩
    · rw [hb, Ptr.block.injEq] at hn hn'
      refine ⟨rfl, ?_⟩
      cases i <;> cases j <;> simp only [freshBlock] at hn hn' <;> first | rfl | omega
    · rw [hb, Ptr.block.injEq] at hn
      have := h.fresh k' e2 j n hold' hn'
      have := (hge i).1
      omega
    · rw [hb, Ptr.block.injEq] at hn'
      have := h.fresh k e1 i n hold hn
      have := (hge j).1
      omega
    · exact h.apart k e1 i k' e2 j n hold hold' hn hn'

theorem ListsInv.fill (h : ListsInv s) (type : String) (ping pong : Mem) :
    ListsInv (s.fill key e type (some ping) (some pong)).1 := by
  refine h.put_fresh ping pong (fun i => ?_) ⟨.ping, rfl⟩ rfl
  cases i <;> rfl

/-- with both mallocs the entry is ready and the call succeeds -/
theorem ListsInv.fill_ok (h : ListsInv s) (type : String) {ping pong : Option Mem} (hping : ping ≠ none)
    (hpong : pong ≠ none) : ListsInv (s.fill key e type ping pong).1 ∧
      ∀ r, (s.fill key e type ping pong).2 = some r → r.ret ≠ -1 := by
  obtain ⟨m, rfl⟩ := Option.ne_none_iff_exists'.1 hping
  obtain ⟨m', rfl⟩ := Option.ne_none_iff_exists'.1 hpong
  refine ⟨h.fill type m m', fun r hr hret => ?_⟩
  obtain rfl := Option.some.inj hr
  cases hret

/-- a malloc that fails leaves a buffer without a block -/
theorem fill_not_ready (s : Lists) (key : RecodeType × String) (e : RawDevice) {ping pong : Option Mem} (type : String)
    (h : ¬ (ping ≠ none ∧ pong ≠ none)) :
    ∃ e', (s.fill key e type ping pong).1.entry key = some e' ∧ ∀ heap, ¬ Ready heap e' := by
  have hnull {e' : RawDevice} (i : BufId) (hi : (e'.buf i).storeBuf = .null) : ∀ heap, ¬ Ready heap e' := by
    intro heap hr
    obtain ⟨n, hn, -⟩ := hr.alive i
    rw [hi] at hn
    cases hn
  cases ping with
  | none => exact ⟨_, put_entry .., hnull .ping rfl⟩
  | some m =>
    cases pong with
    | none => exact ⟨_, put_entry .., hnull .pong rfl⟩
    | some m' => exact absurd ⟨nofun, nofun⟩ h

/-! ## Each call -/

theorem Heap.write_alive {n : ℕ} {p : Ptr} {m : Mem} (h : heap n ≠ none) : heap.write m p n ≠ none := by
  cases p with
  | block k =>
    by_cases hk : n = k
    · simp [Heap.write, hk]
    · simpa [Heap.write, hk] using h
  | null => exact h
  | wild => exact h

theorem ListsInv.save (h : ListsInv s) (he : s.entry key = some e) (d : StoreDevice) : ListsInv (s.save key e d) := by
  refine h.put_same he (fun i => ?_) (fun n hn => Heap.write_alive (Heap.write_alive hn)) ⟨_, rfl⟩ ?_
  · cases i <;> rfl
  · cases d.pStoreBufWr with
    | none => exact Or.inl rfl
    | some i => exact Or.inr ⟨i, rfl⟩

theorem ListsInv.removeEvent (h : ListsInv s) (key : RecodeType × String) :
    ListsInv (s.removeEvent key).1 ∧ ∀ r, (s.removeEvent key).2 = some r → r.ret = -1 →
      (s.removeEvent key).1.entry = s.entry := by
  unfold Lists.removeEvent
  cases he : s.entry key with
  | none => exact ⟨h, fun _ _ _ => rfl⟩
  | some e =>
    refine ⟨h.erase he, fun r hr hret => ?_⟩
    obtain ⟨heap', heq, -⟩ := h.erase_eq he
    simp only [heq, Option.some.injEq] at hr
    subst hr
    cases hret

theorem ListsInv.writeBack (h : ListsInv s) (he : s.entry key = some e) (stop : Bool) (o : Option StoreDevice) :
    ListsInv (s.writeBack key e stop o).1 ∧ ∀ r, (s.writeBack key e stop o).2 = some r → r.ret = 0 := by
  cases o with
  | none => exact ⟨h, fun r hr => by cases hr⟩
  | some d =>
    have hsave := h.save he d
    cases stop with
    | true =>
      refine ⟨(hsave.removeEvent key).1, fun r hr => ?_⟩
      obtain ⟨_, -, rfl⟩ := Option.map_eq_some_iff.1 hr
      rfl
    | false =>
      refine ⟨hsave, fun r hr => ?_⟩
      obtain rfl := Option.some.inj hr
      rfl

/-- a frame write on an entry does not return -1 -/
theorem ListsInv.writeEntry (h : ListsInv s) (he : s.entry key = some e) (noRet : ℕ → ℤ) (c : Call) :
    ListsInv (s.writeEntry noRet key e c).1 ∧ ∀ r, (s.writeEntry noRet key e c).2 = some r → r.ret = 0 := by
  obtain ⟨d, hd⟩ := (h.ready key e he).load key.1
  simp only [Lists.writeEntry, hd]
  by_cases hstop : c.flag = true ∧ key.1 ≠ .planned
  · rw [if_pos hstop]
    exact h.writeBack he _ _
  · rw [if_neg hstop]
    exact h.writeBack he _ _

theorem ListsInv.removeStoreDevice (h : ListsInv s) (devId : String) :
    ListsInv (s.removeStoreDevice devId).1 ∧ ∀ r, (s.removeStoreDevice devId).2 = some r → r.ret = -1 →
      (s.removeStoreDevice devId).1.entry = s.entry := by
  unfold Lists.removeStoreDevice
  cases he : s.entry (.planned, devId) with
  | none => exact ⟨h, fun _ _ _ => rfl⟩
  | some e =>
    have hready := h.ready _ e he
    -- the writer can serve the entry before and after the hand-over
    have hhanded : Ready s.heap { e with pStoreBufWr := e.pCurStoreBuf } :=
      ⟨fun i => by cases i with | ping => exact hready.alloc .ping | pong => exact hready.alloc .pong, hready.cur,
        Or.inr hready.cur⟩
    have hsecond := hhanded.served
    simp only [hready.served, hsecond]
    have hput : ListsInv (s.put (.planned, devId) (some { e with pStoreBufWr := .null })) :=
      h.put_same he (fun i => by cases i <;> rfl) (fun _ hn => hn) hready.cur (Or.inl rfl)
    refine ⟨hput.erase (put_entry ..), fun r hr hret => ?_⟩
    obtain ⟨heap', heq, -⟩ := hput.erase_eq (put_entry ..)
    rw [heq] at hr
    obtain rfl := Option.some.inj hr
    cases hret

theorem ListsInv.serve (h : ListsInv s) (key : RecodeType × String) :
    ListsInv (s.serve key).1 ∧ ∀ r, (s.serve key).2 = some r → r.ret = 0 := by
  unfold Lists.serve
  cases he : s.entry key with
  | none =>
    refine ⟨h, fun r hr => ?_⟩
    obtain rfl := Option.some.inj hr
    rfl
  | some e =>
    have hready := h.ready _ e he
    simp only [hready.served]
    refine ⟨h.put_same he (fun i => by cases i <;> rfl) (fun _ hn => hn) hready.cur (Or.inl rfl), fun r hr => ?_⟩
    obtain rfl := Option.some.inj hr
    rfl

theorem ListsInv.addStoreDevice (h : ListsInv s) (storePath devId type : String) {dirOk : Bool} (junk : RawDevice)
    {ping pong : Option Mem} (hc : s.entry (.planned, devId) = none → dirOk = true → ping ≠ none ∧ pong ≠ none) :
    ListsInv (s.addStoreDevice storePath devId type dirOk junk ping pong).1 ∧
      ∀ r, (s.addStoreDevice storePath devId type dirOk junk ping pong).2 = some r → r.ret = -1 →
        (s.addStoreDevice storePath devId type dirOk junk ping pong).1.entry = s.entry := by
  unfold Lists.addStoreDevice
  by_cases hold : s.entry (.planned, devId) ≠ none
  · rw [if_pos hold]
    exact ⟨h, fun _ _ _ => rfl⟩
  · rw [if_neg hold]
    cases dirOk with
    | false => exact ⟨h, fun _ _ _ => rfl⟩
    | true =>
      obtain ⟨hping, hpong⟩ := hc (not_not.1 hold) rfl
      obtain ⟨hinv, hret⟩ := h.fill_ok type hping hpong
      exact ⟨hinv, fun r hr hfail => absurd hfail (hret r hr)⟩

theorem ListsInv.addStoreEvent (h : ListsInv s) (storePath devId type : String) {dirOk : Bool} (junk : RawDevice)
    {ping pong : Option Mem} (hc : eventType type ≠ none → dirOk = true → ping ≠ none ∧ pong ≠ none) :
    ListsInv (s.addStoreEvent storePath devId type dirOk junk ping pong).1 ∧
      ∀ r, (s.addStoreEvent storePath devId type dirOk junk ping pong).2 = some r → r.ret = -1 →
        (s.addStoreEvent storePath devId type dirOk junk ping pong).1.entry = s.entry := by
  unfold Lists.addStoreEvent
  cases dirOk with
  | false => exact ⟨h, fun _ _ _ => rfl⟩
  | true =>
    cases ht : eventType type with
    | none => exact ⟨h, fun _ _ _ => rfl⟩
    | some t =>
      obtain ⟨hping, hpong⟩ := hc (by simp [ht]) rfl
      obtain ⟨hinv, hret⟩ := h.fill_ok type hping hpong
      exact ⟨hinv, fun r hr hfail => absurd hfail (hret r hr)⟩

theorem ListsInv.writeFrameToBuf (h : ListsInv s) (noRet : ℕ → ℤ) {devId type : String} (c : Call)
    (hc : ∀ t, recodeType type = some t → s.entry (t, devId) ≠ none) :
    ListsInv (s.writeFrameToBuf noRet devId type c).1 ∧
      ∀ r, (s.writeFrameToBuf noRet devId type c).2 = some r → r.ret = -1 →
        (s.writeFrameToBuf noRet devId type c).1.entry = s.entry := by
  unfold Lists.writeFrameToBuf
  cases ht : recodeType type with
  | none => exact ⟨h, fun _ _ _ => rfl⟩
  | some t =>
    obtain ⟨e, he⟩ := Option.ne_none_iff_exists'.1 (hc t ht)
    simp only [he]
    obtain ⟨hinv, hret⟩ := h.writeEntry he noRet c
    refine ⟨hinv, fun r hr hneg => ?_⟩
    rw [hret r hr] at hneg
    cases hneg

/-- one call that meets the condition -/
theorem ListsInv.call {env : StoreEnv} {op : StoreOp} (h : ListsInv s) (hc : AllocsAndKnown s op) :
    ListsInv (s.call env op).1 ∧ SoundCall env s op := by
  have key : ListsInv (s.call env op).1 ∧
      ∀ r, (s.call env op).2 = some r → r.ret = -1 → (s.call env op).1.entry = s.entry := by
    cases op with
    | addStoreDevice devId type dirOk junk ping pong => exact h.addStoreDevice _ _ _ _ hc
    | addStoreEvent devId type dirOk junk ping pong => exact h.addStoreEvent _ _ _ _ hc
    | removeStoreDevice devId => exact h.removeStoreDevice devId
    | removeStoreEvent devId type => exact h.removeEvent _
    | writeFrameToBuf devId type c => exact h.writeFrameToBuf _ _ hc
    | serve key =>
      refine ⟨(h.serve key).1, fun r hr hneg => ?_⟩
      rw [(h.serve key).2 r hr] at hneg
      cases hneg
  exact ⟨key.1, key.1.ready, key.2⟩

/-- a call that does not meet it leaves an entry that is not ready -/
theorem SoundCall.allocsAndKnown {env : StoreEnv} {op : StoreOp} (h : SoundCall env s op) : AllocsAndKnown s op := by
  cases op with
  | addStoreDevice devId type dirOk junk ping pong =>
    intro hnew hdir
    by_contra hfail
    obtain ⟨e', he', hnot⟩ := fill_not_ready s (.planned, devId)
      (Lists.newEntry env.storePath devId junk) type hfail
    have hcall : s.call env (.addStoreDevice devId type dirOk junk ping pong) =
        s.fill (.planned, devId) (Lists.newEntry env.storePath devId junk) type ping pong := by
      rw [Lists.call, Lists.addStoreDevice, if_neg (not_not.2 hnew), if_pos hdir]
    exact hnot _ (h.ready _ e' (by rw [hcall]; exact he'))
  | addStoreEvent devId type dirOk junk ping pong =>
    intro htype hdir
    by_contra hfail
    obtain ⟨t, ht⟩ := Option.ne_none_iff_exists'.1 htype
    obtain ⟨e', he', hnot⟩ := fill_not_ready s (t, devId)
      ((s.entry (t, devId)).getD (Lists.newEntry env.storePath devId junk)) type hfail
    have hcall : s.call env (.addStoreEvent devId type dirOk junk ping pong) =
        s.fill (t, devId) ((s.entry (t, devId)).getD (Lists.newEntry env.storePath devId junk)) type ping pong := by
      rw [Lists.call, Lists.addStoreEvent, if_pos hdir, ht]
    exact hnot _ (h.ready _ e' (by rw [hcall]; exact he'))
  | writeFrameToBuf devId type c =>
    intro t ht hnone
    have hcall : (s.call env (.writeFrameToBuf devId type c)).1 = s.put (t, devId) (some .zero) := by
      simp only [Lists.call, Lists.writeFrameToBuf, ht, hnone]
      rfl
    obtain ⟨n, hn, -⟩ := (h.ready (t, devId) .zero (by rw [hcall]; exact put_entry ..)).alive .ping
    cases hn
  | removeStoreDevice devId => trivial
  | removeStoreEvent devId type => trivial
  | serve key => trivial

end Inv

/-- **Every entry is ready after every call**, and a call that returns -1 has changed no list, exactly in the runs in
which no malloc that is called fails and every frame write of a known type names an entry that is there. -/
theorem entries_ready_iff (env : StoreEnv) (ops : List StoreOp) :
    Steps (Lists.step env) (SoundCall env) Lists.init ops ↔
      Steps (Lists.step env) AllocsAndKnown Lists.init ops := by
  have hnone (key : RecodeType × String) (e : RawDevice) : Lists.init.entry key ≠ some e := by
    intro h
    cases h
  have hinit : ListsInv Lists.init :=
    ⟨fun key e h => absurd h (hnone key e), fun key e _ _ h => absurd h (hnone key e),
      fun key e _ _ _ _ _ h => absurd h (hnone key e)⟩
  refine steps_iff (fun s op (hs : ListsInv s) => ⟨fun h => h.allocsAndKnown, fun h => (hs.call h).2⟩)
    (fun s op t hs hc ht => ?_) hinit
  obtain ⟨_, -, rfl⟩ := Option.map_eq_some_iff.1 ht
  exact (hs.call hc).1

/-- a device and an event are added, each takes a frame, the event is stopped and the device removed -/
def plainRun : List StoreOp :=
  let junk : RawDevice := ⟨"", ⟨.wild, 0, 0, 0, 0⟩, ⟨.wild, 0, 0, 0, 0⟩, .wild, .wild, 0, ""⟩
  [.addStoreDevice "cam" "planned" true junk (some fun _ => 0) (some fun _ => 0),
    .addStoreEvent "cam" "manual" true junk (some fun _ => 0) (some fun _ => 0),
    .writeFrameToBuf "cam" "planned" (zeroCall 10), .writeFrameToBuf "cam" "manual" (zeroCall 10),
    .removeStoreEvent "cam" "manual", .removeStoreDevice "cam"]

example : (run (Lists.step ⟨fun t => t, "/store/"⟩) Lists.init plainRun).isSome = true := by decide +kernel

/-- `AddStoreDevice` when the second malloc fails, with all of the local struct's pointers wild -/
def failedAdd : StoreOp :=
  .addStoreDevice "cam" "planned" true ⟨"", ⟨.wild, 0, 0, 0, 0⟩, ⟨.wild, 0, 0, 0, 0⟩, .wild, .wild, 0, ""⟩
    (some fun _ => 0) none

/-- **A failed add leaves its entry behind**: the call returns -1, but the list has an entry with a null buffer and wild
pointers. The device can then not be added any more, and the writer follows a wild pointer. A frame for an unknown id
makes an entry too. -/
theorem half_built_entry :
    let env : StoreEnv := ⟨fun t => t, "/store/"⟩
    let s := (Lists.init.call env failedAdd).1
    (Lists.init.call env failedAdd).2 = some ⟨-1, some .mallocMemoryFail⟩ ∧
      (s.entry (.planned, "cam")).map (fun e => (e.pongStoreBuf.storeBuf, e.pCurStoreBuf)) = some (.null, .wild) ∧
      (s.call env failedAdd).2 = some ⟨-1, some .deviceAlreadyExist⟩ ∧
      (s.call env (.serve (.planned, "cam"))).2 = none ∧
      ¬ SoundCall env Lists.init failedAdd ∧
      ((Lists.init.call env (.writeFrameToBuf "cam" "planned" (zeroCall 10))).1.entry (.planned, "cam")).map
        (fun e => e.pCurStoreBuf) = some .null := by
  intro env s
  refine ⟨by decide +kernel, by decide +kernel, by decide +kernel, by decide +kernel, fun h => ?_, by decide +kernel⟩
  exact (h.allocsAndKnown rfl rfl).2 rfl

end StoreService.Store
