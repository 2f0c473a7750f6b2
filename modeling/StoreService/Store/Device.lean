/-
One store device (`store.cpp`): its two buffers, the tail move and `WriteFrameToBuf`.

A device owns a ping and a pong buffer of STORE_BUF_MAX_SIZE bytes. Frames grow up from byte 0 of the current buffer;
96-byte index records (`struct storeinfo`) grow down from its end. `store_offset` is the end of the frames,
`store_info_offset` the free slot under the last record. When a frame does not fit, the current buffer is sealed and
handed to the writer through `pStoreBufWr`, and the other buffer becomes current:
- on a key frame the gap and the free slot are cleared (`rotateKey`);
- on any other frame the frames from the last key frame on are moved to the other buffer first (`rotateMove`,
  `moveFramesToNextBuf`).
With `flag` set the buffer is flushed and rewound (`stopSeal`, `stopReset`).

Conventions:
- a buffer's bytes are a `Mem`; machine integers are ℕ, reduced modulo 2^32 where the source stores a uint32_t;
- `none` is a memory fault: a read or write outside the buffer's STORE_BUF_MAX_SIZE bytes, or a use of a null record;
- `sizeof(struct storeinfo)` is 96: head at 0, frame_start_time at 8, frame_idx at 16, frame_offset at 20, frame_size at
  24, reverse[64] at 28, and padding (written as 0 here, indeterminate in C);
- the clock readings of a call are inputs of the call.
-/
import StoreService.Common.KeyFrame

namespace StoreService.Store

open StoreService.ByteMem StoreService.KeyFrame

def storeBufMaxSize : ℕ := 64 * 1024 * 1024

def sizeofStoreInfo : ℕ := 96

def storeInfoHead : ℕ := 0x7a5d9e3b

/-- what is stored in a uint32_t -/
def u32 (x : ℕ) : ℕ := x % 2 ^ 32

/-- `struct storeinfo` -/
structure StoreInfo where
  head : ℕ
  frameStartTime : ℕ
  frameIdx : ℕ
  frameOffset : ℕ
  frameSize : ℕ
deriving DecidableEq, Repr

/-- the record at address `a` -/
def readInfo (m : Mem) (a : ℕ) : StoreInfo :=
  ⟨readLE m a 4, readLE m (a + 8) 8, readLE m (a + 16) 4, readLE m (a + 20) 4, readLE m (a + 24) 4⟩

/-- the 96 bytes of a record -/
def StoreInfo.bytes (r : StoreInfo) : Mem :=
  writeLE (writeLE (writeLE (writeLE (writeLE (fun _ => 0) 0 4 r.head) 8 8 r.frameStartTime) 16 4 r.frameIdx)
    20 4 r.frameOffset) 24 4 r.frameSize

/-- `struct storebuf` -/
structure StoreBuf where
  storeBuf : Mem
  storeSize : ℕ
  storeOffset : ℕ
  storeInfoOffset : ℕ
  storeStartTime : ℕ

inductive BufId where
  | ping
  | pong
deriving DecidableEq, Repr

def BufId.other : BufId → BufId
  | .ping => .pong
  | .pong => .ping

/-- `store_type`: RECODE_TYPE_PLANNED, RECODE_TYPE_MANUAL, RECODE_TYPE_ALARM -/
inductive RecodeType where
  | planned
  | manual
  | alarm
deriving DecidableEq, Repr

/-- `struct storedevice` -/
structure StoreDevice where
  storePath : String
  pingStoreBuf : StoreBuf
  pongStoreBuf : StoreBuf
  pCurStoreBuf : BufId
  pStoreBufWr : Option BufId
  frameIndex : ℕ
  storeType : RecodeType

/-- a frame: the bytes from `frameData` on (those that follow the frame in memory included) and `frameSize` -/
structure Frame where
  data : Mem
  size : ℕ

/-- one call of `WriteFrameToBuf`, with what `time` and `gettimeofday` return in it -/
structure Call where
  frame : Frame
  flag : Bool
  time : ℕ
  tvSec : ℕ
  tvUsec : ℕ

/-- `frame_start_ms` -/
def Call.ms (c : Call) : ℕ := c.tvSec * 1000 + c.tvUsec / 1000

/-! ## Buffers -/

/-- rewind the two offsets; the bytes stay -/
def StoreBuf.reset (b : StoreBuf) (t : ℕ) : StoreBuf :=
  { b with storeOffset := 0, storeInfoOffset := storeBufMaxSize - sizeofStoreInfo, storeStartTime := t }

/-- `remain`, a uint32_t difference -/
def StoreBuf.remain (b : StoreBuf) : ℕ := u32 (b.storeInfoOffset + 2 ^ 32 - b.storeOffset)

/-- append a frame and its record, from the label `store` on -/
def StoreBuf.storeFrame (b : StoreBuf) (f : Frame) (ms idx : ℕ) : Option StoreBuf :=
  if b.storeOffset + f.size ≤ storeBufMaxSize ∧ b.storeInfoOffset + sizeofStoreInfo ≤ storeBufMaxSize then
    let storeInfo : StoreInfo := ⟨storeInfoHead, ms, idx, b.storeOffset, f.size⟩
    let m := memcpy b.storeBuf b.storeOffset f.data 0 f.size
    some { b with
      storeBuf := memcpy m b.storeInfoOffset storeInfo.bytes 0 sizeofStoreInfo
      storeOffset := u32 (b.storeOffset + f.size)
      storeInfoOffset := u32 (b.storeInfoOffset + 2 ^ 32 - sizeofStoreInfo) }
  else none

/-! ## `MoveFramesToNextBuf` -/

/-- the backward search: from the last record towards the first, the first whose frame is a key frame. Result: where the
walk stopped, and `ret_addr` (`none` for the null pointer). -/
def searchKey (noRet : ℕ → ℤ) (m : Mem) : ℕ → ℕ → Option (ℕ × Option ℕ)
  | 0, _ => none
  | fuel + 1, pos =>
    if pos + sizeofStoreInfo ≤ storeBufMaxSize then
      let r := readInfo m pos
      if r.head = storeInfoHead then
        if parseKeyFrame noRet m r.frameOffset r.frameSize ≠ 0 then searchKey noRet m fuel (pos + sizeofStoreInfo)
        else some (pos, some pos)
      else some (pos, none)
    else none

/-- the copy loop, down the index of the source from `srcPos` and down that of the destination from `dstPos`. The offset
of a copied frame is read from the destination record, where the round before left it. -/
def moveLoop (src : Mem) : ℕ → ℕ → StoreBuf → ℕ → Option (StoreBuf × ℕ)
  | 0, _, _, _ => none
  | fuel + 1, srcPos, dst, dstPos =>
    let r := readInfo src srcPos
    if r.head = storeInfoHead then
      let dstOffset := (readInfo dst.storeBuf dstPos).frameOffset
      if dstOffset + r.frameSize ≤ storeBufMaxSize ∧ r.frameOffset + r.frameSize ≤ storeBufMaxSize ∧
          sizeofStoreInfo ≤ srcPos ∧ sizeofStoreInfo ≤ dstPos then
        let m := memcpy dst.storeBuf dstOffset src r.frameOffset r.frameSize
        let m := memcpy m dstPos src srcPos sizeofStoreInfo
        let m := writeLE m (dstPos + 20) 4 dstOffset
        let m := writeLE m (dstPos - sizeofStoreInfo + 20) 4 (dstOffset + r.frameSize)
        moveLoop src fuel (srcPos - sizeofStoreInfo)
          { dst with storeBuf := m, storeOffset := u32 (dst.storeOffset + r.frameSize) } (dstPos - sizeofStoreInfo)
      else none
    else some (dst, dstPos)

/-- `MoveFramesToNextBuf`: the destination afterwards and `ret_addr` -/
def moveFramesToNextBuf (noRet : ℕ → ℤ) (src dst : StoreBuf) : Option (StoreBuf × Option ℕ) :=
  (searchKey noRet src.storeBuf (storeBufMaxSize / sizeofStoreInfo + 1) (src.storeInfoOffset + sizeofStoreInfo)).bind
    fun (pos, retAddr) =>
      let dst0 := { dst with storeBuf := writeLE dst.storeBuf (dst.storeInfoOffset + 20) 4 0 }
      (moveLoop src.storeBuf (storeBufMaxSize / sizeofStoreInfo + 1) pos dst0 dst.storeInfoOffset).map
        fun (dst', dstPos) => ({ dst' with storeInfoOffset := dstPos }, retAddr)

/-! ## `WriteFrameToBuf` -/

namespace StoreDevice

def buf (d : StoreDevice) : BufId → StoreBuf
  | .ping => d.pingStoreBuf
  | .pong => d.pongStoreBuf

def setBuf (d : StoreDevice) (i : BufId) (b : StoreBuf) : StoreDevice :=
  match i with
  | .ping => { d with pingStoreBuf := b }
  | .pong => { d with pongStoreBuf := b }

/-- `*pCurStoreBuf` -/
def cur (d : StoreDevice) : StoreBuf := d.buf d.pCurStoreBuf

/-- seal the current buffer and make the other one, with content `next`, current -/
def handOver (d : StoreDevice) (sealed next : StoreBuf) : StoreDevice :=
  { (d.setBuf d.pCurStoreBuf sealed).setBuf d.pCurStoreBuf.other next with
    pStoreBufWr := some d.pCurStoreBuf, pCurStoreBuf := d.pCurStoreBuf.other }

/-- rotation on a key frame: clear the gap and the free slot, and start the other buffer -/
def rotateKey (d : StoreDevice) (c : Call) : Option StoreDevice :=
  let b := d.cur
  if b.storeOffset + (b.remain + sizeofStoreInfo) ≤ storeBufMaxSize then
    some (d.handOver { b with storeBuf := memset b.storeBuf b.storeOffset 0 (b.remain + sizeofStoreInfo) }
      ((d.buf d.pCurStoreBuf.other).reset c.time))
  else none

/-- rotation on any other frame: move the frames from the last key frame on, then clear their bytes and records -/
def rotateMove (noRet : ℕ → ℤ) (d : StoreDevice) (c : Call) : Option StoreDevice :=
  let b := d.cur
  (moveFramesToNextBuf noRet b ((d.buf d.pCurStoreBuf.other).reset c.time)).bind fun (cpyBuf, ret) =>
    ret.bind fun retAddr =>
      let iFrame := (readInfo b.storeBuf retAddr).frameOffset
      if iFrame ≤ retAddr + sizeofStoreInfo then
        some (d.handOver
          { b with storeBuf := memset b.storeBuf iFrame 0 (retAddr + sizeofStoreInfo - iFrame) } cpyBuf)
      else none

/-- the frame does not fit: `remain < frameSize + sizeof(struct storeinfo)` (a 64-bit sum) -/
def Full (d : StoreDevice) (c : Call) : Prop := d.cur.remain < c.frame.size + sizeofStoreInfo

instance (d : StoreDevice) (c : Call) : Decidable (Full d c) := by unfold Full; infer_instance

def rotate (noRet : ℕ → ℤ) (d : StoreDevice) (c : Call) : Option StoreDevice :=
  if parseKeyFrame noRet c.frame.data 0 c.frame.size ≠ 0 then d.rotateMove noRet c else d.rotateKey c

/-- `if (!store_start_time) store_start_time = time(nullptr)` -/
def stampStart (d : StoreDevice) (c : Call) : StoreDevice :=
  if d.cur.storeStartTime = 0 then d.setBuf d.pCurStoreBuf { d.cur with storeStartTime := c.time } else d

/-- the label `store` -/
def store (d : StoreDevice) (c : Call) : Option StoreDevice :=
  (d.cur.storeFrame c.frame c.ms d.frameIndex).map fun b =>
    { d.setBuf d.pCurStoreBuf b with frameIndex := u32 (d.frameIndex + 1) }

/-- a call with `flag` = 0 -/
def writeFrame (noRet : ℕ → ℤ) (d : StoreDevice) (c : Call) : Option StoreDevice :=
  (if d.Full c then d.rotate noRet c else some d).bind fun d => (d.stampStart c).store c

/-- a call with `flag` = 1 up to the second wait: append the frame if it fits, clear, hand the buffer to the writer. The
memset starts at the offset after the append but uses the `remain` from before it. -/
def stopSeal (d : StoreDevice) (c : Call) : Option StoreDevice :=
  (if d.Full c then some d else d.store c).bind fun d' =>
    let b := d'.cur
    if b.storeOffset + (d.cur.remain + sizeofStoreInfo) ≤ storeBufMaxSize then
      some { d'.setBuf d'.pCurStoreBuf
          { b with storeBuf := memset b.storeBuf b.storeOffset 0 (d.cur.remain + sizeofStoreInfo) } with
        pStoreBufWr := some d'.pCurStoreBuf }
    else none

/-- the rest of it for a planned recording, when the writer has emptied the slot: rewind the buffer -/
def stopReset (d : StoreDevice) : StoreDevice :=
  { d.setBuf d.pCurStoreBuf (d.cur.reset 0) with pStoreBufWr := none }

/-- `WriteFrameToBuf` on a planned device. A call with `flag` = 1 first waits for the writer to empty the slot, and
waits again after handing the buffer over. -/
def writeFrameToBuf (noRet : ℕ → ℤ) (d : StoreDevice) (c : Call) : Option StoreDevice :=
  if c.flag then ({ d with pStoreBufWr := none }.stopSeal c).map stopReset else d.writeFrame noRet c

end StoreDevice

/-- the device `AddStoreDevice` builds, on two fresh buffers with the given bytes (pong's start time is left as
allocated) -/
def addStoreDevice (path : String) (type : RecodeType) (ping pong : Mem) (pongStart : ℕ) : StoreDevice where
  storePath := path
  pingStoreBuf := ⟨ping, storeBufMaxSize, 0, storeBufMaxSize - sizeofStoreInfo, 0⟩
  pongStoreBuf := ⟨pong, storeBufMaxSize, 0, storeBufMaxSize - sizeofStoreInfo, pongStart⟩
  pCurStoreBuf := .ping
  pStoreBufWr := none
  frameIndex := 0
  storeType := type

end StoreService.Store
