/-
`ParseKeyFrame` (`common.cpp`): does a frame contain an IDR slice?

The scanner looks for the start codes 00 00 01 and 00 00 00 01 with a four-byte load at every position, reads the byte
after the code, and returns 0 at the first NAL unit of type 5. The loads at the end of the frame also see the bytes that
follow it in memory, so the frame is given as a memory and an address.

The function has no `return` after its loop. What the caller then reads is not defined by the language; it is the
parameter `noRet`, a function of the `total` the loop ended with (an unoptimised build leaves `total` itself in the
return register). Results hold for every `noRet`.
-/
import StoreService.Core.ByteMem

namespace StoreService.KeyFrame

open StoreService.ByteMem

/-- the loop, with `data` the read address and `total` the bytes passed so far. `total` grows in every round, so `size`
rounds are enough; it cannot wrap, since a packet's size comes from an `int`. -/
def parseKeyFrameLoop (noRet : ℕ → ℤ) (m : Mem) (size : ℕ) : ℕ → ℕ → ℕ → ℤ
  | 0, _, total => noRet total
  | fuel + 1, data, total =>
    if total < size then
      let seperator1 := readLE m data 4
      let seperator2 := seperator1 % 2 ^ 24
      if seperator1 ≠ 0x01000000 ∧ seperator2 ≠ 0x00010000 then
        parseKeyFrameLoop noRet m size fuel (data + 1) (total + 1)
      else
        let off := if seperator2 = 0x00010000 then 3 else 4
        if (m (data + off)).toNat % 32 = 5 then 0
        else parseKeyFrameLoop noRet m size fuel (data + (off + 1)) (total + (off + 1))
    else noRet total

def parseKeyFrame (noRet : ℕ → ℤ) (m : Mem) (data size : ℕ) : ℤ := parseKeyFrameLoop noRet m size (size + 1) data 0

/-- a frame that starts with the four-byte start code and an IDR slice is a key frame, whatever follows -/
theorem parseKeyFrame_idr (noRet : ℕ → ℤ) (m : Mem) (data size : ℕ) (hs : 0 < size)
    (hcode : readLE m data 4 = 0x01000000) (hidr : (m (data + 4)).toNat % 32 = 5) :
    parseKeyFrame noRet m data size = 0 := by
  simp [parseKeyFrame, parseKeyFrameLoop, hs, hcode, hidr]

/-- no start code at any position: the loop falls off its end -/
theorem parseKeyFrame_no_code (noRet : ℕ → ℤ) (m : Mem) (data size : ℕ)
    (h : ∀ i < size, readLE m (data + i) 4 ≠ 0x01000000 ∧ readLE m (data + i) 4 % 2 ^ 24 ≠ 0x00010000) :
    parseKeyFrame noRet m data size = noRet size := by
  have loop : ∀ fuel total, total ≤ size → size < fuel + total →
      parseKeyFrameLoop noRet m size fuel (data + total) total = noRet size := by
    intro fuel
    induction fuel with
    | zero => intro total h1 h2; omega
    | succ fuel ih =>
      intro total h1 h2
      rcases Nat.lt_or_eq_of_le h1 with hlt | rfl
      · simp only [parseKeyFrameLoop, hlt, h total hlt, if_true, ne_eq, not_false_eq_true, and_self]
        exact ih (total + 1) hlt (by omega)
      · simp [parseKeyFrameLoop]
  simpa [parseKeyFrame] using loop (size + 1) 0 (Nat.zero_le _) (by omega)

end StoreService.KeyFrame
