/-
Byte memory as a total function, with the C operations on it.

An allocation is `ℕ → UInt8`, addressed from its first byte; bounds are the business of the program that uses it.
`memset` and `memcpy` are the library calls, `readLE` and `writeLE` a little-endian integer of any width, `slice` the
list of bytes of a range, `putBytes` a store of such a list.

Rules:
- what an operation writes: `memset_of_mem`, `memcpy_of_mem`, `slice_memcpy`, `readLE_memcpy`, `readLE_writeLE`;
- what it leaves alone: `SameOn` (two memories agree on a range) with `sameOn_memset`, `sameOn_memcpy`,
  `sameOn_writeLE`, and the readers that only see the range they read (`readLE_sameOn`, `slice_sameOn`).
-/
import Mathlib.Tactic

namespace StoreService.ByteMem

abbrev Mem := ℕ → UInt8

def memset (m : Mem) (a : ℕ) (v : UInt8) (n : ℕ) : Mem := fun i => if a ≤ i ∧ i < a + n then v else m i

/-- copy `n` bytes from address `sa` of `src` to address `da` of `dst` (two different allocations) -/
def memcpy (dst : Mem) (da : ℕ) (src : Mem) (sa n : ℕ) : Mem :=
  fun i => if da ≤ i ∧ i < da + n then src (sa + (i - da)) else dst i

/-- the unsigned little-endian integer in the bytes from address `a` on -/
def readLE (m : Mem) (a : ℕ) : ℕ → ℕ
  | 0 => 0
  | n + 1 => (m a).toNat + 256 * readLE m (a + 1) n

/-- the bytes of `v`, least significant first -/
def leBytes (v : ℕ) : Mem := fun i => UInt8.ofNat (v / 256 ^ i)

/-- store the low `n` bytes of `v` at address `a` -/
def writeLE (m : Mem) (a n v : ℕ) : Mem := memcpy m a (leBytes v) 0 n

def slice (m : Mem) (a n : ℕ) : List UInt8 := (List.range n).map fun i => m (a + i)

/-! ## What is written -/

theorem memset_of_mem {m : Mem} {a n i : ℕ} {v : UInt8} (h1 : a ≤ i) (h2 : i < a + n) : memset m a v n i = v := by
  simp [memset, h1, h2]

theorem memcpy_of_mem {dst src : Mem} {da sa n i : ℕ} (h1 : da ≤ i) (h2 : i < da + n) :
    memcpy dst da src sa n i = src (sa + (i - da)) := by
  simp [memcpy, h1, h2]

theorem memcpy_zero (dst src : Mem) (da sa : ℕ) : memcpy dst da src sa 0 = dst := by
  funext i
  have : ¬ (da ≤ i ∧ i < da + 0) := by omega
  simp only [memcpy, this, if_false]

/-- two blocks copied one after the other are one block -/
theorem memcpy_add (dst src : Mem) (da sa n k : ℕ) :
    memcpy (memcpy dst da src sa n) (da + n) src (sa + n) k = memcpy dst da src sa (n + k) := by
  funext i
  by_cases h1 : da ≤ i ∧ i < da + n
  · have h2 : ¬ (da + n ≤ i ∧ i < da + n + k) := by omega
    have h3 : da ≤ i ∧ i < da + (n + k) := by omega
    simp only [memcpy, h1, h2, h3, and_self, if_true, if_false]
  · by_cases h2 : da + n ≤ i ∧ i < da + n + k
    · rw [memcpy_of_mem h2.1 h2.2, memcpy_of_mem (by omega) (by omega)]
      congr 1
      omega
    · have h3 : ¬ (da ≤ i ∧ i < da + (n + k)) := by omega
      simp only [memcpy, h1, h2, h3, if_false]

/-! ## Ranges on which two memories agree -/

/-- `m` and `m'` hold the same bytes on `[a, a + n)` -/
def SameOn (m m' : Mem) (a n : ℕ) : Prop := ∀ i, a ≤ i → i < a + n → m i = m' i

theorem SameOn.refl (m : Mem) (a n : ℕ) : SameOn m m a n := fun _ _ _ => rfl

theorem SameOn.symm {m m' : Mem} {a n : ℕ} (h : SameOn m m' a n) : SameOn m' m a n := fun i h1 h2 => (h i h1 h2).symm

theorem SameOn.trans {m m' m'' : Mem} {a n : ℕ} (h : SameOn m m' a n) (h' : SameOn m' m'' a n) : SameOn m m'' a n :=
  fun i h1 h2 => (h i h1 h2).trans (h' i h1 h2)

theorem SameOn.mono {m m' : Mem} {a n b k : ℕ} (h : SameOn m m' a n) (h1 : a ≤ b) (h2 : b + k ≤ a + n) :
    SameOn m m' b k := fun i hb hk => h i (h1.trans hb) (lt_of_lt_of_le hk h2)

theorem sameOn_memset {m : Mem} {a n b k : ℕ} {v : UInt8} (h : b + k ≤ a ∨ a + n ≤ b) :
    SameOn (memset m a v n) m b k := by
  intro i h1 h2
  have : ¬ (a ≤ i ∧ i < a + n) := by omega
  simp [memset, this]

theorem sameOn_memcpy {dst src : Mem} {da sa n b k : ℕ} (h : b + k ≤ da ∨ da + n ≤ b) :
    SameOn (memcpy dst da src sa n) dst b k := by
  intro i h1 h2
  have : ¬ (da ≤ i ∧ i < da + n) := by omega
  simp [memcpy, this]

theorem sameOn_writeLE {m : Mem} {a n v b k : ℕ} (h : b + k ≤ a ∨ a + n ≤ b) : SameOn (writeLE m a n v) m b k :=
  sameOn_memcpy h

/-! ## Reading integers -/

theorem readLE_congr {m m' : Mem} {a b : ℕ} (n : ℕ) (h : ∀ i < n, m (a + i) = m' (b + i)) :
    readLE m a n = readLE m' b n := by
  induction n generalizing a b with
  | zero => rfl
  | succ n ih =>
    have h0 : m a = m' b := by simpa using h 0 (by omega)
    have hs : readLE m (a + 1) n = readLE m' (b + 1) n := by
      apply ih
      intro i hi
      have := h (i + 1) (by omega)
      rwa [show a + (i + 1) = a + 1 + i by omega, show b + (i + 1) = b + 1 + i by omega] at this
    simp only [readLE, h0, hs]

theorem readLE_lt (m : Mem) (a n : ℕ) : readLE m a n < 256 ^ n := by
  induction n generalizing a with
  | zero => exact Nat.one_pos
  | succ n ih =>
    have hbyte := (m a).toNat_lt
    have hrest := ih (a + 1)
    rw [readLE, pow_succ]
    omega

theorem readLE_sameOn {m m' : Mem} {a n : ℕ} (h : SameOn m m' a n) : readLE m a n = readLE m' a n :=
  readLE_congr n fun i hi => h (a + i) (by omega) (by omega)

/-- reading inside a copied block reads the source -/
theorem readLE_memcpy {dst src : Mem} {da sa k a n : ℕ} (h1 : da ≤ a) (h2 : a + n ≤ da + k) :
    readLE (memcpy dst da src sa k) a n = readLE src (sa + (a - da)) n := by
  apply readLE_congr
  intro i hi
  rw [memcpy_of_mem (by omega) (by omega)]
  congr 1
  omega

theorem readLE_leBytes (v k n : ℕ) : readLE (leBytes v) k n = v / 256 ^ k % 256 ^ n := by
  induction n generalizing k with
  | zero => simp [readLE, Nat.mod_one]
  | succ n ih =>
    rw [readLE, ih, pow_succ 256 n, mul_comm (256 ^ n) 256, Nat.mod_mul, Nat.div_div_eq_div_mul, ← pow_succ]
    simp [leBytes]

theorem readLE_writeLE (m : Mem) (a n v : ℕ) : readLE (writeLE m a n v) a n = v % 256 ^ n := by
  rw [writeLE, readLE_memcpy le_rfl le_rfl, readLE_leBytes]
  simp

theorem readLE_memset_zero {m : Mem} {a n b k : ℕ} (h1 : a ≤ b) (h2 : b + k ≤ a + n) :
    readLE (memset m a 0 n) b k = 0 := by
  have hz : ∀ c, readLE (fun _ => 0) c k = 0 := by
    induction k with
    | zero => intro c; rfl
    | succ k ih => intro c; simp [readLE, ih (by omega)]
  rw [← hz b]
  apply readLE_congr
  intro i hi
  exact memset_of_mem (by omega) (by omega)

/-! ## Reading ranges -/

@[simp] theorem length_slice (m : Mem) (a n : ℕ) : (slice m a n).length = n := by simp [slice]

theorem slice_eq_iff {m m' : Mem} {a b n : ℕ} : slice m a n = slice m' b n ↔ ∀ i < n, m (a + i) = m' (b + i) := by
  simp only [slice, List.map_inj_left, List.mem_range]

theorem slice_sameOn {m m' : Mem} {a n : ℕ} (h : SameOn m m' a n) : slice m a n = slice m' a n :=
  slice_eq_iff.2 fun i hi => h (a + i) (by omega) (by omega)

theorem slice_add (m : Mem) (a n k : ℕ) : slice m a (n + k) = slice m a n ++ slice m (a + n) k := by
  simp only [slice, List.range_add, List.map_append, List.map_map, Function.comp_def, add_assoc]

theorem slice_succ (m : Mem) (a n : ℕ) : slice m a (n + 1) = m a :: slice m (a + 1) n := by
  rw [add_comm, slice_add]
  rfl

theorem take_slice (m : Mem) (a n k : ℕ) : (slice m a n).take k = slice m a (min k n) := by
  obtain hk | hk := le_total k n
  · obtain ⟨d, rfl⟩ := Nat.exists_eq_add_of_le hk
    rw [slice_add, List.take_left' (length_slice _ _ _), min_eq_left hk]
  · rw [min_eq_right hk, List.take_of_length_le (by rw [length_slice]; exact hk)]

theorem mem_slice_of_le {m : Mem} {a n k : ℕ} {c : UInt8} (hle : k ≤ n) (hc : c ∈ slice m a k) : c ∈ slice m a n := by
  obtain ⟨d, rfl⟩ := Nat.exists_eq_add_of_le hle
  rw [slice_add]
  exact List.mem_append_left _ hc

/-- a copied block holds the source's bytes -/
theorem slice_memcpy (dst src : Mem) (da sa n : ℕ) : slice (memcpy dst da src sa n) da n = slice src sa n := by
  rw [slice_eq_iff]
  intro i hi
  rw [memcpy_of_mem (by omega) (by omega)]
  congr 1
  omega

/-! ## Lists of bytes -/

/-- a list of bytes stored from address `a` on -/
def putBytes (m : Mem) (a : ℕ) (s : List UInt8) : Mem := memcpy m a (s.getD · 0) 0 s.length

theorem putBytes_nil (m : Mem) (a : ℕ) : putBytes m a [] = m := memcpy_zero m _ a 0

theorem slice_getD (s : List UInt8) : slice (s.getD · 0) 0 s.length = s := by
  apply List.ext_getElem
  · rw [length_slice]
  · intro i h1 h2
    simp [slice, h2]

theorem slice_putBytes (m : Mem) (a : ℕ) (s : List UInt8) : slice (putBytes m a s) a s.length = s := by
  rw [putBytes, slice_memcpy, slice_getD]

theorem sameOn_putBytes {m : Mem} {a b k : ℕ} {s : List UInt8} (h : b + k ≤ a ∨ a + s.length ≤ b) :
    SameOn (putBytes m a s) m b k := sameOn_memcpy h

/-- two lists stored one behind the other are one list -/
theorem putBytes_append (m : Mem) (a : ℕ) (s t : List UInt8) :
    putBytes m a (s ++ t) = putBytes (putBytes m a s) (a + s.length) t := by
  funext i
  simp only [putBytes, memcpy, zero_add, List.length_append, List.getD_eq_getElem?_getD]
  by_cases hs : a ≤ i ∧ i < a + s.length
  · have ht : ¬ (a + s.length ≤ i ∧ i < a + s.length + t.length) := by omega
    rw [if_pos (by omega), if_neg ht, if_pos hs, List.getElem?_append_left (by omega)]
  · rw [if_neg hs]
    by_cases ht : a + s.length ≤ i ∧ i < a + s.length + t.length
    · rw [if_pos (by omega), if_pos ht, List.getElem?_append_right (by omega), Nat.sub_sub]
    · rw [if_neg (by omega), if_neg ht]

end StoreService.ByteMem
