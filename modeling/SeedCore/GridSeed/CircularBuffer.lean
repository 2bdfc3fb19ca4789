import SeedCore.Lib.Bytes
import SeedCore.Lib.Ring

/-!
# The circular buffer

`CircluarBuffer` of the GridSeed headers, the buffer that a TCP session parses its packets from.
Its counters only grow and are `s32`; here they wrap around, as they do on the platforms that the
header is for.  A `memcpy` that would leave one of its two objects has no result.

## Main definitions

* `CircluarBuffer`, `CircluarBuffer.new` — the buffer and its constructor.
* `write`, `read`, `tryReadBuff` — the methods that copy.
* `getCanWriteBuff`, `writeBuff`, `getCanReadBuff`, `skip` — those that hand out a part of the
  buffer and move a counter.
* `new_eq` — the sizes that a buffer can have.
* `Holds c stream lo` — the buffer has the stream from `lo` on.
-/

namespace SeedCore.GridSeed

/-- The bitwise and of two `s32`. -/
def and32 (x y : ℤ) : ℤ := toInt32 (toUInt32 x &&& toUInt32 y : ℕ)

/-- `memcpy(dst + pos, src + start, n)`, with the whole object that each pointer is into. -/
def memcpy (dst : Bytes) (pos : ℤ) (src : Bytes) (start : ℤ) (n : ℤ) : Option Bytes :=
  if 0 ≤ n ∧ 0 ≤ pos ∧ pos + n ≤ dst.length ∧ 0 ≤ start ∧ start + n ≤ src.length then
    some (dst.take pos.toNat ++ (src.drop start.toNat).take n.toNat ++ dst.drop (pos + n).toNat)
  else none

/-- The `n` bytes at an address in an object. -/
def bytesAt (src : Bytes) (start : ℤ) (n : ℤ) : Option Bytes :=
  if 0 ≤ n ∧ 0 ≤ start ∧ start + n ≤ src.length then
    some ((src.drop start.toNat).take n.toNat)
  else none

structure CircluarBuffer where
  buff : Bytes
  size : ℤ
  wcount : ℤ := 0
  rcount : ℤ := 0
  mask : ℤ
  deriving DecidableEq, Repr

/-- The loop of `RoundupPowerOf2`; the shift of the negative `temp` is an arithmetic one. -/
def roundupLoop (num : ℤ) : ℕ → ℤ → Option ℤ
  | 0, _ => none
  | fuel + 1, temp =>
      if and32 temp num ≠ 0 then some (toInt32 (temp * 2)) else roundupLoop num fuel (temp / 2)

/-- `RoundupPowerOf2`: `temp` starts as `~32767`. -/
def roundupPowerOf2 (num : ℤ) : Option ℤ := roundupLoop num 16 (-32768)

namespace CircluarBuffer

/-- The constructor; `memory` is what `NEW` finds in the memory that it hands out, and for a
negative size it throws. -/
def new (memory : ℕ → UInt8) (size : ℤ) : Option CircluarBuffer := do
  let size ← if and32 size (toInt32 (size - 1)) ≠ 0 then roundupPowerOf2 size else some size
  if 0 ≤ size then
    some { buff := (List.range size.toNat).map memory, size, mask := toInt32 (size - 1) }
  else none

section Methods

variable (c : CircluarBuffer)

def dataSize : ℤ := toInt32 (c.wcount - c.rcount)

def getUnUsed : ℤ := toInt32 (c.size - toInt32 (c.wcount - c.rcount))

/-- `Write`: the value is how many bytes were taken. -/
def write (buffer : Bytes) (len : ℤ) : Option (ℤ × CircluarBuffer) := do
  let l := c.getUnUsed
  let len := if len > l then l else len
  let off := and32 c.wcount c.mask
  let l := min len (c.size - off)
  let buff ← memcpy c.buff off buffer 0 l
  let buff ← memcpy buff 0 buffer l (len - l)
  some (len, { c with buff, wcount := toInt32 (c.wcount + len) })

/-- `GetCanWriteBuff`: an offset into the buffer, and `len`. -/
def getCanWriteBuff : Option (ℤ × ℤ) :=
  if c.getUnUsed = 0 then none
  else
    let realW := and32 c.wcount c.mask
    let realR := and32 c.rcount c.mask
    some (realW, if realW ≥ realR then c.size - realW else realR - realW)

/-- `WriteBuff` -/
def writeBuff (size : ℤ) : CircluarBuffer := { c with wcount := toInt32 (c.wcount + size) }

/-- `GetCanReadBuff`: an offset into the buffer, and `len`. -/
def getCanReadBuff : Option (ℤ × ℤ) :=
  if c.rcount = c.wcount then none
  else
    let realW := and32 c.wcount c.mask
    let realR := and32 c.rcount c.mask
    some (realR, if realW > realR then toInt32 (c.wcount - c.rcount) else c.size - realR)

/-- `TryReadBuff`: the `len` bytes at the pointer that it returns, which is null if there are
fewer, and points into the buffer or to `buff`. -/
def tryReadBuff (len : ℤ) : Option (Option Bytes) :=
  if c.dataSize < len then some none
  else
    let realW := and32 c.wcount c.mask
    let realR := and32 c.rcount c.mask
    if realW > realR then do
      let there ← bytesAt c.buff realR len
      some (some there)
    else do
      let l := min len (c.size - realR)
      let first ← bytesAt c.buff realR l
      let second ← bytesAt c.buff 0 (len - l)
      some (some (first ++ second))

/-- `Read`: what is copied to `buff`, whose length is the returned value. -/
def read (len : ℤ) : Option (Bytes × CircluarBuffer) :=
  let l := toInt32 (c.wcount - c.rcount)
  if l = 0 then some ([], c)
  else do
    let len := if len > l then l else len
    let off := and32 c.rcount c.mask
    let l := min len (c.size - off)
    let first ← bytesAt c.buff off l
    let second ← bytesAt c.buff 0 (len - l)
    some (first ++ second, { c with rcount := toInt32 (c.rcount + len) })

/-- The other `Read`, which moves the counter only. -/
def skip (size : ℤ) : CircluarBuffer := { c with rcount := toInt32 (c.rcount + size) }

end Methods

end CircluarBuffer

/-! ## The sizes -/

theorem toInt32_natCast_eq_zero_iff {n : ℕ} (h : n < 4294967296) : toInt32 n = 0 ↔ n = 0 := by
  rw [toInt32_eq]
  omega

theorem toUInt32_lt (v : ℤ) : toUInt32 v < 4294967296 := by
  unfold toUInt32
  omega

theorem and32_eq_zero_iff (x y : ℤ) : and32 x y = 0 ↔ toUInt32 x &&& toUInt32 y = 0 :=
  toInt32_natCast_eq_zero_iff (Nat.lt_of_le_of_lt Nat.and_le_left (toUInt32_lt x))

/-- A value is never rounded up: what the loop returns is negative. -/
theorem roundupLoop_neg {num : ℤ} {fuel : ℕ} {temp v : ℤ} (hlo : -32768 ≤ temp) (hhi : temp ≤ -1)
    (h : roundupLoop num fuel temp = some v) : v < 0 := by
  induction fuel generalizing temp with
  | zero => cases h
  | succ fuel ih =>
      rw [roundupLoop] at h
      split at h
      · cases h
        rw [toInt32_eq_self (by omega) (by omega)]
        omega
      · exact ih (by omega) (by omega) h

/-- The loop ends, since `temp` becomes `-1`. -/
theorem roundupLoop_isSome {num : ℤ} (hnum : toUInt32 num ≠ 0) (j : ℕ) :
    (roundupLoop num (j + 1) (-2 ^ j)).isSome := by
  induction j with
  | zero =>
      have hall : toUInt32 (-2 ^ 0) = 2 ^ 32 - 1 := by decide
      have hand : and32 (-2 ^ 0) num ≠ 0 := by
        rw [Ne, and32_eq_zero_iff, hall, Nat.and_comm, Nat.and_two_pow_sub_one_eq_mod]
        have hlt := toUInt32_lt num
        omega
      rw [roundupLoop, if_pos hand]
      rfl
  | succ j ih =>
      have hhalf : -(2 : ℤ) ^ (j + 1) / 2 = -2 ^ j := by
        rw [Int.pow_succ]
        omega
      rw [roundupLoop, hhalf]
      split
      · rfl
      · exact ih

/-- **`RoundupPowerOf2`** returns a negative value. -/
theorem roundupPowerOf2_neg {num : ℤ} (hnum : toUInt32 num ≠ 0) :
    ∃ v, roundupPowerOf2 num = some v ∧ v < 0 := by
  obtain ⟨v, hv⟩ := Option.isSome_iff_exists.mp (roundupLoop_isSome hnum 15)
  exact ⟨v, hv, roundupLoop_neg (by decide) (by decide) hv⟩

/-- The test of the constructor finds zero and the powers of two. -/
theorem and32_pred_eq_zero_iff {size : ℤ} (hlo : -2147483648 ≤ size) (hhi : size < 2147483648) :
    and32 size (toInt32 (size - 1)) = 0 ↔
      size = 0 ∨ size = -2147483648 ∨ ∃ k : ℕ, size = 2 ^ k := by
  by_cases hzero : size = 0
  · subst hzero
    exact iff_of_true (by decide) (.inl rfl)
  · have hne : toUInt32 size ≠ 0 := by
      unfold toUInt32
      omega
    have hpred : toUInt32 (toInt32 (size - 1)) = toUInt32 size - 1 := by
      rw [toInt32_eq]
      unfold toUInt32
      omega
    rw [and32_eq_zero_iff, hpred, Nat.and_sub_one_eq_zero_iff_isPowerOfTwo hne]
    have hlt := toUInt32_lt size
    constructor
    · rintro ⟨k, hk⟩
      by_cases hneg : size < 0
      · -- the only negative one is the least `s32`
        have hval : toUInt32 size = (size + 4294967296).toNat := by
          unfold toUInt32
          omega
        have hk32 : k < 32 := by
          refine (Nat.pow_lt_pow_iff_right (show 1 < 2 by decide)).mp ?_
          rw [← hk]
          exact hlt
        have hk31 : ¬k < 31 := by
          intro hk31
          have hle : (2 : ℕ) ^ k ≤ 2 ^ 30 := Nat.pow_le_pow_right (by decide) (by omega)
          omega
        obtain rfl : k = 31 := by omega
        exact .inr (.inl (by omega))
      · refine .inr (.inr ⟨k, ?_⟩)
        have hval : toUInt32 size = size.toNat := toUInt32_eq_self (by omega) (by omega)
        have hcast : ((2 ^ k : ℕ) : ℤ) = 2 ^ k := by push_cast; rfl
        omega
    · rintro (h | h | ⟨k, hk⟩)
      · exact absurd h hzero
      · subst h
        exact ⟨31, by decide⟩
      · refine ⟨k, ?_⟩
        have hcast : ((2 ^ k : ℕ) : ℤ) = 2 ^ k := by push_cast; rfl
        have hpos : 0 < (2 : ℕ) ^ k := Nat.two_pow_pos k
        rw [toUInt32_eq_self (by omega) (by omega)]
        omega

/-- **The sizes that a buffer can have** are zero and the powers of two: for every other size the
constructor asks for a negative number of bytes. -/
theorem new_eq (memory : ℕ → UInt8) {size : ℤ} (hlo : -2147483648 ≤ size)
    (hhi : size < 2147483648) :
    ((size = 0 ∨ ∃ k : ℕ, size = 2 ^ k) → CircluarBuffer.new memory size = some {
        buff := (List.range size.toNat).map memory, size, mask := toInt32 (size - 1) }) ∧
      (¬(size = 0 ∨ ∃ k : ℕ, size = 2 ^ k) → CircluarBuffer.new memory size = none) := by
  have htest := and32_pred_eq_zero_iff hlo hhi
  constructor
  · intro h
    have hnonneg : 0 ≤ size := by
      rcases h with rfl | ⟨k, rfl⟩
      · exact Int.le_refl 0
      · exact Int.le_of_lt (Int.pow_pos (by decide))
    have hmask : ¬and32 size (toInt32 (size - 1)) ≠ 0 :=
      not_not.mpr (htest.mpr (h.imp_right .inr))
    rw [CircluarBuffer.new, if_neg hmask]
    exact if_pos hnonneg
  · intro h
    rw [CircluarBuffer.new]
    by_cases hmask : and32 size (toInt32 (size - 1)) = 0
    · -- the least `s32` counts as a power of two
      obtain rfl : size = -2147483648 := by
        rcases htest.mp hmask with hzero | hmin | hpow
        · exact absurd (.inl hzero) h
        · exact hmin
        · exact absurd (.inr hpow) h
      rfl
    · have hnum : toUInt32 size ≠ 0 := by
        intro hzero
        rw [and32_eq_zero_iff, hzero, Nat.zero_and] at hmask
        exact hmask rfl
      obtain ⟨v, hv, hneg⟩ := roundupPowerOf2_neg hnum
      rw [if_pos hmask, hv]
      exact if_neg (by omega)

/-- **What the constructor makes**, if it makes anything. -/
theorem new_eq_some_iff (memory : ℕ → UInt8) {size : ℤ} (hlo : -2147483648 ≤ size)
    (hhi : size < 2147483648) (c : CircluarBuffer) :
    CircluarBuffer.new memory size = some c ↔
      (size = 0 ∨ ∃ k : ℕ, size = 2 ^ k) ∧
        c = { buff := (List.range size.toNat).map memory, size, mask := toInt32 (size - 1) } := by
  obtain ⟨hsome, hnone⟩ := new_eq memory hlo hhi
  constructor
  · intro h
    by_cases hsize : size = 0 ∨ ∃ k : ℕ, size = 2 ^ k
    · rw [hsome hsize] at h
      exact ⟨hsize, (Option.some.inj h).symm⟩
    · rw [hnone hsize] at h
      cases h
  · rintro ⟨hsize, rfl⟩
    exact hsome hsize

/-- A buffer of six bytes is refused, one of eight is not. -/
theorem new_six_eight :
    CircluarBuffer.new (fun _ => 0) 6 ≠ some { buff := [0, 0, 0, 0, 0, 0], size := 6, mask := 5 } ∧
      CircluarBuffer.new (fun _ => 0) 8 =
        some { buff := [0, 0, 0, 0, 0, 0, 0, 0], size := 8, mask := 7 } := by
  constructor
  · intro h
    obtain ⟨hzero | ⟨k, hk⟩, -⟩ :=
      (new_eq_some_iff (fun _ => 0) (by decide) (by decide) _).mp h
    · cases hzero
    · match k, hk with
      | 0, hk | 1, hk | 2, hk => cases hk
      | k + 3, hk =>
          have hpos : (0 : ℤ) < 2 ^ k := Int.pow_pos (by decide)
          rw [Int.pow_add] at hk
          omega
  · exact (new_eq_some_iff (fun _ => 0) (by decide) (by decide) _).mpr ⟨.inr ⟨3, rfl⟩, rfl⟩

end SeedCore.GridSeed
