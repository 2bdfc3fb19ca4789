import Mathlib.Algebra.Group.Nat.Defs
import Mathlib.Data.List.Lex
import Mathlib.Data.List.TakeDrop
import Mathlib.Data.List.TakeWhile

/-!
# Byte strings, decimal numerals and stored 32-bit integers

A byte string is a `List UInt8`.  This module supplies the three notions that a
text protocol written by a C program rests on: decimal numerals as bytes, the
conversion of an integer to a signed 32-bit one, and a signed 32-bit integer
stored little-endian at an offset inside a larger byte string.

## Main definitions

* `ascii s` — the bytes of an ASCII text.
* `dec n`, `decInt i`, `undec ds` — decimal numerals and how they are read back.
* `toInt8 v`, `toInt32 v`, `toUInt32 v`, `toUInt64 v` — conversion to a machine integer.
* `load32 mem p`, `store32 mem p v` — the 32-bit integer at offset `p`.
* `cstr s` — what a C function sees of a byte string: everything before the
  first NUL.
-/

namespace SeedCore

/-- A byte string. -/
abbrev Bytes := List UInt8

/-- Bytes are ordered by their value, and so byte strings as `memcmp` orders them. -/
instance instLinearOrderUInt8 : LinearOrder UInt8 where
  le_refl := UInt8.le_refl
  le_trans _ _ _ := UInt8.le_trans
  le_antisymm _ _ := UInt8.le_antisymm
  le_total := UInt8.le_total
  lt_iff_le_not_ge a b := by
    simp only [UInt8.lt_iff_toNat_lt, UInt8.le_iff_toNat_le]
    omega
  toDecidableLE := inferInstance

/-- The bytes of an ASCII text. -/
def ascii (s : String) : Bytes := s.toList.map Char.toUInt8

/-- Carriage return and line feed. -/
def crlf : Bytes := [13, 10]

/-- The part of a byte string that a C string function sees. -/
def cstr (s : Bytes) : Bytes := s.takeWhile (· ≠ 0)

@[simp] theorem cstr_cstr (s : Bytes) : cstr (cstr s) = cstr s := List.takeWhile_idem

/-! ## Decimal numerals -/

/-- A decimal digit, as a byte. -/
def isDigit (b : UInt8) : Bool := 48 ≤ b.toNat && b.toNat ≤ 57

/-- The decimal numeral of a natural number. -/
def dec (n : ℕ) : Bytes := (Nat.toDigits 10 n).map Char.toUInt8

/-- The decimal numeral of an integer, with a minus sign where it is negative. -/
def decInt : ℤ → Bytes
  | .ofNat n => dec n
  | .negSucc n => 45 :: dec (n + 1)

/-- The value of a string of digits. -/
def undec (ds : Bytes) : ℕ := ds.foldl (fun acc b => 10 * acc + (b.toNat - 48)) 0

private theorem toNat_toUInt8_of_isDigit {c : Char} (h : c.isDigit) :
    c.toUInt8.toNat = c.toNat := by
  have hc : 48 ≤ c.toNat ∧ c.toNat ≤ 57 := by
    simpa [Char.isDigit, UInt32.le_iff_toNat_le] using h
  simp only [Char.toUInt8, UInt32.toNat_toUInt8]
  exact Nat.mod_eq_of_lt (by have : c.val.toNat = c.toNat := rfl; omega)

/-- A numeral consists of digits. -/
theorem isDigit_of_mem_dec {n : ℕ} {b : UInt8} (h : b ∈ dec n) : isDigit b = true := by
  obtain ⟨c, hc, rfl⟩ := List.mem_map.mp h
  have hd := Nat.isDigit_of_mem_toDigits (by decide) (by decide) hc
  have hr : 48 ≤ c.toNat ∧ c.toNat ≤ 57 := by
    simpa [Char.isDigit, UInt32.le_iff_toNat_le] using hd
  simp [isDigit, toNat_toUInt8_of_isDigit hd, hr.1, hr.2]

theorem dec_ne_nil (n : ℕ) : dec n ≠ [] := by simp [dec]

/-- A numeral has at most `k` digits exactly when its number is below `10 ^ k`. -/
theorem length_dec_le_iff {n k : ℕ} (hk : 0 < k) : (dec n).length ≤ k ↔ n < 10 ^ k := by
  simpa [dec] using Nat.length_toDigits_le_iff (b := 10) (n := n) (by decide) hk

/-- **Reading a numeral gives back its number.** -/
@[simp] theorem undec_dec (n : ℕ) : undec (dec n) = n := by
  have key : ∀ (l : List Char), (∀ c ∈ l, c.isDigit) → ∀ acc : ℕ,
      (l.map Char.toUInt8).foldl (fun acc b => 10 * acc + (b.toNat - 48)) acc
        = Nat.ofDigitChars 10 l acc := by
    intro l
    induction l with
    | nil => intro _ acc; simp
    | cons c l ih =>
        intro hl acc
        have hc : c.isDigit := hl c List.mem_cons_self
        rw [List.map_cons, List.foldl_cons, Nat.ofDigitChars_cons,
          ih (fun x hx => hl x (List.mem_cons_of_mem _ hx)), toNat_toUInt8_of_isDigit hc]
        rfl
  rw [undec, dec, key _ (fun c hc => Nat.isDigit_of_mem_toDigits (by decide) (by decide) hc)]
  exact Nat.ofDigitChars_ten_toDigits

theorem dec_injective : Function.Injective dec := fun m n h => by
  rw [← undec_dec m, h, undec_dec]

/-- A numeral contains no minus sign. -/
theorem minus_notMem_dec (n : ℕ) : 45 ∉ dec n := fun h => by
  have := isDigit_of_mem_dec h
  simp [isDigit] at this

/-- Distinct integers have distinct numerals. -/
theorem decInt_injective : Function.Injective decInt := by
  intro i j h
  cases i with
  | ofNat m =>
      cases j with
      | ofNat n => exact congrArg Int.ofNat (dec_injective h)
      | negSucc n =>
          have hd : dec m = 45 :: dec (n + 1) := h
          exact absurd (hd ▸ List.mem_cons_self) (minus_notMem_dec m)
  | negSucc m =>
      cases j with
      | ofNat n =>
          have hd : 45 :: dec (m + 1) = dec n := h
          exact absurd (hd ▸ List.mem_cons_self) (minus_notMem_dec n)
      | negSucc n =>
          have hd : dec (m + 1) = dec (n + 1) := List.tail_eq_of_cons_eq h
          exact congrArg Int.negSucc (Nat.succ_injective (dec_injective hd))

@[simp] theorem decInt_natCast (n : ℕ) : decInt (n : ℤ) = dec n := rfl

/-! ## Signed 32-bit integers -/

/-- Conversion to a signed 32-bit integer. -/
def toInt32 (v : ℤ) : ℤ := (BitVec.ofInt 32 v).toInt

theorem toInt32_eq (v : ℤ) : toInt32 v = (v + 2147483648) % 4294967296 - 2147483648 := by
  rw [toInt32, BitVec.toInt_ofInt, Int.bmod_def]
  have hm : ((2 ^ 32 : ℕ) : ℤ) = 4294967296 := rfl
  rw [hm]
  split <;> omega

theorem toInt32_eq_self {v : ℤ} (hlo : -2147483648 ≤ v) (hhi : v < 2147483648) :
    toInt32 v = v := by
  simp only [toInt32_eq]
  omega

theorem toInt32_natCast {n : ℕ} (h : n < 2147483648) : toInt32 (n : ℤ) = n :=
  toInt32_eq_self (by omega) (by omega)

theorem toInt32_lt (v : ℤ) : toInt32 v < 2147483648 := by
  simp only [toInt32_eq]
  omega

theorem toInt32_ge (v : ℤ) : -2147483648 ≤ toInt32 v := by
  simp only [toInt32_eq]
  omega

/-- A counter that wraps counts what it counts, as far as 32 bits go. -/
theorem toInt32_add_one (v : ℤ) : toInt32 (toInt32 v + 1) = toInt32 (v + 1) := by
  simp only [toInt32_eq]
  omega

/-- So does the difference of two such counters. -/
theorem toInt32_sub (v w : ℤ) : toInt32 (toInt32 v - toInt32 w) = toInt32 (v - w) := by
  simp only [toInt32_eq]
  omega

/-- Conversion to a signed 8-bit integer. -/
def toInt8 (v : ℤ) : ℤ := (BitVec.ofInt 8 v).toInt

theorem toInt8_eq (v : ℤ) : toInt8 v = (v + 128) % 256 - 128 := by
  rw [toInt8, BitVec.toInt_ofInt, Int.bmod_def]
  have hm : ((2 ^ 8 : ℕ) : ℤ) = 256 := rfl
  rw [hm]
  split <;> omega

theorem toInt8_eq_self {v : ℤ} (hlo : -128 ≤ v) (hhi : v < 128) : toInt8 v = v := by
  simp only [toInt8_eq]
  omega

/-- Conversion to a signed 64-bit integer. -/
def toInt64 (v : ℤ) : ℤ := (BitVec.ofInt 64 v).toInt

theorem toInt64_eq (v : ℤ) :
    toInt64 v = (v + 9223372036854775808) % 18446744073709551616 - 9223372036854775808 := by
  rw [toInt64, BitVec.toInt_ofInt, Int.bmod_def]
  have hm : ((2 ^ 64 : ℕ) : ℤ) = 18446744073709551616 := rfl
  rw [hm]
  split <;> omega

/-- Conversion to an unsigned 32-bit integer. -/
def toUInt32 (v : ℤ) : ℕ := (v % 4294967296).toNat

/-- Conversion to an unsigned 64-bit integer. -/
def toUInt64 (v : ℤ) : ℕ := (v % 18446744073709551616).toNat

theorem toUInt32_eq_self {v : ℤ} (hlo : 0 ≤ v) (hhi : v < 4294967296) : toUInt32 v = v.toNat := by
  rw [toUInt32, Int.emod_eq_of_lt hlo hhi]

theorem toUInt64_eq_self {v : ℤ} (hlo : 0 ≤ v) (hhi : v < 18446744073709551616) :
    toUInt64 v = v.toNat := by
  rw [toUInt64, Int.emod_eq_of_lt hlo hhi]

/-! ## Integers stored in memory -/

/-- The four bytes of a 32-bit integer, least significant first. -/
def bytes32 (v : ℤ) : Bytes :=
  [UInt8.ofNat (v % 256).toNat, UInt8.ofNat (v / 256 % 256).toNat,
    UInt8.ofNat (v / 65536 % 256).toNat, UInt8.ofNat (v / 16777216 % 256).toNat]

@[simp] theorem length_bytes32 (v : ℤ) : (bytes32 v).length = 4 := rfl

/-- The signed value of four bytes, least significant first. -/
def unbytes32 : Bytes → ℤ
  | [a, b, c, d] => toInt32 (a.toNat + 256 * b.toNat + 65536 * c.toNat + 16777216 * d.toNat)
  | _ => 0

private theorem toNat_digit (x : ℤ) : ((UInt8.ofNat (x % 256).toNat).toNat : ℤ) = x % 256 := by
  have : (x % 256).toNat < 256 := by omega
  simp only [UInt8.toNat_ofNat']
  omega

theorem unbytes32_bytes32 (v : ℤ) : unbytes32 (bytes32 v) = toInt32 v := by
  simp only [bytes32, unbytes32, toNat_digit, toInt32_eq]
  omega

private theorem bytes32_congr {v w : ℤ} (h : v % 4294967296 = w % 4294967296) :
    bytes32 v = bytes32 w := by
  have h0 : v % 256 = w % 256 := by omega
  have h1 : v / 256 % 256 = w / 256 % 256 := by omega
  have h2 : v / 65536 % 256 = w / 65536 % 256 := by omega
  have h3 : v / 16777216 % 256 = w / 16777216 % 256 := by omega
  simp only [bytes32, h0, h1, h2, h3]

theorem bytes32_unbytes32 (a b c d : UInt8) : bytes32 (unbytes32 [a, b, c, d]) = [a, b, c, d] := by
  have ha := a.toNat_lt
  have hb := b.toNat_lt
  have hc := c.toNat_lt
  have hd := d.toNat_lt
  have hcongr : bytes32 (unbytes32 [a, b, c, d])
      = bytes32 (a.toNat + 256 * b.toNat + 65536 * c.toNat + 16777216 * d.toNat) := by
    refine bytes32_congr ?_
    simp only [unbytes32, toInt32_eq]
    omega
  have digit : ∀ (x : UInt8) (v : ℤ), v = x.toNat → UInt8.ofNat v.toNat = x := by
    intro x v hv
    simp [hv]
  rw [hcongr, bytes32, digit a _ (by omega), digit b _ (by omega), digit c _ (by omega),
    digit d _ (by omega)]

/-- The signed 32-bit integer at offset `p`. -/
def load32 (mem : Bytes) (p : ℕ) : ℤ := unbytes32 ((mem.drop p).take 4)

theorem load32_lt (mem : Bytes) (p : ℕ) : load32 mem p < 2147483648 := by
  unfold load32 unbytes32
  split
  · exact toInt32_lt _
  · decide

/-- Overwrite the 32-bit integer at offset `p`. -/
def store32 (mem : Bytes) (p : ℕ) (v : ℤ) : Bytes :=
  mem.take p ++ bytes32 v ++ mem.drop (p + 4)

theorem load32_append (head tail : Bytes) (v : ℤ) :
    load32 (head ++ bytes32 v ++ tail) head.length = toInt32 v := by
  rw [load32, List.append_assoc, List.drop_left]
  exact unbytes32_bytes32 v

/-- Appending bytes does not change an integer stored before them. -/
theorem load32_append_right {mem : Bytes} (tail : Bytes) {p : ℕ} (h : p + 4 ≤ mem.length) :
    load32 (mem ++ tail) p = load32 mem p := by
  rw [load32, load32, List.drop_append_of_le_length (by omega),
    List.take_append_of_le_length (by simp only [List.length_drop]; omega)]

section Store

variable {mem : Bytes} {p : ℕ} (h : p + 4 ≤ mem.length)
include h

@[simp] theorem length_store32 (v : ℤ) : (store32 mem p v).length = mem.length := by
  simp only [store32, List.length_append, List.length_take, length_bytes32, List.length_drop]
  omega

/-- A stored integer is read back modulo `2 ^ 32`. -/
theorem load32_store32 (v : ℤ) : load32 (store32 mem p v) p = toInt32 v := by
  have hp : (mem.take p).length = p := List.length_take_of_le (by omega)
  have := load32_append (mem.take p) (mem.drop (p + 4)) v
  rwa [hp] at this

/-- Storing the integer that is there changes nothing. -/
theorem store32_load32 : store32 mem p (load32 mem p) = mem := by
  have hlen : ((mem.drop p).take 4).length = 4 := by
    simp only [List.length_take, List.length_drop]
    omega
  obtain ⟨a, b, c, d, hb⟩ : ∃ a b c d, (mem.drop p).take 4 = [a, b, c, d] := by
    match (mem.drop p).take 4, hlen with
    | [a, b, c, d], _ => exact ⟨a, b, c, d, rfl⟩
  have hsplit : mem.drop p = [a, b, c, d] ++ mem.drop (p + 4) := by
    rw [← hb, ← List.drop_drop, List.take_append_drop]
  rw [store32, load32, hb, bytes32_unbytes32, List.append_assoc, ← hsplit,
    List.take_append_drop]

/-- A stored integer in range is read back as it is. -/
theorem load32_store32_of_lt {v : ℤ} (hlo : 0 ≤ v) (hhi : v < 2147483648) :
    load32 (store32 mem p v) p = v := by
  rw [load32_store32 h, toInt32_eq_self (by omega) hhi]

theorem store32_store32 (v w : ℤ) : store32 (store32 mem p v) p w = store32 mem p w := by
  have hp : (mem.take p).length = p := List.length_take_of_le (by omega)
  have htake : (store32 mem p v).take p = mem.take p := by
    rw [store32, List.append_assoc, List.take_left' hp]
  have hdrop : (store32 mem p v).drop (p + 4) = mem.drop (p + 4) := by
    rw [store32, List.drop_left' (by simp [hp])]
  rw [store32, htake, hdrop, store32]

/-- Storing leaves every byte behind the integer alone. -/
theorem drop_store32 (v : ℤ) {q : ℕ} (hq : p + 4 ≤ q) :
    (store32 mem p v).drop q = mem.drop q := by
  have hp : (mem.take p).length = p := List.length_take_of_le (by omega)
  obtain ⟨k, rfl⟩ := Nat.exists_eq_add_of_le hq
  rw [← List.drop_drop, ← List.drop_drop (i := k), store32,
    List.drop_left' (by simp [hp])]

end Store

end SeedCore
