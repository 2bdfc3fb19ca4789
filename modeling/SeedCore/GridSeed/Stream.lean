import SeedCore.GridSeed.CircularBuffer

/-!
# The stream of a circular buffer

`Holds c stream lo` says what a buffer is for: `stream` is everything that was ever written to it,
and its part from `lo` on has not been read.  The counters are the two lengths as `s32`, so that
nothing is assumed about how much has gone through the buffer.  Every method has an equation over
`Holds`.

## Main definitions

* `Holds c stream lo` — the buffer has the stream from `lo` on.
* `Holds.write_eq`, `Holds.read_eq`, `Holds.tryReadBuff_eq` — the methods that copy.
* `Holds.getCanWriteBuff_eq`, `Holds.getCanReadBuff_eq` — the areas that are handed out.
* `fill`, `drain` — how a caller uses them.
-/

namespace SeedCore.GridSeed

/-! ## Blocks of memory -/

theorem memcpy_eq (dst src : Bytes) (pos start n : ℕ) (hdst : pos + n ≤ dst.length)
    (hsrc : start + n ≤ src.length) :
    memcpy dst pos src start n = some (Ring.store dst pos ((src.drop start).take n)) := by
  have hlen : ((src.drop start).take n).length = n := by
    rw [List.length_take, List.length_drop]
    omega
  rw [memcpy, if_pos (by omega), Ring.store_eq (by omega), hlen]
  rfl

theorem bytesAt_eq (src : Bytes) (start n : ℕ) (h : start + n ≤ src.length) :
    bytesAt src start n = some (Ring.load src start n) := by
  rw [bytesAt, if_pos (by omega), Ring.load_eq h]
  rfl

/-- Two blocks are written as one that wraps around. -/
theorem copyIn_eq (mem buffer : Bytes) (p n : ℕ) (hfit : n ≤ mem.length) (hsrc : n ≤ buffer.length)
    (hp : p % mem.length ≤ mem.length) :
    (do
      let l := min (n : ℤ) (mem.length - (p % mem.length : ℕ))
      let buff ← memcpy mem (p % mem.length : ℕ) buffer 0 l
      memcpy buff 0 buffer l (n - l)) = some (Ring.store mem p (buffer.take n)) := by
  rw [← Ring.store_wrap (p := p) (by rw [List.length_take]; omega)]
  generalize p % mem.length = off at hp ⊢
  obtain ⟨l, hl⟩ : ∃ l, l = min n (mem.length - off) := ⟨_, rfl⟩
  have hmin : min (n : ℤ) (mem.length - off) = l := by omega
  have hrest : (n : ℤ) - l = (n - l : ℕ) := by omega
  have hfirst : (buffer.take n).take (mem.length - off) = (buffer.drop 0).take l := by
    rw [hl, List.drop_zero, List.take_take, Nat.min_comm]
  have hsecond : (buffer.take n).drop (mem.length - off) = (buffer.drop l).take (n - l) := by
    rcases Nat.le_total n (mem.length - off) with hle | hle
    · rw [hl, Nat.min_eq_left hle, Nat.sub_self, List.take_zero]
      exact List.drop_of_length_le (by rw [List.length_take]; omega)
    · rw [hl, Nat.min_eq_right hle, List.drop_take]
  have hcopy : memcpy mem off buffer 0 l = some (Ring.store mem off ((buffer.drop 0).take l)) :=
    memcpy_eq mem buffer off 0 l (by omega) (by omega)
  have hlen : (Ring.store mem off ((buffer.drop 0).take l)).length = mem.length :=
    Ring.length_store _
  have hcopy' : memcpy (Ring.store mem off ((buffer.drop 0).take l)) 0 buffer l (n - l : ℕ) = _ :=
    memcpy_eq _ buffer 0 l (n - l) (by omega) (by omega)
  simp only [hmin, hrest]
  rw [hfirst, hsecond, hcopy]
  exact hcopy'

/-- They are read as one. -/
theorem copyOut_eq (mem : Bytes) (p n : ℕ) (hfit : n ≤ mem.length)
    (hp : p % mem.length ≤ mem.length) : ∃ first second,
    bytesAt mem (p % mem.length : ℕ) (min (n : ℤ) (mem.length - (p % mem.length : ℕ))) =
        some first ∧
      bytesAt mem 0 (n - min (n : ℤ) (mem.length - (p % mem.length : ℕ))) = some second ∧
      first ++ second = Ring.load mem p n := by
  rw [← Ring.load_wrap (p := p) hfit]
  generalize p % mem.length = off at hp ⊢
  obtain ⟨l, hl⟩ : ∃ l, l = min n (mem.length - off) := ⟨_, rfl⟩
  have hmin : min (n : ℤ) (mem.length - off) = l := by omega
  have hrest : (n : ℤ) - l = (n - l : ℕ) := by omega
  rw [hmin, hrest, ← hl]
  exact ⟨_, _, bytesAt_eq mem off l (by omega), bytesAt_eq mem 0 (n - l) (by omega), rfl⟩

/-! ## Counters -/

theorem toUInt32_toInt32_natCast (n : ℕ) : toUInt32 (toInt32 n) = n % 4294967296 := by
  rw [toInt32_eq, toUInt32]
  omega

theorem toInt32_add (v : ℤ) (n : ℤ) : toInt32 (toInt32 v + n) = toInt32 (v + n) := by
  rw [toInt32_eq, toInt32_eq v, toInt32_eq (v + n)]
  omega

theorem toInt32_sub_natCast {m n : ℕ} (hle : n ≤ m) (hlt : m - n < 2147483648) :
    toInt32 (toInt32 m - toInt32 n) = (m - n : ℕ) := by
  rw [toInt32_eq, toInt32_eq m, toInt32_eq n]
  omega

/-- The size of a buffer, and the mask that its counters are turned into offsets with. -/
structure Sized (c : CircluarBuffer) : Prop where
  size_eq : c.size = c.buff.length
  mask_eq : c.mask = toInt32 (c.size - 1)
  length_eq : c.buff.length = 0 ∨ ∃ k ≤ 30, c.buff.length = 2 ^ k

section Sizes

variable {c : CircluarBuffer}

theorem Sized.length_le (h : Sized c) : c.buff.length ≤ 1073741824 := by
  rcases h.length_eq with hzero | ⟨k, hk, hpow⟩
  · omega
  · have hle : (2 : ℕ) ^ k ≤ 2 ^ 30 := Nat.pow_le_pow_right (by decide) hk
    omega

/-- **The mask finds the cell of a position**, also after the counter has wrapped around. -/
theorem Sized.and32_mask (h : Sized c) {n : ℕ} (hn : c.buff.length = 0 → n = 0) :
    and32 (toInt32 n) c.mask = (n % c.buff.length : ℕ) := by
  have hle := h.length_le
  rw [h.mask_eq, h.size_eq]
  rcases h.length_eq with hzero | ⟨k, hk, hpow⟩
  · rw [hzero, hn hzero]
    decide
  · have hpos : 0 < (2 : ℕ) ^ k := Nat.two_pow_pos k
    have hpred : toUInt32 (toInt32 ((c.buff.length : ℤ) - 1)) = 2 ^ k - 1 := by
      rw [toInt32_eq_self (by omega) (by omega), toUInt32_eq_self (by omega) (by omega)]
      omega
    have hdvd : 2 ^ k ∣ 4294967296 := pow_dvd_pow 2 (show k ≤ 32 by omega)
    rw [and32, hpred, toUInt32_toInt32_natCast, Nat.and_two_pow_sub_one_eq_mod,
      Nat.mod_mod_of_dvd _ hdvd, ← hpow]
    refine toInt32_natCast ?_
    have hlt := Nat.mod_lt n (show 0 < c.buff.length by omega)
    omega

/-- The constructor makes a buffer of its size. -/
theorem sized_of_new (memory : ℕ → UInt8) (size : ℤ) (hlo : -2147483648 ≤ size)
    (hhi : size < 2147483648) (h : CircluarBuffer.new memory size = some c) :
    Sized c ∧ c.size = size ∧ c.wcount = 0 ∧ c.rcount = 0 := by
  obtain ⟨hsome, hnone⟩ := new_eq memory hlo hhi
  by_cases hsize : size = 0 ∨ ∃ k : ℕ, size = 2 ^ k
  · rw [hsome hsize] at h
    cases h
    have hlen : ((List.range size.toNat).map memory).length = size.toNat := by
      rw [List.length_map, List.length_range]
    refine ⟨⟨?_, rfl, ?_⟩, rfl, rfl, rfl⟩
    · rcases hsize with rfl | ⟨k, hk⟩
      · rfl
      · have hpos : (0 : ℤ) < 2 ^ k := Int.pow_pos (by decide)
        rw [hlen, hk]
        exact (Int.toNat_of_nonneg (Int.le_of_lt hpos)).symm
    · rw [hlen]
      rcases hsize with rfl | ⟨k, hk⟩
      · exact .inl rfl
      · have hcast : ((2 ^ k : ℕ) : ℤ) = 2 ^ k := by push_cast; rfl
        have hk31 : k < 31 := by
          refine (Nat.pow_lt_pow_iff_right (show 1 < 2 by decide)).mp ?_
          omega
        refine .inr ⟨k, by omega, ?_⟩
        rw [hk, ← hcast, Int.toNat_natCast]
  · rw [hnone hsize] at h
    cases h

end Sizes

/-! ## The stream -/

/-- The buffer has the stream from `lo` on. -/
structure Holds (c : CircluarBuffer) (stream : Bytes) (lo : ℕ) : Prop where
  sized : Sized c
  window : Ring.Window c.buff stream lo
  wcount_eq : c.wcount = toInt32 stream.length
  rcount_eq : c.rcount = toInt32 lo
  empty : c.buff.length = 0 → stream.length = 0

/-- A new buffer has the empty stream. -/
theorem holds_of_new (memory : ℕ → UInt8) (size : ℤ) (hlo : -2147483648 ≤ size)
    (hhi : size < 2147483648) {c : CircluarBuffer} (h : CircluarBuffer.new memory size = some c) :
    Holds c [] 0 := by
  obtain ⟨hsized, -, hw, hr⟩ := sized_of_new memory size hlo hhi h
  exact ⟨hsized, Ring.Window.refl c.buff [], hw, hr, fun _ => rfl⟩

namespace Holds

variable {c : CircluarBuffer} {stream : Bytes} {lo : ℕ}

theorem dataSize_eq (h : Holds c stream lo) : c.dataSize = (stream.length - lo : ℕ) := by
  have hle := h.window.le_length
  have hlen := h.window.length_le
  have hsize := h.sized.length_le
  rw [CircluarBuffer.dataSize, h.wcount_eq, h.rcount_eq]
  exact toInt32_sub_natCast hle (by omega)

theorem getUnUsed_eq (h : Holds c stream lo) :
    c.getUnUsed = (c.buff.length - (stream.length - lo) : ℕ) := by
  have hle := h.window.le_length
  have hlen := h.window.length_le
  have hsize := h.sized.length_le
  have hdata : toInt32 (c.wcount - c.rcount) = (stream.length - lo : ℕ) := h.dataSize_eq
  rw [CircluarBuffer.getUnUsed, hdata, h.sized.size_eq, toInt32_eq_self (by omega) (by omega)]
  omega

theorem writeOffset_eq (h : Holds c stream lo) :
    and32 c.wcount c.mask = (stream.length % c.buff.length : ℕ) := by
  rw [h.wcount_eq]
  exact h.sized.and32_mask h.empty

theorem readOffset_eq (h : Holds c stream lo) :
    and32 c.rcount c.mask = (lo % c.buff.length : ℕ) := by
  have hle := h.window.le_length
  rw [h.rcount_eq]
  refine h.sized.and32_mask fun hzero => ?_
  have hempty := h.empty hzero
  omega

/-- The bytes that have not been read can be read. -/
theorem load_eq (h : Holds c stream lo) {n : ℕ} (hle : lo + n ≤ stream.length) :
    Ring.load c.buff lo n = (stream.drop lo).take n :=
  h.window.load hle

/-! ### What a counter that moves makes available -/

/-- Bytes that were put behind the stream are part of it when the counter has moved. -/
theorem written (h : Holds c stream lo) (xs : Bytes)
    (hfit : stream.length + xs.length ≤ lo + c.buff.length) :
    Holds { c with
      buff := Ring.store c.buff stream.length xs,
      wcount := toInt32 (c.wcount + xs.length) } (stream ++ xs) lo := by
  have hlen : (Ring.store c.buff stream.length xs).length = c.buff.length := Ring.length_store xs
  refine ⟨⟨?_, h.sized.mask_eq, ?_⟩, h.window.store xs hfit, ?_, h.rcount_eq, ?_⟩
  · rw [hlen]
    exact h.sized.size_eq
  · rw [hlen]
    exact h.sized.length_eq
  · rw [h.wcount_eq, List.length_append, Int.natCast_add]
    exact toInt32_add _ _
  · intro hzero
    have hzero' : c.buff.length = 0 := hlen.symm.trans hzero
    have hempty := h.empty hzero'
    have hle := h.window.le_length
    rw [List.length_append]
    omega

/-- Bytes that were read are gone when the counter has moved. -/
theorem consumed (h : Holds c stream lo) {n : ℕ} (hle : lo + n ≤ stream.length) :
    Holds (c.skip n) stream (lo + n) := by
  refine ⟨⟨h.sized.size_eq, h.sized.mask_eq, h.sized.length_eq⟩, h.window.advance hle,
    h.wcount_eq, ?_, h.empty⟩
  rw [CircluarBuffer.skip, h.rcount_eq, Int.natCast_add]
  exact toInt32_add _ _

theorem skip_zero (h : Holds c stream lo) : c.skip (0 : ℕ) = c := by
  have hcount : toInt32 (c.rcount + (0 : ℕ)) = c.rcount := by
    rw [h.rcount_eq]
    exact toInt32_add _ _
  rw [CircluarBuffer.skip, hcount]

/-! ### The methods that copy -/

/-- The offset of a position is within the buffer, also when the buffer has no bytes. -/
theorem mod_le (h : Holds c stream lo) {p : ℕ} (hp : p ≤ stream.length) :
    p % c.buff.length ≤ c.buff.length := by
  rcases Nat.eq_zero_or_pos c.buff.length with hzero | hpos
  · have hempty := h.empty hzero
    rw [hzero, Nat.mod_zero]
    omega
  · exact Nat.le_of_lt (Nat.mod_lt p hpos)

/-- **`Write`** takes as much as there is room for. -/
theorem write_eq (h : Holds c stream lo) (buffer : Bytes) {len n : ℕ} (hlen : len ≤ buffer.length)
    (hn : n = min len (c.buff.length - (stream.length - lo))) :
    c.write buffer len = some ((n : ℤ), { c with
      buff := Ring.store c.buff stream.length (buffer.take n),
      wcount := toInt32 (c.wcount + n) }) := by
  have hclamp : (if (len : ℤ) > c.getUnUsed then c.getUnUsed else len) = (n : ℤ) := by
    rw [h.getUnUsed_eq]
    split <;> omega
  have hcopy := copyIn_eq c.buff buffer stream.length n (by omega) (by omega)
    (h.mod_le (Nat.le_refl _))
  simp only [CircluarBuffer.write, hclamp, h.writeOffset_eq, h.sized.size_eq]
  rw [← bind_assoc, hcopy]
  rfl

/-- **`Read`** gives the oldest bytes, as many as there are. -/
theorem read_eq (h : Holds c stream lo) (len : ℕ) {n : ℕ} (hn : n = min len (stream.length - lo)) :
    c.read len = some ((stream.drop lo).take n, c.skip n) := by
  have hle := h.window.le_length
  have hwin := h.window.length_le
  have hdata : toInt32 (c.wcount - c.rcount) = (stream.length - lo : ℕ) := h.dataSize_eq
  unfold CircluarBuffer.read
  rw [hdata]
  by_cases hzero : stream.length - lo = 0
  · obtain rfl : n = 0 := by omega
    rw [hzero, h.skip_zero]
    rfl
  · have hclamp : (if (len : ℤ) > (stream.length - lo : ℕ) then ((stream.length - lo : ℕ) : ℤ)
        else len) = (n : ℤ) := by
      split <;> omega
    obtain ⟨first, second, hfirst, hsecond, hcopy⟩ :=
      copyOut_eq c.buff lo n (by omega) (h.mod_le hle)
    rw [h.load_eq (by omega)] at hcopy
    have hsize := h.sized.size_eq
    simp only [hclamp, h.readOffset_eq, hsize, hfirst, hsecond]
    rw [if_neg (by omega), CircluarBuffer.skip, hsize, ← hcopy]
    rfl

/-- The offsets of the two ends are as far apart as the ends are, less the size at most. -/
theorem mod_cases (h : Holds c stream lo) :
    stream.length % c.buff.length = lo % c.buff.length + (stream.length - lo) ∨
      stream.length % c.buff.length + c.buff.length = lo % c.buff.length + (stream.length - lo) :=
  Ring.mod_add_cases h.window.le_length h.window.length_le

/-- **`TryReadBuff`** shows what `Read` would give, if it is as long as asked for. -/
theorem tryReadBuff_eq (h : Holds c stream lo) (len : ℕ) :
    c.tryReadBuff len =
      some (if stream.length - lo < len then none else some ((stream.drop lo).take len)) := by
  have hle := h.window.le_length
  have hwin := h.window.length_le
  unfold CircluarBuffer.tryReadBuff
  rw [h.dataSize_eq]
  by_cases hlen : stream.length - lo < len
  · rw [if_pos hlen, if_pos (by omega)]
  · rw [if_neg hlen, if_neg (by omega)]
    have hload := h.load_eq (n := len) (by omega)
    simp only [h.readOffset_eq, h.writeOffset_eq, h.sized.size_eq]
    by_cases hlt : lo % c.buff.length < stream.length % c.buff.length
    · have hends := h.mod_cases
      have hmod := h.mod_le (Nat.le_refl stream.length)
      rw [if_pos (by omega), bytesAt_eq _ _ _ (by omega), Ring.load_congr (Nat.mod_mod lo _), hload]
      rfl
    · obtain ⟨first, second, hfirst, hsecond, hcopy⟩ :=
        copyOut_eq c.buff lo len (by omega) (h.mod_le hle)
      rw [if_neg (by omega), hfirst, hsecond, ← hload, ← hcopy]
      rfl

/-! ### The areas that are handed out -/

/-- **`GetCanWriteBuff`** gives the free bytes behind the stream, up to the end of the buffer. -/
theorem getCanWriteBuff_eq (h : Holds c stream lo) {off room : ℕ}
    (hoff : off = stream.length % c.buff.length)
    (hroom : room = min (c.buff.length - off) (c.buff.length - (stream.length - lo))) :
    c.getCanWriteBuff = if room = 0 then none else some ((off : ℤ), (room : ℤ)) := by
  have hle := h.window.le_length
  have hwin := h.window.length_le
  have hends := h.mod_cases
  obtain ⟨r, hr⟩ : ∃ r, r = lo % c.buff.length := ⟨_, rfl⟩
  unfold CircluarBuffer.getCanWriteBuff
  simp only [h.getUnUsed_eq, h.readOffset_eq, h.writeOffset_eq, h.sized.size_eq, ← hoff, ← hr]
  rw [← hoff, ← hr] at hends
  by_cases hfull : stream.length - lo = c.buff.length
  · rw [if_pos (by omega), if_pos (by omega)]
  · have hpos : 0 < c.buff.length := by omega
    have hlo := Nat.mod_lt lo hpos
    have hhi := Nat.mod_lt stream.length hpos
    rw [← hr] at hlo
    rw [← hoff] at hhi
    have hlen : (if (off : ℤ) ≥ r then (c.buff.length : ℤ) - off else r - off) = room := by
      split <;> omega
    rw [hlen, if_neg (by omega), if_neg (by omega)]

/-- **`GetCanReadBuff`** gives the oldest bytes, up to the end of the buffer. -/
theorem getCanReadBuff_eq (h : Holds c stream lo) {off avail : ℕ} (hoff : off = lo % c.buff.length)
    (havail : avail = min (c.buff.length - off) (stream.length - lo)) :
    c.getCanReadBuff = if avail = 0 then none else some ((off : ℤ), (avail : ℤ)) := by
  have hle := h.window.le_length
  have hwin := h.window.length_le
  have hends := h.mod_cases
  have hdata : toInt32 (c.wcount - c.rcount) = (stream.length - lo : ℕ) := h.dataSize_eq
  obtain ⟨w, hw⟩ : ∃ w, w = stream.length % c.buff.length := ⟨_, rfl⟩
  unfold CircluarBuffer.getCanReadBuff
  simp only [hdata, h.readOffset_eq, h.writeOffset_eq, h.sized.size_eq, ← hoff, ← hw]
  rw [← hoff, ← hw] at hends
  by_cases hnone : c.rcount = c.wcount
  · have hempty : stream.length - lo = 0 := by
      rw [hnone, Int.sub_self] at hdata
      have hzero : toInt32 0 = 0 := rfl
      omega
    rw [if_pos hnone, if_pos (by omega)]
  · have hdata' : stream.length - lo ≠ 0 := by
      intro hzero
      refine hnone ?_
      have heq : stream.length = lo := by omega
      rw [h.rcount_eq, h.wcount_eq, heq]
    have hpos : 0 < c.buff.length := by omega
    have hlo := Nat.mod_lt lo hpos
    have hhi := Nat.mod_lt stream.length hpos
    rw [← hoff] at hlo
    rw [← hw] at hhi
    have hlen : (if (w : ℤ) > off then ((stream.length - lo : ℕ) : ℤ)
        else (c.buff.length : ℤ) - off) = avail := by
      split <;> omega
    rw [hlen, if_neg hnone, if_neg (by omega)]

end Holds

end SeedCore.GridSeed
