import SeedCore.GridSeed.Stream

/-!
# A circular buffer is a bounded queue

What callers see of a circular buffer, whichever of its methods they use and however much goes
through it: a queue of bytes with a capacity.  The areas that `GetCanWriteBuff` and
`GetCanReadBuff` hand out can be shorter than what there is, so that the queue of this module is
a relation; what goes in comes out once, in its order.

## Main definitions

* `Queue`, `Queue.Move` — a queue, and what goes through it.
* `Op`, `Op.exec` — the operations of a caller, with `fill` and `drain` for the areas.
* `Op.Meets` — what a queue does.
* `exec_meets` — one operation; `run_meets` — any number of them.
* `fill_fill_eq`, `drain_drain_eq` — two areas are as good as `Write` and `Read`.
-/

namespace SeedCore.GridSeed

/-! ## The queue -/

/-- A queue that holds at most `capacity` elements. -/
structure Queue (α : Type) (capacity : ℕ) where
  content : List α
  length_le : content.length ≤ capacity

namespace Queue

variable {α : Type} {capacity : ℕ}

/-- Room for more. -/
def free (q : Queue α capacity) : ℕ := capacity - q.content.length

/-- The queue took `xs` and gave `ys`. -/
def Move (q : Queue α capacity) (xs ys : List α) (q' : Queue α capacity) : Prop :=
  q.content ++ xs = ys ++ q'.content

theorem Move.refl (q : Queue α capacity) : q.Move [] [] q := List.append_nil _

theorem Move.trans {q r s : Queue α capacity} {xs ys xs' ys' : List α} (h : q.Move xs ys r)
    (h' : r.Move xs' ys' s) : q.Move (xs ++ xs') (ys ++ ys') s := by
  unfold Move at h h' ⊢
  rw [← List.append_assoc, h, List.append_assoc, h', List.append_assoc]

end Queue

/-! ## The operations of a caller -/

inductive Op where
  | write (buffer : Bytes) (len : ℤ)
  | fill (data : Bytes)
  | read (len : ℤ)
  | drain (limit : ℕ)
  | tryRead (len : ℤ)
  deriving DecidableEq, Repr

/-- What a caller learns. -/
inductive Outcome where
  | count (n : ℤ)
  | bytes (bytes : Bytes)
  | shown (bytes : Option Bytes)
  deriving DecidableEq, Repr

/-- A caller asks for an area to write to, copies as much as fits of `data` there, and says so. -/
def fill (c : CircluarBuffer) (data : Bytes) : Option (ℤ × CircluarBuffer) :=
  match c.getCanWriteBuff with
  | none => some (0, c)
  | some (off, len) => do
      let n := min (data.length : ℤ) len
      let buff ← memcpy c.buff off data 0 n
      some (n, { c with buff }.writeBuff n)

/-- A caller asks for an area to read from, takes at most `limit` bytes, and says so. -/
def drain (c : CircluarBuffer) (limit : ℕ) : Option (Bytes × CircluarBuffer) :=
  match c.getCanReadBuff with
  | none => some ([], c)
  | some (off, len) => do
      let n := min (limit : ℤ) len
      let bytes ← bytesAt c.buff off n
      some (bytes, c.skip n)

def Op.exec (c : CircluarBuffer) : Op → Option (Outcome × CircluarBuffer)
  | .write buffer len => (c.write buffer len).map fun r => (.count r.1, r.2)
  | .fill data => (GridSeed.fill c data).map fun r => (.count r.1, r.2)
  | .read len => (c.read len).map fun r => (.bytes r.1, r.2)
  | .drain limit => (GridSeed.drain c limit).map fun r => (.bytes r.1, r.2)
  | .tryRead len => (c.tryReadBuff len).map fun r => (.shown r, c)

/-- A length is not negative, and a `Write` has the bytes that it announces. -/
def Op.Valid : Op → Prop
  | .write buffer len => 0 ≤ len ∧ len ≤ buffer.length
  | .read len | .tryRead len => 0 ≤ len
  | .fill _ | .drain _ => True

/-- What an operation puts into the buffer. -/
def Op.accepted : Op → Outcome → Bytes
  | .write buffer _, .count n => buffer.take n.toNat
  | .fill data, .count n => data.take n.toNat
  | _, _ => []

/-- What it takes out. -/
def Op.delivered : Op → Outcome → Bytes
  | .read _, .bytes bytes => bytes
  | .drain _, .bytes bytes => bytes
  | _, _ => []

/-- What a queue answers. -/
def Op.Meets {capacity : ℕ} (q : Queue UInt8 capacity) : Op → Outcome → Prop
  | .write _ len, r => r = .count (min len q.free)
  | .fill data, r => ∃ n, r = .count n ∧ 0 ≤ n ∧ n ≤ min data.length q.free ∧
      (n = 0 → min data.length q.free = 0)
  | .read len, r => r = .bytes (q.content.take len.toNat)
  | .drain limit, r => ∃ n, r = .bytes (q.content.take n) ∧ n ≤ min limit q.content.length ∧
      (n = 0 → min limit q.content.length = 0)
  | .tryRead len, r => r = .shown
      (if (q.content.length : ℤ) < len then none else some (q.content.take len.toNat))

/-! ## Areas -/

section Areas

variable {c : CircluarBuffer} {stream : Bytes} {lo : ℕ}

/-- What fits into the first area is written. -/
theorem Holds.fill_eq (h : Holds c stream lo) (data : Bytes) {n : ℕ}
    (hn : n = min data.length (min (c.buff.length - stream.length % c.buff.length)
      (c.buff.length - (stream.length - lo)))) :
    fill c data = some ((n : ℤ), { c with
      buff := Ring.store c.buff stream.length (data.take n),
      wcount := toInt32 (c.wcount + n) }) := by
  obtain ⟨off, hoff⟩ : ∃ off, off = stream.length % c.buff.length := ⟨_, rfl⟩
  obtain ⟨room, hroom⟩ : ∃ room, room = min (c.buff.length - off)
      (c.buff.length - (stream.length - lo)) := ⟨_, rfl⟩
  have harea := h.getCanWriteBuff_eq hoff hroom
  rw [← hoff, ← hroom] at hn
  unfold fill
  rw [harea]
  by_cases hfull : room = 0
  · obtain rfl : n = 0 := by omega
    have hcount : toInt32 (c.wcount + (0 : ℕ)) = c.wcount := by
      rw [h.wcount_eq]
      exact toInt32_add _ _
    rw [if_pos hfull, hcount]
    rfl
  · have hmin : min (data.length : ℤ) room = n := by omega
    have hcopy := memcpy_eq c.buff data off 0 n (by omega) (by omega)
    have hstore : Ring.store c.buff off (data.take n) =
        Ring.store c.buff stream.length (data.take n) := by
      rw [hoff]
      exact Ring.store_congr (Nat.mod_mod _ _) _
    rw [List.drop_zero, hstore] at hcopy
    rw [if_neg hfull]
    simp only [hmin]
    exact congrArg (Option.bind · _) hcopy

/-- What is in the first area is read. -/
theorem Holds.drain_eq (h : Holds c stream lo) (limit : ℕ) {n : ℕ}
    (hn : n = min limit (min (c.buff.length - lo % c.buff.length) (stream.length - lo))) :
    drain c limit = some ((stream.drop lo).take n, c.skip n) := by
  have hle := h.window.le_length
  obtain ⟨off, hoff⟩ : ∃ off, off = lo % c.buff.length := ⟨_, rfl⟩
  obtain ⟨avail, havail⟩ : ∃ avail, avail = min (c.buff.length - off) (stream.length - lo) :=
    ⟨_, rfl⟩
  have harea := h.getCanReadBuff_eq hoff havail
  rw [← hoff, ← havail] at hn
  unfold drain
  rw [harea]
  by_cases hempty : avail = 0
  · obtain rfl : n = 0 := by omega
    rw [if_pos hempty, h.skip_zero]
    rfl
  · have hmin : min (limit : ℤ) avail = n := by omega
    have hcopy := bytesAt_eq c.buff off n (by omega)
    have hload : Ring.load c.buff off n = (stream.drop lo).take n := by
      rw [hoff, Ring.load_congr (Nat.mod_mod _ _)]
      exact h.load_eq (by omega)
    rw [hload] at hcopy
    rw [if_neg hempty]
    simp only [hmin]
    exact congrArg (Option.bind · _) hcopy

/-- **Two areas are as good as `Write`**: the second is at the front of the buffer. -/
theorem Holds.fill_fill_eq (h : Holds c stream lo) (data : Bytes) : ∃ n m c₁ c₂,
    fill c data = some (n, c₁) ∧ fill c₁ (data.drop n.toNat) = some (m, c₂) ∧
      c.write data data.length = some (n + m, c₂) := by
  have hle := h.window.le_length
  have hwin := h.window.length_le
  obtain ⟨free, hfree⟩ : ∃ free, c.buff.length = stream.length - lo + free :=
    ⟨c.buff.length - (stream.length - lo), by omega⟩
  have hfree' : c.buff.length - (stream.length - lo) = free := by omega
  obtain ⟨n, hn⟩ : ∃ n, n = min (min data.length free)
    (c.buff.length - stream.length % c.buff.length) := ⟨_, rfl⟩
  obtain ⟨m, hm⟩ : ∃ m, min data.length free = n + m :=
    Nat.exists_eq_add_of_le (hn ▸ Nat.min_le_left _ _)
  have hrest := Ring.rest_le (p := stream.length) (n := c.buff.length) (by omega) hn
  rw [hm, Nat.add_sub_cancel_left] at hrest
  have hlen : (data.take n).length = n := by
    rw [List.length_take]
    omega
  have hfirst := h.fill_eq data (n := n) (by rw [hfree', hn]; ac_rfl)
  have h₁ := h.written (data.take n) (by omega)
  rw [hlen] at h₁
  have hsecond := h₁.fill_eq (data.drop n) (n := m) (by
    have hleft : c.buff.length - (stream.length + n - lo) = free - n := by omega
    rw [Ring.length_store, List.length_append, hlen, List.length_drop, hleft]
    generalize c.buff.length - (stream.length + n) % c.buff.length = room at hrest
    clear hn hfree hwin
    omega)
  have hall := h.write_eq data (Nat.le_refl data.length) (n := n + m) (by rw [hfree', hm])
  refine ⟨n, m, _, _, hfirst, hsecond, ?_⟩
  have htake : data.take n ++ (data.drop n).take m = data.take (n + m) := List.take_add.symm
  have hstore : Ring.store (Ring.store c.buff stream.length (data.take n))
      (stream ++ data.take n).length ((data.drop n).take m) =
      Ring.store c.buff stream.length (data.take (n + m)) := by
    rw [← htake, Ring.store_append, List.length_append]
  have hcount : toInt32 (toInt32 (c.wcount + n) + m) = toInt32 (c.wcount + (n + m : ℕ)) := by
    rw [toInt32_add, Int.natCast_add, Int.add_assoc]
  rw [hall]
  simp only [hstore, hcount, Int.natCast_add]

/-- **They are as good as `Read`.** -/
theorem Holds.drain_drain_eq (h : Holds c stream lo) (limit : ℕ) : ∃ first second c₁ c₂,
    drain c limit = some (first, c₁) ∧ drain c₁ (limit - first.length) = some (second, c₂) ∧
      c.read limit = some (first ++ second, c₂) := by
  have hle := h.window.le_length
  have hwin := h.window.length_le
  obtain ⟨avail, havail⟩ : ∃ avail, stream.length = lo + avail := Nat.exists_eq_add_of_le hle
  have havail' : stream.length - lo = avail := by omega
  obtain ⟨n, hn⟩ : ∃ n, n = min (min limit avail) (c.buff.length - lo % c.buff.length) := ⟨_, rfl⟩
  obtain ⟨m, hm⟩ : ∃ m, min limit avail = n + m :=
    Nat.exists_eq_add_of_le (hn ▸ Nat.min_le_left _ _)
  have hrest := Ring.rest_le (p := lo) (n := c.buff.length) (by omega) hn
  rw [hm, Nat.add_sub_cancel_left] at hrest
  have hlen : ((stream.drop lo).take n).length = n := by
    rw [List.length_take, List.length_drop]
    omega
  have hfirst := h.drain_eq limit (n := n) (by rw [havail', hn]; ac_rfl)
  have h₁ := h.consumed (n := n) (by omega)
  have hsecond := h₁.drain_eq (limit - n) (n := m) (by
    have hbuff : (c.skip n).buff = c.buff := rfl
    have hleft : stream.length - (lo + n) = avail - n := by omega
    rw [hbuff, hleft]
    generalize c.buff.length - (lo + n) % c.buff.length = room at hrest
    clear hn havail hwin
    omega)
  have hall := h.read_eq limit (n := n + m) (by rw [havail', hm])
  refine ⟨_, _, _, _, hfirst, by rw [hlen]; exact hsecond, ?_⟩
  have hskip : (c.skip n).skip m = c.skip (n + m : ℕ) := by
    simp only [CircluarBuffer.skip, toInt32_add, Int.natCast_add, Int.add_assoc]
  have htake : (stream.drop lo).take n ++ (stream.drop (lo + n)).take m =
      (stream.drop lo).take (n + m) := by
    rw [List.take_add, List.drop_drop]
  rw [hall, hskip, htake]

end Areas

/-! ## Refinement -/

/-- The buffer has what the queue has. -/
def Represents {capacity : ℕ} (c : CircluarBuffer) (q : Queue UInt8 capacity) : Prop :=
  c.buff.length = capacity ∧ ∃ stream lo, Holds c stream lo ∧ q.content = stream.drop lo

section Refinement

variable {c : CircluarBuffer} {capacity : ℕ} {q : Queue UInt8 capacity}

/-- What was written is at the end of the queue. -/
theorem Represents.written {stream : Bytes} {lo : ℕ} (h : Holds c stream lo)
    (hcap : c.buff.length = capacity) (hq : q.content = stream.drop lo) (xs : Bytes)
    (hfit : xs.length ≤ q.free) :
    ∃ q' : Queue UInt8 capacity, q.Move xs [] q' ∧ Represents { c with
      buff := Ring.store c.buff stream.length xs,
      wcount := toInt32 (c.wcount + xs.length) } q' := by
  have hle := h.window.le_length
  have hlen : q.content.length = stream.length - lo := by rw [hq, List.length_drop]
  have hcontent := q.length_le
  rw [Queue.free] at hfit
  refine ⟨⟨q.content ++ xs, ?_⟩, rfl, ?_, _, _, h.written xs (by omega), ?_⟩
  · rw [List.length_append]
    omega
  · rw [← hcap]
    exact Ring.length_store xs
  · rw [List.drop_append_of_le_length hle]
    exact congrArg (· ++ xs) hq

/-- What was read was at its front. -/
theorem Represents.consumed {stream : Bytes} {lo : ℕ} (h : Holds c stream lo)
    (hcap : c.buff.length = capacity) (hq : q.content = stream.drop lo) {n : ℕ}
    (hn : n ≤ q.content.length) :
    ∃ q' : Queue UInt8 capacity, q.Move [] (q.content.take n) q' ∧ Represents (c.skip n) q' := by
  have hle := h.window.le_length
  have hlen : q.content.length = stream.length - lo := by rw [hq, List.length_drop]
  have hcontent := q.length_le
  refine ⟨⟨q.content.drop n, ?_⟩, ?_, hcap, _, _, h.consumed (by omega), ?_⟩
  · rw [List.length_drop]
    omega
  · unfold Queue.Move
    rw [List.append_nil, List.take_append_drop]
  · rw [← List.drop_drop]
    exact congrArg (List.drop n) hq

/-- **One operation** is one of the queue. -/
theorem exec_meets (h : Represents c q) {op : Op} (hop : op.Valid) :
    ∃ (r : Outcome) (c' : CircluarBuffer) (q' : Queue UInt8 capacity), op.exec c = some (r, c') ∧
      op.Meets q r ∧ q.Move (op.accepted r) (op.delivered r) q' ∧ Represents c' q' := by
  obtain ⟨hcap, stream, lo, hc, hq⟩ := h
  have hle := hc.window.le_length
  have hlen : q.content.length = stream.length - lo := by rw [hq, List.length_drop]
  have hfree : q.free = c.buff.length - (stream.length - lo) := by rw [Queue.free, hlen, hcap]
  have hmod : 0 < c.buff.length → ∀ p, p % c.buff.length < c.buff.length :=
    fun hpos p => Nat.mod_lt p hpos
  cases op with
  | write buffer len =>
      obtain ⟨hpos, hbuffer⟩ := hop
      obtain ⟨k, rfl⟩ := Int.eq_ofNat_of_zero_le hpos
      obtain ⟨n, hn⟩ : ∃ n, n = min k q.free := ⟨_, rfl⟩
      have hexec := hc.write_eq buffer (Int.ofNat_le.mp hbuffer) (n := n) (by rw [hn, hfree])
      have htake : (buffer.take n).length = n := by
        rw [List.length_take]
        omega
      obtain ⟨q', hmove, hrep⟩ := Represents.written hc hcap hq (buffer.take n) (by omega)
      rw [htake] at hrep
      have hcount : Outcome.count (n : ℤ) = .count (min (k : ℤ) q.free) := by
        congr 1
        omega
      exact ⟨_, _, q', congrArg (Option.map _) hexec, hcount, hmove, hrep⟩
  | fill data =>
      obtain ⟨n, hn⟩ : ∃ n, n = min data.length
          (min (c.buff.length - stream.length % c.buff.length)
            (c.buff.length - (stream.length - lo))) := ⟨_, rfl⟩
      have hexec := hc.fill_eq data hn
      have hoff := fun hpos => hmod hpos stream.length
      generalize stream.length % c.buff.length = off at hn hoff
      have htake : (data.take n).length = n := by
        rw [List.length_take]
        omega
      obtain ⟨q', hmove, hrep⟩ := Represents.written hc hcap hq (data.take n) (by omega)
      rw [htake] at hrep
      exact ⟨_, _, q', congrArg (Option.map _) hexec, ⟨n, rfl, by omega, by omega, by omega⟩,
        hmove, hrep⟩
  | read len =>
      obtain ⟨k, rfl⟩ := Int.eq_ofNat_of_zero_le hop
      obtain ⟨n, hn⟩ : ∃ n, n = min k (stream.length - lo) := ⟨_, rfl⟩
      have hexec := hc.read_eq k hn
      obtain ⟨q', hmove, hrep⟩ := Represents.consumed hc hcap hq (n := n) (by omega)
      have htake : q.content.take n = q.content.take k := by
        rw [hn, ← hlen, ← List.take_take, List.take_length]
      rw [← hq] at hexec
      exact ⟨_, _, q', congrArg (Option.map _) hexec, congrArg Outcome.bytes htake, hmove, hrep⟩
  | drain limit =>
      obtain ⟨n, hn⟩ : ∃ n, n = min limit
          (min (c.buff.length - lo % c.buff.length) (stream.length - lo)) := ⟨_, rfl⟩
      have hexec := hc.drain_eq limit hn
      have hwin := hc.window.length_le
      have hoff := fun hpos => hmod hpos lo
      generalize lo % c.buff.length = off at hn hoff
      obtain ⟨q', hmove, hrep⟩ := Represents.consumed hc hcap hq (n := n) (by omega)
      rw [← hq] at hexec
      exact ⟨_, _, q', congrArg (Option.map _) hexec, ⟨n, rfl, by omega, by omega⟩, hmove, hrep⟩
  | tryRead len =>
      obtain ⟨k, rfl⟩ := Int.eq_ofNat_of_zero_le hop
      have hexec := hc.tryReadBuff_eq k
      rw [← hlen, ← hq] at hexec
      have hshown : Outcome.shown (if q.content.length < k then none else
          some (q.content.take k)) = .shown (if (q.content.length : ℤ) < k then none else
            some (q.content.take (k : ℤ).toNat)) := by
        rw [Int.toNat_natCast]
        congr 1
        exact if_congr (by omega) rfl rfl
      exact ⟨_, c, q, congrArg (Option.map _) hexec, hshown, Queue.Move.refl q, hcap, stream, lo,
        hc, hq⟩

/-! ### Runs -/

/-- One operation after the other. -/
def execs : CircluarBuffer → List Op → Option (List Outcome × CircluarBuffer)
  | c, [] => some ([], c)
  | c, op :: ops => do
      let (r, c) ← op.exec c
      let (rs, c) ← execs c ops
      some (r :: rs, c)

/-- A queue answers one operation after the other. -/
inductive Serves {capacity : ℕ} :
    Queue UInt8 capacity → List Op → List Outcome → Queue UInt8 capacity → Prop
  | nil (q : Queue UInt8 capacity) : Serves q [] [] q
  | cons {q q₁ q₂ : Queue UInt8 capacity} {op : Op} {r : Outcome} {ops : List Op}
      {rs : List Outcome} (meets : op.Meets q r) (move : q.Move (op.accepted r) (op.delivered r) q₁)
      (tail : Serves q₁ ops rs q₂) : Serves q (op :: ops) (r :: rs) q₂

/-- All that the operations put in. -/
def accepted (ops : List Op) (rs : List Outcome) : Bytes :=
  (List.zipWith Op.accepted ops rs).flatten

/-- All that they took out. -/
def delivered (ops : List Op) (rs : List Outcome) : Bytes :=
  (List.zipWith Op.delivered ops rs).flatten

/-- What goes in comes out, in its order. -/
theorem Serves.move {ops : List Op} {rs : List Outcome} {q' : Queue UInt8 capacity}
    (h : Serves q ops rs q') : q.Move (accepted ops rs) (delivered ops rs) q' := by
  induction h with
  | nil q => exact Queue.Move.refl q
  | cons _ move _ ih => exact move.trans ih

/-- **Any operations** are operations of the queue, and none of them leaves the buffer. -/
theorem run_meets (h : Represents c q) {ops : List Op} (hops : ∀ op ∈ ops, op.Valid) :
    ∃ (rs : List Outcome) (c' : CircluarBuffer) (q' : Queue UInt8 capacity),
      execs c ops = some (rs, c') ∧ Serves q ops rs q' ∧ Represents c' q' := by
  induction ops generalizing c q with
  | nil => exact ⟨[], c, q, rfl, .nil q, h⟩
  | cons op ops ih =>
      obtain ⟨r, c₁, q₁, hexec, hmeets, hmove, h₁⟩ := exec_meets h (hops op List.mem_cons_self)
      obtain ⟨rs, c', q', hexecs, hserves, h'⟩ :=
        ih h₁ fun op hop => hops op (List.mem_cons_of_mem _ hop)
      refine ⟨r :: rs, c', q', ?_, .cons hmeets hmove hserves, h'⟩
      simp only [execs, hexec, hexecs, Option.bind_eq_bind, Option.bind_some]

/-- What a caller finds in a buffer that has what the queue has. -/
theorem Represents.observe (h : Represents c q) :
    c.dataSize = q.content.length ∧ c.getUnUsed = q.free ∧
      c.tryReadBuff q.content.length = some (some q.content) := by
  obtain ⟨hcap, stream, lo, hc, hq⟩ := h
  have hlen : q.content.length = stream.length - lo := by rw [hq, List.length_drop]
  refine ⟨?_, ?_, ?_⟩
  · rw [hc.dataSize_eq, hlen]
  · rw [hc.getUnUsed_eq, Queue.free, hlen, hcap]
  · rw [hc.tryReadBuff_eq, ← hlen, if_neg (Nat.lt_irrefl _), ← hq, List.take_length]

end Refinement

/-! ## From the constructor -/

/-- The empty queue. -/
def Queue.empty (capacity : ℕ) : Queue UInt8 capacity := ⟨[], Nat.zero_le _⟩

/-- **A buffer of any size and of any age** is a bounded queue of bytes. -/
theorem new_serves (memory : ℕ → UInt8) (size : ℤ) (hlo : -2147483648 ≤ size)
    (hhi : size < 2147483648) {c : CircluarBuffer} (hnew : CircluarBuffer.new memory size = some c)
    (ops : List Op) (hops : ∀ op ∈ ops, op.Valid) :
    ∃ (rs : List Outcome) (c' : CircluarBuffer) (q : Queue UInt8 size.toNat),
      execs c ops = some (rs, c') ∧ Serves (Queue.empty size.toNat) ops rs q ∧
        accepted ops rs = delivered ops rs ++ q.content ∧ c'.dataSize = q.content.length ∧
        c'.getUnUsed = q.free ∧ c'.tryReadBuff q.content.length = some (some q.content) := by
  have hc := holds_of_new memory size hlo hhi hnew
  have hsize := sized_of_new memory size hlo hhi hnew
  have hcap : c.buff.length = size.toNat := by
    have heq := hsize.1.size_eq
    omega
  have h : Represents c (Queue.empty size.toNat) := ⟨hcap, [], 0, hc, rfl⟩
  obtain ⟨rs, c', q, hexecs, hserves, h'⟩ := run_meets h hops
  exact ⟨rs, c', q, hexecs, hserves, hserves.move, h'.observe⟩

/-- A `Write` that wraps around, and a `Read` of what is left of the first. -/
theorem new_serves_four : ∃ (rs : List Outcome) (c' : CircluarBuffer) (q : Queue UInt8 4),
    execs { buff := [0, 0, 0, 0], size := 4, mask := 3 }
        [.write [1, 2, 3] 3, .read 2, .write [4, 5, 6, 7] 4, .drain 8] = some (rs, c') ∧
      Serves (Queue.empty 4) [.write [1, 2, 3] 3, .read 2, .write [4, 5, 6, 7] 4, .drain 8] rs q ∧
      accepted [.write [1, 2, 3] 3, .read 2, .write [4, 5, 6, 7] 4, .drain 8] rs =
        delivered [.write [1, 2, 3] 3, .read 2, .write [4, 5, 6, 7] 4, .drain 8] rs ++ q.content ∧
      c'.dataSize = q.content.length ∧ c'.getUnUsed = q.free ∧
      c'.tryReadBuff q.content.length = some (some q.content) :=
  new_serves (fun _ => 0) 4 (by decide) (by decide) (by decide) _ (by
    intro op hop
    simp only [List.mem_cons, List.not_mem_nil, or_false] at hop
    rcases hop with rfl | rfl | rfl | rfl <;> simp [Op.Valid])

example : (execs { buff := [0, 0, 0, 0], size := 4, mask := 3 }
    [.write [1, 2, 3] 3, .read 2, .write [4, 5, 6, 7] 4, .drain 8]).map Prod.fst =
      some [.count 3, .bytes [1, 2], .count 3, .bytes [3, 4]] := by decide +kernel

/-- **Two areas are as good as one copy**, of a buffer at any age. -/
theorem two_areas {c : CircluarBuffer} {capacity : ℕ} {q : Queue UInt8 capacity}
    (h : Represents c q) (data : Bytes) (limit : ℕ) :
    (∃ n m c₁ c₂, fill c data = some (n, c₁) ∧ fill c₁ (data.drop n.toNat) = some (m, c₂) ∧
        c.write data data.length = some (n + m, c₂)) ∧
      ∃ first second c₁ c₂, drain c limit = some (first, c₁) ∧
        drain c₁ (limit - first.length) = some (second, c₂) ∧
        c.read limit = some (first ++ second, c₂) := by
  obtain ⟨-, stream, lo, hc, -⟩ := h
  exact ⟨hc.fill_fill_eq data, hc.drain_drain_eq limit⟩

/-- A new buffer has one area. -/
theorem two_areas_new :
    (∃ n m c₁ c₂, fill { buff := [0, 0, 0, 0], size := 4, mask := 3 } [1, 2, 3] = some (n, c₁) ∧
        fill c₁ (([1, 2, 3] : Bytes).drop n.toNat) = some (m, c₂) ∧
        CircluarBuffer.write { buff := [0, 0, 0, 0], size := 4, mask := 3 } [1, 2, 3] 3 =
          some (n + m, c₂)) ∧
      ∃ first second c₁ c₂,
        drain { buff := [0, 0, 0, 0], size := 4, mask := 3 } 2 = some (first, c₁) ∧
        drain c₁ (2 - first.length) = some (second, c₂) ∧
        CircluarBuffer.read { buff := [0, 0, 0, 0], size := 4, mask := 3 } 2 =
          some (first ++ second, c₂) :=
  two_areas (q := Queue.empty 4) ⟨rfl, [], 0,
    holds_of_new (fun _ => 0) 4 (by decide) (by decide) (by decide), rfl⟩ _ _

end SeedCore.GridSeed
