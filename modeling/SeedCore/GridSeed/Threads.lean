import SeedCore.GridSeed.Stream
import SeedCore.Lib.Run

/-!
# A circular buffer between two threads

`Write` and `Read` fence the counter that they move from the bytes that they copy, so that one
thread can write while another reads.  Here the two run step by step in any interleaving: a method
starts with the one look that it takes at the other's counter, the bytes of its two `memcpy`s are
copied one by one in any order, and it ends by moving its own counter.  A step that would leave the
buffer is no step.

## Main definitions

* `Writer`, `Reader`, `Shared` — where the two threads are, and what they share.
* `step` — one step of one of them.
* `Invariant` — what every step keeps.
* `threads_safe` — what holds in every interleaving.
* `write_alone`, `read_alone` — without interleaving these are `Write` and `Read`.
-/

namespace SeedCore.GridSeed.Threads

/-! ## Steps -/

/-- `Write`: `todo` are the bytes of `chunk` that are still to be copied, `off` and `l` its
variables. -/
inductive Writer where
  | idle
  | copying (chunk : Bytes) (todo : List ℕ) (off l : ℤ)
  deriving DecidableEq, Repr

/-- `Read`: `got` are the bytes that were copied to `buff`. -/
inductive Reader where
  | idle
  | copying (got : List (Option UInt8)) (off l : ℤ)
  deriving DecidableEq, Repr

/-- The buffer and its two threads; `accepted` and `delivered` are what went through `Write` and
`Read` so far. -/
structure Shared where
  buffer : CircluarBuffer
  writer : Writer := .idle
  reader : Reader := .idle
  accepted : Bytes := []
  delivered : Bytes := []
  deriving DecidableEq, Repr

inductive Action where
  | startWrite (buffer : Bytes) (len : ℤ)
  | copyIn (j : ℕ)
  | endWrite
  | startRead (len : ℤ)
  | copyOut (j : ℕ)
  | endRead
  deriving DecidableEq, Repr

/-- Where byte `j` of a method's two `memcpy`s is in the buffer. -/
def address (off l : ℤ) (j : ℕ) : ℤ := if (j : ℤ) < l then off + j else j - l

def step (s : Shared) : Action → Option Shared
  | .startWrite buffer len =>
      match s.writer with
      | .copying .. => none
      | .idle =>
          let c := s.buffer
          let l := c.getUnUsed
          let len := if len > l then l else len
          let off := and32 c.wcount c.mask
          let l := min len (c.size - off)
          some { s with
            writer := .copying (buffer.take len.toNat) (List.range len.toNat) off l }
  | .copyIn j =>
      match s.writer with
      | .idle => none
      | .copying chunk todo off l =>
          let a := address off l j
          if j ∈ todo ∧ 0 ≤ a ∧ a < s.buffer.buff.length then do
            let b ← chunk[j]?
            some { s with
              buffer := { s.buffer with buff := s.buffer.buff.set a.toNat b },
              writer := .copying chunk (todo.filter (· ≠ j)) off l }
          else none
  | .endWrite =>
      match s.writer with
      | .idle | .copying _ (_ :: _) _ _ => none
      | .copying chunk [] _ _ =>
          some { s with
            buffer := s.buffer.writeBuff chunk.length,
            writer := .idle,
            accepted := s.accepted ++ chunk }
  | .startRead len =>
      match s.reader with
      | .copying .. => none
      | .idle =>
          let c := s.buffer
          let l := toInt32 (c.wcount - c.rcount)
          if l = 0 then some s
          else
            let len := if len > l then l else len
            let off := and32 c.rcount c.mask
            let l := min len (c.size - off)
            some { s with reader := .copying (List.replicate len.toNat none) off l }
  | .copyOut j =>
      match s.reader with
      | .idle => none
      | .copying got off l =>
          let a := address off l j
          if got[j]? = some none ∧ 0 ≤ a then do
            let b ← s.buffer.buff[a.toNat]?
            some { s with reader := .copying (got.set j (some b)) off l }
          else none
  | .endRead =>
      match s.reader with
      | .idle => none
      | .copying got _ _ =>
          if none ∈ got then none
          else some { s with
            buffer := s.buffer.skip got.length,
            reader := .idle,
            delivered := s.delivered ++ got.filterMap id }

/-- A length is not negative, and a `Write` has the bytes that it announces. -/
def Action.Valid : Action → Prop
  | .startWrite buffer len => 0 ≤ len ∧ len ≤ buffer.length
  | .startRead len => 0 ≤ len
  | _ => True

/-! ## Addresses -/

theorem address_eq {n p k j : ℕ} {off l : ℤ} (hoff : off = (p % n : ℕ))
    (hl : l = min (k : ℤ) (n - off)) (hj : j < k) (hk : k ≤ n) :
    address off l j = ((p + j) % n : ℕ) := by
  have hpos : 0 < n := by omega
  have hlt := Nat.mod_lt p hpos
  have hlt' := Nat.mod_lt (p + j) hpos
  have hcases := Ring.mod_add_cases (n := n) (Nat.le_add_right p j) (by omega)
  rw [Nat.add_sub_cancel_left] at hcases
  generalize (p + j) % n = q at hlt' hcases ⊢
  generalize p % n = r at hoff hlt hcases
  unfold address
  split <;> omega

/-! ## The two threads -/

section Threads

variable {mem stream : Bytes} {lo : ℕ}

/-- What a writer has done so far. -/
def Writing (mem stream : Bytes) (lo : ℕ) : Writer → Prop
  | .idle => True
  | .copying chunk todo off l =>
      off = (stream.length % mem.length : ℕ) ∧ l = min (chunk.length : ℤ) (mem.length - off) ∧
        stream.length + chunk.length ≤ lo + mem.length ∧ (∀ j ∈ todo, j < chunk.length) ∧
        ∀ j < chunk.length, j ∉ todo → Ring.get mem (stream.length + j) = chunk[j]?

/-- What a reader has. -/
def Reading (size : ℕ) (stream : Bytes) (lo : ℕ) : Reader → Prop
  | .idle => True
  | .copying got off l =>
      off = (lo % size : ℕ) ∧ l = min (got.length : ℤ) (size - off) ∧
        lo + got.length ≤ stream.length ∧
        ∀ (j : ℕ) (b : UInt8), got[j]? = some (some b) → stream[lo + j]? = some b

/-- One byte more. -/
theorem Writing.put {chunk : Bytes} {todo : List ℕ} {off l : ℤ} (hle : lo ≤ stream.length)
    (h : Writing mem stream lo (.copying chunk todo off l)) {j : ℕ} (hj : j < chunk.length) :
    Writing (Ring.put mem (stream.length + j) chunk[j]) stream lo
      (.copying chunk (todo.filter (· ≠ j)) off l) := by
  obtain ⟨hoff, hl, hfit, htodo, hdone⟩ := h
  unfold Writing
  rw [Ring.length_put]
  refine ⟨hoff, hl, hfit, fun i hi => htodo i (List.mem_of_mem_filter hi), ?_⟩
  intro i hi hnot
  by_cases hij : i = j
  · subst hij
    rw [List.getElem?_eq_getElem hj]
    exact Ring.get_put_self (by omega) _
  · have hi' : i ∉ todo := fun hmem => hnot (List.mem_filter.mpr ⟨hmem, decide_eq_true hij⟩)
    rw [← hdone i hi hi']
    refine Ring.get_put_of_ne ?_ _
    rcases Nat.lt_or_gt_of_ne hij with hlt | hlt
    · exact (Ring.mod_ne_mod (by omega) (by omega)).symm
    · exact Ring.mod_ne_mod (by omega) (by omega)

/-- A reader that goes on makes room. -/
theorem Writing.mono {w : Writer} (h : Writing mem stream lo w) {lo' : ℕ} (hle : lo ≤ lo') :
    Writing mem stream lo' w := by
  cases w with
  | idle => trivial
  | copying chunk todo off l =>
      obtain ⟨hoff, hl, hfit, htodo, hdone⟩ := h
      exact ⟨hoff, hl, by omega, htodo, hdone⟩

/-- A writer that goes on changes nothing before it. -/
theorem Reading.append {size : ℕ} {r : Reader} (h : Reading size stream lo r) (xs : Bytes) :
    Reading size (stream ++ xs) lo r := by
  cases r with
  | idle => trivial
  | copying got off l =>
      obtain ⟨hoff, hl, hle, hgot⟩ := h
      refine ⟨hoff, hl, ?_, ?_⟩
      · rw [List.length_append]
        omega
      · intro j b hj
        have hb := hgot j b hj
        have hlt : lo + j < stream.length := (List.getElem?_eq_some_iff.mp hb).1
        rw [List.getElem?_append_left hlt]
        exact hb

/-- One byte more. -/
theorem Reading.set {size : ℕ} {got : List (Option UInt8)} {off l : ℤ}
    (h : Reading size stream lo (.copying got off l)) {j : ℕ} {b : UInt8}
    (hb : stream[lo + j]? = some b) :
    Reading size stream lo (.copying (got.set j (some b)) off l) := by
  obtain ⟨hoff, hl, hle, hgot⟩ := h
  have hlen : (got.set j (some b)).length = got.length := List.length_set
  refine ⟨hoff, hl.trans (by rw [hlen]), by omega, ?_⟩
  intro i b' hi
  by_cases hij : j = i
  · subst hij
    rw [List.getElem?_set_self'] at hi
    cases hj : got[j]? with
    | none =>
        rw [hj] at hi
        cases hi
    | some x =>
        rw [hj] at hi
        cases hi
        exact hb
  · rw [List.getElem?_set_ne hij] at hi
    exact hgot i b' hi

/-- A reader that is through has the oldest bytes. -/
theorem Reading.bytes_eq {size : ℕ} {got : List (Option UInt8)} {off l : ℤ}
    (h : Reading size stream lo (.copying got off l)) (hnone : none ∉ got) :
    got.filterMap id = (stream.drop lo).take got.length := by
  obtain ⟨-, -, hle, hgot⟩ := h
  have heq : got = ((stream.drop lo).take got.length).map some := by
    refine List.ext_getElem? fun j => ?_
    rw [List.getElem?_map, List.getElem?_take, List.getElem?_drop]
    by_cases hj : j < got.length
    · rw [if_pos hj, List.getElem?_eq_getElem hj]
      cases hb : got[j] with
      | none => exact absurd (hb ▸ List.getElem_mem hj) hnone
      | some b =>
          have hstream := hgot j b (by rw [List.getElem?_eq_getElem hj, hb])
          rw [hstream]
          rfl
    · rw [if_neg hj, List.getElem?_eq_none (by omega)]
      rfl
  conv_lhs => rw [heq]
  rw [List.filterMap_map]
  exact List.filterMap_some

end Threads

/-! ## The invariant -/

/-- What every step keeps: the buffer has what was accepted and not delivered. -/
structure Invariant (s : Shared) (lo : ℕ) : Prop where
  holds : Holds s.buffer s.accepted lo
  writing : Writing s.buffer.buff s.accepted lo s.writer
  reading : Reading s.buffer.buff.length s.accepted lo s.reader
  delivered_eq : s.delivered = s.accepted.take lo

/-- A byte behind the stream is not part of it. -/
theorem holds_put {c : CircluarBuffer} {stream : Bytes} {lo : ℕ} (h : Holds c stream lo) {p : ℕ}
    (hle : stream.length ≤ p) (hlt : p < lo + c.buff.length) (b : UInt8) :
    Holds { c with buff := Ring.put c.buff p b } stream lo := by
  have hlen : (Ring.put c.buff p b).length = c.buff.length := Ring.length_put b
  refine ⟨⟨?_, h.sized.mask_eq, ?_⟩, h.window.put hle hlt b, h.wcount_eq, h.rcount_eq, ?_⟩
  · rw [hlen]
    exact h.sized.size_eq
  · rw [hlen]
    exact h.sized.length_eq
  · intro hzero
    exact h.empty (hlen.symm.trans hzero)

/-- Bytes that are there become part of the stream when the counter moves. -/
theorem holds_writeBuff {c : CircluarBuffer} {stream xs : Bytes} {lo : ℕ} (h : Holds c stream lo)
    (hget : ∀ j < xs.length, Ring.get c.buff (stream.length + j) = xs[j]?)
    (hfit : stream.length + xs.length ≤ lo + c.buff.length) :
    Holds (c.writeBuff xs.length) (stream ++ xs) lo := by
  refine ⟨⟨h.sized.size_eq, h.sized.mask_eq, h.sized.length_eq⟩, h.window.append hget hfit, ?_,
    h.rcount_eq, ?_⟩
  · rw [CircluarBuffer.writeBuff, h.wcount_eq, List.length_append, Int.natCast_add]
    exact toInt32_add _ _
  · intro hzero
    have hempty := h.empty hzero
    have hle := h.window.le_length
    have hlen : c.buff.length = 0 := hzero
    rw [List.length_append]
    omega

section Steps

variable {s t : Shared} {lo : ℕ}

theorem Invariant.startWrite (h : Invariant s lo) {buffer : Bytes} {len : ℤ} (hlen : 0 ≤ len)
    (hbuffer : len ≤ buffer.length) (hstep : step s (.startWrite buffer len) = some t) :
    Invariant t lo := by
  cases hw : s.writer with
  | copying chunk todo off l => simp only [step, hw] at hstep; cases hstep
  | idle =>
      simp only [step, hw] at hstep
      cases hstep
      have hc := h.holds
      have hle := hc.window.le_length
      have hwin := hc.window.length_le
      obtain ⟨n, hn⟩ :
          ∃ n : ℕ, (if len > s.buffer.getUnUsed then s.buffer.getUnUsed else len) = n :=
        Int.eq_ofNat_of_zero_le (by rw [hc.getUnUsed_eq]; split <;> omega)
      have hn' : (n : ℤ) ≤ len ∧ n ≤ s.buffer.buff.length - (s.accepted.length - lo) := by
        rw [hc.getUnUsed_eq] at hn
        split at hn <;> omega
      have htake : (buffer.take n).length = n := by
        rw [List.length_take]
        omega
      refine ⟨hc, ?_, h.reading, h.delivered_eq⟩
      simp only [hn, Int.toNat_natCast]
      refine ⟨hc.writeOffset_eq, ?_, by omega, ?_, ?_⟩
      · rw [htake, hc.sized.size_eq]
      · intro j hj
        rw [htake]
        exact List.mem_range.mp hj
      · intro j hj htodo
        rw [htake] at hj
        exact absurd (List.mem_range.mpr hj) htodo

theorem Invariant.copyIn (h : Invariant s lo) {j : ℕ} (hstep : step s (.copyIn j) = some t) :
    Invariant t lo := by
  cases hw : s.writer with
  | idle => simp only [step, hw] at hstep; cases hstep
  | copying chunk todo off l =>
      simp only [step, hw] at hstep
      split at hstep
      · rename_i hj
        have hwriting := h.writing
        rw [hw] at hwriting
        have hput := fun hj => hwriting.put h.holds.window.le_length (j := j) hj
        obtain ⟨hoff, hl, hfit, htodo, -⟩ := hwriting
        have hle := h.holds.window.le_length
        have hjlt := htodo j hj.1
        have haddr := address_eq hoff hl hjlt (by omega)
        rw [List.getElem?_eq_getElem hjlt, haddr, Int.toNat_natCast] at hstep
        obtain rfl := Option.some.inj hstep
        refine ⟨holds_put h.holds (Nat.le_add_right _ _) (by omega) _, hput hjlt, ?_,
          h.delivered_eq⟩
        have hreading := h.reading
        rw [← Ring.length_put chunk[j]] at hreading
        exact hreading
      · cases hstep

theorem Invariant.endWrite (h : Invariant s lo) (hstep : step s .endWrite = some t) :
    Invariant t lo := by
  cases hw : s.writer with
  | idle => simp only [step, hw] at hstep; cases hstep
  | copying chunk todo off l =>
      cases todo with
      | cons j todo => simp only [step, hw] at hstep; cases hstep
      | nil =>
          simp only [step, hw] at hstep
          cases hstep
          have hwriting := h.writing
          rw [hw] at hwriting
          obtain ⟨-, -, hfit, -, hdone⟩ := hwriting
          refine ⟨holds_writeBuff h.holds (fun j hj => hdone j hj List.not_mem_nil) hfit, trivial,
            h.reading.append chunk, ?_⟩
          have hle := h.holds.window.le_length
          rw [List.take_append_of_le_length hle]
          exact h.delivered_eq

theorem Invariant.startRead (h : Invariant s lo) {len : ℤ} (hlen : 0 ≤ len)
    (hstep : step s (.startRead len) = some t) : Invariant t lo := by
  cases hr : s.reader with
  | copying got off l => simp only [step, hr] at hstep; cases hstep
  | idle =>
      simp only [step, hr] at hstep
      have hc := h.holds
      have hle := hc.window.le_length
      have hdata : toInt32 (s.buffer.wcount - s.buffer.rcount) = (s.accepted.length - lo : ℕ) :=
        hc.dataSize_eq
      rw [hdata] at hstep
      split at hstep
      · cases hstep
        exact h
      · cases hstep
        obtain ⟨n, hn⟩ : ∃ n : ℕ, (if len > (s.accepted.length - lo : ℕ) then
            ((s.accepted.length - lo : ℕ) : ℤ) else len) = n :=
          Int.eq_ofNat_of_zero_le (by split <;> omega)
        have hn' : n ≤ s.accepted.length - lo := by split at hn <;> omega
        refine ⟨hc, h.writing, ?_, h.delivered_eq⟩
        simp only [hn, Int.toNat_natCast]
        refine ⟨hc.readOffset_eq, ?_, ?_, ?_⟩
        · rw [List.length_replicate, hc.sized.size_eq]
        · rw [List.length_replicate]
          omega
        · intro j b hj
          have hmem := List.eq_of_mem_replicate (List.mem_of_getElem? hj)
          cases hmem

theorem Invariant.copyOut (h : Invariant s lo) {j : ℕ} (hstep : step s (.copyOut j) = some t) :
    Invariant t lo := by
  cases hr : s.reader with
  | idle => simp only [step, hr] at hstep; cases hstep
  | copying got off l =>
      simp only [step, hr] at hstep
      split at hstep
      · rename_i hj
        have hreading := h.reading
        rw [hr] at hreading
        have hset := fun b hb => hreading.set (j := j) (b := b) hb
        obtain ⟨hoff, hl, hle, -⟩ := hreading
        have hjlt : j < got.length := (List.getElem?_eq_some_iff.mp hj.1).1
        have hwin := h.holds.window.length_le
        have haddr := address_eq hoff hl hjlt (by omega)
        -- the cell has what was accepted there
        have hget : s.buffer.buff[(lo + j) % s.buffer.buff.length]? = s.accepted[lo + j]? :=
          h.holds.window.get_eq (lo + j) (Nat.le_add_right _ _) (by omega)
        have hlt : lo + j < s.accepted.length := by omega
        rw [haddr, Int.toNat_natCast, hget, List.getElem?_eq_getElem hlt] at hstep
        obtain rfl := Option.some.inj hstep
        exact ⟨h.holds, h.writing, hset _ (List.getElem?_eq_getElem hlt), h.delivered_eq⟩
      · cases hstep

theorem Invariant.endRead (h : Invariant s lo) (hstep : step s .endRead = some t) :
    ∃ lo', Invariant t lo' := by
  cases hr : s.reader with
  | idle => simp only [step, hr] at hstep; cases hstep
  | copying got off l =>
      simp only [step, hr] at hstep
      split at hstep
      · cases hstep
      · rename_i hnone
        cases hstep
        have hreading := h.reading
        rw [hr] at hreading
        have hbytes := hreading.bytes_eq hnone
        obtain ⟨-, -, hle, -⟩ := hreading
        refine ⟨lo + got.length, h.holds.consumed hle, h.writing.mono (Nat.le_add_right _ _),
          trivial, ?_⟩
        rw [h.delivered_eq, hbytes, List.take_add]

/-- **One step** of either thread. -/
theorem Invariant.step (h : Invariant s lo) {a : Action} (ha : a.Valid)
    (hstep : step s a = some t) : ∃ lo', Invariant t lo' := by
  cases a with
  | startWrite buffer len => exact ⟨lo, h.startWrite ha.1 ha.2 hstep⟩
  | copyIn j => exact ⟨lo, h.copyIn hstep⟩
  | endWrite => exact ⟨lo, h.endWrite hstep⟩
  | startRead len => exact ⟨lo, h.startRead ha hstep⟩
  | copyOut j => exact ⟨lo, h.copyOut hstep⟩
  | endRead => exact h.endRead hstep

end Steps

/-! ## Every interleaving -/

/-- What a writer can do next. -/
def Writer.Next : Writer → Action → Prop
  | .idle, .startWrite _ _ => True
  | .copying _ todo _ _, .copyIn j => j ∈ todo
  | .copying _ todo _ _, .endWrite => todo = []
  | _, _ => False

/-- What a reader can do next. -/
def Reader.Next : Reader → Action → Prop
  | .idle, .startRead _ => True
  | .copying got _ _, .copyOut j => got[j]? = some none
  | .copying got _ _, .endRead => none ∉ got
  | _, _ => False

section Interleavings

variable {s t : Shared} {lo : ℕ}

/-- A writer is never outside the buffer, and waits for nobody. -/
theorem Invariant.writer_next (h : Invariant s lo) {a : Action} (ha : s.writer.Next a) :
    (Threads.step s a).isSome := by
  cases hw : s.writer with
  | idle =>
      rw [hw] at ha
      cases a with
      | startWrite buffer len =>
          simp only [Threads.step, hw]
          rfl
      | _ => exact ha.elim
  | copying chunk todo off l =>
      rw [hw] at ha
      cases a with
      | copyIn j =>
          have hwriting := h.writing
          rw [hw] at hwriting
          obtain ⟨hoff, hl, hfit, htodo, -⟩ := hwriting
          have hle := h.holds.window.le_length
          have hj := htodo j ha
          have haddr := address_eq hoff hl hj (by omega)
          have hlt := Nat.mod_lt (s.accepted.length + j) (show 0 < s.buffer.buff.length by omega)
          have hin : j ∈ todo ∧ 0 ≤ address off l j ∧
              address off l j < s.buffer.buff.length := by
            rw [haddr]
            exact ⟨ha, by omega, by omega⟩
          simp only [Threads.step, hw]
          rw [if_pos hin, List.getElem?_eq_getElem hj]
          rfl
      | endWrite =>
          obtain rfl : todo = [] := ha
          simp only [Threads.step, hw]
          rfl
      | _ => exact ha.elim

/-- Nor is a reader. -/
theorem Invariant.reader_next (h : Invariant s lo) {a : Action} (ha : s.reader.Next a) :
    (Threads.step s a).isSome := by
  cases hr : s.reader with
  | idle =>
      rw [hr] at ha
      cases a with
      | startRead len =>
          simp only [Threads.step, hr]
          split <;> rfl
      | _ => exact ha.elim
  | copying got off l =>
      rw [hr] at ha
      cases a with
      | copyOut j =>
          have hreading := h.reading
          rw [hr] at hreading
          obtain ⟨hoff, hl, hle, -⟩ := hreading
          have hwin := h.holds.window.length_le
          have hj : j < got.length := (List.getElem?_eq_some_iff.mp ha).1
          have haddr := address_eq hoff hl hj (by omega)
          have hlt := Nat.mod_lt (lo + j) (show 0 < s.buffer.buff.length by omega)
          have hin : got[j]? = some none ∧ 0 ≤ address off l j := ⟨ha, by omega⟩
          simp only [Threads.step, hr]
          rw [if_pos hin, haddr, Int.toNat_natCast, List.getElem?_eq_getElem hlt]
          rfl
      | endRead =>
          simp only [Threads.step, hr]
          rw [if_neg ha]
          rfl
      | _ => exact ha.elim

/-- The size of the buffer stays what it is. -/
theorem length_buff_step {a : Action} (hstep : Threads.step s a = some t) :
    t.buffer.buff.length = s.buffer.buff.length := by
  cases a with
  | copyIn j =>
      simp only [Threads.step] at hstep
      split at hstep
      · cases hstep
      · split at hstep
        · obtain ⟨b, -, heq⟩ := Option.bind_eq_some_iff.mp hstep
          cases heq
          exact List.length_set
        · cases hstep
  | copyOut j =>
      simp only [Threads.step] at hstep
      split at hstep
      · cases hstep
      · split at hstep
        · obtain ⟨b, -, heq⟩ := Option.bind_eq_some_iff.mp hstep
          cases heq
          rfl
        · cases hstep
  | startWrite buffer len | endWrite | startRead len | endRead =>
      simp only [Threads.step] at hstep
      (repeat' split at hstep) <;> cases hstep <;> rfl

/-- **Two threads**: in every interleaving what was read is the beginning of what was written, the
rest is waiting in the buffer, and neither thread ever leaves the buffer or waits for the other. -/
theorem threads_safe (memory : ℕ → UInt8) (size : ℤ) (hlo : -2147483648 ≤ size)
    (hhi : size < 2147483648) {c : CircluarBuffer} (hnew : CircluarBuffer.new memory size = some c)
    (as : List Action) (has : ∀ a ∈ as, a.Valid) (hrun : Run Threads.step { buffer := c } as t) :
    ∃ waiting : Bytes, t.accepted = t.delivered ++ waiting ∧ (waiting.length : ℤ) ≤ size ∧
      t.buffer.tryReadBuff waiting.length = some (some waiting) ∧
      ∀ a, t.writer.Next a ∨ t.reader.Next a → (Threads.step t a).isSome := by
  have hc := holds_of_new memory size hlo hhi hnew
  have hsize := sized_of_new memory size hlo hhi hnew
  have hstart : (∃ lo, Invariant { buffer := c } lo) ∧ (c.buff.length : ℤ) = size :=
    ⟨⟨0, hc, trivial, trivial, rfl⟩, by rw [← hsize.1.size_eq, hsize.2.1]⟩
  obtain ⟨⟨lo, h⟩, hlen⟩ := hrun.invariant
    (P := fun s => (∃ lo, Invariant s lo) ∧ (s.buffer.buff.length : ℤ) = size) (Q := Action.Valid)
    (fun s a t ha hstep hs => by
      obtain ⟨⟨lo, h⟩, hlen⟩ := hs
      exact ⟨h.step ha hstep, by rw [length_buff_step hstep]; exact hlen⟩) has hstart
  have hwin := h.holds.window.length_le
  have hdrop : (t.accepted.drop lo).length = t.accepted.length - lo := List.length_drop
  refine ⟨t.accepted.drop lo, ?_, by omega, ?_, ?_⟩
  · rw [h.delivered_eq, List.take_append_drop]
  · rw [h.holds.tryReadBuff_eq, ← hdrop, if_neg (Nat.lt_irrefl _), List.take_length]
  · rintro a (ha | ha)
    · exact h.writer_next ha
    · exact h.reader_next ha

/-- A byte is read while the next is written. -/
theorem threads_safe_two : ∃ waiting : Bytes,
    ([1, 2] : Bytes) = [1] ++ waiting ∧ (waiting.length : ℤ) ≤ 2 ∧
      CircluarBuffer.tryReadBuff
        { buff := [1, 2], size := 2, wcount := 2, rcount := 1, mask := 1 } waiting.length =
          some (some waiting) ∧
      ∀ a, Writer.idle.Next a ∨ Reader.idle.Next a → (Threads.step
        { buffer := { buff := [1, 2], size := 2, wcount := 2, rcount := 1, mask := 1 },
          accepted := [1, 2], delivered := [1] } a).isSome :=
  threads_safe (c := { buff := [0, 0], size := 2, mask := 1 }) (t := {
      buffer := { buff := [1, 2], size := 2, wcount := 2, rcount := 1, mask := 1 },
      accepted := [1, 2], delivered := [1] })
    (fun _ => 0) 2 (by decide) (by decide) (by decide)
    [.startWrite [1] 1, .copyIn 0, .endWrite, .startRead 9, .startWrite [2] 1,
      .copyOut 0, .copyIn 0, .endRead, .endWrite] (by simp [Action.Valid])
    (run_iff_foldlM.mpr (by decide +kernel))

end Interleavings

/-! ## Without interleaving -/

section Alone

variable {s t : Shared} {lo : ℕ}

/-- What is left to copy is all that is missing. -/
def Copied (s : Shared) (target : Bytes) (todo : List ℕ) : Prop :=
  ∀ i, (∀ j ∈ todo, (s.accepted.length + j) % s.buffer.buff.length ≠ i) →
    s.buffer.buff[i]? = target[i]?

/-- Copying, in any order. -/
theorem copyIn_run (h : Invariant s lo) {chunk : Bytes} {todo js : List ℕ} {off l : ℤ}
    (hw : s.writer = .copying chunk todo off l) (target : Bytes)
    (htarget : ∀ j (_ : j < chunk.length),
      target[(s.accepted.length + j) % s.buffer.buff.length]? = chunk[j]?)
    (hcopied : Copied s target todo) (hrun : Run step s (js.map .copyIn) t) :
    ∃ todo' mem, t = { s with
        buffer := { s.buffer with buff := mem }, writer := .copying chunk todo' off l } ∧
      mem.length = s.buffer.buff.length ∧ Copied t target todo' := by
  induction js generalizing s todo with
  | nil =>
      cases hrun
      refine ⟨todo, _, ?_, rfl, hcopied⟩
      rw [← hw]
  | cons j js ih =>
      obtain _ | ⟨head, tail⟩ := hrun
      rename_i s₁
      have h₁ := h.copyIn head
      have hwriting := h.writing
      simp only [step, hw] at head
      rw [hw] at hwriting
      obtain ⟨hoff, hl, hfit, htodo, -⟩ := hwriting
      have hle := h.holds.window.le_length
      split at head
      · rename_i hj
        have hjlt := htodo j hj.1
        have haddr := address_eq hoff hl hjlt (by omega)
        rw [List.getElem?_eq_getElem hjlt, haddr, Int.toNat_natCast] at head
        obtain rfl := Option.some.inj head
        have hlen : (s.buffer.buff.set ((s.accepted.length + j) % s.buffer.buff.length)
            chunk[j]).length = s.buffer.buff.length := List.length_set
        have hlt := Nat.mod_lt (s.accepted.length + j) (show 0 < s.buffer.buff.length by omega)
        obtain ⟨todo', mem, ht, hmem, hcopied'⟩ := ih h₁ rfl
          (fun i hi => by rw [hlen]; exact htarget i hi) (fun i hi => by
            rw [hlen] at hi
            by_cases hij : (s.accepted.length + j) % s.buffer.buff.length = i
            · rw [← hij, htarget j hjlt, List.getElem?_set_self hlt, List.getElem?_eq_getElem hjlt]
            · rw [List.getElem?_set_ne hij]
              refine hcopied i fun j' hj' => ?_
              by_cases hjj : j' = j
              · rw [hjj]
                exact hij
              · exact hi j' (List.mem_filter.mpr ⟨hj', decide_eq_true hjj⟩)) tail
        exact ⟨todo', mem, ht, hmem.trans hlen, hcopied'⟩
      · cases head

/-- **A writer that is alone** does what `Write` does, in whatever order the bytes are copied. -/
theorem write_alone (h : Invariant s lo) {buffer : Bytes} {len : ℤ} (hlen : 0 ≤ len)
    (hbuffer : len ≤ buffer.length) {js : List ℕ}
    (hrun : Run step s (.startWrite buffer len :: (js.map .copyIn ++ [.endWrite])) t) :
    ∃ n, s.buffer.write buffer len = some (n, t.buffer) ∧
      t.accepted = s.accepted ++ buffer.take n.toNat ∧ t.delivered = s.delivered ∧
      t.reader = s.reader := by
  obtain _ | ⟨head, tail⟩ := hrun
  rename_i s₁
  obtain ⟨s₂, hcopy, hend⟩ := run_append.mp tail
  obtain _ | ⟨hend, ⟨⟩⟩ := hend
  have h₁ := h.startWrite hlen hbuffer head
  cases hw : s.writer with
  | copying chunk todo off l => simp only [step, hw] at head; cases head
  | idle =>
      simp only [step, hw] at head
      have hc := h.holds
      have hle := hc.window.le_length
      have hwin := hc.window.length_le
      obtain ⟨k, rfl⟩ := Int.eq_ofNat_of_zero_le hlen
      obtain ⟨n, hn⟩ : ∃ n, n = min k (s.buffer.buff.length - (s.accepted.length - lo)) :=
        ⟨_, rfl⟩
      have hclamp : (if (k : ℤ) > s.buffer.getUnUsed then s.buffer.getUnUsed else k) = (n : ℤ) := by
        rw [hc.getUnUsed_eq]
        split <;> omega
      have hwrite := hc.write_eq buffer (Int.ofNat_le.mp hbuffer) hn
      have htake : (buffer.take n).length = n := by
        rw [List.length_take]
        omega
      rw [hclamp, Int.toNat_natCast] at head
      cases head
      obtain ⟨todo, mem, rfl, hmem, hcopied⟩ := copyIn_run h₁ rfl
        (Ring.store s.buffer.buff s.accepted.length (buffer.take n))
        (fun j hj => by
          have hget : Ring.get (Ring.store s.buffer.buff s.accepted.length (buffer.take n))
              (s.accepted.length + j) = (buffer.take n)[j]? := Ring.get_store (by omega) hj
          rw [Ring.get, Ring.length_store] at hget
          exact hget)
        (fun i hi => by
          refine (Ring.getElem?_store_of_ne fun j hj => ?_).symm
          exact hi j (List.mem_range.mpr (htake ▸ hj))) hcopy
      cases todo with
      | cons j todo => cases hend
      | nil =>
          cases hend
          have heq : mem = Ring.store s.buffer.buff s.accepted.length (buffer.take n) :=
            List.ext_getElem? fun i => hcopied i fun j hj => absurd hj List.not_mem_nil
          refine ⟨n, ?_, rfl, rfl, rfl⟩
          rw [hwrite, CircluarBuffer.writeBuff, htake, ← heq]

/-- Copying, in any order. -/
theorem copyOut_run {got : List (Option UInt8)} {js : List ℕ} {off l : ℤ}
    (hr : s.reader = .copying got off l) (hrun : Run step s (js.map .copyOut) t) :
    ∃ got', t = { s with reader := .copying got' off l } ∧ got'.length = got.length := by
  induction js generalizing s got with
  | nil =>
      cases hrun
      refine ⟨got, ?_, rfl⟩
      rw [← hr]
  | cons j js ih =>
      obtain _ | ⟨head, tail⟩ := hrun
      simp only [step, hr] at head
      split at head
      · obtain ⟨b, -, heq⟩ := Option.bind_eq_some_iff.mp head
        cases heq
        obtain ⟨got', ht, hlen⟩ := ih rfl tail
        exact ⟨got', ht, hlen.trans List.length_set⟩
      · cases head

/-- **A reader that is alone** does what `Read` does. -/
theorem read_alone (h : Invariant s lo) {len : ℤ} (hlen : 0 ≤ len) {js : List ℕ}
    (hrun : Run step s (.startRead len :: (js.map .copyOut ++ [.endRead])) t) :
    ∃ bytes, s.buffer.read len = some (bytes, t.buffer) ∧
      t.delivered = s.delivered ++ bytes ∧ t.accepted = s.accepted ∧ t.writer = s.writer := by
  obtain _ | ⟨head, tail⟩ := hrun
  rename_i s₁
  obtain ⟨s₂, hcopy, hend⟩ := run_append.mp tail
  obtain _ | ⟨hend, ⟨⟩⟩ := hend
  have h₁ := h.startRead hlen head
  have h₂ : Invariant s₂ lo := hcopy.invariant (P := fun s => Invariant s lo)
    (Q := fun a => ∃ j, a = .copyOut j) (fun s a t ha hstep hs => by
      obtain ⟨j, rfl⟩ := ha
      exact hs.copyOut hstep)
    (fun a ha => by
      obtain ⟨j, -, rfl⟩ := List.mem_map.mp ha
      exact ⟨j, rfl⟩) h₁
  cases hr : s.reader with
  | copying got off l => simp only [step, hr] at head; cases head
  | idle =>
      simp only [step, hr] at head
      have hc := h.holds
      have hdata : toInt32 (s.buffer.wcount - s.buffer.rcount) = (s.accepted.length - lo : ℕ) :=
        hc.dataSize_eq
      obtain ⟨k, rfl⟩ := Int.eq_ofNat_of_zero_le hlen
      obtain ⟨n, hn⟩ : ∃ n, n = min k (s.accepted.length - lo) := ⟨_, rfl⟩
      have hread := hc.read_eq k hn
      rw [hdata] at head
      split at head
      · -- there is nothing to end
        cases head
        cases js with
        | nil =>
            cases hcopy
            simp only [step, hr] at hend
            cases hend
        | cons j js =>
            obtain _ | ⟨head, tail⟩ := hcopy
            simp only [step, hr] at head
            cases head
      · have hclamp : (if (k : ℤ) > (s.accepted.length - lo : ℕ) then
            ((s.accepted.length - lo : ℕ) : ℤ) else k) = (n : ℤ) := by
          split <;> omega
        rw [hclamp, Int.toNat_natCast] at head
        cases head
        obtain ⟨got, rfl, hgot⟩ := copyOut_run rfl hcopy
        rw [List.length_replicate] at hgot
        simp only [step] at hend
        split at hend
        · cases hend
        · rename_i hnone
          cases hend
          have hbytes := h₂.reading.bytes_eq hnone
          refine ⟨(s.accepted.drop lo).take n, ?_, ?_, rfl, rfl⟩
          · rw [hread, ← hgot]
          · rw [hbytes, ← hgot]

end Alone

end SeedCore.GridSeed.Threads
