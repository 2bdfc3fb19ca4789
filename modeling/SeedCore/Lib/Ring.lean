import Mathlib.Data.List.TakeDrop
import Mathlib.Data.Nat.ModEq

/-!
# A stream in a circular memory

A memory of `n` cells keeps the end of an unbounded stream: position `p` of the stream has the
cell `p % n`.  Positions are natural numbers that only grow, so that nothing is said about wrapping
around, and a part of the stream is in the memory as long as it is no longer than the memory is.

## Main definitions

* `get`, `put`, `load`, `store` — one position, and successive positions.
* `store_eq`, `load_eq` — positions that do not wrap around are a block of the memory.
* `store_wrap`, `load_wrap` — positions that wrap around are two blocks.
* `Window mem stream lo` — the memory has the stream from `lo` on.
* `Window.store`, `Window.load`, `Window.advance` — writing, reading and dropping.
-/

namespace SeedCore.Ring

universe u

variable {α : Type u}

/-- The cell of a position. -/
def get (mem : List α) (p : ℕ) : Option α := mem[p % mem.length]?

/-- Write the cell of a position. -/
def put (mem : List α) (p : ℕ) (x : α) : List α := mem.set (p % mem.length) x

/-- The cells of `n` positions from `p` on. -/
def load (mem : List α) (p : ℕ) : ℕ → List α
  | 0 => []
  | n + 1 => (get mem p).toList ++ load mem (p + 1) n

/-- Write the cells of the positions from `p` on. -/
def store (mem : List α) (p : ℕ) : List α → List α
  | [] => mem
  | x :: xs => store (put mem p x) (p + 1) xs

variable {mem : List α} {p q : ℕ}

@[simp] theorem length_put (x : α) : (put mem p x).length = mem.length := List.length_set

@[simp] theorem length_store (xs : List α) : (store mem p xs).length = mem.length := by
  induction xs generalizing mem p with
  | nil => rfl
  | cons x xs ih => rw [store, ih, length_put]

/-- Positions less than one turn apart have different cells. -/
theorem mod_ne_mod {n : ℕ} (hlt : p < q) (hturn : q < p + n) : p % n ≠ q % n := by
  intro h
  have hdvd : n ∣ q - p := (Nat.modEq_iff_dvd' (Nat.le_of_lt hlt)).mp h
  have hle := Nat.le_of_dvd (by omega) hdvd
  omega

/-- No more than one turn apart, they are as far apart as their cells, less a turn at most. -/
theorem mod_add_cases {n : ℕ} (hle : p ≤ q) (hturn : q ≤ p + n) :
    q % n = p % n + (q - p) ∨ q % n + n = p % n + (q - p) := by
  rcases Nat.eq_zero_or_pos n with rfl | hpos
  · left
    rw [Nat.mod_zero, Nat.mod_zero]
    omega
  · have hp := Nat.mod_lt p hpos
    have hsum : q % n = (p % n + (q - p)) % n := by
      rw [Nat.mod_add_mod, Nat.add_sub_of_le hle]
    by_cases hlt : p % n + (q - p) < n
    · left
      rw [hsum, Nat.mod_eq_of_lt hlt]
    · right
      rw [hsum, Nat.mod_eq_sub_mod (by omega), Nat.mod_eq_of_lt (by omega)]
      omega

theorem get_put_self (hp : 0 < mem.length) (x : α) : get (put mem p x) p = some x := by
  rw [get, length_put, put, List.getElem?_set_self (Nat.mod_lt _ hp)]

theorem get_put_of_ne (h : p % mem.length ≠ q % mem.length) (x : α) :
    get (put mem p x) q = get mem q := by
  rw [get, length_put, put, List.getElem?_set_ne h, get]

/-! ## Turns -/

theorem put_mod (x : α) : put mem (p % mem.length) x = put mem p x := by
  rw [put, Nat.mod_mod, put]

theorem get_mod : get mem (p % mem.length) = get mem p := by
  rw [get, Nat.mod_mod, get]

/-- Only the cell of the first position matters. -/
theorem store_congr (h : p % mem.length = q % mem.length) (xs : List α) :
    store mem p xs = store mem q xs := by
  induction xs generalizing mem p q with
  | nil => rfl
  | cons x xs ih =>
      have hput : put mem p x = put mem q x := by rw [← put_mod, h, put_mod]
      rw [store, store, hput]
      refine ih ?_
      rw [length_put]
      exact Nat.ModEq.add_right 1 h

theorem load_congr (h : p % mem.length = q % mem.length) (n : ℕ) : load mem p n = load mem q n := by
  induction n generalizing p q with
  | zero => rfl
  | succ n ih =>
      have hget : get mem p = get mem q := by rw [← get_mod, h, get_mod]
      rw [load, load, hget, ih (Nat.ModEq.add_right 1 h)]

theorem store_append (xs ys : List α) :
    store mem p (xs ++ ys) = store (store mem p xs) (p + xs.length) ys := by
  induction xs generalizing mem p with
  | nil => rfl
  | cons x xs ih =>
      rw [List.cons_append, store, ih, store, List.length_cons, Nat.add_right_comm, Nat.add_assoc]

theorem load_add (m n : ℕ) : load mem p (m + n) = load mem p m ++ load mem (p + m) n := by
  induction m generalizing p with
  | zero => rw [Nat.zero_add, load, List.nil_append, Nat.add_zero]
  | succ m ih =>
      rw [Nat.add_right_comm, load, ih, load, List.append_assoc, Nat.add_right_comm, Nat.add_assoc]

/-- The cells of other positions are as they were. -/
theorem getElem?_store_of_ne {xs : List α} {i : ℕ}
    (h : ∀ j < xs.length, (p + j) % mem.length ≠ i) : (store mem p xs)[i]? = mem[i]? := by
  induction xs generalizing mem p with
  | nil => rfl
  | cons x xs ih =>
      have hhead : p % mem.length ≠ i := h 0 (by rw [List.length_cons]; omega)
      rw [store, ih, put, List.getElem?_set_ne hhead]
      intro j hj
      rw [length_put, Nat.add_assoc, Nat.add_comm 1 j]
      exact h (j + 1) (by rw [List.length_cons]; omega)

/-- The cells of the positions are what was written. -/
theorem get_store {xs : List α} (hfit : xs.length ≤ mem.length) {j : ℕ} (hj : j < xs.length) :
    get (store mem p xs) (p + j) = xs[j]? := by
  induction xs generalizing mem p j with
  | nil => exact absurd hj (Nat.not_lt_zero j)
  | cons x xs ih =>
      rw [List.length_cons] at hfit hj
      cases j with
      | zero =>
          have hother : ∀ j < xs.length,
              (p + 1 + j) % (put mem p x).length ≠ p % mem.length := by
            intro j hj
            rw [length_put]
            exact (mod_ne_mod (by omega) (by omega)).symm
          have hself : get (put mem p x) p = some x := get_put_self (by omega) x
          rw [get, length_put] at hself
          rw [Nat.add_zero, get, length_store, store, getElem?_store_of_ne hother, hself,
            List.getElem?_cons_zero]
      | succ j =>
          have hlen : xs.length ≤ (put mem p x).length := by
            rw [length_put]
            omega
          have hrest : get (store (put mem p x) (p + 1) xs) (p + 1 + j) = xs[j]? :=
            ih hlen (by omega)
          rw [List.getElem?_cons_succ, ← hrest, store, Nat.add_assoc, Nat.add_comm 1 j]

/-! ## Blocks -/

/-- Positions that do not wrap around are written as a block. -/
theorem store_eq {xs : List α} (h : p + xs.length ≤ mem.length) :
    store mem p xs = mem.take p ++ xs ++ mem.drop (p + xs.length) := by
  induction xs generalizing mem p with
  | nil => simp [store]
  | cons x xs ih =>
      rw [List.length_cons] at h
      have hput : put mem p x = mem.take p ++ x :: mem.drop (p + 1) := by
        rw [put, Nat.mod_eq_of_lt (by omega), List.set_eq_take_append_cons_drop, if_pos (by omega)]
      rw [store, ih (by rw [length_put]; omega), hput, List.length_cons]
      have htake : (mem.take p ++ x :: mem.drop (p + 1)).take (p + 1) = mem.take p ++ [x] := by
        rw [List.take_append, List.length_take, Nat.min_eq_left (by omega), List.take_of_length_le
          (by rw [List.length_take]; omega), Nat.add_sub_cancel_left]
        rfl
      have hdrop : (mem.take p ++ x :: mem.drop (p + 1)).drop (p + 1 + xs.length) =
          mem.drop (p + (xs.length + 1)) := by
        rw [List.drop_append, List.length_take, Nat.min_eq_left (by omega),
          List.drop_of_length_le (by rw [List.length_take]; omega), List.nil_append]
        have hsucc : p + 1 + xs.length - p = xs.length + 1 := by omega
        have hsum : p + 1 + xs.length = p + (xs.length + 1) := by omega
        rw [hsucc, List.drop_succ_cons, List.drop_drop, hsum]
      rw [htake, hdrop]
      simp

/-- They are read as a block. -/
theorem load_eq {n : ℕ} (h : p + n ≤ mem.length) : load mem p n = (mem.drop p).take n := by
  induction n generalizing p with
  | zero => rfl
  | succ n ih =>
      have hlt : p < mem.length := by omega
      rw [load, ih (by omega), get, Nat.mod_eq_of_lt hlt, List.getElem?_eq_getElem hlt,
        List.drop_eq_getElem_cons hlt, List.take_succ_cons]
      rfl

/-! ## Wrapping around -/

/-- What does not fit behind a position is written to the front of the memory. -/
theorem store_wrap {xs : List α} (hfit : xs.length ≤ mem.length) :
    store (store mem (p % mem.length) (xs.take (mem.length - p % mem.length))) 0
      (xs.drop (mem.length - p % mem.length)) = store mem p xs := by
  by_cases hl : xs.length ≤ mem.length - p % mem.length
  · rw [List.take_of_length_le hl, List.drop_of_length_le hl]
    exact store_congr (Nat.mod_mod p mem.length) xs
  · have hpos : 0 < mem.length := by omega
    have hlt := Nat.mod_lt p hpos
    have hturn : p + (mem.length - p % mem.length) = (p / mem.length + 1) * mem.length := by
      have hdiv := Nat.div_add_mod' p mem.length
      rw [Nat.add_one_mul]
      omega
    conv_rhs => rw [← List.take_append_drop (mem.length - p % mem.length) xs]
    rw [store_append, List.length_take, Nat.min_eq_left (by omega),
      store_congr (Nat.mod_mod p mem.length)]
    refine store_congr ?_ _
    rw [length_store, hturn, Nat.mul_mod_left, Nat.zero_mod]

/-- What is not behind a position is read from the front. -/
theorem load_wrap {n : ℕ} (hfit : n ≤ mem.length) :
    load mem (p % mem.length) (min n (mem.length - p % mem.length)) ++
      load mem 0 (n - min n (mem.length - p % mem.length)) = load mem p n := by
  by_cases hl : n ≤ mem.length - p % mem.length
  · rw [Nat.min_eq_left hl, Nat.sub_self, load, List.append_nil]
    exact load_congr (Nat.mod_mod p mem.length) n
  · have hpos : 0 < mem.length := by omega
    have hlt := Nat.mod_lt p hpos
    have hturn : p + (mem.length - p % mem.length) = (p / mem.length + 1) * mem.length := by
      have hdiv := Nat.div_add_mod' p mem.length
      rw [Nat.add_one_mul]
      omega
    have hsum : n = mem.length - p % mem.length + (n - (mem.length - p % mem.length)) := by omega
    rw [Nat.min_eq_right (by omega), load_congr (Nat.mod_mod p mem.length)]
    conv_rhs => rw [hsum, load_add]
    congr 1
    refine load_congr ?_ _
    rw [hturn, Nat.mul_mod_left, Nat.zero_mod]

/-- What is left of `k` positions after one block is a block. -/
theorem rest_le {n k m : ℕ} (hk : k ≤ n) (hm : m = min k (n - p % n)) :
    k - m ≤ n - (p + m) % n := by
  by_cases hlt : m < k
  · have hpos : 0 < n := by omega
    have hmod := Nat.mod_lt p hpos
    have hturn : p + m = (p / n + 1) * n := by
      have hdiv := Nat.div_add_mod' p n
      rw [Nat.add_one_mul]
      omega
    rw [hturn, Nat.mul_mod_left]
    omega
  · omega

/-! ## The window -/

/-- The memory has the positions of the stream from `lo` on. -/
structure Window (mem stream : List α) (lo : ℕ) : Prop where
  le_length : lo ≤ stream.length
  length_le : stream.length ≤ lo + mem.length
  get_eq : ∀ i, lo ≤ i → i < stream.length → get mem i = stream[i]?

namespace Window

variable {stream : List α} {lo : ℕ}

/-- A stream that ends where it begins. -/
theorem refl (mem stream : List α) : Window mem stream stream.length :=
  ⟨Nat.le_refl _, Nat.le_add_right _ _, fun _ hlo hhi => absurd hhi (Nat.not_lt.mpr hlo)⟩

/-- The cells behind the stream are free. -/
theorem put (h : Window mem stream lo) (hle : stream.length ≤ p) (hlt : p < lo + mem.length)
    (x : α) : Window (put mem p x) stream lo := by
  refine ⟨h.le_length, ?_, ?_⟩
  · rw [length_put]
    exact h.length_le
  · intro i hlo hhi
    rw [get_put_of_ne (mod_ne_mod (by omega) (by omega)).symm, h.get_eq i hlo hhi]

/-- A cell behind the stream becomes part of it. -/
theorem snoc (h : Window mem stream lo) {x : α} (hget : get mem stream.length = some x)
    (hlt : stream.length < lo + mem.length) : Window mem (stream ++ [x]) lo := by
  have hle := h.le_length
  refine ⟨?_, ?_, ?_⟩
  · rw [List.length_append, List.length_singleton]
    omega
  · rw [List.length_append, List.length_singleton]
    omega
  · intro i hlo hhi
    rw [List.length_append, List.length_singleton] at hhi
    by_cases hi : i < stream.length
    · rw [h.get_eq i hlo hi, List.getElem?_append_left hi]
    · obtain rfl : i = stream.length := by omega
      rw [hget, List.getElem?_concat_length]

/-- Cells behind the stream become part of it. -/
theorem append (h : Window mem stream lo) {xs : List α}
    (hget : ∀ j < xs.length, get mem (stream.length + j) = xs[j]?)
    (hfit : stream.length + xs.length ≤ lo + mem.length) : Window mem (stream ++ xs) lo := by
  have hle := h.le_length
  refine ⟨?_, ?_, ?_⟩
  · rw [List.length_append]
    omega
  · rw [List.length_append]
    exact hfit
  · intro i hlo hhi
    rw [List.length_append] at hhi
    by_cases hi : i < stream.length
    · rw [h.get_eq i hlo hi, List.getElem?_append_left hi]
    · obtain ⟨j, rfl⟩ := Nat.exists_eq_add_of_le (Nat.not_lt.mp hi)
      rw [hget j (by omega), List.getElem?_append_right (by omega), Nat.add_sub_cancel_left]

/-- Writing behind the stream goes on with it. -/
theorem store (h : Window mem stream lo) (xs : List α)
    (hfit : stream.length + xs.length ≤ lo + mem.length) :
    Window (store mem stream.length xs) (stream ++ xs) lo := by
  induction xs generalizing mem stream with
  | nil =>
      rw [List.append_nil]
      exact h
  | cons x xs ih =>
      rw [List.length_cons] at hfit
      have hle := h.le_length
      have hput := h.put (Nat.le_refl _) (by omega) x
      have hself : Ring.get (Ring.put mem stream.length x) stream.length = some x :=
        get_put_self (by omega) x
      have hsnoc := hput.snoc hself (by rw [length_put]; omega)
      have hlen : (stream ++ [x]).length = stream.length + 1 := by
        rw [List.length_append, List.length_singleton]
      have hrest := ih hsnoc (by rw [hlen, length_put]; omega)
      rw [hlen, List.append_assoc, List.singleton_append] at hrest
      exact hrest

/-- Reading gives the stream. -/
theorem load (h : Window mem stream lo) {n : ℕ} (hle : lo + n ≤ stream.length) :
    load mem lo n = (stream.drop lo).take n := by
  have hload : ∀ n p, lo ≤ p → p + n ≤ stream.length →
      Ring.load mem p n = (stream.drop p).take n := by
    intro n
    induction n with
    | zero => intro p _ _; rfl
    | succ n ih =>
        intro p hlo hn
        have hlt : p < stream.length := by omega
        rw [Ring.load, ih (p + 1) (by omega) (by omega), h.get_eq p hlo hlt,
          List.getElem?_eq_getElem hlt, List.drop_eq_getElem_cons hlt, List.take_succ_cons]
        rfl
  exact hload n lo (Nat.le_refl _) hle

/-- Positions can be dropped. -/
theorem advance (h : Window mem stream lo) {n : ℕ} (hle : lo + n ≤ stream.length) :
    Window mem stream (lo + n) := by
  have hlen := h.length_le
  exact ⟨hle, by omega, fun i hlo hhi => h.get_eq i (by omega) hhi⟩

end Window

end SeedCore.Ring
