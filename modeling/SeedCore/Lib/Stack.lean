import Mathlib.Data.Int.Notation
import Mathlib.Data.List.TakeDrop

/-!
# A stack with indices from both ends

A stack is a list with its top first.  An index `i > 0` counts the slots from the
bottom, where `1` is the lowest, and an index `i < 0` from the top, where `-1` is the
highest.  The operations are those of an embeddable interpreter: read a slot, move the top
under some slots, cut the stack or fill it to a height.  The lemmas describe them on a
stack that is split in two, since a piece of code knows the slots that it pushed itself
and nothing of what lies below them.

## Main definitions

* `Acceptable s i`, `slot s i` — an index, and the slot that it names.
* `insertAt s i`, `setTop fill s h`, `replaceAt s i x` — the operations.
-/

namespace SeedCore.Stack

variable {α : Type}

/-- An index that may be asked for: from the bottom it may lie above the top. -/
def Acceptable (s : List α) (i : ℤ) : Prop := 0 < i ∨ (i < 0 ∧ -i ≤ s.length)

instance (s : List α) (i : ℤ) : Decidable (Acceptable s i) :=
  inferInstanceAs (Decidable (_ ∨ _))

/-- An index that names a slot. -/
def Valid (s : List α) (i : ℤ) : Prop := Acceptable s i ∧ i ≤ s.length

instance (s : List α) (i : ℤ) : Decidable (Valid s i) := inferInstanceAs (Decidable (_ ∧ _))

/-- The number of slots above the one that an index names. -/
def depth (s : List α) (i : ℤ) : ℕ := if 0 < i then (s.length - i).toNat else (-i - 1).toNat

/-- The slot that an index names, if there is one. -/
def slot (s : List α) (i : ℤ) : Option α := if i ≤ s.length then s[depth s i]? else none

/-- Put another value into a slot. -/
def replaceAt (s : List α) (i : ℤ) (x : α) : List α := s.set (depth s i) x

/-- Move the top into a slot and the slots from there on up by one. -/
def insertAt (s : List α) (i : ℤ) : List α :=
  match s with
  | [] => []
  | x :: rest => rest.take (depth s i) ++ x :: rest.drop (depth s i)

/-- The stack of a height `h ≥ 0`, filled up with `fill`, or with `-h - 1` slots less. -/
def setTop (fill : α) (s : List α) (h : ℤ) : List α :=
  if 0 ≤ h then List.replicate (h - s.length).toNat fill ++ s.drop (s.length - h).toNat
  else s.drop (-h - 1).toNat

/-! ## Counting from the top -/

theorem acceptable_neg {s : List α} {n : ℕ} (h : n < s.length) : Acceptable s (-(n : ℤ) - 1) :=
  .inr (by omega)

theorem valid_neg {s : List α} {n : ℕ} (h : n < s.length) : Valid s (-(n : ℤ) - 1) :=
  ⟨acceptable_neg h, by omega⟩

theorem depth_neg (s : List α) (n : ℕ) : depth s (-(n : ℤ) - 1) = n := by
  rw [depth, if_neg (by omega)]
  omega

theorem slot_neg (s : List α) (n : ℕ) : slot s (-(n : ℤ) - 1) = s[n]? := by
  rw [slot, if_pos (by omega), depth_neg]

/-- The slot that is named from the top lies right below `above`. -/
theorem slot_append_cons (above : List α) (x : α) (below : List α) {n : ℕ} (hn : n = above.length) :
    slot (above ++ x :: below) (-(n : ℤ) - 1) = some x := by
  rw [slot_neg, hn, List.getElem?_append_right (Nat.le_refl _), Nat.sub_self]
  rfl

/-- The top goes under the `n` slots below it. -/
theorem insertAt_append (x : α) (above below : List α) {n : ℕ} (hn : n = above.length) :
    insertAt (x :: above ++ below) (-(n : ℤ) - 1) = above ++ x :: below := by
  rw [List.cons_append, insertAt, depth_neg, hn, List.take_left, List.drop_left]

/-- Cutting off the slots of `above`. -/
theorem setTop_append (fill : α) (above below : List α) {n : ℕ} (hn : n = above.length) :
    setTop fill (above ++ below) (-(n : ℤ) - 1) = below := by
  have hdepth : (-(-(n : ℤ) - 1) - 1).toNat = above.length := by omega
  rw [setTop, if_neg (by omega), hdepth, List.drop_left]

/-! ## Counting from the bottom -/

/-- The slot that is named from the bottom. -/
theorem slot_pos {s : List α} {j : ℕ} {x : α} (h : s.reverse[j]? = some x) :
    slot s ((j : ℤ) + 1) = some x := by
  obtain ⟨hlt, -⟩ := List.getElem?_eq_some_iff.mp h
  rw [List.length_reverse] at hlt
  have hdepth : depth s ((j : ℤ) + 1) = s.length - 1 - j := by
    rw [depth, if_pos (by omega)]
    omega
  rw [slot, if_pos (by omega), hdepth, ← h, List.getElem?_reverse hlt]

/-- An index above all of `below` names one of the other slots. -/
theorem depth_lt_of_pos (above below : List α) {i : ℤ} (hlo : below.length < i)
    (hhi : i ≤ (above ++ below).length) : depth (above ++ below) i < above.length := by
  rw [depth, if_pos (by omega)]
  rw [List.length_append] at hhi ⊢
  push_cast at hhi ⊢
  omega

/-- Writing into a slot that is counted from the bottom. -/
theorem replaceAt_pos {s : List α} {j : ℕ} (h : j < s.length) (x : α) :
    replaceAt s.reverse ((j : ℤ) + 1) x = (s.set j x).reverse := by
  have hdepth : depth s.reverse ((j : ℤ) + 1) = s.length - 1 - j := by
    rw [depth, if_pos (by omega), List.length_reverse]
    omega
  rw [replaceAt, hdepth]
  refine List.ext_getElem? fun i => ?_
  by_cases hi : i < s.length
  · rw [List.getElem?_reverse (by simpa using hi), List.length_set, List.getElem?_set,
      List.getElem?_set, List.getElem?_reverse hi, List.length_reverse]
    by_cases hij : s.length - 1 - j = i
    · rw [if_pos hij, if_pos (by omega), if_pos (by omega), if_pos (by omega)]
    · rw [if_neg hij, if_neg (by omega)]
  · rw [List.getElem?_eq_none (by simp; omega), List.getElem?_eq_none (by simp; omega)]

/-- Writing into another slot leaves `below` alone. -/
theorem replaceAt_append (above below : List α) {i : ℤ}
    (h : depth (above ++ below) i < above.length) (x : α) :
    replaceAt (above ++ below) i x = above.set (depth (above ++ below) i) x ++ below :=
  List.set_append_left _ _ h

end SeedCore.Stack
