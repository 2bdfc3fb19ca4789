import Mathlib.Data.List.Pairwise
import Mathlib.Data.List.Nodup
import Mathlib.Data.List.TakeDrop
import Mathlib.Order.Defs.Unbundled

/-!
# Ordered sets

A set as its elements in the order of a comparison, which is the order in which a C++ program
iterates over a `std::set`.  Two elements neither of which precedes the other are one element to
such a set, and the first one stays.  When the comparison tells any two elements apart, a list
without repetitions becomes a set with the same elements, in whatever order they come.

## Main definitions

* `OrderedSet r` — the set, and `insert`, `insertAll`.
* `insertAll_perm` — nothing is lost when the comparison is total.
* `take_precedes` — the first elements precede the others.
-/

namespace SeedCore

universe u

/-- A finite set, as its elements in the order of `r`. -/
structure OrderedSet {α : Type u} (r : α → α → Prop) where
  elems : List α
  sorted : elems.Pairwise r

namespace OrderedSet

variable {α : Type u} {r : α → α → Prop}

/-- The set without elements. -/
def empty : OrderedSet r := ⟨[], List.Pairwise.nil⟩

section Insert

variable [DecidableRel r]

/-- Put an element in its place, unless one that counts as the same is there. -/
def insertElem (r : α → α → Prop) [DecidableRel r] (x : α) : List α → List α
  | [] => [x]
  | y :: l => if r x y then x :: y :: l else if r y x then y :: insertElem r x l else y :: l

theorem mem_insertElem {x z : α} {l : List α} (h : z ∈ insertElem r x l) : z = x ∨ z ∈ l := by
  induction l with
  | nil => exact .inl (List.mem_singleton.mp h)
  | cons y l ih =>
      rw [insertElem] at h
      split at h
      · exact List.mem_cons.mp h
      · split at h
        · rcases List.mem_cons.mp h with rfl | h
          · exact .inr List.mem_cons_self
          · exact (ih h).imp_right (List.mem_cons_of_mem _)
        · exact .inr h

theorem sorted_insertElem [IsTrans α r] (x : α) {l : List α} (h : l.Pairwise r) :
    (insertElem r x l).Pairwise r := by
  induction l with
  | nil => exact List.pairwise_singleton _ _
  | cons y l ih =>
      obtain ⟨hy, hl⟩ := List.pairwise_cons.mp h
      rw [insertElem]
      split
      · next hxy =>
          refine List.pairwise_cons.mpr ⟨List.forall_mem_cons.mpr ⟨hxy, ?_⟩, h⟩
          intro z hz
          exact IsTrans.trans x y z hxy (hy z hz)
      · split
        · next hyx =>
            refine List.pairwise_cons.mpr ⟨?_, ih hl⟩
            intro z hz
            rcases mem_insertElem hz with rfl | hz
            · exact hyx
            · exact hy z hz
        · exact h

/-- A new element is added and nothing else. -/
theorem insertElem_perm [Std.Trichotomous r] {x : α} {l : List α} (h : x ∉ l) :
    (insertElem r x l).Perm (x :: l) := by
  induction l with
  | nil => exact .rfl
  | cons y l ih =>
      rw [List.mem_cons, not_or] at h
      rw [insertElem]
      split
      · exact .rfl
      · next hxy =>
          split
          · exact ((ih h.2).cons y).trans (.swap ..)
          · next hyx => exact absurd (Std.Trichotomous.trichotomous x y hxy hyx) h.1

variable [IsTrans α r]

/-- `std::set::insert` -/
def insert (s : OrderedSet r) (x : α) : OrderedSet r :=
  ⟨insertElem r x s.elems, sorted_insertElem x s.sorted⟩

/-- Insert elements one after the other. -/
def insertAll (s : OrderedSet r) (l : List α) : OrderedSet r := l.foldl insert s

/-- **Nothing is lost**: elements that are told apart are all there in the end. -/
theorem insertAll_perm [Std.Trichotomous r] {s : OrderedSet r} {l : List α}
    (h : (s.elems ++ l).Nodup) : (s.insertAll l).elems.Perm (s.elems ++ l) := by
  induction l generalizing s with
  | nil => simp [insertAll]
  | cons x l ih =>
      have hnew : x ∉ s.elems := by
        intro hmem
        exact (List.nodup_append.mp h).2.2 x hmem x List.mem_cons_self rfl
      have hput : (s.insert x).elems.Perm (x :: s.elems) := insertElem_perm hnew
      have hmove : ((s.insert x).elems ++ l).Perm (s.elems ++ x :: l) :=
        (hput.append_right l).trans List.perm_middle.symm
      exact (ih (hmove.nodup_iff.mpr h)).trans hmove

end Insert

/-- The first elements precede the others. -/
theorem take_precedes (s : OrderedSet r) (n : ℕ) {x y : α} (hx : x ∈ s.elems.take n)
    (hy : y ∈ s.elems) (hout : y ∉ s.elems.take n) : r x y := by
  have hsplit : (s.elems.take n ++ s.elems.drop n).Pairwise r := by
    rw [List.take_append_drop]
    exact s.sorted
  have hdrop : y ∈ s.elems.drop n := by
    rw [← List.take_append_drop n s.elems] at hy
    exact (List.mem_append.mp hy).resolve_left hout
  exact (List.pairwise_append.mp hsplit).2.2 x hx y hdrop

end OrderedSet

end SeedCore
