import Mathlib.Order.Lattice

/-!
# Ordered maps

A map as its entries in the order of the keys, which is the order in which a C++
program iterates over a `std::map`.  The order is part of the type, so two maps are
equal exactly when they have the same entries.
-/

namespace SeedCore

universe u v

/-- A finite map from `κ` to `ν`, as its entries in ascending order of the keys. -/
@[ext] structure OrderedMap (κ : Type u) (ν : Type v) [LinearOrder κ] where
  entries : List (κ × ν)
  sorted : entries.Pairwise fun p q => p.1 < q.1

namespace OrderedMap

variable {κ : Type u} {ν : Type v} [LinearOrder κ]

/-- The map without entries. -/
def empty : OrderedMap κ ν := ⟨[], List.Pairwise.nil⟩

/-- Put an entry in its place, unless the key is there. -/
def emplaceEntry (k : κ) (v : ν) : List (κ × ν) → List (κ × ν)
  | [] => [(k, v)]
  | p :: l =>
      if k < p.1 then (k, v) :: p :: l
      else if k = p.1 then p :: l
      else p :: emplaceEntry k v l

theorem mem_emplaceEntry {k : κ} {v : ν} {l : List (κ × ν)} {p : κ × ν}
    (h : p ∈ emplaceEntry k v l) : p = (k, v) ∨ p ∈ l := by
  induction l with
  | nil => exact .inl (List.mem_singleton.mp h)
  | cons q l ih =>
      rw [emplaceEntry] at h
      split at h
      · exact List.mem_cons.mp h
      · split at h
        · exact .inr h
        · rcases List.mem_cons.mp h with rfl | h
          · exact .inr List.mem_cons_self
          · exact (ih h).imp_right (List.mem_cons_of_mem _)

theorem sorted_emplaceEntry (k : κ) (v : ν) {l : List (κ × ν)}
    (h : l.Pairwise fun p q => p.1 < q.1) :
    (emplaceEntry k v l).Pairwise fun p q => p.1 < q.1 := by
  induction l with
  | nil => exact List.pairwise_singleton _ _
  | cons p l ih =>
      obtain ⟨hp, hl⟩ := List.pairwise_cons.mp h
      rw [emplaceEntry]
      split
      · next hlt =>
          refine List.pairwise_cons.mpr ⟨List.forall_mem_cons.mpr ⟨hlt, ?_⟩, h⟩
          intro q hq
          exact lt_trans hlt (hp q hq)
      · next hnlt =>
          split
          · exact h
          · next hne =>
              refine List.pairwise_cons.mpr ⟨?_, ih hl⟩
              intro q hq
              rcases mem_emplaceEntry hq with rfl | hq
              · exact lt_of_le_of_ne (not_lt.mp hnlt) (Ne.symm hne)
              · exact hp q hq

/-- `std::map::emplace`: an entry that is there keeps its value. -/
def emplace (m : OrderedMap κ ν) (k : κ) (v : ν) : OrderedMap κ ν :=
  ⟨emplaceEntry k v m.entries, sorted_emplaceEntry k v m.sorted⟩

/-- Emplace entries one after the other. -/
def emplaceAll (m : OrderedMap κ ν) (l : List (κ × ν)) : OrderedMap κ ν :=
  l.foldl (fun m p => m.emplace p.1 p.2) m

/-- A new key adds its entry and nothing else. -/
theorem emplaceEntry_perm {k : κ} (v : ν) {l : List (κ × ν)} (h : k ∉ l.map Prod.fst) :
    (emplaceEntry k v l).Perm ((k, v) :: l) := by
  induction l with
  | nil => exact .rfl
  | cons p l ih =>
      rw [List.map_cons, List.mem_cons, not_or] at h
      rw [emplaceEntry]
      split
      · exact .rfl
      · rw [if_neg h.1]
        exact ((ih h.2).cons p).trans (.swap ..)

theorem emplaceAll_perm {m : OrderedMap κ ν} {l : List (κ × ν)}
    (h : (m.entries.map Prod.fst ++ l.map Prod.fst).Nodup) :
    (m.emplaceAll l).entries.Perm (m.entries ++ l) := by
  induction l generalizing m with
  | nil => simp [emplaceAll]
  | cons p l ih =>
      have hnew : p.1 ∉ m.entries.map Prod.fst := by
        intro hmem
        exact (List.nodup_append.mp h).2.2 _ hmem _ List.mem_cons_self rfl
      have hput : (m.emplace p.1 p.2).entries.Perm (p :: m.entries) :=
        emplaceEntry_perm p.2 hnew
      have hkeys : ((m.emplace p.1 p.2).entries.map Prod.fst ++ l.map Prod.fst).Nodup := by
        refine (List.Perm.nodup_iff ?_).mpr h
        rw [List.map_cons]
        exact ((hput.map Prod.fst).append_right _).trans List.perm_middle.symm
      exact (ih hkeys).trans ((hput.append_right l).trans List.perm_middle.symm)

theorem nodup_keys (m : OrderedMap κ ν) : (m.entries.map Prod.fst).Nodup :=
  List.pairwise_map.mpr (m.sorted.imp fun h => ne_of_lt h)

/-- **A map is built from its entries in any order.** -/
theorem emplaceAll_empty {m : OrderedMap κ ν} {l : List (κ × ν)} (h : l.Perm m.entries) :
    (empty : OrderedMap κ ν).emplaceAll l = m := by
  have hkeys : ((empty : OrderedMap κ ν).entries.map Prod.fst ++ l.map Prod.fst).Nodup := by
    refine (List.Perm.nodup_iff ?_).mpr m.nodup_keys
    exact h.map Prod.fst
  ext1
  refine List.Perm.eq_of_pairwise ?_ ((empty : OrderedMap κ ν).emplaceAll l).sorted m.sorted
    ((emplaceAll_perm hkeys).trans h)
  intro p q _ _ hpq hqp
  exact absurd hqp (not_lt_of_gt hpq)

end OrderedMap

end SeedCore
