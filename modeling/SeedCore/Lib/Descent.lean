import Mathlib.Data.List.Chain
import Mathlib.Data.Set.Card

/-!
# Recursion with a limit on its depth

A recursion over the children of a value, of which only so many calls may be nested.  It comes to
its end exactly when every chain of children is shorter than the limit, and what it returns is the
same for every limit that is enough.  Where only finitely many values are reached, some limit is
enough unless one of these values reaches itself.

## Main definitions

* `HasChild children`, `ReachedFrom children a` — the children as a relation, and what it reaches.
* `descend children combine depth a` — the recursion.

## Main results

* `isSome_descend_iff` — which limits are enough.
* `exists_isSome_descend_iff` — whether there is one.
-/

namespace SeedCore

open Relation

universe u v

variable {α : Type u} {β : Type v}

/-- The list of children, as a relation. -/
def HasChild (children : α → List α) (a b : α) : Prop := b ∈ children a

/-- The values that are reached from one, itself among them. -/
def ReachedFrom (children : α → List α) (a : α) : Set α := {b | ReflTransGen (HasChild children) a b}

/-- The recursion, with at most `depth` calls nested. -/
def descend (children : α → List α) (combine : α → List β → β) : ℕ → α → Option β
  | 0, _ => none
  | depth + 1, a => ((children a).mapM (descend children combine depth)).map (combine a)

section ListMap

variable {f g : α → Option β} {l : List α}

theorem isSome_mapM_iff : (l.mapM f).isSome = true ↔ ∀ a ∈ l, (f a).isSome = true := by
  induction l with
  | nil => simp
  | cons a l ih =>
      rw [List.forall_mem_cons, ← ih, List.mapM_cons]
      cases f a <;> cases l.mapM f <;> simp

theorem mapM_mono (h : ∀ a b, f a = some b → g a = some b) {bs : List β}
    (hl : l.mapM f = some bs) : l.mapM g = some bs := by
  induction l generalizing bs with
  | nil => exact hl
  | cons a l ih =>
      rw [List.mapM_cons] at hl ⊢
      obtain ⟨b, hb, hl⟩ := Option.bind_eq_some_iff.mp hl
      obtain ⟨bs', hbs, hl⟩ := Option.bind_eq_some_iff.mp hl
      rw [h a b hb]
      exact Option.bind_eq_some_iff.mpr ⟨b, rfl, Option.bind_eq_some_iff.mpr ⟨bs', ih hbs, hl⟩⟩

end ListMap

section Descend

variable {children : α → List α} {combine : α → List β → β} {depth depth' : ℕ} {a b : α} {r : β}

theorem descend_succ_eq_some_iff : descend children combine (depth + 1) a = some r ↔
    ∃ rs, (children a).mapM (descend children combine depth) = some rs ∧ combine a rs = r :=
  Option.map_eq_some_iff

theorem isSome_descend_succ_iff : (descend children combine (depth + 1) a).isSome = true ↔
    ∀ b, HasChild children a b → (descend children combine depth b).isSome = true := by
  rw [descend, Option.isSome_map, isSome_mapM_iff]
  rfl

/-- **A higher limit changes nothing.** -/
theorem descend_mono (h : descend children combine depth a = some r) (hle : depth ≤ depth') :
    descend children combine depth' a = some r := by
  induction depth generalizing depth' a r with
  | zero => cases h
  | succ depth ih =>
      obtain ⟨k, rfl⟩ := Nat.exists_eq_add_of_le' hle
      obtain ⟨rs, hrs, hr⟩ := descend_succ_eq_some_iff.mp h
      have hbelow : ∀ b r, descend children combine depth b = some r →
          descend children combine (k + depth) b = some r := fun b r hb => ih hb (by omega)
      have hrs' := mapM_mono hbelow hrs
      exact descend_succ_eq_some_iff.mpr ⟨rs, hrs', hr⟩

/-- **Which limits are enough**: those that are above the length of every chain of children. -/
theorem isSome_descend_iff : (descend children combine depth a).isSome = true ↔
    ∀ path, List.IsChain (HasChild children) (a :: path) → path.length < depth := by
  induction depth generalizing a with
  | zero =>
      refine ⟨fun h => absurd h Bool.false_ne_true, fun h => ?_⟩
      have hlt := h [] (List.isChain_singleton a)
      omega
  | succ depth ih =>
      rw [isSome_descend_succ_iff]
      constructor
      · intro h path hpath
        cases path with
        | nil => exact Nat.succ_pos _
        | cons b path =>
            obtain ⟨hab, hpath⟩ := List.isChain_cons_cons.mp hpath
            have hlt := ih.mp (h b hab) path hpath
            rw [List.length_cons]
            omega
      · intro h b hab
        refine ih.mpr fun path hpath => ?_
        have hlt := h (b :: path) (List.isChain_cons_cons.mpr ⟨hab, hpath⟩)
        rw [List.length_cons] at hlt
        omega

/-- What lies below takes fewer nested calls. -/
theorem isSome_descend_of_transGen (hab : TransGen (HasChild children) a b)
    (h : (descend children combine (depth + 1) a).isSome = true) :
    (descend children combine depth b).isSome = true := by
  induction hab with
  | single hab => exact isSome_descend_succ_iff.mp h _ hab
  | @tail b c _ hbc ih =>
      cases depth with
      | zero => cases ih
      | succ depth =>
          obtain ⟨r, hr⟩ := Option.isSome_iff_exists.mp (isSome_descend_succ_iff.mp ih c hbc)
          rw [descend_mono hr (Nat.le_succ _)]
          rfl

theorem not_isSome_descend_of_cycle (hcycle : TransGen (HasChild children) a a) :
    ¬(descend children combine depth a).isSome = true := by
  induction depth with
  | zero => exact Bool.false_ne_true
  | succ depth ih => exact fun h => ih (isSome_descend_of_transGen hcycle h)

end Descend

section Finite

variable {children : α → List α} {combine : α → List β → β} {a : α}

theorem reached_subset {b : α} (hab : HasChild children a b) :
    ReachedFrom children b ⊆ ReachedFrom children a := fun _ hbc => hbc.head hab

theorem ncard_reached_lt {b : α} (hfin : (ReachedFrom children a).Finite) (hab : HasChild children a b)
    (hcycle : ¬TransGen (HasChild children) a a) :
    (ReachedFrom children b).ncard < (ReachedFrom children a).ncard := by
  refine Set.ncard_lt_ncard ⟨reached_subset hab, fun hsub => hcycle ?_⟩ hfin
  have hba : ReflTransGen (HasChild children) b a := hsub ReflTransGen.refl
  exact TransGen.head' hab hba

/-- Without a cycle, as many nested calls as there are values to reach are enough. -/
theorem isSome_descend_ncard (hfin : (ReachedFrom children a).Finite)
    (hcycle : ∀ b ∈ ReachedFrom children a, ¬TransGen (HasChild children) b b) {depth : ℕ}
    (hle : (ReachedFrom children a).ncard ≤ depth) :
    (descend children combine depth a).isSome = true := by
  induction depth generalizing a with
  | zero =>
      have hself : a ∈ ReachedFrom children a := ReflTransGen.refl
      have hpos := (Set.ncard_pos hfin).mpr ⟨a, hself⟩
      omega
  | succ depth ih =>
      refine isSome_descend_succ_iff.mpr fun b hab => ?_
      have hsub := reached_subset hab
      have hlt := ncard_reached_lt hfin hab (hcycle a ReflTransGen.refl)
      exact ih (hfin.subset hsub) (fun c hc => hcycle c (hsub hc)) (by omega)

/-- **Whether some limit is enough**: it is unless a value that is reached reaches itself. -/
theorem exists_isSome_descend_iff (hfin : (ReachedFrom children a).Finite) :
    (∃ depth, (descend children combine depth a).isSome = true) ↔
      ∀ b ∈ ReachedFrom children a, ¬TransGen (HasChild children) b b := by
  refine ⟨?_, fun h => ⟨_, isSome_descend_ncard hfin h le_rfl⟩⟩
  rintro ⟨depth, h⟩ b hab hcycle
  rcases reflTransGen_iff_eq_or_transGen.mp hab with rfl | hab
  · exact not_isSome_descend_of_cycle hcycle h
  · cases depth with
    | zero => cases h
    | succ depth => exact not_isSome_descend_of_cycle hcycle (isSome_descend_of_transGen hab h)

end Finite

end SeedCore
