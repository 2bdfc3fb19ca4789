import Mathlib.Logic.Basic

/-!
# Runs

Small tools for programs given as step functions.  A computation in `Except`
that ends well is peeled apart by `bind_eq_ok`, without unfolding the rest of it.
A system is a partial step function; `Run` is a sequence of enabled actions, and
what every enabled step keeps, every run keeps.  `Simulates` relates two systems of
which the one may do more than the other: actions that stand for none of the other are
seen as nothing.
-/

namespace SeedCore

universe u v

/-- A sequence of two computations ends well exactly when both do. -/
theorem bind_eq_ok {ε : Type u} {α β : Type v} {x : Except ε α} {f : α → Except ε β} {b : β} :
    x >>= f = .ok b ↔ ∃ a, x = .ok a ∧ f a = .ok b := by
  cases x <;> simp [bind, Except.bind]

/-- A computation whose observation `f` is known ended well. -/
theorem exists_ok_of_map {ε : Type u} {α β : Type v} {x : Except ε α} {f : α → β} {b : β}
    (h : x.toOption.map f = some b) : ∃ a, x = .ok a ∧ f a = b := by
  cases x with
  | error e => cases h
  | ok a => exact ⟨a, rfl, Option.some.inj h⟩

section System

variable {σ : Type u} {α : Type v} {step : σ → α → Option σ}

/-- `Run step s as s'`: the actions `as` are enabled one after the other from `s`,
and lead to `s'`. -/
inductive Run (step : σ → α → Option σ) : σ → List α → σ → Prop
  | nil (s : σ) : Run step s [] s
  | cons {s t u : σ} {a : α} {as : List α} (head : step s a = some t) (tail : Run step t as u) :
      Run step s (a :: as) u

/-- **Induction along a run.**  What every enabled step by an allowed action preserves
holds at the end of every run of allowed actions. -/
theorem Run.invariant {P : σ → Prop} {Q : α → Prop}
    (hstep : ∀ s a t, Q a → step s a = some t → P s → P t)
    {s s' : σ} {as : List α} (h : Run step s as s') (has : ∀ a ∈ as, Q a) (hs : P s) : P s' := by
  induction h with
  | nil s => exact hs
  | cons head _ ih =>
      exact ih (fun a ha => has a (List.mem_cons_of_mem _ ha))
        (hstep _ _ _ (has _ List.mem_cons_self) head hs)

/-- Along a run from `s`, every action that is taken meets a condition, which may look at the
state before it. -/
def Along (step : σ → α → Option σ) (Q : σ → α → Prop) : σ → List α → Prop
  | _, [] => True
  | s, a :: as => Q s a ∧ ∀ t, step s a = some t → Along step Q t as

/-- Whether the actions meet it can be computed. -/
instance decidableAlong {Q : σ → α → Prop} [∀ s a, Decidable (Q s a)] :
    ∀ (s : σ) (as : List α), Decidable (Along step Q s as)
  | _, [] => isTrue trivial
  | s, a :: as =>
      match h : step s a with
      | none => decidable_of_iff (Q s a) ⟨fun ha => ⟨ha, fun t ht => by rw [h] at ht; cases ht⟩,
          And.left⟩
      | some t =>
          have : Decidable (Along step Q t as) := decidableAlong t as
          decidable_of_iff (Q s a ∧ Along step Q t as)
            ⟨fun hrest => ⟨hrest.1, fun t' ht' => by rw [h] at ht'; cases ht'; exact hrest.2⟩,
              fun hrest => ⟨hrest.1, hrest.2 t h⟩⟩

/-- **Induction along a run** whose actions meet such a condition. -/
theorem Run.invariant_along {P : σ → Prop} {Q : σ → α → Prop}
    (hstep : ∀ s a t, Q s a → step s a = some t → P s → P t)
    {s s' : σ} {as : List α} (h : Run step s as s') (has : Along step Q s as) (hs : P s) :
    P s' := by
  induction h with
  | nil s => exact hs
  | cons head _ ih =>
      obtain ⟨ha, hrest⟩ := has
      exact ih (hrest _ head) (hstep _ _ _ ha head hs)

/-- Runs can be computed. -/
theorem run_iff_foldlM {s s' : σ} {as : List α} : Run step s as s' ↔ as.foldlM step s = some s' := by
  induction as generalizing s with
  | nil =>
      refine ⟨fun h => by cases h; rfl, fun h => ?_⟩
      cases h
      exact .nil _
  | cons a as ih =>
      rw [List.foldlM_cons, Option.bind_eq_bind, Option.bind_eq_some_iff]
      constructor
      · rintro (_ | ⟨head, tail⟩)
        exact ⟨_, head, ih.mp tail⟩
      · rintro ⟨t, head, tail⟩
        exact .cons head (ih.mpr tail)

/-- A run splits where its list of actions does. -/
theorem run_append {s u : σ} {as bs : List α} :
    Run step s (as ++ bs) u ↔ ∃ t, Run step s as t ∧ Run step t bs u := by
  induction as generalizing s with
  | nil =>
      refine ⟨fun h => ⟨s, .nil s, h⟩, ?_⟩
      rintro ⟨t, h, h'⟩
      cases h
      exact h'
  | cons a as ih =>
      constructor
      · rintro (_ | ⟨head, tail⟩)
        obtain ⟨t, h, h'⟩ := ih.mp tail
        exact ⟨t, .cons head h, h'⟩
      · rintro ⟨t, h, h'⟩
        obtain _ | ⟨head, tail⟩ := h
        exact .cons head (ih.mpr ⟨t, tail, h'⟩)

end System

section Simulation

variable {σ τ : Type u} {α β : Type v} {step : σ → α → Option σ} {view : τ → β → Option τ}
  {own : α → Option β} {R : σ → τ → Prop}

/-- Through `R`, a step is a step of the other system by the action that it stands for,
or leaves it where it is. -/
def Simulates (step : σ → α → Option σ) (view : τ → β → Option τ) (own : α → Option β)
    (R : σ → τ → Prop) : Prop :=
  ∀ s t a c, R s c → step s a = some t →
    match own a with
    | none => R t c
    | some b => ∃ d, view c b = some d ∧ R t d

/-- A run is, through `R`, a run of the other system by the actions that stand for
one of its own. -/
theorem Simulates.run (hsim : Simulates step view own R) {s s' : σ} {as : List α} {c : τ}
    (h : Run step s as s') (hs : R s c) : ∃ d, Run view c (as.filterMap own) d ∧ R s' d := by
  induction h generalizing c with
  | nil s => exact ⟨c, .nil c, hs⟩
  | @cons s t u a as head _ ih =>
      have hstep := hsim s t a c hs head
      cases hown : own a with
      | none =>
          rw [hown] at hstep
          rw [List.filterMap_cons_none hown]
          exact ih hstep
      | some b =>
          rw [hown] at hstep
          obtain ⟨d, hview, hd⟩ := hstep
          obtain ⟨e, hrun, he⟩ := ih hd
          rw [List.filterMap_cons_some hown]
          exact ⟨e, .cons hview hrun, he⟩

end Simulation

end SeedCore
