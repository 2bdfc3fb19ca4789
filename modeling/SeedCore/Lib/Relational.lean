import SeedCore.Lib.Triple

/-!
# Two programs side by side

Programs with a state and errors, over different types of states, that do the same as far as
relations on the states and values can tell: both end with a value, or both stop with the same
error, in related states.

## Main definitions

* `SameEnds Q E r r'` — two results are the same, up to `Q` and `E`.

## Main results

* `SameEnds.bind` — sequences of programs that do the same do the same.
-/

namespace SeedCore

universe u

variable {ε σ τ α β γ δ : Type u}

/-- Both results are values with `Q`, or they are the same error in states with `E`. -/
def SameEnds (Q : α → σ → β → τ → Prop) (E : σ → τ → Prop) :
    EStateM.Result ε σ α → EStateM.Result ε τ β → Prop
  | .ok a s, .ok b t => Q a s b t
  | .error e s, .error e' t => e = e' ∧ E s t
  | _, _ => False

section Rules

variable {x : EStateM ε σ α} {y : EStateM ε τ β} {f : α → EStateM ε σ γ} {g : β → EStateM ε τ δ}
  {Q Q' : α → σ → β → τ → Prop} {R : γ → σ → δ → τ → Prop} {E E' : σ → τ → Prop}

theorem SameEnds.weaken {r : EStateM.Result ε σ α} {r' : EStateM.Result ε τ β}
    (h : SameEnds Q E r r') (hQ : ∀ a s b t, Q a s b t → Q' a s b t)
    (hE : ∀ s t, E s t → E' s t) : SameEnds Q' E' r r' := by
  cases r with
  | ok a s =>
      cases r' with
      | ok b t => exact hQ a s b t h
      | error e' t => exact h.elim
  | error e s =>
      cases r' with
      | ok b t => exact h.elim
      | error e' t => exact ⟨h.1, hE s t h.2⟩

/-- **Sequences.**  The second programs start from where the first ones have come to. -/
theorem SameEnds.bind {s : σ} {t : τ} (hx : SameEnds Q E (x s) (y t))
    (hf : ∀ a s' b t', y t = .ok b t' → Q a s' b t' → SameEnds R E (f a s') (g b t')) :
    SameEnds R E ((x >>= f) s) ((y >>= g) t) := by
  cases hr : x s with
  | ok a s' =>
      cases hr' : y t with
      | ok b t' =>
          rw [hr, hr'] at hx
          rw [bind_ok hr, bind_ok hr']
          exact hf a s' b t' hr' hx
      | error e' t' =>
          rw [hr, hr'] at hx
          exact hx.elim
  | error e s' =>
      cases hr' : y t with
      | ok b t' =>
          rw [hr, hr'] at hx
          exact hx.elim
      | error e' t' =>
          rw [hr, hr'] at hx
          rw [bind_error hr, bind_error hr']
          exact hx

end Rules

end SeedCore
