import Mathlib.Logic.Basic

/-!
# Programs with state and what holds after them

A program over states `σ` is an `EStateM ε σ α`: it ends with a value, or it stops with
a reason, and in both cases it leaves a state.  So a statement about everything that a
program does before it stops is a statement about that state.  `Triple P x Q E` has one
postcondition for each of the two ends.

## Main definitions

* `finalState r` — the state that a program leaves.
* `Triple P x Q E` — partial correctness, with a postcondition for a program that stops.
* `Keeps P x` — the program keeps `P`, however it ends.
* `bind_ok`, `bind_error`, `ok_of_bind` — running a sequence of two programs.
* `observed f r` — an observation of a program that ended with a value.
-/

namespace SeedCore

universe u

variable {ε σ α β : Type u}

/-- The state that a program leaves, whether it ends or stops. -/
def finalState : EStateM.Result ε σ α → σ
  | .ok _ s => s
  | .error _ s => s

/-- What a program came to: a value and a state with `Q`, or a state with `E`. -/
def Ends (Q : α → σ → Prop) (E : σ → Prop) : EStateM.Result ε σ α → Prop
  | .ok a s => Q a s
  | .error _ s => E s

/-- From a state with `P` the program ends with a value and a state with `Q`, or stops in
a state with `E`. -/
def Triple (P : σ → Prop) (x : EStateM ε σ α) (Q : α → σ → Prop) (E : σ → Prop) : Prop :=
  ∀ s, P s → Ends Q E (x s)

/-- The program keeps `P`, however it ends. -/
def Keeps (P : σ → Prop) (x : EStateM ε σ α) : Prop := Triple P x (fun _ => P) P

/-! ## Running a sequence -/

section Bind

variable {x : EStateM ε σ α} {f : α → EStateM ε σ β} {s s' s'' : σ} {a : α} {b : β} {e : ε}

theorem bind_ok (h : x s = .ok a s') : (x >>= f) s = f a s' := by
  change EStateM.bind x f s = _
  rw [EStateM.bind, h]

theorem bind_error (h : x s = .error e s') : (x >>= f) s = .error e s' := by
  change EStateM.bind x f s = _
  rw [EStateM.bind, h]

/-- A sequence ends with a value when its two programs do. -/
theorem ok_of_bind (h : (x >>= f) s = .ok b s'') : ∃ a s', x s = .ok a s' ∧ f a s' = .ok b s'' := by
  cases hx : x s with
  | ok a s' => exact ⟨a, s', rfl, by rw [← h, bind_ok hx]⟩
  | error e s' =>
      rw [bind_error hx] at h
      cases h

end Bind

/-- What is observed of a program that ended with a value. -/
def observed (f : α → σ → β) : EStateM.Result ε σ α → Option β
  | .ok a s => some (f a s)
  | .error _ _ => none

theorem exists_ok_of_observed {r : EStateM.Result ε σ α} {f : α → σ → β} {b : β}
    (h : observed f r = some b) : ∃ a s, r = .ok a s ∧ f a s = b := by
  cases r with
  | ok a s => exact ⟨a, s, rfl, Option.some.inj h⟩
  | error e s => cases h

section Rules

variable {P P' : σ → Prop} {x : EStateM ε σ α} {f : α → EStateM ε σ β}
  {Q Q' : α → σ → Prop} {R : β → σ → Prop} {E E' : σ → Prop}

theorem Ends.weaken {r : EStateM.Result ε σ α} (h : Ends Q E r) (hQ : ∀ a s, Q a s → Q' a s)
    (hE : ∀ s, E s → E' s) : Ends Q' E' r := by
  cases r with
  | ok a s => exact hQ a s h
  | error e s => exact hE s h

theorem Triple.of_ok (h : Triple P x Q E) {s s' : σ} {a : α} (hs : P s) (hx : x s = .ok a s') :
    Q a s' := by
  have hr := h s hs
  rw [hx] at hr
  exact hr

/-- What both postconditions give holds of the state that the program leaves. -/
theorem Triple.finalState {F : σ → Prop} (h : Triple P x Q E) (hQ : ∀ a s, Q a s → F s)
    (hE : ∀ s, E s → F s) {s : σ} (hs : P s) : F (finalState (x s)) := by
  have hx := h s hs
  cases hr : x s with
  | ok a s' =>
      rw [hr] at hx
      exact hQ a s' hx
  | error e s' =>
      rw [hr] at hx
      exact hE s' hx

theorem Keeps.finalState (h : Keeps P x) {s : σ} (hs : P s) : P (finalState (x s)) :=
  Triple.finalState h (fun _ _ hp => hp) (fun _ hp => hp) hs

theorem Triple.pure {a : α} (h : ∀ s, P s → Q a s) :
    Triple P (Pure.pure a : EStateM ε σ α) Q E := fun s hs => h s hs

theorem Triple.throw {e : ε} (h : ∀ s, P s → E s) :
    Triple P (throw e : EStateM ε σ α) Q E := fun s hs => h s hs

/-- **Sequencing.**  What holds after the first program is what the second starts from. -/
theorem Triple.bind (hx : Triple P x Q E) (hf : ∀ a, Triple (Q a) (f a) R E) :
    Triple P (x >>= f) R E := by
  intro s hs
  have h := hx s hs
  change Ends R E (EStateM.bind x f s)
  unfold EStateM.bind
  cases hr : x s with
  | ok a s' =>
      rw [hr] at h
      exact hf a s' h
  | error e s' =>
      rw [hr] at h
      exact h

/-- A condition of the program is known in its two branches. -/
theorem Triple.ite {c : Prop} [Decidable c] {y : EStateM ε σ α} (ht : c → Triple P x Q E)
    (he : ¬c → Triple P y Q E) : Triple P (if c then x else y) Q E := by
  split
  · next h => exact ht h
  · next h => exact he h

/-- Two specifications of one program. -/
theorem Triple.and (h : Triple P x Q E) (h' : Triple P x Q' E') :
    Triple P x (fun a s => Q a s ∧ Q' a s) (fun s => E s ∧ E' s) := by
  intro s hs
  have hx := h s hs
  have hx' := h' s hs
  cases hr : x s with
  | ok a s' =>
      rw [hr] at hx hx'
      exact ⟨hx, hx'⟩
  | error e s' =>
      rw [hr] at hx hx'
      exact ⟨hx, hx'⟩

/-- Strengthening what is assumed and weakening what is concluded. -/
theorem Triple.weaken (h : Triple P x Q E) (hP : ∀ s, P' s → P s)
    (hQ : ∀ a s, Q a s → Q' a s) (hE : ∀ s, E s → E' s) : Triple P' x Q' E' := by
  intro s hs
  exact (h s (hP s hs)).weaken hQ hE

theorem Triple.assume (h : Triple P x Q E) (hP : ∀ s, P' s → P s) : Triple P' x Q E :=
  h.weaken hP (fun _ _ hq => hq) (fun _ he => he)

theorem Triple.stops (h : Triple P x Q E) (hE : ∀ s, E s → E' s) : Triple P x Q E' :=
  h.weaken (fun _ hp => hp) (fun _ _ hq => hq) hE

end Rules

section Keeping

variable {P : σ → Prop} {x : EStateM ε σ α} {f : α → EStateM ε σ β}

theorem Keeps.pure (a : α) : Keeps P (Pure.pure a : EStateM ε σ α) := Triple.pure fun _ h => h

theorem Keeps.throw (e : ε) : Keeps P (throw e : EStateM ε σ α) := Triple.throw fun _ h => h

theorem Keeps.bind (hx : Keeps P x) (hf : ∀ a, Keeps P (f a)) : Keeps P (x >>= f) :=
  Triple.bind hx hf

theorem Keeps.ite {c : Prop} [Decidable c] {y : EStateM ε σ α} (hx : Keeps P x) (hy : Keeps P y) :
    Keeps P (if c then x else y) := Triple.ite (fun _ => hx) (fun _ => hy)

/-- A program that moves along `R` keeps what `R` keeps. -/
theorem Keeps.along {R : σ → σ → Prop} (hR : ∀ s, R s s) (h : ∀ s, Keeps (R s) x)
    (hP : ∀ s s', P s → R s s' → P s') : Keeps P x := by
  intro s hs
  exact (h s s (hR s)).weaken (fun _ s' => hP s s' hs) (fun s' => hP s s' hs)

end Keeping

end SeedCore
