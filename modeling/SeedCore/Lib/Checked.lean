import SeedCore.Lib.Triple

/-!
# Programs with checks

A program of `EStateM` with checks in between: what it does is not defined any more once a check
has failed.  As long as none does, it is the program without the checks.  So whether all checks
pass can be found out step by step, along the run of the program without them.

## Main definitions

* `CheckedM ε σ α` — a program with checks.
* `lift x` — a program without, and `ensuring p x` — one after which `p` is checked.
* `Erases y x` — without its checks, `y` is `x`.
* `Passes y s` — from the state `s`, all checks pass.
* `passes_bind` — the rule for a sequence.
-/

namespace SeedCore

universe u

/-- A program with checks; there is no result when a check fails. -/
def CheckedM (ε σ α : Type u) := σ → Option (EStateM.Result ε σ α)

namespace CheckedM

variable {ε σ α β : Type u}

instance : Monad (CheckedM ε σ) where
  pure a := fun s => some (.ok a s)
  bind y f := fun s =>
    match y s with
    | none => none
    | some (.ok a s) => f a s
    | some (.error e s) => some (.error e s)

/-- A program without checks. -/
def lift (x : EStateM ε σ α) : CheckedM ε σ α := fun s => some (x s)

/-- The state in which a program ends is checked. -/
def ensuring (p : σ → Prop) [DecidablePred p] (x : EStateM ε σ α) : CheckedM ε σ α := fun s =>
  match x s with
  | .ok a s => if p s then some (.ok a s) else none
  | .error e s => some (.error e s)

/-- The program `y` without its checks is `x`. -/
def Erases (y : CheckedM ε σ α) (x : EStateM ε σ α) : Prop := ∀ s r, y s = some r → x s = r

/-- All checks pass. -/
def Passes (y : CheckedM ε σ α) (s : σ) : Prop := (y s).isSome = true

section Erases

variable {y : CheckedM ε σ α} {x : EStateM ε σ α} {g : α → CheckedM ε σ β} {f : α → EStateM ε σ β}
  {s : σ}

theorem Erases.pure (a : α) : Erases (Pure.pure a : CheckedM ε σ α) (Pure.pure a) := by
  intro s r h
  exact Option.some.inj h

theorem Erases.lift (x : EStateM ε σ α) : Erases (CheckedM.lift x) x := by
  intro s r h
  exact Option.some.inj h

theorem Erases.ensuring (p : σ → Prop) [DecidablePred p] (x : EStateM ε σ α) :
    Erases (CheckedM.ensuring p x) x := by
  intro s r h
  unfold CheckedM.ensuring at h
  cases hx : x s with
  | ok a s' =>
      rw [hx] at h
      dsimp only at h
      by_cases hp : p s'
      · rw [if_pos hp] at h
        exact Option.some.inj h
      · rw [if_neg hp] at h
        cases h
  | error e s' =>
      rw [hx] at h
      exact Option.some.inj h

theorem Erases.bind (h : Erases y x) (hf : ∀ a, Erases (g a) (f a)) :
    Erases (y >>= g) (x >>= f) := by
  intro s r hr
  change (match y s with
    | none => none
    | some (.ok a s) => g a s
    | some (.error e s) => some (.error e s)) = some r at hr
  cases hy : y s with
  | none =>
      rw [hy] at hr
      cases hr
  | some r' =>
      rw [hy] at hr
      have hx := h s r' hy
      cases r' with
      | ok a s' =>
          rw [bind_ok hx]
          exact hf a s' r hr
      | error e s' =>
          rw [bind_error hx]
          exact Option.some.inj hr

theorem Erases.ite {c : Prop} [Decidable c] {y' : CheckedM ε σ α} {x' : EStateM ε σ α}
    (h : Erases y x) (h' : Erases y' x') : Erases (if c then y else y') (if c then x else x') := by
  split
  · exact h
  · exact h'

end Erases

section Passes

variable {y : CheckedM ε σ α} {x : EStateM ε σ α} {g : α → CheckedM ε σ β} {s s' : σ} {a : α}

theorem passes_pure (a : α) (s : σ) : Passes (Pure.pure a : CheckedM ε σ α) s := rfl

theorem passes_lift (x : EStateM ε σ α) (s : σ) : Passes (lift x) s := rfl

theorem passes_ensuring (p : σ → Prop) [DecidablePred p] (x : EStateM ε σ α) (s : σ) :
    Passes (ensuring p x) s ↔ ∀ a s', x s = .ok a s' → p s' := by
  unfold Passes ensuring
  cases hx : x s with
  | ok a s' =>
      dsimp only
      by_cases hp : p s'
      · rw [if_pos hp]
        refine iff_of_true rfl ?_
        rintro _ _ ⟨⟩
        exact hp
      · rw [if_neg hp]
        refine iff_of_false Bool.false_ne_true ?_
        intro hall
        exact hp (hall a s' rfl)
  | error e s' =>
      refine iff_of_true rfl ?_
      rintro _ _ ⟨⟩

/-- **A sequence** passes when both parts do, the second one from where the first ends. -/
theorem passes_bind (h : Erases y x) (s : σ) :
    Passes (y >>= g) s ↔ Passes y s ∧ ∀ a s', x s = .ok a s' → Passes (g a) s' := by
  have hbind : (y >>= g) s = match y s with
    | none => none
    | some (.ok a s) => g a s
    | some (.error e s) => some (.error e s) := rfl
  unfold Passes
  rw [hbind]
  cases hy : y s with
  | none =>
      refine iff_of_false Bool.false_ne_true ?_
      intro hboth
      exact Bool.false_ne_true hboth.1
  | some r =>
      have hx := h s r hy
      cases r with
      | ok a s' =>
          dsimp only
          constructor
          · intro hg
            refine ⟨rfl, ?_⟩
            rw [hx]
            rintro _ _ ⟨⟩
            exact hg
          · intro hboth
            exact hboth.2 a s' hx
      | error e s' =>
          refine iff_of_true rfl ⟨rfl, ?_⟩
          rw [hx]
          rintro _ _ ⟨⟩

/-- A second part that only changes the value. -/
theorem passes_bind_pure (y : CheckedM ε σ α) (f : α → β) (s : σ) :
    Passes (y >>= fun a => Pure.pure (f a)) s ↔ Passes y s := by
  have hbind : (y >>= fun a => Pure.pure (f a)) s = match y s with
    | none => none
    | some (.ok a s) => some (.ok (f a) s)
    | some (.error e s) => some (.error e s) := rfl
  unfold Passes
  rw [hbind]
  cases y s with
  | none => exact Iff.rfl
  | some r => cases r <;> exact Iff.rfl

/-- A sequence whose first part ends with a value. -/
theorem passes_bind_of_ok (h : Erases y x) (hx : x s = .ok a s') :
    Passes (y >>= g) s ↔ Passes y s ∧ Passes (g a) s' := by
  rw [passes_bind h, hx]
  constructor
  · intro hboth
    exact ⟨hboth.1, hboth.2 a s' rfl⟩
  · intro hboth
    refine ⟨hboth.1, ?_⟩
    rintro _ _ ⟨⟩
    exact hboth.2

/-- A first part without checks. -/
theorem passes_lift_bind (hx : x s = .ok a s') : Passes (lift x >>= g) s ↔ Passes (g a) s' := by
  rw [passes_bind_of_ok (Erases.lift x) hx]
  exact and_iff_right (passes_lift x s)

theorem passes_lift_bind_of (h : ∀ a s', Passes (g a) s') (x : EStateM ε σ α) (s : σ) :
    Passes (lift x >>= g) s :=
  (passes_bind (Erases.lift x) s).mpr ⟨passes_lift x s, fun a s' _ => h a s'⟩

/-- A first part after which there is a check. -/
theorem passes_ensuring_bind {p : σ → Prop} [DecidablePred p] (hx : x s = .ok a s') :
    Passes (ensuring p x >>= g) s ↔ p s' ∧ Passes (g a) s' := by
  rw [passes_bind_of_ok (Erases.ensuring p x) hx, passes_ensuring, hx]
  refine and_congr_left' ?_
  constructor
  · intro hall
    exact hall a s' rfl
  · rintro hp _ _ ⟨⟩
    exact hp

end Passes

end CheckedM

end SeedCore
