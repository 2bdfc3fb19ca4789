import Mathlib.Logic.Basic

/-!
# Layers

A map that is changed in steps, each of which gives values to some of the keys: what a key has in
the end is what the latest of these steps gave it, or else what it had.

## Main definitions

* `latest layers k` — what the latest of the steps that give `k` a value gave it.
* `getD_latest_cons` — the value of a key after the first step and the others.
-/

namespace SeedCore

universe u v

variable {κ : Type u} {ν : Type v}

/-- What the latest of the steps that give a key a value gave it. -/
def latest : List (κ → Option ν) → κ → Option ν
  | [], _ => none
  | layer :: layers, k => (latest layers k).or (layer k)

section Cons

variable {layer : κ → Option ν} {layers : List (κ → Option ν)} {k : κ}

/-- The other steps start from what the first one left. -/
theorem getD_latest_cons (v : ν) :
    (latest (layer :: layers) k).getD v = (latest layers k).getD ((layer k).getD v) := by
  rw [latest, Option.getD_or]

/-- A later step wins. -/
theorem latest_cons_of_some {v : ν} (h : latest layers k = some v) :
    latest (layer :: layers) k = some v := by
  rw [latest, h, Option.some_or]

theorem latest_cons_of_none (h : latest layers k = none) :
    latest (layer :: layers) k = layer k := by
  rw [latest, h, Option.none_or]

theorem latest_cons_eq_none_iff :
    latest (layer :: layers) k = none ↔ latest layers k = none ∧ layer k = none := by
  rw [latest, Option.or_eq_none_iff]

end Cons

end SeedCore
