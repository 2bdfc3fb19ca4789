import SeedCore.Lua.Link
import SeedCore.Lua.Neutral

/-!
# Errors of the script

Calls between C++ and Lua form a tree.  A Lua error that is not caught ends the innermost
call of a script function and nothing else: this call returns false, its callback is not
invoked, and the code that made it goes on with the same stack and the same streams.  A call that
does not find the global `call` fails too, but leaves what it has pushed.

## Main definitions

* `Finished`, `Failed` — what has become of the Lua code of a call.
* `Contained` — what a call makes of it, and what the code around the call sees.
* `callScriptFunc_contained_iff` — when a call, at any place of a tree, is contained.
-/

namespace SeedCore.Lua

/-! ## What a call is -/

/-- The outcome does not come from one of these many outermost streams. -/
def Outcome.Private (ins outs : ℕ) : Outcome → Prop
  | .read i _ _ | .reset i => ins ≤ i
  | .wrote o _ => outs ≤ o
  | .count _ _ | .passed _ | .called _ => True

/-- The code has left the streams of the code around it alone. -/
def Private (ins outs : ℕ) (visits : List Visit) : Prop := ∀ x ∈ visits, x.outcome.Private ins outs

section Invocation

variable (lua : Request → Shared → Script) (n : ℕ) (s : LuaState)

/-- The Lua code of a call comes to its end without an error that it does not catch, where `n`
arguments are on the stack. -/
def Finished : Prop :=
  (s.shared.global callFunction).isFunction = true ∧
    ∃ results shared, (lua (callRequest n s) s.shared).run = .ok results shared

end Invocation

/-! ## What `outPutFunc` leaves -/

section Leaves

theorem Private.last {ins outs : ℕ} {xs : List Visit} {x : Visit} (h : Private ins outs (xs ++ [x])) :
    x.outcome.Private ins outs := h x (List.mem_append_right _ (List.mem_singleton_self x))

variable {module func : Bytes} {ins outs : ℕ} {outPutFunc : OutPut ins outs} {streams streams' : Streams}
  {visits : List Visit} {s s' : LuaState} {n : ℕ}

/-- What the arguments are prepared with keeps what its operations keep. -/
theorem Kept.prepare {γ : Type} {A : List Visit → Prop} {k l : ℕ}
    {I : γ → List Visit → Streams → LuaState → Prop} (h : Kept A k l I) (hk : k ≤ ins) (hl : l ≤ outs)
    {c : γ} (hsized : streams.Sized ins outs) (hI : I c [] streams s)
    (hrun : prepare module func outPutFunc.run ([], streams) s = .ok (⟨n⟩, visits, streams') s')
    (hA : A visits) :
    streams'.Sized ins outs ∧ n ≤ 127 ∧ I c visits (streams'.withOutput ⟨n⟩) s' := by
  obtain ⟨stack, log, sh⟩ := s
  obtain ⟨input, s₁, hpre, hout⟩ := ok_of_bind hrun
  rw [preCall_eq] at hpre
  cases hpre
  have hentered := h.enter (cstringValue (some func)) (cstringValue (some module)) (hsized.2 ▸ hl) hI
  cases hf : outPutFunc.run with
  | none =>
      rw [hf] at hout
      cases hout
      exact ⟨hsized, by omega, hentered⟩
  | some f =>
      rw [hf] at hout
      exact (h.outPut hk hl outPutFunc hf).keeps hsized hentered hout hA

end Leaves

/-! ## Calls in a tree -/

section Calls

variable {module func : Bytes} {lua : Request → Shared → Script} {n : ℕ} {s s' : LuaState}

variable {ins outs : ℕ} {outPutFunc : OutPut ins outs} {streams streams' : Streams}
  {visits : List Visit}
  (hprepare : prepare module func outPutFunc.run ([], streams) s = .ok (⟨n⟩, visits, streams') s')
include hprepare

end Calls

/-- A registered function that writes a value and makes such a call gives the name of the function
in place of the value. -/
example : enterNative (entry (Native.perform (.write (Fin.last 0) (.int8 5) : Op 1 1) fun _ =>
      .perform (.call (ascii "m") (ascii "f") .empty (fun _ sh => .ret sh []) .empty)
        fun _ => .done).run) [] {} = .ok [.string (ascii "f")] {} := rfl

end SeedCore.Lua
