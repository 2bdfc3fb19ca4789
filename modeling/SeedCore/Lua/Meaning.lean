import SeedCore.Lua.Program
import SeedCore.Lua.Reading

/-!
# What programs of C++ and Lua mean

The engine moves everything over one stack, below which lie the values of the calls around.
What a program of C++ and Lua code means can be said without it: a call passes a list of
values and gets a list of values, a stream is a cursor in such a list, and an error of Lua
goes to the innermost code that catches it.

## Main definitions

* `View` — what C++ code can reach: the values that it was given, and those it has written.
* `Script.eval`, `Native.eval`, `Op.eval`, `invoke` — the meaning.
* `Script.Sound`, `Native.Sound`, `Op.Sound` — the programs that the engine gives it.
-/

namespace SeedCore.Lua

/-! ## The meaning -/

/-- The values behind an input stream, and the cursor. -/
structure Given where
  values : List Value
  index : ℕ := 0

/-- What C++ code can reach, by the numbers of its streams. -/
structure View where
  given : List Given := []
  written : List (List Value) := []

namespace View

variable (view : View)

def input (i : ℕ) : Given := view.given.getD i ⟨[], 0⟩

def output (o : ℕ) : List Value := view.written.getD o []

def setInput (i : ℕ) (g : Given) : View := { view with given := view.given.set i g }

def write (o : ℕ) (vs : List Value) : View :=
  { view with written := view.written.set o (view.output o ++ vs) }

def withInput (values : List Value) : View := { view with given := view.given ++ [⟨values, 0⟩] }

def dropInput : View := { view with given := view.given.dropLast }

def withOutput (vs : List Value) : View := { view with written := view.written ++ [vs] }

def dropOutput : View := { view with written := view.written.dropLast }

end View

/-- A read: past the end nothing happens, and a number that is read as a string becomes one. -/
def Given.read (g : Given) (r : Read) : Code (Option Datum × Given) :=
  if r = .blob then pure (none, g)
  else match g.values[g.index]? with
    | none => pure (none, g)
    | some v => do
        let val ← r.eval v
        pure (val, ⟨g.values.set g.index (r.after v), g.index + 1⟩)

/-- The results that a callback can read. -/
def readable (results : List Value) : List Value :=
  (results.take luaResultCount).takeWhile fun v => !v.isNil

/-- What the closures of a call have learned, and what they can reach. -/
abbrev Learned := List Outcome × View

/-- The first two arguments of a call. -/
def names (module func : Bytes) : List Value :=
  [cstringValue (some module), cstringValue (some func)]

/-- What Lua is asked for in a call. -/
def callOf (args : List Value) (sh : Shared) : Request :=
  ⟨sh.global callFunction, args, traceHandler sh⟩

/-- The callback gets the results; an error of Lua gives false. -/
def answerWith (callback : List Value → Learned → Code Learned) (vars : Learned) :
    EStateM.Result Fault Shared (List Value) → EStateM.Result Fault Shared (Bool × Learned)
  | .ok results shared => (do
      let vars ← callback (readable results) vars
      pure (true, vars) : Code (Bool × Learned)) shared
  | .error (.raised _) shared => .ok (false, vars) shared
  | .error fault shared => .error fault shared

/-- The call of the function `call`, if there is one. -/
def callWith (apply : LuaRun) (callback : List Value → Learned → Code Learned) (args : List Value)
    (vars : Learned) : Code (Bool × Learned) := fun sh =>
  if (sh.global callFunction).isFunction then
    answerWith callback vars (apply (callOf args sh) sh)
  else .ok (false, vars) sh

/-- `CallScriptFunc` as the call of a function, where `outPutFunc` adds arguments. -/
def invoke (apply : LuaRun) (module func : Bytes)
    (outPutFunc : List Value → View → Code (List Value × Learned))
    (callback : List Value → Learned → Code Learned) (view : View) : Code (Bool × Learned) := do
  let (args, vars) ← outPutFunc (names module func) view
  callWith apply callback args vars

/-- What a registered function can reach. -/
def argumentView (args : List Value) : View := ⟨[⟨args, 0⟩], [[]]⟩

/-- What Lua gets from a registered function. -/
def handed : EStateM.Result Fault Shared Learned → EStateM.Result Fault Shared (List Value)
  | .ok (_, view) shared => .ok (view.output 0) shared
  | .error fault shared => .error fault shared

mutual

def Script.eval : Script → EStateM.Result Fault Shared (List Value)
  | .ret shared results => .ok results shared
  | .error shared fault => .error fault shared
  | .native shared func args resume =>
      match handed (func.eval (argumentView args) shared) with
      | .ok results shared => (resume shared (.ok results)).eval
      | .error (.raised message) shared => (resume shared (.error message)).eval
      | .error fault shared => .error fault shared

def Native.eval {ins outs : ℕ} : Native ins outs → View → Code Learned
  | .done => fun view => pure ([], view)
  | .perform op next => fun view => do
      let (xs, view) ← op.eval view
      let (ys, view) ← (next xs).eval view
      pure (xs ++ ys, view)

def Op.eval {ins outs : ℕ} : Op ins outs → View → Code Learned
  | .read i r => fun view => do
      let (val, g) ← (view.input i).read r
      pure ([.read i r val], view.setInput i g)
  | .reset i => fun view =>
      pure ([.reset i], view.setInput i { view.input i with index := 0 })
  | .getCount i => fun view => pure ([.count i (view.input i).values.length], view)
  | .write o w => fun view => pure ([.wrote o w], view.write o w.value.toList)
  | .call module func outPutFunc lua callBackFun => fun view => do
      let (ret, xs, view) ← invoke (fun request shared => (lua request shared).eval) module func
        outPutFunc.eval callBackFun.eval view
      pure (xs ++ [.called ret], view)

def OutPut.eval {ins outs : ℕ} :
    OutPut ins outs → List Value → View → Code (List Value × Learned)
  | .empty => fun args view => pure (args, [], view)
  | .of body => fun args view => do
      let (xs, view) ← body.eval (view.withOutput args)
      let args := view.output outs
      pure (args, xs ++ [.passed args.length], view.dropOutput)

def Callback.eval {ins outs : ℕ} : Callback ins outs → List Value → Learned → Code Learned
  | .empty => fun _ vars => pure vars
  | .of body => fun results (xs, view) => do
      let (ys, view) ← (body xs).eval (view.withInput results)
      pure (xs ++ ys, view.dropInput)

end

/-! ## The programs -/

/-- There is a function `call`. -/
def CallDefined (sh : Shared) : Prop := (sh.global callFunction).isFunction = true

instance : DecidablePred CallDefined := fun sh =>
  inferInstanceAs (Decidable ((sh.global callFunction).isFunction = true))

mutual

/-- The registered functions that are called are sound. -/
def Script.Sound : Script → Prop
  | .ret _ _ => True
  | .error _ _ => True
  | .native shared func args resume => func.Sound true (argumentView args) shared ∧
      match handed (func.eval (argumentView args) shared) with
      | .ok results shared => (resume shared (.ok results)).Sound
      | .error (.raised message) shared => (resume shared (.error message)).Sound
      | .error _ _ => True

/-- Each operation that is performed is sound; `own` says whether the last output stream is the
one that the code was given, which it writes to. -/
def Native.Sound {ins outs : ℕ} (own : Bool) : Native ins outs → View → Shared → Prop
  | .done => fun _ _ => True
  | .perform op next => fun view sh => op.Sound own view sh ∧
      ∀ xs view' shared, op.eval view sh = .ok (xs, view') shared →
        (next xs).Sound own view' shared

/-- Values are written to the own stream only, and a call finds `call` and passes at most 125 values
beside the names. -/
def Op.Sound {ins outs : ℕ} (own : Bool) : Op ins outs → View → Shared → Prop
  | .read _ _ => fun _ _ => True
  | .reset _ => fun _ _ => True
  | .getCount _ => fun _ _ => True
  | .write o w => fun _ _ => w.value = none ∨ (own = true ∧ (o : ℕ) + 1 = outs)
  | .call module func outPutFunc lua callBackFun => fun view sh =>
      outPutFunc.Sound (names module func) view sh ∧
      ∀ args vars shared, outPutFunc.eval (names module func) view sh = .ok (args, vars) shared →
        args.length ≤ 127 ∧ CallDefined shared ∧ (lua (callOf args shared) shared).Sound ∧
        ∀ results left, (lua (callOf args shared) shared).eval = .ok results left →
          callBackFun.Sound (readable results) vars left

def OutPut.Sound {ins outs : ℕ} : OutPut ins outs → List Value → View → Shared → Prop
  | .empty => fun _ _ _ => True
  | .of body => fun args view sh => body.Sound true (view.withOutput args) sh

def Callback.Sound {ins outs : ℕ} : Callback ins outs → List Value → Learned → Shared → Prop
  | .empty => fun _ _ _ => True
  | .of body => fun results (xs, view) sh => (body xs).Sound false (view.withInput results) sh

end

end SeedCore.Lua
