import SeedCore.Lua.Engine

/-!
# Programs of C++ and Lua code that call each other

What happens between C++ and Lua is a tree.  A `Native` is the body of a registered function, of
an `outPutFunc` or of a callback: it performs operations on streams and calls script functions, and
goes on with what they gave.  A closure can use the streams of the code around it, so a body
has a number of input streams and of output streams, the outermost first; its own is the last one.
A `Script` is what Lua does in a call: it returns, raises an error or calls a registered function.
Trees may be of any depth.

## Main definitions

* `Script`, `Native`, `Op`, `OutPut`, `Callback` — the trees.
* `Outcome`, `Visit` — what is done on the way, and what code learns from it.
* `Script.run`, `Native.run`, `Op.run`, `OutPut.run`, `Callback.run` — what they do.
-/

namespace SeedCore.Lua

/-- What code learns from an operation; streams are given by their numbers. -/
inductive Outcome
  | read (i : ℕ) (r : Read) (val : Option Datum)
  | reset (i : ℕ)
  | count (i : ℕ) (count : ℤ)
  | wrote (o : ℕ) (w : Write)
  /-- An `outPutFunc` has come to its end; so many arguments are counted. -/
  | passed (count : ℕ)
  | called (ret : Bool)
  deriving DecidableEq, Repr

mutual

/-- What Lua does when a function is called, with the globals and tables that it leaves
before each thing that the host sees. -/
inductive Script
  | ret (shared : Shared) (results : List Value)
  /-- It does not return: it raises an error, or runs for ever. -/
  | error (shared : Shared) (fault : Fault)
  /-- It calls a registered function, which returns or raises an error. -/
  | native (shared : Shared) (func : Native 1 1) (args : List Value)
      (resume : Shared → Except Value (List Value) → Script)

/-- C++ code with so many input streams and output streams. -/
inductive Native : (ins outs : ℕ) → Type
  | done {ins outs : ℕ} : Native ins outs
  | perform {ins outs : ℕ} (op : Op ins outs) (next : List Outcome → Native ins outs) :
      Native ins outs

/-- An operation of such code. -/
inductive Op : (ins outs : ℕ) → Type
  | read {ins outs : ℕ} (i : Fin ins) (r : Read) : Op ins outs
  | reset {ins outs : ℕ} (i : Fin ins) : Op ins outs
  | getCount {ins outs : ℕ} (i : Fin ins) : Op ins outs
  | write {ins outs : ℕ} (o : Fin outs) (w : Write) : Op ins outs
  /-- `CallScriptFunc`, with what Lua does. -/
  | call {ins outs : ℕ} (module func : Bytes) (outPutFunc : OutPut ins outs)
      (lua : Request → Shared → Script) (callBackFun : Callback ins outs) : Op ins outs

/-- An `outPutFunc`, which may be empty. -/
inductive OutPut : (ins outs : ℕ) → Type
  | empty {ins outs : ℕ} : OutPut ins outs
  | of {ins outs : ℕ} (body : Native ins (outs + 1)) : OutPut ins outs

/-- A callback, which may be empty.  It knows what the `outPutFunc` has learned. -/
inductive Callback : (ins outs : ℕ) → Type
  | empty {ins outs : ℕ} : Callback ins outs
  | of {ins outs : ℕ} (body : List Outcome → Native (ins + 1) outs) : Callback ins outs

end

/-! ## Streams -/

/-- The streams that C++ code can use. -/
structure Streams where
  inputs : List LuaInputStream := []
  outputs : List LuaOutputStream := []
  deriving DecidableEq, Repr

namespace Streams

variable (streams : Streams)

def input (i : ℕ) : LuaInputStream := streams.inputs.getD i { start := 0, count := 0 }

def output (o : ℕ) : LuaOutputStream := streams.outputs.getD o {}

def setInput (i : ℕ) (input : LuaInputStream) : Streams :=
  { streams with inputs := streams.inputs.set i input }

def setOutput (o : ℕ) (output : LuaOutputStream) : Streams :=
  { streams with outputs := streams.outputs.set o output }

/-- A callback gets a stream of its own. -/
def withInput (input : LuaInputStream) : Streams :=
  { streams with inputs := streams.inputs ++ [input] }

def dropInput : Streams := { streams with inputs := streams.inputs.dropLast }

/-- An `outPutFunc` gets a stream of its own. -/
def withOutput (output : LuaOutputStream) : Streams :=
  { streams with outputs := streams.outputs ++ [output] }

def dropOutput : Streams := { streams with outputs := streams.outputs.dropLast }

@[simp] theorem dropInput_withInput (input : LuaInputStream) :
    (streams.withInput input).dropInput = streams := by
  simp [withInput, dropInput]

end Streams

/-- The streams of a registered function. -/
def argumentStreams (input : LuaInputStream) (output : LuaOutputStream) : Streams :=
  ⟨[input], [output]⟩

/-! ## What programs do -/

/-- What was learned on the way, and what was shared at that time, which C++ code does not see. -/
structure Visit where
  outcome : Outcome
  shared : Shared

/-- What C++ code has learned. -/
def outcomes (visits : List Visit) : List Outcome := visits.map Visit.outcome

/-- What the closures of a call capture. -/
abbrev Captured := List Visit × Streams

/-- The registered function that runs a body. -/
def entry (body : Streams → LuaM Captured) : IDataInterchangeFuncType := fun input output => do
  let (_, streams) ← body (argumentStreams input output)
  pure (streams.output 0)

mutual

/-- What Lua does, up to its results or an error that it does not catch. -/
def Script.run : Script → EStateM.Result Fault Shared (List Value)
  | .ret shared results => .ok results shared
  | .error shared fault => .error fault shared
  | .native shared func args resume =>
      match enterNative (entry func.run) args shared with
      | .ok results shared => (resume shared (.ok results)).run
      | .error (.raised message) shared => (resume shared (.error message)).run
      | .error fault shared => .error fault shared

def Native.run {ins outs : ℕ} : Native ins outs → Streams → LuaM Captured
  | .done => fun streams => pure ([], streams)
  | .perform op next => fun streams => do
      let (xs, streams) ← op.run streams
      let (ys, streams) ← (next (outcomes xs)).run streams
      pure (xs ++ ys, streams)

def Op.run {ins outs : ℕ} : Op ins outs → Streams → LuaM Captured
  | .read i r => fun streams => do
      let s ← get
      let (val, input) ← r.run (streams.input i)
      pure ([⟨.read i r val, s.shared⟩], streams.setInput i input)
  | .reset i => fun streams => do
      let s ← get
      pure ([⟨.reset i, s.shared⟩], streams.setInput i (streams.input i).reset)
  | .getCount i => fun streams => do
      let s ← get
      pure ([⟨.count i (streams.input i).count, s.shared⟩], streams)
  | .write o w => fun streams => do
      let s ← get
      let output ← w.run (streams.output o)
      pure ([⟨.wrote o w, s.shared⟩], streams.setOutput o output)
  | .call module func outPutFunc lua callBackFun => fun streams => do
      let (ret, visits, streams) ← callScriptFunc (fun request shared => (lua request shared).run)
        module func outPutFunc.run callBackFun.run ([], streams)
      let s ← get
      pure (visits ++ [⟨.called ret, s.shared⟩], streams)

def OutPut.run {ins outs : ℕ} : OutPut ins outs → IDataOutputFuncType Captured
  | .empty => none
  | .of body => some fun input (visits, streams) => do
      let (xs, streams) ← body.run (streams.withOutput input)
      let input := streams.output outs
      let s ← get
      pure (input, visits ++ xs ++ [⟨.passed input.count, s.shared⟩], streams.dropOutput)

def Callback.run {ins outs : ℕ} : Callback ins outs → IDataCallBackFuncType Captured
  | .empty => none
  | .of body => some fun ack (visits, streams) => do
      let (xs, streams) ← (body (outcomes visits)).run (streams.withInput ack)
      pure (visits ++ xs, streams.dropInput)

end

section Entry

variable {body : Native 1 1} {args : List Value} {sh : Shared} {s : LuaState}

/-- A registered function that comes to its end has as many results as it has written. -/
theorem luaCall_ok {p : Captured}
    (h : body.run (argumentStreams { start := 0, count := args.length } {}) ⟨args.reverse, [], sh⟩
      = .ok p s) :
    luaCall (entry body.run) ⟨args.reverse, [], sh⟩ = .ok (p.2.output 0).count s := by
  have hnew := new_arguments args.reverse [] sh
  rw [List.length_reverse] at hnew
  rw [luaCall, bind_ok hnew]
  exact bind_ok (bind_ok h)

theorem luaCall_error {fault : Fault}
    (h : body.run (argumentStreams { start := 0, count := args.length } {}) ⟨args.reverse, [], sh⟩
      = .error fault s) :
    luaCall (entry body.run) ⟨args.reverse, [], sh⟩ = .error fault s := by
  have hnew := new_arguments args.reverse [] sh
  rw [List.length_reverse] at hnew
  rw [luaCall, bind_ok hnew]
  exact bind_error (bind_error h)

end Entry

/-- No call passes more than 125 values beside module and function. -/
def Short (visits : List Visit) : Prop := ∀ v ∈ visits, ∀ n, v.outcome = .passed n → n ≤ 127

/-- Globals with the functions `call` and `__G__TRACKBACK__`. -/
def exampleShared : Shared where
  globals := (AList.singleton (.string callFunction) (.function 1) : Table).insert
    (.string luaTraceName) (.function 2)

end SeedCore.Lua
