import SeedCore.Lib.Checked
import SeedCore.Lua.Neutral

/-!
# The exchange, with its slots checked

A C function may push `LUA_MINSTACK` values beyond its arguments, and so may the host where it was
not called from Lua; for more it would have to ask `lua_checkstack`, which nobody does.  Here the
functions of the exchange are given once more, with a check after each function of the interface
that pushes values: whether there were slots for them.  A call pushes its eight results too.

## Main definitions

* `within limit x` — a function of the interface, with the check.
* `Read.runIn`, `Write.runIn`, `callScriptFuncIn`, `Native.runIn` … — the source, with the checks.
* `erases_luaCall`, `erases_callScriptFunc`, `erases_native` — the source, without them.
-/

namespace SeedCore.Lua

open CheckedM

/-- `LUA_MINSTACK` -/
def luaMinStack : ℕ := 20

/-- A piece of the host with checks of the stack. -/
abbrev SlotM := CheckedM Fault LuaState

/-- A function of the interface that pushes values, on a stack that has `limit` slots. -/
def within {α : Type} (limit : ℕ) (x : LuaM α) : SlotM α :=
  ensuring (fun s => s.stack.length ≤ limit) x

/-! ## The source -/

section Source

variable (limit : ℕ)

/-- A read method, by what it does when there is a value left. -/
def LuaInputStream.guardedIn (input : LuaInputStream) (read : SlotM (Option Datum)) :
    SlotM (Option Datum × LuaInputStream) := do
  if input.index < input.count then
    let val ← read
    pure (val, input.next)
  else pure (none, input)

def LuaInputStream.readStrIn (input : LuaInputStream) : SlotM (Option Datum × LuaInputStream) :=
  input.guardedIn do
    let val ← lift (tostring input.slot)
    within limit (len input.slot)
    lift (pop 1)
    match val with
    | none => lift (throw .nullPointer)
    | some val => pure (some (.str (cstr val)))

def LuaInputStream.readPtrIn (input : LuaInputStream) (type : Bytes) :
    SlotM (Option Datum × LuaInputStream) := input.guardedIn do
  within limit (getfield input.slot ptrIndex)
  let ptr ← lift (touserdata (-1))
  lift (pop 1)
  within limit (getfield input.slot typeIndex)
  let luaType ← lift (tostring (-1))
  lift (pop 1)
  match luaType with
  | none => lift (throw .nullPointer)
  | some luaType =>
      if cstr luaType ≠ cstr type ∨ cstr type = [] then pure none else pure (some (.ptr ptr))

/-- The other read methods push nothing. -/
def Read.runIn (input : LuaInputStream) : Read → SlotM (Option Datum × LuaInputStream)
  | str => input.readStrIn limit
  | ptr type => input.readPtrIn limit type
  | r => lift (r.run input)

def LuaOutputStream.writePtrIn (output : LuaOutputStream) (val : UInt64) (type : Option Bytes) :
    SlotM LuaOutputStream := do
  within limit createtable
  within limit (pushlightuserdata val)
  lift (setfield (-2) ptrIndex)
  within limit (pushstring type)
  lift (setfield (-2) typeIndex)
  pure output.next

/-- The other write methods push one value, or none. -/
def Write.runIn (output : LuaOutputStream) : Write → SlotM LuaOutputStream
  | ptr val type => output.writePtrIn limit val type
  | blob val => lift ((blob val).run output)
  | w => within limit (w.run output)

section Calls

variable {σ : Type}

/-- `IDataOutputFuncType`, with checks. -/
abbrev OutputFuncIn (σ : Type) := Option (LuaOutputStream → σ → SlotM (LuaOutputStream × σ))
/-- `IDataCallBackFuncType`, with checks. -/
abbrev CallBackFuncIn (σ : Type) := Option (LuaInputStream → σ → SlotM σ)

variable (run : LuaRun)

/-- Call the callback unless it is empty. -/
def callNonNullIn (callback : CallBackFuncIn σ) (ack : LuaInputStream) (vars : σ) : SlotM σ :=
  match callback with
  | some callback => callback ack vars
  | none => pure vars

/-- `ExecFunction` from the callback on. -/
def answerIn (callback : CallBackFuncIn σ) (ack : LuaInputStream) (tarceIndex : ℤ) (vars : σ) :
    SlotM (Bool × σ) := do
  let vars ← callNonNullIn callback ack vars
  let ret ← lift (popResults tarceIndex)
  pure (ret, vars)

/-- `ExecFunction` from the call on. -/
def execPcallIn (argc : ℤ) (callback : CallBackFuncIn σ) (tarceIndex : ℤ) (vars : σ) :
    SlotM (Bool × σ) := do
  if ← within limit (pcall run argc luaResultCount tarceIndex) then
    let ack ← lift (LuaInputStream.new true)
    answerIn callback ack tarceIndex vars
  else do
    let _ ← lift (tostring (-1))
    lift (pop (if tarceIndex = 0 then 1 else 2))
    pure (false, vars)

/-- `ExecFunction` -/
def execFunctionIn (argc : ℤ) (callback : CallBackFuncIn σ) (vars : σ) : SlotM (Bool × σ) := do
  let findex := toInt8 (-(argc + 1))
  if ← lift (isfunction findex) then
    within limit (getglobal luaTraceName)
    if ← lift (isfunction (-1)) then
      lift (insert (findex - 1))
      execPcallIn limit run argc callback (findex - 1) vars
    else
      lift (pop 1)
      execPcallIn limit run argc callback 0 vars
  else
    lift (pop (-findex))
    pure (false, vars)

/-- `ExecGlobalFunction` -/
def execGlobalFunctionIn (func : Bytes) (argc : ℤ) (callback : CallBackFuncIn σ) (vars : σ) :
    SlotM (Bool × σ) := do
  within limit (getglobal func)
  if ← lift (isfunction (-1)) then
    if 0 < argc then lift (insert (-(argc + 1)))
    execFunctionIn limit run argc callback vars
  else
    lift (pop 1)
    pure (false, vars)

/-- `LuaInterchangeCaller::PreCall` -/
def preCallIn (module func : Bytes) : SlotM LuaOutputStream := do
  let input ← (Write.str (some module)).runIn limit {}
  (Write.str (some func)).runIn limit input

/-- `LuaInterchangeCaller::Call` -/
def callIn (input : LuaOutputStream) (callback : CallBackFuncIn σ) (vars : σ) : SlotM (Bool × σ) :=
  execGlobalFunctionIn limit run callFunction (toInt8 input.count) callback vars

/-- The call of `outPutFunc`, unless it is empty. -/
def outPutIn (outPutFunc : OutputFuncIn σ) (input : LuaOutputStream) (vars : σ) :
    SlotM (LuaOutputStream × σ) :=
  match outPutFunc with
  | some outPutFunc => outPutFunc input vars
  | none => pure (input, vars)

/-- `CallScriptFunc` -/
def callScriptFuncIn (module func : Bytes) (outPutFunc : OutputFuncIn σ)
    (callBackFun : CallBackFuncIn σ) (vars : σ) : SlotM (Bool × σ) := do
  let input ← preCallIn limit module func
  let (input, vars) ← outPutIn outPutFunc input vars
  callIn limit run input callBackFun vars

end Calls

end Source

mutual

/-- C++ code, on a stack with so many slots. -/
def Native.runIn {ins outs : ℕ} (limit : ℕ) : Native ins outs → Streams → SlotM Captured
  | .done => fun streams => pure ([], streams)
  | .perform op next => fun streams => do
      let (xs, streams) ← op.runIn limit streams
      let (ys, streams) ← (next (outcomes xs)).runIn limit streams
      pure (xs ++ ys, streams)

def Op.runIn {ins outs : ℕ} (limit : ℕ) : Op ins outs → Streams → SlotM Captured
  | .read i r => fun streams => do
      let s ← lift get
      let (val, input) ← r.runIn limit (streams.input i)
      pure ([⟨.read i r val, s.shared⟩], streams.setInput i input)
  | .reset i => fun streams => do
      let s ← lift get
      pure ([⟨.reset i, s.shared⟩], streams.setInput i (streams.input i).reset)
  | .getCount i => fun streams => do
      let s ← lift get
      pure ([⟨.count i (streams.input i).count, s.shared⟩], streams)
  | .write o w => fun streams => do
      let s ← lift get
      let output ← w.runIn limit (streams.output o)
      pure ([⟨.wrote o w, s.shared⟩], streams.setOutput o output)
  | .call module func outPutFunc lua callBackFun => fun streams => do
      let (ret, visits, streams) ← callScriptFuncIn limit
        (fun request shared => (lua request shared).run) module func (outPutFunc.runIn limit)
        (callBackFun.runIn limit) ([], streams)
      let s ← lift get
      pure (visits ++ [⟨.called ret, s.shared⟩], streams)

/-- An `outPutFunc` pushes on the stack of the code that makes the call, -/
def OutPut.runIn {ins outs : ℕ} (limit : ℕ) : OutPut ins outs → OutputFuncIn Captured
  | .empty => none
  | .of body => some fun input (visits, streams) => do
      let (xs, streams) ← body.runIn limit (streams.withOutput input)
      let input := streams.output outs
      let s ← lift get
      pure (input, visits ++ xs ++ [⟨.passed input.count, s.shared⟩], streams.dropOutput)

/-- and so does a callback. -/
def Callback.runIn {ins outs : ℕ} (limit : ℕ) : Callback ins outs → CallBackFuncIn Captured
  | .empty => none
  | .of body => some fun ack (visits, streams) => do
      let (xs, streams) ← (body (outcomes visits)).runIn limit (streams.withInput ack)
      pure (visits ++ xs, streams.dropInput)

end

/-- `LuaCall` -/
def luaCallIn (limit : ℕ) (func : Native 1 1) : SlotM ℤ := do
  let input ← lift (LuaInputStream.new false)
  let (_, streams) ← func.runIn limit (argumentStreams input {})
  pure (streams.output 0).count

/-! ## Without the checks -/

section Erasure

variable (limit : ℕ) {σ : Type}

/-- Without its checks, the one `outPutFunc` is the other. -/
def ErasesOutput (outputIn : OutputFuncIn σ) (output : IDataOutputFuncType σ) : Prop :=
  match outputIn, output with
  | none, none => True
  | some outputIn, some output => ∀ input vars, Erases (outputIn input vars) (output input vars)
  | _, _ => False

/-- Without its checks, the one callback is the other. -/
def ErasesCallback (callbackIn : CallBackFuncIn σ) (callback : IDataCallBackFuncType σ) : Prop :=
  match callbackIn, callback with
  | none, none => True
  | some callbackIn, some callback => ∀ ack vars, Erases (callbackIn ack vars) (callback ack vars)
  | _, _ => False

theorem erases_within {α : Type} (x : LuaM α) : Erases (within limit x) x := Erases.ensuring _ x

theorem erases_guarded {input : LuaInputStream} {readIn : SlotM (Option Datum)}
    {read : LuaM (Option Datum)} (h : Erases readIn read) :
    Erases (input.guardedIn readIn) (input.guarded read) :=
  Erases.ite (h.bind fun _ => Erases.pure _) (Erases.pure _)

theorem erases_read (r : Read) (input : LuaInputStream) :
    Erases (r.runIn limit input) (r.run input) := by
  cases r with
  | str =>
      refine erases_guarded ((Erases.lift _).bind fun val => (erases_within limit _).bind fun _ =>
        (Erases.lift _).bind fun _ => ?_)
      cases val with
      | none => exact Erases.lift _
      | some val => exact Erases.pure _
  | ptr type =>
      refine erases_guarded ((erases_within limit _).bind fun _ => (Erases.lift _).bind fun ptr =>
        (Erases.lift _).bind fun _ => (erases_within limit _).bind fun _ =>
          (Erases.lift _).bind fun luaType => (Erases.lift _).bind fun _ => ?_)
      cases luaType with
      | none => exact Erases.lift _
      | some luaType => exact Erases.ite (Erases.pure _) (Erases.pure _)
  | _ => exact Erases.lift _

theorem erases_write (w : Write) (output : LuaOutputStream) :
    Erases (w.runIn limit output) (w.run output) := by
  cases w with
  | ptr val type =>
      exact (erases_within limit _).bind fun _ => (erases_within limit _).bind fun _ =>
        (Erases.lift _).bind fun _ => (erases_within limit _).bind fun _ =>
          (Erases.lift _).bind fun _ => Erases.pure _
  | blob val => exact Erases.lift _
  | _ => exact erases_within limit _

theorem erases_preCall (module func : Bytes) :
    Erases (preCallIn limit module func) (preCall module func) :=
  (erases_write limit (.str (some module)) {}).bind fun input =>
    erases_write limit (.str (some func)) input

theorem erases_outPut {outputIn : OutputFuncIn σ} {output : IDataOutputFuncType σ}
    (houtput : ErasesOutput outputIn output) (input : LuaOutputStream) (vars : σ) :
    Erases (outPutIn outputIn input vars) (outPut output input vars) := by
  cases outputIn with
  | none =>
      cases output with
      | none => exact Erases.pure _
      | some output => exact houtput.elim
  | some outputIn =>
      cases output with
      | none => exact houtput.elim
      | some output => exact houtput input vars

section Calls

variable (run : LuaRun) {callbackIn : CallBackFuncIn σ} {callback : IDataCallBackFuncType σ}
  (hcallback : ErasesCallback callbackIn callback)
include hcallback

theorem erases_callNonNull (ack : LuaInputStream) (vars : σ) :
    Erases (callNonNullIn callbackIn ack vars) (callNonNull callback ack vars) := by
  cases callbackIn with
  | none =>
      cases callback with
      | none => exact Erases.pure _
      | some callback => exact hcallback.elim
  | some callbackIn =>
      cases callback with
      | none => exact hcallback.elim
      | some callback => exact hcallback ack vars

theorem erases_answer (ack : LuaInputStream) (tarceIndex : ℤ) (vars : σ) :
    Erases (answerIn callbackIn ack tarceIndex vars) (answer callback ack tarceIndex vars) :=
  (erases_callNonNull hcallback ack vars).bind fun _ => (Erases.lift _).bind fun _ => Erases.pure _

theorem erases_execPcall (argc tarceIndex : ℤ) (vars : σ) :
    Erases (execPcallIn limit run argc callbackIn tarceIndex vars)
      (execPcall run argc callback tarceIndex vars) :=
  (erases_within limit _).bind fun _ => Erases.ite
    ((Erases.lift _).bind fun ack => erases_answer hcallback ack tarceIndex vars)
    ((Erases.lift _).bind fun _ => (Erases.lift _).bind fun _ => Erases.pure _)

theorem erases_execFunction (argc : ℤ) (vars : σ) :
    Erases (execFunctionIn limit run argc callbackIn vars) (execFunction run argc callback vars) :=
  (Erases.lift _).bind fun _ => Erases.ite
    ((erases_within limit _).bind fun _ => (Erases.lift _).bind fun _ => Erases.ite
      ((Erases.lift _).bind fun _ => erases_execPcall limit run hcallback argc _ vars)
      ((Erases.lift _).bind fun _ => erases_execPcall limit run hcallback argc _ vars))
    ((Erases.lift _).bind fun _ => Erases.pure _)

theorem erases_execGlobalFunction (func : Bytes) (argc : ℤ) (vars : σ) :
    Erases (execGlobalFunctionIn limit run func argc callbackIn vars)
      (execGlobalFunction run func argc callback vars) :=
  (erases_within limit _).bind fun _ => (Erases.lift _).bind fun _ => Erases.ite
    (Erases.ite ((Erases.lift _).bind fun _ => erases_execFunction limit run hcallback argc vars)
      (erases_execFunction limit run hcallback argc vars))
    ((Erases.lift _).bind fun _ => Erases.pure _)

theorem erases_call (input : LuaOutputStream) (vars : σ) :
    Erases (callIn limit run input callbackIn vars) (call run input callback vars) :=
  erases_execGlobalFunction limit run hcallback callFunction _ vars

theorem erases_callScriptFunc {outputIn : OutputFuncIn σ} {output : IDataOutputFuncType σ}
    (houtput : ErasesOutput outputIn output) (module func : Bytes) (vars : σ) :
    Erases (callScriptFuncIn limit run module func outputIn callbackIn vars)
      (callScriptFunc run module func output callback vars) :=
  (erases_preCall limit module func).bind fun input => (erases_outPut houtput input vars).bind
    fun p => erases_call limit run hcallback p.1 p.2

end Calls

end Erasure

mutual

/-- **Without its checks**, a body is that of the unchecked model. -/
theorem erases_native {ins outs : ℕ} (limit : ℕ) : ∀ (body : Native ins outs) (streams : Streams),
    Erases (body.runIn limit streams) (body.run streams)
  | .done, streams => by
      rw [Native.runIn, Native.run]
      exact Erases.pure _
  | .perform op next, streams => by
      rw [Native.runIn, Native.run]
      exact (erases_op limit op streams).bind fun p =>
        (erases_native limit (next (outcomes p.1)) p.2).bind fun _ => Erases.pure _

theorem erases_op {ins outs : ℕ} (limit : ℕ) : ∀ (op : Op ins outs) (streams : Streams),
    Erases (op.runIn limit streams) (op.run streams)
  | .read i r, streams => by
      rw [Op.runIn, Op.run]
      exact (Erases.lift _).bind fun _ => (erases_read limit r _).bind fun _ => Erases.pure _
  | .reset i, streams => by
      rw [Op.runIn, Op.run]
      exact (Erases.lift _).bind fun _ => Erases.pure _
  | .getCount i, streams => by
      rw [Op.runIn, Op.run]
      exact (Erases.lift _).bind fun _ => Erases.pure _
  | .write o w, streams => by
      rw [Op.runIn, Op.run]
      exact (Erases.lift _).bind fun _ => (erases_write limit w _).bind fun _ => Erases.pure _
  | .call module func outPutFunc lua callBackFun, streams => by
      rw [Op.runIn, Op.run]
      exact (erases_callScriptFunc limit _ (erases_callback limit callBackFun)
        (erases_output limit outPutFunc) module func _).bind fun _ =>
          (Erases.lift _).bind fun _ => Erases.pure _

theorem erases_output {ins outs : ℕ} (limit : ℕ) : ∀ outPutFunc : OutPut ins outs,
    ErasesOutput (outPutFunc.runIn limit) outPutFunc.run
  | .empty => by
      rw [OutPut.runIn, OutPut.run]
      trivial
  | .of body => by
      rw [OutPut.runIn, OutPut.run]
      intro input vars
      exact (erases_native limit body _).bind fun _ => (Erases.lift _).bind fun _ => Erases.pure _

theorem erases_callback {ins outs : ℕ} (limit : ℕ) : ∀ callBackFun : Callback ins outs,
    ErasesCallback (callBackFun.runIn limit) callBackFun.run
  | .empty => by
      rw [Callback.runIn, Callback.run]
      trivial
  | .of body => by
      rw [Callback.runIn, Callback.run]
      intro ack vars
      exact (erases_native limit (body (outcomes vars.1)) _).bind fun _ => Erases.pure _

end

theorem erases_luaCall (limit : ℕ) (func : Native 1 1) :
    Erases (luaCallIn limit func) (luaCall (entry func.run)) := by
  refine (Erases.lift _).bind fun input => ?_
  rw [entry, bind_assoc]
  simp only [pure_bind]
  exact (erases_native limit func _).bind fun p => Erases.pure _

end SeedCore.Lua
