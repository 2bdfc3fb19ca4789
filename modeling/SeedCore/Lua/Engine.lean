import SeedCore.Lua.Interchange

/-!
# Calls between C++ and Lua

`ScriptEngine`: a call of a script function (`CallScriptFunc`, with its parts `PreCall`,
`ExecGlobalFunction` and `ExecFunction`), and the entry of a registered function
(`LuaCall`).  A `std::function` is a program over the streams that it is given and the variables
that it has captured, or `none` where it is empty.

## Main definitions

* `callScriptFunc`, `luaCall`.
* `reached` — what a call comes to before the callback.
* `call_eq`, `callScriptFunc_eq` — the call, and then the callback.
-/

namespace SeedCore.Lua

/-- `CALL_FUNCTION` -/
def callFunction : Bytes := ascii "call"
/-- `LUA_TRACE_NAME` -/
def luaTraceName : Bytes := ascii "__G__TRACKBACK__"

section Types

variable (σ : Type)

/-- `IDataOutputFuncType`, over the variables that the closure has captured. -/
abbrev IDataOutputFuncType := Option (LuaOutputStream → σ → LuaM (LuaOutputStream × σ))
/-- `IDataCallBackFuncType` -/
abbrev IDataCallBackFuncType := Option (LuaInputStream → σ → LuaM σ)
/-- `IDataInterchangeFuncType`: it returns its output stream as it leaves it. -/
abbrev IDataInterchangeFuncType := LuaInputStream → LuaOutputStream → LuaM LuaOutputStream

end Types

/-- What Lua does when a function is called. -/
abbrev LuaRun := Request → Shared → EStateM.Result Fault Shared (List Value)

/-- An `outPutFunc` that makes these calls. -/
def writing {σ : Type} (ws : List Write) (input : LuaOutputStream) (vars : σ) :
    LuaM (LuaOutputStream × σ) := do
  let input ← writeAll ws input
  pure (input, vars)

/-! ## The source -/

section Source

variable (run : LuaRun) {σ : Type}

/-- Call the callback unless it is empty. -/
def callNonNull (callback : IDataCallBackFuncType σ) (ack : LuaInputStream) (vars : σ) : LuaM σ :=
  match callback with
  | some callback => callback ack vars
  | none => pure vars

/-- The end of `ExecFunction`: results and handler are taken off. -/
def popResults (tarceIndex : ℤ) : LuaM Bool := do
  pop luaResultCount
  if tarceIndex ≠ 0 then pop 1
  pure true

/-- `ExecFunction` from the callback on. -/
def answer (callback : IDataCallBackFuncType σ) (ack : LuaInputStream) (tarceIndex : ℤ) (vars : σ) :
    LuaM (Bool × σ) := do
  let vars ← callNonNull callback ack vars
  let ret ← popResults tarceIndex
  pure (ret, vars)

/-- `ExecFunction` from the call on. -/
def execPcall (argc : ℤ) (callback : IDataCallBackFuncType σ) (tarceIndex : ℤ) (vars : σ) :
    LuaM (Bool × σ) := do
  if ← pcall run argc luaResultCount tarceIndex then
    let ack ← LuaInputStream.new true
    answer callback ack tarceIndex vars
  else do
    let _ ← tostring (-1)
    pop (if tarceIndex = 0 then 1 else 2)
    pure (false, vars)

/-- `ExecFunction`; `findex` is an `s8`, but `tarceIndex` an `s32`. -/
def execFunction (argc : ℤ) (callback : IDataCallBackFuncType σ) (vars : σ) : LuaM (Bool × σ) := do
  let findex := toInt8 (-(argc + 1))
  if ← isfunction findex then
    getglobal luaTraceName
    if ← isfunction (-1) then
      insert (findex - 1)
      execPcall run argc callback (findex - 1) vars
    else
      pop 1
      execPcall run argc callback 0 vars
  else
    pop (-findex)
    pure (false, vars)

/-- `ExecGlobalFunction`, with `argc` an `s8`. -/
def execGlobalFunction (func : Bytes) (argc : ℤ) (callback : IDataCallBackFuncType σ) (vars : σ) :
    LuaM (Bool × σ) := do
  getglobal func
  if ← isfunction (-1) then
    if 0 < argc then insert (-(argc + 1))
    execFunction run argc callback vars
  else
    pop 1
    pure (false, vars)

/-- `LuaInterchangeCaller::PreCall` -/
def preCall (module func : Bytes) : LuaM LuaOutputStream := do
  let input ← LuaOutputStream.writeStr {} (some module)
  input.writeStr (some func)

/-- `LuaInterchangeCaller::Call`: the count becomes an `s8`. -/
def call (input : LuaOutputStream) (callback : IDataCallBackFuncType σ) (vars : σ) :
    LuaM (Bool × σ) :=
  execGlobalFunction run callFunction (toInt8 input.count) callback vars

/-- Call `outPutFunc` unless it is empty. -/
def outPut (outPutFunc : IDataOutputFuncType σ) (input : LuaOutputStream) (vars : σ) :
    LuaM (LuaOutputStream × σ) :=
  match outPutFunc with
  | some outPutFunc => outPutFunc input vars
  | none => pure (input, vars)

/-- `CallScriptFunc` -/
def callScriptFunc (module func : Bytes) (outPutFunc : IDataOutputFuncType σ)
    (callBackFun : IDataCallBackFuncType σ) (vars : σ) : LuaM (Bool × σ) := do
  let input ← preCall module func
  let (input, vars) ← outPut outPutFunc input vars
  call run input callBackFun vars

end Source

/-- `LuaCall`: it returns the number of results. -/
def luaCall (func : IDataInterchangeFuncType) : LuaM ℤ := do
  let input ← LuaInputStream.new false
  let output ← func input {}
  pure output.count

/-- A registered function called from Lua: it starts with its arguments on its stack, and
its results are that many values from the top. -/
def enterNative (func : IDataInterchangeFuncType) (args : List Value) (shared : Shared) :
    EStateM.Result Fault Shared (List Value) :=
  match luaCall func { stack := args.reverse, shared } with
  | .ok count s =>
      if 0 ≤ count ∧ count ≤ s.stack.length then .ok (s.stack.take count.toNat).reverse s.shared
      else .error .outOfBounds s.shared
  | .error fault s => .error fault s.shared

/-! ## What a call does -/

/-- The message handler of the state, if it has one. -/
def traceHandler (sh : Shared) : Option Value :=
  if (sh.global luaTraceName).isFunction then some (sh.global luaTraceName) else none

/-- The stack index of the message handler above `n` arguments and the function. -/
def traceIndex (sh : Shared) (n : ℕ) : ℤ :=
  if (traceHandler sh).isSome then -((n + 1 : ℕ) : ℤ) - 1 else 0

/-- The arguments of `call`: module, function and the written values. -/
def scriptArgs (module func : Bytes) (ws : List Write) : List Value :=
  cstringValue (some module) :: cstringValue (some func) :: written ws

/-- `CallScriptFunc` up to `Call`: the arguments are put on the stack. -/
def prepare {σ : Type} (module func : Bytes) (outPutFunc : IDataOutputFuncType σ) (vars : σ) :
    LuaM (LuaOutputStream × σ) := do
  let input ← preCall module func
  outPut outPutFunc input vars

/-- What is logged when a global function is called. -/
def callEvents (sh : Shared) (func : Bytes) (request : Request) : List Event :=
  [.global func (sh.global func), .global luaTraceName (sh.global luaTraceName), .pcall request]

/-- What a call comes to before the callback: nothing but the value false, or the stream that the
callback gets, and the index of the message handler. -/
abbrev Reached := EStateM.Result Fault LuaState (Option (LuaInputStream × ℤ))

/-- What has become of the stack when the Lua code has come to its end. -/
def returned (tarceIndex : ℤ) (handler : Option Value) (below : List Value) (log : List Event) :
    EStateM.Result Fault Shared (List Value) → Reached
  | .ok results shared =>
      let results := adjust luaResultCount results
      .ok (some (resultStream results (handler.toList ++ below), tarceIndex))
        ⟨results.reverse ++ (handler.toList ++ below), log, shared⟩
  | .error (.raised _) shared => .ok none ⟨below, log, shared⟩
  | .error fault shared => .error fault ⟨handler.toList ++ below, log, shared⟩

/-- The end of a call. -/
def Reached.resume {σ : Type} (callback : IDataCallBackFuncType σ) (vars : σ) :
    Reached → EStateM.Result Fault LuaState (Bool × σ)
  | .ok none s => .ok (false, vars) s
  | .ok (some (ack, tarceIndex)) s => answer callback ack tarceIndex vars s
  | .error fault s => .error fault s

/-- What is asked of Lua when the top of the stack holds the arguments. -/
def callRequest (n : ℕ) (s : LuaState) : Request :=
  ⟨s.shared.global callFunction, (s.stack.take n).reverse, traceHandler s.shared⟩

/-- `Call` with `n` arguments on the stack, up to the callback. -/
def reached (run : LuaRun) (n : ℕ) (s : LuaState) : Reached :=
  if (s.shared.global callFunction).isFunction then
    returned (traceIndex s.shared n) (traceHandler s.shared) (s.stack.drop n)
      (s.log ++ callEvents s.shared callFunction (callRequest n s)) (run (callRequest n s) s.shared)
  else
    .ok none { s with log := s.log ++ [.global callFunction (s.shared.global callFunction)] }

section Reached

variable {run : LuaRun} {n : ℕ} {s s' : LuaState}

/-- **How a call has no callback to invoke**: there is no function, or it raises an error. -/
theorem reached_eq_none (h : reached run n s = .ok none s') :
    ((s.shared.global callFunction).isFunction = false ∧
      s' = { s with log := s.log ++ [.global callFunction (s.shared.global callFunction)] }) ∨
    ((s.shared.global callFunction).isFunction = true ∧ ∃ message shared,
      run (callRequest n s) s.shared = .error (.raised message) shared ∧
      s' = ⟨s.stack.drop n, s.log ++ callEvents s.shared callFunction (callRequest n s), shared⟩) := by
  rw [reached] at h
  split at h
  · next hfn =>
      cases hrun : run (callRequest n s) s.shared with
      | ok results shared =>
          rw [hrun] at h
          cases h
      | error fault shared =>
          rw [hrun] at h
          cases fault with
          | raised message =>
              cases h
              exact .inr ⟨hfn, message, shared, rfl, rfl⟩
          | outOfBounds | nullPointer | endless => cases h
  · next hfn =>
      cases h
      exact .inl ⟨Bool.eq_false_iff.mpr hfn, rfl⟩

/-- **How it has one**: the results lie above the message handler. -/
theorem reached_eq_some {ack : LuaInputStream} {tarceIndex : ℤ}
    (h : reached run n s = .ok (some (ack, tarceIndex)) s') :
    (s.shared.global callFunction).isFunction = true ∧ tarceIndex = traceIndex s.shared n ∧
      ∃ results shared, run (callRequest n s) s.shared = .ok results shared ∧
        ack = resultStream (adjust luaResultCount results)
          ((traceHandler s.shared).toList ++ s.stack.drop n) ∧
        s' = ⟨(adjust luaResultCount results).reverse
          ++ ((traceHandler s.shared).toList ++ s.stack.drop n),
          s.log ++ callEvents s.shared callFunction (callRequest n s), shared⟩ := by
  rw [reached] at h
  split at h
  · next hfn =>
      cases hrun : run (callRequest n s) s.shared with
      | ok results shared =>
          rw [hrun] at h
          cases h
          exact ⟨hfn, rfl, results, shared, rfl, rfl, rfl⟩
      | error fault shared =>
          rw [hrun] at h
          cases fault <;> cases h
  · cases h

/-- Slots are taken off as many as there are. -/
theorem pop_drop {n : ℕ} {s : LuaState} (hle : n ≤ s.stack.length) :
    pop n s = .ok () ⟨s.stack.drop n, s.log, s.shared⟩ := by
  have hpop := pop_append (s.stack.take n) (s.stack.drop n) s.log s.shared
    (List.length_take_of_le hle).symm
  rwa [List.take_append_drop] at hpop

/-- **The results, and the handler, are taken off**, and the call returns true. -/
theorem popResults_drop {tarceIndex : ℤ} {handler : Option Value}
    (htarce : tarceIndex = 0 ↔ handler = none) {s : LuaState}
    (hle : handler.toList.length + luaResultCount ≤ s.stack.length) :
    popResults tarceIndex s
      = .ok true ⟨s.stack.drop (handler.toList.length + luaResultCount), s.log, s.shared⟩ := by
  rw [popResults, bind_ok (pop_drop (by omega : luaResultCount ≤ s.stack.length))]
  cases handler with
  | none =>
      rw [if_neg (not_not.mpr (htarce.mpr rfl))]
      simp only [Option.toList_none, List.length_nil, Nat.zero_add]
      rfl
  | some v =>
      rw [if_pos fun h => nomatch htarce.mp h]
      have hone : 1 ≤ (s.stack.drop luaResultCount).length := by
        rw [List.length_drop]
        simp only [Option.toList_some, List.length_singleton] at hle
        omega
      refine (bind_ok (pop_drop hone)).trans ?_
      rw [List.drop_drop, Nat.add_comm luaResultCount 1]
      rfl

end Reached

section Equations

variable (run : LuaRun) {σ : Type} (callback : IDataCallBackFuncType σ) (vars : σ)
  (args below : List Value) (fn : Value) (log : List Event) (sh : Shared)

theorem toInt8_findex {n : ℕ} (h : n ≤ 127) : toInt8 (-((n : ℤ) + 1)) = -(n : ℤ) - 1 := by
  rw [toInt8_eq_self (by omega) (by omega)]
  omega

theorem traceIndex_none (h : traceHandler sh = none) (n : ℕ) : traceIndex sh n = 0 := by
  rw [traceIndex, h]
  rfl

theorem traceIndex_some {v : Value} (h : traceHandler sh = some v) (n : ℕ) :
    traceIndex sh n = -((n + 1 : ℕ) : ℤ) - 1 := by
  rw [traceIndex, h]
  rfl

theorem traceIndex_eq_zero_iff (sh : Shared) (n : ℕ) :
    traceIndex sh n = 0 ↔ traceHandler sh = none := by
  cases htrace : traceHandler sh with
  | none => exact iff_of_true (traceIndex_none sh htrace n) rfl
  | some v =>
      rw [traceIndex_some sh htrace]
      exact iff_of_false (by omega) (by simp)

theorem traceHandler_of_isFunction (h : (sh.global luaTraceName).isFunction = true) :
    traceHandler sh = some (sh.global luaTraceName) := if_pos h

theorem traceHandler_of_not_isFunction (h : ¬(sh.global luaTraceName).isFunction = true) :
    traceHandler sh = none := if_neg h

/-- The index finds the handler, which lies under the arguments and the function. -/
theorem handlerAt_traceIndex {n : ℕ} (hn : n = args.length) :
    handlerAt (traceIndex sh n) ⟨args.reverse ++ fn :: ((traceHandler sh).toList ++ below), log, sh⟩
      = .ok (traceHandler sh) ⟨args.reverse ++ fn :: ((traceHandler sh).toList ++ below), log, sh⟩ := by
  cases htrace : traceHandler sh with
  | none =>
      rw [traceIndex_none sh htrace, handlerAt, if_pos rfl]
      rfl
  | some v =>
      have hlen : n + 1 = (args.reverse ++ [fn]).length := by
        rw [List.length_append, List.length_reverse, hn, List.length_singleton]
      have hvalue := validValue_append (args.reverse ++ [fn]) below v log sh hlen
      rw [List.append_assoc, List.singleton_append] at hvalue
      rw [traceIndex_some sh htrace, handlerAt, if_neg (by omega)]
      exact bind_ok hvalue

/-- **`ExecFunction` from the call on.** -/
theorem execPcall_eq {n : ℕ} (hn : n = args.length) :
    execPcall run n callback (traceIndex sh n) vars
        ⟨args.reverse ++ fn :: ((traceHandler sh).toList ++ below), log, sh⟩
      = (returned (traceIndex sh n) (traceHandler sh) below
          (log ++ [.pcall ⟨fn, args, traceHandler sh⟩])
          (run ⟨fn, args, traceHandler sh⟩ sh)).resume callback vars := by
  have hpcall := pcall_append ((traceHandler sh).toList ++ below) fn log sh run args luaResultCount
    (handlerAt_traceIndex args below fn log sh hn)
  rw [← hn] at hpcall
  rw [execPcall]
  cases hrun : run ⟨fn, args, traceHandler sh⟩ sh with
  | ok results shared =>
      rw [hrun] at hpcall
      rw [bind_ok hpcall, if_pos rfl]
      exact bind_ok (new_results _ _ shared (adjust_length _ _))
  | error fault shared =>
      rw [hrun] at hpcall
      cases fault with
      | raised message =>
          obtain ⟨text, message', htext⟩ := tostring_top ((traceHandler sh).toList ++ below) message
            (log ++ [.pcall ⟨fn, args, traceHandler sh⟩]) shared
          rw [bind_ok hpcall, if_neg Bool.false_ne_true, bind_ok htext]
          cases htrace : traceHandler sh with
          | none =>
              rw [traceIndex_none sh htrace, if_pos rfl]
              exact bind_ok (pop_append [message'] below _ shared (n := 1) rfl)
          | some v =>
              rw [traceIndex_some sh htrace, if_neg (by omega)]
              exact bind_ok (pop_append [message', v] below _ shared (n := 2) rfl)
      | outOfBounds | nullPointer | endless => exact bind_error hpcall

/-- **`ExecFunction`** with up to 127 arguments. -/
theorem execFunction_eq {n : ℕ} (hn : n = args.length) (hle : n ≤ 127) (hfn : fn.isFunction = true) :
    execFunction run n callback vars ⟨args.reverse ++ fn :: below, log, sh⟩
      = (returned (traceIndex sh n) (traceHandler sh) below
          (log ++ [.global luaTraceName (sh.global luaTraceName), .pcall ⟨fn, args, traceHandler sh⟩])
          (run ⟨fn, args, traceHandler sh⟩ sh)).resume callback vars := by
  have hlen : n = args.reverse.length := by rw [List.length_reverse, hn]
  have hfun := isfunction_append args.reverse below fn log sh hlen
  rw [hfn] at hfun
  have htop := isfunction_top (args.reverse ++ fn :: below) (sh.global luaTraceName)
    (log ++ [.global luaTraceName (sh.global luaTraceName)]) sh
  have hpcall := execPcall_eq run callback vars args below fn
    (log ++ [.global luaTraceName (sh.global luaTraceName)]) sh hn
  rw [List.append_assoc, List.singleton_append] at hpcall
  simp only [execFunction, toInt8_findex hle]
  rw [bind_ok hfun, if_pos rfl, bind_ok (getglobal_eq _ log sh luaTraceName), bind_ok htop, ← hpcall]
  by_cases htrace : (sh.global luaTraceName).isFunction = true
  · have hhandler := traceHandler_of_isFunction sh htrace
    have hidx : -(n : ℤ) - 1 - 1 = -((n + 1 : ℕ) : ℤ) - 1 := by omega
    have hinsert := insert_append (args.reverse ++ [fn]) below (sh.global luaTraceName)
      (log ++ [.global luaTraceName (sh.global luaTraceName)]) sh (n := n + 1)
      (by rw [List.length_append, ← hlen]; rfl)
    simp only [List.cons_append, List.append_assoc, List.nil_append] at hinsert
    rw [if_pos htrace, hidx, bind_ok hinsert, hhandler, traceIndex_some sh hhandler]
    rfl
  · have hhandler := traceHandler_of_not_isFunction sh htrace
    rw [if_neg htrace, bind_ok (pop_one _ _ _ sh), hhandler, traceIndex_none sh hhandler]
    rfl

/-- **`ExecGlobalFunction`** puts the function under its arguments. -/
theorem execGlobalFunction_eq (func : Bytes) {n : ℕ} (hn : n = args.length) (hle : n ≤ 127)
    (hfn : (sh.global func).isFunction = true) :
    execGlobalFunction run func n callback vars ⟨args.reverse ++ below, log, sh⟩
      = (returned (traceIndex sh n) (traceHandler sh) below
          (log ++ callEvents sh func ⟨sh.global func, args, traceHandler sh⟩)
          (run ⟨sh.global func, args, traceHandler sh⟩ sh)).resume callback vars := by
  have hlen : n = args.reverse.length := by rw [List.length_reverse, hn]
  have htop := isfunction_top (args.reverse ++ below) (sh.global func)
    (log ++ [.global func (sh.global func)]) sh
  rw [hfn] at htop
  have hexec := execFunction_eq run callback vars args below (sh.global func)
    (log ++ [.global func (sh.global func)]) sh hn hle hfn
  rw [List.append_assoc, List.singleton_append] at hexec
  rw [execGlobalFunction, bind_ok (getglobal_eq _ log sh func), bind_ok htop, if_pos rfl, callEvents,
    ← hexec]
  by_cases hpos : 0 < (n : ℤ)
  · have hinsert := insert_append args.reverse below (sh.global func)
      (log ++ [.global func (sh.global func)]) sh hlen
    have hidx : -((n : ℤ) + 1) = -(n : ℤ) - 1 := by omega
    rw [if_pos hpos, hidx]
    exact bind_ok hinsert
  · have hnil : args = [] := List.length_eq_zero_iff.mp (by omega)
    subst hnil
    rw [if_neg hpos]
    rfl

/-- Without the function, what was pushed stays on the stack. -/
theorem execGlobalFunction_missing (func : Bytes) (argc : ℤ)
    (hfn : ¬(sh.global func).isFunction = true) :
    execGlobalFunction run func argc callback vars ⟨below, log, sh⟩
      = .ok (false, vars) ⟨below, log ++ [.global func (sh.global func)], sh⟩ := by
  rw [execGlobalFunction, bind_ok (getglobal_eq _ log sh func), bind_ok (isfunction_top _ _ _ sh),
    if_neg hfn]
  exact bind_ok (pop_one _ _ _ sh)

/-- What a callback leaves in the variables, or nothing has changed. -/
def CallbackLeaves (callback : IDataCallBackFuncType σ) (vars vars' : σ) : Prop :=
  vars' = vars ∨ ∃ cb ack s s', callback = some cb ∧ cb ack vars s = .ok vars' s'

section Variables

variable {callback vars} {vars' : σ} {ret : Bool} {s s' : LuaState}

theorem leaves_of_execPcall {run : LuaRun} {argc tarceIndex : ℤ}
    (h : execPcall run argc callback tarceIndex vars s = .ok (ret, vars') s') :
    CallbackLeaves callback vars vars' := by
  obtain ⟨ok, s₁, -, h⟩ := ok_of_bind h
  cases ok with
  | false =>
      obtain ⟨_, s₂, -, h⟩ := ok_of_bind h
      obtain ⟨_, s₃, -, h⟩ := ok_of_bind h
      cases h
      exact .inl rfl
  | true =>
      obtain ⟨ack, s₂, -, h⟩ := ok_of_bind h
      obtain ⟨vars₁, s₃, hcb, h⟩ := ok_of_bind h
      obtain ⟨_, s₄, -, h⟩ := ok_of_bind h
      cases h
      cases hsome : callback with
      | none =>
          rw [hsome] at hcb
          cases hcb
          exact .inl rfl
      | some cb =>
          rw [hsome] at hcb
          exact .inr ⟨cb, ack, s₂, s₃, rfl, hcb⟩

theorem leaves_of_execFunction {run : LuaRun} {argc : ℤ}
    (h : execFunction run argc callback vars s = .ok (ret, vars') s') :
    CallbackLeaves callback vars vars' := by
  obtain ⟨ok, s₁, -, h⟩ := ok_of_bind h
  cases ok with
  | false =>
      obtain ⟨_, s₂, -, h⟩ := ok_of_bind h
      cases h
      exact .inl rfl
  | true =>
      obtain ⟨_, s₂, -, h⟩ := ok_of_bind h
      obtain ⟨ok, s₃, -, h⟩ := ok_of_bind h
      cases ok with
      | false =>
          obtain ⟨_, s₄, -, h⟩ := ok_of_bind h
          exact leaves_of_execPcall h
      | true =>
          obtain ⟨_, s₄, -, h⟩ := ok_of_bind h
          exact leaves_of_execPcall h

/-- **Only the callback changes the variables**, however many arguments are counted. -/
theorem leaves_of_call {run : LuaRun} {input : LuaOutputStream}
    (h : call run input callback vars s = .ok (ret, vars') s') : CallbackLeaves callback vars vars' := by
  obtain ⟨_, s₁, -, h⟩ := ok_of_bind h
  obtain ⟨ok, s₂, -, h⟩ := ok_of_bind h
  cases ok with
  | false =>
      obtain ⟨_, s₃, -, h⟩ := ok_of_bind h
      cases h
      exact .inl rfl
  | true =>
      rw [if_pos rfl] at h
      split at h
      · obtain ⟨_, s₃, -, h⟩ := ok_of_bind h
        exact leaves_of_execFunction h
      · exact leaves_of_execFunction h

end Variables

@[simp] theorem preCall_eq (module func : Bytes) :
    preCall module func ⟨below, log, sh⟩
      = .ok ⟨2⟩ ⟨cstringValue (some func) :: cstringValue (some module) :: below, log, sh⟩ := rfl

/-- **`Call`** with up to 127 arguments: what it comes to, and then the callback. -/
theorem call_eq {n : ℕ} (hle : n ≤ 127) {s : LuaState} (hlen : n ≤ s.stack.length) :
    call run ⟨n⟩ callback vars s = (reached run n s).resume callback vars := by
  obtain ⟨stack, log, sh⟩ := s
  rw [call, toInt8_eq_self (by dsimp only; omega) (by dsimp only; omega)]
  by_cases hfn : (sh.global callFunction).isFunction = true
  · have hsplit : (stack.take n).reverse.reverse ++ stack.drop n = stack := by
      rw [List.reverse_reverse, List.take_append_drop]
    have hn : n = (stack.take n).reverse.length := by
      rw [List.length_reverse, List.length_take_of_le hlen]
    have hexec := execGlobalFunction_eq run callback vars (stack.take n).reverse (stack.drop n) log
      sh callFunction hn hle hfn
    rw [hsplit] at hexec
    rw [hexec, reached, if_pos hfn]
    rfl
  · rw [execGlobalFunction_missing _ _ _ _ _ _ _ _ hfn, reached, if_neg hfn]
    rfl

theorem outPut_writing (outPutFunc : Option (List Write)) (input : LuaOutputStream) :
    outPut (outPutFunc.map writing) input vars ⟨below, log, sh⟩
      = .ok (⟨input.count + (written (outPutFunc.getD [])).length⟩, vars)
          ⟨(written (outPutFunc.getD [])).reverse ++ below, log, sh⟩ := by
  cases outPutFunc with
  | none => rfl
  | some ws =>
      change (writeAll ws input >>= fun input => pure (input, vars)) _ = _
      rw [bind_ok (writeAll_eq below log sh input ws)]
      rfl

/-- The arguments are pushed before the function is looked for. -/
theorem callScriptFunc_written (module func : Bytes) (outPutFunc : Option (List Write)) :
    callScriptFunc run module func (outPutFunc.map writing) callback vars ⟨below, log, sh⟩
      = call run ⟨(scriptArgs module func (outPutFunc.getD [])).length⟩ callback vars
          ⟨(scriptArgs module func (outPutFunc.getD [])).reverse ++ below, log, sh⟩ := by
  have hstack : (written (outPutFunc.getD [])).reverse
      ++ cstringValue (some func) :: cstringValue (some module) :: below
      = (scriptArgs module func (outPutFunc.getD [])).reverse ++ below := by
    simp [scriptArgs]
  have hcount : 2 + (written (outPutFunc.getD [])).length
      = (scriptArgs module func (outPutFunc.getD [])).length := by
    simp only [scriptArgs, List.length_cons]
    omega
  rw [callScriptFunc, bind_ok (preCall_eq _ _ _ module func),
    bind_ok (outPut_writing vars _ log sh outPutFunc ⟨2⟩), hstack, hcount]

/-- **`CallScriptFunc`**, when at most 125 values are written and `call` is a function. -/
theorem callScriptFunc_eq {module func : Bytes} {outPutFunc : Option (List Write)}
    (hle : (written (outPutFunc.getD [])).length ≤ 125)
    (hfn : (sh.global callFunction).isFunction = true) {args : List Value}
    (hargs : scriptArgs module func (outPutFunc.getD []) = args) :
    callScriptFunc run module func (outPutFunc.map writing) callback vars ⟨below, log, sh⟩
      = (returned (traceIndex sh args.length) (traceHandler sh) below
          (log ++ callEvents sh callFunction ⟨sh.global callFunction, args, traceHandler sh⟩)
          (run ⟨sh.global callFunction, args, traceHandler sh⟩ sh)).resume callback vars := by
  have hlen : args.length ≤ 127 := by
    rw [← hargs, scriptArgs, List.length_cons, List.length_cons]
    omega
  rw [callScriptFunc_written, hargs, call, toInt8_eq_self (by dsimp only; omega)
    (by dsimp only; omega)]
  exact execGlobalFunction_eq run callback vars args below log sh callFunction rfl hlen hfn

end Equations

end SeedCore.Lua
