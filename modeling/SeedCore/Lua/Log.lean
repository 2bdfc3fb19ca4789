import SeedCore.Lua.Program

/-!
# What reaches the log

The log of a stack gets a new entry when a global is read and when a function is called,
and none is ever taken away.  So a property of logs that such entries keep is kept by
every program, however it ends.

## Main definitions

* `Silent x` — the program leaves the log alone.
* `KeepsLog P x` — it keeps the property `P` of the log.
* `keepsLog_native`, `keepsLog_callScriptFunc` — bodies and calls keep what the entries keep.
-/

namespace SeedCore.Lua

variable {α β : Type}

/-- The program keeps this property of the log, however it ends. -/
def KeepsLog (P : List Event → Prop) (x : LuaM α) : Prop := Keeps (fun s => P s.log) x

/-- The program leaves the log alone. -/
def Silent (x : LuaM α) : Prop := ∀ s, (finalState (x s)).log = s.log

section Rules

variable {P : List Event → Prop} {x : LuaM α} {f : α → LuaM β}

theorem KeepsLog.apply (h : KeepsLog P x) {s : LuaState} (hs : P s.log) :
    P (finalState (x s)).log := Keeps.finalState h hs

theorem KeepsLog.pure (a : α) : KeepsLog P (Pure.pure a : LuaM α) := Keeps.pure a

theorem KeepsLog.bind (hx : KeepsLog P x) (hf : ∀ a, KeepsLog P (f a)) : KeepsLog P (x >>= f) :=
  Keeps.bind hx hf

theorem KeepsLog.ite {c : Prop} [Decidable c] {y : LuaM α} (hx : KeepsLog P x)
    (hy : KeepsLog P y) : KeepsLog P (if c then x else y) := Keeps.ite hx hy

theorem Silent.keepsLog (h : Silent x) : KeepsLog P x := by
  intro s hs
  have hlog := h s
  cases hx : x s with
  | ok a s' =>
      rw [hx] at hlog
      exact (congrArg P hlog).mpr hs
  | error e s' =>
      rw [hx] at hlog
      exact (congrArg P hlog).mpr hs

theorem Silent.pure (a : α) : Silent (Pure.pure a : LuaM α) := fun _ => rfl

theorem Silent.throw (fault : Fault) : Silent (throw fault : LuaM α) := fun _ => rfl

theorem Silent.bind (hx : Silent x) (hf : ∀ a, Silent (f a)) : Silent (x >>= f) := by
  intro s
  have hlog := hx s
  cases hrun : x s with
  | ok a s' =>
      rw [hrun] at hlog
      rw [bind_ok hrun]
      exact (hf a s').trans hlog
  | error e s' =>
      rw [hrun] at hlog
      rwa [bind_error hrun]

theorem Silent.ite {c : Prop} [Decidable c] {y : LuaM α} (hx : Silent x) (hy : Silent y) :
    Silent (if c then x else y) := by
  split
  · exact hx
  · exact hy

/-- A program that changes the stack only. -/
theorem silent_get {f : LuaState → LuaM α} (h : ∀ s, (finalState (f s s)).log = s.log) :
    Silent (get >>= f) := fun s => by
  rw [bind_ok (show (get : LuaM LuaState) s = .ok s s from rfl)]
  exact h s

end Rules

/-! ## The interface -/

section Interface

theorem silent_value (idx : ℤ) : Silent (value idx) := silent_get fun s => by split <;> rfl

/-- Functions that look at a slot first. -/
theorem silent_value_bind (idx : ℤ) {f : Option Value → LuaM α} (hf : ∀ v, Silent (f v)) :
    Silent (value idx >>= f) := (silent_value idx).bind hf

theorem silent_validValue (idx : ℤ) : Silent (validValue idx) :=
  silent_value_bind idx fun v => by cases v <;> intro s <;> rfl

theorem silent_settop (idx : ℤ) : Silent (settop idx) := silent_get fun s => by split <;> rfl

theorem silent_pop (n : ℤ) : Silent (pop n) := silent_settop _

theorem silent_insert (idx : ℤ) : Silent (insert idx) := silent_get fun s => by split <;> rfl

theorem silent_isfunction (idx : ℤ) : Silent (isfunction idx) :=
  silent_value_bind idx fun _ => Silent.pure _

theorem silent_isnil (idx : ℤ) : Silent (isnil idx) := silent_value_bind idx fun _ => Silent.pure _

theorem silent_gettop : Silent gettop := silent_get fun _ => rfl

theorem silent_tostring (idx : ℤ) : Silent (tostring idx) := by
  refine silent_value_bind idx fun v => ?_
  cases v with
  | none => exact Silent.pure _
  | some v =>
      cases v with
      | integer n => exact fun _ => rfl
      | float n text => exact fun _ => rfl
      | _ => exact Silent.pure _

theorem silent_onShared (x : Code α) : Silent (onShared x) := by
  intro s
  rw [onShared]
  cases x s.shared <;> rfl

theorem silent_len (idx : ℤ) : Silent (len idx) :=
  (silent_validValue idx).bind fun _ => (silent_onShared _).bind fun _ _ => rfl

theorem silent_getfield (idx : ℤ) (key : Bytes) : Silent (getfield idx key) :=
  (silent_validValue idx).bind fun _ => (silent_onShared _).bind fun _ _ => rfl

theorem silent_handlerAt (msgh : ℤ) : Silent (handlerAt msgh) := by
  rw [handlerAt]
  split
  · exact Silent.pure _
  · exact (silent_validValue msgh).bind fun _ => Silent.pure _

variable {P : List Event → Prop}

theorem keepsLog_getglobal (hglobal : ∀ log name v, P log → P (log ++ [.global name v]))
    (name : Bytes) : KeepsLog P (getglobal name) := fun s hs => hglobal s.log name _ hs

theorem ends_pcallEnd {log : List Event} (h : P log) (nresults : ℕ) (below : List Value)
    (r : EStateM.Result Fault Shared (List Value)) :
    Ends (fun _ s => P s.log) (fun s => P s.log) (pcallEnd nresults below log r) := by
  cases r with
  | ok results shared => exact h
  | error fault shared => cases fault <;> exact h

theorem keepsLog_pcall (hpcall : ∀ log request, P log → P (log ++ [.pcall request]))
    (run : LuaRun) (nargs : ℤ) (nresults : ℕ) (msgh : ℤ) : KeepsLog P (pcall run nargs nresults msgh) := by
  refine (silent_handlerAt msgh).keepsLog.bind fun handler => ?_
  intro s hs
  rw [bind_ok (show (get : LuaM LuaState) s = .ok s s from rfl)]
  split
  · cases hdrop : s.stack.drop nargs.toNat with
    | nil => exact hs
    | cons func below => exact ends_pcallEnd (hpcall s.log _ hs) nresults below _
  · exact hs

/-- A negative number of arguments is not accepted. -/
theorem keepsLog_pcall_of_neg {nargs : ℤ} (hneg : nargs < 0) (run : LuaRun) (nresults : ℕ)
    (msgh : ℤ) : Triple (fun s => P s.log) (pcall run nargs nresults msgh) (fun _ _ => False)
      (fun s => P s.log) := by
  refine Triple.bind (silent_handlerAt msgh).keepsLog fun handler => ?_
  intro s hs
  rw [bind_ok (show (get : LuaM LuaState) s = .ok s s from rfl), if_neg (by omega)]
  exact hs

end Interface

/-! ## The streams -/

section Streams

variable (input : LuaInputStream) (output : LuaOutputStream)

theorem silent_countResults (left : ℕ) : Silent (LuaInputStream.countResults left) := by
  induction left with
  | zero => exact Silent.pure _
  | succ left ih =>
      refine (silent_isnil _).bind fun b => ?_
      cases b with
      | true => exact Silent.pure _
      | false => exact ih.bind fun _ => Silent.pure _

theorem silent_new (callStack : Bool) : Silent (LuaInputStream.new callStack) := by
  cases callStack with
  | true => exact (silent_countResults _).bind fun _ => silent_gettop.bind fun _ => Silent.pure _
  | false => exact silent_gettop.bind fun _ => Silent.pure _

theorem silent_guarded {read : LuaM (Option Datum)} (h : Silent read) :
    Silent (input.guarded read) := by
  rw [LuaInputStream.guarded]
  split
  · exact h.bind fun _ => Silent.pure _
  · exact Silent.pure _

theorem silent_readInteger (narrow : Int64 → Datum) : Silent (input.readInteger narrow) := by
  refine silent_guarded input (Silent.bind ?_ fun _ => Silent.pure _)
  exact silent_value_bind _ fun _ => silent_get fun _ => rfl

theorem silent_read (r : Read) : Silent (r.run input) := by
  cases r with
  | bool =>
      refine silent_guarded input (Silent.bind ?_ fun _ => Silent.pure _)
      exact silent_value_bind _ fun _ => Silent.pure _
  | int8 => exact silent_readInteger input _
  | int16 => exact silent_readInteger input _
  | int32 => exact silent_readInteger input _
  | int64 => exact silent_readInteger input _
  | blob => exact Silent.pure _
  | str =>
      refine silent_guarded input ((silent_tostring _).bind fun val => (silent_len _).bind fun _ =>
        (silent_pop _).bind fun _ => ?_)
      cases val <;> intro s <;> rfl
  | ptr type =>
      refine silent_guarded input ((silent_getfield _ _).bind fun _ => Silent.bind
        (silent_value_bind _ fun _ => Silent.pure _) fun ptr => (silent_pop _).bind fun _ =>
        (silent_getfield _ _).bind fun _ => (silent_tostring _).bind fun luaType =>
        (silent_pop _).bind fun _ => ?_)
      cases luaType with
      | none => exact Silent.throw _
      | some luaType => exact Silent.ite (Silent.pure _) (Silent.pure _)

theorem silent_write (w : Write) : Silent (w.run output) := by
  intro s
  obtain ⟨stack, log, sh⟩ := s
  rw [w.run_eq]
  rfl

end Streams

/-! ## Calls and bodies -/

section Calls

variable {P : List Event → Prop} (hglobal : ∀ log name v, P log → P (log ++ [.global name v]))
  {run : LuaRun} {σ : Type} {callback : IDataCallBackFuncType σ}
include hglobal

/-- `ExecFunction` keeps what the call keeps. -/
theorem keepsLog_execFunction {argc : ℤ}
    (h : ∀ tarceIndex vars, KeepsLog P (execPcall run argc callback tarceIndex vars)) (vars : σ) :
    KeepsLog P (execFunction run argc callback vars) := by
  refine (silent_isfunction _).keepsLog.bind fun b => ?_
  cases b with
  | false => exact (silent_pop _).keepsLog.bind fun _ => KeepsLog.pure _
  | true =>
      refine (keepsLog_getglobal hglobal _).bind fun _ => (silent_isfunction _).keepsLog.bind fun b => ?_
      cases b with
      | false => exact (silent_pop _).keepsLog.bind fun _ => h _ _
      | true => exact (silent_insert _).keepsLog.bind fun _ => h _ _

theorem keepsLog_execGlobalFunction {argc : ℤ}
    (h : ∀ tarceIndex vars, KeepsLog P (execPcall run argc callback tarceIndex vars))
    (func : Bytes) (vars : σ) : KeepsLog P (execGlobalFunction run func argc callback vars) := by
  refine (keepsLog_getglobal hglobal _).bind fun _ => (silent_isfunction _).keepsLog.bind fun b =>
    KeepsLog.ite (KeepsLog.ite ?_ (keepsLog_execFunction hglobal h vars)) ?_
  · exact (silent_insert _).keepsLog.bind fun _ => keepsLog_execFunction hglobal h vars
  · exact (silent_pop _).keepsLog.bind fun _ => KeepsLog.pure _

omit hglobal in
/-- A call with a negative number of arguments does not come to pass. -/
theorem keepsLog_execPcall_of_neg {argc : ℤ} (hneg : argc < 0) (tarceIndex : ℤ) (vars : σ) :
    KeepsLog P (execPcall run argc callback tarceIndex vars) :=
  (keepsLog_pcall_of_neg hneg run _ _).bind fun _ => fun _ h => h.elim

omit hglobal in
/-- The end of a call keeps what the callback keeps. -/
theorem keepsLog_answer (hcallback : ∀ cb, callback = some cb → ∀ ack vars, KeepsLog P (cb ack vars))
    (ack : LuaInputStream) (tarceIndex : ℤ) (vars : σ) :
    KeepsLog P (answer callback ack tarceIndex vars) := by
  have hpop : KeepsLog P (popResults tarceIndex) := by
    refine (silent_pop _).keepsLog.bind fun _ => ?_
    exact KeepsLog.ite ((silent_pop _).keepsLog.bind fun _ => KeepsLog.pure _) (KeepsLog.pure _)
  refine KeepsLog.bind ?_ fun _ => hpop.bind fun _ => KeepsLog.pure _
  cases hcb : callback with
  | none => exact KeepsLog.pure _
  | some cb => exact hcallback cb hcb ack vars

variable (hpcall : ∀ log request, P log → P (log ++ [.pcall request]))
include hpcall

theorem keepsLog_call (hcallback : ∀ cb, callback = some cb → ∀ ack vars, KeepsLog P (cb ack vars))
    (input : LuaOutputStream) (vars : σ) : KeepsLog P (call run input callback vars) := by
  refine keepsLog_execGlobalFunction hglobal (fun tarceIndex vars => ?_) _ _
  refine (keepsLog_pcall hpcall _ _ _ _).bind fun b => ?_
  cases b with
  | true =>
      exact (silent_new _).keepsLog.bind fun ack => keepsLog_answer hcallback ack tarceIndex vars
  | false =>
      exact (silent_tostring _).keepsLog.bind fun _ => (silent_pop _).keepsLog.bind fun _ =>
        KeepsLog.pure _

theorem keepsLog_callScriptFunc
    (hcallback : ∀ cb, callback = some cb → ∀ ack vars, KeepsLog P (cb ack vars))
    {outPutFunc : IDataOutputFuncType σ}
    (houtPut : ∀ f, outPutFunc = some f → ∀ input vars, KeepsLog P (f input vars))
    (module func : Bytes) (vars : σ) :
    KeepsLog P (callScriptFunc run module func outPutFunc callback vars) := by
  have hpre : Silent (preCall module func) := fun _ => rfl
  refine hpre.keepsLog.bind fun input => KeepsLog.bind ?_ fun p =>
    keepsLog_call hglobal hpcall hcallback p.1 p.2
  cases hf : outPutFunc with
  | none => exact KeepsLog.pure _
  | some f => exact houtPut f hf input vars

end Calls

section Bodies

variable {P : List Event → Prop}

/-- Code that looks at the state first. -/
theorem KeepsLog.get_bind {f : LuaState → LuaM β} (h : ∀ s, KeepsLog P (f s)) :
    KeepsLog P (get >>= f) := fun s hs => by
  rw [bind_ok (show (get : LuaM LuaState) s = .ok s s from rfl)]
  exact h s s hs

mutual

/-- **Bodies**, by induction on the tree. -/
theorem keepsLog_native {ins outs : ℕ}
    (hglobal : ∀ log name v, P log → P (log ++ [.global name v]))
    (hpcall : ∀ log request, P log → P (log ++ [.pcall request])) :
    ∀ (body : Native ins outs) (streams : Streams), KeepsLog P (body.run streams)
  | .done, _ => KeepsLog.pure _
  | .perform op next, streams => by
      rw [Native.run]
      exact (keepsLog_op hglobal hpcall op streams).bind fun p =>
        (keepsLog_native hglobal hpcall (next (outcomes p.1)) p.2).bind fun _ => KeepsLog.pure _

theorem keepsLog_op {ins outs : ℕ} (hglobal : ∀ log name v, P log → P (log ++ [.global name v]))
    (hpcall : ∀ log request, P log → P (log ++ [.pcall request])) :
    ∀ (op : Op ins outs) (streams : Streams), KeepsLog P (op.run streams)
  | .read i r, streams => by
      rw [Op.run]
      exact .get_bind fun s => (silent_read _ r).keepsLog.bind fun _ => KeepsLog.pure _
  | .reset i, _ => by
      rw [Op.run]
      exact .get_bind fun s => KeepsLog.pure _
  | .getCount i, _ => by
      rw [Op.run]
      exact .get_bind fun s => KeepsLog.pure _
  | .write o w, streams => by
      rw [Op.run]
      exact .get_bind fun s => (silent_write _ w).keepsLog.bind fun _ => KeepsLog.pure _
  | .call module func outPutFunc lua callBackFun, streams => by
      rw [Op.run]
      exact (keepsLog_callScriptFunc hglobal hpcall (keepsLog_callback hglobal hpcall callBackFun)
        (keepsLog_outPut hglobal hpcall outPutFunc) module func ([], streams)).bind fun _ =>
          .get_bind fun s => KeepsLog.pure _

theorem keepsLog_outPut {ins outs : ℕ}
    (hglobal : ∀ log name v, P log → P (log ++ [.global name v]))
    (hpcall : ∀ log request, P log → P (log ++ [.pcall request])) :
    ∀ (outPutFunc : OutPut ins outs) (f : LuaOutputStream → Captured → LuaM (LuaOutputStream × Captured)),
      outPutFunc.run = some f → ∀ input vars, KeepsLog P (f input vars)
  | .empty, f, hf, _, _ => by
      rw [OutPut.run] at hf
      cases hf
  | .of body, f, hf, input, vars => by
      rw [OutPut.run] at hf
      cases hf
      exact (keepsLog_native hglobal hpcall body _).bind fun _ => .get_bind fun s => KeepsLog.pure _

theorem keepsLog_callback {ins outs : ℕ}
    (hglobal : ∀ log name v, P log → P (log ++ [.global name v]))
    (hpcall : ∀ log request, P log → P (log ++ [.pcall request])) :
    ∀ (callBackFun : Callback ins outs) (cb : LuaInputStream → Captured → LuaM Captured),
      callBackFun.run = some cb → ∀ ack vars, KeepsLog P (cb ack vars)
  | .empty, cb, hcb, _, _ => by
      rw [Callback.run] at hcb
      cases hcb
  | .of body, cb, hcb, ack, vars => by
      rw [Callback.run] at hcb
      cases hcb
      exact (keepsLog_native hglobal hpcall (body (outcomes vars.1)) _).bind fun _ => KeepsLog.pure _

end

end Bodies

end SeedCore.Lua
