import SeedCore.Lua.Log

/-!
# The arguments of a call

The number of values to pass becomes an `s8` on its way to `lua_pcall`.  Up to 127 of
them, module and function included, it stays what it is, and `call` is invoked with all of
them and with the trace handler.  Beyond that it turns negative, and no function is
called, or it wraps around to fewer values.

## Main definitions

* `issued log s` — the first request of `lua_pcall` since the log was `log`.
* `callScriptFunc_passes_iff` — when the request is the one that was meant.
-/

namespace SeedCore.Lua

/-- What `lua_pcall` was asked to do, one request after the other. -/
def requests (log : List Event) : List Request :=
  log.filterMap fun
    | .pcall request => some request
    | .global _ _ => none

/-- The first request of `lua_pcall` since the log was `log`. -/
def issued (log : List Event) (s : LuaState) : Option Request :=
  (requests s.log)[(requests log).length]?

theorem issued_of_prefix {log : List Event} {sh : Shared} {func : Bytes} {request : Request}
    {s : LuaState} (h : log ++ callEvents sh func request <+: s.log) :
    issued log s = some request := by
  obtain ⟨rest, hrest⟩ := h
  have hrequests : requests s.log = requests log ++ request :: requests rest := by
    rw [← hrest]
    simp [requests, callEvents]
  rw [issued, hrequests, List.getElem?_append_right (Nat.le_refl _), Nat.sub_self]
  rfl

theorem issued_eq_none {log : List Event} {s : LuaState} (h : requests s.log = requests log) :
    issued log s = none := by
  rw [issued, h]
  exact List.getElem?_eq_none (Nat.le_refl _)

/-- What keeps every beginning of the log. -/
theorem keepsLog_prefix_callback {ins outs : ℕ} (callBackFun : Callback ins outs) (log : List Event)
    {cb : LuaInputStream → Captured → LuaM Captured} (hcb : callBackFun.run = some cb)
    (ack : LuaInputStream) (vars : Captured) : KeepsLog (fun l => log <+: l) (cb ack vars) :=
  keepsLog_callback (fun l _ _ h => h.trans (List.prefix_append l _))
    (fun l _ h => h.trans (List.prefix_append l _)) callBackFun cb hcb ack vars

/-- Once the function is called, the log only grows. -/
theorem prefix_resume {ins outs : ℕ} (callBackFun : Callback ins outs) (vars : Captured)
    (tarceIndex : ℤ) (handler : Option Value) (below : List Value) (log : List Event)
    (r : EStateM.Result Fault Shared (List Value)) :
    log <+: (finalState ((returned tarceIndex handler below log r).resume callBackFun.run vars)).log := by
  cases r with
  | ok results shared =>
      have hkeeps := keepsLog_answer
        (fun cb hcb ack vars => keepsLog_prefix_callback callBackFun log hcb ack vars)
        (resultStream (adjust luaResultCount results) (handler.toList ++ below)) tarceIndex vars
      exact hkeeps.apply (s := ⟨_, log, shared⟩) List.prefix_rfl
  | error fault shared => cases fault <;> exact List.prefix_rfl

section Issued

variable (run : LuaRun) {ins outs : ℕ} (callBackFun : Callback ins outs) (vars : Captured)
  (below : List Value) (log : List Event) {sh : Shared} (func : Bytes)

/-- With up to 127 arguments, the last ones pushed are passed. -/
theorem issued_execGlobalFunction (args : List Value) {n : ℕ} (hn : n = args.length)
    (hle : n ≤ 127) (hfn : (sh.global func).isFunction = true) :
    issued log (finalState (execGlobalFunction run func n callBackFun.run vars
      ⟨args.reverse ++ below, log, sh⟩)) = some ⟨sh.global func, args, traceHandler sh⟩ := by
  rw [execGlobalFunction_eq run callBackFun.run vars args below log sh func hn hle hfn]
  exact issued_of_prefix (prefix_resume callBackFun vars _ _ below _ _)

/-- With a negative number of arguments, nothing is called. -/
theorem issued_execGlobalFunction_of_neg {argc : ℤ} (hneg : argc < 0) :
    issued log (finalState (execGlobalFunction run func argc callBackFun.run vars ⟨below, log, sh⟩))
      = none := by
  have hkeeps : KeepsLog (fun l => requests l = requests log)
      (execGlobalFunction run func argc callBackFun.run vars) :=
    keepsLog_execGlobalFunction (fun l name v h => by rw [← h]; simp [requests])
      (fun tarceIndex vars => keepsLog_execPcall_of_neg hneg tarceIndex vars) func vars
  exact issued_eq_none (hkeeps.apply (s := ⟨below, log, sh⟩) rfl)

end Issued

/-- **When the arguments arrive.**  With `call` and the trace handler there, the request is
the one for module, function and all values written, with the handler, exactly when no more
than 125 values are written. -/
theorem callScriptFunc_passes_iff (module func : Bytes) (outPutFunc : Option (List Write))
    (lua : Request → Shared → Script) (callBackFun : Callback 0 0) {s : LuaState}
    (hcall : (s.shared.global callFunction).isFunction = true)
    (htrace : (s.shared.global luaTraceName).isFunction = true) :
    issued s.log (finalState (callScriptFunc (fun request shared => (lua request shared).run) module
        func (outPutFunc.map writing) callBackFun.run ([], {}) s))
      = some ⟨s.shared.global callFunction,
          cstringValue (some module) :: cstringValue (some func) :: written (outPutFunc.getD []),
          some (s.shared.global luaTraceName)⟩
    ↔ (written (outPutFunc.getD [])).length ≤ 125 := by
  obtain ⟨stack, log, sh⟩ := s
  have hargs : cstringValue (some module) :: cstringValue (some func) :: written (outPutFunc.getD [])
      = scriptArgs module func (outPutFunc.getD []) := rfl
  have hlen : (scriptArgs module func (outPutFunc.getD [])).length
      = (written (outPutFunc.getD [])).length + 2 := rfl
  rw [callScriptFunc_written, hargs, call]
  dsimp only
  generalize scriptArgs module func (outPutFunc.getD []) = args at hlen
  have htoInt8 := toInt8_eq (args.length : ℤ)
  by_cases hneg : toInt8 args.length < 0
  · rw [issued_execGlobalFunction_of_neg _ _ _ _ _ _ hneg]
    refine iff_of_false (by simp) ?_
    omega
  · -- the last `n` arguments are passed, where `n` is what the count wraps around to
    obtain ⟨n, hn⟩ := Int.eq_ofNat_of_zero_le (Int.not_lt.mp hneg)
    have hsplit : args.reverse ++ stack
        = (args.drop (args.length - n)).reverse ++ ((args.take (args.length - n)).reverse ++ stack) := by
      rw [← List.append_assoc, ← List.reverse_append, List.take_append_drop]
    have hdrop : n = (args.drop (args.length - n)).length := by
      rw [List.length_drop]
      omega
    rw [hn, hsplit, issued_execGlobalFunction _ _ _ _ _ _ _ hdrop (by omega) hcall,
      traceHandler_of_isFunction sh htrace]
    constructor
    · intro h
      have hall : args.drop (args.length - n) = args := (Request.mk.inj (Option.some.inj h)).2.1
      rw [hall] at hdrop
      omega
    · intro h
      have hzero : args.length - n = 0 := by omega
      rw [hzero, List.drop_zero]

/-- Two values, one of them a null pointer. -/
theorem callScriptFunc_passes_two :
    issued [] (finalState (callScriptFunc (fun _ sh => (Script.ret sh []).run) (ascii "m")
      (ascii "f") ((some [.int8 (-1), .str none]).map writing)
      (Callback.empty : Callback 0 0).run ([], {}) ⟨[.nil], [], exampleShared⟩))
    = some ⟨.function 1, [.string (ascii "m"), .string (ascii "f"), .integer (-1), .nil],
        some (.function 2)⟩ :=
  (callScriptFunc_passes_iff (ascii "m") (ascii "f") (some [.int8 (-1), .str none])
    (fun _ sh => .ret sh []) .empty (s := ⟨[.nil], [], exampleShared⟩) (by decide)
    (by decide)).mpr (by decide)

/-- With 126 values the count becomes `-128`, and nothing is called. -/
theorem not_callScriptFunc_passes : ¬∀ (module func : Bytes) (outPutFunc : Option (List Write))
    (lua : Request → Shared → Script) (callBackFun : Callback 0 0) (s : LuaState),
    (s.shared.global callFunction).isFunction = true →
    (s.shared.global luaTraceName).isFunction = true →
    issued s.log (finalState (callScriptFunc (fun request shared => (lua request shared).run) module
        func (outPutFunc.map writing) callBackFun.run ([], {}) s))
      = some ⟨s.shared.global callFunction,
          cstringValue (some module) :: cstringValue (some func) :: written (outPutFunc.getD []),
          some (s.shared.global luaTraceName)⟩ := by
  intro h
  have hissued := h (ascii "m") (ascii "f") (some (List.replicate 126 (.bool true)))
    (fun _ sh => .ret sh []) .empty ⟨[], [], exampleShared⟩ (by decide) (by decide)
  have hnone : issued [] (finalState (callScriptFunc (fun _ sh => (Script.ret sh []).run)
      (ascii "m") (ascii "f") ((some (List.replicate 126 (.bool true))).map writing)
      (Callback.empty : Callback 0 0).run ([], {}) ⟨[], [], exampleShared⟩)) = none := by decide +kernel
  exact absurd (hissued.symm.trans hnone) (by simp)

end SeedCore.Lua
