import SeedCore.Lua.Program

/-!
# The script `link.lua`

Its function `call`, which every call from C++ goes through: it loads the module, looks
the function up in it and calls it with the arguments that are left.

## Main definitions

* `Script.bind`, `Script.exec` — going on with the results of Lua code, or of an operation.
* `linkCall` — the function `call`.
-/

namespace SeedCore.Lua

/-- Lua code that goes on with the results of other Lua code. -/
def Script.bind (next : Shared → List Value → Script) : Script → Script
  | .ret shared results => next shared results
  | .error shared fault => .error shared fault
  | .native shared func args resume =>
      .native shared func args fun shared result => (resume shared result).bind next

theorem Script.run_bind (next : Shared → List Value → Script) : ∀ script : Script,
    (script.bind next).run = match script.run with
      | .ok results shared => (next shared results).run
      | .error fault shared => .error fault shared
  | .ret shared results => by rw [Script.bind, Script.run]
  | .error shared fault => by rw [Script.bind, Script.run]
  | .native shared func args resume => by
      rw [Script.bind, Script.run, Script.run]
      cases enterNative (entry func.run) args shared with
      | ok results shared => exact Script.run_bind next (resume shared (.ok results))
      | error fault shared =>
          cases fault with
          | raised message => exact Script.run_bind next (resume shared (.error message))
          | outOfBounds | nullPointer | endless => rfl

/-- An operation, which may run functions of scripts, and what comes after it. -/
def Script.exec {α : Type} (x : Code α) (next : Shared → α → Script) (shared : Shared) : Script :=
  match x shared with
  | .ok a shared => next shared a
  | .error fault shared => .error shared fault

section Exec

variable {α : Type} {x : Code α} (next : Shared → α → Script) {shared left : Shared}

theorem Script.exec_ok {a : α} (h : x shared = .ok a left) :
    Script.exec x next shared = next left a := by
  rw [Script.exec, h]

theorem Script.exec_error {fault : Fault} (h : x shared = .error fault left) :
    Script.exec x next shared = .error left fault := by
  rw [Script.exec, h]

end Exec

/-- `call`, where `require` is what loading a module does and `apply` what calling a
function does.  A call from C++ passes two strings first. -/
def linkCall (require : Bytes → Shared → Script) (apply : Value → List Value → Shared → Script)
    (request : Request) (shared : Shared) : Script :=
  match request.args with
  | .string m :: .string f :: args =>
      (require m shared).bind fun shared results =>
        let mod := results.headD .nil
        if mod.truthy then
          Script.exec (index mod (.string f)) (fun shared func =>
            if func.truthy then apply func args shared
            else .error shared
              (.raised (.string (ascii "can't find function" ++ f ++ ascii " in " ++ m)))) shared
        else .error shared (.raised (.string (ascii "can't find module" ++ m)))
  | _ => .error shared (.raised (.string (ascii "attempt to concatenate a nil value")))

/-- When the module and the function are found, the function is called. -/
theorem run_linkCall {require : Bytes → Shared → Script} {apply : Value → List Value → Shared → Script}
    {m f : Bytes} {args results : List Value} {fn func : Value} {handler : Option Value}
    {shared loaded found : Shared} (hrequire : (require m shared).run = .ok results loaded)
    (hmod : (results.headD .nil).truthy = true)
    (hfunc : index (results.headD .nil) (.string f) loaded = .ok func found)
    (htruthy : func.truthy = true) :
    (linkCall require apply ⟨fn, .string m :: .string f :: args, handler⟩ shared).run
      = (apply func args found).run := by
  rw [linkCall]
  dsimp only
  rw [Script.run_bind, hrequire]
  simp only [hmod, Script.exec_ok _ hfunc, htruthy, if_true]

end SeedCore.Lua
