import SeedCore.Lib.Stack
import SeedCore.Lua.Objects

/-!
# The Lua state and the functions of its C interface

The part of the interface of Lua 5.3 that the script engine calls, on the main state.  A
function called from Lua has a stack of its own, so a `LuaState` holds the stack of the
function that is running, beside what all code shares: the globals, the tables and the
metatables.  What a Lua function does is a parameter of `pcall`, and of `Shared.code` where a
metatable names it; the globals have no metatable.  Slots for pushed values are taken to be there.

## Main definitions

* `LuaState` — the data.
* `LuaM α` — a function of the interface, which may raise an error or be undefined.
* `getglobal`, `insert`, `pcall` … — the functions, under their names without `lua_`.
-/

namespace SeedCore.Lua

/-! ## The state -/

/-- What `lua_pcall` is asked to do. -/
structure Request where
  func : Value
  args : List Value
  handler : Option Value
  deriving DecidableEq, Repr

/-- What happened on a stack, as far as it involves code of the script. -/
inductive Event
  /-- A global variable was read. -/
  | global (name : Bytes) (v : Value)
  /-- A function was called. -/
  | pcall (request : Request)
  deriving DecidableEq, Repr

/-- The state as the running function sees it: its stack, with the top first, what
happened on it, and what is shared. -/
structure LuaState where
  stack : List Value
  log : List Event := []
  shared : Shared := {}

/-- A piece of the host that uses the interface. -/
abbrev LuaM := EStateM Fault LuaState

/-- Code of a script that a function of the interface runs. -/
def onShared {α : Type} (x : Code α) : LuaM α := fun s =>
  match x s.shared with
  | .ok a shared => .ok a { s with shared }
  | .error fault shared => .error fault { s with shared }

/-! ## The functions of the interface -/

/-- The slot of an index, which may be an empty one above the top. -/
def value (idx : ℤ) : LuaM (Option Value) := do
  let s ← get
  if Stack.Acceptable s.stack idx then pure (Stack.slot s.stack idx) else throw .outOfBounds

/-- The slot of an index, which has to be there. -/
def validValue (idx : ℤ) : LuaM Value := do
  match ← value idx with
  | some v => pure v
  | none => throw .outOfBounds

def push (v : Value) : LuaM Unit := modify fun s => { s with stack := v :: s.stack }

def gettop : LuaM ℤ := do
  let s ← get
  pure s.stack.length

def settop (idx : ℤ) : LuaM Unit := do
  let s ← get
  if -idx - 1 ≤ s.stack.length then set { s with stack := Stack.setTop .nil s.stack idx }
  else throw .outOfBounds

/-- The macro `lua_pop`. -/
def pop (n : ℤ) : LuaM Unit := settop (-n - 1)

def insert (idx : ℤ) : LuaM Unit := do
  let s ← get
  if Stack.Valid s.stack idx then set { s with stack := Stack.insertAt s.stack idx }
  else throw .outOfBounds

def isfunction (idx : ℤ) : LuaM Bool := do
  let v ← value idx
  pure (v.any Value.isFunction)

def isnil (idx : ℤ) : LuaM Bool := do
  let v ← value idx
  pure (v.any Value.isNil)

def toboolean (idx : ℤ) : LuaM Bool := do
  let v ← value idx
  pure (v.any Value.truthy)

def tointeger (idx : ℤ) : LuaM Int64 := do
  let v ← value idx
  let s ← get
  pure ((v.map s.shared.toInteger).getD 0)

def touserdata (idx : ℤ) : LuaM UInt64 := do
  let v ← value idx
  pure ((v.map Value.address).getD 0)

/-- A number becomes a string in its slot. -/
def tostring (idx : ℤ) : LuaM (Option Bytes) := do
  match ← value idx with
  | some (.string text) => pure (some text)
  | v =>
      match v.bind Value.numeral? with
      | some text => do
          modify fun s => { s with stack := Stack.replaceAt s.stack idx (.string text) }
          pure (some text)
      | none => pure none

def len (idx : ℤ) : LuaM Unit := do
  let v ← validValue idx
  let n ← onShared (objlen v)
  push n

def getglobal (name : Bytes) : LuaM Unit :=
  modify fun s => { s with
    stack := s.shared.global name :: s.stack
    log := s.log ++ [.global name (s.shared.global name)] }

def getfield (idx : ℤ) (key : Bytes) : LuaM Unit := do
  let v ← validValue idx
  let x ← onShared (index v (.string key))
  push x

/-- The host sets the fields `ptr` and `type` only, of tables that it has just built. -/
def setfield (idx : ℤ) (key : Bytes) : LuaM Unit := do
  let x ← validValue (-1)
  match ← validValue idx with
  | .record ptr type =>
      let v := if key = ptrIndex then Value.record x type else .record ptr x
      modify fun s => { s with stack := (Stack.replaceAt s.stack idx v).tail }
  | v => throw (typeError "index" v)

def pushboolean (b : Bool) : LuaM Unit := push (.boolean b)

def pushinteger (n : Int64) : LuaM Unit := push (.integer n)

def pushlightuserdata (p : UInt64) : LuaM Unit := push (.lightuserdata p)

/-- The value of a C string, where a null pointer gives `nil`. -/
def cstringValue : Option Bytes → Value
  | none => .nil
  | some s => .string (cstr s)

def pushstring (s : Option Bytes) : LuaM Unit := push (cstringValue s)

def createtable : LuaM Unit := push (.record .nil .nil)

/-- A list of values cut off or filled up to a length. -/
def adjust (n : ℕ) (vs : List Value) : List Value := vs.take n ++ List.replicate (n - vs.length) .nil

/-- The message handler of an index, where `0` stands for none. -/
def handlerAt (msgh : ℤ) : LuaM (Option Value) :=
  if msgh = 0 then pure none else some <$> validValue msgh

/-- What `lua_pcall` leaves in the place of the function and its arguments, and whether it
returns `LUA_OK`: `nresults` values, or the error object that the message handler, if there
is one, has made. -/
def pcallEnd (nresults : ℕ) (below : List Value) (log : List Event) :
    EStateM.Result Fault Shared (List Value) → EStateM.Result Fault LuaState Bool
  | .ok results shared => .ok true ⟨(adjust nresults results).reverse ++ below, log, shared⟩
  | .error (.raised message) shared => .ok false ⟨message :: below, log, shared⟩
  | .error fault shared => .error fault ⟨below, log, shared⟩

/-- `lua_pcall`, where `run` is what Lua does. -/
def pcall (run : Request → Shared → EStateM.Result Fault Shared (List Value))
    (nargs : ℤ) (nresults : ℕ) (msgh : ℤ) : LuaM Bool := do
  let handler ← handlerAt msgh
  let s ← get
  if 0 ≤ nargs then
    match s.stack.drop nargs.toNat with
    | [] => throw .outOfBounds
    | func :: below =>
        let request : Request := ⟨func, (s.stack.take nargs.toNat).reverse, handler⟩
        fun _ => pcallEnd nresults below (s.log ++ [.pcall request]) (run request s.shared)
  else throw .outOfBounds

/-! ## What they do

Each on a stack that is split at the slots the caller knows. -/

section Equations

variable (stack above below : List Value) (v : Value) (log : List Event) (sh : Shared)

theorem value_eq {s : LuaState} {idx : ℤ} (h : Stack.Acceptable s.stack idx) :
    value idx s = .ok (Stack.slot s.stack idx) s := by
  rw [value, bind_ok (show (get : LuaM LuaState) s = .ok s s from rfl), if_pos h]
  rfl

theorem validValue_eq {s : LuaState} {idx : ℤ} (h : Stack.Acceptable s.stack idx)
    (hv : Stack.slot s.stack idx = some v) : validValue idx s = .ok v s := by
  rw [validValue, bind_ok (value_eq h), hv]
  rfl

/-- A slot that is counted from the bottom. -/
theorem value_pos {j : ℕ} (h : stack.reverse[j]? = some v) :
    value ((j : ℤ) + 1) ⟨stack, log, sh⟩ = .ok (some v) ⟨stack, log, sh⟩ := by
  rw [value_eq (.inl (by omega)), Stack.slot_pos h]

theorem validValue_pos {j : ℕ} (h : stack.reverse[j]? = some v) :
    validValue ((j : ℤ) + 1) ⟨stack, log, sh⟩ = .ok v ⟨stack, log, sh⟩ :=
  validValue_eq v (.inl (by omega)) (Stack.slot_pos h)

theorem acceptable_append {n : ℕ} (hn : n = above.length) :
    Stack.Acceptable (above ++ v :: below) (-(n : ℤ) - 1) := by
  refine Stack.acceptable_neg ?_
  rw [hn, List.length_append, List.length_cons]
  omega

/-- The slot under `above`. -/
theorem value_append {n : ℕ} (hn : n = above.length) :
    value (-(n : ℤ) - 1) ⟨above ++ v :: below, log, sh⟩
      = .ok (some v) ⟨above ++ v :: below, log, sh⟩ := by
  rw [value_eq (acceptable_append above below v hn), Stack.slot_append_cons above v below hn]

@[simp] theorem value_top :
    value (-1) ⟨v :: stack, log, sh⟩ = .ok (some v) ⟨v :: stack, log, sh⟩ :=
  value_append [] stack v log sh (n := 0) rfl

theorem validValue_append {n : ℕ} (hn : n = above.length) :
    validValue (-(n : ℤ) - 1) ⟨above ++ v :: below, log, sh⟩
      = .ok v ⟨above ++ v :: below, log, sh⟩ :=
  validValue_eq v (acceptable_append above below v hn) (Stack.slot_append_cons above v below hn)

theorem isfunction_append {n : ℕ} (hn : n = above.length) :
    isfunction (-(n : ℤ) - 1) ⟨above ++ v :: below, log, sh⟩
      = .ok v.isFunction ⟨above ++ v :: below, log, sh⟩ := by
  rw [isfunction, bind_ok (value_append above below v log sh hn)]
  rfl

@[simp] theorem isfunction_top :
    isfunction (-1) ⟨v :: stack, log, sh⟩ = .ok v.isFunction ⟨v :: stack, log, sh⟩ :=
  isfunction_append [] stack v log sh (n := 0) rfl

theorem isnil_append {n : ℕ} (hn : n = above.length) :
    isnil (-(n : ℤ) - 1) ⟨above ++ v :: below, log, sh⟩
      = .ok v.isNil ⟨above ++ v :: below, log, sh⟩ := by
  rw [isnil, bind_ok (value_append above below v log sh hn)]
  rfl

@[simp] theorem getglobal_eq (name : Bytes) :
    getglobal name ⟨stack, log, sh⟩
      = .ok () ⟨sh.global name :: stack, log ++ [.global name (sh.global name)], sh⟩ := rfl

theorem pop_append {n : ℕ} (hn : n = above.length) :
    pop n ⟨above ++ below, log, sh⟩ = .ok () ⟨below, log, sh⟩ := by
  rw [pop, settop, bind_ok (show (get : LuaM LuaState) _ = .ok _ _ from rfl), if_pos,
    Stack.setTop_append .nil above below hn]
  · rfl
  · dsimp only
    rw [hn, List.length_append]
    push_cast
    omega

@[simp] theorem pop_one : pop 1 ⟨v :: stack, log, sh⟩ = .ok () ⟨stack, log, sh⟩ :=
  pop_append [v] stack log sh (n := 1) rfl

theorem insert_append {n : ℕ} (hn : n = above.length) :
    insert (-(n : ℤ) - 1) ⟨v :: above ++ below, log, sh⟩ = .ok () ⟨above ++ v :: below, log, sh⟩ := by
  rw [insert, bind_ok (show (get : LuaM LuaState) _ = .ok _ _ from rfl), if_pos,
    Stack.insertAt_append v above below hn]
  · rfl
  · refine Stack.valid_neg ?_
    rw [hn, List.cons_append, List.length_cons, List.length_append]
    omega

/-- Setting a field of the table below the top, which the host has just built. -/
theorem setfield_record (ptr type : Value) (key : Bytes) :
    setfield (-2) key ⟨v :: .record ptr type :: stack, log, sh⟩
      = .ok () ⟨(if key = ptrIndex then Value.record v type else .record ptr v) :: stack, log, sh⟩ := by
  have htop : validValue (-1) ⟨v :: .record ptr type :: stack, log, sh⟩
      = .ok v ⟨v :: .record ptr type :: stack, log, sh⟩ :=
    validValue_append [] _ v log sh (n := 0) rfl
  have hrecord : validValue (-2) ⟨v :: .record ptr type :: stack, log, sh⟩
      = .ok (.record ptr type) ⟨v :: .record ptr type :: stack, log, sh⟩ :=
    validValue_append [v] _ (.record ptr type) log sh (n := 1) rfl
  rw [setfield, bind_ok htop, bind_ok hrecord]
  rfl

/-- The error object may become a string, but stays in its slot. -/
theorem tostring_top : ∃ text v',
    tostring (-1) ⟨v :: stack, log, sh⟩ = .ok text ⟨v' :: stack, log, sh⟩ := by
  rw [tostring, bind_ok (value_top stack v log sh)]
  cases v with
  | integer n => exact ⟨_, _, rfl⟩
  | float n text => exact ⟨_, _, rfl⟩
  | _ => exact ⟨_, _, rfl⟩

@[simp] theorem touserdata_top :
    touserdata (-1) ⟨v :: stack, log, sh⟩ = .ok v.address ⟨v :: stack, log, sh⟩ := by
  rw [touserdata, bind_ok (value_top stack v log sh)]
  rfl

theorem onShared_ok {α : Type} {x : Code α} {a : α} {shared : Shared} (h : x sh = .ok a shared) :
    onShared x ⟨stack, log, sh⟩ = .ok a ⟨stack, log, shared⟩ := by
  simp only [onShared, h]

theorem onShared_error {α : Type} {x : Code α} {fault : Fault} {shared : Shared}
    (h : x sh = .error fault shared) :
    onShared x ⟨stack, log, sh⟩ = .error fault ⟨stack, log, shared⟩ := by
  simp only [onShared, h]

section Field

variable {idx : ℤ} (hv : validValue idx ⟨stack, log, sh⟩ = .ok v ⟨stack, log, sh⟩) {key : Bytes}
  {shared : Shared}
include hv

/-- A field is pushed, after what looking it up has done. -/
theorem getfield_eq {x : Value} (hx : index v (.string key) sh = .ok x shared) :
    getfield idx key ⟨stack, log, sh⟩ = .ok () ⟨x :: stack, log, shared⟩ := by
  rw [getfield, bind_ok hv, bind_ok (onShared_ok stack log sh hx)]
  rfl

theorem getfield_error {fault : Fault} (hx : index v (.string key) sh = .error fault shared) :
    getfield idx key ⟨stack, log, sh⟩ = .error fault ⟨stack, log, shared⟩ := by
  rw [getfield, bind_ok hv]
  exact bind_error (onShared_error stack log sh hx)

theorem len_eq {n : Value} (hn : objlen v sh = .ok n shared) :
    len idx ⟨stack, log, sh⟩ = .ok () ⟨n :: stack, log, shared⟩ := by
  rw [len, bind_ok hv, bind_ok (onShared_ok stack log sh hn)]
  rfl

theorem len_error {fault : Fault} (hn : objlen v sh = .error fault shared) :
    len idx ⟨stack, log, sh⟩ = .error fault ⟨stack, log, shared⟩ := by
  rw [len, bind_ok hv]
  exact bind_error (onShared_error stack log sh hn)

end Field

@[simp] theorem adjust_length (n : ℕ) (vs : List Value) : (adjust n vs).length = n := by
  rw [adjust, List.length_append, List.length_take, List.length_replicate]
  omega

/-- A call takes the function and its arguments from the stack. -/
theorem pcall_append (run : Request → Shared → EStateM.Result Fault Shared (List Value))
    (args : List Value) (nresults : ℕ) {msgh : ℤ} {handler : Option Value}
    (hmsgh : handlerAt msgh ⟨args.reverse ++ v :: below, log, sh⟩
      = .ok handler ⟨args.reverse ++ v :: below, log, sh⟩) :
    pcall run args.length nresults msgh ⟨args.reverse ++ v :: below, log, sh⟩
      = pcallEnd nresults below (log ++ [.pcall ⟨v, args, handler⟩]) (run ⟨v, args, handler⟩ sh) := by
  have hlen : (args.length : ℤ).toNat = args.reverse.length := by
    rw [List.length_reverse]
    rfl
  rw [pcall, bind_ok hmsgh, bind_ok (show (get : LuaM LuaState) _ = .ok _ _ from rfl),
    if_pos (Int.natCast_nonneg _), hlen]
  simp only [List.drop_left, List.take_left, List.reverse_reverse]

end Equations

end SeedCore.Lua
