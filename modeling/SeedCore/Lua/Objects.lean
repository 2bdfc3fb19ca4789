import Mathlib.Data.List.AList
import SeedCore.Lib.Bytes
import SeedCore.Lib.Triple

/-!
# Values, tables and metatables

The values of Lua 5.3, and what all code that runs in a state shares: the globals, the tables
and the metatables.  A field that a value does not have itself is looked up through the field
`__index` of its metatable, in another value or by a function of a script, and so it is with the
length and the field `__len`.  What functions of scripts do there is part of the state; they may
change everything that is shared, and raise an error.

The table of globals is taken to have no metatable, and strings have the string library.

## Main definitions

* `Value`, `Table`, `Store`, `Shared` — the data.
* `Code α` — code that works on what is shared.
* `index`, `objlen` — the operations that metatables take part in.
-/

namespace SeedCore.Lua

/-! ## Values -/

/-- A Lua value.  Tables and functions are objects with an identity.  A table that the
host has just built is known to no Lua code, so it is held by its contents, the fields
`ptr` and `type`.  A float is given by the integer that it equals, if any, and its text. -/
inductive Value
  | nil
  | boolean (b : Bool)
  | integer (n : Int64)
  | float (n : Option Int64) (text : Bytes)
  | string (s : Bytes)
  | lightuserdata (p : UInt64)
  | userdata (p : UInt64)
  | function (id : ℕ)
  | thread (id : ℕ)
  | table (ref : ℕ)
  | record (ptr type : Value)
  deriving DecidableEq, Repr

/-- What a table maps its keys to; an absent key stands for `nil`. -/
abbrev Table := AList fun _ : Value => Value

/-- `PTR_INDEX` -/
def ptrIndex : Bytes := ascii "ptr"
/-- `TYPE_INDEX` -/
def typeIndex : Bytes := ascii "type"

namespace Value

/-- The name of the type. -/
def typename : Value → String
  | nil => "nil"
  | boolean _ => "boolean"
  | integer _ | float _ _ => "number"
  | string _ => "string"
  | lightuserdata _ | userdata _ => "userdata"
  | function _ => "function"
  | thread _ => "thread"
  | table _ | record _ _ => "table"

def isFunction : Value → Bool
  | function _ => true
  | _ => false

def isNil : Value → Bool
  | nil => true
  | _ => false

/-- All values are true but `nil` and `false`. -/
def truthy : Value → Bool
  | nil | boolean false => false
  | _ => true

/-- The address that the host sees of a userdata; `0` is `NULL`. -/
def address : Value → UInt64
  | lightuserdata p | userdata p => p
  | _ => 0

/-- As a key, a float that equals an integer is that integer. -/
def normal : Value → Value
  | float (some n) _ => integer n
  | v => v

def isNaN : Value → Bool
  | float none text => text == ascii "nan" || text == ascii "-nan"
  | _ => false

/-- A value that a table has as a key. -/
def isKey (v : Value) : Bool := v.normal == v && !v.isNil && !v.isNaN

/-- The text of a number. -/
def numeral? : Value → Option Bytes
  | integer n => some (decInt n.toInt)
  | float _ text => some text
  | _ => none

/-- What `lua_tostring` gives for a value. -/
def text? : Value → Option Bytes
  | string text => some text
  | v => v.numeral?

theorem eq_nil_of_isNil {v : Value} (h : v.isNil = true) : v = .nil := by
  cases v <;> first | rfl | cases h

@[simp] theorem isNil_eq_false_iff {v : Value} : v.isNil = false ↔ v ≠ .nil := by
  cases v <;> simp [isNil]

end Value

/-- The value of a key. -/
def Table.get (t : Table) (key : Value) : Value := (t.lookup key).getD .nil

/-! ## What is shared -/

/-- Why a function does not return. -/
inductive Fault
  /-- An error is raised, with this error object. -/
  | raised (message : Value)
  /-- A slot is used that the stack does not have. -/
  | outOfBounds
  /-- A null pointer is used. -/
  | nullPointer
  /-- A loop does not come to its end. -/
  | endless
  deriving DecidableEq, Repr

/-- The error for an operation on a value of the wrong type. -/
def typeError (op : String) (v : Value) : Fault :=
  .raised (.string (ascii ("attempt to " ++ op ++ " a " ++ v.typename ++ " value")))

/-- The objects of a state, and what it has written. -/
structure Store where
  globals : Table := ∅
  tables : List Table := []
  /-- The metatables, by the values that they belong to. -/
  metatables : Table := ∅
  /-- The standard output. -/
  out : Bytes := []

/-- What all code that runs in the state shares. -/
structure Shared extends Store where
  /-- The string library, in which the fields of a string are looked up. -/
  strings : Table := ∅
  /-- How a string converts to an integer. -/
  str2int : Bytes → Option Int64 := fun _ => none
  /-- The address in the text of an object. -/
  address : Value → Bytes := fun _ => []
  /-- What a function of a script does when an operation calls it. -/
  code : ℕ → List Value → EStateM Fault Store (List Value) := fun _ _ => pure []

/-- Code that works on what is shared. -/
abbrev Code := EStateM Fault Shared

namespace Shared

variable (sh : Shared)

/-- The table object of a number. -/
def table (ref : ℕ) : Table := sh.tables[ref]?.getD ∅

/-- The global variable of a name. -/
def global (name : Bytes) : Value := Table.get sh.globals (.string name)

/-- A field of a metatable. -/
def metafield (v : Value) (event : Bytes) : Value :=
  match Table.get sh.metatables v with
  | .table ref => Table.get (sh.table ref) (.string event)
  | _ => .nil

/-- The field that a value has itself, if it can have fields. -/
def rawget (v key : Value) : Option Value :=
  match v with
  | .table ref => some (Table.get (sh.table ref) key.normal)
  | .record ptr type =>
      some (if key = .string ptrIndex then ptr else if key = .string typeIndex then type else .nil)
  | .string _ => some (Table.get sh.strings key)
  | _ => none

/-- A border of a table. -/
def border (v : Value) : Option Int64 :=
  match v with
  | .table ref =>
      let t := sh.table ref
      some (.ofNat (((List.range t.entries.length).takeWhile fun i =>
        !(Table.get t (.integer (.ofNat (i + 1)))).isNil).length))
  | .record _ _ => some 0
  | _ => none

/-- The integer that a value converts to, or `0`. -/
def toInteger : Value → Int64
  | .integer n => n
  | .float n _ => n.getD 0
  | .string s => (sh.str2int s).getD 0
  | _ => 0

end Shared

/-! ## Operations on values -/

/-- A function of a script is called. -/
def runFunction (id : ℕ) (args : List Value) : Code (List Value) := fun sh =>
  match sh.code id args sh.toStore with
  | .ok results store => .ok results { sh with toStore := store }
  | .error fault store => .error fault { sh with toStore := store }

/-- A value is called: a function, or a value with a function in the field `__call`. -/
def callValue (f : Value) (args : List Value) : Code (List Value) := do
  let sh ← get
  match f, sh.metafield f (ascii "__call") with
  | .function id, _ => runFunction id args
  | _, .function id => runFunction id (f :: args)
  | _, _ => throw (typeError "call" f)

/-- `MAXTAGLOOP` -/
def maxTagLoop : ℕ := 2000

/-- `v[key]`, from metatable to metatable. -/
def indexFrom : ℕ → Value → Value → Code Value
  | 0, _, _ => throw (.raised (.string (ascii "'__index' chain too long; possibly a loop")))
  | left + 1, v, key => do
      let sh ← get
      let x := (sh.rawget v key).getD .nil
      if x.isNil then
        match sh.metafield v (ascii "__index") with
        | .nil => if (sh.rawget v key).isSome then pure .nil else throw (typeError "index" v)
        | .function id => do
            let results ← runFunction id [v, key]
            pure (results.headD .nil)
        | next => indexFrom left next key
      else pure x

/-- `v[key]` -/
def index (v key : Value) : Code Value := indexFrom maxTagLoop v key

/-- `#v` -/
def objlen (v : Value) : Code Value := do
  let sh ← get
  match v, sh.metafield v (ascii "__len") with
  | .string s, _ => pure (.integer (.ofNat s.length))
  | _, .nil =>
      match sh.border v with
      | some n => pure (.integer n)
      | none => throw (typeError "get length of" v)
  | _, f => do
      let results ← callValue f [v, v]
      pure (results.headD .nil)

section Equations

variable {sh : Shared} {v key x : Value}

theorem metafield_of_eq_nil (h : Table.get sh.metatables v = .nil) (event : Bytes) :
    sh.metafield v event = .nil := by
  rw [Shared.metafield, h]

/-- **A field that the value has itself** is found without its metatable. -/
theorem index_own (h : sh.rawget v key = some x) (hx : x ≠ .nil) : index v key sh = .ok x sh := by
  have hfalse : x.isNil = false := Value.isNil_eq_false_iff.mpr hx
  rw [index, maxTagLoop, indexFrom, bind_ok (show (get : Code Shared) sh = .ok sh sh from rfl)]
  simp only [h, Option.getD_some, hfalse, Bool.false_eq_true, if_false]
  rfl

/-- Without a metatable, any other field is `nil`. -/
theorem index_nil (h : sh.rawget v key = some .nil)
    (hmeta : sh.metafield v (ascii "__index") = .nil) : index v key sh = .ok .nil sh := by
  have htrue : Value.nil.isNil = true := rfl
  rw [index, maxTagLoop, indexFrom, bind_ok (show (get : Code Shared) sh = .ok sh sh from rfl)]
  simp only [h, Option.getD_some, htrue, if_true, hmeta, Option.isSome_some]
  rfl

@[simp] theorem objlen_string (s : Bytes) :
    objlen (.string s) sh = .ok (.integer (.ofNat s.length)) sh := rfl

end Equations

end SeedCore.Lua
