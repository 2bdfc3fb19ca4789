import SeedCore.Lua.State

/-!
# The streams of an exchange with Lua

`LuaInputStream` reads the arguments of a registered function, or the results of a
script function, from their slots on the stack; `LuaOutputStream` pushes.  A read that
leaves the variable of the caller alone gives `none`.  A failed `ASSERT` goes on, as in a
release build.

## Main definitions

* `LuaInputStream`, `Read`, `Read.run` — the stream and its read methods.
* `LuaOutputStream`, `Write`, `Write.run` — the stream and its write methods.
* `writeAll` — a sequence of writes.
-/

namespace SeedCore.Lua

/-- `LUA_RESULT_COUNT` -/
def luaResultCount : ℕ := 8

/-! ## Reading -/

/-- What a variable gets from a read. -/
inductive Datum
  | bool (val : Bool)
  | int8 (val : Int8)
  | int16 (val : Int16)
  | int32 (val : Int32)
  | int64 (val : Int64)
  | str (val : Bytes)
  | ptr (val : UInt64)
  deriving DecidableEq, Repr

structure LuaInputStream where
  index : ℤ := 0
  start : ℤ
  count : ℤ
  deriving DecidableEq, Repr

namespace LuaInputStream

/-- The loop that counts the results before the first `nil`, with `left` slots to go. -/
def countResults : ℕ → LuaM ℤ
  | 0 => pure 0
  | left + 1 => do
      if ← isnil (-(left + 1 : ℕ)) then pure 0
      else do
        let count ← countResults left
        pure (count + 1)

/-- The constructor, with its argument `callStack`. -/
def new (callStack : Bool) : LuaM LuaInputStream := do
  if callStack then
    let count ← countResults luaResultCount
    let top ← gettop
    pure { start := top - luaResultCount, count }
  else
    let top ← gettop
    pure { start := 0, count := top }

variable (input : LuaInputStream)

/-- The stream after a read. -/
def next : LuaInputStream := { input with index := input.index + 1 }

/-- The stack index of the next value. -/
def slot : ℤ := input.index + 1 + input.start

/-- A read method, by what it does when there is a value left. -/
def guarded (read : LuaM (Option Datum)) : LuaM (Option Datum × LuaInputStream) := do
  if input.index < input.count then
    let val ← read
    pure (val, input.next)
  else pure (none, input)

def readBool : LuaM (Option Datum × LuaInputStream) := input.guarded do
  let tmp ← toboolean input.slot
  pure (some (.bool tmp))

/-- The read methods for integers, by the conversion from `LUA_INTEGER`. -/
def readInteger (narrow : Int64 → Datum) : LuaM (Option Datum × LuaInputStream) :=
  input.guarded do
    let tmp ← tointeger input.slot
    pure (some (narrow tmp))

def readInt8 : LuaM (Option Datum × LuaInputStream) := input.readInteger fun tmp => .int8 tmp.toInt8

def readInt16 : LuaM (Option Datum × LuaInputStream) :=
  input.readInteger fun tmp => .int16 tmp.toInt16

def readInt32 : LuaM (Option Datum × LuaInputStream) :=
  input.readInteger fun tmp => .int32 tmp.toInt32

def readInt64 : LuaM (Option Datum × LuaInputStream) := input.readInteger .int64

/-- The conditions of the two `ASSERT`s read the string, at its terminator and up to it.
The variable then points at a C string. -/
def readStr : LuaM (Option Datum × LuaInputStream) := input.guarded do
  let val ← tostring input.slot
  len input.slot
  pop 1
  match val with
  | none => throw .nullPointer
  | some val => pure (some (.str (cstr val)))

/-- `ReadBlob` only asserts. -/
def readBlob : LuaM (Option Datum × LuaInputStream) := pure (none, input)

def readPtr (type : Bytes) : LuaM (Option Datum × LuaInputStream) := input.guarded do
  getfield input.slot ptrIndex
  let ptr ← touserdata (-1)
  pop 1
  getfield input.slot typeIndex
  let luaType ← tostring (-1)
  pop 1
  match luaType with
  | none => throw .nullPointer
  | some luaType =>
      if cstr luaType ≠ cstr type ∨ cstr type = [] then pure none else pure (some (.ptr ptr))

/-- `Reset` -/
def reset : LuaInputStream := { input with index := 0 }

end LuaInputStream

/-- A call of a read method, with its argument. -/
inductive Read
  | bool | int8 | int16 | int32 | int64 | str | blob
  | ptr (type : Bytes)
  deriving DecidableEq, Repr

def Read.run (input : LuaInputStream) : Read → LuaM (Option Datum × LuaInputStream)
  | bool => input.readBool
  | int8 => input.readInt8
  | int16 => input.readInt16
  | int32 => input.readInt32
  | int64 => input.readInt64
  | str => input.readStr
  | blob => input.readBlob
  | ptr type => input.readPtr type

/-- What a read gives for a value, where it fits. -/
def Read.meaning (sh : Shared) (v : Value) : Read → Option Datum
  | bool => some (.bool v.truthy)
  | int8 => some (.int8 (sh.toInteger v).toInt8)
  | int16 => some (.int16 (sh.toInteger v).toInt16)
  | int32 => some (.int32 (sh.toInteger v).toInt32)
  | int64 => some (.int64 (sh.toInteger v))
  | str =>
      match v with
      | .string text => some (.str (cstr text))
      | _ => none
  | blob => none
  | ptr type =>
      match index v (.string ptrIndex) sh, index v (.string typeIndex) sh with
      | .ok val _, .ok (.string luaType) _ =>
          if cstr luaType ≠ cstr type ∨ cstr type = [] then none else some (.ptr val.address)
      | _, _ => none

/-- The value has the type that a read is for: every value has a truth value and converts
to an integer, a string is a string, and a pointer has the fields `ptr` and `type`, the latter a
string, and looking them up changes nothing. -/
def Read.Fits (sh : Shared) (v : Value) : Read → Prop
  | bool | int8 | int16 | int32 | int64 => True
  | str => ∃ text, v = .string text
  | blob => False
  | ptr _ => ∃ val luaType, index v (.string ptrIndex) sh = .ok val sh ∧
      index v (.string typeIndex) sh = .ok (.string luaType) sh

/-! ## Writing -/

structure LuaOutputStream where
  count : ℕ := 0
  deriving DecidableEq, Repr

namespace LuaOutputStream

variable (output : LuaOutputStream)

/-- The stream after a write. -/
def next : LuaOutputStream := { output with count := output.count + 1 }

def writeBool (val : Bool) : LuaM LuaOutputStream := do
  pushboolean val
  pure output.next

/-- The write methods for integers, by the value as a `LUA_INTEGER`. -/
def writeInteger (val : Int64) : LuaM LuaOutputStream := do
  pushinteger val
  pure output.next

def writeInt8 (val : Int8) : LuaM LuaOutputStream := output.writeInteger val.toInt64

def writeInt16 (val : Int16) : LuaM LuaOutputStream := output.writeInteger val.toInt64

def writeInt32 (val : Int32) : LuaM LuaOutputStream := output.writeInteger val.toInt64

def writeInt64 (val : Int64) : LuaM LuaOutputStream := output.writeInteger val

def writeStr (val : Option Bytes) : LuaM LuaOutputStream := do
  pushstring val
  pure output.next

/-- `WriteBlob` only asserts. -/
def writeBlob : LuaM LuaOutputStream := pure output

def writePtr (val : UInt64) (type : Option Bytes) : LuaM LuaOutputStream := do
  createtable
  pushlightuserdata val
  setfield (-2) ptrIndex
  pushstring type
  setfield (-2) typeIndex
  pure output.next

end LuaOutputStream

/-- A call of a write method, with its arguments; a `const char *` may be null. -/
inductive Write
  | bool (val : Bool)
  | int8 (val : Int8)
  | int16 (val : Int16)
  | int32 (val : Int32)
  | int64 (val : Int64)
  | str (val : Option Bytes)
  | blob (val : Bytes)
  | ptr (val : UInt64) (type : Option Bytes)
  deriving DecidableEq, Repr

def Write.run (output : LuaOutputStream) : Write → LuaM LuaOutputStream
  | bool val => output.writeBool val
  | int8 val => output.writeInt8 val
  | int16 val => output.writeInt16 val
  | int32 val => output.writeInt32 val
  | int64 val => output.writeInt64 val
  | str val => output.writeStr val
  | blob _ => output.writeBlob
  | ptr val type => output.writePtr val type

/-- An `IDataOutputFuncType`, by the calls that it makes. -/
def writeAll : List Write → LuaOutputStream → LuaM LuaOutputStream
  | [], output => pure output
  | w :: ws, output => do
      let output ← w.run output
      writeAll ws output

/-- The Lua value that a call writes, if it writes one. -/
def Write.value : Write → Option Value
  | bool val => some (.boolean val)
  | int8 val => some (.integer val.toInt64)
  | int16 val => some (.integer val.toInt64)
  | int32 val => some (.integer val.toInt64)
  | int64 val => some (.integer val)
  | str val => some (cstringValue val)
  | blob _ => none
  | ptr val type => some (.record (.lightuserdata val) (cstringValue type))

/-- The Lua values that a sequence of calls writes. -/
def written (ws : List Write) : List Value := ws.filterMap Write.value

section Equations

variable (stack : List Value) (log : List Event) (sh : Shared)

/-- The loop counts the values before the first `nil`. -/
theorem countResults_eq (results : List Value) :
    LuaInputStream.countResults results.length ⟨results.reverse ++ stack, log, sh⟩
      = .ok ((results.takeWhile fun v => !v.isNil).length : ℤ) ⟨results.reverse ++ stack, log, sh⟩ := by
  induction results generalizing stack with
  | nil => rfl
  | cons v rest ih =>
      have hidx : -((rest.length + 1 : ℕ) : ℤ) = -(rest.length : ℤ) - 1 := by omega
      have hnil := isnil_append rest.reverse stack v log sh (n := rest.length)
        List.length_reverse.symm
      rw [List.length_cons, LuaInputStream.countResults, hidx, List.reverse_cons, List.append_assoc,
        List.singleton_append, bind_ok hnil]
      cases hv : v.isNil with
      | true =>
          rw [if_pos rfl, List.takeWhile_cons_of_neg (by simp [hv])]
          rfl
      | false =>
          rw [if_neg Bool.false_ne_true, bind_ok (ih (v :: stack)),
            List.takeWhile_cons_of_pos (by simp [hv]), List.length_cons, Int.natCast_add]
          rfl

/-- The stream over the results of a call. -/
def resultStream (results below : List Value) : LuaInputStream where
  start := below.length
  count := (results.takeWhile fun v => !v.isNil).length

theorem new_results {results : List Value} (hlen : results.length = luaResultCount) :
    LuaInputStream.new true ⟨results.reverse ++ stack, log, sh⟩
      = .ok (resultStream results stack) ⟨results.reverse ++ stack, log, sh⟩ := by
  have hcount := countResults_eq stack log sh results
  rw [hlen] at hcount
  have htop : gettop ⟨results.reverse ++ stack, log, sh⟩
      = .ok (luaResultCount + stack.length : ℤ) ⟨results.reverse ++ stack, log, sh⟩ := by
    rw [← hlen, ← Int.natCast_add, ← List.length_reverse, ← List.length_append]
    rfl
  have hstart : (luaResultCount + stack.length : ℤ) - luaResultCount = stack.length := by omega
  rw [LuaInputStream.new, if_pos rfl, bind_ok hcount, bind_ok htop, hstart]
  rfl

/-- The stream over the arguments of a registered function. -/
theorem new_arguments :
    LuaInputStream.new false ⟨stack, log, sh⟩
      = .ok { start := 0, count := stack.length } ⟨stack, log, sh⟩ := rfl

section Read

variable {input : LuaInputStream} (hlt : input.index < input.count) {j : ℕ} {v : Value}
  (hslot : input.slot = j + 1) (hv : stack.reverse[j]? = some v)
include hlt

theorem guarded_eq {read : LuaM (Option Datum)} {val : Option Datum}
    (hread : read ⟨stack, log, sh⟩ = .ok val ⟨stack, log, sh⟩) :
    input.guarded read ⟨stack, log, sh⟩ = .ok (val, input.next) ⟨stack, log, sh⟩ := by
  rw [LuaInputStream.guarded, if_pos hlt, bind_ok hread]
  rfl

include hslot hv

theorem readInteger_eq (narrow : Int64 → Datum) :
    input.readInteger narrow ⟨stack, log, sh⟩
      = .ok (some (narrow (sh.toInteger v)), input.next) ⟨stack, log, sh⟩ := by
  have htointeger : tointeger ((j : ℤ) + 1) ⟨stack, log, sh⟩
      = .ok (sh.toInteger v) ⟨stack, log, sh⟩ := by
    rw [tointeger, bind_ok (value_pos stack v log sh hv)]
    rfl
  refine guarded_eq stack log sh hlt ?_
  rw [hslot, bind_ok htointeger]
  rfl

/-- **A read** that fits the value gives it and leaves the stack alone. -/
theorem Read.run_eq {r : Read} (hfits : r.Fits sh v) :
    r.run input ⟨stack, log, sh⟩ = .ok (r.meaning sh v, input.next) ⟨stack, log, sh⟩ := by
  have hvalue := value_pos stack v log sh hv
  cases r with
  | bool =>
      have htoboolean : toboolean ((j : ℤ) + 1) ⟨stack, log, sh⟩
          = .ok v.truthy ⟨stack, log, sh⟩ := by
        rw [toboolean, bind_ok hvalue]
        rfl
      refine guarded_eq stack log sh hlt ?_
      rw [hslot, bind_ok htoboolean]
      rfl
  | int8 => exact readInteger_eq stack log sh hlt hslot hv _
  | int16 => exact readInteger_eq stack log sh hlt hslot hv _
  | int32 => exact readInteger_eq stack log sh hlt hslot hv _
  | int64 => exact readInteger_eq stack log sh hlt hslot hv _
  | blob => exact hfits.elim
  | str =>
      obtain ⟨text, rfl⟩ := hfits
      have htext : tostring ((j : ℤ) + 1) ⟨stack, log, sh⟩ = .ok (some text) ⟨stack, log, sh⟩ := by
        rw [tostring, bind_ok hvalue]
        rfl
      have hlen : len ((j : ℤ) + 1) ⟨stack, log, sh⟩
          = .ok () ⟨.integer (.ofNat text.length) :: stack, log, sh⟩ :=
        len_eq stack _ log sh (validValue_pos stack _ log sh hv) (objlen_string text)
      refine guarded_eq stack log sh hlt ?_
      rw [hslot, bind_ok htext, bind_ok hlen, bind_ok (pop_one _ _ _ sh)]
      rfl
  | ptr type =>
      obtain ⟨val, luaType, hval, htype⟩ := hfits
      have hvalid := validValue_pos stack v log sh hv
      have htext : tostring (-1) ⟨.string luaType :: stack, log, sh⟩
          = .ok (some luaType) ⟨.string luaType :: stack, log, sh⟩ := by
        rw [tostring, bind_ok (value_top stack _ log sh)]
        rfl
      refine guarded_eq stack log sh hlt ?_
      rw [hslot, bind_ok (getfield_eq stack v log sh hvalid hval),
        bind_ok (touserdata_top stack val log sh), bind_ok (pop_one _ _ _ sh),
        bind_ok (getfield_eq stack v log sh hvalid htype), bind_ok htext, bind_ok (pop_one _ _ _ sh)]
      simp only [Read.meaning, hval, htype]
      split <;> rfl

end Read

/-- A read past the end leaves variable and stream alone. -/
theorem Read.run_end {input : LuaInputStream} (h : input.count ≤ input.index) (r : Read)
    (s : LuaState) : r.run input s = .ok (none, input) s := by
  have hguarded : ∀ read, input.guarded read s = .ok (none, input) s := by
    intro read
    rw [LuaInputStream.guarded, if_neg (by omega)]
    rfl
  cases r with
  | blob => rfl
  | _ => exact hguarded _

variable (output : LuaOutputStream)

theorem writePtr_eq (val : UInt64) (type : Option Bytes) :
    output.writePtr val type ⟨stack, log, sh⟩
      = .ok output.next ⟨.record (.lightuserdata val) (cstringValue type) :: stack, log, sh⟩ := by
  have hcreate : createtable ⟨stack, log, sh⟩ = .ok () ⟨.record .nil .nil :: stack, log, sh⟩ := rfl
  have hval : ∀ stack, pushlightuserdata val ⟨stack, log, sh⟩
      = .ok () ⟨.lightuserdata val :: stack, log, sh⟩ := fun _ => rfl
  have htype : ∀ stack, pushstring type ⟨stack, log, sh⟩
      = .ok () ⟨cstringValue type :: stack, log, sh⟩ := fun _ => rfl
  rw [LuaOutputStream.writePtr, bind_ok hcreate, bind_ok (hval _),
    bind_ok (setfield_record stack _ log sh .nil .nil ptrIndex), if_pos rfl, bind_ok (htype _),
    bind_ok (setfield_record stack _ log sh _ .nil typeIndex), if_neg (by decide)]
  rfl

/-- **A write** pushes its value and counts it. -/
theorem Write.run_eq (w : Write) :
    w.run output ⟨stack, log, sh⟩
      = .ok ⟨output.count + w.value.toList.length⟩ ⟨w.value.toList.reverse ++ stack, log, sh⟩ := by
  cases w with
  | ptr val type => exact writePtr_eq stack log sh output val type
  | _ => rfl

theorem written_cons (w : Write) (ws : List Write) :
    written (w :: ws) = w.value.toList ++ written ws := by
  cases hw : w.value with
  | none => exact List.filterMap_cons_none hw
  | some v => exact List.filterMap_cons_some hw

/-- **A sequence of writes** pushes the values in the order of the calls. -/
theorem writeAll_eq (ws : List Write) :
    writeAll ws output ⟨stack, log, sh⟩
      = .ok ⟨output.count + (written ws).length⟩ ⟨(written ws).reverse ++ stack, log, sh⟩ := by
  induction ws generalizing stack output with
  | nil => rfl
  | cons w ws ih =>
      rw [writeAll, bind_ok (w.run_eq stack log sh output), ih, written_cons, List.length_append,
        List.reverse_append, List.append_assoc, Nat.add_assoc]

end Equations

end SeedCore.Lua
