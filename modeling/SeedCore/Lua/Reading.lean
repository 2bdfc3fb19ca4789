import SeedCore.Lua.Interchange

/-!
# Reading what a script supplies

The methods of `LuaInputStream` test how many values there are, and leave the types to
`ASSERT`, which a release build passes over.  So reading a truth value or an integer is
harmless whatever the value is, but `ReadStr` asks for the length of any value and looks into the
string it did not get, and `ReadPtr` indexes any value, which may run functions of the script
that its metatable names, and compares the field `type` that may not be there.

## Main definitions

* `StreamOp`, `StreamOp.run` — a call on the stream.
* `Harmless`, `Unharmed` — what one call, and a sequence of calls, must not do.
* `Read.eval` — what a read makes of the value under the cursor.
* `Read.leaves`, `FitsAll` — the values that the calls can read.
* `unharmed_iff` — the calls are harmless exactly when they meet such values.
* `reading_unharmed_iff` — so for what a script passes and for what it returns.
-/

namespace SeedCore.Lua

/-- A call on the stream: a read method, or `Reset`. -/
inductive StreamOp
  | read (r : Read)
  | reset
  deriving DecidableEq, Repr

def StreamOp.run (input : LuaInputStream) : StreamOp → LuaM (Option Datum × LuaInputStream)
  | read r => r.run input
  | reset => pure (none, input.reset)

/-- What holds of a call that returned: the stack is as high as it was, the slots outside the
window of the stream are as they were, a read is of a slot in the window, and a read past the end
changes neither variable nor cursor. -/
structure Harmless (op : StreamOp) (input : LuaInputStream) (s : LuaState) (val : Option Datum)
    (input' : LuaInputStream) (s' : LuaState) : Prop where
  height_eq : s'.stack.length = s.stack.length
  outside_eq : ∀ i : ℕ, ((i : ℤ) < input.start ∨ input.start + input.count ≤ i) →
    s'.stack.reverse[i]? = s.stack.reverse[i]?
  slot_mem : ∀ r, op = .read r → input.index < input.count →
    input.start < input.slot ∧ input.slot ≤ input.start + input.count ∧
      input.slot ≤ s.stack.length
  past_end : ∀ r, op = .read r → input.count ≤ input.index → val = none ∧ input' = input

/-- The calls return one after the other, and each is harmless. -/
def Unharmed : List StreamOp → LuaInputStream → LuaState → Prop
  | [], _, _ => True
  | op :: ops, input, s => ∃ val input' s', op.run input s = .ok (val, input') s' ∧
      Harmless op input s val input' s' ∧ Unharmed ops input' s'

section Cons

variable {op : StreamOp} {ops : List StreamOp} {input input' : LuaInputStream} {s s' : LuaState}
  {val : Option Datum}

/-- After a harmless call, what matters is the rest. -/
theorem unharmed_cons_of_ok (hrun : op.run input s = .ok (val, input') s')
    (hharmless : Harmless op input s val input' s') :
    Unharmed (op :: ops) input s ↔ Unharmed ops input' s' := by
  constructor
  · rintro ⟨_, _, _, hrun', -, hrest⟩
    rw [hrun] at hrun'
    cases hrun'
    exact hrest
  · intro hrest
    exact ⟨val, input', s', hrun, hharmless, hrest⟩

theorem not_unharmed_cons_of_error {fault : Fault} (hrun : op.run input s = .error fault s') :
    ¬Unharmed (op :: ops) input s := by
  rintro ⟨_, _, _, hrun', -, -⟩
  rw [hrun] at hrun'
  cases hrun'

end Cons

/-! ## The values that a call can read -/

/-- What `lua_tostring` leaves in the slot of a value. -/
def Value.asText (v : Value) : Value := (v.text?.map Value.string).getD v

/-- What a read makes of the value under the cursor, without the stack. -/
def Read.eval (v : Value) : Read → Code (Option Datum)
  | bool => pure (some (.bool v.truthy))
  | int8 => do
      let sh ← get
      pure (some (.int8 (sh.toInteger v).toInt8))
  | int16 => do
      let sh ← get
      pure (some (.int16 (sh.toInteger v).toInt16))
  | int32 => do
      let sh ← get
      pure (some (.int32 (sh.toInteger v).toInt32))
  | int64 => do
      let sh ← get
      pure (some (.int64 (sh.toInteger v)))
  | blob => pure none
  | str =>
      match v.text? with
      | some text => pure (some (.str (cstr text)))
      | none => do
          let _ ← objlen v
          throw .nullPointer
  | ptr type => do
      let val ← index v (.string ptrIndex)
      let field ← index v (.string typeIndex)
      match field.text? with
      | some text =>
          pure (if cstr text ≠ cstr type ∨ cstr type = [] then none else some (.ptr val.address))
      | none => throw .nullPointer

/-- What the read leaves in the slot. -/
def Read.after (v : Value) : Read → Value
  | str => v.asText
  | _ => v

/-- The field `type` of a value, as it is after the field `ptr` has been looked up. -/
def typeField (v : Value) : Code Value := do
  let _ ← index v (.string ptrIndex)
  index v (.string typeIndex)

/-- What is shared after a read of the value, if the read returns: `ReadStr` needs a string or a
number, and `ReadPtr` a value that can be indexed, with or without a metatable, and that has a
string or a number in the field `type`. -/
def Read.leaves (sh : Shared) (v : Value) : Read → Option Shared
  | bool | int8 | int16 | int32 | int64 | blob => some sh
  | str => if v.text?.isSome then some sh else none
  | ptr _ =>
      match typeField v sh with
      | .ok field shared => if field.text?.isSome then some shared else none
      | .error _ _ => none

/-- These are the values from which a read returns. -/
theorem Read.leaves_eq (sh : Shared) (v : Value) (r : Read) :
    r.leaves sh v = match r.eval v sh with
      | .ok _ shared => some shared
      | .error _ _ => none := by
  cases r with
  | str =>
      cases htext : v.text? with
      | some text => simp only [Read.leaves, Read.eval, htext]; rfl
      | none =>
          simp only [Read.leaves, Read.eval, htext]
          cases hn : objlen v sh with
          | ok n shared => rw [bind_ok hn]; rfl
          | error fault shared => rw [bind_error hn]; rfl
  | ptr type =>
      rw [Read.leaves, Read.eval, typeField]
      cases hval : index v (.string ptrIndex) sh with
      | error fault shared => rw [bind_error hval, bind_error hval]
      | ok val shared =>
          rw [bind_ok hval, bind_ok hval]
          cases hfield : index v (.string typeIndex) shared with
          | error fault after => rw [bind_error hfield]
          | ok field after =>
              rw [bind_ok hfield]
              cases htext : field.text? with
              | none => simp only [htext]; rfl
              | some text => simp only [htext]; rfl
  | _ => rfl

/-- Every read of the sequence meets a value that it can read, or the end; `values` are those in
the window, and `index` is the cursor. -/
def FitsAll (sh : Shared) : List StreamOp → List Value → ℕ → Prop
  | [], _, _ => True
  | .reset :: ops, values, _ => FitsAll sh ops values 0
  | .read r :: ops, values, index =>
      if r = .blob then FitsAll sh ops values index
      else match values[index]? with
        | none => FitsAll sh ops values index
        | some v => ∃ shared, r.leaves sh v = some shared ∧
            FitsAll shared ops (values.set index (r.after v)) (index + 1)

/-! ## One read -/

section Slot

variable {slots : List Value} {j : ℕ} {v : Value} (hv : slots[j]? = some v) (log : List Event)
  (sh : Shared)
include hv

theorem value_slot :
    value ((j : ℤ) + 1) ⟨slots.reverse, log, sh⟩ = .ok (some v) ⟨slots.reverse, log, sh⟩ :=
  value_pos slots.reverse v log sh (by rwa [List.reverse_reverse])

theorem validValue_slot :
    validValue ((j : ℤ) + 1) ⟨slots.reverse, log, sh⟩ = .ok v ⟨slots.reverse, log, sh⟩ :=
  validValue_pos slots.reverse v log sh (by rwa [List.reverse_reverse])

/-- A number becomes a string in its slot. -/
theorem tostring_slot :
    tostring ((j : ℤ) + 1) ⟨slots.reverse, log, sh⟩ =
      .ok v.text? ⟨(slots.set j v.asText).reverse, log, sh⟩ := by
  have hlt := (List.getElem?_eq_some_iff.mp hv).1
  have hself : slots.set j v = slots := by
    obtain ⟨_, rfl⟩ := List.getElem?_eq_some_iff.mp hv
    exact List.set_getElem_self _
  have hplace : ∀ x, Stack.replaceAt slots.reverse ((j : ℤ) + 1) x = (slots.set j x).reverse :=
    Stack.replaceAt_pos hlt
  rw [tostring, bind_ok (value_slot hv log sh)]
  cases v with
  | integer n =>
      show EStateM.Result.ok _ _ = _
      simp only [hplace]
      rfl
  | float n text =>
      show EStateM.Result.ok _ _ = _
      simp only [hplace]
      rfl
  | _ => simp only [Value.asText, Value.text?, Value.numeral?, Option.map_none, Option.map_some,
      Option.getD_none, Option.getD_some, hself]; rfl

end Slot

/-- The copy of a value on the top becomes a string, if it is a number. -/
theorem tostring_copy (v : Value) (stack : List Value) (log : List Event) (sh : Shared) :
    tostring (-1) ⟨v :: stack, log, sh⟩ = .ok v.text? ⟨v.asText :: stack, log, sh⟩ := by
  rw [tostring, bind_ok (value_top stack v log sh)]
  cases v <;> rfl

/-- A value that has no text keeps its slot, and a value that has one becomes that string. -/
theorem Value.asText_eq_string {v : Value} {text : Bytes} (h : v.text? = some text) :
    v.asText = .string text := by
  rw [Value.asText, h]
  rfl

theorem Value.asText_eq_self {v : Value} (h : v.text? = none) : v.asText = v := by
  rw [Value.asText, h]
  rfl

section Read

variable {input : LuaInputStream} (hlt : input.index < input.count) {slots : List Value} {j : ℕ}
  {v : Value} (hslot : input.slot = j + 1) (hv : slots[j]? = some v) (log : List Event)
  (sh : Shared)
include hlt

theorem guarded_ok {read : LuaM (Option Datum)} {val : Option Datum} {s s' : LuaState}
    (hread : read s = .ok val s') : input.guarded read s = .ok (val, input.next) s' := by
  rw [LuaInputStream.guarded, if_pos hlt, bind_ok hread]
  rfl

theorem guarded_error {read : LuaM (Option Datum)} {fault : Fault} {s s' : LuaState}
    (hread : read s = .error fault s') : input.guarded read s = .error fault s' := by
  rw [LuaInputStream.guarded, if_pos hlt, bind_error hread]

include hslot hv

theorem readStr_eval : input.readStr ⟨slots.reverse, log, sh⟩ = match Read.eval v .str sh with
    | .ok val shared => .ok (val, input.next) ⟨(slots.set j v.asText).reverse, log, shared⟩
    | .error fault shared => .error fault ⟨slots.reverse, log, shared⟩ := by
  cases htext : v.text? with
  | some text =>
      simp only [Read.eval, htext]
      have hset : (slots.set j v.asText)[j]? = some (.string text) := by
        have hj := (List.getElem?_eq_some_iff.mp hv).1
        rw [Value.asText_eq_string htext, List.getElem?_set_self hj]
      have hlen := len_eq (slots.set j v.asText).reverse _ log sh (validValue_slot hset log sh)
        (objlen_string text)
      refine guarded_ok hlt ?_
      rw [hslot, bind_ok (tostring_slot hv log sh), bind_ok hlen, bind_ok (pop_one _ _ _ sh), htext]
      rfl
  | none =>
      have hset : slots.set j v.asText = slots := by
        obtain ⟨_, rfl⟩ := List.getElem?_eq_some_iff.mp hv
        rw [Value.asText_eq_self htext]
        exact List.set_getElem_self _
      have htostring := tostring_slot hv log sh
      rw [hset, htext] at htostring
      have hvalid := validValue_slot hv log sh
      cases hn : objlen v sh with
      | error fault shared =>
          simp only [Read.eval, htext]
          rw [bind_error hn]
          refine guarded_error hlt ?_
          rw [hslot, bind_ok htostring]
          exact bind_error (len_error _ v log sh hvalid hn)
      | ok n shared =>
          -- the length of a table is there, and then its text is looked into
          simp only [Read.eval, htext]
          rw [bind_ok hn]
          refine guarded_error hlt ?_
          rw [hslot, bind_ok htostring, bind_ok (len_eq _ v log sh hvalid hn),
            bind_ok (pop_one _ n log shared)]
          rfl

theorem readPtr_eval (type : Bytes) :
    input.readPtr type ⟨slots.reverse, log, sh⟩ = match Read.eval v (.ptr type) sh with
      | .ok val shared => .ok (val, input.next) ⟨slots.reverse, log, shared⟩
      | .error fault shared => .error fault ⟨slots.reverse, log, shared⟩ := by
  rw [Read.eval]
  cases hval : index v (.string ptrIndex) sh with
  | error fault shared =>
      rw [bind_error hval]
      refine guarded_error hlt ?_
      rw [hslot]
      exact bind_error (getfield_error _ v log sh (validValue_slot hv log sh) hval)
  | ok val shared =>
      rw [bind_ok hval]
      cases hfield : index v (.string typeIndex) shared with
      | error fault after =>
          rw [bind_error hfield]
          refine guarded_error hlt ?_
          rw [hslot, bind_ok (getfield_eq _ v log sh (validValue_slot hv log sh) hval),
            bind_ok (touserdata_top _ val log shared), bind_ok (pop_one _ _ _ shared)]
          exact bind_error (getfield_error _ v log shared (validValue_slot hv log shared) hfield)
      | ok field after =>
          rw [bind_ok hfield]
          cases htext : field.text? with
          | none =>
              -- the null pointer goes to `strcmp`
              dsimp only
              refine guarded_error hlt ?_
              rw [hslot, bind_ok (getfield_eq _ v log sh (validValue_slot hv log sh) hval),
                bind_ok (touserdata_top _ val log shared), bind_ok (pop_one _ _ _ shared),
                bind_ok (getfield_eq _ v log shared (validValue_slot hv log shared) hfield),
                bind_ok (tostring_copy field _ log after), bind_ok (pop_one _ _ _ after), htext]
              rfl
          | some text =>
              dsimp only
              refine guarded_ok hlt ?_
              rw [hslot, bind_ok (getfield_eq _ v log sh (validValue_slot hv log sh) hval),
                bind_ok (touserdata_top _ val log shared), bind_ok (pop_one _ _ _ shared),
                bind_ok (getfield_eq _ v log shared (validValue_slot hv log shared) hfield),
                bind_ok (tostring_copy field _ log after), bind_ok (pop_one _ _ _ after), htext]
              dsimp only
              split <;> rfl

/-- **A read** of a value does what it makes of the value, and changes no slot but that of a number
that is read as a string. -/
theorem Read.run_eval {r : Read} (hblob : r ≠ .blob) :
    r.run input ⟨slots.reverse, log, sh⟩ = match r.eval v sh with
      | .ok val shared => .ok (val, input.next) ⟨(slots.set j (r.after v)).reverse, log, shared⟩
      | .error fault shared => .error fault ⟨slots.reverse, log, shared⟩ := by
  have hself : slots.set j v = slots := by
    obtain ⟨_, rfl⟩ := List.getElem?_eq_some_iff.mp hv
    exact List.set_getElem_self _
  have hv' : slots.reverse.reverse[j]? = some v := by rwa [List.reverse_reverse]
  cases r with
  | str => exact readStr_eval hlt hslot hv log sh
  | ptr type =>
      simp only [Read.after, hself]
      exact readPtr_eval hlt hslot hv log sh type
  | blob => exact absurd rfl hblob
  | _ =>
      simp only [Read.after, hself]
      exact Read.run_eq slots.reverse log sh hlt hslot hv' trivial

end Read

/-! ## A sequence of calls -/

/-- The stack of a stream: `values` are in its window, in the order in which they are read. -/
def windowState (lower values upper : List Value) (log : List Event) (sh : Shared) : LuaState :=
  ⟨(lower ++ values ++ upper).reverse, log, sh⟩

/-- A stream over this window, with its cursor. -/
def windowStream (lower values : List Value) (index : ℕ) : LuaInputStream :=
  ⟨index, lower.length, values.length⟩

section Window

variable (lower values upper : List Value) (log : List Event) (sh : Shared) (index : ℕ)

theorem set_window (hindex : index < values.length) (x : Value) :
    (lower ++ values ++ upper).set (lower.length + index) x =
      lower ++ values.set index x ++ upper := by
  rw [List.append_assoc, List.set_append_right _ _ (by omega), Nat.add_sub_cancel_left,
    List.set_append_left _ _ hindex, List.append_assoc]

theorem getElem?_window {v : Value} (hv : values[index]? = some v) :
    (lower ++ values ++ upper)[lower.length + index]? = some v := by
  have hindex := (List.getElem?_eq_some_iff.mp hv).1
  rw [List.append_assoc, List.getElem?_append_right (by omega), Nat.add_sub_cancel_left,
    List.getElem?_append_left hindex, hv]

theorem windowStream_slot_mem
    (hlt : (windowStream lower values index).index < (windowStream lower values index).count) :
    (windowStream lower values index).start < (windowStream lower values index).slot ∧
      (windowStream lower values index).slot ≤
        (windowStream lower values index).start + (windowStream lower values index).count ∧
      (windowStream lower values index).slot ≤
        (windowState lower values upper log sh).stack.length := by
  simp only [windowStream, windowState, LuaInputStream.slot, List.length_reverse,
    List.length_append] at hlt ⊢
  omega

/-- A call that leaves the stack alone, and does not read past the end. -/
theorem harmless_same {op : StreamOp} {val : Option Datum} {input' : LuaInputStream}
    (hend : ∀ r, op = .read r →
      (windowStream lower values index).count ≤ (windowStream lower values index).index →
        val = none ∧ input' = windowStream lower values index) :
    Harmless op (windowStream lower values index) (windowState lower values upper log sh) val
      input' (windowState lower values upper log sh) :=
  ⟨rfl, fun _ _ => rfl, fun _ _ => windowStream_slot_mem lower values upper log sh index, hend⟩

/-- A read that changes its slot at most. -/
theorem harmless_set {r : Read} {val : Option Datum} {input' : LuaInputStream}
    (hindex : index < values.length) (x : Value) (shared : Shared) :
    Harmless (.read r) (windowStream lower values index) (windowState lower values upper log sh)
      val input' (windowState lower (values.set index x) upper log shared) := by
  refine ⟨?_, ?_, fun _ _ => windowStream_slot_mem lower values upper log sh index, ?_⟩
  · simp [windowState]
  · intro i hi
    simp only [windowState, windowStream, List.reverse_reverse] at hi ⊢
    rw [← set_window lower values upper index hindex, List.getElem?_set_ne (by omega)]
  · intro r' hr hend
    simp only [windowStream] at hend
    omega

/-- A read past the end of the window finds nothing. -/
theorem run_past_window (hv : values[index]? = none) (r : Read) :
    (StreamOp.read r).run (windowStream lower values index)
        (windowState lower values upper log sh) =
      .ok (none, windowStream lower values index) (windowState lower values upper log sh) := by
  have hend : (windowStream lower values index).count ≤
      (windowStream lower values index).index := by
    have hle := List.getElem?_eq_none_iff.mp hv
    simp only [windowStream]
    omega
  exact r.run_end hend _

theorem windowStream_slot :
    (windowStream lower values index).slot = (lower.length + index : ℕ) + 1 := by
  simp only [windowStream, LuaInputStream.slot]
  omega

section Within

variable {values index} {v : Value} (hv : values[index]? = some v)
include hv

theorem windowStream_index_lt :
    (windowStream lower values index).index < (windowStream lower values index).count := by
  have hindex := (List.getElem?_eq_some_iff.mp hv).1
  simp only [windowStream]
  omega

/-- A read of a value in the window changes the slot of the value at most. -/
theorem run_window {r : Read} (hblob : r ≠ .blob) :
    (StreamOp.read r).run (windowStream lower values index)
        (windowState lower values upper log sh) = match r.eval v sh with
      | .ok val shared => .ok (val, windowStream lower (values.set index (r.after v)) (index + 1))
          (windowState lower (values.set index (r.after v)) upper log shared)
      | .error fault shared => .error fault (windowState lower values upper log shared) := by
  have hindex := (List.getElem?_eq_some_iff.mp hv).1
  have hnext : windowStream lower (values.set index (r.after v)) (index + 1) =
      (windowStream lower values index).next := by
    simp [windowStream, LuaInputStream.next]
  have hrun := Read.run_eval (windowStream_index_lt lower hv)
    (windowStream_slot lower values index) (getElem?_window lower values upper index hv) log sh
    hblob
  rw [set_window lower values upper index hindex] at hrun
  rw [hnext]
  exact hrun

end Within

/-- **The calls are harmless exactly when every read meets a value that it can read.** -/
theorem unharmed_iff (ops : List StreamOp) :
    Unharmed ops (windowStream lower values index) (windowState lower values upper log sh) ↔
      FitsAll sh ops values index := by
  induction ops generalizing values index sh with
  | nil => exact Iff.rfl
  | cons op ops ih =>
      cases op with
      | reset =>
          have hreset : Harmless .reset _ _ none (windowStream lower values 0) _ :=
            harmless_same lower values upper log sh index fun r hr => nomatch hr
          exact (unharmed_cons_of_ok rfl hreset).trans (ih values sh 0)
      | read r =>
          -- a read that finds nothing leaves the stream as it was
          have hnothing : Harmless (.read r) _ _ none (windowStream lower values index) _ :=
            harmless_same lower values upper log sh index fun _ _ _ => ⟨rfl, rfl⟩
          by_cases hblob : r = .blob
          · subst hblob
            simp only [FitsAll, if_true]
            exact (unharmed_cons_of_ok rfl hnothing).trans (ih values sh index)
          · simp only [FitsAll, hblob, if_false]
            cases hv : values[index]? with
            | none =>
                have hrun := run_past_window lower values upper log sh index hv r
                exact (unharmed_cons_of_ok hrun hnothing).trans (ih values sh index)
            | some v =>
                have hrun := run_window lower upper log sh hv hblob
                cases heval : r.eval v sh with
                | ok val shared =>
                    rw [heval] at hrun
                    have hindex := (List.getElem?_eq_some_iff.mp hv).1
                    rw [unharmed_cons_of_ok hrun
                      (harmless_set lower values upper log sh index hindex _ shared), ih]
                    simp only [Read.leaves_eq, heval, Option.some.injEq, exists_eq_left']
                | error fault shared =>
                    rw [heval] at hrun
                    refine iff_of_false (not_unharmed_cons_of_error hrun) ?_
                    rintro ⟨shared, hleaves, -⟩
                    rw [Read.leaves_eq, heval] at hleaves
                    cases hleaves

end Window

/-- The values among the results of a call that its stream counts. -/
def countedResults (results : List Value) : List Value :=
  (adjust luaResultCount results).takeWhile fun v => !v.isNil

/-- **Reading what a script passes and what it returns.**  A sequence of calls on the stream of a
registered function over its arguments, or on the stream over the results of a script function,
is harmless exactly when its `ReadStr` meet strings and numbers and its `ReadPtr` values that can
be indexed and whose field `type` is a string or a number. -/
theorem reading_unharmed_iff (values : List Value) (ops : List StreamOp) (below : List Value)
    (log : List Event) (sh : Shared) :
    (∃ input, LuaInputStream.new false ⟨values.reverse, log, sh⟩ =
        .ok input ⟨values.reverse, log, sh⟩ ∧
      (Unharmed ops input ⟨values.reverse, log, sh⟩ ↔ FitsAll sh ops values 0)) ∧
    ∃ input, LuaInputStream.new true ⟨(adjust luaResultCount values).reverse ++ below, log, sh⟩ =
        .ok input ⟨(adjust luaResultCount values).reverse ++ below, log, sh⟩ ∧
      (Unharmed ops input ⟨(adjust luaResultCount values).reverse ++ below, log, sh⟩ ↔
        FitsAll sh ops (countedResults values) 0) := by
  constructor
  · have harguments := unharmed_iff [] values [] log sh 0 ops
    rw [windowState, List.nil_append, List.append_nil] at harguments
    refine ⟨_, new_arguments _ _ _, ?_⟩
    rw [List.length_reverse]
    exact harguments
  · have hsplit : (below.reverse ++ countedResults values ++
        (adjust luaResultCount values).dropWhile fun v => !v.isNil).reverse =
        (adjust luaResultCount values).reverse ++ below := by
      rw [List.append_assoc, countedResults, List.takeWhile_append_dropWhile, List.reverse_append,
        List.reverse_reverse]
    have hresults := unharmed_iff below.reverse (countedResults values)
      ((adjust luaResultCount values).dropWhile fun v => !v.isNil) log sh 0 ops
    rw [windowState, hsplit, windowStream, List.length_reverse] at hresults
    exact ⟨_, new_results below log sh (adjust_length luaResultCount values), hresults⟩

/-- A table without fields, whose metatable names a value as `__index`: a table with both fields,
or a function, all of which raise errors. -/
def delegating (f : Value) : Shared where
  tables := [∅, AList.singleton (.string (ascii "__index")) f,
    (AList.singleton (.string ptrIndex) (.userdata 4096)).insert (.string typeIndex)
      (.string (ascii "player"))]
  metatables := AList.singleton (.table 0) (.table 1)
  code := fun _ _ => throw (.raised .nil)

/-- The fields may be those of another table. -/
example : FitsAll (delegating (.table 2)) [.read (.ptr (ascii "player"))] [.table 0] 0 :=
  ⟨delegating (.table 2), rfl, trivial⟩

/-- A function that raises an error where `ptr` is looked up is not passed over. -/
example :
    ¬FitsAll (delegating (.function 7)) [.read (.ptr (ascii "player"))] [.table 0] 0 := by
  rintro ⟨shared, hleaves, -⟩
  cases hleaves

/-- `nil` where a string is read raises an error, and a table without a field `type` where a
pointer is read hands a null pointer to `strcmp`. -/
theorem reading_faults :
    (∃ input, LuaInputStream.new false ⟨[.nil], [], {}⟩ = .ok input ⟨[.nil], [], {}⟩ ∧
      ¬Unharmed [.read .str] input ⟨[.nil], [], {}⟩) ∧
    ∃ input, LuaInputStream.new false ⟨[.table 0], [], { tables := [∅] }⟩ =
        .ok input ⟨[.table 0], [], { tables := [∅] }⟩ ∧
      ¬Unharmed [.read (.ptr (ascii "player"))] input ⟨[.table 0], [], { tables := [∅] }⟩ := by
  constructor
  · refine ⟨_, rfl, ?_⟩
    rintro ⟨val, input', s', hrun, -⟩
    have hstop : observed (fun val _ => val.1)
        ((StreamOp.read .str).run { start := 0, count := 1 } ⟨[.nil], [], {}⟩) = none := by
      decide +kernel
    change (StreamOp.read .str).run { start := 0, count := 1 } _ = _ at hrun
    rw [hrun] at hstop
    cases hstop
  · refine ⟨_, rfl, ?_⟩
    rintro ⟨val, input', s', hrun, -⟩
    have hstop : observed (fun val _ => val.1)
        ((StreamOp.read (.ptr (ascii "player"))).run { start := 0, count := 1 }
          ⟨[.table 0], [], { tables := [∅] }⟩) = none := by
      decide +kernel
    change (StreamOp.read (.ptr (ascii "player"))).run { start := 0, count := 1 } _ = _ at hrun
    rw [hrun] at hstop
    cases hstop

end SeedCore.Lua
