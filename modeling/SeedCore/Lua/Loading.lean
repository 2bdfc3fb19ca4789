import SeedCore.Lua.Reload

/-!
# What loading a module comes to

A call of a module that has no entry in `package.loaded` loads its source, and a reload loads it in
any case.  Here the source gives a new table with a field, a value that has no fields, or an error,
and leaves the rest alone; then this says what `require`, the function `call` and the function
`reload` make of it.

## Main definitions

* `Source` — what loading a source comes to.
* `Extends`, `Leaves` — what scripts and callbacks do not touch.
* `Usable`, `Source.Gives` — what is assumed of the state, and of the source.
* `require_spec`, `linkCall_spec`, `linkReload_spec` — what the functions of Lua make of it.
-/

namespace SeedCore.Lua

/-! ## Sources, and what is left alone -/

/-- What loading the source comes to: a table, another value, or an error. -/
inductive Source
  | table
  | value (v : Value)
  | error

/-- What `require` records of the value of a source. -/
def recorded (v : Value) : Value := if v.isNil then .boolean true else v

/-- `nil`, `true` and the numbers. -/
def Value.isScalar : Value → Bool
  | .nil | .boolean true | .integer _ | .float _ _ => true
  | _ => false

/-- A scalar, or a table that is there, without a metatable. -/
def Shared.Bare (sh : Shared) (v : Value) : Prop :=
  (v.isScalar = true ∨ ∃ ref < sh.tables.length, v = .table ref) ∧ Table.get sh.metatables v = .nil

/-- Tables are added, none that is there gets a metatable, and no scalar does; the functions of
`link.lua` stay, and so do the modules that are loaded; but for the module `m`. -/
structure Extends (loaded : ℕ) (m : Bytes) (before after : Shared) : Prop where
  call_eq : after.global callFunction = before.global callFunction
  reload_eq : after.global (ascii "reload") = before.global (ascii "reload")
  tables_le : before.tables.length ≤ after.tables.length
  bare : ∀ v, before.Bare v → after.Bare v
  others : ∀ m', m' ≠ m → (moduleEntry loaded m' before).truthy = true →
    moduleEntry loaded m' after = moduleEntry loaded m' before

/-- The module `m` is left alone, too. -/
structure Leaves (loaded : ℕ) (m : Bytes) (before after : Shared) : Prop
    extends Extends loaded m before after where
  entry_eq : moduleEntry loaded m after = moduleEntry loaded m before

/-- What holds throughout: the functions of `link.lua` are there, and the modules that the source
needs are loaded; `package.loaded` has no metatable, and no scalar has one. -/
structure Usable (loaded : ℕ) (needs : List Bytes) (sh : Shared) : Prop where
  call_defined : (sh.global callFunction).isFunction = true
  reload_defined : (sh.global (ascii "reload")).isFunction = true
  loaded_bare : sh.Bare (.table loaded)
  scalars_bare : ∀ v, v.isScalar = true → sh.Bare v
  needs : ∀ m' ∈ needs, (moduleEntry loaded m' sh).truthy = true

/-- What loading the source comes to, as it says: a new table with a field, a scalar, or an error;
and nothing else is touched. -/
def Source.Gives (loaded : ℕ) (m : Bytes) (shared : Shared) :
    Source → EStateM.Result Fault Shared (List Value) → Prop
  | .table, .ok results left => Leaves loaded m shared left ∧
      ∃ ref, results.headD .nil = .table ref ∧ shared.tables.length ≤ ref ∧ left.Bare (.table ref) ∧
        ∃ k, k.isKey = true ∧ Table.get (left.table ref) k ≠ .nil
  | .value v, .ok results left => Leaves loaded m shared left ∧
      results.headD .nil = v ∧ v.isScalar = true
  | .error, .error (.raised _) left => Leaves loaded m shared left
  | _, _ => False

section Extends

variable {loaded : ℕ} {m : Bytes} {before mid after shared left : Shared}

theorem Extends.refl (shared : Shared) : Extends loaded m shared shared :=
  ⟨rfl, rfl, le_rfl, fun _ h => h, fun _ _ _ => rfl⟩

theorem Extends.trans (h : Extends loaded m before mid) (h' : Extends loaded m mid after) :
    Extends loaded m before after where
  call_eq := h'.call_eq.trans h.call_eq
  reload_eq := h'.reload_eq.trans h.reload_eq
  tables_le := h.tables_le.trans h'.tables_le
  bare v hbare := h'.bare v (h.bare v hbare)
  others m' hne htruthy := by
    have hmid := h.others m' hne htruthy
    rw [h'.others m' hne (hmid ▸ htruthy), hmid]

theorem Leaves.refl (shared : Shared) : Leaves loaded m shared shared := ⟨.refl shared, rfl⟩

theorem Leaves.trans (h : Leaves loaded m before mid) (h' : Leaves loaded m mid after) :
    Leaves loaded m before after :=
  ⟨h.toExtends.trans h'.toExtends, h'.entry_eq.trans h.entry_eq⟩

theorem le_length_assign (shared : Shared) (ref : ℕ) (key v : Value) :
    shared.tables.length ≤ (shared.assign ref key v).tables.length := by
  simp only [Shared.assign, List.length_set, List.length_append, List.length_replicate]
  omega

theorem Shared.Bare.of_le {v : Value} (h : before.Bare v)
    (hle : before.tables.length ≤ after.tables.length)
    (hmeta : Table.get after.metatables v = Table.get before.metatables v) : after.Bare v := by
  refine ⟨h.1.imp_right ?_, hmeta.trans h.2⟩
  rintro ⟨ref, hlt, rfl⟩
  exact ⟨ref, hlt.trans_le hle, rfl⟩

theorem lt_length_of_bare {ref : ℕ} (h : shared.Bare (.table ref)) : ref < shared.tables.length := by
  obtain ⟨hscalar | ⟨r, hlt, heq⟩, -⟩ := h
  · cases hscalar
  · cases heq
    exact hlt

/-- A field of another table, or the entry of the module. -/
theorem extends_assign (shared : Shared) {ref : ℕ} {key : Value}
    (h : ref = loaded → key = .string m) (v : Value) :
    Extends loaded m shared (shared.assign ref key v) where
  call_eq := rfl
  reload_eq := rfl
  tables_le := le_length_assign shared _ _ _
  bare _ hbare := hbare.of_le (le_length_assign shared _ _ _) rfl
  others m' hne _ := by
    rw [moduleEntry, moduleEntry, get_assign, if_neg]
    rintro ⟨rfl, rfl⟩
    exact hne (Value.string.inj (h rfl))

theorem extends_entry (shared : Shared) (v : Value) :
    Extends loaded m shared (shared.assign loaded (.string m) v) :=
  extends_assign shared (fun _ => rfl) v

theorem extends_assignAll {ref : ℕ} (hne : ref ≠ loaded) (shared : Shared)
    (fields : List (Value × Value)) : Extends loaded m shared (shared.assignAll ref fields) := by
  induction fields generalizing shared with
  | nil => exact .refl shared
  | cons e fields ih =>
      have hassign : Extends loaded m shared (shared.assign ref e.1 e.2) :=
        extends_assign shared (fun heq => absurd heq hne) _
      exact hassign.trans (ih _)

theorem bare_newTable (shared : Shared) : shared.newTable.2.Bare (.table shared.tables.length) := by
  refine ⟨.inr ⟨_, ?_, rfl⟩, ?_⟩
  · rw [Shared.newTable, List.length_append]
    exact Nat.lt_succ_self _
  · rw [Shared.newTable, Table.get_put, if_pos rfl]

theorem extends_newTable (shared : Shared) : Extends loaded m shared shared.newTable.2 where
  call_eq := rfl
  reload_eq := rfl
  tables_le := by
    rw [Shared.newTable, List.length_append]
    omega
  bare v hbare := by
    refine ⟨hbare.1.imp_right ?_, ?_⟩
    · rintro ⟨ref, hlt, rfl⟩
      refine ⟨ref, ?_, rfl⟩
      rw [Shared.newTable, List.length_append]
      omega
    · rw [Shared.newTable, Table.get_put]
      split
      · rfl
      · exact hbare.2
  others m' _ _ := by rw [moduleEntry, moduleEntry, table_newTable]

variable {needs : List Bytes}

theorem Usable.extend (h : Usable loaded needs before) (hm : m ∉ needs)
    (he : Extends loaded m before after) : Usable loaded needs after where
  call_defined := by
    rw [he.call_eq]
    exact h.call_defined
  reload_defined := by
    rw [he.reload_eq]
    exact h.reload_defined
  loaded_bare := he.bare _ h.loaded_bare
  scalars_bare v hv := he.bare v (h.scalars_bare v hv)
  needs m' hm' := by
    have hne : m' ≠ m := fun heq => hm (heq ▸ hm')
    rw [he.others m' hne (h.needs m' hm')]
    exact h.needs m' hm'

end Extends
/-! ## What `require` comes to -/

section Require

variable {loaded : ℕ} {m : Bytes} {shared left : Shared}

theorem Shared.Bare.metafield {v : Value} (h : shared.Bare v) (event : Bytes) :
    shared.metafield v event = .nil := metafield_of_eq_nil h.2 event

theorem recorded_isScalar {v : Value} (h : v.isScalar = true) :
    (recorded v).isScalar = true ∧ (recorded v).truthy = true := by
  cases v with
  | boolean b => cases b <;> first | exact ⟨rfl, rfl⟩ | cases h
  | nil | integer _ | float _ _ => exact ⟨rfl, rfl⟩
  | _ => cases h

theorem eq_nil_of_isScalar {v : Value} (h : v.isScalar = true) (hfalse : ¬v.truthy = true) :
    v = .nil := by
  cases v with
  | boolean b => cases b <;> first | exact absurd rfl hfalse | cases h
  | nil => rfl
  | _ => exact absurd rfl hfalse

theorem isTable_of_isScalar {v : Value} (h : v.isScalar = true) : ¬v.isTable = true := by
  cases v <;> simp_all [Value.isScalar, Value.isTable]

/-- What a source returns goes into the entry, or `true` if it returns nothing. -/
theorem recordModule_eq (hbare : left.Bare (.table loaded)) (hnil : moduleEntry loaded m left = .nil)
    (v : Value) : recordModule loaded m v left
      = .ok (recorded v) (left.assign loaded (.string m) (recorded v)) := by
  have hset : ∀ w, setindex (.table loaded) (.string m) w left
      = .ok () (left.assign loaded (.string m) w) := fun w =>
    setindex_plain (isKey_string m) (hbare.metafield _)
  by_cases hv : v.isNil = true
  · have hindex := index_moduleEntry (m := m) fun _ => hbare.metafield (ascii "__index")
    have htrue : Value.nil.isNil = true := rfl
    rw [hnil] at hindex
    rw [recordModule, if_pos hv]
    dsimp only
    rw [bind_ok hindex, if_pos htrue, bind_ok (hset _), recorded, if_pos hv]
    rfl
  · have hne : moduleEntry loaded m (left.assign loaded (.string m) v) ≠ .nil := by
      rw [moduleEntry_assign]
      exact Value.isNil_eq_false_iff.mp (Bool.not_eq_true _ ▸ hv)
    have hindex := index_moduleEntry fun hnil => absurd hnil hne
    rw [moduleEntry_assign] at hindex
    rw [recordModule, if_neg hv, bind_ok (hset v)]
    dsimp only
    rw [bind_ok hindex, if_neg hv, recorded, if_neg hv]
    rfl

/-- A source is loaded when there is no entry. -/
theorem run_stdRequire_unloaded (load : Bytes → Shared → Script)
    (hbare : shared.Bare (.table loaded)) (hnil : moduleEntry loaded m shared = .nil) :
    (stdRequire loaded load m shared).run = match (load m shared).run with
      | .ok results left => (Script.exec (recordModule loaded m (results.headD .nil))
          (fun shared entry => .ret shared [entry]) left).run
      | .error fault left => .error fault left := by
  have hindex := index_moduleEntry (m := m) fun _ => hbare.metafield (ascii "__index")
  have hfalse : ¬Value.nil.truthy = true := Bool.false_ne_true
  rw [hnil] at hindex
  rw [stdRequire, Script.exec_ok _ hindex, if_neg hfalse]
  exact (Script.run_bind _ _).trans (by cases (load m shared).run <;> rfl)

/-- What the source gives is in the entry. -/
def Source.Recorded (loaded : ℕ) (m : Bytes) (shared : Shared) :
    Source → EStateM.Result Fault Shared (List Value) → Prop
  | .table, .ok results left => Extends loaded m shared left ∧
      ∃ ref, results = [.table ref] ∧ moduleEntry loaded m left = .table ref ∧
        shared.tables.length ≤ ref ∧ left.Bare (.table ref) ∧ left.fields (.table ref) ≠ []
  | .value v, .ok results left => Extends loaded m shared left ∧
      results = [recorded v] ∧ moduleEntry loaded m left = recorded v ∧ v.isScalar = true
  | .error, .error (.raised _) left => Leaves loaded m shared left
  | _, _ => False

section Recorded

variable {r : EStateM.Result Fault Shared (List Value)}

theorem Source.Recorded.table (h : Source.table.Recorded loaded m shared r) :
    ∃ left ref, r = .ok [.table ref] left ∧ Extends loaded m shared left ∧
      moduleEntry loaded m left = .table ref ∧ shared.tables.length ≤ ref ∧
      left.Bare (.table ref) ∧ left.fields (.table ref) ≠ [] := by
  cases r with
  | error fault left => exact h.elim
  | ok results left =>
      obtain ⟨hext, ref, rfl, hrest⟩ := h
      exact ⟨left, ref, rfl, hext, hrest⟩

theorem Source.Recorded.value {v : Value} (h : (Source.value v).Recorded loaded m shared r) :
    ∃ left, r = .ok [recorded v] left ∧ Extends loaded m shared left ∧
      moduleEntry loaded m left = recorded v ∧ v.isScalar = true := by
  cases r with
  | error fault left => exact h.elim
  | ok results left =>
      obtain ⟨hext, rfl, hrest⟩ := h
      exact ⟨left, rfl, hext, hrest⟩

theorem Source.Recorded.error (h : Source.error.Recorded loaded m shared r) :
    ∃ message left, r = .error (.raised message) left ∧ Leaves loaded m shared left := by
  cases r with
  | ok results left => exact h.elim
  | error fault left =>
      cases fault with
      | raised message => exact ⟨message, left, rfl, h⟩
      | outOfBounds | nullPointer | endless => exact h.elim

end Recorded

/-- **`require`** of a module without an entry. -/
theorem require_spec {source : Source} {load : Bytes → Shared → Script}
    (hloaded : shared.Bare (.table loaded)) (hnil : moduleEntry loaded m shared = .nil)
    (hgives : source.Gives loaded m shared (load m shared).run) :
    source.Recorded loaded m shared (stdRequire loaded load m shared).run := by
  rw [run_stdRequire_unloaded load hloaded hnil]
  cases hload : (load m shared).run with
  | error fault left =>
      rw [hload] at hgives
      cases source with
      | error =>
          cases fault with
          | raised message => exact hgives
          | outOfBounds | nullPointer | endless => exact hgives.elim
      | table | value v => exact hgives.elim
  | ok results left =>
      rw [hload] at hgives
      dsimp only
      cases source with
      | error => exact hgives.elim
      | value v =>
          obtain ⟨hleaves, hres, hscalar⟩ := hgives
          have hrecord := recordModule_eq (hleaves.bare _ hloaded) (hleaves.entry_eq.trans hnil) v
          have hext : Extends loaded m left (left.assign loaded (.string m) (recorded v)) :=
            extends_entry left _
          rw [hres, Script.exec_ok _ hrecord, Script.run]
          exact ⟨hleaves.toExtends.trans hext, rfl, moduleEntry_assign loaded m _ _, hscalar⟩
      | table =>
          obtain ⟨hleaves, ref, hres, hnew, hbare, k, hkey, hk⟩ := hgives
          have hrecord := recordModule_eq (hleaves.bare _ hloaded) (hleaves.entry_eq.trans hnil)
            (.table ref)
          have htable : recorded (.table ref) = .table ref := rfl
          rw [htable] at hrecord
          have hne : ref ≠ loaded := fun heq =>
            absurd (lt_length_of_bare hloaded) (Nat.not_lt.mpr (heq ▸ hnew))
          have hext : Extends loaded m left (left.assign loaded (.string m) (.table ref)) :=
            extends_entry left _
          rw [hres, Script.exec_ok _ hrecord, Script.run]
          refine ⟨hleaves.toExtends.trans hext, ref, rfl, moduleEntry_assign loaded m _ _, hnew,
            hext.bare _ hbare, ?_⟩
          refine List.ne_nil_of_mem ((mem_fields _ ref).mpr ⟨hkey, hk, ?_⟩)
          rw [get_assign, if_neg fun h => hne h.1]

end Require

/-! ## One call -/

section Call

variable {loaded : ℕ} {m : Bytes} (apply : Value → List Value → Shared → Script)
  {load : Bytes → Shared → Script} {results : List Value} {shared left : Shared} (f : Bytes)
  (args : List Value) (fn : Value) (handler : Option Value)

/-- What `call` does with a module that is a table. -/
theorem leaves_linkCall
    (happly : ∀ f args shared, Leaves loaded m shared (finalState (apply f args shared).run))
    {ref : ℕ} (hrequire : (stdRequire loaded load m shared).run = .ok results left)
    (hmod : results.headD .nil = .table ref) (hbare : left.Bare (.table ref)) :
    Leaves loaded m left (finalState (linkCall (stdRequire loaded load) apply
      ⟨fn, .string m :: .string f :: args, handler⟩ shared).run) := by
  have hindex : index (.table ref) (.string f) left
      = .ok (Table.get (left.table ref) (.string f)) left := by
    by_cases hnil : Table.get (left.table ref) (.string f) = .nil
    · rw [hnil]
      exact index_nil (congrArg some hnil) (hbare.metafield _)
    · exact index_own rfl hnil
  have htruthy : (Value.table ref).truthy = true := rfl
  rw [linkCall]
  dsimp only
  rw [Script.run_bind, hrequire]
  simp only [hmod, htruthy, if_true, Script.exec_ok _ hindex]
  by_cases hfunc : (Table.get (left.table ref) (.string f)).truthy = true
  · rw [if_pos hfunc]
    exact happly _ args left
  · rw [if_neg hfunc, Script.run]
    exact .refl left

/-- A scalar has no functions. -/
theorem linkCall_scalar {v : Value} (hrequire : (stdRequire loaded load m shared).run = .ok results left)
    (hmod : results.headD .nil = v) (hscalar : v.isScalar = true) (hbare : left.Bare v) :
    ∃ message, (linkCall (stdRequire loaded load) apply
      ⟨fn, .string m :: .string f :: args, handler⟩ shared).run = .error (.raised message) left := by
  have hnone : left.rawget v (.string f) = none := by
    cases v <;> first | rfl | cases hscalar
  have hindex : index v (.string f) left = .error (typeError "index" v) left := by
    have htrue : Value.nil.isNil = true := rfl
    rw [index, maxTagLoop, indexFrom, bind_ok (show (get : Code Shared) left = .ok left left from rfl)]
    simp only [hnone, Option.getD_none, htrue, if_true, hbare.metafield, Option.isSome_none]
    rfl
  rw [linkCall]
  dsimp only
  rw [Script.run_bind, hrequire]
  simp only [hmod]
  by_cases htruthy : v.truthy = true
  · rw [if_pos htruthy, Script.exec_error _ hindex, Script.run]
    exact ⟨_, rfl⟩
  · rw [if_neg htruthy, Script.run]
    exact ⟨_, rfl⟩

/-- What a call comes to when `require` raises an error. -/
theorem linkCall_error {fault : Fault}
    (hrequire : (stdRequire loaded load m shared).run = .error fault left) :
    (linkCall (stdRequire loaded load) apply ⟨fn, .string m :: .string f :: args, handler⟩ shared).run
      = .error fault left := by
  rw [linkCall]
  dsimp only
  rw [Script.run_bind, hrequire]

/-- What the call of a module without an entry comes to. -/
def Source.Called (loaded : ℕ) (m : Bytes) (shared : Shared)
    (r : EStateM.Result Fault Shared (List Value)) (after : Shared) : Source → Prop
  | .table => ∃ ref, moduleEntry loaded m after = .table ref ∧ shared.tables.length ≤ ref ∧
      after.Bare (.table ref)
  | .value v => (∃ message, r = .error (.raised message) after) ∧
      moduleEntry loaded m after = recorded v ∧ v.isScalar = true
  | .error => (∃ message, r = .error (.raised message) after) ∧ moduleEntry loaded m after = .nil

/-- **The Lua side of a call** of a module without an entry.  It comes up with a new table if its
source gives one; otherwise the call raises an error. -/
theorem linkCall_spec
    (happly : ∀ f args shared, Leaves loaded m shared (finalState (apply f args shared).run))
    {source : Source} {needs : List Bytes} (hm : m ∉ needs) (hu : Usable loaded needs shared)
    (hnil : moduleEntry loaded m shared = .nil)
    (hgives : source.Gives loaded m shared (load m shared).run) :
    ∃ after, finalState (linkCall (stdRequire loaded load) apply
        ⟨fn, .string m :: .string f :: args, handler⟩ shared).run = after ∧
      Extends loaded m shared after ∧
      source.Called loaded m shared (linkCall (stdRequire loaded load) apply
        ⟨fn, .string m :: .string f :: args, handler⟩ shared).run after := by
  have hrequire := require_spec hu.loaded_bare hnil hgives
  cases source with
  | table =>
      obtain ⟨left, ref, hrun, hext, hentry, hnew, hbare, -⟩ := hrequire.table
      have hleaves := leaves_linkCall apply f args fn handler happly hrun rfl hbare
      exact ⟨_, rfl, hext.trans hleaves.toExtends, ref, hleaves.entry_eq.trans hentry, hnew,
        hleaves.bare _ hbare⟩
  | value v =>
      obtain ⟨left, hrun, hext, hentry, hscalar⟩ := hrequire.value
      have hscalar' := (recorded_isScalar hscalar).1
      obtain ⟨message, herror⟩ := linkCall_scalar apply f args fn handler hrun rfl hscalar'
        ((hu.extend hm hext).scalars_bare _ hscalar')
      exact ⟨left, by rw [herror]; rfl, hext, ⟨message, herror⟩, hentry, hscalar⟩
  | error =>
      obtain ⟨message, left, hrun, hleaves⟩ := hrequire.error
      have herror := linkCall_error apply f args fn handler hrun
      exact ⟨left, by rw [herror]; rfl, hleaves.toExtends, ⟨message, herror⟩,
        hleaves.entry_eq.trans hnil⟩

end Call

/-! ## One reload -/

section Reload

variable {loaded : ℕ} {m : Bytes} {shared unloaded left : Shared} {oldMod : Value}

/-- A module without an entry gets a new table. -/
theorem unload_nil (hbare : shared.Bare (.table loaded)) (hnil : moduleEntry loaded m shared = .nil) :
    unload loaded m shared
      = .ok (.table shared.tables.length) (shared.newTable.2.assign loaded (.string m) .nil) := by
  have hindex := index_moduleEntry (m := m) fun _ => hbare.metafield (ascii "__index")
  have hfalse : ¬Value.nil.truthy = true := Bool.false_ne_true
  have hnew : Extends loaded m shared shared.newTable.2 := extends_newTable shared
  have hold : oldModule loaded m shared = .ok (.table shared.tables.length) shared.newTable.2 := by
    rw [hnil] at hindex
    rw [oldModule, bind_ok hindex, if_neg hfalse]
    rfl
  rw [unload, bind_ok hold,
    bind_ok (setindex_plain (isKey_string m) ((hnew.bare _ hbare).metafield _))]
  rfl

/-- Nothing with a metatable takes part. -/
theorem plain_of_bares (hold : left.Bare oldMod) (hentry : left.Bare (moduleEntry loaded m left))
    (hne : moduleEntry loaded m left ≠ .nil) : Plain loaded m oldMod left where
  index_eq hnil := absurd hnil hne
  pairs_eq := hentry.metafield _
  newindex_eq _ := hold.metafield _
  takes := by
    rintro ref rfl e -
    exact ⟨.inr (hold.metafield _), fun hself => absurd (hold.2.symm.trans hself) Value.noConfusion⟩

/-- The host is told nothing of an error. -/
def Passes (r : EStateM.Result Fault Shared (List Value)) (after : Shared) : Prop :=
  r = .ok [] after ∨ ∃ message, r = .error (.raised message) after

/-- What a reload leaves in the entry. -/
def Source.Copied (loaded : ℕ) (m : Bytes) (oldMod : Value) (unloaded after : Shared) : Source → Prop
  | .table => ∃ ref, moduleEntry loaded m after = .table ref ∧ after.Bare (.table ref) ∧
      (∀ old, oldMod = .table old → ref = old) ∧
      ((∀ old, oldMod ≠ .table old) → unloaded.tables.length ≤ ref)
  | .value v => moduleEntry loaded m after = recorded v ∧ v.isScalar = true
  | .error => moduleEntry loaded m after = .nil

/-- **The Lua side of a reload.**  A source with a table fills the old table and puts it back, or
it leaves its own table there if the old value is none.  Any other leaves its value, or no entry. -/
theorem linkReload_spec (rounds : ℕ) {source : Source} {load : Bytes → Shared → Script}
    {needs : List Bytes} (hm : m ∉ needs) (hu : Usable loaded needs shared)
    (hunload : unload loaded m shared = .ok oldMod unloaded)
    (hext : Extends loaded m shared unloaded) (hnil : moduleEntry loaded m unloaded = .nil)
    (hgives : source.Gives loaded m unloaded (load m unloaded).run)
    (hold : unloaded.Bare oldMod) (hne : oldMod ≠ .table loaded) (fn : Value) (args : List Value)
    (handler : Option Value) :
    ∃ after, Passes (linkReload rounds loaded (stdRequire loaded load)
        ⟨fn, .string m :: args, handler⟩ shared).run after ∧ Extends loaded m shared after ∧
      source.Copied loaded m oldMod unloaded after := by
  have hrequire := require_spec (hu.extend hm hext).loaded_bare hnil hgives
  rw [run_linkReload, hunload]
  dsimp only
  cases source with
  | error =>
      obtain ⟨message, left, hrun, hleaves⟩ := hrequire.error
      rw [hrun]
      exact ⟨left, .inr ⟨message, rfl⟩, hext.trans hleaves.toExtends, hleaves.entry_eq.trans hnil⟩
  | value v =>
      obtain ⟨left, hrun, hleft, hentry, hscalar⟩ := hrequire.value
      obtain ⟨hscalar', htruthy⟩ := recorded_isScalar hscalar
      have hbare : left.Bare (moduleEntry loaded m left) :=
        hentry ▸ (hext.trans hleft).bare _ (hu.scalars_bare _ hscalar')
      have hplain := plain_of_bares (hleft.bare _ hold) hbare (hentry ▸ ne_nil_of_truthy htruthy)
      have hmerge := merge_notTable rounds hplain (hentry ▸ isTable_of_isScalar hscalar')
      rw [hrun]
      dsimp only
      rw [hmerge]
      exact ⟨left, .inr ⟨_, rfl⟩, hext.trans hleft, hentry, hscalar⟩
  | table =>
      obtain ⟨left, new, hrun, hleft, hentry, hnew, hbare, hfields⟩ := hrequire.table
      have hold' := hleft.bare _ hold
      have hplain := plain_of_bares hold' (hentry ▸ hbare) (by rw [hentry]; exact Value.noConfusion)
      rw [hrun]
      dsimp only
      by_cases htable : ∃ old, oldMod = .table old
      · obtain ⟨old, rfl⟩ := htable
        have hloaded : old ≠ loaded := fun heq => hne (heq ▸ rfl)
        rw [merge_table rounds hplain (by rw [hentry]; rfl)]
        have hcopied := extends_assignAll (m := m) hloaded left
          (left.fields (moduleEntry loaded m left))
        have hback := hcopied.trans (extends_entry _ (.table old))
        refine ⟨_, .inl rfl, hext.trans (hleft.trans hback), old, moduleEntry_assign loaded m _ _,
          hback.bare _ hold', ?_, fun hnot => absurd rfl (hnot old)⟩
        rintro _ ⟨rfl⟩
        rfl
      · -- the first field has nowhere to go, and the new table stays
        have hnot : ∀ old, oldMod ≠ .table old := fun old heq => htable ⟨old, heq⟩
        have hloop := forPairs_assign_ne (t := .table new) rounds hnot (by simp [Shared.keys])
          (hbare.metafield _) (hplain.newindex_eq hnot)
        rw [if_neg hfields] at hloop
        rw [merge_eq rounds _ hplain.index_eq, hentry, bind_error hloop]
        exact ⟨left, .inr ⟨_, rfl⟩, hext.trans hleft, new, hentry, hbare,
          fun old heq => absurd heq (hnot old), fun _ => hnew⟩

end Reload

end SeedCore.Lua
