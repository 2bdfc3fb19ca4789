import SeedCore.Lib.Layers
import SeedCore.Lua.Link
import SeedCore.Lua.Tables

/-!
# Loading a module again

`ScriptEngine::ReloadScript` calls the function `reload` of `link.lua`.  It removes the entry of
the module from `package.loaded`, loads the module anew, copies the fields of the new table into
the old one and puts the old one back.  So tables keep their identity from one version to the next,
but an error on the way leaves the entry removed, or leaves what the new source put there.  Where
metatables have the fields `__pairs` and `__newindex`, functions of scripts take part in the copying.

`package.loaded` is the table with the number `loaded`, here and in `require`; that a script puts
another table in its place is left out.

## Main definitions

* `stdRequire` — `require` of Lua 5.3, over what loading a module does.
* `linkReload`, `reloadScript` — the function `reload`, and its call from C++.
* `FailsCleanly` — what the new source must do for a failed reload to change nothing.
* `reload_failure_iff` — it is what decides.
* `Reloads` — successful reloads one after the other, with what each version gives to the keys.
* `Undiverted` — a reload whose copying no metatable takes part in.
* `reloads_accumulate` — the module after such reloads.
-/

namespace SeedCore.Lua

/-- `package.loaded[m]`, as a field of the table itself. -/
def moduleEntry (loaded : ℕ) (m : Bytes) (shared : Shared) : Value :=
  Table.get (shared.table loaded) (.string m)

/-- What `require` does with the value that a loader has returned: it is recorded unless it is
`nil`, and a module that set no value is recorded as `true`. -/
def recordModule (loaded : ℕ) (m : Bytes) (v : Value) : Code Value := do
  if v.isNil then pure () else setindex (.table loaded) (.string m) v
  let entry ← index (.table loaded) (.string m)
  if entry.isNil then do
    setindex (.table loaded) (.string m) (.boolean true)
    pure (.boolean true)
  else pure entry

/-- `require` of Lua 5.3, where `load` finds a loader and calls it; the name is one that a C string can
hold. -/
def stdRequire (loaded : ℕ) (load : Bytes → Shared → Script) (m : Bytes) : Shared → Script :=
  Script.exec (index (.table loaded) (.string m)) fun shared entry =>
    if entry.truthy then .ret shared [entry]
    else (load m shared).bind fun shared results =>
      Script.exec (recordModule loaded m (results.headD .nil)) (fun shared entry =>
        .ret shared [entry]) shared

/-- `package.loaded[m] or {}` -/
def oldModule (loaded : ℕ) (m : Bytes) : Code Value := do
  let entry ← index (.table loaded) (.string m)
  if entry.truthy then pure entry else modifyGet Shared.newTable

/-- `reload` up to `require`. -/
def unload (loaded : ℕ) (m : Bytes) : Code Value := do
  let oldMod ← oldModule loaded m
  setindex (.table loaded) (.string m) .nil
  pure oldMod

/-- `reload` after `require`. -/
def merge (rounds loaded : ℕ) (m : Bytes) (oldMod : Value) : Code Unit := do
  let newMod ← index (.table loaded) (.string m)
  forPairs rounds newMod fun k v => setindex oldMod k v
  setindex (.table loaded) (.string m) oldMod

/-- `reload`; the line that it prints is left out. -/
def linkReload (rounds loaded : ℕ) (require : Bytes → Shared → Script) (request : Request)
    (shared : Shared) : Script :=
  match request.args with
  | .string m :: _ =>
      Script.exec (unload loaded m) (fun shared oldMod =>
        (require m shared).bind fun shared _ =>
          Script.exec (merge rounds loaded m oldMod) (fun shared _ => .ret shared []) shared) shared
  | _ => .error shared (.raised (.string (ascii "attempt to concatenate a nil value")))

/-- `ReloadScript`; the lambda that it builds is passed to nothing. -/
def reloadScript (run : LuaRun) (module : Option Bytes) : LuaM Unit := do
  pushstring module
  let _ ← execGlobalFunction run (ascii "reload") 1 none ()
  pure ()

/-! ## What `reload` does -/

section Run

variable (loaded : ℕ) (m : Bytes)

theorem moduleEntry_assign (shared : Shared) (v : Value) :
    moduleEntry loaded m (shared.assign loaded (.string m) v) = v := by
  rw [moduleEntry, get_assign, if_pos ⟨rfl, rfl⟩]

variable {loaded m} {shared : Shared}

/-- An entry that is there is found without a metatable. -/
theorem index_moduleEntry
    (h : moduleEntry loaded m shared = .nil → shared.metafield (.table loaded) (ascii "__index") = .nil) :
    index (.table loaded) (.string m) shared = .ok (moduleEntry loaded m shared) shared := by
  by_cases hnil : moduleEntry loaded m shared = .nil
  · rw [hnil]
    exact index_nil (congrArg some hnil) (h hnil)
  · exact index_own rfl hnil

theorem ne_nil_of_truthy {v : Value} (h : v.truthy = true) : v ≠ .nil := by
  rintro rfl
  cases h

theorem run_stdRequire_loaded (load : Bytes → Shared → Script)
    (h : (moduleEntry loaded m shared).truthy = true) :
    (stdRequire loaded load m shared).run = .ok [moduleEntry loaded m shared] shared := by
  rw [stdRequire, Script.exec_ok _ (index_moduleEntry fun hnil => absurd hnil (ne_nil_of_truthy h)),
    if_pos h, Script.run]

/-- What counts as true is the old module. -/
theorem unload_truthy (h : (moduleEntry loaded m shared).truthy = true) :
    unload loaded m shared
      = .ok (moduleEntry loaded m shared) (shared.assign loaded (.string m) .nil) := by
  have hold : oldModule loaded m shared = .ok (moduleEntry loaded m shared) shared := by
    rw [oldModule, bind_ok (index_moduleEntry fun hnil => absurd hnil (ne_nil_of_truthy h)),
      if_pos h]
    rfl
  rw [unload, bind_ok hold, bind_ok (setindex_own (ne_nil_of_truthy h))]
  rfl

/-- The loop goes over what is in the entry. -/
theorem merge_eq (rounds : ℕ) (oldMod : Value)
    (h : moduleEntry loaded m shared = .nil → shared.metafield (.table loaded) (ascii "__index") = .nil) :
    merge rounds loaded m oldMod shared =
      (do
        forPairs rounds (moduleEntry loaded m shared) fun k v => setindex oldMod k v
        setindex (.table loaded) (.string m) oldMod) shared := by
  rw [merge, bind_ok (index_moduleEntry h)]

/-- **`reload`**, step by step. -/
theorem run_linkReload (rounds : ℕ) (require : Bytes → Shared → Script) (fn : Value)
    (args : List Value) (handler : Option Value) :
    (linkReload rounds loaded require ⟨fn, .string m :: args, handler⟩ shared).run =
      match unload loaded m shared with
      | .error fault left => .error fault left
      | .ok oldMod left => match (require m left).run with
          | .error fault left => .error fault left
          | .ok _ left => match merge rounds loaded m oldMod left with
              | .error fault left => .error fault left
              | .ok _ left => .ok [] left := by
  rw [linkReload]
  dsimp only
  cases hunload : unload loaded m shared with
  | error fault left => rw [Script.exec_error _ hunload, Script.run]
  | ok oldMod left =>
      rw [Script.exec_ok _ hunload, Script.run_bind]
      dsimp only
      cases (require m left).run with
      | error fault left => rfl
      | ok results left =>
          dsimp only
          cases hmerge : merge rounds loaded m oldMod left with
          | error fault left => rw [Script.exec_error _ hmerge, Script.run]
          | ok _ left => rw [Script.exec_ok _ hmerge, Script.run]

end Run

/-! ## The call from C++ -/

/-- A global function is called with a string, and without a callback: the stack is left alone, and
an error of the function passed over. -/
theorem callByName_eq (run : LuaRun) (name : Bytes) (arg : Option Bytes) (below : List Value)
    (log : List Event) (sh : Shared) (hfn : (sh.global name).isFunction = true) :
    (do
      pushstring arg
      let _ ← execGlobalFunction run name 1 none ()
      pure ()) (⟨below, log, sh⟩ : LuaState) =
      let request : Request := ⟨sh.global name, [cstringValue arg], traceHandler sh⟩
      match run request sh with
      | .ok _ shared => .ok () ⟨below, log ++ callEvents sh name request, shared⟩
      | .error (.raised _) shared => .ok () ⟨below, log ++ callEvents sh name request, shared⟩
      | .error fault shared => .error fault ⟨(traceHandler sh).toList ++ below,
          log ++ callEvents sh name request, shared⟩ := by
  have hpush : pushstring arg ⟨below, log, sh⟩ = .ok () ⟨cstringValue arg :: below, log, sh⟩ := rfl
  have hexec := execGlobalFunction_eq run none () [cstringValue arg] below log sh name (n := 1) rfl
    (by omega) hfn
  change execGlobalFunction run name 1 none () ⟨cstringValue arg :: below, log, sh⟩ = _ at hexec
  rw [bind_ok hpush]
  dsimp only
  cases hrun : run ⟨sh.global name, [cstringValue arg], traceHandler sh⟩ sh with
  | ok results shared =>
      rw [hrun] at hexec
      have hlen := adjust_length luaResultCount results
      have hpop := popResults_drop (traceIndex_eq_zero_iff sh 1)
        (s := ⟨(adjust luaResultCount results).reverse ++ ((traceHandler sh).toList ++ below),
          log ++ callEvents sh name ⟨sh.global name, [cstringValue arg], traceHandler sh⟩, shared⟩)
        (by simp only [List.length_append, List.length_reverse, hlen]; omega)
      have hdrop : ((adjust luaResultCount results).reverse ++ ((traceHandler sh).toList ++ below)).drop
          ((traceHandler sh).toList.length + luaResultCount) = below := by
        rw [← List.append_assoc]
        exact List.drop_left' (by simp only [List.length_append, List.length_reverse, hlen]; omega)
      rw [hdrop] at hpop
      rw [bind_ok (hexec.trans (bind_ok hpop))]
      rfl
  | error fault shared =>
      rw [hrun] at hexec
      cases fault with
      | raised message => exact bind_ok hexec
      | outOfBounds | nullPointer | endless => exact bind_error hexec

/-- **`ReloadScript`** leaves the stack alone and passes over an error of `reload`: what has become
of the module, the caller does not see. -/
theorem reloadScript_eq (run : LuaRun) (module : Option Bytes) (below : List Value)
    (log : List Event) (sh : Shared) (hfn : (sh.global (ascii "reload")).isFunction = true) :
    reloadScript run module ⟨below, log, sh⟩ =
      let request : Request := ⟨sh.global (ascii "reload"), [cstringValue module], traceHandler sh⟩
      match run request sh with
      | .ok _ shared => .ok () ⟨below, log ++ callEvents sh (ascii "reload") request, shared⟩
      | .error (.raised _) shared =>
          .ok () ⟨below, log ++ callEvents sh (ascii "reload") request, shared⟩
      | .error fault shared => .error fault ⟨(traceHandler sh).toList ++ below,
          log ++ callEvents sh (ascii "reload") request, shared⟩ :=
  callByName_eq run (ascii "reload") module below log sh hfn

/-! ## A reload that fails -/

/-- A table, of a script or of the host. -/
def Value.isTable : Value → Bool
  | .table _ | .record _ _ => true
  | _ => false

theorem keys_eq_none_iff (shared : Shared) (v : Value) : shared.keys v = none ↔ ¬v.isTable = true := by
  cases v <;> simp [Shared.keys, Value.isTable]

/-- The module is as it was: its entry is this table, with the same fields. -/
structure SameModule (loaded : ℕ) (m : Bytes) (ref : ℕ) (before after : Shared) : Prop where
  entry_eq : moduleEntry loaded m after = .table ref
  fields_eq : ∀ k, Table.get (after.table ref) k = Table.get (before.table ref) k

/-- **No metatable takes part in the copying** into the old value: neither in the lookup of the new
one, nor in its traversal, nor in the assignments. -/
structure Plain (loaded : ℕ) (m : Bytes) (oldMod : Value) (left : Shared) : Prop where
  index_eq : moduleEntry loaded m left = .nil → left.metafield (.table loaded) (ascii "__index") = .nil
  pairs_eq : left.metafield (moduleEntry loaded m left) (ascii "__pairs") = .nil
  takes : ∀ ref, oldMod = .table ref → left.TakesAll ref (left.fields (moduleEntry loaded m left))
  newindex_eq : (∀ ref, oldMod ≠ .table ref) → left.metafield oldMod (ascii "__newindex") = .nil

section Copying

variable {loaded ref : ℕ} {m : Bytes} {left : Shared} (rounds : ℕ)

/-- Where no value has a metatable, none takes part. -/
theorem plain_of_bare (h : ∀ v, Table.get left.metatables v = .nil) (oldMod : Value) :
    Plain loaded m oldMod left :=
  ⟨fun _ => metafield_of_eq_nil (h _) _, metafield_of_eq_nil (h _) _,
    fun _ _ _ _ => ⟨.inr (metafield_of_eq_nil (h _) _), fun hself => absurd ((h _).symm.trans hself)
      Value.noConfusion⟩, fun _ => metafield_of_eq_nil (h _) _⟩

/-- Without metatables the old table gets the fields of the new one, and then its entry back. -/
theorem merge_table (hplain : Plain loaded m (.table ref) left)
    (htable : (moduleEntry loaded m left).isTable = true) :
    merge rounds loaded m (.table ref) left =
      .ok () ((left.assignAll ref (left.fields (moduleEntry loaded m left))).assign loaded (.string m)
        (.table ref)) := by
  have hkeys : left.keys (moduleEntry loaded m left) ≠ none := fun hnone =>
    (keys_eq_none_iff left _).mp hnone htable
  have hentry : moduleEntry loaded m left ≠ .nil := by
    intro hnil
    rw [hnil] at htable
    cases htable
  have hstays : moduleEntry loaded m
      (left.assignAll ref (left.fields (moduleEntry loaded m left))) ≠ .nil :=
    get_assignAll_ne_nil left (fun _ => ne_nil_of_mem_fields) hentry
  rw [merge_eq rounds _ hplain.index_eq,
    bind_ok (forPairs_assign rounds hkeys hplain.pairs_eq (hplain.takes ref rfl)),
    setindex_own hstays]

/-- What is no table stays in the entry. -/
theorem merge_notTable {oldMod : Value} (hplain : Plain loaded m oldMod left)
    (hnot : ¬(moduleEntry loaded m left).isTable = true) :
    merge rounds loaded m oldMod left =
      .error (.raised (notTraversable (moduleEntry loaded m left))) left := by
  rw [merge_eq rounds _ hplain.index_eq,
    bind_error (forPairs_error _ _ hplain.pairs_eq ((keys_eq_none_iff left _).mpr hnot))]

end Copying

/-- Later calls run the functions of a module that is as it was. -/
theorem SameModule.call {loaded ref : ℕ} {m : Bytes} {before after : Shared}
    (h : SameModule loaded m ref before after) (load : Bytes → Shared → Script)
    (apply : Value → List Value → Shared → Script) {f : Bytes} {func : Value}
    (hfunc : Table.get (before.table ref) (.string f) = func) (htruthy : func.truthy = true)
    (fn : Value) (args : List Value) (handler : Option Value) :
    (linkCall (stdRequire loaded load) apply ⟨fn, .string m :: .string f :: args, handler⟩ after).run
      = (apply func args after).run := by
  have hentry : (moduleEntry loaded m after).truthy = true := by
    rw [h.entry_eq]
    rfl
  refine run_linkCall (run_stdRequire_loaded load hentry) hentry ?_ htruthy
  rw [List.headD_cons, h.entry_eq]
  exact index_own (congrArg some ((h.fields_eq _).trans hfunc)) (ne_nil_of_truthy htruthy)

/-- The table of loaded modules, and in it the module `game` with the function `tick`. -/
def gameShared : Shared where
  tables := [(AList.singleton (.string (ascii "game")) (.table 1) : Table),
    (AList.singleton (.string (ascii "tick")) (.function 7) : Table)]

/-- The module with a metatable that lets no field be added. -/
def lockedShared : Shared where
  tables := gameShared.tables ++
    [(AList.singleton (.string (ascii "__newindex")) (.function 9) : Table)]
  metatables := AList.singleton (.table 1) (.table 2)
  code _ _ := throw (.raised (.string (ascii "locked")))

/-- A source that returns a new table with one function. -/
def version (f : Bytes) (id : ℕ) (_ : Bytes) (shared : Shared) : Script :=
  .ret (shared.newTable.2.assign shared.tables.length (.string f) (.function id))
    [shared.newTable.1]

/-- A version with one more function leaves the new table in the place of a locked one. -/
example : ∃ message left, (linkReload 10 0 (stdRequire 0 (version (ascii "stop") 8))
      ⟨.function 3, [.string (ascii "game")], none⟩ lockedShared).run =
        .error (.raised message) left ∧
      moduleEntry 0 (ascii "game") left = .table 3 := ⟨_, _, rfl, by decide⟩

/-! ## Reloads that succeed -/

/-- What a version gives to the keys of the module: the fields of the table that it returns, and
the fields of the old table that its source changes. -/
def given (oldMod : Value) (before left : Shared) (new : ℕ) (k : Value) : Option Value :=
  if k.isKey = true ∧ Table.get (left.table new) k ≠ .nil then some (Table.get (left.table new) k)
  else match oldMod with
    | .table ref =>
        if Table.get (left.table ref) k ≠ Table.get (before.table ref) k then
          some (Table.get (left.table ref) k)
        else none
    | _ => none

/-- A successful reload of a version that returns a new table, with the old value and the state in
which `require` has left it. -/
structure Reloaded (loaded : ℕ) (m : Bytes) (before : Shared) (oldMod : Value) (left : Shared)
    (new : ℕ) (after : Shared) : Prop where
  exists_load : ∃ (rounds : ℕ) (load : Bytes → Shared → Script) (request : Request)
    (args results : List Value) (unloaded : Shared), request.args = .string m :: args ∧
      unload loaded m before = .ok oldMod unloaded ∧
      (stdRequire loaded load m unloaded).run = .ok (.table new :: results) left ∧
      unloaded.tables.length ≤ new ∧
      (linkReload rounds loaded (stdRequire loaded load) request before).run = .ok [] after

/-- Successful reloads one after the other, with what each version gives to the keys, where `P` is
true of each when its copying begins. -/
inductive Reloads (loaded : ℕ) (m : Bytes) (P : Value → Shared → ℕ → Prop) :
    Shared → List (Value → Option Value) → Shared → Prop
  | nil (shared : Shared) : Reloads loaded m P shared [] shared
  | cons {before left mid after : Shared} {oldMod : Value} {new : ℕ}
      {layers : List (Value → Option Value)} (head : Reloaded loaded m before oldMod left new mid)
      (begins : P oldMod left new) (tail : Reloads loaded m P mid layers after) :
      Reloads loaded m P before (given oldMod before left new :: layers) after

/-- The module after such reloads.  Its table is the one that was there before the first, if there
was one; every key that a version gave a value has the value that the latest of these versions gave
it, and so the call of a function of the module runs the latest one. -/
structure Accumulated (loaded : ℕ) (m : Bytes) (before : Shared)
    (layers : List (Value → Option Value)) (after : Shared) : Prop where
  entry_eq : ∀ ref, moduleEntry loaded m before = .table ref → moduleEntry loaded m after = .table ref
  latest_eq : ∀ k v, latest layers k = some v → ∃ ref, moduleEntry loaded m after = .table ref ∧
    ((ref = loaded → k ≠ .string m) → Table.get (after.table ref) k = v ∧
      ∀ f, k = .string f → v.truthy = true →
        ∀ (load : Bytes → Shared → Script) (apply : Value → List Value → Shared → Script)
          (fn : Value) (args : List Value) (handler : Option Value),
          (linkCall (stdRequire loaded load) apply ⟨fn, .string m :: .string f :: args, handler⟩
            after).run = (apply v args after).run)

/-- **No metatable diverts the copying**: what the source has returned is in the entry, and its
fields go into the old table. -/
structure Undiverted (loaded : ℕ) (m : Bytes) (oldMod : Value) (left : Shared) (new : ℕ) : Prop
    extends Plain loaded m oldMod left where
  returned_eq : moduleEntry loaded m left = .table new

section Step

variable {loaded new : ℕ} {m : Bytes} {before left after : Shared} {oldMod : Value}

/-- What the loop leaves in the old table. -/
theorem get_merged (ref : ℕ) (k : Value) :
    Table.get ((left.assignAll ref (left.fields (.table new))).table ref) k =
      (given (.table ref) before left new k).getD (Table.get (before.table ref) k) := by
  unfold given
  by_cases hgives : k.isKey = true ∧ Table.get (left.table new) k ≠ .nil
  · rw [if_pos hgives, Option.getD_some]
    exact get_assignAll_of_mem left (nodup_fields left new)
      ((mem_fields left new).mpr ⟨hgives.1, hgives.2, rfl⟩)
  · have hout : k ∉ (left.fields (.table new)).map Prod.fst := by
      intro hin
      obtain ⟨⟨k', v⟩, hfield, rfl⟩ := List.mem_map.mp hin
      obtain ⟨hkey, hv, hget⟩ := (mem_fields left new).mp hfield
      exact hgives ⟨hkey, hget ▸ hv⟩
    rw [get_assignAll_of_notMem left hout, if_neg hgives]
    dsimp only
    by_cases hchanged : Table.get (left.table ref) k = Table.get (before.table ref) k
    · rw [if_neg (not_not.mpr hchanged), hchanged]
      rfl
    · rw [if_pos hchanged]
      rfl

/-- A successful reload has copied. -/
theorem Reloaded.merge_eq (h : Reloaded loaded m before oldMod left new after) :
    ∃ rounds, merge rounds loaded m oldMod left = .ok () after := by
  obtain ⟨rounds, load, ⟨fn, args, handler⟩, rest, results, u, hargs, hunload, hrequire, -, hrun⟩ :=
    h.exists_load
  dsimp only at hargs
  subst hargs
  rw [run_linkReload] at hrun
  cases hmerge : merge rounds loaded m oldMod left with
  | error fault merged =>
      simp only [hunload, hrequire, hmerge] at hrun
      cases hrun
  | ok _ merged =>
      simp only [hunload, hrequire, hmerge] at hrun
      cases hrun
      exact ⟨rounds, hmerge⟩

/-- **One reload**: the entry is the old one, and its table has what the version gives. -/
theorem Reloaded.step (h : Reloaded loaded m before oldMod left new after)
    (hbegins : Undiverted loaded m oldMod left new) :
    moduleEntry loaded m after = oldMod ∧
      (∀ ref, oldMod = .table ref → ∀ k, (ref = loaded → k ≠ .string m) →
        Table.get (after.table ref) k =
          (given oldMod before left new k).getD (Table.get (before.table ref) k)) ∧
      ((∀ ref, oldMod ≠ .table ref) → ∀ k, given oldMod before left new k = none) := by
  obtain ⟨rounds, hmerge⟩ := h.merge_eq
  have hentry := hbegins.returned_eq
  by_cases htable : ∃ ref, oldMod = .table ref
  · obtain ⟨ref, rfl⟩ := htable
    rw [merge_table rounds hbegins.toPlain (by rw [hentry]; rfl), hentry] at hmerge
    cases hmerge
    refine ⟨moduleEntry_assign loaded m _ _, ?_, fun hnot => absurd rfl (hnot ref)⟩
    rintro _ ⟨rfl⟩ k hk
    rw [get_assign, if_neg (by rintro ⟨rfl, rfl⟩; exact hk rfl rfl)]
    exact get_merged ref k
  · have hnot : ∀ ref, oldMod ≠ .table ref := fun ref href => htable ⟨ref, href⟩
    rw [SeedCore.Lua.merge_eq rounds oldMod hbegins.index_eq, hentry] at hmerge
    obtain ⟨_, merged, hcopied, hset⟩ := ok_of_bind hmerge
    have hloop := forPairs_assign_ne (t := .table new) rounds hnot (by simp [Shared.keys])
      (hentry ▸ hbegins.pairs_eq) (hbegins.newindex_eq hnot)
    rw [hloop] at hcopied
    obtain ⟨hnone, rfl⟩ : left.fields (.table new) = [] ∧ left = merged := by
      split at hcopied
      · next hnone =>
          cases hcopied
          exact ⟨hnone, rfl⟩
      · cases hcopied
    have hthere : moduleEntry loaded m left ≠ .nil := by
      rw [hentry]
      exact Value.noConfusion
    rw [setindex_own hthere] at hset
    cases hset
    refine ⟨moduleEntry_assign loaded m _ _, fun ref href => absurd href (hnot ref), fun _ k => ?_⟩
    have hempty : ¬(k.isKey = true ∧ Table.get (left.table new) k ≠ .nil) := by
      rintro ⟨hkey, hv⟩
      have hmem := (mem_fields left new).mpr ⟨hkey, hv, rfl⟩
      rw [hnone] at hmem
      exact List.not_mem_nil hmem
    unfold given
    rw [if_neg hempty]
    cases oldMod with
    | table ref => exact absurd rfl (hnot ref)
    | _ => rfl

/-- What counts as true in the entry is the old value. -/
theorem Reloaded.oldMod_eq (h : Reloaded loaded m before oldMod left new after)
    (htruthy : (moduleEntry loaded m before).truthy = true) :
    oldMod = moduleEntry loaded m before := by
  obtain ⟨_, _, _, _, _, _, -, hunload, -⟩ := h.exists_load
  rw [unload_truthy htruthy] at hunload
  cases hunload
  rfl

end Step

section Sequence

variable {loaded : ℕ} {m : Bytes} {before after : Shared} {layers : List (Value → Option Value)}

/-- **The table keeps its identity**, and its fields are overlaid by what the versions give. -/
theorem Reloads.table (h : Reloads loaded m (Undiverted loaded m) before layers after) {ref : ℕ}
    (hentry : moduleEntry loaded m before = .table ref) :
    moduleEntry loaded m after = .table ref ∧ ∀ k, (ref = loaded → k ≠ .string m) →
      Table.get (after.table ref) k =
        (latest layers k).getD (Table.get (before.table ref) k) := by
  induction h with
  | nil shared => exact ⟨hentry, fun k _ => rfl⟩
  | cons head begins tail ih =>
      have hold := head.oldMod_eq (by rw [hentry]; rfl)
      rw [hentry] at hold
      subst hold
      obtain ⟨hmid, hfields, -⟩ := head.step begins
      obtain ⟨hafter, hlater⟩ := ih hmid
      refine ⟨hafter, fun k hk => ?_⟩
      rw [hlater k hk, hfields ref rfl k hk, getD_latest_cons]

/-- **What the latest version gives to a key** is what the module has, in whatever state the first
reload found the entry. -/
theorem Reloads.latest (h : Reloads loaded m (Undiverted loaded m) before layers after) {k v : Value}
    (hk : latest layers k = some v) :
    ∃ ref, moduleEntry loaded m after = .table ref ∧
      ((ref = loaded → k ≠ .string m) → Table.get (after.table ref) k = v) := by
  induction h with
  | nil shared => cases hk
  | @cons before left mid after oldMod new layers head begins tail ih =>
      obtain ⟨hentry, hfields, hnone⟩ := head.step begins
      by_cases htable : ∃ ref, oldMod = .table ref
      · obtain ⟨ref, rfl⟩ := htable
        obtain ⟨hafter, hlater⟩ := tail.table hentry
        refine ⟨ref, hafter, fun hne => ?_⟩
        rw [hlater k hne, hfields ref rfl k hne, ← getD_latest_cons, hk, Option.getD_some]
      · -- the old value is no table, so the first version gave nothing
        have hnone := hnone (fun ref href => htable ⟨ref, href⟩) k
        cases hlater : SeedCore.latest layers k with
        | none =>
            rw [latest_cons_of_none hlater, hnone] at hk
            cases hk
        | some w =>
            rw [latest_cons_of_some hlater] at hk
            exact ih (hlater.trans hk)

/-- **Reloads accumulate in place**, where no metatable diverts the copying. -/
theorem reloads_accumulate (h : Reloads loaded m (Undiverted loaded m) before layers after) :
    Accumulated loaded m before layers after := by
  refine ⟨fun ref hentry => (h.table hentry).1, fun k v hk => ?_⟩
  obtain ⟨ref, hentry, hfield⟩ := h.latest hk
  refine ⟨ref, hentry, fun hne => ⟨hfield hne, ?_⟩⟩
  rintro f rfl htruthy load apply fn args handler
  have hsame : SameModule loaded m ref after after := ⟨hentry, fun _ => rfl⟩
  exact hsame.call load apply (hfield hne) htruthy fn args handler

end Sequence

/-- What `require` comes to for a version. -/
def requireVersion (f : Bytes) (id : ℕ) (before : Shared) : EStateM.Result Fault Shared (List Value) :=
  (stdRequire 0 (version f id) (ascii "game") (before.assign 0 (.string (ascii "game")) .nil)).run

/-- The reload of a version. -/
def reloadVersion (f : Bytes) (id : ℕ) (before : Shared) : EStateM.Result Fault Shared (List Value) :=
  (linkReload 10 0 (stdRequire 0 (version f id)) ⟨.function 3, [.string (ascii "game")], none⟩
    before).run

theorem reloaded_version {f : Bytes} {id new : ℕ} {before left after : Shared} {oldMod : Value}
    (hunload : unload 0 (ascii "game") before
      = .ok oldMod (before.assign 0 (.string (ascii "game")) .nil))
    (hrequire : requireVersion f id before = .ok [.table new] left)
    (hnew : (before.assign 0 (.string (ascii "game")) .nil).tables.length ≤ new)
    (hreload : reloadVersion f id before = .ok [] after) :
    Reloaded 0 (ascii "game") before oldMod left new after :=
  ⟨10, version f id, _, [], [], _, rfl, hunload, hrequire, hnew, hreload⟩

/-- The module with a new `tick`. -/
def tickShared : Shared := finalState (reloadVersion (ascii "tick") 8 gameShared)

/-- A version with a new `tick`, and one with a function more. -/
theorem reloads_accumulate_two : ∃ layers after,
    Reloads 0 (ascii "game") (Undiverted 0 (ascii "game")) gameShared layers after ∧
      layers.length = 2 ∧ moduleEntry 0 (ascii "game") after = .table 1 ∧
      Table.get (after.table 1) (.string (ascii "tick")) = .function 8 ∧
      Table.get (after.table 1) (.string (ascii "stop")) = .function 9 := by
  have htick : Reloaded 0 (ascii "game") gameShared (.table 1)
      (finalState (requireVersion (ascii "tick") 8 gameShared)) 2 tickShared :=
    reloaded_version rfl rfl (by decide) rfl
  have hstop : Reloaded 0 (ascii "game") tickShared (.table 1)
      (finalState (requireVersion (ascii "stop") 9 tickShared)) 3
      (finalState (reloadVersion (ascii "stop") 9 tickShared)) :=
    reloaded_version rfl rfl (by decide) rfl
  have hreloads : Reloads 0 (ascii "game") (Undiverted 0 (ascii "game")) gameShared _ _ :=
    .cons htick ⟨plain_of_bare (fun _ => rfl) _, by decide⟩
      (.cons hstop ⟨plain_of_bare (fun _ => rfl) _, by decide⟩ (.nil _))
  have hall := reloads_accumulate hreloads
  exact ⟨_, _, hreloads, rfl, hall.entry_eq 1 (by decide), by decide +kernel, by decide +kernel⟩

/-- The module with a metatable that takes new fields and does nothing with them. -/
def swallowingShared : Shared := { lockedShared with code := fun _ _ => pure [] }

/-- What a version adds to such a module is not there. -/
theorem not_reloads_accumulate : ¬∀ {loaded : ℕ} {m : Bytes} {before after : Shared}
    {layers : List (Value → Option Value)},
    Reloads loaded m (fun _ _ _ => True) before layers after →
      Accumulated loaded m before layers after := by
  intro h
  have hstop : Reloaded 0 (ascii "game") swallowingShared (.table 1)
      (finalState (requireVersion (ascii "stop") 8 swallowingShared)) 3
      (finalState (reloadVersion (ascii "stop") 8 swallowingShared)) :=
    reloaded_version rfl rfl (by decide) rfl
  obtain ⟨ref, hentry, hfield⟩ := (h (.cons hstop trivial (.nil _))).latest_eq
    (.string (ascii "stop")) (.function 8) (by decide +kernel)
  have htable : Value.table 1 = .table ref := by
    rw [← hentry]
    decide +kernel
  cases htable
  exact absurd (hfield (by decide)).1 (by decide +kernel)

end SeedCore.Lua
