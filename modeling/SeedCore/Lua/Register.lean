import SeedCore.Lib.Layers
import SeedCore.Lua.Reload

/-!
# Registering functions

`ScriptEngine::RegModuleFunc` puts a function into the table of a module, which it finds in
`package.loaded` or creates there.  The function is a C closure over a userdata, in which there is
the `std::function`; so the state of the host is that of Lua, the objects in its userdata, and the
closures.

## Main definitions

* `Host`, `HostM` — the state, and a program that works on it.
* `regModuleFunc` — the function, and `regAll`, one registration after another.
* `Registrable` — a state in which no table of a module is in use for something else.
* `ClosureOver` — a value is a registered function.
* `regModuleFunc_ends` — what one registration does.
* `Updates` — the map update that some registrations come to.
* `regAll_faithful` — any number of them are one.
-/

namespace SeedCore.Lua

/-- The state of the host: that of Lua, the objects of type `F` in its userdata, where the one at
the address `p` is number `p - 1`, and the upvalues of its C closures, which are numbered from
`base` on. -/
structure Host (F : Type) where
  lua : LuaState
  heap : List F := []
  base : ℕ := 0
  closures : List Value := []

/-- A piece of the host that also makes userdata and closures. -/
abbrev HostM (F : Type) := EStateM Fault (Host F)

/-- `PACKAGE` -/
def packageName : Bytes := ascii "package"
/-- `PKG_MODULE_INDEX` -/
def pkgModuleIndex : Bytes := ascii "loaded"
/-- `MAX_PATH` -/
def maxPath : ℕ := 260

/-! ## Functions of the interface -/

/-- `lua_rawget`, which is undefined for a value that is not a table. -/
def rawget (idx : ℤ) : LuaM Unit := do
  let t ← validValue idx
  let key ← validValue (-1)
  match t with
  | .table ref =>
      modify fun s => { s with stack := Table.get (s.shared.table ref) key.normal :: s.stack.tail }
  | _ => throw .nullPointer

/-- `lua_rawset`, which is undefined for a value that is not a table. -/
def rawset (idx : ℤ) : LuaM Unit := do
  let t ← validValue idx
  let key ← validValue (-2)
  let v ← validValue (-1)
  match t with
  | .table ref =>
      onShared (setraw ref key v)
      modify fun s => { s with stack := s.stack.drop 2 }
  | _ => throw .nullPointer

/-- The macro `lua_newtable`. -/
def newtable : LuaM Unit := modify fun s =>
  { s with stack := s.shared.newTable.1 :: s.stack, shared := s.shared.newTable.2 }

section Host

variable {F : Type}

/-- A function of the interface, in the state of the host. -/
def onLua {α : Type} (x : LuaM α) : HostM F α := fun host =>
  match x host.lua with
  | .ok a s => .ok a { host with lua := s }
  | .error fault s => .error fault { host with lua := s }

/-- The object at an address. -/
def Host.object (host : Host F) (p : UInt64) : Option F :=
  if p = 0 then none else host.heap[p.toNat - 1]?

/-- The upvalue of a closure. -/
def Host.upvalue (host : Host F) (id : ℕ) : Option Value :=
  if host.base ≤ id then host.closures[id - host.base]? else none

/-- `lua_newuserdata` and the object that is built in it, or an error when there is no room. -/
def newuserdata (f : F) : HostM F Unit := fun host =>
  if host.heap.length + 1 < 2 ^ 64 then
    let p : UInt64 := .ofNat (host.heap.length + 1)
    .ok () { host with
      lua := { host.lua with stack := .userdata p :: host.lua.stack }
      heap := host.heap ++ [f] }
  else .error (.raised (.string (ascii "not enough memory"))) host

/-- `lua_pushcclosure` of `LuaCall` with one upvalue, which is taken from the top. -/
def pushcclosure : HostM F Unit := do
  let upvalue ← onLua (validValue (-1))
  modify fun host => { host with
    lua := { host.lua with
      stack := .function (host.base + host.closures.length) :: host.lua.stack.tail }
    closures := host.closures ++ [upvalue] }

/-! ## The source -/

/-- The path of a module, in a buffer of `MAX_PATH` bytes. -/
def modulePath (module : Bytes) : Bytes := (ascii "serverd." ++ cstr module).take (maxPath - 1)

/-- The first part of `RegModuleFunc`: the table of the module, over `package.loaded` and
`package`. -/
def fetchModule (path : Bytes) : LuaM Unit := do
  getglobal packageName
  getfield (-1) pkgModuleIndex
  pushstring (some path)
  rawget (-2)
  if ← isnil (-1) then
    pop 1
    pushstring (some path)
    newtable
    rawset (-3)
    pushstring (some path)
    rawget (-2)
  else pure ()

/-- `RegModuleFunc` -/
def regModuleFunc (module func : Bytes) (f : F) : HostM F Unit := do
  onLua (fetchModule (modulePath module))
  onLua (pushstring (some func))
  newuserdata f
  pushcclosure
  onLua (rawset (-3))
  onLua (pop 3)

/-- The arguments of a registration. -/
structure Registration (F : Type) where
  module : Bytes
  func : Bytes
  f : F

/-- One registration after another. -/
def regAll : List (Registration F) → HostM F Unit
  | [] => pure ()
  | r :: regs => do
      regModuleFunc r.module r.func r.f
      regAll regs

end Host

/-! ## Raw access -/

section Raw

variable (rest : List Value) (key : Bytes) (v : Value) (ref : ℕ) (log : List Event) (sh : Shared)

theorem rawget_eq :
    rawget (-2) ⟨.string key :: .table ref :: rest, log, sh⟩ =
      .ok () ⟨Table.get (sh.table ref) (.string key) :: .table ref :: rest, log, sh⟩ := by
  have htable : validValue (-2) ⟨.string key :: .table ref :: rest, log, sh⟩ =
      .ok (.table ref) ⟨.string key :: .table ref :: rest, log, sh⟩ :=
    validValue_append [.string key] rest (.table ref) log sh (n := 1) rfl
  have hkey : validValue (-1) ⟨.string key :: .table ref :: rest, log, sh⟩ =
      .ok (.string key) ⟨.string key :: .table ref :: rest, log, sh⟩ :=
    validValue_append [] _ (.string key) log sh (n := 0) rfl
  rw [rawget, bind_ok htable, bind_ok hkey]
  rfl

theorem rawset_eq :
    rawset (-3) ⟨v :: .string key :: .table ref :: rest, log, sh⟩ =
      .ok () ⟨.table ref :: rest, log, sh.assign ref (.string key) v⟩ := by
  have htable : validValue (-3) ⟨v :: .string key :: .table ref :: rest, log, sh⟩ =
      .ok (.table ref) ⟨v :: .string key :: .table ref :: rest, log, sh⟩ :=
    validValue_append [v, .string key] rest (.table ref) log sh (n := 2) rfl
  have hkey : validValue (-2) ⟨v :: .string key :: .table ref :: rest, log, sh⟩ =
      .ok (.string key) ⟨v :: .string key :: .table ref :: rest, log, sh⟩ :=
    validValue_append [v] _ (.string key) log sh (n := 1) rfl
  have hv : validValue (-1) ⟨v :: .string key :: .table ref :: rest, log, sh⟩ =
      .ok v ⟨v :: .string key :: .table ref :: rest, log, sh⟩ :=
    validValue_append [] _ v log sh (n := 0) rfl
  rw [rawset, bind_ok htable, bind_ok hkey, bind_ok hv]
  rfl

end Raw

/-! ## The table of a module -/

/-- A field of the table of a module; without a table there is none. -/
def moduleField (loaded : ℕ) (name : Bytes) (k : Value) (sh : Shared) : Value :=
  match moduleEntry loaded name sh with
  | .table ref => Table.get (sh.table ref) k
  | _ => .nil

/-- `package.loaded` is a table, as are the entries of server modules, and each of these tables is
in use for one thing only. -/
structure Registrable (pkg loaded : ℕ) (sh : Shared) : Prop where
  package_eq : sh.global packageName = .table pkg
  loaded_eq : Table.get (sh.table pkg) (.string pkgModuleIndex) = .table loaded
  /-- The tables are there. -/
  pkg_lt : pkg < sh.tables.length
  loaded_lt : loaded < sh.tables.length
  entry_lt : ∀ name ref, moduleEntry loaded name sh = .table ref → ref < sh.tables.length
  /-- An entry that starts with `serverd.` is a table, or absent. -/
  entry_table : ∀ name, moduleEntry loaded (ascii "serverd." ++ name) sh ≠ .nil →
    ∃ ref, moduleEntry loaded (ascii "serverd." ++ name) sh = .table ref
  /-- Such a table is neither `package` nor the table of another module. -/
  entry_ne_pkg : ∀ name, moduleEntry loaded (ascii "serverd." ++ name) sh ≠ .table pkg
  entry_own : ∀ name other ref, moduleEntry loaded (ascii "serverd." ++ name) sh = .table ref →
    moduleEntry loaded other sh = .table ref → other = ascii "serverd." ++ name
  /-- No module has `package.loaded` for its table. -/
  entry_ne_loaded : ∀ name, moduleEntry loaded name sh ≠ .table loaded

/-- The number of the table of a module, and the state in which it is there. -/
def madeModule (loaded : ℕ) (path : Bytes) (sh : Shared) : ℕ × Shared :=
  match moduleEntry loaded path sh with
  | .table ref => (ref, sh)
  | _ => (sh.tables.length, sh.newTable.2.assign loaded (.string path) sh.newTable.1)

theorem length_assign {ref : ℕ} {sh : Shared} (h : ref < sh.tables.length) (key v : Value) :
    (sh.assign ref key v).tables.length = sh.tables.length := by
  simp only [Shared.assign, List.length_set, List.length_append, List.length_replicate]
  omega

theorem length_newTable (sh : Shared) : sh.newTable.2.tables.length = sh.tables.length + 1 := by
  rw [Shared.newTable, List.length_append, List.length_singleton]

section Module

variable {pkg loaded : ℕ} {sh : Shared} {name path : Bytes}

/-- A server module that has no table has no entry. -/
theorem Registrable.eq_nil_or_table (h : Registrable pkg loaded sh)
    (hpath : path = ascii "serverd." ++ name) :
    moduleEntry loaded path sh = .nil ∨ ∃ ref, moduleEntry loaded path sh = .table ref := by
  subst hpath
  by_cases hnil : moduleEntry loaded (ascii "serverd." ++ name) sh = .nil
  · exact .inl hnil
  · exact .inr (h.entry_table name hnil)

theorem madeModule_of_nil (hentry : moduleEntry loaded path sh = .nil) :
    madeModule loaded path sh = (sh.tables.length,
      sh.newTable.2.assign loaded (.string path) (.table sh.tables.length)) := by
  rw [madeModule, hentry]
  rfl

theorem madeModule_of_table {ref : ℕ} (hentry : moduleEntry loaded path sh = .table ref) :
    madeModule loaded path sh = (ref, sh) := by
  rw [madeModule, hentry]

/-- Only the entry of the module may be new. -/
theorem moduleEntry_madeModule (h : Registrable pkg loaded sh)
    (hpath : path = ascii "serverd." ++ name) (other : Bytes) :
    moduleEntry loaded other (madeModule loaded path sh).2 =
      if other = path then .table (madeModule loaded path sh).1 else moduleEntry loaded other sh := by
  cases h.eq_nil_or_table hpath with
  | inl hnil =>
      rw [madeModule_of_nil hnil, moduleEntry, get_assign, table_newTable]
      simp [moduleEntry]
  | inr htable =>
      obtain ⟨ref, htable⟩ := htable
      rw [madeModule_of_table htable]
      by_cases hother : other = path
      · rw [if_pos hother, hother, htable]
      · rw [if_neg hother]

theorem get_madeModule (h : Registrable pkg loaded sh) (hpath : path = ascii "serverd." ++ name)
    {r : ℕ} {k : Value} (hk : r = loaded → k ≠ .string path) :
    Table.get ((madeModule loaded path sh).2.table r) k = Table.get (sh.table r) k := by
  cases h.eq_nil_or_table hpath with
  | inl hnil =>
      rw [madeModule_of_nil hnil, get_assign, table_newTable, if_neg]
      intro hboth
      exact hk hboth.1 hboth.2
  | inr htable =>
      obtain ⟨ref, htable⟩ := htable
      rw [madeModule_of_table htable]

/-- The table of the module is there and is used for nothing else. -/
theorem madeModule_fresh (h : Registrable pkg loaded sh) (hpath : path = ascii "serverd." ++ name) :
    (madeModule loaded path sh).1 < (madeModule loaded path sh).2.tables.length ∧
      sh.tables.length ≤ (madeModule loaded path sh).2.tables.length ∧
      (madeModule loaded path sh).1 ≠ pkg ∧ (madeModule loaded path sh).1 ≠ loaded ∧
      ∀ other, moduleEntry loaded other sh = .table (madeModule loaded path sh).1 →
        other = path := by
  have hpkg := h.pkg_lt
  have hloaded := h.loaded_lt
  cases h.eq_nil_or_table hpath with
  | inl hnil =>
      have hlen : (sh.newTable.2.assign loaded (.string path) (.table sh.tables.length)).tables.length
          = sh.tables.length + 1 := by
        rw [length_assign (by rw [length_newTable]; omega), length_newTable]
      rw [madeModule_of_nil hnil]
      dsimp only
      refine ⟨by omega, by omega, by omega, by omega, ?_⟩
      intro other hother
      have hlt := h.entry_lt other _ hother
      omega
  | inr htable =>
      obtain ⟨ref, htable⟩ := htable
      have hlt := h.entry_lt path ref htable
      rw [madeModule_of_table htable]
      subst hpath
      refine ⟨hlt, Nat.le_refl _, ?_, ?_, ?_⟩
      · intro hne
        exact h.entry_ne_pkg name (htable.trans (congrArg Value.table hne))
      · intro hne
        exact h.entry_ne_loaded _ (htable.trans (congrArg Value.table hne))
      · intro other hother
        exact h.entry_own name other ref htable hother

theorem global_madeModule : (madeModule loaded path sh).2.globals = sh.globals := by
  unfold madeModule
  split <;> rfl

/-- The table of a module is that of the path, or one that was there. -/
theorem table_of_madeModule (h : Registrable pkg loaded sh) (hpath : path = ascii "serverd." ++ name)
    {other : Bytes} {ref : ℕ}
    (hother : moduleEntry loaded other (madeModule loaded path sh).2 = .table ref) :
    (other = path ∧ ref = (madeModule loaded path sh).1) ∨
      moduleEntry loaded other sh = .table ref := by
  rw [moduleEntry_madeModule h hpath] at hother
  by_cases heq : other = path
  · rw [if_pos heq] at hother
    exact .inl ⟨heq, (Value.table.inj hother).symm⟩
  · rw [if_neg heq] at hother
    exact .inr hother

/-- No server module is called `loaded`. -/
theorem pkgModuleIndex_ne (name : Bytes) : pkgModuleIndex ≠ ascii "serverd." ++ name := by
  intro hkey
  have hlen := congrArg List.length hkey
  rw [List.length_append] at hlen
  have hserverd : (ascii "serverd.").length = 8 := rfl
  have hindex : pkgModuleIndex.length = 6 := rfl
  omega

/-- Getting the table of a module keeps the tables apart. -/
theorem Registrable.madeModule (h : Registrable pkg loaded sh)
    (hpath : path = ascii "serverd." ++ name) :
    Registrable pkg loaded (madeModule loaded path sh).2 := by
  obtain ⟨hlt, hle, hpkg, hloaded, hown⟩ := madeModule_fresh h hpath
  refine ⟨?_, ?_, Nat.lt_of_lt_of_le h.pkg_lt hle, Nat.lt_of_lt_of_le h.loaded_lt hle,
    ?_, ?_, ?_, ?_, ?_⟩
  · rw [Shared.global, global_madeModule]
    exact h.package_eq
  · rw [get_madeModule h hpath, h.loaded_eq]
    intro _ hkey
    exact pkgModuleIndex_ne name ((Value.string.inj hkey).trans hpath)
  · intro other ref hother
    obtain ⟨-, rfl⟩ | hold := table_of_madeModule h hpath hother
    · exact hlt
    · exact Nat.lt_of_lt_of_le (h.entry_lt other ref hold) hle
  · intro other hne
    rw [moduleEntry_madeModule h hpath] at hne ⊢
    by_cases heq : ascii "serverd." ++ other = path
    · rw [if_pos heq]
      exact ⟨_, rfl⟩
    · rw [if_neg heq] at hne ⊢
      exact h.entry_table other hne
  · intro other hother
    obtain ⟨-, hsame⟩ | hold := table_of_madeModule h hpath hother
    · exact hpkg hsame.symm
    · exact h.entry_ne_pkg other hold
  · intro first second ref hfirst hsecond
    obtain ⟨heq, rfl⟩ | hold := table_of_madeModule h hpath hfirst
    · obtain ⟨heq', -⟩ | hold' := table_of_madeModule h hpath hsecond
      · exact heq'.trans heq.symm
      · exact (hown second hold').trans heq.symm
    · obtain ⟨heq', rfl⟩ | hold' := table_of_madeModule h hpath hsecond
      · exact heq'.trans (hown _ hold).symm
      · exact h.entry_own first second ref hold hold'
  · intro other hother
    obtain ⟨-, hsame⟩ | hold := table_of_madeModule h hpath hother
    · exact hloaded hsame.symm
    · exact h.entry_ne_loaded other hold

/-- No field of a module changes: a new table has none. -/
theorem moduleField_madeModule (h : Registrable pkg loaded sh)
    (hpath : path = ascii "serverd." ++ name) (other : Bytes) (k : Value) :
    moduleField loaded other k (madeModule loaded path sh).2 = moduleField loaded other k sh := by
  have hget : ∀ r, r ≠ loaded →
      Table.get ((SeedCore.Lua.madeModule loaded path sh).2.table r) k = Table.get (sh.table r) k :=
    fun r hr => get_madeModule h hpath fun heq => absurd heq hr
  simp only [moduleField, moduleEntry_madeModule h hpath]
  by_cases heq : other = path
  · subst heq
    rw [if_pos rfl]
    dsimp only
    rw [hget _ (madeModule_fresh h hpath).2.2.2.1]
    cases h.eq_nil_or_table hpath with
    | inl hnil =>
        rw [madeModule_of_nil hnil, hnil]
        dsimp only
        rw [Shared.table, List.getElem?_eq_none le_rfl]
        rfl
    | inr htable =>
        obtain ⟨ref, htable⟩ := htable
        rw [madeModule_of_table htable, htable]
  · rw [if_neg heq]
    cases hentry : moduleEntry loaded other sh with
    | table ref =>
        refine hget ref ?_
        intro hne
        exact h.entry_ne_loaded other (hentry.trans (congrArg Value.table hne))
    | _ => rfl

theorem moduleEntry_assign_ne {ref : ℕ} (hne : ref ≠ loaded) (key v : Value) (other : Bytes) :
    moduleEntry loaded other (sh.assign ref key v) = moduleEntry loaded other sh := by
  rw [moduleEntry, get_assign, if_neg]
  · rfl
  · intro hboth
    exact hne hboth.1.symm

/-- An assignment to the table of a module keeps the tables apart. -/
theorem Registrable.assign (h : Registrable pkg loaded sh) {ref : ℕ} (hlt : ref < sh.tables.length)
    (hpkg : ref ≠ pkg) (hloaded : ref ≠ loaded) (key v : Value) :
    Registrable pkg loaded (sh.assign ref key v) := by
  have hentry : ∀ other, moduleEntry loaded other (sh.assign ref key v) =
      moduleEntry loaded other sh := moduleEntry_assign_ne hloaded key v
  have hlen := length_assign hlt key v
  constructor
  · exact h.package_eq
  · rw [get_assign, if_neg]
    · exact h.loaded_eq
    · intro hboth
      exact hpkg hboth.1.symm
  · rw [hlen]
    exact h.pkg_lt
  · rw [hlen]
    exact h.loaded_lt
  · simpa only [hentry, hlen] using h.entry_lt
  · simpa only [hentry] using h.entry_table
  · simpa only [hentry] using h.entry_ne_pkg
  · simpa only [hentry] using h.entry_own
  · simpa only [hentry] using h.entry_ne_loaded

/-- An assignment to the table of a server module is one to that module only. -/
theorem moduleField_assign (h : Registrable pkg loaded sh) (hpath : path = ascii "serverd." ++ name)
    {ref : ℕ} (hentry : moduleEntry loaded path sh = .table ref) (key v : Value) (other : Bytes)
    (k : Value) :
    moduleField loaded other k (sh.assign ref key v) =
      if other = path ∧ k = key then v else moduleField loaded other k sh := by
  have hne : ref ≠ loaded := by
    rintro rfl
    exact h.entry_ne_loaded path hentry
  simp only [moduleField, moduleEntry_assign_ne hne]
  by_cases heq : other = path
  · subst heq
    rw [hentry]
    simp only [get_assign, true_and]
  · rw [if_neg (fun hboth => heq hboth.1)]
    cases hother : moduleEntry loaded other sh with
    | table r =>
        dsimp only
        rw [get_assign, if_neg]
        rintro ⟨rfl, -⟩
        subst hpath
        exact heq (h.entry_own name other r hentry hother)
    | _ => rfl

/-- **The first part of `RegModuleFunc`.** -/
theorem fetchModule_eq (h : Registrable pkg loaded sh) (hpath : path = ascii "serverd." ++ name)
    (hcstr : cstr path = path) (rest : List Value) (log : List Event) :
    fetchModule path ⟨rest, log, sh⟩ = .ok ()
      ⟨.table (madeModule loaded path sh).1 :: .table loaded :: .table pkg :: rest,
        log ++ [.global packageName (.table pkg)], (madeModule loaded path sh).2⟩ := by
  let log' := log ++ [Event.global packageName (.table pkg)]
  have hglobal : getglobal packageName ⟨rest, log, sh⟩ = .ok () ⟨.table pkg :: rest, log', sh⟩ := by
    rw [getglobal_eq, h.package_eq]
  have htop : validValue (-1) ⟨.table pkg :: rest, log', sh⟩ =
      .ok (.table pkg) ⟨.table pkg :: rest, log', sh⟩ :=
    validValue_append [] rest (.table pkg) log' sh (n := 0) rfl
  have hindex : index (.table pkg) (.string pkgModuleIndex) sh = .ok (.table loaded) sh :=
    index_own (congrArg some h.loaded_eq) Value.noConfusion
  have hpush : ∀ (stack : List Value) (sh : Shared), pushstring (some path) ⟨stack, log', sh⟩ =
      .ok () ⟨.string path :: stack, log', sh⟩ := by
    intro stack sh
    rw [pushstring, cstringValue, hcstr]
    rfl
  have hisnil : ∀ (v : Value) (stack : List Value), isnil (-1) ⟨v :: stack, log', sh⟩ =
      .ok v.isNil ⟨v :: stack, log', sh⟩ :=
    fun v stack => isnil_append [] stack v log' sh (n := 0) rfl
  rw [fetchModule, bind_ok hglobal, bind_ok (getfield_eq _ _ log' sh htop hindex),
    bind_ok (hpush _ _), bind_ok (rawget_eq _ _ _ _ _), bind_ok (hisnil _ _)]
  cases h.eq_nil_or_table hpath with
  | inl hnil =>
      have hisNil : (Table.get (sh.table loaded) (.string path)).isNil = true := by
        rw [moduleEntry] at hnil
        rw [hnil]
        rfl
      have hnew : newtable ⟨.string path :: .table loaded :: .table pkg :: rest, log', sh⟩ =
          .ok () ⟨.table sh.tables.length :: .string path :: .table loaded :: .table pkg :: rest,
            log', sh.newTable.2⟩ := rfl
      rw [if_pos hisNil]
      refine (bind_ok (pop_one _ _ log' sh)).trans ?_
      rw [bind_ok (hpush _ _), bind_ok hnew, bind_ok (rawset_eq _ _ _ _ _ _), bind_ok (hpush _ _),
        rawget_eq, madeModule_of_nil hnil, get_assign, if_pos ⟨rfl, rfl⟩]
  | inr htable =>
      obtain ⟨ref, htable⟩ := htable
      have hisNil : ¬(Table.get (sh.table loaded) (.string path)).isNil = true := by
        rw [moduleEntry] at htable
        rw [htable]
        exact Bool.false_ne_true
      rw [if_neg hisNil, madeModule_of_table htable]
      rw [moduleEntry] at htable
      rw [htable]
      rfl

end Module

/-! ## One registration -/

section Registration

variable {F : Type} {pkg loaded : ℕ}

/-- `package.loaded` has the module under this name. -/
def moduleName (module : Bytes) : Bytes := ascii "serverd." ++ cstr module

theorem modulePath_eq {module : Bytes} (hfit : (moduleName module).length < maxPath) :
    modulePath module = moduleName module :=
  List.take_of_length_le (by unfold moduleName maxPath at *; omega)

theorem cstr_moduleName (module : Bytes) : cstr (moduleName module) = moduleName module := by
  rw [moduleName, cstr, List.takeWhile_append_of_pos (by decide +kernel)]
  exact congrArg _ List.takeWhile_idem

/-- The state after a registration. -/
def registered (loaded : ℕ) (pkg : ℕ) (module func : Bytes) (f : F) (host : Host F) : Host F :=
  let made := madeModule loaded (moduleName module) host.lua.shared
  let closure := Value.function (host.base + host.closures.length)
  { host with
    lua := {
      stack := host.lua.stack
      log := host.lua.log ++ [.global packageName (.table pkg)]
      shared := made.2.assign made.1 (.string (cstr func)) closure }
    heap := host.heap ++ [f]
    closures := host.closures ++ [.userdata (.ofNat (host.heap.length + 1))] }

theorem onLua_ok {α : Type} {x : LuaM α} {host : Host F} {a : α} {s : LuaState}
    (h : x host.lua = .ok a s) : onLua x host = .ok a { host with lua := s } := by
  rw [onLua, h]

/-- **`RegModuleFunc`** ends, and this is what it leaves. -/
theorem regModuleFunc_ends {host : Host F} (h : Registrable pkg loaded host.lua.shared)
    {module : Bytes} (hfit : (moduleName module).length < maxPath)
    (hroom : host.heap.length + 1 < 2 ^ 64) (func : Bytes) (f : F) :
    regModuleFunc module func f host = .ok () (registered loaded pkg module func f host) := by
  obtain ⟨⟨stack, log, sh⟩, heap, base, closures⟩ := host
  let log' := log ++ [Event.global packageName (.table pkg)]
  let made := madeModule loaded (moduleName module) sh
  let below : List Value := .table made.1 :: .table loaded :: .table pkg :: stack
  let p : Value := .userdata (.ofNat (heap.length + 1))
  let closure : Value := .function (base + closures.length)
  have hfetch := fetchModule_eq h rfl (cstr_moduleName module) stack log
  have hpush : pushstring (some func) ⟨below, log', made.2⟩ =
      .ok () ⟨.string (cstr func) :: below, log', made.2⟩ := rfl
  have hnew : newuserdata f ⟨⟨.string (cstr func) :: below, log', made.2⟩, heap, base, closures⟩ =
      .ok () ⟨⟨p :: .string (cstr func) :: below, log', made.2⟩, heap ++ [f], base, closures⟩ :=
    if_pos hroom
  have htop : validValue (-1) ⟨p :: .string (cstr func) :: below, log', made.2⟩ =
      .ok p ⟨p :: .string (cstr func) :: below, log', made.2⟩ :=
    validValue_append [] _ p log' made.2 (n := 0) rfl
  have hclosure : pushcclosure
        ⟨⟨p :: .string (cstr func) :: below, log', made.2⟩, heap ++ [f], base, closures⟩ =
      .ok () ⟨⟨closure :: .string (cstr func) :: below, log', made.2⟩, heap ++ [f], base,
        closures ++ [p]⟩ := by
    rw [pushcclosure]
    refine (bind_ok (onLua_ok htop)).trans ?_
    rfl
  have hset := rawset_eq (.table loaded :: .table pkg :: stack) (cstr func) closure made.1
    log' made.2
  have hpop := pop_append [.table made.1, .table loaded, .table pkg] stack log'
    (made.2.assign made.1 (.string (cstr func)) closure) (n := 3) rfl
  rw [regModuleFunc, modulePath_eq hfit]
  refine (bind_ok (onLua_ok hfetch)).trans ?_
  refine (bind_ok (onLua_ok hpush)).trans ?_
  refine (bind_ok hnew).trans ?_
  refine (bind_ok hclosure).trans ?_
  refine (bind_ok (onLua_ok hset)).trans ?_
  exact onLua_ok hpop

/-- A value is a C closure over a userdata in which there is this function. -/
def ClosureOver (host : Host F) (v : Value) (f : F) : Prop :=
  ∃ id p, v = .function id ∧ host.upvalue id = some (.userdata p) ∧ host.object p = some f

/-- What a registration gives to a field of a module. -/
def Registration.layer (r : Registration F) (key : Bytes × Value) : Option F :=
  if key = (moduleName r.module, .string (cstr r.func)) then some r.f else none

/-- **A map update**: from one state to another there are these registrations, and nothing else. -/
structure Updates (loaded : ℕ) (before : Host F) (regs : List (Registration F)) (after : Host F) :
    Prop where
  stack_eq : after.lua.stack = before.lua.stack
  /-- A module keeps its table. -/
  entry_keep : ∀ name ref, moduleEntry loaded name before.lua.shared = .table ref →
    moduleEntry loaded name after.lua.shared = .table ref
  entry_frame : ∀ name, (∀ r ∈ regs, moduleName r.module ≠ name) →
    moduleEntry loaded name after.lua.shared = moduleEntry loaded name before.lua.shared
  /-- What was registered last. -/
  field_latest : ∀ name k f, latest (regs.map Registration.layer) (name, k) = some f →
    ClosureOver after (moduleField loaded name k after.lua.shared) f
  field_frame : ∀ name k, latest (regs.map Registration.layer) (name, k) = none →
    moduleField loaded name k after.lua.shared = moduleField loaded name k before.lua.shared
  closure_keep : ∀ v f, ClosureOver before v f → ClosureOver after v f

/-- What has been appended to changes no place that there was. -/
theorem getElem?_append_some {α : Type} {l : List α} {i : ℕ} {a : α} (h : l[i]? = some a)
    (more : List α) : (l ++ more)[i]? = some a := by
  rw [List.getElem?_append_left (List.getElem?_eq_some_iff.mp h).1, h]

theorem ClosureOver.registered {host : Host F} {v : Value} {g : F} (h : ClosureOver host v g)
    (module func : Bytes) (f : F) :
    ClosureOver (registered loaded pkg module func f host) v g := by
  obtain ⟨id, p, hv, hupvalue, hobject⟩ := h
  refine ⟨id, p, hv, ?_, ?_⟩
  · rw [Host.upvalue] at hupvalue ⊢
    by_cases hle : host.base ≤ id
    · rw [if_pos hle] at hupvalue
      exact (if_pos hle).trans (getElem?_append_some hupvalue _)
    · rw [if_neg hle] at hupvalue
      cases hupvalue
  · rw [Host.object] at hobject ⊢
    by_cases hp : p = 0
    · rw [if_pos hp] at hobject
      cases hobject
    · rw [if_neg hp] at hobject ⊢
      exact getElem?_append_some hobject _

/-- The closure that a registration makes. -/
theorem closureOver_registered {host : Host F} (hroom : host.heap.length + 1 < 2 ^ 64)
    (module func : Bytes) (f : F) :
    ClosureOver (registered loaded pkg module func f host)
      (.function (host.base + host.closures.length)) f := by
  have hp : (UInt64.ofNat (host.heap.length + 1)).toNat = host.heap.length + 1 :=
    UInt64.toNat_ofNat_of_lt hroom
  refine ⟨_, .ofNat (host.heap.length + 1), rfl, ?_, ?_⟩
  · refine (if_pos (Nat.le_add_right _ _)).trans ?_
    have hlast : host.base + host.closures.length - host.base = host.closures.length := by omega
    change (host.closures ++ [_])[host.base + host.closures.length - host.base]? = _
    rw [hlast]
    exact List.getElem?_concat_length
  · have hne : UInt64.ofNat (host.heap.length + 1) ≠ 0 := by
      intro hzero
      rw [hzero] at hp
      exact absurd hp (by simp)
    refine (if_neg hne).trans ?_
    rw [hp, Nat.add_sub_cancel]
    exact List.getElem?_concat_length

/-- **One registration** is a map update. -/
theorem Registrable.registered {host : Host F} (h : Registrable pkg loaded host.lua.shared)
    (hroom : host.heap.length + 1 < 2 ^ 64) (r : Registration F) :
    Registrable pkg loaded (registered loaded pkg r.module r.func r.f host).lua.shared ∧
      Updates loaded host [r] (registered loaded pkg r.module r.func r.f host) := by
  have hpath : moduleName r.module = ascii "serverd." ++ cstr r.module := rfl
  have hmade := h.madeModule hpath
  have hentry := moduleEntry_madeModule h hpath
  obtain ⟨hlt, -, hpkg, hloaded, -⟩ := madeModule_fresh h hpath
  have hmodule := (hentry (moduleName r.module)).trans (if_pos rfl)
  have hfield := moduleField_assign hmade hpath hmodule
    (.string (cstr r.func)) (.function (host.base + host.closures.length))
  have hsame := moduleField_madeModule h hpath
  refine ⟨hmade.assign hlt hpkg hloaded _ _, rfl, ?_, ?_, ?_, ?_, ?_⟩
  · intro name ref hname
    refine (moduleEntry_assign_ne hloaded _ _ name).trans ?_
    rw [hentry]
    by_cases heq : name = moduleName r.module
    · rw [if_pos heq]
      subst heq
      rw [madeModule_of_table hname]
    · rw [if_neg heq, hname]
  · intro name hname
    refine (moduleEntry_assign_ne hloaded _ _ name).trans ?_
    rw [hentry, if_neg]
    intro heq
    exact hname r (List.mem_singleton.mpr rfl) heq.symm
  · intro name k f hlatest
    have hlayer : r.layer (name, k) = some f := hlatest
    rw [Registration.layer] at hlayer
    by_cases heq : (name, k) = (moduleName r.module, .string (cstr r.func))
    · rw [if_pos heq] at hlayer
      cases hlayer
      have hvalue := (hfield name k).trans (if_pos (Prod.mk.inj heq))
      have hover : ClosureOver (SeedCore.Lua.registered loaded pkg r.module r.func r.f host) _ r.f :=
        closureOver_registered hroom r.module r.func r.f
      rw [← hvalue] at hover
      exact hover
    · rw [if_neg heq] at hlayer
      cases hlayer
  · intro name k hlatest
    have hlayer : r.layer (name, k) = none := hlatest
    refine (hfield name k).trans ?_
    rw [if_neg, hsame]
    rintro ⟨rfl, rfl⟩
    rw [Registration.layer, if_pos rfl] at hlayer
    cases hlayer
  · intro v f hover
    exact hover.registered r.module r.func r.f

/-! ## Any number of registrations -/

variable {before mid after : Host F}

theorem Updates.nil (host : Host F) : Updates loaded host [] host where
  stack_eq := rfl
  entry_keep := fun _ _ h => h
  entry_frame := fun _ _ => rfl
  field_latest := by
    intro name k f hlatest
    cases hlatest
  field_frame := fun _ _ _ => rfl
  closure_keep := fun _ _ h => h

/-- Map updates one after the other. -/
theorem Updates.cons {r : Registration F} {regs : List (Registration F)}
    (head : Updates loaded before [r] mid) (tail : Updates loaded mid regs after) :
    Updates loaded before (r :: regs) after := by
  constructor
  · exact tail.stack_eq.trans head.stack_eq
  · intro name ref hname
    exact tail.entry_keep name ref (head.entry_keep name ref hname)
  · intro name hname
    have hhead := head.entry_frame name fun r' hr' =>
      hname r' (List.mem_singleton.mp hr' ▸ List.mem_cons_self)
    exact (tail.entry_frame name fun r' hr' => hname r' (List.mem_cons_of_mem _ hr')).trans hhead
  · intro name k f hlatest
    rw [List.map_cons] at hlatest
    cases hlater : latest (regs.map Registration.layer) (name, k) with
    | some g =>
        rw [latest_cons_of_some hlater] at hlatest
        cases hlatest
        exact tail.field_latest name k _ hlater
    | none =>
        -- nothing later, so the field is as the first registration left it
        rw [latest_cons_of_none hlater] at hlatest
        rw [tail.field_frame name k hlater]
        exact tail.closure_keep _ _ (head.field_latest name k f hlatest)
  · intro name k hlatest
    rw [List.map_cons, latest_cons_eq_none_iff] at hlatest
    exact (tail.field_frame name k hlatest.1).trans (head.field_frame name k hlatest.2)
  · intro v f hover
    exact tail.closure_keep v f (head.closure_keep v f hover)

theorem regAll_append (pre post : List (Registration F)) (host : Host F) :
    regAll (pre ++ post) host = (regAll pre >>= fun _ => regAll post) host := by
  induction pre generalizing host with
  | nil => rfl
  | cons r pre ih =>
      rw [List.cons_append, regAll, regAll]
      cases hr : regModuleFunc r.module r.func r.f host with
      | ok u mid =>
          rw [bind_ok hr, ih mid]
          cases hpre : regAll pre mid with
          | ok u' mid' => rw [bind_ok hpre, bind_ok ((bind_ok hr).trans hpre)]
          | error fault mid' => rw [bind_error hpre, bind_error ((bind_ok hr).trans hpre)]
      | error fault mid => rw [bind_error hr, bind_error (bind_error hr)]

/-- The state from which registrations can go on. -/
theorem regAll_ends {host : Host F} (h : Registrable pkg loaded host.lua.shared)
    {regs : List (Registration F)} (hfit : ∀ r ∈ regs, (moduleName r.module).length < maxPath)
    (hroom : host.heap.length + regs.length < 2 ^ 64) :
    ∃ after, regAll regs host = .ok () after ∧ Updates loaded host regs after ∧
      Registrable pkg loaded after.lua.shared ∧
      after.heap.length = host.heap.length + regs.length := by
  induction regs generalizing host with
  | nil => exact ⟨host, rfl, .nil host, h, rfl⟩
  | cons r regs ih =>
      rw [List.length_cons] at hroom
      have hone := regModuleFunc_ends h (hfit r List.mem_cons_self) (by omega) r.func r.f
      obtain ⟨hnext, hupdate⟩ := h.registered (by omega) r
      have hlen : (registered loaded pkg r.module r.func r.f host).heap.length =
          host.heap.length + 1 := List.length_append
      obtain ⟨after, hrun, hupdates, hafter, hheap⟩ :=
        ih hnext (fun r' hr' => hfit r' (List.mem_cons_of_mem _ hr')) (by omega)
      refine ⟨after, (bind_ok hone).trans hrun, hupdate.cons hupdates, hafter, ?_⟩
      rw [hheap, hlen, List.length_cons]
      omega

/-- **Registration is a faithful map update.**  From a state in which no table of a server module
is in use for something else, any sequence of registrations whose module names fit into the path
buffer ends, and each part of it is a map update: the stack is as it was, modules keep their
tables, a pair that is registered has a closure over what was registered for it last, and all
other fields of modules and all other entries are as they were. -/
theorem regAll_faithful {host : Host F} (h : Registrable pkg loaded host.lua.shared)
    {regs : List (Registration F)} (hfit : ∀ r ∈ regs, (moduleName r.module).length < maxPath)
    (hroom : host.heap.length + regs.length < 2 ^ 64) :
    ∃ after, regAll regs host = .ok () after ∧ Updates loaded host regs after ∧
      ∀ pre post, regs = pre ++ post → ∃ mid, regAll pre host = .ok () mid ∧
        regAll post mid = .ok () after ∧ Updates loaded host pre mid ∧
        Updates loaded mid post after := by
  obtain ⟨after, hrun, hupdates, -, -⟩ := regAll_ends h hfit hroom
  refine ⟨after, hrun, hupdates, ?_⟩
  rintro pre post rfl
  rw [List.length_append] at hroom
  have hfitPre : ∀ r ∈ pre, (moduleName r.module).length < maxPath :=
    fun r hr => hfit r (List.mem_append_left _ hr)
  have hfitPost : ∀ r ∈ post, (moduleName r.module).length < maxPath :=
    fun r hr => hfit r (List.mem_append_right _ hr)
  obtain ⟨mid, hpre, hpreUpdates, hmid, hheap⟩ := regAll_ends h hfitPre (by omega)
  obtain ⟨after', hpost, hpostUpdates, -, -⟩ := regAll_ends hmid hfitPost (by omega)
  have hboth : regAll (pre ++ post) host = .ok () after' := by
    rw [regAll_append, bind_ok hpre, hpost]
  rw [hrun] at hboth
  cases hboth
  exact ⟨mid, hpre, hpost, hpreUpdates, hpostUpdates⟩

end Registration

/-- `package` and `package.loaded`, before any registration. -/
def freshHost : Host ℕ where
  lua := {
    stack := []
    shared := {
      globals := (AList.singleton (.string packageName) (.table 0) : Table)
      tables := [(AList.singleton (.string pkgModuleIndex) (.table 1) : Table), ∅] } }

theorem registrable_freshHost : Registrable 0 1 freshHost.lua.shared where
  package_eq := by decide
  loaded_eq := by decide
  pkg_lt := by decide
  loaded_lt := by decide
  entry_lt := by
    intro name ref hname
    cases hname
  entry_table := fun _ hne => absurd rfl hne
  entry_ne_pkg := by
    intro name hname
    cases hname
  entry_own := by
    intro name other ref hname
    cases hname
  entry_ne_loaded := by
    intro name hname
    cases hname

/-- Two modules, and a function that is registered again. -/
theorem regAll_faithful_three : ∃ after,
    regAll [⟨ascii "a", ascii "f", 7⟩, ⟨ascii "b", ascii "f", 8⟩, ⟨ascii "a", ascii "f", 9⟩]
      freshHost = .ok () after ∧
    ClosureOver after
      (moduleField 1 (ascii "serverd.a") (.string (ascii "f")) after.lua.shared) 9 ∧
    ClosureOver after
      (moduleField 1 (ascii "serverd.b") (.string (ascii "f")) after.lua.shared) 8 := by
  let regs : List (Registration ℕ) :=
    [⟨ascii "a", ascii "f", 7⟩, ⟨ascii "b", ascii "f", 8⟩, ⟨ascii "a", ascii "f", 9⟩]
  have hfit : ∀ r ∈ regs, (moduleName r.module).length < maxPath := by decide
  obtain ⟨after, hrun, hupdates, -⟩ := regAll_faithful registrable_freshHost hfit (by decide)
  exact ⟨after, hrun, hupdates.field_latest _ _ _ (by decide),
    hupdates.field_latest _ _ _ (by decide)⟩

/-- Two names for the table of one module. -/
def aliasedHost : Host ℕ where
  lua := {
    stack := []
    shared := {
      globals := (AList.singleton (.string packageName) (.table 0) : Table)
      tables := [(AList.singleton (.string pkgModuleIndex) (.table 1) : Table),
        (Table.put ∅ (.string (ascii "serverd.a")) (.table 2)).put
          (.string (ascii "serverd.b")) (.table 2), ∅] } }

theorem moduleEntry_aliasedHost (name : Bytes) :
    moduleEntry 1 name aliasedHost.lua.shared = .nil ∨
      moduleEntry 1 name aliasedHost.lua.shared = .table 2 := by
  have hentry : moduleEntry 1 name aliasedHost.lua.shared =
      Table.get ((Table.put ∅ (.string (ascii "serverd.a")) (.table 2)).put
        (.string (ascii "serverd.b")) (.table 2)) (.string name) := rfl
  rw [hentry, Table.get_put, Table.get_put]
  split
  · exact .inr rfl
  · split
    · exact .inr rfl
    · exact .inl rfl

/-- A function that is registered for one of them is one of the other module, too. -/
theorem regModuleFunc_aliased :
    (∀ name, moduleEntry 1 (ascii "serverd." ++ name) aliasedHost.lua.shared ≠ .nil →
      ∃ ref, moduleEntry 1 (ascii "serverd." ++ name) aliasedHost.lua.shared = .table ref) ∧
    (ascii "serverd." ++ cstr (ascii "a")).length < maxPath ∧
    ∃ after, regModuleFunc (ascii "a") (ascii "f") 7 aliasedHost = .ok () after ∧
      moduleField 1 (ascii "serverd.b") (.string (ascii "f")) aliasedHost.lua.shared = .nil ∧
      moduleField 1 (ascii "serverd.b") (.string (ascii "f")) after.lua.shared = .function 0 := by
  refine ⟨?_, by decide, _, rfl, by decide, by decide +kernel⟩
  intro name hne
  cases moduleEntry_aliasedHost (ascii "serverd." ++ name) with
  | inl hnil => exact absurd hnil hne
  | inr htable => exact ⟨2, htable⟩

end SeedCore.Lua
