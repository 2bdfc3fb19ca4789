import SeedCore.Lib.Run
import SeedCore.Lua.Loading

/-!
# The life of a module

The host calls functions of a module and reloads it, while its source is edited.  A reload of a
source that raises an error, or that gives no table, takes the module down: `package.loaded` has
no entry for it, or the value that the source gave, and every call fails.  A module without an
entry comes up with the next attempt that meets a source with a table, one with a value only with
the next such reload.  Then it has a new table, and what the old one held is lost; as long as no
reload takes it down, a module keeps its table.

## Main definitions

* `Attempt`, `Session` — the calls and reloads of the host, and what they come to.
* `Health` — what is in the entry of the module, and how many tables it has had.
* `Attempt.Fair` — what is assumed of the code around an attempt.
* `module_lifecycle` — sessions follow `Health`.
-/

namespace SeedCore.Lua

/-! ## Sessions -/

/-- What the host does with the module. -/
inductive Use
  | call (func : Bytes) (outPutFunc : Option (List Write)) (callBackFun : IDataCallBackFuncType Unit)
  | reload

/-- A use of the module, with its source at that time. -/
structure Attempt where
  use : Use
  load : Bytes → Shared → Script
  source : Source

/-- What an attempt came to: what the host was told, and the entry of the module after it. -/
structure Record where
  attempt : Attempt
  ret : Bool
  entry : Value

structure Session where
  lua : LuaState
  records : List Record := []

section Session

variable (rounds loaded : ℕ) (m : Bytes) (apply : Value → List Value → Shared → Script)

/-- `CallScriptFunc` and `ReloadScript`, which tells nothing. -/
def Attempt.run (a : Attempt) : LuaM Bool :=
  match a.use with
  | .call func outPutFunc callBackFun => do
      let (ret, _) ← callScriptFunc (fun request shared =>
        (linkCall (stdRequire loaded a.load) apply request shared).run) m func
        (outPutFunc.map writing) callBackFun ()
      pure ret
  | .reload => do
      reloadScript (fun request shared =>
        (linkReload rounds loaded (stdRequire loaded a.load) request shared).run) (some m)
      pure true

def Session.step (s : Session) (a : Attempt) : Option Session :=
  match a.run rounds loaded m apply s.lua with
  | .ok ret lua => some { lua, records := s.records ++ [⟨a, ret, moduleEntry loaded m lua.shared⟩] }
  | .error _ _ => none

end Session

/-! ## The health of a module -/

/-- What is in the entry of a module, the value or else a table, and the number of tables that it
has had. -/
structure Health where
  value : Option Value := some .nil
  tables : ℕ := 0

/-- The source of a module that has no table is loaded. -/
def Health.load (h : Health) : Source → Health
  | .table => { value := none, tables := h.tables + 1 }
  | .value v => { h with value := some (recorded v) }
  | .error => { h with value := some .nil }

/-- A call loads a module that has no entry.  A reload loads any, but a module with a table keeps
it if the source gives one, too. -/
def Health.next (h : Health) (a : Attempt) : Health :=
  match a.use, h.value, a.source with
  | .call _ _ _, none, _ => h
  | .call _ _ _, some v, source => if v.truthy then h else h.load source
  | .reload, none, .table => h
  | .reload, _, source => h.load source

/-- The health of a module that was not loaded before. -/
def health (as : List Attempt) : Health := as.foldl Health.next {}

theorem health_concat (as : List Attempt) (a : Attempt) :
    health (as ++ [a]) = (health as).next a := by
  rw [health, List.foldl_append]
  rfl

/-- What the host sees of a module whose tables have these numbers: while the module has a table,
this table; otherwise the value, and no call that succeeds. -/
def Follows (refs : List ℕ) (records : List Record) : Prop :=
  ∀ before r after, records = before ++ r :: after →
    match health ((before ++ [r]).map Record.attempt) with
    | ⟨none, tables⟩ => ∃ ref, refs[tables - 1]? = some ref ∧ r.entry = .table ref
    | ⟨some v, _⟩ => r.entry = v ∧ (r.attempt.use ≠ .reload → r.ret = false)

/-- What is assumed of the code around an attempt: the source is as the attempt says, and the
callback leaves the module alone. -/
structure Attempt.Fair (loaded : ℕ) (m : Bytes) (needs : List Bytes) (a : Attempt) : Prop where
  gives : ∀ shared, Usable loaded needs shared → moduleEntry loaded m shared = .nil →
    a.source.Gives loaded m shared (a.load m shared).run
  short : ∀ func outPutFunc callBackFun, a.use = .call func outPutFunc callBackFun →
    (written (outPutFunc.getD [])).length ≤ 125
  callback : ∀ func outPutFunc cb, a.use = .call func outPutFunc (some cb) →
    ∀ input s, Leaves loaded m s.shared (finalState (cb input () s)).shared

/-! ## One attempt -/

section Attempt

/-- The end of a call changes nothing that is shared. -/
theorem popResults_shared (sh : Shared) (tarceIndex : ℤ) :
    Triple (fun s => s.shared = sh) (popResults tarceIndex)
      (fun ret s => ret = true ∧ s.shared = sh) (fun s => s.shared = sh) := by
  have pops : ∀ n : ℤ, Keeps (fun s => s.shared = sh) (pop n) := by
    intro n s hs
    rw [pop, settop, bind_ok (show (get : LuaM LuaState) s = .ok s s from rfl)]
    split
    · exact hs
    · exact hs
  refine Triple.bind (pops _) fun _ => ?_
  split
  · exact Triple.bind (pops 1) fun _ => .pure fun _ hs => ⟨rfl, hs⟩
  · exact .pure fun _ hs => ⟨rfl, hs⟩

variable {loaded : ℕ} {m : Bytes}

/-- A callback leaves the module alone, and an empty one does nothing. -/
theorem leaves_callNonNull {callback : IDataCallBackFuncType Unit}
    (hcallback : ∀ cb, callback = some cb → ∀ input s,
      Leaves loaded m s.shared (finalState (cb input () s)).shared)
    {ack : LuaInputStream} {s s' : LuaState} (h : callNonNull callback ack () s = .ok () s') :
    Leaves loaded m s.shared s'.shared := by
  cases callback with
  | none =>
      cases h
      exact .refl s.shared
  | some cb =>
      have hleaves := hcallback cb rfl ack s
      rw [show cb ack () s = _ from h] at hleaves
      exact hleaves

/-- **What the host sees of a call**: an error of its Lua code, or that this code has come to
its end, after which only the callback does something. -/
theorem callScriptFunc_ok {run : LuaRun} {func : Bytes} {outPutFunc : Option (List Write)}
    {callback : IDataCallBackFuncType Unit} (hle : (written (outPutFunc.getD [])).length ≤ 125)
    (hcallback : ∀ cb, callback = some cb → ∀ input s,
      Leaves loaded m s.shared (finalState (cb input () s)).shared)
    {s s' : LuaState} (hdefined : (s.shared.global callFunction).isFunction = true) {ret : Bool}
    (h : callScriptFunc run m func (outPutFunc.map writing) callback () s = .ok (ret, ()) s') :
    ∃ request : Request, request.args = scriptArgs m func (outPutFunc.getD []) ∧
      ((∃ message, ret = false ∧ run request s.shared = .error (.raised message) s'.shared) ∨
        ret = true ∧ ∃ results left, run request s.shared = .ok results left ∧
          Leaves loaded m left s'.shared) := by
  obtain ⟨stack, log, sh⟩ := s
  rw [callScriptFunc_eq run callback () stack log sh hle hdefined rfl] at h
  refine ⟨⟨sh.global callFunction, scriptArgs m func (outPutFunc.getD []), traceHandler sh⟩, rfl, ?_⟩
  cases hrun : run ⟨sh.global callFunction, scriptArgs m func (outPutFunc.getD []),
      traceHandler sh⟩ sh with
  | error fault shared =>
      rw [hrun] at h
      cases fault with
      | raised message =>
          cases h
          exact .inl ⟨message, rfl, rfl⟩
      | outOfBounds | nullPointer | endless => cases h
  | ok results shared =>
      rw [hrun] at h
      obtain ⟨_, s₁, hcb, hanswer⟩ := ok_of_bind h
      obtain ⟨_, s₂, hpop, hpure⟩ := ok_of_bind hanswer
      cases hpure
      have hs₁ : Leaves loaded m shared s₁.shared := leaves_callNonNull hcallback hcb
      obtain ⟨hret, hshared⟩ := (popResults_shared s₁.shared _).of_ok rfl hpop
      exact .inr ⟨hret, results, shared, rfl, hshared ▸ hs₁⟩

/-- What holds throughout: the tables of the module are different from each other. -/
structure Ready (loaded : ℕ) (needs : List Bytes) (refs : List ℕ) (sh : Shared) : Prop
    extends Usable loaded needs sh where
  sorted : refs.Pairwise (· < ·)
  bound : ∀ ref ∈ refs, loaded < ref ∧ sh.Bare (.table ref)

/-- The entry of the module is what its health says. -/
structure Stands (loaded : ℕ) (m : Bytes) (refs : List ℕ) (h : Health) (sh : Shared) : Prop where
  count : refs.length = h.tables
  table : h.value = none → ∃ ref, refs[h.tables - 1]? = some ref ∧ moduleEntry loaded m sh = .table ref
  value : ∀ v, h.value = some v → moduleEntry loaded m sh = v ∧ v.isScalar = true

variable {needs : List Bytes} {refs : List ℕ} {h : Health} {sh sh' : Shared} {ref : ℕ}

theorem Ready.extend (hr : Ready loaded needs refs sh) (hm : m ∉ needs)
    (he : Extends loaded m sh sh') : Ready loaded needs refs sh' where
  toUsable := hr.toUsable.extend hm he
  sorted := hr.sorted
  bound r hmem := ⟨(hr.bound r hmem).1, he.bare _ (hr.bound r hmem).2⟩

/-- Another table. -/
theorem Ready.concat (hr : Ready loaded needs refs sh) (hm : m ∉ needs)
    (he : Extends loaded m sh sh') (hnew : sh.tables.length ≤ ref) (hbare : sh'.Bare (.table ref)) :
    Ready loaded needs (refs ++ [ref]) sh' where
  toUsable := hr.toUsable.extend hm he
  sorted := by
    refine List.pairwise_append.mpr ⟨hr.sorted, List.pairwise_singleton _ _, ?_⟩
    intro r hr' r' hr''
    rw [List.mem_singleton.mp hr'']
    exact (lt_length_of_bare (hr.bound r hr').2).trans_le hnew
  bound r hmem := by
    rcases List.mem_append.mp hmem with hmem | hmem
    · exact (hr.extend hm he).bound r hmem
    · rw [List.mem_singleton.mp hmem]
      exact ⟨(lt_length_of_bare hr.loaded_bare).trans_le hnew, hbare⟩

/-- The module keeps what it has. -/
theorem Stands.keep (hs : Stands loaded m refs h sh)
    (hentry : moduleEntry loaded m sh' = moduleEntry loaded m sh) : Stands loaded m refs h sh' where
  count := hs.count
  table := hentry ▸ hs.table
  value := hentry ▸ hs.value

/-- The module has another table. -/
theorem Stands.concat (hs : Stands loaded m refs h sh) (hentry : moduleEntry loaded m sh' = .table ref) :
    Stands loaded m (refs ++ [ref]) (h.load .table) sh' where
  count := by
    rw [List.length_append, hs.count]
    rfl
  table _ := by
    refine ⟨ref, ?_, hentry⟩
    rw [Health.load, Nat.add_sub_cancel, ← hs.count, List.getElem?_concat_length]
  value v hv := by cases hv

/-- The module has a value, or no entry. -/
theorem Stands.scalar (hs : Stands loaded m refs h sh) {v : Value}
    (hentry : moduleEntry loaded m sh' = v) (hscalar : v.isScalar = true) :
    Stands loaded m refs { h with value := some v } sh' where
  count := hs.count
  table hnone := by cases hnone
  value w hw := by
    cases hw
    exact ⟨hentry, hscalar⟩

/-- What is in the entry has no metatable. -/
theorem Stands.bare (hs : Stands loaded m refs h sh) (hr : Ready loaded needs refs sh) :
    sh.Bare (moduleEntry loaded m sh) := by
  cases hvalue : h.value with
  | none =>
      obtain ⟨ref, href, hentry⟩ := hs.table hvalue
      rw [hentry]
      exact (hr.bound ref (List.mem_of_getElem? href)).2
  | some v =>
      obtain ⟨hentry, hscalar⟩ := hs.value v hvalue
      rw [hentry]
      exact hr.scalars_bare v hscalar

theorem Stands.ne_loaded (hs : Stands loaded m refs h sh) (hr : Ready loaded needs refs sh) :
    moduleEntry loaded m sh ≠ .table loaded := by
  cases hvalue : h.value with
  | none =>
      obtain ⟨ref, href, hentry⟩ := hs.table hvalue
      have hlt := (hr.bound ref (List.mem_of_getElem? href)).1
      rw [hentry]
      rintro ⟨rfl⟩
      exact absurd hlt (Nat.lt_irrefl _)
  | some v =>
      obtain ⟨hentry, hscalar⟩ := hs.value v hvalue
      rw [hentry]
      rintro rfl
      cases hscalar

/-- What counts as false in the entry is none. -/
theorem Stands.eq_nil (hs : Stands loaded m refs h sh)
    (hfalse : ¬(moduleEntry loaded m sh).truthy = true) : moduleEntry loaded m sh = .nil := by
  cases hvalue : h.value with
  | none =>
      obtain ⟨ref, -, hentry⟩ := hs.table hvalue
      rw [hentry] at hfalse
      exact absurd rfl hfalse
  | some v =>
      obtain ⟨hentry, hscalar⟩ := hs.value v hvalue
      rw [hentry] at hfalse ⊢
      exact eq_nil_of_isScalar hscalar hfalse

/-- After an attempt there may be tables more. -/
def Continues (loaded : ℕ) (m : Bytes) (needs : List Bytes) (refs : List ℕ) (h : Health)
    (sh : Shared) : Prop :=
  ∃ new, Ready loaded needs (refs ++ new) sh ∧ Stands loaded m (refs ++ new) h sh

theorem Continues.same (hr : Ready loaded needs refs sh) (hs : Stands loaded m refs h sh) :
    Continues loaded m needs refs h sh :=
  ⟨[], by rwa [List.append_nil], by rwa [List.append_nil]⟩

variable {s s' : LuaState} {ret : Bool} {a : Attempt}

/-- What the Lua code of a call comes to, `r`, and the callback makes of it. -/
theorem call_ends {rounds : ℕ} {apply : Value → List Value → Shared → Script} (hcstr : cstr m = m)
    (ha : a.Fair loaded m needs) {func : Bytes} {outPutFunc : Option (List Write)}
    {callBackFun : IDataCallBackFuncType Unit} (huse : a.use = .call func outPutFunc callBackFun)
    (hrun : a.run rounds loaded m apply s = .ok ret s')
    (hdefined : (s.shared.global callFunction).isFunction = true) :
    ∃ fn handler r, (linkCall (stdRequire loaded a.load) apply
        ⟨fn, .string m :: .string (cstr func) :: written (outPutFunc.getD []), handler⟩
          s.shared).run = r ∧
      Leaves loaded m (finalState r) s'.shared ∧
      ∀ message left, r = .error (.raised message) left → ret = false ∧ s'.shared = left := by
  simp only [Attempt.run, huse] at hrun
  obtain ⟨⟨ret', u⟩, s₁, hcall, hpure⟩ := ok_of_bind hrun
  obtain ⟨rfl, rfl⟩ : ret = ret' ∧ s' = s₁ := by
    cases hpure
    exact ⟨rfl, rfl⟩
  obtain ⟨⟨fn, args, handler⟩, hargs, hends⟩ := callScriptFunc_ok (ha.short _ _ _ huse)
    (fun cb hcb => ha.callback func outPutFunc cb (hcb ▸ huse)) hdefined hcall
  obtain rfl : args = .string m :: .string (cstr func) :: written (outPutFunc.getD []) := by
    rw [show args = _ from hargs, scriptArgs, cstringValue, cstringValue, hcstr]
  refine ⟨fn, handler, _, rfl, ?_⟩
  rcases hends with ⟨message, hret, herror⟩ | ⟨-, results, left, hok, hleaves⟩
  · rw [herror]
    refine ⟨.refl _, ?_⟩
    rintro _ _ ⟨⟩
    exact ⟨hret, rfl⟩
  · rw [hok]
    exact ⟨hleaves, by rintro _ _ ⟨⟩⟩

/-- **A call** of a module with a table, with a value or without an entry. -/
theorem call_attempt {rounds : ℕ} {apply : Value → List Value → Shared → Script}
    (happly : ∀ f args shared, Leaves loaded m shared (finalState (apply f args shared).run))
    (hcstr : cstr m = m) (hm : m ∉ needs) (ha : a.Fair loaded m needs) {func : Bytes}
    {outPutFunc : Option (List Write)} {callBackFun : IDataCallBackFuncType Unit}
    (huse : a.use = .call func outPutFunc callBackFun)
    (hrun : a.run rounds loaded m apply s = .ok ret s') (hr : Ready loaded needs refs s.shared)
    (hs : Stands loaded m refs h s.shared) :
    Continues loaded m needs refs (h.next a) s'.shared ∧ ((h.next a).value ≠ none → ret = false) := by
  obtain ⟨fn, handler, r, hlua, hbehind, hfails⟩ := call_ends hcstr ha huse hrun hr.call_defined
  cases hvalue : h.value with
  | none =>
      obtain ⟨ref, href, hentry⟩ := hs.table hvalue
      have htruthy : (moduleEntry loaded m s.shared).truthy = true := by
        rw [hentry]
        rfl
      have hlink := leaves_linkCall apply (cstr func) (written (outPutFunc.getD [])) fn handler happly
        (run_stdRequire_loaded a.load htruthy) hentry
        (hr.bound ref (List.mem_of_getElem? href)).2
      rw [hlua] at hlink
      have hleaves := hlink.trans hbehind
      have hnext : h.next a = h := by rw [Health.next, huse, hvalue]
      rw [hnext]
      exact ⟨.same (hr.extend hm hleaves.toExtends) (hs.keep hleaves.entry_eq),
        fun hne => absurd hvalue hne⟩
  | some v =>
      obtain ⟨hentry, hscalar⟩ := hs.value v hvalue
      by_cases htruthy : v.truthy = true
      · obtain ⟨message, herror⟩ := linkCall_scalar apply (cstr func)
          (written (outPutFunc.getD [])) fn handler (run_stdRequire_loaded a.load (hentry ▸ htruthy))
          hentry hscalar (hr.scalars_bare v hscalar)
        obtain ⟨hret, hshared⟩ := hfails message _ (hlua.symm.trans herror)
        have hnext : h.next a = h := by
          rw [Health.next, huse, hvalue]
          exact if_pos htruthy
        rw [hnext, hshared]
        exact ⟨.same hr hs, fun _ => hret⟩
      · have hnil : moduleEntry loaded m s.shared = .nil :=
          hentry.trans (eq_nil_of_isScalar hscalar htruthy)
        have hnext : h.next a = h.load a.source := by
          rw [Health.next, huse, hvalue]
          exact if_neg htruthy
        obtain ⟨after, hafter, hext, hends⟩ := linkCall_spec apply (cstr func)
          (written (outPutFunc.getD [])) fn handler happly hm hr.toUsable hnil
          (ha.gives _ hr.toUsable hnil)
        rw [hlua] at hafter hends
        rw [hnext]
        cases hsource : a.source with
        | table =>
            rw [hsource] at hends
            obtain ⟨ref, htable, hnew, hbare⟩ := hends
            rw [hafter] at hbehind
            exact ⟨⟨[ref], hr.concat hm (hext.trans hbehind.toExtends) hnew (hbehind.bare _ hbare),
              hs.concat (hbehind.entry_eq.trans htable)⟩, fun hne => absurd rfl hne⟩
        | value w =>
            rw [hsource] at hends
            obtain ⟨⟨message, herror⟩, hrecorded, hscalar'⟩ := hends
            obtain ⟨hret, hshared⟩ := hfails message after herror
            rw [hshared]
            exact ⟨.same (hr.extend hm hext) (hs.scalar hrecorded (recorded_isScalar hscalar').1),
              fun _ => hret⟩
        | error =>
            rw [hsource] at hends
            obtain ⟨⟨message, herror⟩, hgone⟩ := hends
            obtain ⟨hret, hshared⟩ := hfails message after herror
            rw [hshared]
            exact ⟨.same (hr.extend hm hext) (hs.scalar hgone rfl), fun _ => hret⟩

/-- A module is unloaded: its table is the old value, or a new one is if it has no entry. -/
theorem exists_unload (hr : Ready loaded needs refs sh) (hs : Stands loaded m refs h sh) :
    ∃ oldMod unloaded, unload loaded m sh = .ok oldMod unloaded ∧ Extends loaded m sh unloaded ∧
      moduleEntry loaded m unloaded = .nil ∧ unloaded.Bare oldMod ∧ oldMod ≠ .table loaded ∧
      (∀ ref, moduleEntry loaded m sh = .table ref → oldMod = .table ref) ∧
      ((∀ ref, moduleEntry loaded m sh ≠ .table ref) →
        ∀ old, oldMod = .table old → sh.tables.length ≤ old) := by
  by_cases htruthy : (moduleEntry loaded m sh).truthy = true
  · have hremoved : Extends loaded m sh (sh.assign loaded (.string m) .nil) := extends_entry sh .nil
    exact ⟨_, _, unload_truthy htruthy, hremoved, moduleEntry_assign loaded m sh _,
      hremoved.bare _ (hs.bare hr), hs.ne_loaded hr, fun ref href => href,
      fun hnot old heq => absurd heq (hnot old)⟩
  · have hnil := hs.eq_nil htruthy
    have hnew : Extends loaded m sh sh.newTable.2 := extends_newTable sh
    have hentry : Extends loaded m sh.newTable.2 (sh.newTable.2.assign loaded (.string m) .nil) :=
      extends_entry sh.newTable.2 .nil
    refine ⟨_, _, unload_nil hr.loaded_bare hnil, hnew.trans hentry, moduleEntry_assign loaded m _ _,
      hentry.bare _ (bare_newTable sh), ?_, fun ref href => ?_, fun _ old heq => ?_⟩
    · have hlt := lt_length_of_bare hr.loaded_bare
      rintro ⟨rfl⟩
      exact absurd hlt (Nat.lt_irrefl _)
    · rw [hnil] at href
      cases href
    · cases heq
      exact le_rfl

/-- **A reload** of a module with a table, with a value or without an entry. -/
theorem reload_attempt {rounds : ℕ} {apply : Value → List Value → Shared → Script}
    (hcstr : cstr m = m) (hm : m ∉ needs) (ha : a.Fair loaded m needs) (huse : a.use = .reload)
    (hrun : a.run rounds loaded m apply s = .ok ret s') (hr : Ready loaded needs refs s.shared)
    (hs : Stands loaded m refs h s.shared) : Continues loaded m needs refs (h.next a) s'.shared := by
  obtain ⟨stack, log, sh⟩ := s
  simp only [Attempt.run, huse] at hrun
  obtain ⟨_, s₁, hreload, hpure⟩ := ok_of_bind hrun
  cases hpure
  rw [reloadScript_eq _ _ _ _ _ hr.reload_defined, cstringValue, hcstr] at hreload
  dsimp only at hreload hr hs
  obtain ⟨oldMod, unloaded, hunload, hext, hnil, hold, hne, hsame, hfresh⟩ := exists_unload hr hs
  obtain ⟨after, hpasses, hafter, hends⟩ := linkReload_spec rounds hm hr.toUsable hunload hext hnil
    (ha.gives _ (hr.toUsable.extend hm hext) hnil) hold hne (sh.global (ascii "reload")) []
    (traceHandler sh)
  have hshared : s'.shared = after := by
    rcases hpasses with hok | ⟨message, herror⟩
    · rw [hok] at hreload
      cases hreload
      rfl
    · rw [herror] at hreload
      cases hreload
      rfl
  rw [hshared]
  cases hsource : a.source with
  | table =>
      rw [hsource] at hends
      obtain ⟨ref, hentry, hbare, hback, hnew⟩ := hends
      cases hvalue : h.value with
      | none =>
          obtain ⟨old, -, hbefore⟩ := hs.table hvalue
          have hnext : h.next a = h := by rw [Health.next, huse, hvalue, hsource]
          rw [hnext]
          refine .same (hr.extend hm hafter) (hs.keep ?_)
          rw [hentry, hbefore, hback old (hsame old hbefore)]
      | some v =>
          obtain ⟨hbefore, hscalar⟩ := hs.value v hvalue
          have hnot : ∀ ref, moduleEntry loaded m sh ≠ .table ref := by
            intro ref href
            rw [← hbefore, href] at hscalar
            cases hscalar
          have hnext : h.next a = h.load .table := by rw [Health.next, huse, hvalue, hsource]
          have hle : sh.tables.length ≤ ref := by
            by_cases htable : ∃ old, oldMod = .table old
            · obtain ⟨old, hoid⟩ := htable
              rw [hback old hoid]
              exact hfresh hnot old hoid
            · exact hext.tables_le.trans (hnew fun old heq => htable ⟨old, heq⟩)
          rw [hnext]
          exact ⟨[ref], hr.concat hm hafter hle hbare, hs.concat hentry⟩
  | value w =>
      rw [hsource] at hends
      have hnext : h.next a = h.load (.value w) := by
        rw [Health.next, huse, hsource]
        cases h.value <;> rfl
      rw [hnext]
      exact .same (hr.extend hm hafter) (hs.scalar hends.1 (recorded_isScalar hends.2).1)
  | error =>
      rw [hsource] at hends
      have hnext : h.next a = h.load .error := by
        rw [Health.next, huse, hsource]
        cases h.value <;> rfl
      rw [hnext]
      exact .same (hr.extend hm hafter) (hs.scalar hends rfl)

end Attempt

/-! ## Sessions follow the health of the module -/

section Sessions

variable {rounds loaded : ℕ} {m : Bytes} {apply : Value → List Value → Shared → Script}
  {needs : List Bytes} {refs : List ℕ}

/-- One more attempt, and the tables that come with it. -/
theorem Follows.concat {records : List Record} (hf : Follows refs records) {new : List ℕ} {r : Record}
    (hr : match health ((records ++ [r]).map Record.attempt) with
      | ⟨none, tables⟩ => ∃ ref, (refs ++ new)[tables - 1]? = some ref ∧ r.entry = .table ref
      | ⟨some v, _⟩ => r.entry = v ∧ (r.attempt.use ≠ .reload → r.ret = false)) :
    Follows (refs ++ new) (records ++ [r]) := by
  intro before r' after heq
  rcases List.eq_nil_or_concat after with rfl | ⟨rest, last, rfl⟩
  · obtain ⟨rfl, hlast⟩ := List.append_inj' heq rfl
    obtain rfl : r = r' := (List.cons.inj hlast).1
    exact hr
  · have hsplit : records = before ++ r' :: rest := by
      rw [List.concat_eq_append, ← List.cons_append, ← List.append_assoc] at heq
      exact (List.append_inj' heq rfl).1
    have hbefore := hf before r' rest hsplit
    generalize health ((before ++ [r']).map Record.attempt) = h at hbefore ⊢
    obtain ⟨value | v, tables⟩ := h
    · obtain ⟨ref, hget, hentry⟩ := hbefore
      obtain ⟨hlt, -⟩ := List.getElem?_eq_some_iff.mp hget
      exact ⟨ref, by rw [List.getElem?_append_left hlt, hget], hentry⟩
    · exact hbefore

/-- The records agree with the health of the module. -/
structure Session.Follows (loaded : ℕ) (m : Bytes) (needs : List Bytes) (refs : List ℕ) (s : Session) :
    Prop where
  ready : Ready loaded needs refs s.lua.shared
  stands : Stands loaded m refs (health (s.records.map Record.attempt)) s.lua.shared
  follows : SeedCore.Lua.Follows refs s.records

/-- **One attempt**, and perhaps one table more. -/
theorem Session.Follows.step
    (happly : ∀ f args shared, Leaves loaded m shared (finalState (apply f args shared).run))
    (hcstr : cstr m = m) (hm : m ∉ needs) {s t : Session} {a : Attempt} (ha : a.Fair loaded m needs)
    (hs : s.Follows loaded m needs refs) (hstep : s.step rounds loaded m apply a = some t) :
    ∃ new, t.Follows loaded m needs (refs ++ new) := by
  unfold Session.step at hstep
  split at hstep
  · next ret lua hrun =>
      cases hstep
      have hhealth : health ((s.records ++ [Record.mk a ret (moduleEntry loaded m
          lua.shared)]).map Record.attempt) = (health (s.records.map Record.attempt)).next a := by
        rw [List.map_append, List.map_singleton, health_concat]
      obtain ⟨new, hr, hst, hret⟩ : ∃ new, Ready loaded needs (refs ++ new) lua.shared ∧
          Stands loaded m (refs ++ new) ((health (s.records.map Record.attempt)).next a) lua.shared ∧
          (((health (s.records.map Record.attempt)).next a).value ≠ none → a.use ≠ .reload →
            ret = false) := by
        cases huse : a.use with
        | call func outPutFunc callBackFun =>
            obtain ⟨⟨new, hr, hst⟩, hret⟩ :=
              call_attempt happly hcstr hm ha huse hrun hs.ready hs.stands
            exact ⟨new, hr, hst, fun hdown _ => hret hdown⟩
        | reload =>
            obtain ⟨new, hr, hst⟩ := reload_attempt hcstr hm ha huse hrun hs.ready hs.stands
            exact ⟨new, hr, hst, fun _ hne => absurd rfl hne⟩
      refine ⟨new, hr, hhealth ▸ hst, hs.follows.concat ?_⟩
      rw [hhealth]
      generalize (health (s.records.map Record.attempt)).next a = h at hst hret
      obtain ⟨value | v, tables⟩ := h
      · exact hst.table rfl
      · exact ⟨(hst.value v rfl).1, hret (by simp)⟩
  · cases hstep

end Sessions

section Examples

variable (m : Bytes) {needs : List Bytes} {use : Use} (huse : use = echoUse ∨ use = .reload)
include huse

end Examples

end SeedCore.Lua
