import SeedCore.Lua.State

/-!
# Tables that change

Assignments to the fields of tables, and the traversal of a table.  A field whose value is `nil`
is not there.  An assignment to a field that a table does not have goes through the field
`__newindex` of its metatable, and a traversal through the field `__pairs`.

## Main definitions

* `Table.put`, `Shared.assign` — an assignment to a field of the table itself.
* `setindex` — the assignment `t[key] = v`.
* `Shared.Takes` — no metatable takes part in an assignment.
* `Shared.newTable` — the constructor `{}`.
* `forPairs` — the loop `for k, v in pairs(t)`.

## Main results

* `setindex_taken` — an assignment that no metatable takes part in.
* `forPairs_assign` — the loop that copies the fields of one table into another.
-/

namespace SeedCore.Lua

/-- The table with another value for a key. -/
def Table.put (t : Table) (key v : Value) : Table := if v.isNil then t.erase key else t.insert key v

@[simp] theorem Table.get_put (t : Table) (key v k : Value) :
    Table.get (t.put key v) k = if k = key then v else Table.get t k := by
  by_cases hk : k = key
  · subst hk
    by_cases hnil : v.isNil = true
    · simp [Table.get, Table.put, Value.eq_nil_of_isNil hnil, Value.isNil]
    · simp [Table.get, Table.put, hnil]
  · by_cases hnil : v.isNil = true
    · simp [Table.get, Table.put, hnil, hk, AList.lookup_erase_ne hk]
    · simp [Table.get, Table.put, hnil, hk, AList.lookup_insert_ne hk]

namespace Shared

variable (sh : Shared)

/-- The table object of a number gets another value for a key. -/
def assign (ref : ℕ) (key v : Value) : Shared :=
  let room := List.replicate (ref + 1 - sh.tables.length) ∅
  { sh with tables := (sh.tables ++ room).set ref ((sh.table ref).put key v) }

/-- The constructor `{}`: the new table, and the state in which it is there. -/
def newTable : Value × Shared :=
  (.table sh.tables.length, { sh with
    tables := sh.tables ++ [∅]
    metatables := sh.metatables.put (.table sh.tables.length) .nil })

/-- The keys that a traversal comes across. -/
def keys : Value → Option (List Value)
  | .table ref => some ((sh.table ref).keys.filter Value.isKey)
  | .record _ _ => some [.string ptrIndex, .string typeIndex]
  | _ => none

/-- An assignment to a field of this table is not passed on: the table has the field, or its
metatable does not name `__newindex`. -/
def Takes (ref : ℕ) (key : Value) : Prop :=
  Table.get (sh.table ref) key ≠ .nil ∨ sh.metafield (.table ref) (ascii "__newindex") = .nil

/-- The table takes all these fields, in any order. -/
def TakesAll (ref : ℕ) (fields : List (Value × Value)) : Prop :=
  ∀ e ∈ fields, sh.Takes ref e.1 ∧
    (Table.get sh.metatables (.table ref) = .table ref → e.1 ≠ .string (ascii "__newindex"))

/-- Assignments to the fields of one table, one after the other. -/
def assignAll (ref : ℕ) (fields : List (Value × Value)) : Shared :=
  fields.foldl (fun sh e => sh.assign ref e.1 e.2) sh

end Shared

/-! ## Assignments -/

/-- A field of the table itself. -/
def setraw (ref : ℕ) (key v : Value) : Code Unit :=
  if key.isNil then throw (.raised (.string (ascii "table index is nil")))
  else if key.isNaN then throw (.raised (.string (ascii "table index is NaN")))
  else modify fun sh => sh.assign ref key.normal v

/-- `t[key] = v`, from metatable to metatable. -/
def setindexFrom : ℕ → Value → Value → Value → Code Unit
  | 0, _, _, _ => throw (.raised (.string (ascii "'__newindex' chain too long; possibly a loop")))
  | left + 1, t, key, v => do
      let sh ← get
      match t, ((sh.rawget t key).getD .nil).isNil, sh.metafield t (ascii "__newindex") with
      | .table ref, false, _ => setraw ref key v
      | .table ref, true, .nil => setraw ref key v
      | t, _, .nil => throw (typeError "index" t)
      | t, _, .function id => do
          let _ ← runFunction id [t, key, v]
          pure ()
      | _, _, next => setindexFrom left next key v

/-- `t[key] = v` -/
def setindex (t key v : Value) : Code Unit := setindexFrom maxTagLoop t key v

/-! ## Traversals -/

/-- What a traversal of a value that is not a table raises. -/
def notTraversable (v : Value) : Value :=
  .string (ascii ("bad argument #1 to 'for iterator' (table expected, got " ++ v.typename ++ ")"))

/-- The loop over these keys of a table, whose values may change on the way. -/
def forNext (t : Value) (body : Value → Value → Code Unit) : List Value → Code Unit
  | [] => pure ()
  | k :: ks => do
      let sh ← get
      let v := (sh.rawget t k).getD .nil
      if v.isNil then forNext t body ks
      else do
        body k v
        forNext t body ks

/-- The loop with an iterator `f`, so many rounds of it. -/
def forCall (f s : Value) (body : Value → Value → Code Unit) : ℕ → Value → Code Unit
  | 0, _ => throw .endless
  | left + 1, control => do
      let results ← callValue f [s, control]
      if (results.headD .nil).isNil then pure ()
      else do
        body (results.headD .nil) (results.getD 1 .nil)
        forCall f s body left (results.headD .nil)

/-- `for k, v in pairs(t) do body end`, where a loop with an iterator of a script has at most
`rounds` rounds. -/
def forPairs (rounds : ℕ) (t : Value) (body : Value → Value → Code Unit) : Code Unit := do
  let sh ← get
  match sh.metafield t (ascii "__pairs"), sh.keys t with
  | .nil, some keys => forNext t body keys
  | .nil, none => throw (.raised (notTraversable t))
  | f, _ => do
      let results ← callValue f [t]
      forCall (results.headD .nil) (results.getD 1 .nil) body rounds (results.getD 2 .nil)

/-! ## What is there after an assignment -/

theorem isKey_iff {v : Value} :
    v.isKey = true ↔ v.normal = v ∧ v.isNil = false ∧ v.isNaN = false := by
  simp only [Value.isKey, Bool.and_eq_true, beq_iff_eq, Bool.not_eq_true', and_assoc]

@[simp] theorem isKey_string (s : Bytes) : (Value.string s).isKey = true :=
  isKey_iff.mpr ⟨rfl, rfl, rfl⟩

section Assign

variable (sh : Shared)

@[simp] theorem metatables_assign (ref : ℕ) (key v : Value) :
    (sh.assign ref key v).metatables = sh.metatables := rfl

theorem table_assign (ref r : ℕ) (key v : Value) :
    (sh.assign ref key v).table r = if r = ref then (sh.table ref).put key v else sh.table r := by
  have hlen : ref < (sh.tables ++ List.replicate (ref + 1 - sh.tables.length) (∅ : Table)).length := by
    simp only [List.length_append, List.length_replicate]
    omega
  by_cases hr : r = ref
  · subst hr
    rw [if_pos rfl, Shared.table, Shared.assign, List.getElem?_set_self hlen]
    rfl
  · rw [if_neg hr, Shared.table, Shared.assign, List.getElem?_set_ne (Ne.symm hr), Shared.table]
    by_cases hold : r < sh.tables.length
    · rw [List.getElem?_append_left hold]
    · -- a number that stands for no table
      rw [List.getElem?_append_right (by omega), List.getElem?_eq_none (l := sh.tables) (by omega),
        List.getElem?_replicate]
      split <;> rfl

/-- **An assignment** changes one field of one table. -/
@[simp] theorem get_assign (ref r : ℕ) (key v k : Value) :
    Table.get ((sh.assign ref key v).table r) k =
      if r = ref ∧ k = key then v else Table.get (sh.table r) k := by
  rw [table_assign]
  by_cases hr : r = ref
  · subst hr
    rw [if_pos rfl, Table.get_put]
    simp
  · simp [hr]

/-- A new table has no fields, and the others are as they were. -/
@[simp] theorem table_newTable (r : ℕ) : sh.newTable.2.table r = sh.table r := by
  simp only [Shared.table, Shared.newTable]
  by_cases hlt : r < sh.tables.length
  · rw [List.getElem?_append_left hlt]
  · rw [List.getElem?_append_right (by omega), List.getElem?_eq_none (l := sh.tables) (by omega)]
    cases r - sh.tables.length <;> rfl

/-- The metatable of a value has the fields that it had, unless it is that table. -/
theorem metafield_assign {ref : ℕ} {v key : Value} {event : Bytes}
    (h : Table.get sh.metatables v = .table ref → key ≠ .string event) (x : Value) :
    (sh.assign ref key x).metafield v event = sh.metafield v event := by
  rw [Shared.metafield, Shared.metafield, metatables_assign]
  cases hmeta : Table.get sh.metatables v with
  | table r =>
      dsimp only
      rw [get_assign, if_neg]
      rintro ⟨rfl, heq⟩
      exact h hmeta heq.symm
  | _ => rfl

variable {sh} {ref : ℕ} {key v : Value}

/-- **A table that takes an assignment itself** gets the field. -/
theorem setindex_taken (hkey : key.isKey = true) (h : sh.Takes ref key) :
    setindex (.table ref) key v sh = .ok () (sh.assign ref key v) := by
  obtain ⟨hnormal, hnil, hnan⟩ := isKey_iff.mp hkey
  have hraw : setraw ref key v sh = .ok () (sh.assign ref key v) := by
    rw [setraw, hnil, hnan, hnormal]
    rfl
  have hfield : (sh.rawget (.table ref) key).getD .nil = Table.get (sh.table ref) key := by
    rw [Shared.rawget, hnormal, Option.getD_some]
  rw [setindex, maxTagLoop, setindexFrom, bind_ok (show (get : Code Shared) sh = .ok sh sh from rfl),
    hfield]
  by_cases hthere : Table.get (sh.table ref) key = .nil
  · have htrue : (Value.nil).isNil = true := rfl
    simp only [hthere, htrue, h.resolve_left (not_not.mpr hthere), hraw]
  · simp only [Value.isNil_eq_false_iff.mpr hthere, hraw]

/-- **A field that the table has** is changed without its metatable. -/
theorem setindex_own {s : Bytes} (h : Table.get (sh.table ref) (.string s) ≠ .nil) :
    setindex (.table ref) (.string s) v sh = .ok () (sh.assign ref (.string s) v) :=
  setindex_taken (isKey_string s) (.inl h)

/-- **Any field** is, if the metatable does not name `__newindex`. -/
theorem setindex_plain (hkey : key.isKey = true)
    (h : sh.metafield (.table ref) (ascii "__newindex") = .nil) :
    setindex (.table ref) key v sh = .ok () (sh.assign ref key v) :=
  setindex_taken hkey (.inr h)

/-- A table takes its fields also after it has got one of them. -/
theorem takesAll_assign {fields : List (Value × Value)} (h : sh.TakesAll ref fields)
    {e : Value × Value} (he : e ∈ fields) (hv : e.2 ≠ .nil) :
    (sh.assign ref e.1 e.2).TakesAll ref fields := by
  intro e' he'
  obtain ⟨htakes, hother⟩ := h e' he'
  refine ⟨?_, hother⟩
  rcases htakes with hthere | hplain
  · left
    rw [get_assign]
    split
    · exact hv
    · exact hthere
  · right
    rw [metafield_assign sh (h e he).2, hplain]

/-- What is no table has no fields to assign to. -/
theorem setindex_error {t : Value} (ht : ∀ ref, t ≠ .table ref)
    (h : sh.metafield t (ascii "__newindex") = .nil) :
    setindex t key v sh = .error (typeError "index" t) sh := by
  rw [setindex, maxTagLoop, setindexFrom, bind_ok (show (get : Code Shared) sh = .ok sh sh from rfl)]
  cases t with
  | table ref => exact absurd rfl (ht ref)
  | _ => simp only [h]; rfl

end Assign

/-! ## What a loop comes across -/

/-- The fields of these keys. -/
def fieldsAt (get : Value → Value) (keys : List Value) : List (Value × Value) :=
  (keys.map fun k => (k, get k)).filter fun e => !e.2.isNil

/-- The value of a key, for a traversal. -/
def Shared.field (sh : Shared) (t key : Value) : Value := (sh.rawget t key).getD .nil

/-- The fields of a table, each once. -/
def Shared.fields (sh : Shared) (t : Value) : List (Value × Value) :=
  fieldsAt (sh.field t) ((sh.keys t).getD [])

theorem mem_fieldsAt {get : Value → Value} {keys : List Value} {k v : Value} :
    (k, v) ∈ fieldsAt get keys ↔ k ∈ keys ∧ v ≠ .nil ∧ get k = v := by
  simp only [fieldsAt, List.mem_filter, List.mem_map, Prod.mk.injEq, Bool.not_eq_true',
    Value.isNil_eq_false_iff]
  constructor
  · rintro ⟨⟨k', hk', rfl, rfl⟩, hv⟩
    exact ⟨hk', hv, rfl⟩
  · rintro ⟨hk, hv, rfl⟩
    exact ⟨⟨k, hk, rfl, rfl⟩, hv⟩

theorem fieldsAt_cons (get : Value → Value) (k : Value) (keys : List Value) :
    fieldsAt get (k :: keys) =
      if (get k).isNil then fieldsAt get keys else (k, get k) :: fieldsAt get keys := by
  rw [fieldsAt, List.map_cons, List.filter_cons]
  cases (get k).isNil <;> rfl

theorem nodup_fieldsAt {get : Value → Value} {keys : List Value} (h : keys.Nodup) :
    ((fieldsAt get keys).map Prod.fst).Nodup := by
  have hkeys : ((keys.map fun k => (k, get k)).map Prod.fst) = keys := by
    rw [List.map_map]
    exact List.map_id keys
  exact (hkeys ▸ h).sublist (List.filter_sublist.map _)

section Fields

variable (sh : Shared) (ref : ℕ)

theorem field_table {key : Value} (h : key.isKey = true) :
    sh.field (.table ref) key = Table.get (sh.table ref) key := by
  rw [Shared.field, Shared.rawget, (isKey_iff.mp h).1]
  rfl

theorem mem_fields {k v : Value} : (k, v) ∈ sh.fields (.table ref) ↔
    k.isKey = true ∧ v ≠ .nil ∧ Table.get (sh.table ref) k = v := by
  rw [Shared.fields, mem_fieldsAt, Shared.keys, Option.getD_some, List.mem_filter]
  constructor
  · rintro ⟨⟨-, hkey⟩, hv, hget⟩
    exact ⟨hkey, hv, by rw [← field_table sh ref hkey, hget]⟩
  · rintro ⟨hkey, hv, hget⟩
    refine ⟨⟨?_, hkey⟩, hv, by rw [field_table sh ref hkey, hget]⟩
    by_contra hout
    rw [Table.get, AList.lookup_eq_none.mpr hout] at hget
    exact hv hget.symm

variable {sh} in
theorem ne_nil_of_mem_fields {t : Value} {e : Value × Value} (h : e ∈ sh.fields t) : e.2 ≠ .nil :=
  (mem_fieldsAt.mp h).2.1

theorem nodup_fields : ((sh.fields (.table ref)).map Prod.fst).Nodup :=
  nodup_fieldsAt ((sh.table ref).keys_nodup.filter _)

theorem isKey_of_mem_keys {t : Value} {keys : List Value} (h : sh.keys t = some keys) :
    ∀ k ∈ keys, k.isKey = true := by
  cases t with
  | table ref =>
      cases h
      exact fun k hk => (List.mem_filter.mp hk).2
  | record ptr type =>
      cases h
      decide
  | _ => cases h

variable {ref}

theorem get_assignAll_of_notMem {fields : List (Value × Value)} {k : Value}
    (h : k ∉ fields.map Prod.fst) :
    Table.get ((sh.assignAll ref fields).table ref) k = Table.get (sh.table ref) k := by
  induction fields generalizing sh with
  | nil => rfl
  | cons e fields ih =>
      rw [List.map_cons, List.mem_cons, not_or] at h
      rw [Shared.assignAll, List.foldl_cons]
      refine (ih (sh.assign ref e.1 e.2) h.2).trans ?_
      rw [get_assign, if_neg (by simp [h.1])]

/-- A field that is there stays there. -/
theorem get_assignAll_ne_nil {r : ℕ} {fields : List (Value × Value)} {k : Value}
    (hvalues : ∀ e ∈ fields, e.2 ≠ .nil) (h : Table.get (sh.table r) k ≠ .nil) :
    Table.get ((sh.assignAll ref fields).table r) k ≠ .nil := by
  induction fields generalizing sh with
  | nil => exact h
  | cons e fields ih =>
      rw [List.forall_mem_cons] at hvalues
      refine ih (sh.assign ref e.1 e.2) hvalues.2 ?_
      rw [get_assign]
      split
      · exact hvalues.1
      · exact h

/-- **Assignments to different fields** are all there in the end. -/
theorem get_assignAll_of_mem {fields : List (Value × Value)} {k v : Value}
    (hnodup : (fields.map Prod.fst).Nodup) (h : (k, v) ∈ fields) :
    Table.get ((sh.assignAll ref fields).table ref) k = v := by
  induction fields generalizing sh with
  | nil => cases h
  | cons e fields ih =>
      rw [List.map_cons, List.nodup_cons] at hnodup
      rw [Shared.assignAll, List.foldl_cons]
      rcases List.mem_cons.mp h with rfl | h
      · refine (get_assignAll_of_notMem (sh.assign ref k v) hnodup.1).trans ?_
        rw [get_assign, if_pos ⟨rfl, rfl⟩]
      · exact ih (sh.assign ref e.1 e.2) hnodup.2 h

end Fields

section Loops

variable (t : Value) (body : Value → Value → Code Unit)

/-- **A loop whose body leaves the fields alone** goes over those that were there. -/
theorem forNext_eq_forM (keys : List Value) (get : Value → Value) (I : Shared → Prop)
    (hget : ∀ sh, I sh → ∀ k ∈ keys, sh.field t k = get k)
    (hbody : ∀ k ∈ keys, get k ≠ .nil → Keeps I (body k (get k))) {sh : Shared} (hI : I sh) :
    forNext t body keys sh = forM (fieldsAt get keys) (fun e => body e.1 e.2) sh := by
  induction keys generalizing sh with
  | nil => rfl
  | cons k keys ih =>
      have hrest : ∀ sh, I sh → _ := fun sh => ih
        (fun sh hI k' hk' => hget sh hI k' (List.mem_cons_of_mem _ hk'))
        (fun k' hk' => hbody k' (List.mem_cons_of_mem _ hk'))
      rw [forNext, bind_ok (show (MonadState.get : Code Shared) sh = .ok sh sh from rfl)]
      have hfield := hget sh hI k List.mem_cons_self
      rw [Shared.field] at hfield
      simp only [hfield]
      by_cases hnil : (get k).isNil = true
      · rw [if_pos hnil, hrest sh hI, fieldsAt_cons, if_pos hnil]
      · rw [if_neg hnil, fieldsAt_cons, if_neg hnil, List.forM_cons]
        have hkept := hbody k List.mem_cons_self
          (Value.isNil_eq_false_iff.mp (Bool.not_eq_true _ ▸ hnil)) sh hI
        cases hrun : body k (get k) sh with
        | error fault sh' => rw [bind_error hrun, bind_error hrun]
        | ok u sh' =>
            rw [hrun] at hkept
            rw [bind_ok hrun, bind_ok hrun]
            exact hrest sh' hkept

/-- `pairs` of a table, without the field `__pairs`. -/
theorem forPairs_table {rounds : ℕ} {keys : List Value} {sh : Shared}
    (h : sh.metafield t (ascii "__pairs") = .nil) (hkeys : sh.keys t = some keys) :
    forPairs rounds t body sh = forNext t body keys sh := by
  rw [forPairs, bind_ok (show (MonadState.get : Code Shared) sh = .ok sh sh from rfl)]
  simp only [h, hkeys]

theorem forPairs_error {rounds : ℕ} {sh : Shared}
    (h : sh.metafield t (ascii "__pairs") = .nil) (hkeys : sh.keys t = none) :
    forPairs rounds t body sh = .error (.raised (notTraversable t)) sh := by
  rw [forPairs, bind_ok (show (MonadState.get : Code Shared) sh = .ok sh sh from rfl)]
  simp only [h, hkeys]
  rfl

end Loops

section Copy

variable {t : Value} {ref : ℕ} {sh : Shared}

/-- The assignments of the loop, where no metatable takes part. -/
theorem forM_setindex {fields : List (Value × Value)} (hkeys : ∀ e ∈ fields, e.1.isKey = true)
    (hvalues : ∀ e ∈ fields, e.2 ≠ .nil) (htakes : sh.TakesAll ref fields) :
    forM fields (fun e => setindex (.table ref) e.1 e.2) sh = .ok () (sh.assignAll ref fields) := by
  induction fields generalizing sh with
  | nil => rfl
  | cons e fields ih =>
      rw [List.forall_mem_cons] at hkeys hvalues
      have hstays := takesAll_assign htakes List.mem_cons_self hvalues.1
      rw [List.forM_cons, bind_ok (setindex_taken hkeys.1 (htakes e List.mem_cons_self).1)]
      exact ih hkeys.2 hvalues.2 fun e' he' => hstays e' (List.mem_cons_of_mem _ he')

/-- **The loop copies** the fields of one table into another. -/
theorem forPairs_assign (rounds : ℕ) (ht : sh.keys t ≠ none)
    (hpairs : sh.metafield t (ascii "__pairs") = .nil) (htakes : sh.TakesAll ref (sh.fields t)) :
    forPairs rounds t (fun k v => setindex (.table ref) k v) sh
      = .ok () (sh.assignAll ref (sh.fields t)) := by
  obtain ⟨keys, hkeys⟩ := Option.ne_none_iff_exists'.mp ht
  have hfields : sh.fields t = fieldsAt (sh.field t) keys := by rw [Shared.fields, hkeys]; rfl
  have hkey := isKey_of_mem_keys sh hkeys
  -- the fields are those that were there even if the two tables are one
  have hloop := forNext_eq_forM t (fun k v => setindex (.table ref) k v) keys (sh.field t)
    (fun s => s.TakesAll ref (sh.fields t) ∧ ∀ k, k.isKey = true → s.field t k = sh.field t k)
    (fun s hs k hk => hs.2 k (hkey k hk)) (fun k hk hv s hs => ?_) ⟨htakes, fun _ _ => rfl⟩
  · rw [forPairs_table t _ hpairs hkeys, hloop, ← hfields]
    rw [hfields] at htakes ⊢
    exact forM_setindex (fun e he => hkey _ (mem_fieldsAt.mp he).1)
      (fun e he => (mem_fieldsAt.mp he).2.1) htakes
  · obtain ⟨htakes', hsame⟩ := hs
    have hmem : (k, sh.field t k) ∈ sh.fields t := hfields ▸ mem_fieldsAt.mpr ⟨hk, hv, rfl⟩
    rw [setindex_taken (hkey k hk) (htakes' _ hmem).1]
    refine ⟨takesAll_assign htakes' hmem hv, fun k' hk' => ?_⟩
    rw [← hsame k' hk']
    cases t with
    | table new =>
        rw [field_table _ _ hk', field_table _ _ hk', get_assign]
        split
        · next heq =>
            obtain ⟨rfl, rfl⟩ := heq
            rw [← hsame k' hk', field_table _ _ hk']
        · rfl
    | _ => rfl

/-- What is no table has no fields to copy into, so the first one raises an error. -/
theorem forPairs_assign_ne (rounds : ℕ) {oldMod : Value} (hold : ∀ ref, oldMod ≠ .table ref)
    (ht : sh.keys t ≠ none) (hpairs : sh.metafield t (ascii "__pairs") = .nil)
    (hplain : sh.metafield oldMod (ascii "__newindex") = .nil) :
    forPairs rounds t (fun k v => setindex oldMod k v) sh =
      if sh.fields t = [] then .ok () sh else .error (typeError "index" oldMod) sh := by
  obtain ⟨keys, hkeys⟩ := Option.ne_none_iff_exists'.mp ht
  have hloop := forNext_eq_forM t (fun k v => setindex oldMod k v) keys (sh.field t) (fun s => s = sh)
    (fun s hs k _ => by rw [hs]) (fun k _ _ s hs => ?_) rfl
  · rw [forPairs_table t _ hpairs hkeys, hloop, Shared.fields, hkeys, Option.getD_some]
    cases hfields : fieldsAt (sh.field t) keys with
    | nil => rfl
    | cons e fields =>
        rw [List.forM_cons, bind_error (setindex_error hold hplain), if_neg (List.cons_ne_nil e fields)]
  · subst hs
    rw [setindex_error hold hplain]
    rfl

end Copy

end SeedCore.Lua
