import Mathlib.Tactic.Ring
import SeedCore.Lib.Descent
import SeedCore.Lua.Reload

/-!
# Writing out a module

The function `print_dump` of `link.lua` writes out a value, with the fields of every table below it,
and `ptfmod` does so for a module.  Nothing in it remembers where it has been: on tables that reach
themselves it calls itself until the stack of Lua is full.  The fields `__name` and `__metatable` of
metatables change what is written; where there are fields `__pairs` and `__tostring`, functions of
scripts take part.

How many calls fit on that stack is the parameter `depth`; a call fits with all the library
functions that it calls, or not at all.  Left out is the place of an error in the script.

## Main definitions

* `printDump` — the function `print_dump`, which writes and may run out of stack.
* `Undisturbed` — a value that is written out without functions of scripts.
* `Listing`, `listing` — the tree that a value unfolds to, and its text.
* `Writes`, `Overflows` — how a piece of the script ends, with the text that it has written.
* `linkPtfmod`, `callPtfMod` — the dump of a module, and its call from C++.

## Main results

* `printDump_spec` — what comes out, for each size of the stack.
* `printDump_or_cycle` — whether anything can be done with a larger one.
* `callPtfMod_loads` — what the dump of a module does to the state.
-/

namespace SeedCore.Lua

/-! ## The functions -/

/-- The error of a call that has no room on the stack. -/
def stackOverflow : Value := .string (ascii "stack overflow")

/-- The loops that write tabulators. -/
def tabs (count : ℕ) : Bytes := List.replicate count 9

namespace Shared

variable (sh : Shared)

/-- `getmetatable` -/
def getmetatable (v : Value) : Value :=
  match sh.metafield v (ascii "__metatable") with
  | .nil => Table.get sh.metatables v
  | field => field

/-- What the text of an object begins with. -/
def kind (v : Value) : Bytes :=
  match sh.metafield v (ascii "__name") with
  | .string name => cstr name
  | _ => ascii v.typename

/-- The text of a value that has no `__tostring`. -/
def textOf : Value → Bytes
  | .nil => ascii "nil"
  | .boolean b => ascii (if b then "true" else "false")
  | .string s => s
  | v => v.numeral?.getD (sh.kind v ++ ascii ": " ++ sh.address v)

end Shared

/-- `tostring` -/
def Value.tostring (v : Value) : Code Bytes := do
  let sh ← get
  match sh.metafield v (ascii "__tostring") with
  | .nil => pure (sh.textOf v)
  | f => do
      let results ← callValue f [v]
      match (results.headD .nil).text? with
      | some text => pure text
      | none => throw (.raised (.string (ascii "'__tostring' must return a string")))

/-- `io.write` of one text. -/
def write (text : Bytes) : Code Unit := modify fun sh => { sh with out := sh.out ++ text }

/-- How `print_dump` writes a value that is not a table. -/
def writePlain (v : Value) : Code Unit :=
  match v with
  | .string s => write (ascii "\"" ++ s ++ ascii "\"")
  | v => do
      let text ← v.tostring
      write text

/-- How it writes a key. -/
def writeKey (key : Value) : Code Unit :=
  match key with
  | .string s => write (ascii "\"" ++ s ++ ascii "\" = ")
  | _ =>
      match key.numeral? with
      | some numeral => write (ascii "[" ++ numeral ++ ascii "] = ")
      | none => do
          let text ← key.tostring
          write text

/-- The text before the metatable. -/
def metatableText : Bytes := ascii "\"__metatable\" = "

/-- The lines of the metatable, where `dump` writes it. -/
def writeMetatable (dump : Value → Code Unit) (count : ℕ) (data : Value) : Code Unit := do
  write (tabs count)
  let sh ← get
  write metatableText
  dump (sh.getmetatable data)
  write (ascii ",\n")

/-- The lines of one field. -/
def writeField (dump : Value → Code Unit) (count : ℕ) (key value : Value) : Code Unit := do
  write (tabs count)
  writeKey key
  dump value
  write (ascii ",\n")

/-- The line end after the outermost value. -/
def writeEnd (lastCount : Option ℕ) : Code Unit :=
  if lastCount.isNone then write (ascii "\n") else pure ()

section Dump

variable (rounds : ℕ) (showMetatable : Bool)

/-- How `print_dump` writes a table, where `dump` writes what the table holds. -/
def writeTable (dump : Value → Code Unit) (count : ℕ) (data : Value) : Code Unit := do
  write (ascii "\x7b\n")
  if showMetatable then writeMetatable dump (count + 1) data else pure ()
  forPairs rounds data (writeField dump (count + 1))
  write (tabs count)
  write (ascii "\x7d")

/-- `print_dump`, where a loop with an iterator of a script has at most `rounds` rounds. -/
def printDump : ℕ → Value → Option ℕ → Code Unit
  | 0, _, _ => throw (.raised stackOverflow)
  | depth + 1, data, lastCount => do
      if data.isTable then
        writeTable rounds showMetatable
          (fun value => printDump depth value (some (lastCount.getD 0 + 1))) (lastCount.getD 0) data
      else writePlain data
      writeEnd lastCount

end Dump

/-! ## Trees of fields -/

/-- A finite tree: a text, or what a table holds, each value under a label. -/
inductive Listing
  | plain (text : Bytes)
  | fields (items : List (Bytes × Listing))

mutual

/-- How a tree is written, where `count` is the number of tabulators of the line. -/
def Listing.text : Listing → ℕ → Bytes
  | .plain text, _ => text
  | .fields items, count =>
      ascii "\x7b\n" ++ (Listing.itemsText items (count + 1) ++ (tabs count ++ ascii "\x7d"))

/-- The lines of the items. -/
def Listing.itemsText : List (Bytes × Listing) → ℕ → Bytes
  | [], _ => []
  | (label, tree) :: items, count =>
      tabs count ++ (label ++ (tree.text count ++ ascii ",\n")) ++ Listing.itemsText items count

end

section Listing

variable (sh : Shared) (showMetatable : Bool)

/-- The text of a value that is not a table. -/
def plainText : Value → Bytes
  | .string s => ascii "\"" ++ s ++ ascii "\""
  | v => sh.textOf v

/-- The text of a key. -/
def keyText (key : Value) : Bytes :=
  match key with
  | .string s => ascii "\"" ++ s ++ ascii "\" = "
  | _ =>
      match key.numeral? with
      | some numeral => ascii "[" ++ numeral ++ ascii "] = "
      | none => sh.textOf key

/-- What a table holds, each value with its label. -/
def items (data : Value) : List (Bytes × Value) :=
  if data.isTable then
    (if showMetatable then [(metatableText, sh.getmetatable data)] else []) ++
      (sh.fields data).map fun e => (keyText sh e.1, e.2)
  else []

/-- The values that a table holds. -/
def held (data : Value) : List Value := (items sh showMetatable data).map Prod.snd

/-- The tree of a value, by the trees of the values that it holds. -/
def assemble (data : Value) (trees : List Listing) : Listing :=
  if data.isTable then .fields (((items sh showMetatable data).map Prod.fst).zip trees)
  else .plain (plainText sh data)

/-- The tree that a value unfolds to, if it has at most this depth. -/
def listing (depth : ℕ) (data : Value) : Option Listing :=
  descend (held sh showMetatable) (assemble sh showMetatable) depth data

/-- Functions of scripts take no part in writing the value itself: a table has no `__pairs`, and
where `tostring` gives the text of a key or of another value, there is no `__tostring`. -/
structure Undisturbed (data : Value) : Prop where
  pairs_eq : data.isTable = true → sh.metafield data (ascii "__pairs") = .nil
  keys_eq : ∀ e ∈ sh.fields data, e.1.text? = none → sh.metafield e.1 (ascii "__tostring") = .nil
  plain_eq : ¬data.isTable = true → (∀ s, data ≠ .string s) →
    sh.metafield data (ascii "__tostring") = .nil

end Listing

/-! ## What has been written -/

/-- The state with this text on the standard output. -/
def Shared.withOut (sh : Shared) (out : Bytes) : Shared := { sh with out }

section Rules

variable (sh : Shared)

/-- The code comes to its end, with this text written and nothing else changed. -/
def Writes (x : Code Unit) (text : Bytes) : Prop :=
  ∀ out, x (sh.withOut out) = .ok () (sh.withOut (out ++ text))

/-- The code runs out of stack, with this text written. -/
def Overflows (x : Code Unit) (text : Bytes) : Prop :=
  ∀ out, x (sh.withOut out) = .error (.raised stackOverflow) (sh.withOut (out ++ text))

/-- Two pieces of code do the same, whatever has been written before. -/
def SameOutput (x y : Code Unit) : Prop := ∀ out, x (sh.withOut out) = y (sh.withOut out)

/-- The code does nothing but write. -/
def OnlyWrites (x : Code Unit) : Prop := Keeps (fun s => ∃ out, s = sh.withOut out) x

variable {sh} {x y : Code Unit} {f g : Unit → Code Unit} {s t : Bytes}

theorem writes_write (text : Bytes) : Writes sh (write text) text := fun _ => rfl

theorem writes_pure : Writes sh (pure ()) [] := fun out => by rw [List.append_nil]; rfl

theorem Writes.bind (hx : Writes sh x s) (hf : Writes sh (f ()) t) : Writes sh (x >>= f) (s ++ t) := by
  intro out
  rw [bind_ok (hx out), hf, List.append_assoc]

theorem Overflows.bind (hx : Overflows sh x s) : Overflows sh (x >>= f) s :=
  fun out => bind_error (hx out)

theorem Writes.bind_overflows (hx : Writes sh x s) (hf : Overflows sh (f ()) t) :
    Overflows sh (x >>= f) (s ++ t) := by
  intro out
  rw [bind_ok (hx out), hf, List.append_assoc]

theorem Writes.congr (hy : Writes sh y s) (h : SameOutput sh x y) : Writes sh x s :=
  fun out => (h out).trans (hy out)

theorem Overflows.congr (hy : Overflows sh y s) (h : SameOutput sh x y) : Overflows sh x s :=
  fun out => (h out).trans (hy out)

theorem Writes.onlyWrites (h : Writes sh x s) : OnlyWrites sh x := by
  rintro _ ⟨out, rfl⟩
  rw [h out]
  exact ⟨_, rfl⟩

theorem Overflows.onlyWrites (h : Overflows sh x s) : OnlyWrites sh x := by
  rintro _ ⟨out, rfl⟩
  rw [h out]
  exact ⟨_, rfl⟩

theorem SameOutput.bind (h : SameOutput sh x y) (hy : OnlyWrites sh y)
    (hfg : SameOutput sh (f ()) (g ())) : SameOutput sh (x >>= f) (y >>= g) := by
  intro out
  have hkept := hy (sh.withOut out) ⟨out, rfl⟩
  cases hrun : y (sh.withOut out) with
  | error fault s => rw [bind_error ((h out).trans hrun), bind_error hrun]
  | ok u s =>
      rw [hrun] at hkept
      obtain ⟨out', rfl⟩ := hkept
      rw [bind_ok ((h out).trans hrun), bind_ok hrun]
      exact hfg out'

theorem sameOutput_refl (x : Code Unit) : SameOutput sh x x := fun _ => rfl

theorem onlyWrites_forM {α : Type} {l : List α} {f : α → Code Unit}
    (h : ∀ a ∈ l, OnlyWrites sh (f a)) : OnlyWrites sh (forM l f) := by
  induction l with
  | nil => exact writes_pure.onlyWrites
  | cons a l ih =>
      rw [List.forall_mem_cons] at h
      rw [List.forM_cons]
      exact h.1.bind fun _ => ih h.2

theorem sameOutput_forM {α : Type} {l : List α} {f g : α → Code Unit}
    (h : ∀ a ∈ l, SameOutput sh (f a) (g a)) (hg : ∀ a ∈ l, OnlyWrites sh (g a)) :
    SameOutput sh (forM l f) (forM l g) := by
  induction l with
  | nil => exact sameOutput_refl _
  | cons a l ih =>
      rw [List.forall_mem_cons] at h hg
      rw [List.forM_cons, List.forM_cons]
      exact h.1.bind hg.1 (ih h.2 hg.2)

end Rules

section Spec

variable {sh : Shared} {showMetatable : Bool} {data : Value} (lastCount : Option ℕ)

/-- The line end after the outermost value. -/
def lineEnd : Bytes := if lastCount.isNone then ascii "\n" else []

theorem writes_writeEnd : Writes sh (writeEnd lastCount) (lineEnd lastCount) := by
  cases lastCount with
  | none => exact writes_write _
  | some count => exact writes_pure

theorem writes_nested {x : Code Unit} {text : Bytes} {count : ℕ}
    (h : Writes sh x (text ++ lineEnd (some count))) : Writes sh x text := by
  rwa [lineEnd, Option.isNone_some, if_neg Bool.false_ne_true, List.append_nil] at h

theorem tostring_eq {v : Value} (h : sh.metafield v (ascii "__tostring") = .nil) (out : Bytes) :
    v.tostring (sh.withOut out) = .ok (sh.textOf v) (sh.withOut out) := by
  have hfield : (sh.withOut out).metafield v (ascii "__tostring") = .nil := h
  rw [Value.tostring, bind_ok (show (get : Code Shared) (sh.withOut out) = .ok _ _ from rfl)]
  simp only [hfield]
  rfl

theorem writes_tostring {v : Value} (h : sh.metafield v (ascii "__tostring") = .nil) :
    Writes sh (do
      let text ← v.tostring
      write text) (sh.textOf v) := by
  intro out
  rw [bind_ok (tostring_eq h out)]
  rfl

theorem writes_writePlain (h : Undisturbed sh data) (hplain : ¬data.isTable = true) :
    Writes sh (writePlain data) (plainText sh data) := by
  have htostring := h.plain_eq hplain
  cases data with
  | string s => exact writes_write _
  | _ => exact writes_tostring (htostring fun s => Value.noConfusion)

theorem writes_writeKey {key : Value}
    (h : key.text? = none → sh.metafield key (ascii "__tostring") = .nil) :
    Writes sh (writeKey key) (keyText sh key) := by
  cases key with
  | string s => exact writes_write _
  | integer n => exact writes_write _
  | float n text => exact writes_write _
  | _ => exact writes_tostring (h rfl)

/-- The lines of what a table holds. -/
def writeItem (dump : Value → Code Unit) (count : ℕ) (item : Bytes × Value) : Code Unit := do
  write (tabs count)
  write item.1
  dump item.2
  write (ascii ",\n")

def writeItems (dump : Value → Code Unit) (count : ℕ) (items : List (Bytes × Value)) : Code Unit :=
  forM items (writeItem dump count)

section Table

variable {dump : Value → Code Unit} {count : ℕ}

theorem onlyWrites_writeItem {item : Bytes × Value} (h : OnlyWrites sh (dump item.2)) :
    OnlyWrites sh (writeItem dump count item) :=
  (writes_write _).onlyWrites.bind fun _ => (writes_write _).onlyWrites.bind fun _ =>
    h.bind fun _ => (writes_write _).onlyWrites

theorem onlyWrites_writeFields {fields : List (Value × Value)}
    (h : ∀ e ∈ fields, OnlyWrites sh (dump e.2)) :
    OnlyWrites sh (writeItems dump count (fields.map fun e => (keyText sh e.1, e.2))) :=
  onlyWrites_forM (List.forall_mem_map.mpr fun e he => onlyWrites_writeItem (h e he))

theorem sameOutput_writeField {key value : Value}
    (h : key.text? = none → sh.metafield key (ascii "__tostring") = .nil) :
    SameOutput sh (writeField dump count key value) (writeItem dump count (keyText sh key, value)) := by
  intro out
  rw [writeField, writeItem, bind_ok (writes_write _ out), bind_ok (writes_writeKey h _),
    bind_ok (writes_write _ out), bind_ok (writes_write _ _)]

variable (count) in
/-- The loop over the fields, with the values of the table as it was. -/
theorem sameOutput_forPairs (rounds : ℕ) (h : Undisturbed sh data) (htable : data.isTable = true)
    (hdump : ∀ e ∈ sh.fields data, OnlyWrites sh (dump e.2)) :
    SameOutput sh (forPairs rounds data (writeField dump count))
      (writeItems dump count ((sh.fields data).map fun e => (keyText sh e.1, e.2))) := by
  obtain ⟨keys, hkeys⟩ : ∃ keys, sh.keys data = some keys :=
    Option.ne_none_iff_exists'.mp fun hnone => (keys_eq_none_iff sh data).mp hnone htable
  have hfields : sh.fields data = fieldsAt (sh.field data) keys := by rw [Shared.fields, hkeys]; rfl
  have hwrites : ∀ e ∈ sh.fields data, OnlyWrites sh (writeField dump count e.1 e.2) := by
    rintro e he _ ⟨out, rfl⟩
    rw [sameOutput_writeField (h.keys_eq e he) out]
    exact onlyWrites_writeItem (hdump e he) _ ⟨out, rfl⟩
  intro out
  have hpairs : (sh.withOut out).metafield data (ascii "__pairs") = .nil := h.pairs_eq htable
  rw [forPairs_table data _ hpairs hkeys,
    forNext_eq_forM data _ keys (sh.field data) (fun s => ∃ out, s = sh.withOut out) ?_ ?_ ⟨out, rfl⟩,
    ← hfields, writeItems, List.forM_map]
  · exact sameOutput_forM (fun e he => sameOutput_writeField (h.keys_eq e he))
      (fun e he => onlyWrites_writeItem (hdump e he)) out
  · rintro _ ⟨out, rfl⟩ k -
    rfl
  · intro k hk hv
    exact hwrites (k, sh.field data k) (hfields ▸ mem_fieldsAt.mpr ⟨hk, hv, rfl⟩)

variable (count) in
/-- **A table that is undisturbed** is written item by item. -/
theorem sameOutput_writeTable (rounds : ℕ) (h : Undisturbed sh data) (htable : data.isTable = true)
    (hdump : ∀ v ∈ held sh showMetatable data, OnlyWrites sh (dump v)) :
    SameOutput sh (writeTable rounds showMetatable dump count data) (do
      write (ascii "\x7b\n")
      writeItems dump (count + 1) (items sh showMetatable data)
      write (tabs count)
      write (ascii "\x7d")) := by
  intro out
  rw [writeTable, bind_ok (writes_write _ out), bind_ok (writes_write _ out)]
  rw [held, items, if_pos htable] at hdump
  rw [items, if_pos htable]
  have hloop : (∀ e ∈ sh.fields data, OnlyWrites sh (dump e.2)) → _ := fun hfields =>
    sameOutput_forPairs (count + 1) rounds h htable hfields
  cases showMetatable with
  | true =>
      rw [if_pos rfl, List.singleton_append, List.map_cons, List.forall_mem_cons, List.map_map,
        List.forall_mem_map] at hdump
      have hmeta : SameOutput sh (writeMetatable dump (count + 1) data)
          (writeItem dump (count + 1) (metatableText, sh.getmetatable data)) := fun _ => rfl
      rw [if_pos rfl, if_pos rfl, List.singleton_append, writeItems, List.forM_cons, bind_assoc]
      exact hmeta.bind (onlyWrites_writeItem hdump.1)
        ((hloop hdump.2).bind (onlyWrites_writeFields hdump.2) (sameOutput_refl _)) _
  | false =>
      rw [if_neg Bool.false_ne_true, List.nil_append, List.map_map, List.forall_mem_map] at hdump
      rw [if_neg Bool.false_ne_true, if_neg Bool.false_ne_true, List.nil_append]
      exact (hloop hdump).bind (onlyWrites_writeFields hdump) (sameOutput_refl _) _

theorem writes_writeItem {v : Value} {tree : Listing} (label : Bytes)
    (h : Writes sh (dump v) (tree.text count)) : Writes sh (writeItem dump count (label, v))
      (tabs count ++ (label ++ (tree.text count ++ ascii ",\n"))) :=
  (writes_write _).bind ((writes_write _).bind (h.bind (writes_write _)))

variable {tree? : Value → Option Listing} {items : List (Bytes × Value)}
  (hdump : ∀ v ∈ items.map Prod.snd, ∀ tree, tree? v = some tree →
    Writes sh (dump v) (tree.text count))
include hdump

/-- The values of the items all have trees: their lines are written. -/
theorem writes_writeItems {trees : List Listing}
    (h : (items.map Prod.snd).mapM tree? = some trees) :
    Writes sh (writeItems dump count items)
      (Listing.itemsText ((items.map Prod.fst).zip trees) count) := by
  induction items generalizing trees with
  | nil => exact writes_pure
  | cons item items ih =>
      rw [List.map_cons, List.forall_mem_cons] at hdump
      rw [List.map_cons, List.mapM_cons] at h
      obtain ⟨tree, htree, h⟩ := Option.bind_eq_some_iff.mp h
      obtain ⟨rest, hrest, h⟩ := Option.bind_eq_some_iff.mp h
      cases h
      rw [List.map_cons, List.zip_cons_cons, Listing.itemsText, writeItems, List.forM_cons]
      exact (writes_writeItem item.1 (hdump.1 tree htree)).bind (ih hdump.2 hrest)

/-- One of the values has no tree, and the code runs out of stack there. -/
theorem overflows_writeItems {room : ℕ}
    (hover : ∀ v ∈ items.map Prod.snd, tree? v = none →
      ∃ text, Overflows sh (dump v) text ∧ room ≤ 2 * text.length)
    (h : (items.map Prod.snd).mapM tree? = none) :
    ∃ text, Overflows sh (writeItems dump count items) text ∧
      room + 2 * count ≤ 2 * text.length := by
  induction items with
  | nil => cases h
  | cons item items ih =>
      rw [List.map_cons, List.forall_mem_cons] at hdump hover
      rw [writeItems, List.forM_cons]
      cases htree : tree? item.2 with
      | none =>
          obtain ⟨text, htext, hroom⟩ := hover.1 htree
          have hfield : Overflows sh (writeItem dump count item)
              (tabs count ++ (item.1 ++ text)) :=
            (writes_write _).bind_overflows ((writes_write _).bind_overflows htext.bind)
          refine ⟨_, hfield.bind, ?_⟩
          rw [List.length_append, List.length_append, tabs, List.length_replicate]
          omega
      | some tree =>
          have hrest : (items.map Prod.snd).mapM tree? = none := by
            rw [List.map_cons, List.mapM_cons, htree] at h
            cases hmap : (items.map Prod.snd).mapM tree? with
            | none => rfl
            | some trees =>
                rw [hmap] at h
                cases h
          obtain ⟨text, htext, hroom⟩ := ih hdump.2 hover.2 hrest
          refine ⟨_, (writes_writeItem item.1 (hdump.1 tree htree)).bind_overflows htext, ?_⟩
          rw [List.length_append]
          omega

end Table

section Depth

variable (rounds depth : ℕ)

theorem listing_plain (hplain : ¬data.isTable = true) :
    listing sh showMetatable (depth + 1) data = some (.plain (plainText sh data)) := by
  rw [listing, descend, held, items, if_neg hplain]
  change some (assemble sh showMetatable data []) = _
  rw [assemble, if_neg hplain]

theorem listing_table (htable : data.isTable = true) :
    listing sh showMetatable (depth + 1) data =
      ((held sh showMetatable data).mapM (listing sh showMetatable depth)).map fun trees =>
        .fields (((items sh showMetatable data).map Prod.fst).zip trees) := by
  rw [listing, descend]
  have hassemble : assemble sh showMetatable data = fun trees =>
      .fields (((items sh showMetatable data).map Prod.fst).zip trees) := by
    funext trees
    rw [assemble, if_pos htable]
  rw [hassemble]
  rfl

/-- **What `print_dump` does**, when nothing that is reached is disturbed.  If the stack is large
enough for the tree of the value, it is written.  If not, each nested call has written the first
line of its table and the tabulators of the next one, so the text grows with the square of the size
of the stack. -/
theorem printDump_ends (h : ∀ v ∈ ReachedFrom (held sh showMetatable) data, Undisturbed sh v) :
    (∀ tree, listing sh showMetatable depth data = some tree →
      Writes sh (printDump rounds showMetatable depth data lastCount)
        (tree.text (lastCount.getD 0) ++ lineEnd lastCount)) ∧
    (listing sh showMetatable depth data = none →
      ∃ text, Overflows sh (printDump rounds showMetatable depth data lastCount) text ∧
        depth * (depth + 5 + 2 * lastCount.getD 0) ≤ 2 * text.length) := by
  induction depth generalizing data lastCount with
  | zero =>
      refine ⟨fun tree htree => (nomatch htree), fun _ => ⟨[], fun out => ?_, by simp⟩⟩
      rw [List.append_nil]
      rfl
  | succ depth ih =>
      have hund := h data Relation.ReflTransGen.refl
      rw [printDump]
      by_cases htable : data.isTable = true
      · have hbelow := fun v (hv : v ∈ held sh showMetatable data) =>
          ih (some (lastCount.getD 0 + 1)) fun w hw => h w (reached_subset hv hw)
        have honly : ∀ v ∈ held sh showMetatable data, OnlyWrites sh
            (printDump rounds showMetatable depth v (some (lastCount.getD 0 + 1))) := by
          intro v hv
          cases htree : listing sh showMetatable depth v with
          | some tree => exact ((hbelow v hv).1 tree htree).onlyWrites
          | none =>
              obtain ⟨text, htext, -⟩ := (hbelow v hv).2 htree
              exact htext.onlyWrites
        have hsame := sameOutput_writeTable (lastCount.getD 0) rounds hund htable honly
        rw [if_pos htable, listing_table depth htable]
        have hdump : ∀ v ∈ held sh showMetatable data, ∀ tree,
            listing sh showMetatable depth v = some tree → Writes sh
              (printDump rounds showMetatable depth v (some (lastCount.getD 0 + 1)))
              (tree.text (lastCount.getD 0 + 1)) :=
          fun v hv tree htree => writes_nested ((hbelow v hv).1 tree htree)
        constructor
        · intro tree htree
          obtain ⟨trees, htrees, rfl⟩ := Option.map_eq_some_iff.mp htree
          rw [Listing.text]
          refine Writes.bind (Writes.congr ?_ hsame) (writes_writeEnd lastCount)
          exact (writes_write _).bind ((writes_writeItems hdump htrees).bind
            ((writes_write _).bind (writes_write _)))
        · intro hnone
          obtain ⟨text, htext, hroom⟩ := overflows_writeItems hdump
            (fun v hv hnone => (hbelow v hv).2 hnone) (Option.map_eq_none_iff.mp hnone)
          have hover := ((writes_write (ascii "\x7b\n")).bind_overflows htext.bind).congr hsame
          refine ⟨_, hover.bind, ?_⟩
          rw [List.length_append, show (ascii "\x7b\n").length = 2 from rfl]
          rw [Option.getD_some] at hroom
          have hsquare : (depth + 1) * (depth + 1 + 5 + 2 * lastCount.getD 0)
              = depth * (depth + 5 + 2 * (lastCount.getD 0 + 1))
                + 2 * (lastCount.getD 0 + 1) + 4 := by ring
          omega
      · rw [if_neg htable, listing_plain depth htable]
        refine ⟨?_, fun hnone => nomatch hnone⟩
        rintro _ ⟨rfl⟩
        exact (writes_writePlain hund htable).bind (writes_writeEnd lastCount)

end Depth

/-! ## Which values are reached -/

/-- A value, and what is inside of it without a table. -/
def Value.parts : Value → List Value
  | .record ptr type => .record ptr type :: (ptr.parts ++ type.parts)
  | v => [v]

theorem Value.mem_parts_self (v : Value) : v ∈ v.parts := by
  cases v <;> simp [Value.parts]

theorem Value.parts_subset {v w : Value} (h : v ∈ w.parts) : v.parts ⊆ w.parts := by
  induction w with
  | record ptr type ihptr ihtype =>
      rw [Value.parts] at h ⊢
      rcases List.mem_cons.mp h with rfl | h
      · rw [Value.parts]
        exact fun _ hu => hu
      · rcases List.mem_append.mp h with h | h
        · exact fun _ hu => List.mem_cons_of_mem _ (List.mem_append_left _ (ihptr h hu))
        · exact fun _ hu => List.mem_cons_of_mem _ (List.mem_append_right _ (ihtype h hu))
  | _ =>
      rw [List.mem_singleton.mp h]
      exact fun _ hu => hu

variable (sh) in
/-- All values that there are in the tables of the state. -/
def stored : List Value :=
  .nil :: ((sh.metatables :: sh.tables).flatMap fun t => t.entries.map fun e => e.2).flatMap Value.parts

theorem parts_subset_stored {v : Value} (h : v ∈ stored sh) : v.parts ⊆ stored sh := by
  rcases List.mem_cons.mp h with rfl | h
  · exact fun u hu => List.mem_singleton.mp hu ▸ List.mem_cons_self
  · obtain ⟨w, hw, hv⟩ := List.mem_flatMap.mp h
    exact fun u hu => List.mem_cons_of_mem _
      (List.mem_flatMap.mpr ⟨w, hw, Value.parts_subset hv hu⟩)

theorem get_mem_stored {t : Table} (ht : t ∈ sh.metatables :: sh.tables) (k : Value) :
    Table.get t k ∈ stored sh := by
  rw [Table.get]
  cases hlookup : t.lookup k with
  | none => exact List.mem_cons_self
  | some v =>
      have hmem := AList.mem_lookup_iff.mp hlookup
      refine List.mem_cons_of_mem _ (List.mem_flatMap.mpr ⟨v, ?_, v.mem_parts_self⟩)
      exact List.mem_flatMap.mpr ⟨t, ht, List.mem_map.mpr ⟨_, hmem, rfl⟩⟩

theorem field_mem_stored (ref : ℕ) (k : Value) : Table.get (sh.table ref) k ∈ stored sh := by
  rw [Shared.table]
  cases htable : sh.tables[ref]? with
  | none => exact List.mem_cons_self
  | some t => exact get_mem_stored (List.mem_cons_of_mem _ (List.mem_of_getElem? htable)) k

theorem getmetatable_mem_stored (v : Value) : sh.getmetatable v ∈ stored sh := by
  have hmeta : Table.get sh.metatables v ∈ stored sh := get_mem_stored List.mem_cons_self v
  rw [Shared.getmetatable]
  split
  · exact hmeta
  · rw [Shared.metafield]
    split
    · exact field_mem_stored _ _
    · exact List.mem_cons_self

theorem mem_held {v : Value} (h : v ∈ held sh showMetatable data) :
    v = sh.getmetatable data ∨ ∃ e ∈ sh.fields data, e.2 = v := by
  rw [held, items] at h
  split at h
  · obtain ⟨item, hitem, rfl⟩ := List.mem_map.mp h
    rcases List.mem_append.mp hitem with hitem | hitem
    · cases showMetatable with
      | true => exact .inl (by rw [List.mem_singleton.mp hitem])
      | false => cases hitem
    · obtain ⟨e, he, rfl⟩ := List.mem_map.mp hitem
      exact .inr ⟨e, he, rfl⟩
  · cases h

/-- What a value holds is among the parts of the value or stored. -/
theorem held_mem {root v : Value} (hdata : data ∈ root.parts ++ stored sh)
    (hv : v ∈ held sh showMetatable data) : v ∈ root.parts ++ stored sh := by
  have hparts : data.parts ⊆ root.parts ++ stored sh := by
    rcases List.mem_append.mp hdata with h | h
    · exact fun u hu => List.mem_append_left _ (Value.parts_subset h hu)
    · exact fun u hu => List.mem_append_right _ (parts_subset_stored h hu)
  rcases mem_held hv with rfl | ⟨⟨k, v⟩, he, rfl⟩
  · exact List.mem_append_right _ (getmetatable_mem_stored data)
  · obtain ⟨hkeys, -, hfield⟩ := mem_fieldsAt.mp he
    cases data with
    | table ref =>
        rw [← (mem_fields sh ref).mp he |>.2.2]
        exact List.mem_append_right _ (field_mem_stored ref k)
    | record ptr type =>
        refine hparts ?_
        rw [Value.parts]
        rcases List.mem_cons.mp hkeys with rfl | hkeys
        · cases hfield
          exact List.mem_cons_of_mem _ (List.mem_append_left _ (Value.mem_parts_self _))
        · cases List.mem_singleton.mp hkeys
          cases hfield
          exact List.mem_cons_of_mem _ (List.mem_append_right _ (Value.mem_parts_self _))
    | _ => cases hkeys

theorem finite_reached : (ReachedFrom (held sh showMetatable) data).Finite := by
  refine (List.finite_toSet (data.parts ++ stored sh)).subset fun v hv => ?_
  induction hv with
  | refl => exact List.mem_append_left _ data.mem_parts_self
  | tail _ hvw ih => exact held_mem ih hvw

end Spec

/-! ## The results -/

section Main

variable (sh : Shared) (rounds : ℕ) (showMetatable : Bool) (data : Value) (lastCount : Option ℕ)

/-- The value unfolds to this finite tree. -/
def Unfolds (tree : Listing) : Prop := ∃ depth, listing sh showMetatable depth data = some tree

variable {sh showMetatable data} in
theorem unfolds_iff {depth : ℕ} {tree other : Listing}
    (h : listing sh showMetatable depth data = some tree) :
    Unfolds sh showMetatable data other ↔ other = tree := by
  refine ⟨fun ⟨depth', h'⟩ => ?_, fun heq => ⟨depth, heq ▸ h⟩⟩
  have hmax := descend_mono h (Nat.le_max_left depth depth')
  rw [descend_mono h' (Nat.le_max_right depth depth')] at hmax
  exact Option.some.inj hmax

/-- The dump of a value writes this tree, where the stack has room for so many calls. -/
def Dumps (depth : ℕ) (tree : Listing) : Prop :=
  Writes sh (printDump rounds showMetatable depth data lastCount)
    (tree.text (lastCount.getD 0) ++ lineEnd lastCount)

/-- The dump of a value runs out of stack after at least so much text. -/
def DumpOverflows (depth : ℕ) : Prop :=
  ∃ text, Overflows sh (printDump rounds showMetatable depth data lastCount) text ∧
    depth * (depth + 5 + 2 * lastCount.getD 0) ≤ 2 * text.length

variable {sh showMetatable data}
  (hund : ∀ v ∈ ReachedFrom (held sh showMetatable) data, Undisturbed sh v)
include hund

/-- **What comes out of `print_dump`**, for each size of the stack: if every chain of values, each
held by the one before, is short enough for it, then the tree of the value is written, and otherwise
the stack overflows. -/
theorem printDump_spec (depth : ℕ) :
    (∀ path, List.IsChain (HasChild (held sh showMetatable)) (data :: path) → path.length < depth) ∧
      (∃ tree, (∀ other, Unfolds sh showMetatable data other ↔ other = tree) ∧
        Dumps sh rounds showMetatable data lastCount depth tree) ∨
    (∃ path, List.IsChain (HasChild (held sh showMetatable)) (data :: path) ∧ depth ≤ path.length) ∧
      DumpOverflows sh rounds showMetatable data lastCount depth := by
  have hiff : (listing sh showMetatable depth data).isSome = true ↔ _ := isSome_descend_iff
  obtain ⟨hwrites, hoverflows⟩ := printDump_ends lastCount rounds depth hund
  cases htree : listing sh showMetatable depth data with
  | some tree =>
      refine .inl ⟨hiff.mp ?_, tree, fun _ => unfolds_iff htree, hwrites tree htree⟩
      exact Option.isSome_iff_exists.mpr ⟨tree, htree⟩
  | none =>
      rw [htree] at hiff
      obtain ⟨path, hpath⟩ := not_forall.mp (mt hiff.mpr Bool.false_ne_true)
      obtain ⟨hchain, hlen⟩ := Classical.not_imp.mp hpath
      exact .inr ⟨⟨path, hchain, Nat.le_of_not_lt hlen⟩, hoverflows htree⟩

/-- **Whether a larger stack helps**: either no value that is reached holds itself, directly or not,
and then there is one tree, which is written as soon as the stack has room for a call for each value
that is reached; or one does, and then every stack overflows. -/
theorem printDump_or_cycle :
    (∀ v ∈ ReachedFrom (held sh showMetatable) data,
        ¬Relation.TransGen (HasChild (held sh showMetatable)) v v) ∧
      (∃ tree, (∀ other, Unfolds sh showMetatable data other ↔ other = tree) ∧
        ∀ depth, (ReachedFrom (held sh showMetatable) data).ncard ≤ depth →
          Dumps sh rounds showMetatable data lastCount depth tree) ∨
    (∃ v ∈ ReachedFrom (held sh showMetatable) data,
        Relation.TransGen (HasChild (held sh showMetatable)) v v) ∧
      ∀ depth, DumpOverflows sh rounds showMetatable data lastCount depth := by
  by_cases hcycle : ∀ v ∈ ReachedFrom (held sh showMetatable) data,
      ¬Relation.TransGen (HasChild (held sh showMetatable)) v v
  · have hsome : (listing sh showMetatable _ data).isSome = true :=
      isSome_descend_ncard finite_reached hcycle le_rfl
    obtain ⟨tree, htree⟩ := Option.isSome_iff_exists.mp hsome
    refine .inl ⟨hcycle, tree, fun _ => unfolds_iff htree, fun depth hle => ?_⟩
    exact (printDump_ends lastCount rounds depth hund).1 tree (descend_mono htree hle)
  · have hnone : ¬∃ depth, (listing sh showMetatable depth data).isSome = true :=
      (exists_isSome_descend_iff finite_reached).not.mpr hcycle
    obtain ⟨v, hv⟩ := not_forall.mp hcycle
    obtain ⟨hreached, hself⟩ := Classical.not_imp.mp hv
    refine .inr ⟨⟨v, hreached, not_not.mp hself⟩, fun depth => ?_⟩
    refine (printDump_ends lastCount rounds depth hund).2 (Option.not_isSome_iff_eq_none.mp ?_)
    exact fun h => hnone ⟨depth, h⟩

end Main

/-- Without metatables nothing is disturbed. -/
theorem undisturbed_of_bare {sh : Shared} (h : ∀ v, Table.get sh.metatables v = .nil) (data : Value) :
    Undisturbed sh data :=
  ⟨fun _ => metafield_of_eq_nil (h _) _, fun _ _ _ => metafield_of_eq_nil (h _) _,
    fun _ _ => metafield_of_eq_nil (h _) _⟩

/-- A module `m` that holds itself. -/
def selfShared : Shared where
  globals := AList.singleton (.string (ascii "ptfmod")) (.function 5)
  tables := [(AList.singleton (.string (ascii "m")) (.table 1) : Table),
    (AList.singleton (.string (ascii "self")) (.table 1) : Table)]

/-- A module with one function is written out. -/
theorem printDump_spec_game : ∃ tree, Dumps gameShared 10 false (.table 1) none 2 tree := by
  have hund : ∀ v ∈ ReachedFrom (held gameShared false) (.table 1), Undisturbed gameShared v :=
    fun v _ => undisturbed_of_bare (fun _ => rfl) v
  obtain ⟨-, tree, -, hdumps⟩ | ⟨⟨path, hchain, hlen⟩, -⟩ := printDump_spec 10 none hund 2
  · exact ⟨tree, hdumps⟩
  · have hheld : held gameShared false (.table 1) = [.function 7] := by decide
    rcases path with _ | ⟨a, _ | ⟨b, path⟩⟩
    · simp at hlen
    · simp at hlen
    · obtain ⟨ha, hchain⟩ := List.isChain_cons_cons.mp hchain
      obtain rfl : a = .function 7 := List.mem_singleton.mp (hheld ▸ ha)
      cases (List.isChain_cons_cons.mp hchain).1

theorem printDump_or_cycle_self : DumpOverflows selfShared 10 false (.table 1) none 1000 := by
  have hchild : HasChild (held selfShared false) (.table 1) (.table 1) := by
    unfold HasChild
    decide
  have hund : ∀ v ∈ ReachedFrom (held selfShared false) (.table 1), Undisturbed selfShared v :=
    fun v _ => undisturbed_of_bare (fun _ => rfl) v
  obtain ⟨hcycle, -⟩ | ⟨-, hoverflows⟩ := printDump_or_cycle 10 none hund
  · exact absurd (Relation.TransGen.single hchild) (hcycle _ Relation.ReflTransGen.refl)
  · exact hoverflows 1000

example : (finalState (printDump 10 false 2 (.table 1) none selfShared)).out =
    ascii "\x7b\n\t\"self\" = \x7b\n\t\t\"self\" = " := by decide

/-! ## The dump of a module -/

section Module

variable (rounds depth : ℕ) (require : Bytes → Shared → Script)

/-- `ptfmod`; the line that it prints is left out. -/
def linkPtfmod (request : Request) (shared : Shared) : Script :=
  match request.args with
  | .string m :: _ =>
      (require m shared).bind fun shared results =>
        Script.exec (printDump rounds false depth (results.headD .nil) none)
          (fun shared _ => .ret shared []) shared
  | _ => .error shared
      (.raised (.string (ascii "bad argument #1 to 'require' (string expected, got nil)")))

/-- `CallPtfMod`; the lambda that it builds is passed to nothing. -/
def callPtfMod (run : LuaRun) (modName : Bytes) : LuaM Unit := do
  pushstring (some modName)
  let _ ← execGlobalFunction run (ascii "ptfmod") 1 none ()
  pure ()

variable {rounds depth require}

theorem run_linkPtfmod (fn : Value) (m : Bytes) (handler : Option Value) (shared : Shared) :
    (linkPtfmod rounds depth require ⟨fn, [.string m], handler⟩ shared).run =
      match (require m shared).run with
      | .ok results left =>
          match printDump rounds false depth (results.headD .nil) none left with
          | .ok _ after => .ok [] after
          | .error fault after => .error fault after
      | .error fault left => .error fault left := by
  rw [linkPtfmod]
  dsimp only
  rw [Script.run_bind]
  cases (require m shared).run with
  | error fault left => rfl
  | ok results left =>
      dsimp only
      cases hdump : printDump rounds false depth (results.headD .nil) none left with
      | ok u after => rw [Script.exec_ok _ hdump, Script.run]
      | error fault after => rw [Script.exec_error _ hdump, Script.run]

/-- **`CallPtfMod`** does to the state what loading the module does, and writes.  It leaves the
stack alone, and goes on whether or not the module can be loaded and written out; but without the
function `ptfmod` the name of the module stays on the stack. -/
theorem callPtfMod_loads (run : LuaRun) (modName : Bytes) (below : List Value) (log : List Event)
    (sh : Shared) (hrun : ∀ args handler, run ⟨sh.global (ascii "ptfmod"), args, handler⟩ sh =
      (linkPtfmod rounds depth require ⟨sh.global (ascii "ptfmod"), args, handler⟩ sh).run) :
    let found := [Event.global (ascii "ptfmod") (sh.global (ascii "ptfmod"))]
    let called := callEvents sh (ascii "ptfmod")
      ⟨sh.global (ascii "ptfmod"), [.string (cstr modName)], traceHandler sh⟩
    ((sh.global (ascii "ptfmod")).isFunction = false → callPtfMod run modName ⟨below, log, sh⟩
      = .ok () ⟨.string (cstr modName) :: below, log ++ found, sh⟩) ∧
    ((sh.global (ascii "ptfmod")).isFunction = true →
      (∀ message left, (require (cstr modName) sh).run = .error (.raised message) left →
        callPtfMod run modName ⟨below, log, sh⟩ = .ok () ⟨below, log ++ called, left⟩) ∧
      ∀ results left, (require (cstr modName) sh).run = .ok results left →
        (∀ v ∈ ReachedFrom (held left false) (results.headD .nil), Undisturbed left v) →
        ∃ text, callPtfMod run modName ⟨below, log, sh⟩
          = .ok () ⟨below, log ++ called, left.withOut (left.out ++ text)⟩) := by
  dsimp only
  refine ⟨fun hfn => ?_, fun hfn => ?_⟩
  · have hexec := execGlobalFunction_missing run none () (.string (cstr modName) :: below) log sh
      (ascii "ptfmod") 1 (Bool.eq_false_iff.mp hfn)
    have hpush : pushstring (some modName) ⟨below, log, sh⟩
        = .ok () ⟨.string (cstr modName) :: below, log, sh⟩ := rfl
    rw [callPtfMod, bind_ok hpush, bind_ok hexec]
    rfl
  · rw [callPtfMod, callByName_eq run (ascii "ptfmod") (some modName) below log sh hfn]
    dsimp only [cstringValue]
    rw [hrun, run_linkPtfmod]
    refine ⟨fun message left hload => ?_, fun results left hload hund => ?_⟩
    · rw [hload]
    · rw [hload]
      dsimp only
      obtain ⟨hwrites, hoverflows⟩ := printDump_ends none rounds depth hund
      cases htree : listing left false depth (results.headD .nil) with
      | some tree =>
          have hdump := hwrites tree htree left.out
          exact ⟨_, by rw [show left.withOut left.out = left from rfl] at hdump; rw [hdump]⟩
      | none =>
          obtain ⟨text, htext, -⟩ := hoverflows htree
          have hdump := htext left.out
          exact ⟨text, by rw [show left.withOut left.out = left from rfl] at hdump; rw [hdump]⟩

end Module

theorem callPtfMod_loads_self : ∃ log text,
    callPtfMod (fun request shared =>
        (linkPtfmod 10 9 (stdRequire 0 fun _ sh => .ret sh []) request shared).run)
      (ascii "m") ⟨[], [], selfShared⟩ = .ok () ⟨[], log, selfShared.withOut text⟩ := by
  have hloaded := run_stdRequire_loaded (fun _ sh => .ret sh [])
    (show (moduleEntry 0 (cstr (ascii "m")) selfShared).truthy = true by decide)
  obtain ⟨-, hcalled⟩ := callPtfMod_loads
    (fun request shared =>
      (linkPtfmod 10 9 (stdRequire 0 fun _ sh => .ret sh []) request shared).run)
    (ascii "m") [] [] selfShared fun _ _ => rfl
  obtain ⟨text, hcall⟩ := (hcalled (by decide)).2 _ _ hloaded
    fun v _ => undisturbed_of_bare (fun _ => rfl) v
  exact ⟨_, _, hcall⟩

end SeedCore.Lua
