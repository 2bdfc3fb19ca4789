import Mathlib.Data.List.TakeWhile
import SeedCore.Lua.Link

/-!
# Values through Lua and back

Values written for a call whose Lua function returns its arguments come back to the
callback: its stream counts them, up to the eight results that a call has, and reads of the
same types give them in order.

## Main definitions

* `Write.matching`, `Write.datum`, `Write.Readable` — the read for a write, what it should
  give, and the writes that can be read back.
* `readAll` — a sequence of reads.
* `callScriptFunc_roundTrip` — the round trip.
-/

namespace SeedCore.Lua

theorem cstr_of_notMem {s : Bytes} (h : 0 ∉ s) : cstr s = s := by
  rw [cstr, List.takeWhile_eq_self_iff]
  intro b hb
  have hne : b ≠ 0 := fun h0 => h (h0 ▸ hb)
  simpa using hne

/-! ## A write and its read -/

namespace Write

/-- The read of the same type, with the same type name. -/
def matching : Write → Read
  | bool _ => .bool
  | int8 _ => .int8
  | int16 _ => .int16
  | int32 _ => .int32
  | int64 _ => .int64
  | str _ => .str
  | blob _ => .blob
  | ptr _ type => .ptr (type.getD [])

/-- The value that was written. -/
def datum : Write → Option Datum
  | bool val => some (.bool val)
  | int8 val => some (.int8 val)
  | int16 val => some (.int16 val)
  | int32 val => some (.int32 val)
  | int64 val => some (.int64 val)
  | str val => val.map .str
  | blob _ => none
  | ptr val _ => some (.ptr val)

/-- A string without a NUL, a pointer with a type name that is not empty, or a boolean or
an integer. -/
def Readable : Write → Prop
  | str val => ∃ s, val = some s ∧ 0 ∉ s
  | blob _ => False
  | ptr _ type => ∃ t, type = some t ∧ cstr t ≠ []
  | _ => True

/-- **What is written is read back.** -/
theorem Readable.value {w : Write} (h : w.Readable) (sh : Shared) :
    ∃ v, w.value = some v ∧ v.isNil = false ∧ w.matching.Fits sh v ∧
      w.matching.meaning sh v = w.datum := by
  cases w with
  | bool val => exact ⟨_, rfl, rfl, trivial, by cases val <;> rfl⟩
  | int8 val => exact ⟨_, rfl, rfl, trivial, congrArg (some ∘ Datum.int8) (Int8.toInt8_toInt64 val)⟩
  | int16 val => exact ⟨_, rfl, rfl, trivial, congrArg (some ∘ Datum.int16) (Int16.toInt16_toInt64 val)⟩
  | int32 val => exact ⟨_, rfl, rfl, trivial, congrArg (some ∘ Datum.int32) (Int32.toInt32_toInt64 val)⟩
  | int64 val => exact ⟨_, rfl, rfl, trivial, rfl⟩
  | str val =>
      obtain ⟨s, rfl, hs⟩ := h
      refine ⟨_, rfl, rfl, ⟨cstr s, rfl⟩, ?_⟩
      simp only [matching, Read.meaning, cstringValue, cstr_of_notMem hs, datum, Option.map_some]
  | blob val => exact h.elim
  | ptr val type =>
      obtain ⟨t, rfl, ht⟩ := h
      have htype : index (.record (.lightuserdata val) (cstringValue (some t)))
          (.string typeIndex) sh = .ok (.string (cstr t)) sh := index_own rfl (by simp)
      have hptr : index (.record (.lightuserdata val) (cstringValue (some t)))
          (.string ptrIndex) sh = .ok (.lightuserdata val) sh := index_own rfl (by simp)
      refine ⟨_, rfl, rfl, ⟨.lightuserdata val, cstr t, hptr, htype⟩, ?_⟩
      simp only [matching, Read.meaning, hptr, htype, Option.getD_some, cstr_cstr]
      rw [if_neg (by simp [ht])]
      rfl

end Write

theorem length_written {ws : List Write} (h : ∀ w ∈ ws, w.Readable) :
    (written ws).length = ws.length := by
  induction ws with
  | nil => rfl
  | cons w ws ih =>
      obtain ⟨v, hv, -⟩ := (h w List.mem_cons_self).value {}
      rw [written_cons, hv, List.length_append, ih fun w hw => h w (List.mem_cons_of_mem _ hw),
        List.length_cons, Nat.add_comm]
      rfl

theorem isNil_of_mem_written {ws : List Write} (h : ∀ w ∈ ws, w.Readable) {v : Value}
    (hv : v ∈ written ws) : v.isNil = false := by
  obtain ⟨w, hw, hval⟩ := List.mem_filterMap.mp hv
  obtain ⟨v', hv', hnil, -⟩ := (h w hw).value {}
  rw [hval] at hv'
  rwa [Option.some.inj hv']

/-- The results of a call, when Lua returns the values that were written. -/
theorem adjust_written {ws : List Write} (h : ∀ w ∈ ws, w.Readable) (n : ℕ) :
    adjust n (written ws) = written (ws.take n) ++ List.replicate (n - ws.length) .nil := by
  have hlen := length_written h
  have htake := length_written fun w hw => h w (List.mem_of_mem_take (i := n) hw)
  have hsplit : written ws = written (ws.take n) ++ written (ws.drop n) := by
    rw [written, written, written, ← List.filterMap_append, List.take_append_drop]
  rw [adjust, hlen]
  congr 1
  by_cases hle : n ≤ ws.length
  · rw [List.length_take, Nat.min_eq_left hle] at htake
    rw [hsplit, List.take_left' htake]
  · rw [List.take_of_length_le (by omega), List.take_of_length_le (by omega)]

/-- `GetCount` counts the values that came back. -/
theorem count_written {ws : List Write} (h : ∀ w ∈ ws, w.Readable) (below : List Value) :
    (resultStream (adjust luaResultCount (written ws)) below).count = min ws.length 8 := by
  have htake := length_written fun w hw => h w (List.mem_of_mem_take (i := luaResultCount) hw)
  have hfirst : ∀ v ∈ written (ws.take luaResultCount), (!v.isNil) = true := by
    intro v hv
    rw [isNil_of_mem_written (fun w hw => h w (List.mem_of_mem_take hw)) hv]
    rfl
  have hlast : (List.replicate (luaResultCount - ws.length) Value.nil).takeWhile (!·.isNil) = [] := by
    cases luaResultCount - ws.length <;> rfl
  dsimp only [resultStream]
  rw [adjust_written h, List.takeWhile_append_of_pos hfirst, hlast, List.append_nil, htake,
    List.length_take, Nat.min_comm]
  rfl

/-! ## Reading in order -/

/-- A callback that makes these reads, one after the other. -/
def readAll : List Read → LuaInputStream → LuaM (List (Option Datum) × LuaInputStream)
  | [], input => pure ([], input)
  | r :: rs, input => do
      let (val, input) ← r.run input
      let (vals, input) ← readAll rs input
      pure (val :: vals, input)

/-- **Reads along the stack** give the values that lie there. -/
theorem readAll_eq {ws : List Write} (hws : ∀ w ∈ ws, w.Readable) {stack front back : List Value}
    (hstack : stack.reverse = front ++ (written ws ++ back)) {input : LuaInputStream}
    (hfront : input.index + input.start = front.length)
    (hcount : input.index + ws.length ≤ input.count) (log : List Event) (sh : Shared) :
    ∃ input', readAll (ws.map Write.matching) input ⟨stack, log, sh⟩
      = .ok (ws.map Write.datum, input') ⟨stack, log, sh⟩ := by
  induction ws generalizing front input with
  | nil => exact ⟨_, rfl⟩
  | cons w ws ih =>
      obtain ⟨v, hv, -, hfits, hmeaning⟩ := (hws w List.mem_cons_self).value sh
      have hvalues : written (w :: ws) = v :: written ws := by
        rw [written_cons, hv]
        rfl
      rw [hvalues, List.cons_append] at hstack
      have hslot : stack.reverse[front.length]? = some v := by
        rw [hstack, List.getElem?_append_right (Nat.le_refl _), Nat.sub_self]
        rfl
      rw [List.length_cons] at hcount
      have hread : w.matching.run input ⟨stack, log, sh⟩
          = .ok (w.matching.meaning sh v, input.next) ⟨stack, log, sh⟩ :=
        Read.run_eq stack log sh (by omega) (by rw [LuaInputStream.slot]; omega) hslot hfits
      have hstack' : stack.reverse = (front ++ [v]) ++ (written ws ++ back) := by
        rw [hstack, List.append_assoc]
        rfl
      have hfront' : input.next.index + input.next.start = (front ++ [v]).length := by
        rw [List.length_append, List.length_singleton]
        dsimp only [LuaInputStream.next]
        omega
      have hcount' : input.next.index + ws.length ≤ input.next.count := by
        dsimp only [LuaInputStream.next]
        omega
      obtain ⟨input', hrest⟩ := ih (fun w hw => hws w (List.mem_cons_of_mem _ hw)) hstack'
        hfront' hcount'
      refine ⟨input', ?_⟩
      rw [List.map_cons, List.map_cons, readAll, bind_ok hread, hmeaning]
      exact bind_ok hrest

/-! ## The round trip -/

/-- **What is written comes back.**  Up to 125 values are written for a call of a function
that returns its arguments.  Then the callback is called with a stream on which `GetCount`
gives the number of values, or eight if there are more, and the reads of the same types
give the first eight of them in order. -/
theorem callScriptFunc_roundTrip {module func : Bytes} {ws : List Write} (hle : ws.length ≤ 125)
    (hws : ∀ w ∈ ws, w.Readable) {require : Bytes → Shared → Script}
    {apply : Value → List Value → Shared → Script} {s : LuaState} {loaded found : Shared}
    {results : List Value} {f : Value} (hcall : (s.shared.global callFunction).isFunction = true)
    (hrequire : (require (cstr module) s.shared).run = .ok results loaded)
    (hmod : (results.headD .nil).truthy = true)
    (hfunc : index (results.headD .nil) (.string (cstr func)) loaded = .ok f found)
    (htruthy : f.truthy = true)
    (hidentity : ∀ args, ∃ after, (apply f args found).run = .ok args after) :
    ∃ tarceIndex input s',
      (∀ {σ : Type} (cb : LuaInputStream → σ → LuaM σ) (vars : σ),
        callScriptFunc (fun request shared => (linkCall require apply request shared).run)
          module func (some (writing ws)) (some cb) vars s
          = answer (some cb) input tarceIndex vars s') ∧
      input.count = min ws.length 8 ∧
      ∃ input', readAll ((ws.take 8).map Write.matching) input s'
        = .ok ((ws.take 8).map Write.datum, input') s' := by
  obtain ⟨stack, log, sh⟩ := s
  have hwritten : (written ((some ws).getD [])).length ≤ 125 := by
    rw [Option.getD_some, length_written hws]
    exact hle
  obtain ⟨after, hafter⟩ := hidentity (written ws)
  have hrun : (linkCall require apply ⟨sh.global callFunction, scriptArgs module func ws,
      traceHandler sh⟩ sh).run = .ok (written ws) after := by
    rw [scriptArgs]
    exact (run_linkCall hrequire hmod hfunc htruthy).trans hafter
  refine ⟨traceIndex sh (scriptArgs module func ws).length,
    resultStream (adjust luaResultCount (written ws)) ((traceHandler sh).toList ++ stack),
    ⟨(adjust luaResultCount (written ws)).reverse ++ ((traceHandler sh).toList ++ stack),
      log ++ callEvents sh callFunction
        ⟨sh.global callFunction, scriptArgs module func ws, traceHandler sh⟩, after⟩,
    ?_, count_written hws _, ?_⟩
  · intro σ cb vars
    have hargs : scriptArgs module func ((some ws).getD []) = scriptArgs module func ws := rfl
    have heq := callScriptFunc_eq (fun request shared => (linkCall require apply request shared).run)
      (some cb) vars stack log sh hwritten hcall hargs
    rw [hrun] at heq
    exact heq
  · have htake : ∀ w ∈ ws.take 8, w.Readable := fun w hw => hws w (List.mem_of_mem_take hw)
    have hstack : ((adjust luaResultCount (written ws)).reverse
        ++ ((traceHandler sh).toList ++ stack)).reverse
        = ((traceHandler sh).toList ++ stack).reverse
          ++ (written (ws.take 8) ++ List.replicate (luaResultCount - ws.length) .nil) := by
      rw [List.reverse_append, List.reverse_reverse, adjust_written hws]
      rfl
    refine readAll_eq htake hstack ?_ ?_ _ _
    · rw [List.length_reverse]
      exact Int.zero_add _
    · rw [count_written hws, List.length_take]
      dsimp only [resultStream]
      omega

/-- Globals with `call`, and a table with the function `id`. -/
def exampleModules : Shared :=
  { exampleShared with tables := [AList.singleton (.string (ascii "id")) (.function 3)] }

/-- An integer, a string and a pointer, written by a registered function that was called
with an argument. -/
theorem callScriptFunc_roundTrip_three : ∃ tarceIndex input s',
    (∀ {σ : Type} (cb : LuaInputStream → σ → LuaM σ) (vars : σ),
      callScriptFunc (fun request shared => (linkCall (fun _ sh => .ret sh [.table 0])
        (fun _ args sh => .ret sh args) request shared).run) (ascii "m") (ascii "id")
        (some (writing [.int8 (-1), .str (some (ascii "a")), .ptr 7 (some (ascii "T"))])) (some cb) vars
        ⟨[.boolean true], [], exampleModules⟩
      = answer (some cb) input tarceIndex vars s') ∧
    input.count = 3 ∧
    ∃ input', readAll [.int8, .str, .ptr (ascii "T")] input s'
      = .ok ([some (.int8 (-1)), some (.str (ascii "a")), some (.ptr 7)], input') s' := by
  have hreadable : ∀ w ∈ [Write.int8 (-1), .str (some (ascii "a")), .ptr 7 (some (ascii "T"))],
      w.Readable := by
    simp only [List.forall_mem_cons]
    exact ⟨trivial, ⟨_, rfl, by decide⟩, ⟨_, rfl, by decide⟩, fun _ h => by cases h⟩
  have hfunc : index (.table 0) (.string (cstr (ascii "id"))) exampleModules
      = .ok (.function 3) exampleModules := index_own (by decide) (by decide)
  exact callScriptFunc_roundTrip (by decide) hreadable (by decide) rfl (by decide) hfunc (by decide)
    (fun args => ⟨_, rfl⟩)

end SeedCore.Lua
