import Mathlib.Algebra.GroupWithZero.Nat
import SeedCore.Lua.Kept

/-!
# What a call leaves on the stack

A call of a script function may leave values behind: when the global `call` is not a
function, the arguments that were pushed for it are not taken off again.  The slots that
were there before keep their contents in any case.  So the stack is as before exactly
when every call on it, the one looked at and those that its closures make, finds `call`.

## Main definitions

* `Grown base n log s` — the stack is `base` with at least `n` slots above it, and with
  exactly `n` when every call since `log` found `call`.
* `Heights` — the slots are those of the calls around and of the values written so far.
* `kept_heights` — what programs keep.
* `callScriptFunc_neutral_iff` — when a call leaves the stack as it was.
-/

namespace SeedCore.Lua

/-! ## What may be left behind -/

/-- If the global `call` was read, it was a function. -/
def Event.FindsCall : Event → Prop
  | .global name v => name = callFunction → v.isFunction = true
  | .pcall _ => True

instance : DecidablePred Event.FindsCall
  | .global name v => inferInstanceAs (Decidable (name = callFunction → v.isFunction = true))
  | .pcall _ => inferInstanceAs (Decidable True)

/-- Each time that the global `call` was read, it was a function. -/
def CallFound (events : List Event) : Prop := ∀ e ∈ events, e.FindsCall

instance : DecidablePred CallFound := fun events =>
  inferInstanceAs (Decidable (∀ e ∈ events, e.FindsCall))

theorem callFound_append {es es' : List Event} :
    CallFound (es ++ es') ↔ CallFound es ∧ CallFound es' := List.forall_mem_append

/-- The stack is `base` with some slots above it: no fewer than `n`, and no more when every
call since the log was `log` found the global `call`. -/
def Grown (base : List Value) (n : ℕ) (log : List Event) (s : LuaState) : Prop :=
  ∃ new above, s.log = log ++ new ∧ s.stack = above ++ base ∧ n ≤ above.length ∧
    (above.length = n ↔ CallFound new)

section Taking

variable {base : List Value} {m n : ℕ} {log : List Event} {s : LuaState} (sh : Shared)

/-- A call that finds `call` takes its arguments from the stack. -/
theorem Grown.drop (h : Grown base (m + n) log s) {new : List Event} (hnew : CallFound new) :
    Grown base m log ⟨s.stack.drop n, s.log ++ new, sh⟩ := by
  obtain ⟨before, above, hlog, hstack, hle, hiff⟩ := h
  refine ⟨before ++ new, above.drop n, ?_, ?_, ?_, ?_⟩
  · rw [hlog, List.append_assoc]
  · dsimp only
    rw [hstack, List.drop_append_of_le_length (by omega)]
  · rw [List.length_drop]
    omega
  · rw [callFound_append, and_iff_left hnew, ← hiff, List.length_drop]
    omega

/-- One that does not find it leaves them there. -/
theorem Grown.left_behind (h : Grown base (m + n) log s) (hpos : 0 < n) {new : List Event}
    (hnew : ¬CallFound new) : Grown base m log ⟨s.stack, s.log ++ new, sh⟩ := by
  obtain ⟨before, above, hlog, hstack, hle, -⟩ := h
  refine ⟨before ++ new, above, ?_, hstack, by omega, ?_⟩
  · rw [hlog, List.append_assoc]
  · rw [callFound_append]
    exact iff_of_false (by omega) fun h => hnew h.2

/-- More slots that are counted. -/
theorem Grown.push (h : Grown base n log s) (vs : List Value) :
    Grown base (n + vs.length) log ⟨vs ++ s.stack, s.log, sh⟩ := by
  obtain ⟨new, above, hlog, hstack, hle, hiff⟩ := h
  refine ⟨new, vs ++ above, hlog, ?_, ?_, ?_⟩
  · dsimp only
    rw [hstack, List.append_assoc]
  · rw [List.length_append]
    omega
  · rw [← hiff, List.length_append]
    omega

end Taking

/-! ## Reading -/

/-- A property of the stack that stays when slots are pushed, popped or counted as own and set. -/
structure Slots (P : ℕ → LuaState → Prop) (Own : ℕ → ℤ → Prop) : Prop where
  push : ∀ {n} {s : LuaState} v, P n s → P (n + 1) { s with stack := v :: s.stack }
  pop : ∀ {n} {s : LuaState}, P (n + 1) s → ∃ v rest, s.stack = v :: rest ∧ P n { s with stack := rest }
  set : ∀ {n} {s : LuaState} {idx} v, Own n idx → idx ≤ s.stack.length → P n s →
    P n { s with stack := Stack.replaceAt s.stack idx v }
  shared : ∀ {n} {s : LuaState} sh, P n s → P n { s with shared := sh }
  top : ∀ {n}, Own (n + 1) (-1)

theorem keeps_value {P : LuaState → Prop} (idx : ℤ) :
    Triple P (value idx) (fun v s => P s ∧ v = Stack.slot s.stack idx) (fun _ => True) := by
  intro s hs
  by_cases hidx : Stack.Acceptable s.stack idx
  · rw [value_eq hidx]
    exact ⟨hs, rfl⟩
  · have hvalue : value idx s = .error .outOfBounds s := by
      rw [value, bind_ok (show (get : LuaM LuaState) s = .ok s s from rfl), if_neg hidx]
      rfl
    rw [hvalue]
    trivial

/-- A function that only looks at a slot. -/
theorem keeps_map_value {α : Type} {P : LuaState → Prop} (idx : ℤ) (f : Option Value → LuaM α)
    (hf : ∀ v, Triple P (f v) (fun _ => P) (fun _ => True)) :
    Triple P (value idx >>= f) (fun _ => P) (fun _ => True) :=
  (keeps_value idx).bind fun v => (hf v).weaken (fun _ h => h.1) (fun _ _ h => h) (fun _ h => h)

theorem keeps_get {P : LuaState → Prop} :
    Triple P (get : LuaM LuaState) (fun _ => P) (fun _ => True) := fun _ hs => hs

section Reading

variable {P : ℕ → LuaState → Prop} {Own : ℕ → ℤ → Prop} (hP : Slots P Own) {n : ℕ}
include hP

theorem slots_push (v : Value) : Triple (P n) (push v) (fun _ => P (n + 1)) (fun _ => True) :=
  fun _ hs => hP.push v hs

theorem slots_pop_one {E : LuaState → Prop} : Triple (P (n + 1)) (pop 1) (fun _ => P n) E := by
  rintro ⟨stack, log, sh⟩ hs
  obtain ⟨v, rest, hstack, hrest⟩ := hP.pop hs
  rw [show stack = _ from hstack, pop_one]
  exact hrest

/-- A number turns into a string in its slot. -/
theorem slots_tostring {idx : ℤ} (hidx : Own n idx) :
    Triple (P n) (tostring idx) (fun _ => P n) (fun _ => True) := by
  refine (keeps_value idx).bind fun v => ?_
  intro s hs
  obtain ⟨hs, hv⟩ := hs
  cases v with
  | none => exact hs
  | some v =>
      have hle : idx ≤ s.stack.length := by
        rw [Stack.slot] at hv
        by_contra hlt
        rw [if_neg hlt] at hv
        cases hv
      cases v with
      | integer k => exact hP.set _ hidx hle hs
      | float k text => exact hP.set _ hidx hle hs
      | _ => exact hs

omit hP in
theorem keeps_validValue {P : LuaState → Prop} (idx : ℤ) :
    Triple P (validValue idx) (fun _ => P) (fun _ => True) := by
  refine keeps_map_value idx _ fun v => ?_
  cases v with
  | none => exact Triple.throw fun _ _ => trivial
  | some v => exact Triple.pure fun _ h => h

/-- Code of a script has a stack of its own. -/
theorem slots_onShared {α : Type} (x : Code α) :
    Triple (P n) (onShared x) (fun _ => P n) (fun _ => True) := by
  intro s hs
  rw [onShared]
  cases x s.shared with
  | ok a shared => exact hP.shared shared hs
  | error fault shared => trivial

theorem slots_len (idx : ℤ) : Triple (P n) (len idx) (fun _ => P (n + 1)) (fun _ => True) :=
  (keeps_validValue idx).bind fun _ => (slots_onShared hP _).bind fun n => slots_push hP n

theorem slots_getfield (idx : ℤ) (key : Bytes) :
    Triple (P n) (getfield idx key) (fun _ => P (n + 1)) (fun _ => True) :=
  (keeps_validValue idx).bind fun _ => (slots_onShared hP _).bind fun x => slots_push hP x

variable {input : LuaInputStream}

omit hP in
theorem keeps_guarded {P : LuaState → Prop} {read : LuaM (Option Datum)}
    (hread : Triple P read (fun _ => P) (fun _ => True)) :
    Triple P (input.guarded read) (fun p s => P s ∧ (p.2 = input.next ∨ p.2 = input))
      (fun _ => True) := by
  refine Triple.ite (fun _ => hread.bind fun val => ?_) (fun _ => ?_)
  · exact Triple.pure fun _ hs => ⟨hs, .inl rfl⟩
  · exact Triple.pure fun _ hs => ⟨hs, .inr rfl⟩

/-- **A read** keeps the height, and sets its slot at most. -/
theorem slots_read (hown : Own n input.slot) (r : Read) :
    Triple (P n) (r.run input) (fun p s => P n s ∧ (p.2 = input.next ∨ p.2 = input))
      (fun _ => True) := by
  have hinteger : ∀ narrow, Triple (P n) (input.readInteger narrow)
      (fun p s => P n s ∧ (p.2 = input.next ∨ p.2 = input)) (fun _ => True) := by
    intro narrow
    refine keeps_guarded (Triple.bind (Q := fun _ => P n) ?_ fun _ => Triple.pure fun _ hs => hs)
    exact keeps_map_value _ _ fun v => keeps_get.bind fun _ => Triple.pure fun _ hs => hs
  cases r with
  | bool =>
      refine keeps_guarded (Triple.bind (Q := fun _ => P n) ?_ fun _ => Triple.pure fun _ hs => hs)
      exact keeps_map_value _ _ fun v => Triple.pure fun _ hs => hs
  | int8 => exact hinteger _
  | int16 => exact hinteger _
  | int32 => exact hinteger _
  | int64 => exact hinteger _
  | blob => exact Triple.pure fun _ hs => ⟨hs, .inr rfl⟩
  | str =>
      refine keeps_guarded ((slots_tostring hP hown).bind fun val => (slots_len hP _).bind fun _ =>
        (slots_pop_one hP).bind fun _ => ?_)
      cases val with
      | none => exact Triple.throw fun _ _ => trivial
      | some val => exact Triple.pure fun _ hs => hs
  | ptr type =>
      refine keeps_guarded ((slots_getfield hP _ _).bind fun _ => Triple.bind (Q := fun _ => P (n + 1))
        (keeps_map_value _ _ fun v => Triple.pure fun _ hs => hs) fun ptr =>
        (slots_pop_one hP).bind fun _ => (slots_getfield hP _ _).bind fun _ =>
        (slots_tostring hP hP.top).bind fun luaType => (slots_pop_one hP).bind fun _ => ?_)
      cases luaType with
      | none => exact Triple.throw fun _ _ => trivial
      | some luaType =>
          exact Triple.ite (fun _ => Triple.pure fun _ hs => hs) (fun _ => Triple.pure fun _ hs => hs)

end Reading

/-- The stack has so many slots. -/
theorem height_slots : Slots (fun n s => s.stack.length = n) fun _ _ => True where
  push := fun v h => congrArg (· + 1) h
  pop := by
    rintro n ⟨stack, log, sh⟩ h
    cases stack with
    | nil => exact absurd h.symm (Nat.succ_ne_zero n)
    | cons v rest => exact ⟨v, rest, rfl, Nat.succ_injective h⟩
  set := fun v _ _ h => by rwa [Stack.replaceAt, List.length_set]
  shared := fun _ h => h
  top := trivial

/-- **A read** leaves as many slots as it found. -/
theorem read_height {r : Read} {input : LuaInputStream} {p : Option Datum × LuaInputStream}
    {s s' : LuaState} (h : r.run input s = .ok p s') : s'.stack.length = s.stack.length :=
  ((slots_read height_slots trivial r).of_ok rfl h).1

/-! ## Slots above the base -/

section Base

variable {base : List Value} {n : ℕ} {log : List Event} {input : LuaInputStream}

/-- An index that names a slot above `base`, when `n` slots are there at least. -/
def AboveBase (base : List Value) (n : ℕ) (idx : ℤ) : Prop :=
  (base.length : ℤ) < idx ∨ (idx = -1 ∧ 0 < n)

theorem AboveBase.depth_lt {above : List Value} {idx : ℤ} (h : AboveBase base n idx)
    (hle : n ≤ above.length) (hidx : idx ≤ (above ++ base).length) :
    Stack.depth (above ++ base) idx < above.length := by
  obtain h | ⟨rfl, hpos⟩ := h
  · exact Stack.depth_lt_of_pos above base h hidx
  · have hdepth : Stack.depth (above ++ base) (-1) = 0 := Stack.depth_neg (above ++ base) 0
    omega

/-- What has been left behind, and `base`, stay where they are. -/
theorem grown_slots (base : List Value) (log : List Event) :
    Slots (fun n => Grown base n log) (AboveBase base) where
  push := fun v h => h.push _ [v]
  pop := by
    rintro n s ⟨new, above, hlog, hstack, hle, hiff⟩
    cases above with
    | nil => exact absurd hle (Nat.not_succ_le_zero n)
    | cons v above =>
        refine ⟨v, above ++ base, hstack, new, above, hlog, rfl, Nat.le_of_succ_le_succ hle, ?_⟩
        rw [← hiff, List.length_cons]
        omega
  set := by
    rintro n s idx v hidx hle ⟨new, above, hlog, hstack, hlen, hiff⟩
    rw [hstack] at hle ⊢
    rw [Stack.replaceAt_append above base (hidx.depth_lt hlen hle)]
    refine ⟨new, _, hlog, rfl, ?_, ?_⟩
    · rwa [List.length_set]
    · rwa [List.length_set]
  shared := fun _ h => h
  top := .inr ⟨rfl, Nat.succ_pos _⟩

/-- The stream reads slots above `base` only. -/
def Window (base : List Value) (input : LuaInputStream) : Prop :=
  (base.length : ℤ) ≤ input.start ∧ 0 ≤ input.index

theorem Window.next (h : Window base input) : Window base input.next :=
  ⟨h.1, Int.le_add_one h.2⟩

theorem Window.aboveBase (h : Window base input) : AboveBase base n input.slot := by
  obtain ⟨hstart, hindex⟩ := h
  refine .inl ?_
  rw [LuaInputStream.slot]
  omega

theorem grown_read (h : Window base input) (r : Read) :
    Triple (Grown base n log) (r.run input)
      (fun p s => Grown base n log s ∧ Window base p.2) (fun _ => True) := by
  refine (slots_read (grown_slots base log) h.aboveBase r).weaken (fun _ hs => hs) ?_ (fun _ hs => hs)
  rintro p s ⟨hs, heq | heq⟩
  · exact ⟨hs, heq ▸ h.next⟩
  · exact ⟨hs, heq ▸ h⟩

end Base

/-! ## Calls -/

section Calls

variable {base : List Value} {m n : ℕ} {log : List Event} {run : LuaRun} {s s' : LuaState}

theorem callFound_callEvents {sh : Shared} (h : (sh.global callFunction).isFunction = true)
    (request : Request) : CallFound (callEvents sh callFunction request) := by
  have hne : luaTraceName ≠ callFunction := by decide
  intro e he
  simp only [callEvents, List.mem_cons, List.not_mem_nil, or_false] at he
  rcases he with rfl | rfl | rfl
  · exact fun _ => h
  · exact fun hname => absurd hname hne
  · trivial

/-- The results, and the handler, are taken off again. -/
theorem Grown.popResults {handler : Option Value} {tarceIndex : ℤ}
    (htarce : tarceIndex = 0 ↔ handler = none) {ret : Bool}
    (h : Grown base (m + (handler.toList.length + luaResultCount)) log s)
    (hpop : popResults tarceIndex s = .ok ret s') : Grown base m log s' := by
  have hle : handler.toList.length + luaResultCount ≤ s.stack.length := by
    obtain ⟨new, above, -, hstack, hle, -⟩ := h
    rw [hstack, List.length_append]
    omega
  rw [popResults_drop htarce hle] at hpop
  cases hpop
  have hnew : CallFound [] := fun _ he => nomatch he
  have hdrop := h.drop s.shared hnew
  rwa [List.append_nil] at hdrop

theorem callFound_singleton (v : Value) :
    CallFound [.global callFunction v] ↔ v.isFunction = true :=
  ⟨fun h => h _ (List.mem_singleton_self _) rfl,
    fun h e he => by rw [List.mem_singleton.mp he]; exact fun _ => h⟩

/-- A call that has no callback to invoke takes its arguments off, or leaves them. -/
theorem Grown.missed (h : Grown base (m + n) log s) (hpos : 0 < n)
    (hreached : reached run n s = .ok none s') : Grown base m log s' := by
  rcases reached_eq_none hreached with ⟨hfn, rfl⟩ | ⟨hfn, message, shared, -, rfl⟩
  · exact h.left_behind _ hpos (mt (callFound_singleton _).mp (Bool.not_eq_true _ ▸ hfn))
  · exact h.drop shared (callFound_callEvents hfn _)

/-- One that has leaves the results and the handler on the stack. -/
theorem Grown.answered (h : Grown base (m + n) log s) {ack : LuaInputStream} {tarceIndex : ℤ}
    (hreached : reached run n s = .ok (some (ack, tarceIndex)) s') :
    ∃ handler : Option Value, (tarceIndex = 0 ↔ handler = none) ∧
      Grown base (m + (handler.toList.length + luaResultCount)) log s' ∧
      (base.length : ℤ) ≤ ack.start ∧ ack.index = 0 := by
  obtain ⟨hfn, rfl, results, shared, -, rfl, rfl⟩ := reached_eq_some hreached
  refine ⟨traceHandler s.shared, traceIndex_eq_zero_iff _ n, ?_, ?_, rfl⟩
  · have hdrop := (h.drop shared (callFound_callEvents hfn (callRequest n s))).push shared
      ((adjust luaResultCount results).reverse ++ (traceHandler s.shared).toList)
    rw [List.length_append, List.length_reverse, adjust_length, List.append_assoc] at hdrop
    rwa [Nat.add_comm (traceHandler s.shared).toList.length]
  · obtain ⟨new, above, hlog, hstack, hle, hiff⟩ := h
    dsimp only [resultStream]
    rw [hstack, List.length_append, List.length_drop, List.length_append]
    omega

end Calls

/-! ## Programs -/

/-- The values that wait on the stack to be passed by the calls around, the outermost `outs`
streams apart. -/
def pending (outs : ℕ) (streams : Streams) : ℕ :=
  ((streams.outputs.drop outs).map LuaOutputStream.count).sum

/-- Above `base` there are the values written so far, and `n` slots of the calls around.  Streams
but the outermost ones read there. -/
structure Heights (base : List Value) (ins outs : ℕ) (log : List Event) (n : ℕ) (streams : Streams)
    (s : LuaState) : Prop where
  grown : Grown base (n + pending outs streams) log s
  counts : ∀ o, outs ≤ o → o < streams.outputs.length → 2 ≤ (streams.output o).count
  windows : ∀ i, ins ≤ i → i < streams.inputs.length → Window base (streams.input i)

section Programs

theorem sum_count_set (outputs : List LuaOutputStream) {o : ℕ} (ho : o < outputs.length) (d : ℕ) :
    ((outputs.set o ⟨(outputs.getD o {}).count + d⟩).map LuaOutputStream.count).sum
      = (outputs.map LuaOutputStream.count).sum + d := by
  induction outputs generalizing o with
  | nil => exact absurd ho (Nat.not_lt_zero o)
  | cons output outputs ih =>
      cases o with
      | zero =>
          simp only [List.set_cons_zero, List.getD_cons_zero, List.map_cons, List.sum_cons]
          omega
      | succ o =>
          have hrest := ih (Nat.lt_of_succ_lt_succ ho)
          simp only [List.set_cons_succ, List.getD_cons_succ, List.map_cons, List.sum_cons, hrest]
          omega

theorem pending_setOutput {outs : ℕ} {streams : Streams} {o : ℕ} (ho : o < streams.outputs.length)
    {d : ℕ} (h : outs ≤ o ∨ d = 0) :
    pending outs (streams.setOutput o ⟨(streams.output o).count + d⟩) = pending outs streams + d := by
  rw [pending, pending, Streams.setOutput, Streams.output]
  dsimp only
  rw [List.drop_set]
  by_cases hlt : o < outs
  · rw [if_pos hlt]
    omega
  · have hget : (streams.outputs.drop outs).getD (o - outs) {} = streams.outputs.getD o {} := by
      simp only [List.getD_eq_getElem?_getD, List.getElem?_drop]
      rw [Nat.add_sub_cancel' (Nat.not_lt.mp hlt)]
    rw [if_neg hlt, ← hget, sum_count_set _ (by rw [List.length_drop]; omega)]

theorem pending_withOutput {outs : ℕ} {streams : Streams} (houts : outs ≤ streams.outputs.length)
    (output : LuaOutputStream) :
    pending outs (streams.withOutput output) = pending outs streams + output.count := by
  rw [pending, pending, Streams.withOutput, List.drop_append_of_le_length houts, List.map_append,
    List.sum_append]
  simp

theorem pending_of_sized {ins outs : ℕ} {streams : Streams} (h : streams.Sized ins outs) :
    pending outs streams = 0 := by
  rw [pending, List.drop_eq_nil_of_le (Nat.le_of_eq h.2)]
  rfl

@[simp] theorem pending_withInput (outs : ℕ) (streams : Streams) (input : LuaInputStream) :
    pending outs (streams.withInput input) = pending outs streams := rfl

/-- Before anything is done, nothing lies above the base. -/
theorem heights_start {ins outs : ℕ} {streams : Streams} (hsized : streams.Sized ins outs)
    (s : LuaState) : Heights s.stack ins outs s.log 0 streams s := by
  refine ⟨⟨[], [], (List.append_nil _).symm, rfl, ?_, ?_⟩, fun o ho hlt => ?_, fun i hi hlt => ?_⟩
  · rw [pending_of_sized hsized]
    exact Nat.le_refl 0
  · rw [pending_of_sized hsized]
    exact iff_of_true rfl fun _ he => nomatch he
  · rw [hsized.2] at hlt
    exact absurd hlt (Nat.not_lt.mpr ho)
  · rw [hsized.1] at hlt
    exact absurd hlt (Nat.not_lt.mpr hi)

namespace Heights

variable {base : List Value} {ins outs : ℕ} {log : List Event} {n : ℕ} {streams : Streams}
  {s s' : LuaState} (h : Heights base ins outs log n streams s)
include h

theorem read {i : ℕ} (hi : ins ≤ i) (hlt : i < streams.inputs.length) {r : Read}
    {val : Option Datum} {input : LuaInputStream}
    (hread : r.run (streams.input i) s = .ok (val, input) s') :
    Heights base ins outs log n (streams.setInput i input) s' := by
  obtain ⟨hgrown, hwindow⟩ := (grown_read (h.windows i hi hlt) r).of_ok h.grown hread
  refine ⟨hgrown, h.counts, fun j hj hlt' => ?_⟩
  rw [streams.input_setInput hlt]
  split
  · exact hwindow
  · exact h.windows j hj (by rwa [Streams.setInput, List.length_set] at hlt')

theorem reset {i : ℕ} (hlt : i < streams.inputs.length) :
    Heights base ins outs log n (streams.setInput i (streams.input i).reset) s := by
  refine ⟨h.grown, h.counts, fun j hj hlt' => ?_⟩
  rw [streams.input_setInput hlt]
  split
  · next heq =>
      subst heq
      exact ⟨(h.windows i hj hlt).1, Int.le_refl 0⟩
  · exact h.windows j hj (by rwa [Streams.setInput, List.length_set] at hlt')

theorem write {o : ℕ} (hlt : o < streams.outputs.length) {w : Write}
    (ho : outs ≤ o ∨ w.value = none) :
    Heights base ins outs log n
      (streams.setOutput o ⟨(streams.output o).count + w.value.toList.length⟩)
      ⟨w.value.toList.reverse ++ s.stack, s.log, s.shared⟩ := by
  have ho' : outs ≤ o ∨ w.value.toList.length = 0 := ho.imp_right fun hw => by rw [hw]; rfl
  refine ⟨?_, fun j hj hlt' => ?_, h.windows⟩
  · have hpush := h.grown.push s.shared w.value.toList.reverse
    rwa [List.length_reverse, Nat.add_assoc, ← pending_setOutput hlt ho'] at hpush
  · rw [Streams.setOutput, List.length_set] at hlt'
    rw [streams.output_setOutput hlt]
    have hcount := h.counts j hj hlt'
    split
    · next heq =>
        subst heq
        exact Nat.le_add_right_of_le hcount
    · exact hcount

theorem enter (houts : outs ≤ streams.outputs.length) (u v : Value) :
    Heights base ins outs log n (streams.withOutput ⟨2⟩) ⟨u :: v :: s.stack, s.log, s.shared⟩ := by
  refine ⟨?_, fun o ho hlt => ?_, h.windows⟩
  · rw [pending_withOutput houts, ← Nat.add_assoc]
    exact h.grown.push s.shared [u, v]
  · by_cases hlt' : o < streams.outputs.length
    · rw [streams.output_withOutput _ hlt']
      exact h.counts o ho hlt'
    · rw [Streams.withOutput, List.length_append, List.length_singleton] at hlt
      have heq : o = streams.outputs.length := by omega
      rw [heq, streams.output_withOutput_last]

omit h in
/-- The values of a call are on the stack. -/
theorem split {count : ℕ} (houts : outs ≤ streams.outputs.length)
    (h : Heights base ins outs log n (streams.withOutput ⟨count⟩) s) :
    Grown base (n + pending outs streams + count) log s ∧ 2 ≤ count ∧
      (∀ o, outs ≤ o → o < streams.outputs.length → 2 ≤ (streams.output o).count) ∧
      ∀ i, ins ≤ i → i < streams.inputs.length → Window base (streams.input i) := by
  have hlen : (streams.withOutput ⟨count⟩).outputs.length = streams.outputs.length + 1 :=
    List.length_append
  refine ⟨?_, ?_, fun o ho hlt => ?_, h.windows⟩
  · have hgrown := h.grown
    rwa [pending_withOutput houts, ← Nat.add_assoc] at hgrown
  · have hcount := h.counts _ houts (by omega)
    rwa [streams.output_withOutput_last] at hcount
  · have hcount := h.counts o ho (by omega)
    rwa [streams.output_withOutput _ hlt] at hcount

omit h in
theorem missed {count : ℕ} (houts : outs ≤ streams.outputs.length)
    (h : Heights base ins outs log n (streams.withOutput ⟨count⟩) s) {run : LuaRun}
    (hreached : reached run count s = .ok none s') : Heights base ins outs log n streams s' := by
  obtain ⟨hgrown, hpos, hcounts, hwindows⟩ := split houts h
  exact ⟨hgrown.missed (by omega) hreached, hcounts, hwindows⟩

omit h in
theorem answered {count : ℕ} (houts : outs ≤ streams.outputs.length)
    (h : Heights base ins outs log n (streams.withOutput ⟨count⟩) s) {run : LuaRun}
    {ack : LuaInputStream} {tarceIndex : ℤ}
    (hreached : reached run count s = .ok (some (ack, tarceIndex)) s') :
    ∃ n', Heights base ins outs log n' (streams.withInput ack) s' ∧
      ∀ {streams : Streams} {s ret s'}, Heights base ins outs log n' streams s →
        popResults tarceIndex s = .ok ret s' → Heights base ins outs log n streams.dropInput s' := by
  obtain ⟨hgrown, -, hcounts, hwindows⟩ := split houts h
  obtain ⟨handler, htarce, hgrown', hstart, hindex⟩ := hgrown.answered hreached
  refine ⟨n + (handler.toList.length + luaResultCount), ⟨?_, hcounts, fun i hi hlt => ?_⟩, ?_⟩
  · rwa [Nat.add_right_comm] at hgrown'
  · by_cases hlt' : i < streams.inputs.length
    · rw [streams.input_withInput _ hlt']
      exact hwindows i hi hlt'
    · rw [Streams.withInput, List.length_append, List.length_singleton] at hlt
      have heq : i = streams.inputs.length := by omega
      rw [heq, streams.input_withInput_last]
      exact ⟨hstart, Int.le_of_eq hindex.symm⟩
  · intro streams₂ s₂ ret s₃ h₂ hpop
    have hgrown₂ := h₂.grown
    rw [Nat.add_right_comm] at hgrown₂
    refine ⟨hgrown₂.popResults htarce hpop, h₂.counts, fun i hi hlt => ?_⟩
    rw [streams₂.input_dropInput hlt]
    refine h₂.windows i hi ?_
    rw [Streams.dropInput, List.length_dropLast] at hlt
    omega

end Heights

theorem short_append {xs ys : List Visit} : Short (xs ++ ys) ↔ Short xs ∧ Short ys :=
  List.forall_mem_append

/-- **What programs keep**: heights, as long as the calls are short. -/
theorem kept_heights (base : List Value) (log : List Event) :
    Kept Short 0 0 fun n _ streams s => Heights base 0 0 log n streams s where
  left := fun h => (short_append.mp h).1
  short := id
  read := fun _ hlt h hread => h.read (Nat.zero_le _) hlt hread
  reset := fun _ hlt h => h.reset hlt
  quiet := fun _ h => h
  write := fun _ hlt h => h.write hlt (.inl (Nat.zero_le _))
  enter := fun u v hk h => h.enter hk u v
  height := fun hk h => by
    obtain ⟨⟨new, above, -, hstack, hle, -⟩, -⟩ := Heights.split hk h
    rw [hstack, List.length_append]
    omega
  missed := fun hk h hreached => Heights.missed hk h hreached
  answered := fun _ hl h hreached => by
    obtain ⟨n', hanswered, hpops⟩ := Heights.answered hl h hreached
    exact ⟨n', hanswered, fun _ h₂ hpop => hpops h₂ hpop⟩

end Programs

/-! ## The stack after a call -/

/-- **When a call leaves the stack as it was.**  What was on the stack before keeps its
contents in any case; something more is left on it exactly when this call, or one that its
closures make on the same stack, did not find the global `call` to be a function. -/
theorem callScriptFunc_neutral_iff (module func : Bytes) (outPutFunc : OutPut 0 0)
    (lua : Request → Shared → Script) (callBackFun : Callback 0 0) {s s' : LuaState} {ret : Bool}
    {visits : List Visit} {streams : Streams}
    (h : callScriptFunc (fun request shared => (lua request shared).run) module func outPutFunc.run
      callBackFun.run ([], {}) s = .ok (ret, visits, streams) s') (hshort : Short visits) :
    ∃ new left, s'.log = s.log ++ new ∧ s'.stack = left ++ s.stack ∧
      (s'.stack = s.stack ↔ CallFound new) := by
  have hkept := kept_heights s.stack s.log
  have hempty : Streams.Sized 0 0 {} := ⟨rfl, rfl⟩
  have hshort' : Short ([] ++ visits) := hshort
  obtain ⟨hsized, hend⟩ := hkept.call (Nat.le_refl 0) (Nat.le_refl 0)
    (fun f hf => hkept.outPut (Nat.le_refl 0) (Nat.le_refl 0) outPutFunc hf)
    (fun cb hcb => hkept.callback (Nat.le_refl 0) (Nat.le_refl 0) callBackFun hcb)
    hempty (heights_start hempty s) h hshort'
  obtain ⟨new, left, hlog, hstack, -, hiff⟩ := hend.grown
  refine ⟨new, left, hlog, hstack, ?_⟩
  rw [pending_of_sized hsized] at hiff
  rw [← hiff, hstack, List.append_left_eq_self, ← List.length_eq_zero_iff]

/-- A callback that reads a result and makes a call that fails with a Lua error. -/
def exampleCallback : Callback 0 0 :=
  .of fun _ => .perform (.read (Fin.last 0) .str) fun _ => .perform (.call (ascii "m") (ascii "g") .empty
    (fun _ sh => .error sh (.raised (.string (ascii "failed")))) .empty) fun _ => .done

/-- An `outPutFunc` that writes `true`. -/
def exampleOutPut : OutPut 0 0 := .of (.perform (.write (Fin.last 0) (.bool true)) fun _ => .done)

/-- Whether the calls are short. -/
def shortCount : Outcome → Bool
  | .passed n => n ≤ 127
  | _ => true

theorem short_of_all {visits : List Visit} (h : (outcomes visits).all shortCount = true) :
    Short visits := by
  intro v hv n hn
  have hcount := List.all_eq_true.mp h v.outcome (List.mem_map_of_mem hv)
  rw [hn] at hcount
  exact of_decide_eq_true hcount

/-- A call with such closures, above a value of its caller. -/
theorem callScriptFunc_neutral_nested : ∃ captured s',
    callScriptFunc (fun _ sh => (Script.ret sh [.integer 5]).run) (ascii "m") (ascii "f")
      exampleOutPut.run exampleCallback.run ([], {}) ⟨[.boolean false], [], exampleShared⟩
        = .ok (true, captured) s' ∧ s'.stack = [.boolean false] := by
  obtain ⟨⟨ret, visits, streams⟩, s', hrun, hobs⟩ := exists_ok_of_observed
    (f := fun p s => (p.1, decide (CallFound s.log), (outcomes p.2.1).all shortCount))
    (b := (true, true, true))
    (r := callScriptFunc (fun _ sh => (Script.ret sh [.integer 5]).run) (ascii "m") (ascii "f")
      exampleOutPut.run exampleCallback.run ([], {}) ⟨[.boolean false], [], exampleShared⟩)
    (by decide +kernel)
  simp only [Prod.mk.injEq] at hobs
  obtain ⟨rfl, hfound, hcounts⟩ := hobs
  obtain ⟨new, left, hlog, -, hiff⟩ := callScriptFunc_neutral_iff (ascii "m") (ascii "f")
    exampleOutPut (fun _ sh => .ret sh [.integer 5]) exampleCallback hrun (short_of_all hcounts)
  rw [hlog] at hfound
  exact ⟨_, s', hrun, hiff.mpr (of_decide_eq_true hfound)⟩

/-- Without the global `call`, module and function stay on the stack. -/
theorem not_stack_neutral : ¬∀ (module func : Bytes) (outPutFunc : OutPut 0 0)
    (lua : Request → Shared → Script) (callBackFun : Callback 0 0) (s s' : LuaState) (ret : Bool)
    (visits : List Visit) (streams : Streams),
    callScriptFunc (fun request shared => (lua request shared).run) module func outPutFunc.run
      callBackFun.run ([], {}) s = .ok (ret, visits, streams) s' → Short visits →
    s'.stack = s.stack := by
  intro h
  have hleft := h (ascii "m") (ascii "f") .empty (fun _ sh => .ret sh []) .empty { stack := [] } _ _
    _ _ rfl (fun _ he => nomatch he)
  cases hleft

end SeedCore.Lua
