import SeedCore.Lib.Relational
import SeedCore.Lua.Meaning

/-!
# Calls between C++ and Lua, without a stack

The engine gives every program its meaning, at any depth, as long as the calls find the function
`call` and pass no more than 125 values, and no closure of a call writes a value to a stream of the
code around it.  What the code can reach then lies on the stack in the order of the streams.

## Main definitions

* `Shows` — a view, as it lies on the stack.
* `script_run_eq_eval`, `callScriptFunc_eq_invoke` — the engine computes the meaning.
-/

namespace SeedCore.Lua

/-! ## A view on the stack -/

/-- The values that C++ code was given, as they lie on the stack, each over its `base`. -/
def layout : List (List Value) → List Given → List Value
  | base :: bases, g :: gs => base ++ (g.values ++ layout bases gs)
  | _, _ => []

/-- The streams over them, above `n` other slots. -/
def windows : ℕ → List (List Value) → List Given → List LuaInputStream
  | n, base :: bases, g :: gs => ⟨g.index, (n + base.length : ℕ), g.values.length⟩ ::
      windows (n + base.length + g.values.length) bases gs
  | _, _, _ => []

/-- What C++ code can reach lies on the stack: under `rest` the values that it was given, so many
for each stream.  The values written are somewhere between them. -/
structure Shows (bases : List (List Value)) (rest : List Value) (written : List (List Value))
    (ns : List ℕ) (streams : Streams) (s : LuaState) (view : View) (sh : Shared) : Prop where
  stack_eq : s.stack.reverse = layout bases view.given ++ rest
  lengths_eq : view.given.map (fun g => g.values.length) = ns
  bases_eq : bases.length = ns.length
  written_eq : view.written = written
  streams_eq : streams =
    ⟨windows 0 bases view.given, written.map fun vs => (⟨vs.length⟩ : LuaOutputStream)⟩
  shared_eq : s.shared = sh

/-- The values written to the last stream, if it is the own one, lie on top of the stack. -/
def Owns (own : Bool) (bases : List (List Value)) (rest : List Value) (outer : List (List Value))
    (ns : List ℕ) (streams : Streams) (s : LuaState) (view : View) (sh : Shared) : Prop :=
  ∃ top, (own = false → top = []) ∧
    Shows bases (rest ++ top) (outer ++ if own then [top] else []) ns streams s view sh

/-- Where both have stopped, the same is shared. -/
def Halted (s : LuaState) (sh : Shared) : Prop := s.shared = sh

section Layout

variable {bases : List (List Value)} {gs : List Given}

/-- One of the streams, and what changes with its values and cursor. -/
theorem layout_split (n : ℕ) (hlen : bases.length = gs.length) {i : ℕ} {g : Given}
    (h : gs[i]? = some g) : ∃ pre post, layout bases gs = pre ++ (g.values ++ post) ∧
      (windows n bases gs)[i]? = some ⟨g.index, (n + pre.length : ℕ), g.values.length⟩ ∧
      ∀ g' : Given, g'.values.length = g.values.length →
        layout bases (gs.set i g') = pre ++ (g'.values ++ post) ∧
        windows n bases (gs.set i g') =
          (windows n bases gs).set i ⟨g'.index, (n + pre.length : ℕ), g'.values.length⟩ := by
  induction gs generalizing n bases i with
  | nil => simp at h
  | cons g₀ gs ih =>
      cases bases with
      | nil => cases hlen
      | cons base bases =>
          cases i with
          | zero =>
              obtain rfl : g₀ = g := by simpa using h
              refine ⟨base, layout bases gs, rfl, rfl, fun g' hg' => ⟨rfl, ?_⟩⟩
              simp only [List.set_cons_zero, windows, hg']
          | succ i =>
              obtain ⟨pre, post, hlayout, hwindow, hset⟩ :=
                ih (n + base.length + g₀.values.length) (Nat.succ.inj hlen) (by simpa using h)
              have hstart : n + base.length + g₀.values.length + pre.length =
                  n + (base ++ (g₀.values ++ pre)).length := by
                simp only [List.length_append]
                omega
              rw [hstart] at hwindow hset
              refine ⟨base ++ (g₀.values ++ pre), post, ?_, ?_, fun g' hg' => ⟨?_, ?_⟩⟩
              · simp only [layout, hlayout, List.append_assoc]
              · simpa only [windows, List.getElem?_cons_succ] using hwindow
              · simp only [List.set_cons_succ, layout, (hset g' hg').1, List.append_assoc]
              · simp only [List.set_cons_succ, windows, (hset g' hg').2]

theorem layout_concat (hlen : bases.length = gs.length) (base : List Value) (g : Given) :
    layout (bases ++ [base]) (gs ++ [g]) = layout bases gs ++ (base ++ g.values) := by
  induction gs generalizing bases with
  | nil =>
      obtain rfl := List.length_eq_zero_iff.mp hlen
      simp [layout]
  | cons g₀ gs ih =>
      cases bases with
      | nil => cases hlen
      | cons base₀ bases =>
          simp only [List.cons_append, layout, ih (Nat.succ.inj hlen), List.append_assoc]

theorem windows_concat (n : ℕ) (hlen : bases.length = gs.length) (base : List Value) (g : Given) :
    windows n (bases ++ [base]) (gs ++ [g]) = windows n bases gs ++
      [⟨g.index, (n + (layout bases gs ++ base).length : ℕ), g.values.length⟩] := by
  induction gs generalizing n bases with
  | nil =>
      obtain rfl := List.length_eq_zero_iff.mp hlen
      simp [layout, windows]
  | cons g₀ gs ih =>
      cases bases with
      | nil => cases hlen
      | cons base₀ bases =>
          have hstart : n + base₀.length + g₀.values.length + (layout bases gs ++ base).length =
              n + (layout (base₀ :: bases) (g₀ :: gs) ++ base).length := by
            simp only [layout, List.length_append]
            omega
          simp only [List.cons_append, windows, ih _ (Nat.succ.inj hlen), hstart]

end Layout

section Operations

variable {bases written : List (List Value)} {rest : List Value} {ns : List ℕ} {streams : Streams}
  {s : LuaState} {view : View} {sh : Shared}

/-- **One of the input streams**, and what is needed to go on after a use of it. -/
theorem Shows.window (h : Shows bases rest written ns streams s view sh) {i : ℕ}
    (hi : i < ns.length) : ∃ pre post, s.stack.reverse = pre ++ ((view.input i).values ++ post) ∧
      streams.input i = ⟨(view.input i).index, pre.length, (view.input i).values.length⟩ ∧
      ∀ (g : Given) (s' : LuaState) (sh' : Shared), g.values.length = (view.input i).values.length →
        s'.stack.reverse = pre ++ (g.values ++ post) → s'.shared = sh' →
        Shows bases rest written ns
          (streams.setInput i ⟨g.index, pre.length, (view.input i).values.length⟩) s'
          (view.setInput i g) sh' := by
  obtain ⟨hstack, hlengths, hbases, hwritten, rfl, hshared⟩ := h
  have hlen : view.given.length = ns.length := by rw [← hlengths, List.length_map]
  obtain ⟨g, hg⟩ : ∃ g, view.given[i]? = some g := ⟨_, List.getElem?_eq_getElem (hlen ▸ hi)⟩
  have hinput : view.input i = g := by
    rw [View.input, List.getD_eq_getElem?_getD, hg]
    rfl
  obtain ⟨pre, post, hlayout, hwindow, hset⟩ := layout_split 0 (hbases.trans hlen.symm) hg
  rw [Nat.zero_add] at hwindow hset
  rw [hinput]
  refine ⟨pre, post ++ rest, ?_, ?_, fun g' s' sh' hg' hstack' hshared' => ?_⟩
  · rw [hstack, hlayout]
    simp only [List.append_assoc]
  · rw [Streams.input, List.getD_eq_getElem?_getD, hwindow]
    rfl
  · refine ⟨?_, ?_, hbases, hwritten, ?_, hshared'⟩
    · rw [hstack', View.setInput, (hset g' hg').1]
      simp only [List.append_assoc]
    · rw [View.setInput, List.map_set, hg', hlengths]
      have hns : ns[i]? = some g.values.length := by rw [← hlengths, List.getElem?_map, hg]; rfl
      obtain ⟨_, hget⟩ := List.getElem?_eq_some_iff.mp hns
      rw [← hget]
      exact List.set_getElem_self _
    · rw [Streams.setInput, View.setInput, (hset g' hg').2, hg']

/-- **A read** does what its meaning says. -/
theorem Shows.read (h : Shows bases rest written ns streams s view sh) {i : ℕ} (hi : i < ns.length)
    (r : Read) : SameEnds (fun p s q sh => p.1 = q.1 ∧
        Shows bases rest written ns (streams.setInput i p.2) s (view.setInput i q.2) sh) Halted
      (r.run (streams.input i) s) ((view.input i).read r sh) := by
  obtain ⟨pre, post, hstack, hinput, hset⟩ := h.window hi
  obtain ⟨stack, log, sh'⟩ := s
  obtain rfl : sh' = sh := h.shared_eq
  have hsame := hset (view.input i) ⟨stack, log, sh'⟩ sh' rfl hstack rfl
  by_cases hblob : r = .blob
  · subst hblob
    rw [hinput]
    exact ⟨rfl, hsame⟩
  · rw [Given.read, if_neg hblob]
    cases hv : (view.input i).values[(view.input i).index]? with
    | none =>
        have hle := List.getElem?_eq_none_iff.mp hv
        have hend : (streams.input i).count ≤ (streams.input i).index := by
          rw [hinput]
          exact Int.ofNat_le.mpr hle
        rw [Read.run_end hend, hinput]
        exact ⟨rfl, hsame⟩
    | some v =>
        obtain ⟨hlt, -⟩ := List.getElem?_eq_some_iff.mp hv
        have hbefore : (streams.input i).index < (streams.input i).count := by
          rw [hinput]
          exact Int.ofNat_lt.mpr hlt
        have hslot : (streams.input i).slot = (pre.length + (view.input i).index : ℕ) + 1 := by
          rw [hinput, LuaInputStream.slot]
          push_cast
          omega
        have hget : stack.reverse[pre.length + (view.input i).index]? = some v := by
          rw [show stack.reverse = _ from hstack, List.getElem?_append_right (by omega),
            Nat.add_sub_cancel_left, List.getElem?_append_left hlt, hv]
        have hrun := Read.run_eval hbefore hslot hget log sh' hblob
        rw [List.reverse_reverse] at hrun
        rw [hrun]
        dsimp only
        cases heval : r.eval v sh' with
        | error fault shared =>
            rw [bind_error heval]
            exact ⟨rfl, rfl⟩
        | ok val shared =>
            rw [bind_ok heval]
            refine ⟨rfl, ?_⟩
            -- the slot is the one under the cursor
            have hnext := hset ⟨(view.input i).values.set (view.input i).index (r.after v),
              (view.input i).index + 1⟩ ⟨(stack.reverse.set (pre.length + (view.input i).index)
                (r.after v)).reverse, log, shared⟩ shared (List.length_set) (by
                  rw [List.reverse_reverse, show stack.reverse = _ from hstack,
                    List.set_append_right _ _ (by omega), Nat.add_sub_cancel_left,
                    List.set_append_left _ _ hlt]) rfl
            rw [hinput, LuaInputStream.next]
            push_cast at hnext
            exact hnext

theorem Shows.withStack {rest' : List Value} {s' : LuaState}
    (h : Shows bases rest written ns streams s view sh)
    (hstack : s'.stack.reverse = layout bases view.given ++ rest') :
    Shows bases rest' written ns streams s' view s'.shared :=
  ⟨hstack, h.lengths_eq, h.bases_eq, h.written_eq, h.streams_eq, rfl⟩

/-- What is pushed lies on top. -/
theorem Shows.push (h : Shows bases rest written ns streams s view sh) (vs : List Value)
    (log : List Event) (shared : Shared) :
    Shows bases (rest ++ vs) written ns streams ⟨vs.reverse ++ s.stack, log, shared⟩ view shared :=
  h.withStack (by
    dsimp only
    rw [List.reverse_append, List.reverse_reverse, h.stack_eq, List.append_assoc])

/-- What lies on top can be taken off. -/
theorem Shows.split {vs : List Value} (h : Shows bases (rest ++ vs) written ns streams s view sh) :
    ∃ below, s.stack = vs.reverse ++ below ∧
      ∀ log shared, Shows bases rest written ns streams ⟨below, log, shared⟩ view shared := by
  refine ⟨(layout bases view.given ++ rest).reverse, ?_, fun log shared => h.withStack ?_⟩
  · rw [← List.reverse_append, List.append_assoc, ← h.stack_eq, List.reverse_reverse]
  · exact List.reverse_reverse _

end Operations

/-! ## Writes -/

section Writes

section List

variable {α : Type} (l : List α) (x y d : α)

theorem set_getD_self (i : ℕ) : l.set i (l.getD i d) = l := by
  rcases Nat.lt_or_ge i l.length with h | h
  · rw [List.getD_eq_getElem?_getD, List.getElem?_eq_getElem h, Option.getD_some,
      List.set_getElem_self]
  · exact List.set_eq_of_length_le h

variable {n : ℕ} (hn : n = l.length)
include hn

theorem getD_concat : (l ++ [x]).getD n d = x := by
  subst hn
  simp

theorem set_concat : (l ++ [x]).set n y = l ++ [y] := by
  subst hn
  simp

end List

variable {own : Bool} {bases outer : List (List Value)} {rest : List Value} {ns : List ℕ}
  {streams : Streams} {s : LuaState} {view : View} {sh : Shared}

/-- **A write to the own stream** goes on top of the values written before. -/
theorem Owns.write (h : Owns true bases rest outer ns streams s view sh) (vs : List Value) :
    Owns true bases rest outer ns
      (streams.setOutput outer.length ⟨(streams.output outer.length).count + vs.length⟩)
      ⟨vs.reverse ++ s.stack, s.log, s.shared⟩ (view.write outer.length vs) sh := by
  obtain ⟨top, -, hstack, hlengths, hbases, hwritten, rfl, hshared⟩ := h
  simp only [if_true] at hwritten
  have houtput : view.output outer.length = top := by
    rw [View.output, hwritten, getD_concat outer top [] rfl]
  have hlen : outer.length = (outer.map fun vs => (⟨vs.length⟩ : LuaOutputStream)).length :=
    (List.length_map _).symm
  refine ⟨top ++ vs, nofun, ?_, hlengths, hbases, ?_, ?_, hshared⟩
  · dsimp only [View.write]
    rw [List.reverse_append, List.reverse_reverse, hstack]
    simp only [List.append_assoc]
  · rw [View.write, houtput, hwritten, set_concat outer _ _ rfl, if_pos rfl]
  · simp only [Streams.setOutput, Streams.output, if_true, List.map_append, List.map_cons,
      List.map_nil, getD_concat _ _ _ hlen, set_concat _ _ _ hlen, List.length_append, View.write]

/-- **A write that the code is free to make.** -/
theorem Owns.op_write {ins outs : ℕ} {o : Fin outs} {w : Write}
    (h : Owns own bases rest outer ns streams s view sh) (houts : outer.length + own.toNat = outs)
    (hw : w.value = none ∨ (own = true ∧ (o : ℕ) + 1 = outs)) :
    SameEnds (fun p s q sh => outcomes p.1 = q.1 ∧ Owns own bases rest outer ns p.2 s q.2 sh) Halted
      ((Op.write o w : Op ins outs).run streams s) ((Op.write o w : Op ins outs).eval view sh) := by
  obtain ⟨stack, log, shared⟩ := s
  obtain rfl : shared = sh := h.choose_spec.2.shared_eq
  have hrun : (Op.write o w : Op ins outs).run streams ⟨stack, log, shared⟩ =
      .ok ([⟨.wrote o w, shared⟩],
        streams.setOutput o ⟨(streams.output o).count + w.value.toList.length⟩)
        ⟨w.value.toList.reverse ++ stack, log, shared⟩ := by
    rw [Op.run]
    exact (bind_ok rfl).trans (bind_ok (w.run_eq stack log shared (streams.output o)))
  rw [hrun, Op.eval]
  refine ⟨rfl, ?_⟩
  rcases hw with hnone | ⟨rfl, ho⟩
  · have hstreams : streams.setOutput o (streams.output o) = streams := by
      rw [Streams.setOutput, Streams.output, set_getD_self]
    have hview : view.write o [] = view := by
      rw [View.write, View.output, List.append_nil, set_getD_self]
    rw [hnone]
    dsimp only [Option.toList_none, List.length_nil, List.reverse_nil, List.nil_append, Nat.add_zero]
    rw [hview, hstreams]
    exact h
  · have hlast : (o : ℕ) = outer.length := by
      rw [Bool.toNat_true] at houts
      omega
    rw [hlast]
    exact h.write _

end Writes

section OutPut

variable {bases written : List (List Value)} {rest top : List Value} {ns : List ℕ}
  {streams : Streams} {s : LuaState} {view : View} {sh : Shared}

/-- An `outPutFunc` owns the stream of the arguments. -/
theorem Shows.withOutput (h : Shows bases (rest ++ top) written ns streams s view sh) :
    Shows bases (rest ++ top) (written ++ if true then [top] else []) ns
      (streams.withOutput ⟨top.length⟩) s (view.withOutput top) sh := by
  obtain ⟨hstack, hlengths, hbases, rfl, rfl, hshared⟩ := h
  refine ⟨hstack, hlengths, hbases, rfl, ?_, hshared⟩
  rw [Streams.withOutput, View.withOutput, if_pos rfl, List.map_append]
  rfl

/-- What it has written is what the call passes. -/
theorem Shows.dropOutput {outs : ℕ}
    (h : Shows bases (rest ++ top) (written ++ if true then [top] else []) ns streams s view sh)
    (houts : written.length = outs) : streams.output outs = ⟨top.length⟩ ∧ view.output outs = top ∧
      Shows bases (rest ++ top) written ns streams.dropOutput s view.dropOutput sh := by
  obtain ⟨hstack, hlengths, hbases, hwritten, rfl, hshared⟩ := h
  rw [if_pos rfl] at hwritten
  refine ⟨?_, ?_, hstack, hlengths, hbases, ?_, ?_, hshared⟩
  · rw [Streams.output, if_pos rfl, List.map_append]
    exact getD_concat _ _ _ (by rw [List.length_map, houts])
  · rw [View.output, hwritten]
    exact getD_concat _ _ _ houts.symm
  · rw [View.dropOutput, hwritten, List.dropLast_concat]
  · rw [Streams.dropOutput, View.dropOutput, if_pos rfl, List.map_append]
    exact congrArg _ List.dropLast_concat

end OutPut

/-! ## One call -/

/-- Filling up with `nil` adds nothing that a callback can read. -/
theorem takeWhile_adjust (results : List Value) :
    (adjust luaResultCount results).takeWhile (fun v => !v.isNil) = readable results := by
  have hnil : ∀ n, (List.replicate n Value.nil).takeWhile (fun v => !v.isNil) = [] := by
    intro n
    cases n <;> rfl
  rw [adjust, readable, List.takeWhile_append]
  split
  · rw [hnil, List.append_nil]
    next h => exact (List.takeWhile_prefix _).eq_of_length h |>.symm
  · rfl

/-- What an `outPutFunc` does with the arguments so far. -/
def OutPutSame {ins outs : ℕ} (outPutFunc : OutPut ins outs) : Prop :=
  ∀ ⦃bases written : List (List Value)⦄ ⦃rest args : List Value⦄ ⦃ns : List ℕ⦄ ⦃streams : Streams⦄
    ⦃s : LuaState⦄ ⦃view : View⦄ ⦃sh : Shared⦄, ns.length = ins → written.length = outs →
    Shows bases (rest ++ args) written ns streams s view sh → outPutFunc.Sound args view sh →
    SameEnds (fun p s q sh => p.1 = ⟨q.1.length⟩ ∧ outcomes p.2.1 = q.2.1 ∧
        Shows bases (rest ++ q.1) written ns p.2.2 s q.2.2 sh) Halted
      (outPut outPutFunc.run ⟨args.length⟩ ([], streams) s) (outPutFunc.eval args view sh)

/-- What a callback does with the results. -/
def CallbackSame {ins outs : ℕ} (callBackFun : Callback ins outs) : Prop :=
  ∀ ⦃bases written : List (List Value)⦄ ⦃rest results : List Value⦄ ⦃ns : List ℕ⦄
    ⦃streams : Streams⦄ ⦃ack : LuaInputStream⦄ ⦃visits : List Visit⦄ ⦃s : LuaState⦄ ⦃view : View⦄
    ⦃sh : Shared⦄, ns.length = ins + 1 → written.length = outs →
    Shows bases rest written ns (streams.withInput ack) s (view.withInput results) sh →
    callBackFun.Sound results (outcomes visits, view) sh →
    SameEnds (fun p s q sh => outcomes p.1 = q.1 ∧ ∃ streams' view', p.2 = streams'.dropInput ∧
        q.2 = view'.dropInput ∧ Shows bases rest written ns streams' s view' sh) Halted
      (callNonNull callBackFun.run ack (visits, streams) s)
      (callBackFun.eval results (outcomes visits, view) sh)

section Call

variable {bases written : List (List Value)} {rest : List Value} {ns : List ℕ} {streams : Streams}
  {s : LuaState} {view : View} {sh : Shared}

/-- The stream over the results is one more window. -/
theorem Shows.withInput {below : List Value} {log : List Event}
    (h : Shows bases rest written ns streams ⟨below, log, sh⟩ view sh) (results : List Value)
    (handler : Option Value) (log' : List Event) (shared : Shared) :
    Shows (bases ++ [rest ++ handler.toList])
      ((adjust luaResultCount results).dropWhile fun v => !v.isNil) written
      (ns ++ [(readable results).length])
      (streams.withInput (resultStream (adjust luaResultCount results) (handler.toList ++ below)))
      ⟨(adjust luaResultCount results).reverse ++ (handler.toList ++ below), log', shared⟩
      (view.withInput (readable results)) shared := by
  obtain ⟨hstack, hlengths, hbases, hwritten, rfl, -⟩ := h
  have hlen : bases.length = view.given.length := by
    rw [hbases, ← hlengths, List.length_map]
  have hsplit := List.takeWhile_append_dropWhile (p := fun v : Value => !v.isNil)
    (l := adjust luaResultCount results)
  rw [takeWhile_adjust] at hsplit
  have hbelow : (handler.toList ++ below).reverse = layout bases view.given ++ (rest ++ handler.toList) := by
    rw [List.reverse_append, show below.reverse = _ from hstack]
    cases handler with
    | none => simp
    | some v => simp
  refine ⟨?_, ?_, ?_, hwritten, ?_, rfl⟩
  · dsimp only [View.withInput]
    rw [List.reverse_append, List.reverse_reverse, hbelow, layout_concat hlen]
    conv_lhs => rw [← hsplit]
    simp only [List.append_assoc]
  · simp only [View.withInput, List.map_append, hlengths, List.map_cons, List.map_nil]
  · simp only [List.length_append, hbases, List.length_singleton]
  · have hstart := congrArg List.length hbelow
    rw [List.length_reverse] at hstart
    simp only [View.withInput, Streams.withInput, windows_concat 0 hlen, resultStream, takeWhile_adjust,
      hstart, Nat.zero_add]
    rfl

/-- **The window is taken off again** with the message handler. -/
theorem Shows.dropInput {handler : Option Value} {n : ℕ} {upper : List Value}
    (h : Shows (bases ++ [rest ++ handler.toList]) upper written (ns ++ [n]) streams s view sh)
    (hn : n + upper.length = luaResultCount) :
    handler.toList.length + luaResultCount ≤ s.stack.length ∧
    Shows bases rest written ns streams.dropInput
      ⟨s.stack.drop (handler.toList.length + luaResultCount), s.log, s.shared⟩ view.dropInput sh := by
  obtain ⟨hstack, hlengths, hbases, hwritten, rfl, hshared⟩ := h
  obtain ⟨gs, gs', hgiven, hgs, hgs'⟩ := List.map_eq_append_iff.mp hlengths
  obtain ⟨g, rfl, hg⟩ := List.map_eq_singleton_iff.mp hgs'
  have hbases' : bases.length = gs.length := by
    rw [List.length_append, List.length_append] at hbases
    rw [← hgs, List.length_map] at hbases
    exact Nat.add_right_cancel hbases
  rw [hgiven, layout_concat hbases'] at hstack
  have htop : s.stack = (handler.toList ++ (g.values ++ upper)).reverse ++ (layout bases gs ++ rest).reverse := by
    rw [← List.reverse_append, ← List.reverse_reverse s.stack, hstack]
    simp only [List.append_assoc]
  have hlen : handler.toList.length + luaResultCount =
      (handler.toList ++ (g.values ++ upper)).reverse.length := by
    rw [List.length_reverse, List.length_append, List.length_append, hg, hn]
  refine ⟨?_, ?_, ?_, ?_, hwritten, ?_, hshared⟩
  · rw [htop, hlen, List.length_append]
    exact Nat.le_add_right _ _
  · dsimp only [View.dropInput]
    rw [htop, hlen, List.drop_left, List.reverse_reverse, hgiven, List.dropLast_concat]
  · rw [View.dropInput, hgiven, List.dropLast_concat, hgs]
  · rw [hbases', ← hgs, List.length_map]
  · rw [Streams.dropInput, View.dropInput, hgiven, windows_concat 0 hbases', List.dropLast_concat,
      List.dropLast_concat]

/-- **The answer**: the callback gets the results, and then they are taken off. -/
theorem answer_same {ins outs : ℕ} {callBackFun : Callback ins outs}
    (hcallback : CallbackSame callBackFun) (hins : ns.length = ins) (houts : written.length = outs)
    {below : List Value} {log : List Event}
    (h : Shows bases rest written ns streams ⟨below, log, sh⟩ view sh) (results : List Value)
    {handler : Option Value} {tarceIndex : ℤ} (htarce : tarceIndex = 0 ↔ handler = none)
    (log' : List Event) (shared : Shared) (visits : List Visit)
    (hsound : callBackFun.Sound (readable results) (outcomes visits, view) shared) :
    SameEnds (fun p s q sh => p.1 = q.1 ∧ outcomes p.2.1 = q.2.1 ∧
        Shows bases rest written ns p.2.2 s q.2.2 sh) Halted
      (answer callBackFun.run
        (resultStream (adjust luaResultCount results) (handler.toList ++ below)) tarceIndex
        (visits, streams)
        ⟨(adjust luaResultCount results).reverse ++ (handler.toList ++ below), log', shared⟩)
      (answerWith callBackFun.eval (outcomes visits, view) (.ok results shared)) := by
  rw [answer, answerWith]
  have hentered := h.withInput results handler log' shared
  refine (hcallback (by rw [List.length_append, hins]; rfl) houts hentered hsound).bind ?_
  rintro ⟨xs, streams₁⟩ s₁ ⟨ys, view₁⟩ sh₁ - ⟨hxs, streams₂, view₂, rfl, rfl, hshows⟩
  have hlen : (readable results).length +
      ((adjust luaResultCount results).dropWhile fun v => !v.isNil).length = luaResultCount := by
    rw [← takeWhile_adjust, ← List.length_append, List.takeWhile_append_dropWhile, adjust_length]
  obtain ⟨hle, hdropped⟩ := hshows.dropInput hlen
  rw [bind_ok (popResults_drop htarce hle)]
  exact ⟨rfl, hxs, hdropped⟩

/-- **A call** is the call of a function. -/
theorem call_same {ins outs : ℕ} {module func : Bytes} {outPutFunc : OutPut ins outs}
    {lua : Request → Shared → Script} {callBackFun : Callback ins outs}
    (houtPut : OutPutSame outPutFunc)
    (hlua : ∀ request shared, (lua request shared).Sound →
      (lua request shared).run = (lua request shared).eval)
    (hcallback : CallbackSame callBackFun) {own : Bool} (hins : ns.length = ins)
    (houts : written.length = outs) (h : Shows bases rest written ns streams s view sh)
    (hsound : (Op.call module func outPutFunc lua callBackFun).Sound own view sh) :
    SameEnds (fun p s q sh => p.1 = q.1 ∧ outcomes p.2.1 = q.2.1 ∧
        Shows bases rest written ns p.2.2 s q.2.2 sh) Halted
      (callScriptFunc (fun request shared => (lua request shared).run) module func outPutFunc.run
        callBackFun.run ([], streams) s)
      (invoke (fun request shared => (lua request shared).eval) module func outPutFunc.eval
        callBackFun.eval view sh) := by
  obtain ⟨stack, log, shared⟩ := s
  obtain rfl : shared = sh := h.shared_eq
  rw [Op.Sound] at hsound
  obtain ⟨houtSound, hcallSound⟩ := hsound
  have hnamed := h.push (names module func) log shared
  rw [callScriptFunc, bind_ok (preCall_eq _ _ _ module func), invoke]
  refine (houtPut hins houts hnamed houtSound).bind ?_
  rintro ⟨input, visits, streams₁⟩ ⟨stack₁, log₁, sh₁⟩ ⟨args, xs, view₁⟩ sh' heval
    ⟨hinput, hxs, hshows⟩
  dsimp only at hinput hxs hshows
  subst hinput hxs
  obtain rfl : sh₁ = sh' := hshows.shared_eq
  obtain ⟨hle, hfn, hscript, hanswer⟩ := hcallSound args _ sh₁ heval
  obtain ⟨below, hstack, hbelow⟩ := hshows.split
  dsimp only at hstack
  subst hstack
  have hlen : args.length = args.reverse.length := List.length_reverse.symm
  have hrequest : callRequest args.length ⟨args.reverse ++ below, log₁, sh₁⟩ = callOf args sh₁ := by
    rw [callRequest, callOf]
    dsimp only
    rw [hlen, List.take_left, List.reverse_reverse]
  have hfn' : (sh₁.global callFunction).isFunction = true := hfn
  dsimp only
  rw [call_eq _ _ _ hle (by dsimp only; rw [List.length_append]; omega), reached, if_pos hfn', hrequest,
    callWith, if_pos hfn', hlua _ _ hscript]
  dsimp only
  rw [hlen, List.drop_left, ← hlen]
  cases hrun : (lua (callOf args sh₁) sh₁).eval with
  | ok results left =>
      exact answer_same hcallback hins houts (hbelow log₁ sh₁) results
        (traceIndex_eq_zero_iff sh₁ args.length) _ left visits (hanswer results left hrun)
  | error fault left =>
      cases fault with
      | raised message => exact ⟨rfl, rfl, hbelow _ left⟩
      | outOfBounds | nullPointer | endless => exact ⟨rfl, rfl⟩

end Call

/-! ## Programs -/

/-- What Lua gets is what was written, or the error. -/
theorem enterNative_eq {body : Native 1 1} {args : List Value} {sh : Shared}
    (h : SameEnds (fun p s q sh => outcomes p.1 = q.1 ∧
        Owns true [[]] [] [] [args.length] p.2 s q.2 sh) Halted
      (body.run (argumentStreams { start := 0, count := args.length } {}) ⟨args.reverse, [], sh⟩)
      (body.eval (argumentView args) sh)) :
    enterNative (entry body.run) args sh = handed (body.eval (argumentView args) sh) := by
  rw [enterNative]
  cases hrun : body.run (argumentStreams { start := 0, count := args.length } {})
      ⟨args.reverse, [], sh⟩ with
  | error fault s =>
      cases heval : body.eval (argumentView args) sh with
      | ok q shared => rw [hrun, heval] at h; exact h.elim
      | error fault' shared =>
          rw [hrun, heval] at h
          obtain ⟨rfl, rfl⟩ := h
          rw [luaCall_error hrun]
          rfl
  | ok p s =>
      cases heval : body.eval (argumentView args) sh with
      | error fault' shared => rw [hrun, heval] at h; exact h.elim
      | ok q shared =>
          rw [hrun, heval] at h
          obtain ⟨-, top, -, hshows⟩ := h
          obtain ⟨below, hstack, -⟩ := hshows.split
          have hcount : (p.2.output 0).count = top.length := by
            rw [hshows.streams_eq]
            rfl
          have hwritten : q.2.output 0 = top := by
            rw [View.output, hshows.written_eq]
            rfl
          have hlen : (top.length : ℤ).toNat = top.reverse.length := by
            rw [List.length_reverse]
            rfl
          rw [luaCall_ok hrun]
          dsimp only [handed]
          rw [hcount, hwritten, hstack, if_pos, hlen, List.take_left, List.reverse_reverse,
            hshows.shared_eq]
          rw [List.length_append, List.length_reverse]
          omega

mutual

/-- **Scripts.** -/
theorem script_same : ∀ script : Script, script.Sound → script.run = script.eval
  | .ret shared results, _ => by rw [Script.run, Script.eval]
  | .error shared fault, _ => by rw [Script.run, Script.eval]
  | .native shared func args resume, hsound => by
      rw [Script.Sound] at hsound
      obtain ⟨hfunc, hresume⟩ := hsound
      have hshows : Owns true [[]] [] [] [args.length]
          (argumentStreams { start := 0, count := args.length } {}) ⟨args.reverse, [], shared⟩
          (argumentView args) shared :=
        ⟨[], nofun, by simp [layout, argumentView], rfl, rfl, rfl, rfl, rfl⟩
      rw [Script.run, Script.eval, enterNative_eq (native_same true func rfl rfl hshows hfunc)]
      cases heval : handed (func.eval (argumentView args) shared) with
      | ok results left =>
          rw [heval] at hresume
          exact script_same _ hresume
      | error fault left =>
          rw [heval] at hresume
          cases fault with
          | raised message => exact script_same _ hresume
          | outOfBounds | nullPointer | endless => rfl

/-- **Bodies.** -/
theorem native_same {ins outs : ℕ} (own : Bool) : ∀ body : Native ins outs,
    ∀ {bases outer : List (List Value)} {rest : List Value} {ns : List ℕ} {streams : Streams}
      {s : LuaState} {view : View} {sh : Shared}, ns.length = ins →
      outer.length + own.toNat = outs → Owns own bases rest outer ns streams s view sh →
      body.Sound own view sh →
      SameEnds (fun p s q sh => outcomes p.1 = q.1 ∧ Owns own bases rest outer ns p.2 s q.2 sh)
        Halted (body.run streams s) (body.eval view sh)
  | .done, _, _, _, _, _, _, _, _, _, _, h, _ => by
      rw [Native.run, Native.eval]
      exact ⟨rfl, h⟩
  | .perform op next, bases, outer, rest, ns, streams, s, view, sh, hins, houts, h, hsound => by
      rw [Native.Sound] at hsound
      rw [Native.run, Native.eval]
      refine (op_same own op hins houts h hsound.1).bind ?_
      rintro ⟨xs, streams₁⟩ s₁ ⟨ys, view₁⟩ sh₁ heval ⟨hxs, h₁⟩
      dsimp only at hxs h₁ ⊢
      subst hxs
      refine (native_same own (next (outcomes xs)) hins houts h₁
        (hsound.2 _ _ _ heval)).bind ?_
      rintro ⟨xs', streams₂⟩ s₂ ⟨ys', view₂⟩ sh₂ - ⟨hxs', h₂⟩
      dsimp only at hxs' h₂ ⊢
      subst hxs'
      exact ⟨List.map_append, h₂⟩

/-- **Operations.** -/
theorem op_same {ins outs : ℕ} (own : Bool) : ∀ op : Op ins outs,
    ∀ {bases outer : List (List Value)} {rest : List Value} {ns : List ℕ} {streams : Streams}
      {s : LuaState} {view : View} {sh : Shared}, ns.length = ins →
      outer.length + own.toNat = outs → Owns own bases rest outer ns streams s view sh →
      op.Sound own view sh →
      SameEnds (fun p s q sh => outcomes p.1 = q.1 ∧ Owns own bases rest outer ns p.2 s q.2 sh)
        Halted (op.run streams s) (op.eval view sh)
  | .read i r, bases, outer, rest, ns, streams, s, view, sh, hins, _, ⟨top, hown, h⟩, _ => by
      rw [Op.run, Op.eval]
      dsimp only
      rw [bind_ok (show (get : LuaM LuaState) s = .ok s s from rfl)]
      refine (h.read (i.isLt.trans_eq hins.symm) r).bind ?_
      rintro ⟨val, input⟩ s₁ ⟨val', g⟩ sh₁ - ⟨hval, h₁⟩
      dsimp only at hval h₁ ⊢
      subst hval
      exact ⟨rfl, top, hown, h₁⟩
  | .reset i, bases, outer, rest, ns, streams, s, view, sh, hins, _, ⟨top, hown, h⟩, _ => by
      rw [Op.run, Op.eval]
      dsimp only
      rw [bind_ok (show (get : LuaM LuaState) s = .ok s s from rfl)]
      obtain ⟨pre, post, hstack, hinput, hset⟩ := h.window (i.isLt.trans_eq hins.symm)
      rw [hinput]
      exact ⟨rfl, top, hown, hset { view.input i with index := 0 } s sh rfl hstack h.shared_eq⟩
  | .getCount i, bases, outer, rest, ns, streams, s, view, sh, hins, _, ⟨top, hown, h⟩, _ => by
      rw [Op.run, Op.eval]
      dsimp only
      rw [bind_ok (show (get : LuaM LuaState) s = .ok s s from rfl)]
      obtain ⟨pre, post, hstack, hinput, -⟩ := h.window (i.isLt.trans_eq hins.symm)
      rw [hinput]
      exact ⟨rfl, top, hown, h⟩
  | .write o w, _, _, _, _, _, _, _, _, _, houts, h, hsound => by
      rw [Op.Sound] at hsound
      exact h.op_write houts hsound
  | .call module func outPutFunc lua callBackFun, bases, outer, rest, ns, streams, s, view, sh,
      hins, houts, ⟨top, hown, h⟩, hsound => by
      have hwritten : (outer ++ if own then [top] else []).length = outs := by
        rw [List.length_append, ← houts]
        cases own <;> rfl
      rw [Op.run, Op.eval]
      refine (call_same (outPut_same outPutFunc)
        (fun request shared => script_same (lua request shared)) (callback_same callBackFun)
        hins hwritten h hsound).bind ?_
      rintro ⟨ret, xs, streams₁⟩ s₁ ⟨ret', ys, view₁⟩ sh₁ - ⟨hret, hxs, h₁⟩
      dsimp only at hret hxs h₁ ⊢
      subst hret hxs
      exact ⟨List.map_append, top, hown, h₁⟩

theorem outPut_same {ins outs : ℕ} : ∀ outPutFunc : OutPut ins outs, OutPutSame outPutFunc
  | .empty => by
      intro bases written rest args ns streams s view sh _ _ h _
      rw [OutPut.run, OutPut.eval]
      exact ⟨rfl, rfl, h⟩
  | .of body => by
      intro bases written rest args ns streams s view sh hins houts h hsound
      rw [OutPut.Sound] at hsound
      rw [OutPut.run, OutPut.eval]
      have howns : Owns true bases rest written ns (streams.withOutput ⟨args.length⟩) s
          (view.withOutput args) sh :=
        ⟨args, nofun, h.withOutput⟩
      refine (native_same true body hins (by rw [houts]; rfl) howns hsound).bind ?_
      rintro ⟨xs, streams₁⟩ s₁ ⟨ys, view₁⟩ sh₁ - ⟨hxs, top, -, h₁⟩
      dsimp only at hxs h₁ ⊢
      subst hxs
      obtain ⟨houtput, houtput', h₂⟩ := h₁.dropOutput houts
      rw [houtput, houtput']
      exact ⟨rfl, List.map_append, h₂⟩

theorem callback_same {ins outs : ℕ} : ∀ callBackFun : Callback ins outs, CallbackSame callBackFun
  | .empty => by
      intro bases written rest results ns streams ack visits s view sh _ _ h _
      rw [Callback.run, Callback.eval]
      refine ⟨rfl, _, _, (streams.dropInput_withInput ack).symm, ?_, h⟩
      rw [View.dropInput, View.withInput, List.dropLast_concat]
  | .of body => by
      intro bases written rest results ns streams ack visits s view sh hins houts h hsound
      rw [Callback.Sound] at hsound
      rw [Callback.run, Callback.eval]
      have howns : Owns false bases rest written ns (streams.withInput ack) s
          (view.withInput results) sh :=
        ⟨[], fun _ => rfl, by simpa using h⟩
      refine (native_same false (body (outcomes visits)) hins houts howns hsound).bind ?_
      rintro ⟨xs, streams₁⟩ s₁ ⟨ys, view₁⟩ sh₁ - ⟨hxs, top, htop, h₁⟩
      dsimp only at hxs h₁ ⊢
      subst hxs
      rw [htop rfl] at h₁
      exact ⟨List.map_append, streams₁, view₁, rfl, rfl, by simpa using h₁⟩

end

/-! ## The engine computes the meaning -/

/-- **What C++ calls.**  A call of a script function, with everything that its Lua code, its
closures and the registered functions below them do, comes to what its meaning says, whatever
lies on the stack; and it leaves the stack alone. -/
theorem callScriptFunc_eq_invoke {module func : Bytes} {outPutFunc : OutPut 0 0}
    {lua : Request → Shared → Script} {callBackFun : Callback 0 0} {s : LuaState}
    (hsound : (Op.call module func outPutFunc lua callBackFun).Sound false {} s.shared) :
    SameEnds (fun p s' q sh => p.1 = q.1 ∧ outcomes p.2.1 = q.2.1 ∧ s'.stack = s.stack ∧
        s'.shared = sh) (fun s' sh => s'.shared = sh)
      (callScriptFunc (fun request shared => (lua request shared).run) module func outPutFunc.run
        callBackFun.run ([], {}) s)
      (invoke (fun request shared => (lua request shared).eval) module func outPutFunc.eval
        callBackFun.eval {} s.shared) := by
  have hshows : Shows [] s.stack.reverse [] [] {} s {} s.shared := ⟨rfl, rfl, rfl, rfl, rfl, rfl⟩
  have hcall := call_same (outPut_same outPutFunc)
    (fun request shared => script_same (lua request shared)) (callback_same callBackFun) rfl rfl
    hshows hsound
  refine hcall.weaken (fun p s' q sh h => ⟨h.1, h.2.1, ?_, h.2.2.shared_eq⟩) fun s' sh h => h
  have hstack := h.2.2.stack_eq
  have hgiven : q.2.2.given = [] := List.map_eq_nil_iff.mp h.2.2.lengths_eq
  rw [hgiven] at hstack
  exact List.reverse_injective hstack

/-- **What Lua calls.**  A script that calls registered functions gets from each of them the
values that it writes, or the error that comes through it. -/
theorem script_run_eq_eval {script : Script} (h : script.Sound) : script.run = script.eval :=
  script_same script h

/-- The number that a callback has read. -/
def numberRead : List Outcome → Int64
  | [] => 0
  | .read _ .int64 (some (.int64 n)) :: _ => n
  | _ :: xs => numberRead xs

/-- A registered function that writes what it reads, makes a call, and writes what the callback of
the call has read. -/
def nestedNative : Native 1 1 :=
  .perform (.write (Fin.last 0) (.int8 5)) fun _ =>
    .perform (.call (ascii "m") (ascii "g")
      (.of (.perform (.write (Fin.last 1) (.bool true)) fun _ => .done))
      (fun _ sh => .ret sh [.integer 8])
      (.of fun _ => .perform (.read (Fin.last 1) .int64) fun _ => .done)) fun xs =>
    .perform (.write (Fin.last 0) (.int64 (numberRead xs))) fun _ => .done

/-- A script that calls it, and returns what it gets. -/
def nestedScript (_ : Request) (sh : Shared) : Script :=
  .native sh nestedNative [.integer 42] fun sh r => match r with
    | .ok results => .ret sh results
    | .error message => .error sh (.raised message)

/-- A callback that reads the two values. -/
def nestedReads : Callback 0 0 :=
  .of fun _ => .perform (.read (Fin.last 0) .int8) fun _ =>
    .perform (.read (Fin.last 0) .int64) fun _ => .done

theorem nestedNative_sound (args : List Value) {sh : Shared} (h : CallDefined sh) :
    nestedNative.Sound true (argumentView args) sh := by
  rw [nestedNative, Native.Sound, Op.Sound]
  refine ⟨.inr ⟨rfl, rfl⟩, fun xs view shared heval => ?_⟩
  cases heval
  rw [Native.Sound, Op.Sound]
  refine ⟨⟨?_, fun args vars shared heval => ?_⟩, fun xs view shared heval => ?_⟩
  · rw [OutPut.Sound, Native.Sound, Op.Sound]
    exact ⟨.inr ⟨rfl, rfl⟩, fun _ _ _ _ => trivial⟩
  · cases heval
    exact ⟨(by decide : 3 ≤ 127), h, trivial, fun _ _ _ => ⟨trivial, fun _ _ _ _ => trivial⟩⟩
  · rw [Native.Sound, Op.Sound]
    exact ⟨.inr ⟨rfl, rfl⟩, fun _ _ _ _ => trivial⟩

theorem nestedScript_sound (request : Request) {sh : Shared} (h : CallDefined sh) :
    (nestedScript request sh).Sound := by
  rw [nestedScript, Script.Sound]
  refine ⟨nestedNative_sound _ h, ?_⟩
  cases handed (nestedNative.eval (argumentView [.integer 42]) sh) with
  | ok results left => trivial
  | error fault left =>
      cases fault with
      | raised message => trivial
      | outOfBounds | nullPointer | endless => trivial

/-- From a callback, above its own values. -/
theorem callScriptFunc_eq_invoke_nested :
    SameEnds (fun p s' q sh => p.1 = q.1 ∧ outcomes p.2.1 = q.2.1 ∧
        s'.stack = [.boolean false] ∧ s'.shared = sh) (fun s' sh => s'.shared = sh)
      (callScriptFunc (fun request sh => (nestedScript request sh).run) (ascii "m") (ascii "f")
        (OutPut.empty : OutPut 0 0).run nestedReads.run ([], {})
        ⟨[.boolean false], [], exampleShared⟩)
      (.ok (true, (([.read 0 .int8 (some (.int8 5)), .read 0 .int64 (some (.int64 8))], {}) : Learned))
        exampleShared) := by
  have hdefined : CallDefined exampleShared := by decide
  refine callScriptFunc_eq_invoke (s := ⟨[.boolean false], [], exampleShared⟩) ?_
  rw [Op.Sound]
  refine ⟨trivial, fun args vars shared heval => ?_⟩
  cases heval
  refine ⟨by decide, hdefined, nestedScript_sound _ hdefined, fun results left heval => ?_⟩
  rw [nestedReads, Callback.Sound, Native.Sound]
  refine ⟨trivial, fun xs view shared heval => ?_⟩
  rw [Native.Sound]
  exact ⟨trivial, fun _ _ _ _ => trivial⟩

theorem script_run_eq_eval_nested :
    (nestedScript ⟨.nil, [], none⟩ exampleShared).run
      = .ok [.integer 5, .integer 8] exampleShared :=
  script_run_eq_eval (nestedScript_sound _ rfl)

end SeedCore.Lua
