import SeedCore.Lua.Program

/-!
# What programs keep

A property of the streams and the state that every operation keeps, and that a call hands on to
its `outPutFunc` and its callback, is kept by every program, to any depth.

## Main definitions

* `Streams.Sized` — the streams are as many as the code takes them to be.
* `Kept A k l I` — each operation keeps `I`, where `A` holds of what was learned.
* `Kept.native`, `Kept.op`, `Kept.callback` — so do programs.
-/

namespace SeedCore.Lua

/-! ## Streams in scope -/

/-- There are so many streams. -/
def Streams.Sized (ins outs : ℕ) (streams : Streams) : Prop :=
  streams.inputs.length = ins ∧ streams.outputs.length = outs

namespace Streams

variable {ins outs : ℕ} {streams : Streams}

theorem Sized.setInput (h : streams.Sized ins outs) (i : ℕ) (input : LuaInputStream) :
    (streams.setInput i input).Sized ins outs := ⟨by rw [← h.1]; exact List.length_set, h.2⟩

theorem Sized.setOutput (h : streams.Sized ins outs) (o : ℕ) (output : LuaOutputStream) :
    (streams.setOutput o output).Sized ins outs := ⟨h.1, by rw [← h.2]; exact List.length_set⟩

theorem Sized.withInput (h : streams.Sized ins outs) (input : LuaInputStream) :
    (streams.withInput input).Sized (ins + 1) outs :=
  ⟨by rw [← h.1]; exact List.length_append, h.2⟩

theorem Sized.withOutput (h : streams.Sized ins outs) (output : LuaOutputStream) :
    (streams.withOutput output).Sized ins (outs + 1) :=
  ⟨h.1, by rw [← h.2]; exact List.length_append⟩

theorem Sized.dropInput (h : streams.Sized (ins + 1) outs) : streams.dropInput.Sized ins outs :=
  ⟨by rw [Streams.dropInput, List.length_dropLast, h.1, Nat.add_sub_cancel], h.2⟩

theorem Sized.dropOutput (h : streams.Sized ins (outs + 1)) : streams.dropOutput.Sized ins outs :=
  ⟨h.1, by rw [Streams.dropOutput, List.length_dropLast, h.2, Nat.add_sub_cancel]⟩

theorem Sized.ext (h : streams.Sized ins outs) {streams' : Streams} (h' : streams'.Sized ins outs)
    (hinput : ∀ i < ins, streams.input i = streams'.input i)
    (houtput : ∀ o < outs, streams.output o = streams'.output o) : streams = streams' := by
  obtain ⟨inputs, outputs⟩ := streams
  obtain ⟨inputs', outputs'⟩ := streams'
  obtain ⟨rfl, rfl⟩ := h
  obtain ⟨hins, houts⟩ := h'
  dsimp only at hins houts
  have hinputs : inputs = inputs' := by
    refine List.ext_getElem hins.symm fun i hi hi' => ?_
    have heq := hinput i hi
    simpa [Streams.input, List.getD_eq_getElem?_getD, List.getElem?_eq_getElem hi,
      List.getElem?_eq_getElem hi'] using heq
  have houtputs : outputs = outputs' := by
    refine List.ext_getElem houts.symm fun o ho ho' => ?_
    have heq := houtput o ho
    simpa [Streams.output, List.getD_eq_getElem?_getD, List.getElem?_eq_getElem ho,
      List.getElem?_eq_getElem ho'] using heq
  rw [hinputs, houtputs]

/-- The last output stream is the one of the `outPutFunc`. -/
theorem Sized.withOutput_dropOutput (h : streams.Sized ins (outs + 1)) :
    streams.dropOutput.withOutput (streams.output outs) = streams := by
  obtain ⟨inputs, outputs⟩ := streams
  obtain ⟨-, hlen⟩ := h
  dsimp only at hlen
  have hne : outputs ≠ [] := List.ne_nil_of_length_eq_add_one hlen
  have hlast : outputs.getD outs {} = outputs.getLast hne := by
    rw [List.getLast_eq_getElem, List.getD_eq_getElem?_getD, List.getElem?_eq_getElem (by omega)]
    simp [hlen]
  simp only [Streams.dropOutput, Streams.withOutput, Streams.output, hlast,
    List.dropLast_append_getLast]

section Lookup

variable (streams : Streams)

theorem input_setInput {i : ℕ} (hi : i < streams.inputs.length) (input : LuaInputStream) (j : ℕ) :
    (streams.setInput i input).input j = if i = j then input else streams.input j := by
  simp only [Streams.input, setInput, List.getD_eq_getElem?_getD, List.getElem?_set]
  split
  · next heq =>
      subst heq
      simp
  · rfl

theorem output_setOutput {o : ℕ} (ho : o < streams.outputs.length) (output : LuaOutputStream)
    (j : ℕ) : (streams.setOutput o output).output j = if o = j then output else streams.output j := by
  simp only [Streams.output, setOutput, List.getD_eq_getElem?_getD, List.getElem?_set]
  split
  · next heq =>
      subst heq
      simp
  · rfl

theorem input_withInput (input : LuaInputStream) {i : ℕ} (hi : i < streams.inputs.length) :
    (streams.withInput input).input i = streams.input i := by
  simp only [Streams.input, withInput, List.getD_eq_getElem?_getD, List.getElem?_append_left hi]

theorem input_dropInput {i : ℕ} (hi : i < streams.dropInput.inputs.length) :
    streams.dropInput.input i = streams.input i := by
  rw [dropInput, List.length_dropLast] at hi
  simp only [Streams.input, dropInput, List.getD_eq_getElem?_getD, List.getElem?_dropLast, if_pos hi]

theorem output_withOutput (output : LuaOutputStream) {o : ℕ} (ho : o < streams.outputs.length) :
    (streams.withOutput output).output o = streams.output o := by
  simp only [Streams.output, withOutput, List.getD_eq_getElem?_getD, List.getElem?_append_left ho]

@[simp] theorem output_withOutput_last (output : LuaOutputStream) :
    (streams.withOutput output).output streams.outputs.length = output := by
  simp [Streams.output, withOutput]

@[simp] theorem input_withInput_last (input : LuaInputStream) :
    (streams.withInput input).input streams.inputs.length = input := by
  simp [Streams.input, withInput]

end Lookup

end Streams

/-! ## The rule -/

/-- What does not use a stream. -/
def Outcome.Quiet : Outcome → Prop
  | .count _ _ | .passed _ | .called _ => True
  | .read _ _ _ | .reset _ | .wrote _ _ => False

variable {γ : Type} {A : List Visit → Prop} {k l : ℕ} {I : γ → List Visit → Streams → LuaState → Prop}

/-- In runs with the property `A`, each operation keeps `I c`, where `c` stands for the calls
around, and the callback of a call works with another `c`.  There are `k` input streams and `l`
output streams at least. -/
structure Kept (A : List Visit → Prop) (k l : ℕ) (I : γ → List Visit → Streams → LuaState → Prop) :
    Prop where
  left : ∀ {xs ys}, A (xs ++ ys) → A xs
  short : ∀ {xs}, A xs → Short xs
  read : ∀ {c visits} {streams : Streams} {s i r val input s'}, A (visits ++ [⟨.read i r val, s.shared⟩]) →
    i < streams.inputs.length → I c visits streams s →
    r.run (streams.input i) s = .ok (val, input) s' →
    I c (visits ++ [⟨.read i r val, s.shared⟩]) (streams.setInput i input) s'
  reset : ∀ {c visits} {streams : Streams} {s i}, A (visits ++ [⟨.reset i, s.shared⟩]) →
    i < streams.inputs.length → I c visits streams s → I c (visits ++ [⟨.reset i, s.shared⟩]) (streams.setInput i (streams.input i).reset) s
  quiet : ∀ {c visits} {streams : Streams} {s x sh}, x.Quiet → I c visits streams s →
    I c (visits ++ [⟨x, sh⟩]) streams s
  write : ∀ {c visits} {streams : Streams} {s o w}, A (visits ++ [⟨.wrote o w, s.shared⟩]) →
    o < streams.outputs.length → I c visits streams s → I c (visits ++ [⟨.wrote o w, s.shared⟩])
      (streams.setOutput o ⟨(streams.output o).count + w.value.toList.length⟩)
      ⟨w.value.toList.reverse ++ s.stack, s.log, s.shared⟩
  enter : ∀ {c visits} {streams : Streams} {s} u v, l ≤ streams.outputs.length → I c visits streams s →
    I c visits (streams.withOutput ⟨2⟩) ⟨u :: v :: s.stack, s.log, s.shared⟩
  height : ∀ {c visits} {streams : Streams} {s n}, l ≤ streams.outputs.length →
    I c visits (streams.withOutput ⟨n⟩) s → n ≤ s.stack.length
  missed : ∀ {c visits} {streams : Streams} {s n run s'}, l ≤ streams.outputs.length →
    I c visits (streams.withOutput ⟨n⟩) s → reached run n s = .ok none s' → I c visits streams s'
  answered : ∀ {c visits} {streams : Streams} {s n run ack tarceIndex s'}, k ≤ streams.inputs.length →
    l ≤ streams.outputs.length → I c visits (streams.withOutput ⟨n⟩) s →
    reached run n s = .ok (some (ack, tarceIndex)) s' →
    ∃ c', I c' visits (streams.withInput ack) s' ∧ ∀ {visits} {streams : Streams} {s ret s'},
      k < streams.inputs.length → I c' visits streams s → popResults tarceIndex s = .ok ret s' →
      I c visits streams.dropInput s'

/-- What a program leaves: what it has learned comes behind what was known before. -/
def Keeping (A : List Visit → Prop) (I : γ → List Visit → Streams → LuaState → Prop) (ins outs : ℕ)
    (c : γ) (visits : List Visit) (p : Captured) (s : LuaState) : Prop :=
  A (visits ++ p.1) → p.2.Sized ins outs ∧ I c (visits ++ p.1) p.2 s

/-- The closures of a call add to what they have captured. -/
structure OutPutKeeps (A : List Visit → Prop) (I : γ → List Visit → Streams → LuaState → Prop)
    (ins outs : ℕ) (f : LuaOutputStream → Captured → LuaM (LuaOutputStream × Captured)) : Prop where
  keeps : ∀ {c visits} {streams : Streams} {s input xs} {streams' : Streams} {s'}, streams.Sized ins outs →
    I c visits (streams.withOutput ⟨2⟩) s → f ⟨2⟩ ([], streams) s = .ok (input, xs, streams') s' →
    A (visits ++ xs) → streams'.Sized ins outs ∧ input.count ≤ 127 ∧
      I c (visits ++ xs) (streams'.withOutput input) s'

structure CallbackKeeps (A : List Visit → Prop) (I : γ → List Visit → Streams → LuaState → Prop)
    (ins outs : ℕ) (cb : LuaInputStream → Captured → LuaM Captured) : Prop where
  adds : ∀ {ack vars vars' s s'}, cb ack vars s = .ok vars' s' → ∃ xs, vars'.1 = vars.1 ++ xs
  keeps : ∀ {c visits ack xs} {streams : Streams} {s xs'} {streams' : Streams} {s'}, streams.Sized ins outs →
    I c (visits ++ xs) (streams.withInput ack) s → cb ack (xs, streams) s = .ok (xs', streams') s' →
    A (visits ++ xs') → ∃ streams'', streams' = streams''.dropInput ∧ streams''.Sized (ins + 1) outs ∧
      I c (visits ++ xs') streams'' s'

section Call

variable (h : Kept A k l I) {ins outs : ℕ} (hk : k ≤ ins) (hl : l ≤ outs)
include h hk hl

/-- **A call** keeps what its closures keep. -/
theorem Kept.call {outPutFunc : IDataOutputFuncType Captured}
    {callBackFun : IDataCallBackFuncType Captured}
    (houtPut : ∀ f, outPutFunc = some f → OutPutKeeps A I ins outs f)
    (hcallback : ∀ cb, callBackFun = some cb → CallbackKeeps A I ins outs cb)
    {run : LuaRun} {module func : Bytes} {c : γ} {visits xs : List Visit} {streams streams' : Streams}
    {s s' : LuaState} {ret : Bool} (hsized : streams.Sized ins outs) (hI : I c visits streams s)
    (hrun : callScriptFunc run module func outPutFunc callBackFun ([], streams) s
      = .ok (ret, xs, streams') s')
    (hA : A (visits ++ xs)) : streams'.Sized ins outs ∧ I c (visits ++ xs) streams' s' := by
  obtain ⟨stack, log, sh⟩ := s
  obtain ⟨input, s₁, hpre, hrest⟩ := ok_of_bind hrun
  rw [preCall_eq] at hpre
  cases hpre
  obtain ⟨⟨⟨n⟩, xs₁, streams₁⟩, s₂, hout, hcall⟩ := ok_of_bind hrest
  have hentered := h.enter (cstringValue (some func)) (cstringValue (some module))
    (hsized.2 ▸ hl) hI
  -- the callback only adds to what the `outPutFunc` has learned
  obtain ⟨zs, hzs⟩ : ∃ zs, xs = xs₁ ++ zs := by
    rcases leaves_of_call hcall with heq | ⟨cb, ack, t, t', hcb, hran⟩
    · exact ⟨[], by rw [List.append_nil]; exact congrArg Prod.fst heq⟩
    · exact (hcallback cb hcb).adds hran
  have hA₁ : A (visits ++ xs₁) := by
    rw [hzs, ← List.append_assoc] at hA
    exact h.left hA
  obtain ⟨hsized₁, hle, hI₁⟩ : streams₁.Sized ins outs ∧ n ≤ 127 ∧
      I c (visits ++ xs₁) (streams₁.withOutput ⟨n⟩) s₂ := by
    cases hf : outPutFunc with
    | none =>
        rw [hf] at hout
        cases hout
        rw [List.append_nil]
        exact ⟨hsized, by omega, hentered⟩
    | some f =>
        rw [hf] at hout
        exact (houtPut f hf).keeps hsized hentered hout hA₁
  have hk₁ : k ≤ streams₁.inputs.length := hsized₁.1 ▸ hk
  have hl₁ : l ≤ streams₁.outputs.length := hsized₁.2 ▸ hl
  dsimp only at hcall
  rw [call_eq run callBackFun _ hle (h.height hl₁ hI₁)] at hcall
  cases hreached : reached run n s₂ with
  | error fault t =>
      rw [hreached] at hcall
      cases hcall
  | ok o t =>
      rw [hreached] at hcall
      cases o with
      | none =>
          cases hcall
          exact ⟨hsized₁, h.missed hl₁ hI₁ hreached⟩
      | some p =>
          obtain ⟨ack, tarceIndex⟩ := p
          obtain ⟨c', hI', hpops⟩ := h.answered hk₁ hl₁ hI₁ hreached
          obtain ⟨⟨xs₂, streams₂⟩, t', hcb, hpop⟩ := ok_of_bind hcall
          obtain ⟨ret', t'', hpop, hpure⟩ := ok_of_bind hpop
          cases hpure
          cases hsome : callBackFun with
          | none =>
              rw [hsome] at hcb
              cases hcb
              refine ⟨hsized₁, ?_⟩
              rw [← streams'.dropInput_withInput ack]
              exact hpops (Nat.lt_of_le_of_lt hk (by rw [(hsized₁.withInput ack).1]; omega)) hI' hpop
          | some cb =>
              rw [hsome] at hcb
              obtain ⟨streams'', hdrop, hsized₂, hI₂⟩ :=
                (hcallback cb hsome).keeps hsized₁ hI' hcb hA
              have hlt : k < streams''.inputs.length := by rw [hsized₂.1]; omega
              exact ⟨hdrop ▸ hsized₂.dropInput, hdrop ▸ hpops hlt hI₂ hpop⟩

end Call

section Programs

mutual

/-- **Bodies.** -/
theorem Kept.native (h : Kept A k l I) {ins outs : ℕ} (hk : k ≤ ins) (hl : l ≤ outs) : ∀ body : Native ins outs,
    ∀ {c visits} {streams : Streams} {s p s'}, streams.Sized ins outs → I c visits streams s →
      body.run streams s = .ok p s' → Keeping A I ins outs c visits p s'
  | .done, c, visits, streams, s, p, s', hsized, hI, hrun => by
      rw [Native.run] at hrun
      cases hrun
      intro _
      rw [List.append_nil]
      exact ⟨hsized, hI⟩
  | .perform op next, c, visits, streams, s, p, s', hsized, hI, hrun => by
      rw [Native.run] at hrun
      obtain ⟨⟨xs, streams₁⟩, s₁, hop, hrest⟩ := ok_of_bind hrun
      obtain ⟨⟨ys, streams₂⟩, s₂, hnext, hpure⟩ := ok_of_bind hrest
      cases hpure
      intro hA
      rw [← List.append_assoc] at hA ⊢
      obtain ⟨hsized₁, hI₁⟩ := h.op hk hl op hsized hI hop (h.left hA)
      exact h.native hk hl (next (outcomes xs)) hsized₁ hI₁ hnext hA

/-- **Operations.** -/
theorem Kept.op (h : Kept A k l I) {ins outs : ℕ} (hk : k ≤ ins) (hl : l ≤ outs) : ∀ op : Op ins outs,
    ∀ {c visits} {streams : Streams} {s p s'}, streams.Sized ins outs → I c visits streams s →
      op.run streams s = .ok p s' → Keeping A I ins outs c visits p s'
  | .read i r, c, visits, streams, s, p, s', hsized, hI, hrun => by
      rw [Op.run] at hrun
      obtain ⟨s₀, s₁, hget, hrest⟩ := ok_of_bind hrun
      cases hget
      obtain ⟨⟨val, input⟩, s₂, hread, hpure⟩ := ok_of_bind hrest
      cases hpure
      intro hA
      exact ⟨hsized.setInput _ _, h.read hA (hsized.1 ▸ i.isLt) hI hread⟩
  | .reset i, c, visits, streams, s, p, s', hsized, hI, hrun => by
      rw [Op.run] at hrun
      obtain ⟨s₀, s₁, hget, hrest⟩ := ok_of_bind hrun
      cases hget
      cases hrest
      intro hA
      exact ⟨hsized.setInput _ _, h.reset hA (hsized.1 ▸ i.isLt) hI⟩
  | .getCount i, c, visits, streams, s, p, s', hsized, hI, hrun => by
      rw [Op.run] at hrun
      obtain ⟨s₀, s₁, hget, hrest⟩ := ok_of_bind hrun
      cases hget
      cases hrest
      intro hA
      exact ⟨hsized, h.quiet trivial hI⟩
  | .write o w, c, visits, streams, s, p, s', hsized, hI, hrun => by
      obtain ⟨stack, log, sh⟩ := s
      rw [Op.run] at hrun
      obtain ⟨s₀, s₁, hget, hrest⟩ := ok_of_bind hrun
      cases hget
      obtain ⟨output, s₂, hwrite, hpure⟩ := ok_of_bind hrest
      rw [w.run_eq stack log sh] at hwrite
      cases hwrite
      cases hpure
      intro hA
      exact ⟨hsized.setOutput _ _, h.write hA (hsized.2 ▸ o.isLt) hI⟩
  | .call module func outPutFunc lua callBackFun, c, visits, streams, s, p, s', hsized, hI, hrun => by
      rw [Op.run] at hrun
      obtain ⟨⟨ret, xs, streams₁⟩, s₁, hcall, hrest⟩ := ok_of_bind hrun
      cases hrest
      intro hA
      rw [← List.append_assoc] at hA ⊢
      obtain ⟨hsized₁, hI₁⟩ := h.call hk hl (fun f hf => h.outPut hk hl outPutFunc hf)
        (fun cb hcb => h.callback hk hl callBackFun hcb) hsized hI hcall (h.left hA)
      exact ⟨hsized₁, h.quiet trivial hI₁⟩

theorem Kept.outPut (h : Kept A k l I) {ins outs : ℕ} (hk : k ≤ ins) (hl : l ≤ outs) : ∀ outPutFunc : OutPut ins outs,
    ∀ {f}, outPutFunc.run = some f → OutPutKeeps A I ins outs f
  | .empty, f, hf => by
      rw [OutPut.run] at hf
      cases hf
  | .of body, f, hf => by
      rw [OutPut.run] at hf
      cases hf
      constructor
      intro c visits streams s input xs streams' s' hsized hI hrun hA
      obtain ⟨⟨ys, streams₁⟩, s₁, hbody, hrest⟩ := ok_of_bind hrun
      cases hrest
      rw [List.nil_append, ← List.append_assoc] at hA ⊢
      obtain ⟨hsized₁, hI₁⟩ :=
        h.native hk (Nat.le_succ_of_le hl) body (hsized.withOutput _) hI hbody (h.left hA)
      refine ⟨hsized₁.dropOutput, ?_, ?_⟩
      · exact h.short hA _ (List.mem_append_right _ (List.mem_singleton_self _)) _ rfl
      · rw [hsized₁.withOutput_dropOutput]
        exact h.quiet trivial hI₁

theorem Kept.callback (h : Kept A k l I) {ins outs : ℕ} (hk : k ≤ ins) (hl : l ≤ outs) : ∀ callBackFun : Callback ins outs,
    ∀ {cb}, callBackFun.run = some cb → CallbackKeeps A I ins outs cb
  | .empty, cb, hcb => by
      rw [Callback.run] at hcb
      cases hcb
  | .of body, cb, hcb => by
      rw [Callback.run] at hcb
      cases hcb
      constructor
      · intro ack vars vars' s s' hrun
        obtain ⟨⟨ys, streams₁⟩, s₁, -, hpure⟩ := ok_of_bind hrun
        cases hpure
        exact ⟨ys, rfl⟩
      · intro c visits ack xs streams s xs' streams' s' hsized hI hrun hA
        obtain ⟨⟨ys, streams₁⟩, s₁, hbody, hpure⟩ := ok_of_bind hrun
        cases hpure
        rw [← List.append_assoc] at hA ⊢
        obtain ⟨hsized₁, hI₁⟩ :=
          h.native (Nat.le_succ_of_le hk) hl (body (outcomes xs)) (hsized.withInput _) hI hbody hA
        exact ⟨streams₁, rfl, hsized₁, hI₁⟩

end

end Programs

end SeedCore.Lua
