import SeedCore.Lua.Slots

/-!
# Stack space

The checks of the exchange pass if each operation on the way finds the slots that it needs: a read
of a string or a pointer one, a write one or two, a call those for its names, its arguments, the
function `call` and the trace handler, and then for its results.

## Main definitions

* `Native.Roomy`, `Op.Roomy` — what each operation on the way needs.
* `native_decides` — it is what decides.
* `stackSpace_iff` — for registered functions and for calls from the host.
-/

namespace SeedCore.Lua

open CheckedM

/-! ## What is pushed -/

section Heights

variable {s s' : LuaState} {idx : ℤ}

theorem len_height (h : len idx s = .ok () s') : s'.stack.length = s.stack.length + 1 :=
  (slots_len height_slots idx).of_ok rfl h

theorem getfield_height {key : Bytes} (h : getfield idx key s = .ok () s') :
    s'.stack.length = s.stack.length + 1 := (slots_getfield height_slots idx key).of_ok rfl h

theorem tostring_height {text : Option Bytes} (h : tostring idx s = .ok text s') :
    s'.stack.length = s.stack.length := (slots_tostring height_slots trivial).of_ok rfl h

theorem touserdata_height {p : UInt64} (h : touserdata idx s = .ok p s') :
    s'.stack.length = s.stack.length :=
  (keeps_map_value (P := fun t => t.stack.length = s.stack.length) idx _ fun _ =>
    Triple.pure fun _ ht => ht).of_ok rfl h

end Heights

/-! ## What an operation needs -/

/-- The number of slots that a write method uses. -/
def Write.slots : Write → ℕ
  | blob _ => 0
  | ptr _ _ => 2
  | _ => 1

/-- A read gets so far that it pushes a value: it is not past the end, and a string has a length,
a pointer a field. -/
def Read.Pushes (input : LuaInputStream) (s : LuaState) : Read → Prop
  | str => input.index < input.count ∧ ∃ text s₁ s₂, tostring input.slot s = .ok text s₁ ∧
      len input.slot s₁ = .ok () s₂
  | ptr _ => input.index < input.count ∧ ∃ s₁, getfield input.slot ptrIndex s = .ok () s₁
  | _ => False

section Passing

variable (limit : ℕ)

theorem passes_guarded (input : LuaInputStream) (read : SlotM (Option Datum)) (s : LuaState) :
    Passes (input.guardedIn read) s ↔ (input.index < input.count → Passes read s) := by
  unfold LuaInputStream.guardedIn
  by_cases hlt : input.index < input.count
  · rw [if_pos hlt, passes_bind_pure, imp_iff_right hlt]
  · rw [if_neg hlt]
    exact iff_of_true (passes_pure _ _) fun hlt' => absurd hlt' hlt

theorem passes_within {α : Type} (x : LuaM α) (s : LuaState) :
    Passes (within limit x) s ↔ ∀ a s', x s = .ok a s' → s'.stack.length ≤ limit :=
  passes_ensuring _ x s

theorem passes_readStr (input : LuaInputStream) (s : LuaState) :
    Passes (input.readStrIn limit) s ↔ (Read.str.Pushes input s → s.stack.length + 1 ≤ limit) := by
  rw [LuaInputStream.readStrIn, passes_guarded, passes_bind (Erases.lift _)]
  constructor
  · rintro hpasses ⟨hlt, text, s₁, s₂, htext, hlen⟩
    have hwithin := ((passes_bind (erases_within limit _) s₁).mp
      ((hpasses hlt).2 text s₁ htext)).1
    have hheight := (passes_within limit _ s₁).mp hwithin () s₂ hlen
    rwa [len_height hlen, tostring_height htext] at hheight
  · intro hroom hlt
    refine ⟨passes_lift _ _, fun text s₁ htext => ?_⟩
    refine (passes_bind (erases_within limit _) s₁).mpr ⟨?_, fun _ s₂ _ => ?_⟩
    · refine (passes_within limit _ s₁).mpr fun _ s₂ hlen => ?_
      rw [len_height hlen, tostring_height htext]
      exact hroom ⟨hlt, text, s₁, s₂, htext, hlen⟩
    · refine passes_lift_bind_of (fun _ _ => ?_) _ _
      cases text with
      | none => exact passes_lift _ _
      | some val => exact passes_pure _ _

theorem passes_readPtr (input : LuaInputStream) (type : Bytes) (s : LuaState) :
    Passes (input.readPtrIn limit type) s ↔
      ((Read.ptr type).Pushes input s → s.stack.length + 1 ≤ limit) := by
  rw [LuaInputStream.readPtrIn, passes_guarded, passes_bind (erases_within limit _), passes_within]
  constructor
  · rintro hpasses ⟨hlt, s₁, hfield⟩
    have hheight := (hpasses hlt).1 () s₁ hfield
    rwa [getfield_height hfield] at hheight
  · intro hroom hlt
    -- both fields are pushed at the same height
    have hheight : ∀ s₁, getfield input.slot ptrIndex s = .ok () s₁ → s₁.stack.length ≤ limit := by
      intro s₁ hfield
      rw [getfield_height hfield]
      exact hroom ⟨hlt, s₁, hfield⟩
    refine ⟨fun _ s₁ hfield => hheight s₁ hfield, fun _ s₁ hfield => ?_⟩
    refine (passes_bind (Erases.lift _) s₁).mpr ⟨passes_lift _ _, fun ptr s₂ hptr => ?_⟩
    refine (passes_bind (Erases.lift _) s₂).mpr ⟨passes_lift _ _, fun _ s₃ hpop => ?_⟩
    refine (passes_bind (erases_within limit _) s₃).mpr ⟨?_, fun _ s₄ _ => ?_⟩
    · refine (passes_within limit _ s₃).mpr fun _ s₄ htype => ?_
      have hfirst := getfield_height hfield
      have htop := hheight s₁ hfield
      have hlow : s₃.stack.length = s.stack.length :=
        (slots_pop_one height_slots (E := fun _ => True)).of_ok
          (by rw [touserdata_height hptr, hfirst]) hpop
      rw [getfield_height htype]
      omega
    · refine passes_lift_bind_of (fun luaType _ => passes_lift_bind_of (fun _ _ => ?_) _ _) _ _
      cases luaType with
      | none => exact passes_lift _ _
      | some luaType =>
          dsimp only
          split
          · exact passes_pure _ _
          · exact passes_pure _ _

/-- **A read** needs a slot when it pushes. -/
theorem passes_read (r : Read) (input : LuaInputStream) (s : LuaState) :
    Passes (r.runIn limit input) s ↔ (r.Pushes input s → s.stack.length + 1 ≤ limit) := by
  cases r with
  | str => exact passes_readStr limit input s
  | ptr type => exact passes_readPtr limit input type s
  | _ => exact iff_of_true (passes_lift _ _) False.elim

/-- **A write** needs the slots that it uses. -/
theorem passes_write (w : Write) (output : LuaOutputStream) (stack : List Value) (log : List Event)
    (sh : Shared) :
    Passes (w.runIn limit output) ⟨stack, log, sh⟩ ↔
      w.slots = 0 ∨ stack.length + w.slots ≤ limit := by
  have hone : ∀ (w : Write) (v : Value), w.run output ⟨stack, log, sh⟩ =
      .ok output.next ⟨v :: stack, log, sh⟩ →
        (Passes (within limit (w.run output)) ⟨stack, log, sh⟩ ↔
          1 = 0 ∨ stack.length + 1 ≤ limit) := by
    intro w v hrun
    rw [passes_within, hrun]
    constructor
    · intro hall
      exact .inr (hall _ _ rfl)
    · rintro hroom _ _ ⟨⟩
      exact hroom.resolve_left Nat.one_ne_zero
  cases w with
  | bool val => exact hone (.bool val) _ rfl
  | int8 val => exact hone (.int8 val) _ rfl
  | int16 val => exact hone (.int16 val) _ rfl
  | int32 val => exact hone (.int32 val) _ rfl
  | int64 val => exact hone (.int64 val) _ rfl
  | str val => exact hone (.str val) _ rfl
  | blob val => exact iff_of_true (passes_lift _ _) (.inl rfl)
  | ptr val type =>
      have hcreate : createtable ⟨stack, log, sh⟩ = .ok () ⟨.record .nil .nil :: stack, log, sh⟩ := rfl
      have hval : ∀ stack, pushlightuserdata val ⟨stack, log, sh⟩ =
          .ok () ⟨.lightuserdata val :: stack, log, sh⟩ := fun _ => rfl
      have htype : ∀ stack, pushstring type ⟨stack, log, sh⟩ =
          .ok () ⟨cstringValue type :: stack, log, sh⟩ := fun _ => rfl
      have hrest : ∀ s, Passes (do
          lift (setfield (-2) typeIndex)
          pure output.next : SlotM LuaOutputStream) s :=
        fun s => passes_lift_bind_of (fun _ _ => passes_pure _ _) _ s
      rw [Write.runIn, LuaOutputStream.writePtrIn]
      refine (passes_ensuring_bind hcreate).trans ?_
      refine (and_congr_right fun _ => (passes_ensuring_bind (hval _)).trans (and_congr_right fun _ =>
        (passes_lift_bind (setfield_record stack _ log sh .nil .nil ptrIndex)).trans
          (passes_ensuring_bind (htype _)))).trans ?_
      simp only [List.length_cons, hrest, and_true, Write.slots]
      omega

/-- The two strings of a call. -/
theorem passes_preCall (module func : Bytes) (below : List Value) (log : List Event) (sh : Shared) :
    Passes (preCallIn limit module func) ⟨below, log, sh⟩ ↔ below.length + 2 ≤ limit := by
  refine (passes_bind_of_ok (erases_write limit _ _) (Write.run_eq below log sh {} _)).trans ?_
  rw [passes_write, passes_write]
  simp only [Write.slots, Write.value, Option.toList_some, List.reverse_singleton,
    List.singleton_append, List.length_cons]
  omega

section Calls

variable (run : LuaRun) {σ : Type} {callbackIn : CallBackFuncIn σ} {callback : IDataCallBackFuncType σ}
  (hcallback : ErasesCallback callbackIn callback) (vars : σ) (args below : List Value)
  (fn : Value) (log : List Event) (sh : Shared)
include hcallback

theorem passes_answer (ack : LuaInputStream) (tarceIndex : ℤ) (s : LuaState) :
    Passes (answerIn callbackIn ack tarceIndex vars) s ↔ Passes (callNonNullIn callbackIn ack vars) s := by
  rw [answerIn, passes_bind (erases_callNonNull hcallback ack vars)]
  exact and_iff_left fun vars s' _ => passes_lift_bind_of (fun _ _ => passes_pure _ _) _ _

/-- **The call itself** needs slots for the results. -/
theorem passes_execPcall {n : ℕ} (hn : n = args.length) (hroom : below.length + 2 ≤ limit) :
    Passes (execPcallIn limit run n callbackIn (traceIndex sh n) vars)
        ⟨args.reverse ++ fn :: ((traceHandler sh).toList ++ below), log, sh⟩ ↔
      ∀ ack tarceIndex s', returned (traceIndex sh n) (traceHandler sh) below
          (log ++ [.pcall ⟨fn, args, traceHandler sh⟩]) (run ⟨fn, args, traceHandler sh⟩ sh)
          = .ok (some (ack, tarceIndex)) s' →
        s'.stack.length ≤ limit ∧ Passes (callNonNullIn callbackIn ack vars) s' := by
  have hpcall := pcall_append ((traceHandler sh).toList ++ below) fn log sh run args luaResultCount
    (handlerAt_traceIndex args below fn log sh hn)
  rw [← hn] at hpcall
  rw [execPcallIn]
  cases hrun : run ⟨fn, args, traceHandler sh⟩ sh with
  | ok results shared =>
      rw [hrun] at hpcall
      refine (passes_ensuring_bind hpcall).trans ?_
      rw [if_pos rfl, passes_lift_bind (new_results _ _ shared (adjust_length luaResultCount results)),
        passes_answer hcallback]
      constructor
      · rintro ⟨hfits, hpasses⟩ _ _ _ ⟨⟩
        exact ⟨hfits, hpasses⟩
      · intro hall
        exact hall _ _ _ rfl
  | error fault shared =>
      rw [hrun] at hpcall
      cases fault with
      | raised message =>
          refine iff_of_true ((passes_ensuring_bind hpcall).mpr ⟨?_, ?_⟩) (by rintro _ _ _ ⟨⟩)
          · have hhandler : (traceHandler sh).toList.length ≤ 1 := by
              cases traceHandler sh <;> simp
            simp only [List.length_cons, List.length_append]
            omega
          · exact passes_lift_bind_of
              (fun _ _ => passes_lift_bind_of (fun _ _ => passes_pure _ _) _ _) _ _
      | outOfBounds | nullPointer | endless =>
          refine iff_of_true ((passes_bind (erases_within limit _) _).mpr ⟨?_, ?_⟩) (by rintro _ _ _ ⟨⟩)
          · refine (passes_within limit _ _).mpr fun ok s' hok => ?_
            rw [hpcall] at hok
            cases hok
          · intro ok s' hok
            rw [hpcall] at hok
            cases hok

theorem passes_execFunction {n : ℕ} (hn : n = args.length) (hle : n ≤ 127)
    (hfn : fn.isFunction = true) :
    Passes (execFunctionIn limit run n callbackIn vars) ⟨args.reverse ++ fn :: below, log, sh⟩ ↔
      below.length + n + 2 ≤ limit ∧
      ∀ ack tarceIndex s', returned (traceIndex sh n) (traceHandler sh) below
          (log ++ [.global luaTraceName (sh.global luaTraceName), .pcall ⟨fn, args, traceHandler sh⟩])
          (run ⟨fn, args, traceHandler sh⟩ sh) = .ok (some (ack, tarceIndex)) s' →
        s'.stack.length ≤ limit ∧ Passes (callNonNullIn callbackIn ack vars) s' := by
  have hlen : n = args.reverse.length := by rw [List.length_reverse, hn]
  have hfun := isfunction_append args.reverse below fn log sh hlen
  rw [hfn] at hfun
  have htop := isfunction_top (args.reverse ++ fn :: below) (sh.global luaTraceName)
    (log ++ [.global luaTraceName (sh.global luaTraceName)]) sh
  have hheight : (sh.global luaTraceName :: (args.reverse ++ fn :: below)).length =
      below.length + n + 2 := by
    rw [List.length_cons, List.length_append, ← hlen, List.length_cons]
    omega
  simp only [execFunctionIn, toInt8_findex hle]
  rw [passes_lift_bind hfun, if_pos rfl]
  refine (passes_ensuring_bind (getglobal_eq _ log sh luaTraceName)).trans ?_
  rw [hheight, passes_lift_bind htop]
  refine and_congr_right fun hroom => ?_
  have hpcall := passes_execPcall limit run hcallback vars args below fn
    (log ++ [.global luaTraceName (sh.global luaTraceName)]) sh hn (by omega)
  rw [List.append_assoc, List.singleton_append] at hpcall
  rw [← hpcall]
  by_cases htrace : (sh.global luaTraceName).isFunction = true
  · have hhandler := traceHandler_of_isFunction sh htrace
    have hidx : -(n : ℤ) - 1 - 1 = -((n + 1 : ℕ) : ℤ) - 1 := by omega
    have hinsert := insert_append (args.reverse ++ [fn]) below (sh.global luaTraceName)
      (log ++ [.global luaTraceName (sh.global luaTraceName)]) sh (n := n + 1)
      (by rw [List.length_append, ← hlen]; rfl)
    simp only [List.cons_append, List.append_assoc, List.nil_append] at hinsert
    rw [if_pos htrace, hidx, passes_lift_bind hinsert, hhandler, traceIndex_some sh hhandler]
    rfl
  · have hhandler := traceHandler_of_not_isFunction sh htrace
    rw [if_neg htrace, passes_lift_bind (pop_one _ _ _ sh), hhandler, traceIndex_none sh hhandler]
    rfl

/-- **`Call`** needs a slot for the function, another one for the message handler when there is a
function, and those for the results. -/
theorem passes_call {n : ℕ} (hle : n ≤ 127) {s : LuaState} (hlen : n ≤ s.stack.length) :
    Passes (callIn limit run ⟨n⟩ callbackIn vars) s ↔
      s.stack.length + 1 ≤ limit ∧
      ((s.shared.global callFunction).isFunction = true → s.stack.length + 2 ≤ limit) ∧
      ∀ ack tarceIndex s', reached run n s = .ok (some (ack, tarceIndex)) s' →
        s'.stack.length ≤ limit ∧ Passes (callNonNullIn callbackIn ack vars) s' := by
  obtain ⟨stack, log, sh⟩ := s
  rw [callIn, toInt8_eq_self (by dsimp only; omega) (by dsimp only; omega)]
  have htop := isfunction_top stack (sh.global callFunction)
    (log ++ [.global callFunction (sh.global callFunction)]) sh
  refine (passes_ensuring_bind (getglobal_eq stack log sh callFunction)).trans ?_
  rw [List.length_cons, passes_lift_bind htop]
  refine and_congr_right fun _ => ?_
  by_cases hfn : (sh.global callFunction).isFunction = true
  · have hsplit : (stack.take n).reverse.reverse ++ stack.drop n = stack := by
      rw [List.reverse_reverse, List.take_append_drop]
    have hn : n = (stack.take n).reverse.length := by
      rw [List.length_reverse, List.length_take_of_le hlen]
    have hexec := passes_execFunction limit run hcallback vars (stack.take n).reverse (stack.drop n)
      (sh.global callFunction) (log ++ [.global callFunction (sh.global callFunction)]) sh hn hle hfn
    have hheight : (stack.drop n).length + n + 2 = stack.length + 2 := by
      rw [List.length_drop]
      dsimp only at hlen
      omega
    rw [hheight, List.append_assoc] at hexec
    rw [if_pos hfn, reached, if_pos hfn, imp_iff_right hfn]
    refine Iff.trans ?_ hexec
    by_cases hpos : 0 < (n : ℤ)
    · have hinsert := insert_append (stack.take n).reverse.reverse (stack.drop n)
        (sh.global callFunction) (log ++ [.global callFunction (sh.global callFunction)]) sh
        (n := n) (by rw [List.length_reverse]; exact hn)
      have hidx : -((n : ℤ) + 1) = -(n : ℤ) - 1 := by omega
      rw [List.cons_append, hsplit] at hinsert
      rw [if_pos hpos, hidx]
      exact passes_lift_bind hinsert
    · have hzero : n = 0 := by omega
      subst hzero
      rw [if_neg hpos]
      rfl
  · rw [if_neg hfn, reached, if_neg hfn]
    refine iff_of_true (passes_lift_bind_of (fun _ _ => passes_pure _ _) _ _)
      ⟨fun hfn' => absurd hfn' hfn, ?_⟩
    rintro _ _ _ ⟨⟩

end Calls

end Passing

/-! ## Programs -/

mutual

/-- Each operation on the way has the slots that it needs: a read that pushes needs one, and a write
one or two.  A call needs two for its strings; with its arguments on the stack, one for the function,
another one for the message handler when there is a function, and, in the place of the arguments,
eight for the results when it returns any, which the callback has below it. -/
def Native.Roomy {ins outs : ℕ} (limit : ℕ) : Native ins outs → Streams → LuaState → Prop
  | .done, _, _ => True
  | .perform op next, streams, s => op.Roomy limit streams s ∧
      ∀ xs streams' s', op.run streams s = .ok (xs, streams') s' →
        (next (outcomes xs)).Roomy limit streams' s'

def Op.Roomy {ins outs : ℕ} (limit : ℕ) : Op ins outs → Streams → LuaState → Prop
  | .read i r, streams, s => r.Pushes (streams.input i) s → s.stack.length + 1 ≤ limit
  | .reset _, _, _ => True
  | .getCount _, _, _ => True
  | .write _ w, _, s => w.slots = 0 ∨ s.stack.length + w.slots ≤ limit
  | .call module func outPutFunc lua callBackFun, streams, s =>
      s.stack.length + 2 ≤ limit ∧
      outPutFunc.Roomy limit streams
        ⟨cstringValue (some func) :: cstringValue (some module) :: s.stack, s.log, s.shared⟩ ∧
      ∀ n visits streams' s',
        prepare module func outPutFunc.run ([], streams) s = .ok (⟨n⟩, visits, streams') s' →
        s'.stack.length + 1 ≤ limit ∧
        ((s'.shared.global callFunction).isFunction = true → s'.stack.length + 2 ≤ limit) ∧
        ∀ ack tarceIndex s'', reached (fun request shared => (lua request shared).run) n s'
            = .ok (some (ack, tarceIndex)) s'' →
          s'.stack.length - n + (traceHandler s'.shared).toList.length + luaResultCount ≤ limit ∧
          callBackFun.Roomy limit visits (streams'.withInput ack) s''

def OutPut.Roomy {ins outs : ℕ} (limit : ℕ) : OutPut ins outs → Streams → LuaState → Prop
  | .empty, _, _ => True
  | .of body, streams, s => body.Roomy limit (streams.withOutput ⟨2⟩) s

def Callback.Roomy {ins outs : ℕ} (limit : ℕ) :
    Callback ins outs → List Visit → Streams → LuaState → Prop
  | .empty, _, _, _ => True
  | .of body, visits, streams, s => (body (outcomes visits)).Roomy limit streams s

end

/-- Above `base` there are `c` slots of the calls around and the values written, and there are no
more than `LUA_MINSTACK` in all. -/
structure Filled (base c : ℕ) (streams : Streams) (s : LuaState) : Prop where
  low : base + c + pending 0 streams ≤ s.stack.length
  high : s.stack.length ≤ base + luaMinStack

/-- What the checks of a program come to, and what it leaves when it has the slots that it needs. -/
structure Decides (ins outs base c : ℕ) (y : SlotM Captured) (x : LuaM Captured) (s : LuaState)
    (room : Prop) : Prop where
  passes_iff : Passes y s ↔ room
  fills : room → ∀ p s', x s = .ok p s' → p.2.Sized ins outs ∧ Filled base c p.2 s'

/-- The same for an `outPutFunc`. -/
def OutPutDecides {ins outs : ℕ} (base : ℕ) (outPutFunc : OutPut ins outs) : Prop :=
  ∀ (c : ℕ) (streams : Streams) (s : LuaState), streams.Sized ins outs →
    Filled base c (streams.withOutput ⟨2⟩) s →
    (Passes (outPutIn (outPutFunc.runIn (base + luaMinStack)) ⟨2⟩ ([], streams)) s ↔
      outPutFunc.Roomy (base + luaMinStack) streams s) ∧
    (outPutFunc.Roomy (base + luaMinStack) streams s → ∀ {input visits streams' s'},
      outPut outPutFunc.run ⟨2⟩ ([], streams) s = .ok (input, visits, streams') s' →
      streams'.Sized ins outs ∧ Filled base c (streams'.withOutput input) s')

/-- The same for a callback, above the results. -/
def CallbackDecides {ins outs : ℕ} (base : ℕ) (callBackFun : Callback ins outs) : Prop :=
  ∀ (c : ℕ) (visits : List Visit) (ack : LuaInputStream) (streams : Streams) (s : LuaState),
    streams.Sized ins outs → Filled base c (streams.withInput ack) s →
    Decides ins outs base c
      (callNonNullIn (callBackFun.runIn (base + luaMinStack)) ack (visits, streams))
      (callNonNull callBackFun.run ack (visits, streams)) s
      (callBackFun.Roomy (base + luaMinStack) visits (streams.withInput ack) s)

section Filled

variable {base c n : ℕ} {streams : Streams} {s s' : LuaState} {run : LuaRun}

/-- The arguments of a call are few enough to be counted. -/
theorem Filled.counted (h : Filled base c (streams.withOutput ⟨n⟩) s) :
    base + c + pending 0 streams + n ≤ s.stack.length ∧ n ≤ 127 := by
  have hlow := h.low
  have hhigh := h.high
  rw [pending_withOutput (Nat.zero_le _)] at hlow
  dsimp only at hlow
  unfold luaMinStack at hhigh
  omega

theorem Filled.missed (h : Filled base c (streams.withOutput ⟨n⟩) s)
    (hreached : reached run n s = .ok none s') : Filled base c streams s' := by
  have hlow := h.counted.1
  have hhigh := h.high
  rcases reached_eq_none hreached with ⟨-, rfl⟩ | ⟨-, message, shared, -, rfl⟩
  · exact ⟨by dsimp only; omega, hhigh⟩
  · constructor
    · rw [List.length_drop]
      omega
    · rw [List.length_drop]
      omega

theorem Filled.write {o : ℕ} {w : Write} {stack : List Value} {log : List Event} {sh : Shared}
    (h : Filled base c streams ⟨stack, log, sh⟩) (hlt : o < streams.outputs.length)
    (hroom : w.slots = 0 ∨ stack.length + w.slots ≤ base + luaMinStack) :
    Filled base c (streams.setOutput o ⟨(streams.output o).count + w.value.toList.length⟩)
      ⟨w.value.toList.reverse ++ stack, log, sh⟩ := by
  have hlow := h.low
  have hhigh := h.high
  have hslots : w.value.toList.length ≤ w.slots := by
    cases w <;> simp [Write.slots, Write.value]
  dsimp only at hlow hhigh
  constructor
  · rw [pending_setOutput hlt (.inl (Nat.zero_le o)), List.length_append, List.length_reverse]
    omega
  · rw [List.length_append, List.length_reverse]
    omega

/-- The height above which the callback works. -/
theorem length_of_reached {ack : LuaInputStream} {tarceIndex : ℤ}
    (hreached : reached run n s = .ok (some (ack, tarceIndex)) s') :
    s'.stack.length
      = s.stack.length - n + (traceHandler s.shared).toList.length + luaResultCount := by
  obtain ⟨-, -, results, shared, -, -, rfl⟩ := reached_eq_some hreached
  simp only [List.length_append, List.length_reverse, adjust_length, List.length_drop]
  omega

theorem Filled.answered (h : Filled base c (streams.withOutput ⟨n⟩) s) {ack : LuaInputStream}
    {tarceIndex : ℤ} (hreached : reached run n s = .ok (some (ack, tarceIndex)) s')
    (hroom : s'.stack.length ≤ base + luaMinStack) :
    Filled base (c + ((traceHandler s.shared).toList.length + luaResultCount))
      (streams.withInput ack) s' := by
  have hlow := h.counted.1
  have hlen := length_of_reached hreached
  refine ⟨?_, hroom⟩
  rw [pending_withInput]
  omega

theorem Filled.popResults {handler : Option Value} {tarceIndex : ℤ}
    (h : Filled base (c + (handler.toList.length + luaResultCount)) streams s)
    (htarce : tarceIndex = 0 ↔ handler = none) {ret : Bool}
    (hpop : popResults tarceIndex s = .ok ret s') : Filled base c streams s' := by
  have hlow := h.low
  have hhigh := h.high
  rw [popResults_drop htarce (by omega)] at hpop
  cases hpop
  constructor
  · rw [List.length_drop]
    omega
  · rw [List.length_drop]
    omega

end Filled

section Answers

variable {ins outs base c n : ℕ} {callBackFun : Callback ins outs}
  (hcallback : CallbackDecides base callBackFun) (lua : Request → Shared → Script)
  (visits : List Visit) {streams : Streams} {s : LuaState} (hsized : streams.Sized ins outs)
  (hfilled : Filled base c (streams.withOutput ⟨n⟩) s)
include hcallback hsized hfilled

/-- **`Call`**, with its arguments on the stack. -/
theorem passes_call_iff :
    Passes (callIn (base + luaMinStack) (fun request shared => (lua request shared).run) ⟨n⟩
        (callBackFun.runIn (base + luaMinStack)) (visits, streams)) s ↔
      s.stack.length + 1 ≤ base + luaMinStack ∧
      ((s.shared.global callFunction).isFunction = true → s.stack.length + 2 ≤ base + luaMinStack) ∧
      ∀ ack tarceIndex s', reached (fun request shared => (lua request shared).run) n s
          = .ok (some (ack, tarceIndex)) s' →
        s.stack.length - n + (traceHandler s.shared).toList.length + luaResultCount
          ≤ base + luaMinStack ∧
        callBackFun.Roomy (base + luaMinStack) visits (streams.withInput ack) s' := by
  obtain ⟨hlow, hle⟩ := hfilled.counted
  rw [passes_call _ _ (erases_callback _ callBackFun) _ hle (by omega)]
  refine and_congr_right fun _ => and_congr_right fun _ => ?_
  refine forall₃_congr fun ack tarceIndex s' => imp_congr_right fun hreached => ?_
  rw [← length_of_reached hreached]
  exact and_congr_right fun hroom =>
    (hcallback _ visits _ _ _ hsized (hfilled.answered hreached hroom)).passes_iff

/-- What it leaves, when there is room for the results. -/
theorem filled_of_call {ret : Bool} {p : Captured} {t : LuaState}
    (hroomy : ∀ ack tarceIndex s', reached (fun request shared => (lua request shared).run) n s
        = .ok (some (ack, tarceIndex)) s' →
      s.stack.length - n + (traceHandler s.shared).toList.length + luaResultCount
        ≤ base + luaMinStack ∧
      callBackFun.Roomy (base + luaMinStack) visits (streams.withInput ack) s')
    (hcall : call (fun request shared => (lua request shared).run) ⟨n⟩ callBackFun.run
      (visits, streams) s = .ok (ret, p) t) : p.2.Sized ins outs ∧ Filled base c p.2 t := by
  obtain ⟨hlow, hle⟩ := hfilled.counted
  rw [call_eq _ _ _ hle (by omega)] at hcall
  cases hreached : reached (fun request shared => (lua request shared).run) n s with
  | error fault s' =>
      rw [hreached] at hcall
      cases hcall
  | ok o s' =>
      rw [hreached] at hcall
      cases o with
      | none =>
          cases hcall
          exact ⟨hsized, hfilled.missed hreached⟩
      | some q =>
          obtain ⟨ack, tarceIndex⟩ := q
          obtain ⟨vars, s₂, hcb, hpop⟩ := ok_of_bind hcall
          obtain ⟨ret', s₃, hpop, hpure⟩ := ok_of_bind hpop
          cases hpure
          obtain ⟨hroom, hcbRoomy⟩ := hroomy ack tarceIndex s' hreached
          rw [← length_of_reached hreached] at hroom
          obtain ⟨hsized', hfilled'⟩ := (hcallback _ visits _ _ _ hsized (hfilled.answered hreached hroom)).fills
            hcbRoomy _ s₂ hcb
          obtain ⟨-, rfl, -⟩ := reached_eq_some hreached
          exact ⟨hsized', hfilled'.popResults (traceIndex_eq_zero_iff _ n) hpop⟩

end Answers

/-- The checks of a call are those of `CallScriptFunc`. -/
theorem passes_op_call {ins outs : ℕ} (limit : ℕ) (module func : Bytes) (outPutFunc : OutPut ins outs)
    (lua : Request → Shared → Script) (callBackFun : Callback ins outs) (streams : Streams)
    (s : LuaState) :
    Passes ((Op.call module func outPutFunc lua callBackFun).runIn limit streams) s ↔
      Passes (callScriptFuncIn limit (fun request shared => (lua request shared).run) module func
        (outPutFunc.runIn limit) (callBackFun.runIn limit) ([], streams)) s := by
  have herases := erases_callScriptFunc limit (fun request shared => (lua request shared).run)
    (erases_callback limit callBackFun) (erases_output limit outPutFunc) module func ([], streams)
  have htail : ∀ (p : Bool × Captured) (s' : LuaState), Passes (do
      let s ← lift get
      pure (p.2.1 ++ [⟨.called p.1, s.shared⟩], p.2.2) : SlotM Captured) s' :=
    fun _ _ => passes_lift_bind_of (fun _ _ => passes_pure _ _) _ _
  rw [Op.runIn]
  exact (passes_bind herases _).trans (and_iff_left fun p s' _ => htail p s')

section Calls

variable {ins outs base c : ℕ} {outPutFunc : OutPut ins outs} {callBackFun : Callback ins outs}
  (houtPut : OutPutDecides base outPutFunc) (hcallback : CallbackDecides base callBackFun)
  (module func : Bytes) (lua : Request → Shared → Script) {streams : Streams} {s : LuaState}
  (hsized : streams.Sized ins outs) (hfilled : Filled base c streams s)
include houtPut hcallback hsized hfilled

/-- **A call**, when its closures are known. -/
theorem call_decides :
    Decides ins outs base c
      ((Op.call module func outPutFunc lua callBackFun).runIn (base + luaMinStack) streams)
      ((Op.call module func outPutFunc lua callBackFun).run streams) s
      ((Op.call module func outPutFunc lua callBackFun).Roomy (base + luaMinStack) streams s) := by
  obtain ⟨stack, log, sh⟩ := s
  have hpre := preCall_eq stack log sh module func
  have hentered : stack.length + 2 ≤ base + luaMinStack →
      Filled base c (streams.withOutput ⟨2⟩)
        ⟨cstringValue (some func) :: cstringValue (some module) :: stack, log, sh⟩ := by
    intro hroom
    refine ⟨?_, hroom⟩
    have hlow := hfilled.low
    rw [pending_withOutput (Nat.zero_le _), List.length_cons, List.length_cons]
    dsimp only at hlow ⊢
    omega
  have hprepare : prepare module func outPutFunc.run ([], streams) ⟨stack, log, sh⟩
      = outPut outPutFunc.run ⟨2⟩ ([], streams)
        ⟨cstringValue (some func) :: cstringValue (some module) :: stack, log, sh⟩ := bind_ok hpre
  rw [Op.run, Op.Roomy]
  simp only [hprepare]
  constructor
  · refine (passes_op_call _ module func outPutFunc lua callBackFun streams _).trans ?_
    refine (passes_bind_of_ok (erases_preCall _ module func) hpre).trans ?_
    rw [passes_preCall]
    refine and_congr_right fun hroom => ?_
    obtain ⟨hpasses, hfills⟩ := houtPut _ _ _ hsized (hentered hroom)
    refine (passes_bind (erases_outPut (erases_output _ outPutFunc) ⟨2⟩ ([], streams)) _).trans ?_
    rw [hpasses]
    refine and_congr_right fun houtRoomy => ?_
    constructor
    · intro hall n visits streams' s' hout
      obtain ⟨hsized', hfilled'⟩ := hfills houtRoomy hout
      exact (passes_call_iff hcallback lua visits hsized' hfilled').mp
        (hall (⟨n⟩, visits, streams') s' hout)
    · rintro hall ⟨⟨n⟩, visits, streams'⟩ s' hout
      obtain ⟨hsized', hfilled'⟩ := hfills houtRoomy hout
      exact (passes_call_iff hcallback lua visits hsized' hfilled').mpr (hall n visits streams' s' hout)
  · rintro ⟨hroom, houtRoomy, hall⟩ p s' hrun
    obtain ⟨⟨ret, visits, streams'⟩, t, hcall, hget⟩ := ok_of_bind hrun
    cases hget
    rw [callScriptFunc, bind_ok hpre] at hcall
    obtain ⟨⟨⟨n⟩, visits₁, streams₁⟩, s₁, hout, hcall⟩ := ok_of_bind hcall
    obtain ⟨hsized₁, hfilled₁⟩ := (houtPut _ _ _ hsized (hentered hroom)).2 houtRoomy hout
    obtain ⟨-, -, hanswered⟩ := hall n visits₁ streams₁ s₁ hout
    have hend := filled_of_call hcallback lua visits₁ hsized₁ hfilled₁ hanswered hcall
    exact hend

end Calls

/-- Operations that leave the stack alone. -/
theorem Filled.same {base c : ℕ} {streams streams' : Streams} {s s' : LuaState}
    (h : Filled base c streams s) (hpending : pending 0 streams' = pending 0 streams)
    (hlen : s'.stack.length = s.stack.length) : Filled base c streams' s' :=
  ⟨by rw [hpending, hlen]; exact h.low, by rw [hlen]; exact h.high⟩

mutual

/-- **Bodies**, by induction on the tree: what each operation on the way needs is what decides. -/
theorem native_decides {ins outs base : ℕ} : ∀ (body : Native ins outs) {c : ℕ} {streams : Streams}
    {s : LuaState}, streams.Sized ins outs → Filled base c streams s →
    Decides ins outs base c (body.runIn (base + luaMinStack) streams) (body.run streams) s
      (body.Roomy (base + luaMinStack) streams s)
  | .done, c, streams, s, hsized, hfilled => by
      rw [Native.runIn, Native.run, Native.Roomy]
      refine ⟨iff_of_true (passes_pure _ _) trivial, ?_⟩
      rintro - _ _ ⟨⟩
      exact ⟨hsized, hfilled⟩
  | .perform op next, c, streams, s, hsized, hfilled => by
      have hop := op_decides op hsized hfilled
      have hnext : op.Roomy (base + luaMinStack) streams s → ∀ {xs streams' s'},
          op.run streams s = .ok (xs, streams') s' →
          Decides ins outs base c ((next (outcomes xs)).runIn (base + luaMinStack) streams')
            ((next (outcomes xs)).run streams') s'
            ((next (outcomes xs)).Roomy (base + luaMinStack) streams' s') := by
        intro hroom xs streams' s' hrun
        obtain ⟨hsized', hfilled'⟩ := hop.fills hroom _ s' hrun
        exact native_decides (next (outcomes xs)) hsized' hfilled'
      rw [Native.runIn, Native.run, Native.Roomy]
      constructor
      · rw [passes_bind (erases_op _ op streams), hop.passes_iff]
        refine and_congr_right fun hroom => ?_
        constructor
        · intro hall xs streams' s' hrun
          exact (hnext hroom hrun).passes_iff.mp ((passes_bind_pure _ _ s').mp (hall _ s' hrun))
        · rintro hall ⟨xs, streams'⟩ s' hrun
          exact (passes_bind_pure _ _ s').mpr
            ((hnext hroom hrun).passes_iff.mpr (hall xs streams' s' hrun))
      · rintro ⟨hroom, hall⟩ p s'' hrun
        obtain ⟨⟨xs, streams'⟩, s', hstep, hrest⟩ := ok_of_bind hrun
        obtain ⟨⟨ys, streams''⟩, t, hrest, hpure⟩ := ok_of_bind hrest
        obtain ⟨hsized', hfilled'⟩ := (hnext hroom hstep).fills (hall xs streams' s' hstep) _ _ hrest
        cases hpure
        exact ⟨hsized', hfilled'⟩

theorem op_decides {ins outs base : ℕ} : ∀ (op : Op ins outs) {c : ℕ} {streams : Streams}
    {s : LuaState}, streams.Sized ins outs → Filled base c streams s →
    Decides ins outs base c (op.runIn (base + luaMinStack) streams) (op.run streams) s
      (op.Roomy (base + luaMinStack) streams s)
  | .read i r, c, streams, s, hsized, hfilled => by
      rw [Op.runIn, Op.run, Op.Roomy]
      constructor
      · exact (passes_lift_bind rfl).trans
          ((passes_bind_pure _ _ s).trans (passes_read _ r (streams.input i) s))
      · rintro - p s' hrun
        obtain ⟨s₀, s₁, hget, hrest⟩ := ok_of_bind hrun
        cases hget
        obtain ⟨⟨val, input⟩, s₂, hread, hpure⟩ := ok_of_bind hrest
        cases hpure
        exact ⟨hsized.setInput _ _, hfilled.same rfl (read_height hread)⟩
  | .reset i, c, streams, s, hsized, hfilled => by
      rw [Op.runIn, Op.run, Op.Roomy]
      refine ⟨iff_of_true (passes_lift_bind_of (fun _ _ => passes_pure _ _) _ _) trivial, ?_⟩
      rintro - _ _ ⟨⟩
      exact ⟨hsized.setInput _ _, hfilled.same rfl rfl⟩
  | .getCount i, c, streams, s, hsized, hfilled => by
      rw [Op.runIn, Op.run, Op.Roomy]
      refine ⟨iff_of_true (passes_lift_bind_of (fun _ _ => passes_pure _ _) _ _) trivial, ?_⟩
      rintro - _ _ ⟨⟩
      exact ⟨hsized, hfilled⟩
  | .write o w, c, streams, s, hsized, hfilled => by
      rw [Op.runIn, Op.run, Op.Roomy]
      obtain ⟨stack, log, sh⟩ := s
      constructor
      · exact (passes_lift_bind rfl).trans
          ((passes_bind_pure _ _ _).trans (passes_write _ w (streams.output o) stack log sh))
      · rintro hroom p s' hrun
        obtain ⟨s₀, s₁, hget, hrest⟩ := ok_of_bind hrun
        cases hget
        obtain ⟨output, s₂, hwrite, hpure⟩ := ok_of_bind hrest
        rw [w.run_eq stack log sh] at hwrite
        cases hwrite
        cases hpure
        exact ⟨hsized.setOutput _ _, hfilled.write (hsized.2 ▸ o.isLt) hroom⟩
  | .call module func outPutFunc lua callBackFun, c, streams, s, hsized, hfilled =>
      call_decides (outPut_decides outPutFunc) (callback_decides callBackFun) module func lua hsized
        hfilled

theorem outPut_decides {ins outs base : ℕ} :
    ∀ outPutFunc : OutPut ins outs, OutPutDecides base outPutFunc
  | .empty => by
      intro c streams s hsized hfilled
      rw [OutPut.runIn, OutPut.run, OutPut.Roomy]
      refine ⟨iff_of_true (passes_pure _ _) trivial, ?_⟩
      rintro - _ _ _ _ ⟨⟩
      exact ⟨hsized, hfilled⟩
  | .of body => by
      intro c streams s hsized hfilled
      have hbody := native_decides body (hsized.withOutput ⟨2⟩) hfilled
      rw [OutPut.runIn, OutPut.run, OutPut.Roomy]
      constructor
      · refine (passes_bind (erases_native _ body _) s).trans ?_
        rw [hbody.passes_iff]
        exact and_iff_left fun p s' _ => passes_lift_bind_of (fun _ _ => passes_pure _ _) _ _
      · rintro hroom input visits streams' s' hrun
        obtain ⟨⟨xs, streams₁⟩, s₁, hran, hrest⟩ := ok_of_bind hrun
        obtain ⟨hsized₁, hfilled₁⟩ := hbody.fills hroom _ _ hran
        cases hrest
        refine ⟨hsized₁.dropOutput, ?_⟩
        rw [hsized₁.withOutput_dropOutput]
        exact hfilled₁

theorem callback_decides {ins outs base : ℕ} :
    ∀ callBackFun : Callback ins outs, CallbackDecides base callBackFun
  | .empty => by
      intro c visits ack streams s hsized hfilled
      rw [Callback.runIn, Callback.run, Callback.Roomy]
      refine ⟨iff_of_true (passes_pure _ _) trivial, ?_⟩
      rintro - _ _ ⟨⟩
      exact ⟨hsized, hfilled.same rfl rfl⟩
  | .of body => by
      intro c visits ack streams s hsized hfilled
      have hbody := native_decides (body (outcomes visits)) (hsized.withInput ack) hfilled
      rw [Callback.runIn, Callback.run, Callback.Roomy]
      constructor
      · exact (passes_bind_pure _ _ s).trans hbody.passes_iff
      · rintro hroom p s' hrun
        obtain ⟨⟨xs, streams₁⟩, s₁, hran, hpure⟩ := ok_of_bind hrun
        obtain ⟨hsized₁, hfilled₁⟩ := hbody.fills hroom _ _ hran
        cases hpure
        exact ⟨hsized₁.dropInput, hfilled₁.same rfl rfl⟩

end

/-- **The stack space of the glue.**  In each call of a registered function, and in each call of a
script function by the host, whatever lies on the stack, all pushes find slots among the
`LUA_MINSTACK` that are granted if and only if each operation has the slots that it needs. -/
theorem stackSpace_iff (registered : Native 1 1) (args : List Value) (shared : Shared)
    (module func : Bytes) (outPutFunc : OutPut 0 0) (lua : Request → Shared → Script)
    (callBackFun : Callback 0 0) (s : LuaState) :
    (Passes (luaCallIn (args.length + luaMinStack) registered) ⟨args.reverse, [], shared⟩ ↔
      registered.Roomy (args.length + luaMinStack)
        (argumentStreams { start := 0, count := args.length } {}) ⟨args.reverse, [], shared⟩) ∧
    (Passes (callScriptFuncIn luaMinStack (fun request shared => (lua request shared).run) module
        func (outPutFunc.runIn luaMinStack) (callBackFun.runIn luaMinStack) ([], {})) s ↔
      (Op.call module func outPutFunc lua callBackFun).Roomy luaMinStack {} s) := by
  constructor
  · have hnew := new_arguments args.reverse [] shared
    rw [List.length_reverse] at hnew
    have hfilled : Filled args.length 0 (argumentStreams { start := 0, count := args.length } {})
        ⟨args.reverse, [], shared⟩ :=
      ⟨Nat.le_of_eq List.length_reverse.symm, by
        rw [List.length_reverse]
        exact Nat.le_add_right _ _⟩
    have hbody := native_decides registered ⟨rfl, rfl⟩ hfilled
    rw [luaCallIn, passes_lift_bind hnew]
    exact (passes_bind_pure _ _ _).trans hbody.passes_iff
  · rw [← passes_op_call]
    by_cases hheight : s.stack.length ≤ luaMinStack
    · have hfilled : Filled 0 0 {} s := ⟨Nat.zero_le _, by rwa [Nat.zero_add]⟩
      have hop := op_decides (.call module func outPutFunc lua callBackFun) ⟨rfl, rfl⟩ hfilled
      rw [Nat.zero_add] at hop
      exact hop.passes_iff
    · refine iff_of_false (fun hpasses => ?_) fun hroomy => ?_
      · obtain ⟨stack, log, sh⟩ := s
        have hpre := ((passes_bind (erases_preCall luaMinStack module func) _).mp
          ((passes_op_call _ _ _ _ _ _ _ _).mp hpasses)).1
        have hroom := (passes_preCall luaMinStack module func stack log sh).mp hpre
        dsimp only at hheight
        omega
      · rw [Op.Roomy] at hroomy
        have hroom := hroomy.1
        omega

/-- C++ code that writes these values to its own output stream. -/
def Native.writes {ins outs : ℕ} (ws : List Write) : Native ins (outs + 1) :=
  ws.foldr (fun w next => .perform (.write (Fin.last outs) w) fun _ => next) .done

/-- Seventeen values are too many for a call, and twenty-one results for a registered function; one
that has written fourteen cannot even make a call that passes none. -/
theorem stackSpace_exceeded :
    ¬Passes (callScriptFuncIn luaMinStack (fun _ shared => .ok [] shared) (ascii "m") (ascii "f")
      ((OutPut.of (.writes (List.replicate 17 (.bool true))) : OutPut 0 0).runIn luaMinStack) none
      ([], {})) ⟨[], [], exampleShared⟩ ∧
    ¬Passes (luaCallIn luaMinStack (.writes (List.replicate 21 (.bool true)))) ⟨[], [], exampleShared⟩ ∧
    ¬Passes (luaCallIn luaMinStack ((List.replicate 14 (.write 0 (.bool true))).foldr
      (fun op next => .perform op fun _ => next) (.perform (.call (ascii "m") (ascii "f") .empty
        (fun _ shared => .ret shared []) .empty) fun _ => .done))) ⟨[], [], exampleShared⟩ := by
  unfold Passes
  decide +kernel

end SeedCore.Lua
