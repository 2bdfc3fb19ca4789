import SeedCore.Lua.Log
import SeedCore.Lua.Neutral

/-!
# What a registered function gets and gives

Arguments, written values and the frames of the calls that a registered function makes lie
on one stack.  Nevertheless the function reads its arguments in order, whatever it wrote
and called before, and Lua gets the values that it wrote, in the order of the writes.  It does not
when a closure of a call writes a value to the stream of the function: the value lands among the
slots of the call, and they are taken off by their number.

## Main definitions

* `Ran args sh body steps rest streams s` — a run of a registered function so far.
* `Delivered` — the invariant of such runs.
* `registered_delivers` — what the reads have given, and what Lua gets.
-/

namespace SeedCore.Lua

/-! ## The history of a function -/

/-- The number of reads of the arguments since the last `Reset`, or since the call. -/
def position (visits : List Visit) : ℕ :=
  visits.foldl (fun n x => match x.outcome with
    | .read 0 _ _ => n + 1
    | .reset 0 => 0
    | _ => n) 0

/-- The values that were written for Lua. -/
def wrote (visits : List Visit) : List Value :=
  written (visits.filterMap fun x => match x.outcome with
    | .wrote 0 w => some w
    | _ => none)

/-- What holds of everything that was learned, given what was learned before it. -/
def Throughout (P : List Visit → Visit → Prop) (visits : List Visit) : Prop :=
  ∀ before x, before ++ [x] <+: visits → P before x

/-- A read is for the type of the argument at the position, if there is one. -/
def FitsArguments (args : List Value) : List Visit → Prop :=
  Throughout fun before x => ∀ r val v, x.outcome = .read 0 r val →
    args[position before]? = some v → r.Fits x.shared v

/-- A read has given the argument at the position, and nothing past the end. -/
def Faithful (args : List Value) : List Visit → Prop :=
  Throughout fun before x => ∀ r val, x.outcome = .read 0 r val →
    val = args[position before]?.bind fun v => r.meaning x.shared v

/-- An operation of the function, with what was learned in it. -/
structure Step where
  op : Op 1 1
  visits : List Visit

/-- Nothing but `WriteBlob` was done to the stream for Lua. -/
def SparesOutput (visits : List Visit) : Prop :=
  ∀ x ∈ visits, ∀ w, x.outcome = .wrote 0 w → w.value = none

/-- If the operation is a call, its closures write no value to the stream for Lua. -/
def Step.Careful (step : Step) : Prop :=
  match step.op with
  | .call .. => SparesOutput step.visits
  | .read .. | .reset .. | .getCount .. | .write .. => True

/-- What was learned in some operations. -/
def learned (steps : List Step) : List Visit := steps.flatMap Step.visits

/-- A run of the registered function `body`, called with these arguments: it has performed
`steps`, and `rest` of it is still to come. -/
inductive Ran (args : List Value) (sh : Shared) (body : Native 1 1) :
    List Step → Native 1 1 → Streams → LuaState → Prop
  | enter : Ran args sh body [] body (argumentStreams { start := 0, count := args.length } {})
      ⟨args.reverse, [], sh⟩
  | perform {steps : List Step} {op : Op 1 1} {next : List Outcome → Native 1 1}
      {streams streams' : Streams} {s s' : LuaState} {visits : List Visit}
      (run : Ran args sh body steps (.perform op next) streams s)
      (step : op.run streams s = .ok (visits, streams') s') :
      Ran args sh body (steps ++ [⟨op, visits⟩]) (next (outcomes visits)) streams' s'

section History

variable {P : List Visit → Visit → Prop} {visits xs ys : List Visit}

theorem throughout_nil : Throughout P [] := fun before x h => by
  have hlen := h.length_le
  rw [List.length_append] at hlen
  exact absurd hlen (Nat.not_succ_le_zero _)

theorem throughout_concat {x : Visit} : Throughout P (visits ++ [x]) ↔ Throughout P visits ∧ P visits x := by
  constructor
  · intro h
    exact ⟨fun before y hy => h before y (hy.trans (List.prefix_append _ _)), h visits x List.prefix_rfl⟩
  · rintro ⟨hvisits, hx⟩ before y hy
    rcases List.prefix_concat_iff.mp hy with heq | hprefix
    · obtain ⟨rfl, hlast⟩ := List.append_inj' heq rfl
      cases hlast
      exact hx
    · exact hvisits before y hprefix

theorem Throughout.left (h : Throughout P (xs ++ ys)) : Throughout P xs :=
  fun before x hx => h before x (hx.trans (List.prefix_append _ _))

theorem position_concat (visits : List Visit) (x : Visit) :
    position (visits ++ [x]) = match x.outcome with
      | .read 0 _ _ => position visits + 1
      | .reset 0 => 0
      | _ => position visits := by
  rw [position, List.foldl_append]
  rfl

theorem wrote_append (xs ys : List Visit) : wrote (xs ++ ys) = wrote xs ++ wrote ys := by
  rw [wrote, wrote, wrote, List.filterMap_append, written, List.filterMap_append]
  rfl

theorem wrote_eq_nil (h : SparesOutput visits) : wrote visits = [] := by
  rw [wrote, written, List.filterMap_filterMap, List.filterMap_eq_nil_iff]
  intro x hx
  cases hout : x.outcome with
  | wrote o w =>
      cases o with
      | zero => exact h x hx w hout
      | succ o => rfl
  | _ => rfl

theorem learned_concat (steps : List Step) (step : Step) :
    learned (steps ++ [step]) = learned steps ++ step.visits := by
  rw [learned, List.flatMap_append, List.flatMap_singleton]
  rfl

end History

/-! ## The invariant -/

/-- The arguments lie at the bottom of the stack with the written values above them, below all
slots of calls, and the streams of the function stand where they should. -/
structure Delivered (args vals : List Value) (n : ℕ) (visits : List Visit) (streams : Streams)
    (s : LuaState) : Prop where
  heights : Heights (vals.reverse ++ args.reverse) 1 1 [] n streams s
  input_eq : streams.input 0 = ⟨(min (position visits) args.length : ℕ), 0, args.length⟩
  count_eq : (streams.output 0).count = vals.length
  faithful : Faithful args visits

section Steps

variable {args vals : List Value} {n : ℕ} {visits : List Visit} {streams : Streams} {s s' : LuaState}

/-- What does not concern the streams of the function. -/
theorem Delivered.other (h : Delivered args vals n visits streams s) {x : Visit}
    (hread : ∀ r val, x.outcome ≠ .read 0 r val) (hreset : x.outcome ≠ .reset 0) {streams' : Streams}
    (hheights : Heights (vals.reverse ++ args.reverse) 1 1 [] n streams' s')
    (hinput : streams'.input 0 = streams.input 0)
    (hcount : (streams'.output 0).count = (streams.output 0).count) :
    Delivered args vals n (visits ++ [x]) streams' s' := by
  refine ⟨hheights, ?_, hcount.trans h.count_eq,
    throughout_concat.mpr ⟨h.faithful, fun r val hx => absurd hx (hread r val)⟩⟩
  have hposition : position (visits ++ [x]) = position visits := by
    rw [position_concat]
    split
    · next heq => exact absurd heq (hread _ _)
    · next heq => exact absurd heq hreset
    · rfl
  rw [hposition, hinput, h.input_eq]

/-- **A read** gives the argument at the position and leaves the stack alone. -/
theorem Delivered.read (h : Delivered args vals n visits streams s) (hlt : 0 < streams.inputs.length)
    {r : Read} {val : Option Datum} {input : LuaInputStream}
    (hfits : ∀ v, args[position visits]? = some v → r.Fits s.shared v)
    (hrun : r.run (streams.input 0) s = .ok (val, input) s') :
    Delivered args vals n (visits ++ [⟨.read 0 r val, s.shared⟩]) (streams.setInput 0 input) s' := by
  obtain ⟨stack, log, sh⟩ := s
  have hposition : position (visits ++ [⟨.read 0 r val, sh⟩]) = position visits + 1 :=
    position_concat visits _
  have hwindows : ∀ i, 1 ≤ i → i < (streams.setInput 0 input).inputs.length →
      Window (vals.reverse ++ args.reverse) ((streams.setInput 0 input).input i) := by
    intro i hi hlt'
    rw [streams.input_setInput hlt, if_neg (by omega)]
    exact h.heights.windows i hi (by rwa [Streams.setInput, List.length_set] at hlt')
  cases hv : args[position visits]? with
  | some v =>
      obtain ⟨hle, -⟩ := List.getElem?_eq_some_iff.mp hv
      have hslot : stack.reverse[position visits]? = some v := by
        obtain ⟨new, above, -, hstack, -⟩ := h.heights.grown
        rw [show stack = _ from hstack, List.reverse_append, List.reverse_append,
          List.reverse_reverse, List.append_assoc, List.getElem?_append_left hle, hv]
      have hinput := h.input_eq
      rw [Nat.min_eq_left (Nat.le_of_lt hle)] at hinput
      have hlt' : (streams.input 0).index < (streams.input 0).count := by
        rw [hinput]
        dsimp only
        omega
      have hread := Read.run_eq stack log sh hlt'
        (by rw [hinput, LuaInputStream.slot]; dsimp only; omega) hslot (hfits v hv)
      rw [hread] at hrun
      cases hrun
      refine ⟨⟨h.heights.grown, h.heights.counts, hwindows⟩, ?_, h.count_eq,
        throughout_concat.mpr ⟨h.faithful, fun r' val' heq => ?_⟩⟩
      · rw [streams.input_setInput hlt, if_pos rfl, hposition, Nat.min_eq_left hle,
          LuaInputStream.next, hinput]
        rfl
      · cases heq
        rw [hv]
        rfl
  | none =>
      -- past the end, the stream stays where it is
      have hle := List.getElem?_eq_none_iff.mp hv
      have hinput := h.input_eq
      rw [Nat.min_eq_right hle] at hinput
      rw [Read.run_end (hinput ▸ Int.le_refl _) r] at hrun
      cases hrun
      refine ⟨⟨h.heights.grown, h.heights.counts, hwindows⟩, ?_, h.count_eq,
        throughout_concat.mpr ⟨h.faithful, fun r' val' heq => ?_⟩⟩
      · rw [streams.input_setInput hlt, if_pos rfl, hposition,
          Nat.min_eq_right (Nat.le_succ_of_le hle), hinput]
      · cases heq
        rw [hv]
        rfl

theorem Delivered.reset (h : Delivered args vals n visits streams s)
    (hlt : 0 < streams.inputs.length) :
    Delivered args vals n (visits ++ [⟨.reset 0, s.shared⟩])
      (streams.setInput 0 (streams.input 0).reset) s := by
  have hposition : position (visits ++ [⟨.reset 0, s.shared⟩]) = 0 := position_concat visits _
  refine ⟨h.heights.reset hlt, ?_, h.count_eq,
    throughout_concat.mpr ⟨h.faithful, fun r val hx => by cases hx⟩⟩
  rw [streams.input_setInput hlt, if_pos rfl, hposition, Nat.zero_min, LuaInputStream.reset, h.input_eq]
  rfl

/-- **A value written by the function itself** goes on top of the others. -/
theorem Delivered.write (h : Delivered args vals 0 visits streams s) (hsized : streams.Sized 1 1)
    (hfound : CallFound s.log) (w : Write) :
    Delivered args (vals ++ w.value.toList) 0 (visits ++ [⟨.wrote 0 w, s.shared⟩])
      (streams.setOutput 0 ⟨(streams.output 0).count + w.value.toList.length⟩)
      ⟨w.value.toList.reverse ++ s.stack, s.log, s.shared⟩ := by
  have hlt : 0 < streams.outputs.length := by rw [hsized.2]; exact Nat.zero_lt_one
  have hset := hsized.setOutput 0 ⟨(streams.output 0).count + w.value.toList.length⟩
  have hposition : position (visits ++ [⟨.wrote 0 w, s.shared⟩]) = position visits :=
    position_concat visits _
  obtain ⟨new, above, hlog, hstack, hle, hiff⟩ := h.heights.grown
  rw [List.nil_append] at hlog
  rw [pending_of_sized hsized] at hiff
  have habove : above = [] := List.length_eq_zero_iff.mp (hiff.mpr (hlog ▸ hfound))
  refine ⟨⟨⟨new, [], hlog, ?_, ?_, ?_⟩, fun o ho hlt' => ?_, fun i hi hlt' => ?_⟩, ?_, ?_,
    throughout_concat.mpr ⟨h.faithful, fun r val hx => by cases hx⟩⟩
  · dsimp only
    rw [hstack, habove, List.reverse_append, List.nil_append, List.nil_append, List.append_assoc]
  · rw [pending_of_sized hset]
    exact Nat.le_refl 0
  · rw [pending_of_sized hset]
    exact iff_of_true rfl (hlog ▸ hfound)
  · rw [hset.2] at hlt'
    omega
  · rw [hset.1] at hlt'
    omega
  · rw [hposition]
    exact h.input_eq
  · rw [streams.output_setOutput hlt, if_pos rfl, h.count_eq, List.length_append]

end Steps

/-! ## Calls of the function -/

section Calls

variable (args vals : List Value) (before : List Visit)

/-- **What a call keeps** of the function around it. -/
theorem kept_delivered :
    Kept (fun xs => Short xs ∧ FitsArguments args (before ++ xs) ∧ SparesOutput xs) 1 1
      fun n xs streams s => Delivered args vals n (before ++ xs) streams s where
  left := fun ⟨hshort, hfits, hspares⟩ => by
    rw [← List.append_assoc] at hfits
    exact ⟨(short_append.mp hshort).1, hfits.left, (List.forall_mem_append.mp hspares).1⟩
  short := fun h => h.1
  read := by
    rintro n xs streams s i r val input s' ⟨-, hfits, -⟩ hlt h hread
    rw [← List.append_assoc] at hfits ⊢
    cases i with
    | zero =>
        exact h.read hlt (fun v hv => (throughout_concat.mp hfits).2 r val v rfl hv) hread
    | succ i =>
        refine h.other (fun _ _ => by simp) (by simp)
          (h.heights.read (Nat.le_add_left 1 i) hlt hread) ?_ rfl
        rw [streams.input_setInput hlt, if_neg (Nat.succ_ne_zero i)]
  reset := by
    intro n xs streams s i _ hlt h
    rw [← List.append_assoc]
    cases i with
    | zero => exact h.reset hlt
    | succ i =>
        refine h.other (fun _ _ => by simp) (by simp) (h.heights.reset hlt) ?_ rfl
        rw [streams.input_setInput hlt, if_neg (Nat.succ_ne_zero i)]
  quiet := by
    intro n xs streams s x sh hquiet h
    rw [← List.append_assoc]
    refine h.other (fun _ _ hx => ?_) (fun hx => ?_) h.heights rfl rfl
    · rw [show x = _ from hx] at hquiet
      exact hquiet
    · rw [show x = _ from hx] at hquiet
      exact hquiet
  write := by
    rintro n xs streams s o w ⟨-, -, hspares⟩ hlt h
    rw [← List.append_assoc]
    have hnone : 1 ≤ o ∨ w.value = none := by
      cases o with
      | zero => exact .inr (hspares _ (List.mem_append_right _ (List.mem_singleton_self _)) w rfl)
      | succ o => exact .inl (Nat.le_add_left 1 o)
    refine h.other (fun _ _ => by simp) (by simp) (h.heights.write hlt hnone) rfl ?_
    rw [streams.output_setOutput hlt]
    split
    · next heq =>
        subst heq
        rw [hnone.resolve_left (Nat.not_succ_le_zero 0)]
        rfl
    · rfl
  enter := by
    intro n xs streams s u v hk h
    refine ⟨h.heights.enter hk u v, h.input_eq, ?_, h.faithful⟩
    rw [streams.output_withOutput _ hk]
    exact h.count_eq
  height := by
    intro n xs streams s count hk h
    obtain ⟨⟨new, above, -, hstack, hle, -⟩, -⟩ := Heights.split hk h.heights
    rw [hstack, List.length_append]
    omega
  missed := by
    intro n xs streams s count run s' hk h hreached
    have hcount := h.count_eq
    rw [streams.output_withOutput _ hk] at hcount
    exact ⟨Heights.missed hk h.heights hreached, h.input_eq, hcount, h.faithful⟩
  answered := by
    intro n xs streams s count run ack tarceIndex s' hk hl h hreached
    obtain ⟨n', hheights, hpops⟩ := Heights.answered hl h.heights hreached
    have hcount := h.count_eq
    rw [streams.output_withOutput _ hl] at hcount
    refine ⟨n', ⟨hheights, ?_, hcount, h.faithful⟩, ?_⟩
    · rw [streams.input_withInput _ hk]
      exact h.input_eq
    · intro ys streams₂ s₂ ret s₃ hlt h₂ hpop
      refine ⟨hpops h₂.heights hpop, ?_, h₂.count_eq, h₂.faithful⟩
      rw [streams₂.input_dropInput (by rw [Streams.dropInput, List.length_dropLast]; omega)]
      exact h₂.input_eq

end Calls

section Runs

variable {args : List Value} {sh : Shared} {body rest : Native 1 1} {steps : List Step}
  {streams : Streams} {s : LuaState}

/-- What the function does keeps the beginning of the log. -/
theorem prefix_of_op {ins outs : ℕ} {op : Op ins outs} {streams : Streams} {p : Captured}
    {s s' : LuaState} (h : op.run streams s = .ok p s') : s.log <+: s'.log := by
  have hlog := (keepsLog_op (P := fun l => s.log <+: l)
    (fun l name v h => h.trans (List.prefix_append l _))
    (fun l request h => h.trans (List.prefix_append l _)) op streams).apply List.prefix_rfl
  rwa [h] at hlog

theorem sparesOutput_singleton {x : Visit} (h : ∀ o w, x.outcome ≠ .wrote o w) : SparesOutput [x] :=
  fun _ hy w hw => absurd (List.mem_singleton.mp hy ▸ hw) (h 0 w)

/-- But for a write, nothing is written for Lua. -/
theorem sparesOutput_of_op {op : Op 1 1} {streams : Streams} {xs : List Visit} {streams' : Streams}
    {s s' : LuaState} (hwrite : ∀ o w, op ≠ .write o w) (hcareful : Step.Careful ⟨op, xs⟩)
    (h : op.run streams s = .ok (xs, streams') s') : SparesOutput xs := by
  cases op with
  | write o w => exact absurd rfl (hwrite o w)
  | call module func outPutFunc lua callBackFun => exact hcareful
  | read i r =>
      rw [Op.run] at h
      obtain ⟨s₀, s₁, hget, hrest⟩ := ok_of_bind h
      obtain ⟨p, s₂, hread, hpure⟩ := ok_of_bind hrest
      cases hpure
      exact sparesOutput_singleton fun o w => by simp
  | reset i =>
      rw [Op.run] at h
      obtain ⟨s₀, s₁, hget, hrest⟩ := ok_of_bind h
      cases hrest
      exact sparesOutput_singleton fun o w => by simp
  | getCount i =>
      rw [Op.run] at h
      obtain ⟨s₀, s₁, hget, hrest⟩ := ok_of_bind h
      cases hrest
      exact sparesOutput_singleton fun o w => by simp

/-- **One step** of a function: the values that it has written are those before it and its own. -/
theorem Delivered.step {op : Op 1 1} {visits xs : List Visit} {streams' : Streams} {s' : LuaState}
    (h : Delivered args (wrote visits) 0 visits streams s) (hsized : streams.Sized 1 1)
    (hstep : op.run streams s = .ok (xs, streams') s') (hshort : Short xs)
    (hfits : FitsArguments args (visits ++ xs)) (hcareful : Step.Careful ⟨op, xs⟩)
    (hfound : CallFound s.log) :
    streams'.Sized 1 1 ∧ Delivered args (wrote (visits ++ xs)) 0 (visits ++ xs) streams' s' := by
  by_cases hwrite : ∃ o w, op = .write o w
  · obtain ⟨o, w, rfl⟩ := hwrite
    obtain rfl : o = 0 := Subsingleton.elim _ _
    obtain ⟨stack, log, sh⟩ := s
    rw [Op.run] at hstep
    obtain ⟨s₀, s₁, hget, hrest⟩ := ok_of_bind hstep
    cases hget
    obtain ⟨output, s₂, houtput, hpure⟩ := ok_of_bind hrest
    rw [w.run_eq stack log sh] at houtput
    cases houtput
    cases hpure
    have hvals : wrote [⟨.wrote 0 w, sh⟩] = w.value.toList := by
      rw [wrote]
      exact (written_cons w []).trans (List.append_nil _)
    have hwritten := h.write hsized hfound w
    rw [← hvals, ← wrote_append] at hwritten
    exact ⟨hsized.setOutput _ _, hwritten⟩
  · have hspares := sparesOutput_of_op (fun o w heq => hwrite ⟨o, w, heq⟩) hcareful hstep
    have h₀ : Delivered args (wrote visits) 0 (visits ++ []) streams s := by rwa [List.append_nil]
    rw [wrote_append, wrote_eq_nil hspares, List.append_nil]
    exact (kept_delivered args (wrote visits) visits).op (Nat.le_refl 1) (Nat.le_refl 1) op hsized h₀
      hstep ⟨hshort, hfits, hspares⟩

/-- The function has its arguments on the stack, and nothing else. -/
theorem delivered_start (args : List Value) (sh : Shared) :
    Delivered args [] 0 [] (argumentStreams { start := 0, count := args.length } {})
      ⟨args.reverse, [], sh⟩ := by
  have hsized : (argumentStreams { start := 0, count := args.length } {}).Sized 1 1 := ⟨rfl, rfl⟩
  refine ⟨heights_start hsized ⟨args.reverse, [], sh⟩, ?_, rfl, throughout_nil⟩
  have hzero : min (position []) args.length = 0 := Nat.zero_min _
  rw [hzero]
  rfl

/-- **The invariant of all runs**, as long as every call finds `call` and is short, the reads fit
and no closure writes to the stream of the function. -/
theorem Ran.delivered (h : Ran args sh body steps rest streams s) (hshort : Short (learned steps))
    (hfits : FitsArguments args (learned steps)) (hcareful : ∀ step ∈ steps, step.Careful)
    (hfound : CallFound s.log) :
    streams.Sized 1 1 ∧ Delivered args (wrote (learned steps)) 0 (learned steps) streams s := by
  induction h with
  | enter => exact ⟨⟨rfl, rfl⟩, delivered_start args sh⟩
  | @perform steps op next streams streams' s s' visits _ hstep ih =>
      obtain ⟨new, hnew⟩ := prefix_of_op hstep
      have hbefore : CallFound s.log := (callFound_append.mp (hnew ▸ hfound)).1
      rw [learned_concat] at hshort hfits ⊢
      obtain ⟨hsized, hd⟩ := ih (short_append.mp hshort).1 hfits.left
        (fun step hmem => hcareful step (List.mem_append_left _ hmem)) hbefore
      exact hd.step hsized hstep (short_append.mp hshort).2 hfits
        (hcareful _ (List.mem_append_right _ (List.mem_singleton_self _))) hbefore

/-- What is still to come of a run is all that the function does from there on. -/
theorem Ran.run_eq (h : Ran args sh body steps rest streams s) {p : Captured} {s' : LuaState}
    (hrest : rest.run streams s = .ok p s') :
    ∃ visits, body.run (argumentStreams { start := 0, count := args.length } {})
      ⟨args.reverse, [], sh⟩ = .ok (visits, p.2) s' := by
  induction h generalizing p with
  | enter => exact ⟨p.1, hrest⟩
  | @perform steps op next streams₀ streams₁ s₀ s₁ xs _ hstep ih =>
      obtain ⟨ys, streams₂⟩ := p
      refine ih (p := (xs ++ ys, streams₂)) ?_
      rw [Native.run]
      exact (bind_ok hstep).trans (bind_ok hrest)

/-- **Arguments and results**, in every run in which no closure of a call writes a value to the
stream of the function: its reads, and those of the closures, have given the arguments in order,
and when the function comes to its end, Lua gets the values that were written. -/
theorem registered_delivers (h : Ran args sh body steps rest streams s)
    (hshort : Short (learned steps)) (hfits : FitsArguments args (learned steps))
    (hfound : CallFound s.log) (hcareful : ∀ step ∈ steps, step.Careful) :
    Faithful args (learned steps) ∧
      (rest = .done → enterNative (entry body.run) args sh = .ok (wrote (learned steps)) s.shared) := by
  obtain ⟨hsized, hd⟩ := h.delivered hshort hfits hcareful hfound
  refine ⟨hd.faithful, fun hdone => ?_⟩
  have hend : rest.run streams s = .ok ([], streams) s := by
    rw [hdone, Native.run]
    rfl
  obtain ⟨visits, hrun⟩ := h.run_eq hend
  obtain ⟨new, above, hlog, hstack, -, hiff⟩ := hd.heights.grown
  rw [List.nil_append] at hlog
  rw [pending_of_sized hsized] at hiff
  rw [List.length_eq_zero_iff.mp (hiff.mpr (hlog ▸ hfound)), List.nil_append] at hstack
  have hlen : ((wrote (learned steps)).length : ℤ).toNat = (wrote (learned steps)).reverse.length := by
    rw [List.length_reverse]
    rfl
  rw [enterNative, luaCall_ok hrun]
  dsimp only
  rw [hd.count_eq, hstack, if_pos, hlen, List.take_left, List.reverse_reverse]
  rw [List.length_append, List.length_reverse]
  omega

end Runs

/-- A call that fails with a Lua error. -/
def exampleCall : Op 1 1 :=
  .call (ascii "m") (ascii "f") .empty (fun _ sh => .error sh (.raised (.string (ascii "failed"))))
    .empty

/-- A function that writes, makes that call, reads, and writes again. -/
def exampleNative : Native 1 1 :=
  .perform (.write (Fin.last 0) (.int8 5)) fun _ => .perform exampleCall fun _ =>
    .perform (.read (Fin.last 0) .int32) fun _ =>
    .perform (.write (Fin.last 0) (.str (some (ascii "b")))) fun _ => .done

/-- What it learns. -/
def exampleSteps : List Step :=
  [⟨.write (Fin.last 0) (.int8 5), [⟨.wrote 0 (.int8 5), exampleShared⟩]⟩,
    ⟨exampleCall, [⟨.called false, exampleShared⟩]⟩,
    ⟨.read (Fin.last 0) .int32, [⟨.read 0 .int32 (some (.int32 42)), exampleShared⟩]⟩,
    ⟨.write (Fin.last 0) (.str (some (ascii "b"))),
      [⟨.wrote 0 (.str (some (ascii "b"))), exampleShared⟩]⟩]

/-- It gets its argument, and Lua the two values. -/
theorem registered_delivers_example :
    Faithful [.integer 42] (learned exampleSteps) ∧
    enterNative (entry exampleNative.run) [.integer 42] exampleShared
      = .ok [.integer 5, .string (ascii "b")] exampleShared := by
  have hwrite := Ran.perform (.enter : Ran [.integer 42] exampleShared exampleNative [] _ _ _) rfl
  have hcall := hwrite.perform rfl
  have hread := hcall.perform rfl
  have hdone : Ran [.integer 42] exampleShared exampleNative exampleSteps .done _ _ :=
    hread.perform rfl
  have hfits : FitsArguments [.integer 42] (learned exampleSteps) := by
    intro before x hx r val v hread hv
    have hmem : x ∈ learned exampleSteps := hx.mem (by simp)
    simp only [exampleSteps, learned, List.flatMap_cons, List.flatMap_nil, List.append_nil,
      List.cons_append, List.nil_append, List.mem_cons, List.not_mem_nil, or_false] at hmem
    rcases hmem with rfl | rfl | rfl | rfl <;> cases hread
    trivial
  have hcareful : ∀ step ∈ exampleSteps, step.Careful := by
    simp [exampleSteps, Step.Careful, SparesOutput, exampleCall]
  obtain ⟨hfaithful, hresults⟩ := registered_delivers hdone (short_of_all (by decide)) hfits
    (by decide +kernel) hcareful
  exact ⟨hfaithful, hresults rfl⟩

/-- A callback that writes a value to the stream of the function around it. -/
def exampleWriter : Native 1 1 :=
  .perform (.call (ascii "m") (ascii "f") .empty (fun _ sh => .ret sh [])
    (.of fun _ => .perform (.write (Fin.last 0) (.int8 5)) fun _ => .done)) fun _ => .done

/-- With such a callback, Lua gets the message handler in place of the value. -/
theorem not_registered_delivers : ¬∀ (args : List Value) (sh : Shared) (body rest : Native 1 1)
    (steps : List Step) (streams : Streams) (s : LuaState), Ran args sh body steps rest streams s →
    Short (learned steps) → FitsArguments args (learned steps) → CallFound s.log →
    Faithful args (learned steps) ∧
      (rest = .done → enterNative (entry body.run) args sh = .ok (wrote (learned steps)) s.shared) := by
  intro h
  have hdone := Ran.perform (.enter : Ran [] exampleShared exampleWriter [] _ _ _) rfl
  have hresults := (h [] exampleShared exampleWriter _ _ _ _ hdone (short_of_all (by decide))
    (fun before x hx r val v _ hv => by cases hv) (by decide +kernel)).2 rfl
  have hgets : enterNative (entry exampleWriter.run) [] exampleShared
      = .ok [.function 2] exampleShared := rfl
  rw [hgets] at hresults
  cases hresults

end SeedCore.Lua
