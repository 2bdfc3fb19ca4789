import SeedCore.Lib.Run
import SeedCore.Lua.Register

/-!
# Registered functions and coroutines

Every thread of Lua has a stack and calls of its own.  A thread that has resumed a coroutine waits
in the call of `coroutine.resume`, or of a function that `coroutine.wrap` has made.  `LuaCall` is
given the thread that called it, but works on `s_luaState`, the main thread; so when that waits
for a coroutine, it finds neither the closure nor the arguments of the call.

## Main definitions

* `Machine`, `step` — the threads of a state, and what they do.
* `Machine.luaCall` — `LuaCall`, and `Machine.enterRegistered`, a call of it from Lua.
* `Waits` — what holds of each thread that waits.
* `Machine.Serves` — a call gets its own function, arguments and results.
* `luaCall_serves_iff` — it does on the main thread only.
-/

namespace SeedCore.Lua

/-! ## Threads -/

/-- What is called. -/
inductive Callee
  /-- The host, at the bottom of the main thread. -/
  | host
  /-- A Lua function. -/
  | script
  /-- A closure of `LuaCall`, with its upvalue. -/
  | registered (upvalue : Value)
  /-- `coroutine.resume` -/
  | resume
  /-- A function that `coroutine.wrap` has made, with its upvalue. -/
  | wrap (co : Value)
  /-- Another C function, with its upvalues. -/
  | library (upvalues : List Value)
  deriving DecidableEq, Repr

/-- What a C function finds at its upvalue indices. -/
def Callee.upvalues : Callee → List Value
  | host | script | resume => []
  | registered v | wrap v => [v]
  | library vs => vs

/-- A call, with the stack that the function sees. -/
structure Frame where
  callee : Callee
  stack : List Value
  deriving DecidableEq, Repr

/-- A thread: the call that it is in, and the calls under it. -/
structure Thread where
  id : ℕ
  frame : Frame
  callers : List Frame := []
  deriving DecidableEq, Repr

namespace Thread

/-- A call of a function. -/
def enter (t : Thread) (frame : Frame) : Thread :=
  { t with frame := frame, callers := t.frame :: t.callers }

/-- A return, unless nothing is left on the thread. -/
def leave (t : Thread) (results : List Value) : Option Thread :=
  match t.callers with
  | [] => none
  | caller :: callers => some { t with
      frame := { caller with stack := results.reverse ++ caller.stack }
      callers := callers }

end Thread

/-- The threads of a state.  The coroutines that were resumed come with the latest first; each was
resumed by the next one, and the last one by the main thread, which is `s_luaState`. -/
structure Machine where
  coroutines : List Thread := []
  main : Thread
  suspended : List Thread := []
  made : ℕ := 0
  shared : Shared := {}

/-- What the code that runs may do. -/
inductive Action
  /-- The function that runs works on its stack and on what is shared. -/
  | work (stack : List Value) (shared : Shared)
  | call (callee : Callee) (args : List Value)
  /-- A return from a call, also by an error. -/
  | ret (results : List Value)
  /-- `coroutine.create`, also in `coroutine.wrap`. -/
  | create (func : Callee)
  /-- A coroutine is resumed, by `coroutine.resume` or a function from `coroutine.wrap`. -/
  | resume (wrapped : Bool) (id : ℕ) (args : List Value)
  /-- `coroutine.yield` -/
  | yield (values : List Value)
  /-- The end of a coroutine, also by an error. -/
  | finish (values : List Value)

namespace Machine

variable (m : Machine)

/-- All threads that are in a call, the running one first. -/
def threads : List Thread := m.coroutines ++ [m.main]

/-- The thread that runs. -/
def running : Thread := m.coroutines.headD m.main

def setRunning (t : Thread) : Machine :=
  match m.coroutines with
  | [] => { m with main := t }
  | _ :: coroutines => { m with coroutines := t :: coroutines }

/-- The state before anything is called. -/
def initial (shared : Shared) : Machine := { main := ⟨0, ⟨.host, []⟩, []⟩, shared }

/-- The thread on top gives way to the one that resumed it, which gets these values. -/
def giveWay (values : List Value) : Option Machine :=
  match m.coroutines with
  | [] => none
  | _ :: coroutines => do
      let m := { m with coroutines }
      let t ← m.running.leave values
      some (m.setRunning t)

end Machine

/-- The call in which a thread waits for a coroutine. -/
def resumeCallee (wrapped : Bool) (id : ℕ) : Callee := if wrapped then .wrap (.thread id) else .resume

/-- One step of the code that runs. -/
def step (m : Machine) : Action → Option Machine
  | .work stack shared =>
      let t := m.running
      some { m.setRunning { t with frame := { t.frame with stack := stack } } with shared }
  | .call callee args => some (m.setRunning (m.running.enter ⟨callee, args.reverse⟩))
  | .ret results => do
      let t ← m.running.leave results
      some (m.setRunning t)
  | .create func => some { m with
      suspended := ⟨m.made + 1, ⟨func, []⟩, []⟩ :: m.suspended
      made := m.made + 1 }
  | .resume wrapped id args => do
      let co ← m.suspended.find? (·.id = id)
      let m := m.setRunning (m.running.enter ⟨resumeCallee wrapped id, args.reverse⟩)
      let frame := { co.frame with stack := args.reverse ++ co.frame.stack }
      some { m with
        coroutines := { co with frame := frame } :: m.coroutines
        suspended := m.suspended.filter (·.id ≠ id) }
  | .yield values =>
      ({ m with suspended := m.coroutines.take 1 ++ m.suspended } : Machine).giveWay values
  | .finish values => m.giveWay values

/-! ## The source -/

/-- `lua_touserdata` at `lua_upvalueindex(i)` -/
def Thread.upvalueUserdata (t : Thread) (i : ℕ) : UInt64 :=
  ((t.frame.callee.upvalues[i - 1]?).map Value.address).getD 0

namespace Machine

variable (host : Host IDataInterchangeFuncType) (m : Machine)

/-- `LuaCall`; at an address where there is no `std::function` its behaviour is undefined. -/
def luaCall : EStateM.Result Fault Machine ℤ :=
  match host.object (m.main.upvalueUserdata 1) with
  | none => .error .nullPointer m
  | some func =>
      let frame := m.main.frame
      let left (s : LuaState) : Machine :=
        { m with main := { m.main with frame := { frame with stack := s.stack } }, shared := s.shared }
      match SeedCore.Lua.luaCall func { stack := frame.stack, shared := m.shared } with
      | .ok count s => .ok count (left s)
      | .error fault s => .error fault (left s)

/-- A call of `LuaCall` from Lua, which takes the results from the stack of the thread that
called. -/
def enterRegistered : EStateM.Result Fault Shared (List Value) :=
  match m.luaCall host with
  | .ok count m =>
      let stack := m.running.frame.stack
      if 0 ≤ count ∧ count ≤ stack.length then .ok (stack.take count.toNat).reverse m.shared
      else .error .outOfBounds m.shared
  | .error fault m => .error fault m.shared

/-- The thread that runs has just called a registered function. -/
structure Entered (m : Machine) (p : UInt64) (args : List Value) : Prop where
  frame_eq : m.running.frame = ⟨.registered (.userdata p), args.reverse⟩
  ne_null : p ≠ 0

/-- The call serves the thread that made it: the function in the userdata of its closure is
called, it reads the arguments of the call, and its results go to the caller. -/
def Serves (m : Machine) (p : UInt64) (args : List Value) : Prop :=
  ∀ (host : Host IDataInterchangeFuncType) (func : IDataInterchangeFuncType),
    host.object p = some func → m.enterRegistered host = enterNative func args m.shared

end Machine

/-! ## Threads that wait -/

/-- The thread is in a call of `coroutine.resume` or of a function from `coroutine.wrap`. -/
def Waits (t : Thread) : Prop := ∃ wrapped id, t.frame.callee = resumeCallee wrapped id

/-- Its function has no userdata for an upvalue. -/
theorem Waits.upvalueUserdata {t : Thread} (h : Waits t) : t.upvalueUserdata 1 = 0 := by
  obtain ⟨wrapped, id, hcallee⟩ := h
  rw [Thread.upvalueUserdata, hcallee]
  cases wrapped <;> rfl

/-- All threads wait but the running one. -/
def OthersWait (m : Machine) : Prop := ∀ t ∈ m.threads.tail, Waits t

section Steps

variable {m m' : Machine}

theorem threads_setRunning (m : Machine) (t : Thread) :
    (m.setRunning t).threads = t :: m.threads.tail := by
  unfold Machine.setRunning Machine.threads
  cases m.coroutines <;> rfl

theorem OthersWait.setRunning (h : OthersWait m) (t : Thread) : OthersWait (m.setRunning t) := by
  intro other hother
  rw [threads_setRunning] at hother
  exact h other hother

/-- When the thread on top gives way, the next one does not wait any more. -/
theorem OthersWait.giveWay (h : OthersWait m) {values : List Value}
    (hstep : m.giveWay values = some m') : OthersWait m' := by
  unfold Machine.giveWay at hstep
  cases hco : m.coroutines with
  | nil =>
      rw [hco] at hstep
      cases hstep
  | cons co coroutines =>
      rw [hco] at hstep
      obtain ⟨t, -, ht⟩ := Option.bind_eq_some_iff.mp hstep
      cases ht
      have hrest : OthersWait { m with coroutines } := by
        intro other hother
        refine h other ?_
        rw [Machine.threads, hco, List.cons_append, List.tail_cons]
        exact List.mem_of_mem_tail hother
      exact hrest.setRunning t

/-- **One step**: only the running thread does not wait. -/
theorem OthersWait.step (h : OthersWait m) {a : Action} (hstep : step m a = some m') :
    OthersWait m' := by
  cases a with
  | work stack shared =>
      cases hstep
      exact h.setRunning _
  | call callee args =>
      cases hstep
      exact h.setRunning _
  | ret results =>
      obtain ⟨t, -, ht⟩ := Option.bind_eq_some_iff.mp hstep
      cases ht
      exact h.setRunning t
  | create func =>
      cases hstep
      exact h
  | resume wrapped id args =>
      obtain ⟨co, -, hco⟩ := Option.bind_eq_some_iff.mp hstep
      cases hco
      intro other hother
      rw [Machine.threads, List.cons_append, List.tail_cons] at hother
      change other ∈ (m.setRunning _).threads at hother
      rw [threads_setRunning] at hother
      cases hother with
      | head => exact ⟨wrapped, id, rfl⟩
      | tail _ hmem => exact h other hmem
  | yield values =>
      have hsame : OthersWait { m with suspended := m.coroutines.take 1 ++ m.suspended } := h
      exact hsame.giveWay hstep
  | finish values => exact h.giveWay hstep

/-- **Every run**: only the running thread does not wait. -/
theorem othersWait_of_run {shared : Shared} {acts : List Action}
    (h : Run step (.initial shared) acts m) : OthersWait m := by
  have hinitial : OthersWait (.initial shared) := by
    intro t ht
    cases ht
  exact h.invariant (Q := fun _ => True) (fun _ _ _ _ hstep hs => OthersWait.step hs hstep)
    (fun _ _ => trivial) hinitial

/-- While a coroutine runs, the main thread waits. -/
theorem OthersWait.main (h : OthersWait m) (hco : m.coroutines ≠ []) : Waits m.main := by
  refine h m.main ?_
  rw [Machine.threads, List.tail_append_of_ne_nil hco]
  exact List.mem_append_right _ (List.mem_singleton.mpr rfl)

end Steps

/-! ## Calls of registered functions -/

section Calls

variable {m : Machine} {p : UInt64} {args : List Value}

/-- The address in the upvalue is that of the closure that was called, when this is on the main
thread. -/
theorem Machine.Entered.main_frame (h : m.Entered p args) (hco : m.coroutines = []) :
    m.main.frame = ⟨.registered (.userdata p), args.reverse⟩ := by
  have hframe := h.frame_eq
  rwa [Machine.running, hco, List.headD_nil] at hframe

/-- **On the main thread** a call is served. -/
theorem Machine.Entered.serves (h : m.Entered p args) (hco : m.coroutines = []) :
    m.Serves p args := by
  intro host func hobject
  have hframe := h.main_frame hco
  have hupvalue : m.main.upvalueUserdata 1 = p := by
    rw [Thread.upvalueUserdata, hframe]
    rfl
  rw [Machine.enterRegistered, Machine.luaCall, hupvalue, hobject, enterNative, hframe]
  dsimp only
  cases SeedCore.Lua.luaCall func { stack := args.reverse, shared := m.shared } with
  | ok count s =>
      simp only [Machine.running, hco, List.headD_nil]
  | error fault s => rfl

/-- **In a coroutine** a call uses a null pointer. -/
theorem OthersWait.enterRegistered (h : OthersWait m) (hco : m.coroutines ≠ [])
    (host : Host IDataInterchangeFuncType) :
    m.enterRegistered host = .error .nullPointer m.shared := by
  have hobject : host.object 0 = none := if_pos rfl
  rw [Machine.enterRegistered, Machine.luaCall, (h.main hco).upvalueUserdata, hobject]

/-- There may be a function at every address but `0`. -/
theorem exists_object (hp : p ≠ 0) (func : IDataInterchangeFuncType) :
    ∃ host : Host IDataInterchangeFuncType, host.object p = some func := by
  refine ⟨{ lua := ⟨[], [], {}⟩, heap := List.replicate p.toNat func }, ?_⟩
  have hpos : p.toNat ≠ 0 := by
    intro hzero
    exact hp (UInt64.toNat_inj.mp hzero)
  rw [Host.object, if_neg hp, List.getElem?_replicate, if_pos (by omega)]

/-- **Whom a registered function serves.**  In every run, whatever coroutines there are and
however they were resumed, a call of a registered function is served if and only if it was made on
the main thread. -/
theorem luaCall_serves_iff {shared : Shared} {acts : List Action}
    (h : Run step (.initial shared) acts m) (hentered : m.Entered p args) :
    m.Serves p args ↔ m.coroutines = [] := by
  constructor
  · intro hserves
    by_contra hco
    obtain ⟨host, hobject⟩ := exists_object hentered.ne_null fun _ output => pure output
    have hresult := hserves host _ hobject
    rw [(othersWait_of_run h).enterRegistered hco host] at hresult
    cases hresult
  · exact hentered.serves

end Calls

/-- A script calls a registered function on the main thread. -/
theorem luaCall_serves_iff_main : ∃ m, Run step (.initial {})
    [.call .script [], .call (.registered (.userdata 1)) [.integer 5]] m ∧
      m.Serves 1 [.integer 5] := by
  obtain ⟨m, hrun⟩ : ∃ m, Run step (.initial {})
      [.call .script [], .call (.registered (.userdata 1)) [.integer 5]] m :=
    ⟨_, run_iff_foldlM.mpr rfl⟩
  have hm := run_iff_foldlM.mp hrun
  cases hm
  exact ⟨_, hrun, (luaCall_serves_iff hrun ⟨rfl, by decide⟩).mpr rfl⟩

/-- A script makes a coroutine and resumes it, and there calls a registered function. -/
theorem luaCall_coroutine : ∃ m, Run step (.initial {})
    [.call .script [], .create .script, .resume true 1 [],
      .call (.registered (.userdata 1)) [.integer 5]] m ∧
      m.Entered 1 [.integer 5] ∧ ¬m.Serves 1 [.integer 5] ∧
      ∀ host, m.enterRegistered host = .error .nullPointer m.shared := by
  refine ⟨_, run_iff_foldlM.mpr rfl, ⟨rfl, by decide⟩, ?_, fun host => rfl⟩
  intro hserves
  have hresult := hserves { lua := ⟨[], [], {}⟩, heap := [fun _ output => pure output] } _ rfl
  cases hresult

end SeedCore.Lua
