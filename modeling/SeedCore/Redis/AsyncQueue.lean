import Mathlib.Data.List.Induction
import SeedCore.Redis.Exec

/-!
# The queue between the main thread and the workers

`addAsyncTask` on the main thread and `OnExecRedisTask` on the workers, in any
interleaving of their steps.  The main thread puts a command on the list of a
connection and decides by the flag `_postTask` whether a handler has to be posted; a
worker that runs the handler cuts the list, executes it in batches and resets the
flag.

`insertHead` and `cutList` are one step each, `cutList` takes the whole list, and
`StartAsync` runs every posted handler once.

The condition of the post is `connection._postTask = false`, an assignment.

## Main definitions

* `AsyncState`, `AsyncState.step` — the system.
* `NotStranded` — a command on a list has a handler on its way to it.
* `notStranded_iff` — the runs in which this is always so.
-/

namespace SeedCore.Redis

/-- `REDIS_ASYNC_BATCH_CMD_COUNT` -/
def redisAsyncBatchCmdCount : ℕ := 16

/-- Where the main thread is in `addAsyncTask`; the connection is given by its index. -/
inductive MainPc
  /-- Not in a call. -/
  | idle
  /-- Before `insertHead`. -/
  | insert (i : ℕ) (cmdBuilder : RedisCmdBuilder)
  /-- Before the handler is created if there is none. -/
  | handler (i : ℕ)
  /-- Before the condition on `_postTask`. -/
  | check (i : ℕ)
  /-- Before `StartAsync`. -/
  | post (i : ℕ)
  /-- Before `_postTask = true`. -/
  | mark (i : ℕ)
  /-- Before the return. -/
  | leave (i : ℕ)
  deriving DecidableEq, Repr

/-- The connection that a call in progress is about. -/
def MainPc.connection : MainPc → Option ℕ
  | .idle => none
  | .insert i _ | .handler i | .check i | .post i | .mark i | .leave i => some i

/-- A run of `OnExecRedisTask`. -/
inductive TaskRun
  /-- Handed to `StartAsync`, before `cutList`. -/
  | queued (i : ℕ)
  /-- In the loop: the nodes from `head` on, and the builders of the next batch. -/
  | batching (i : ℕ) (head vecRedisBuilder : List RedisCmdBuilder)
  deriving DecidableEq, Repr

/-- The manager, the main thread and the handler runs that have not ended. -/
structure AsyncState where
  mgr : RedisMgr
  main : MainPc := .idle
  runs : List TaskRun := []

/-- A step of one of the threads. -/
inductive AsyncAction
  /-- The main thread calls `addAsyncTask(taskId, cmdBuilder)`. -/
  | call (taskId : ℤ) (cmdBuilder : RedisCmdBuilder)
  /-- The main thread takes its next step in the call. -/
  | main
  /-- The run number `k` takes its next step. -/
  | worker (k : ℕ)

/-- Change connection `i`. -/
def RedisMgr.modify (m : RedisMgr) (i : ℕ) (f : RedisConnection → RedisConnection) :
    Option RedisMgr :=
  m.vecRedisContext[i]?.map fun conn => { m with vecRedisContext := m.vecRedisContext.set i (f conn) }

/-- The expression `connection._postTask = val`: the connection after it, and its value. -/
def RedisConnection.assignPostTask (conn : RedisConnection) (val : Bool) : RedisConnection × Bool :=
  ({ conn with postTask := val }, val)

namespace AsyncState

/-- The next step of `addAsyncTask`. -/
def mainStep (s : AsyncState) : Option AsyncState :=
  match s.main with
  | .idle => none
  | .insert i cmdBuilder => do
      let mgr ← s.mgr.modify i fun conn =>
        { conn with threadCmdList := cmdBuilder :: conn.threadCmdList }
      some { s with mgr := mgr, main := .handler i }
  | .handler i => do
      let mgr ← s.mgr.modify i fun conn =>
        { conn with redisTaskHandler := some (conn.redisTaskHandler.getD ⟨i⟩) }
      some { s with mgr := mgr, main := .check i }
  | .check i => do
      let conn ← s.mgr.vecRedisContext[i]?
      let mgr ← s.mgr.modify i fun conn => (conn.assignPostTask false).1
      -- the branch is on the value of the assignment
      some { s with mgr := mgr, main := if (conn.assignPostTask false).2 then .post i else .leave i }
  | .post i => do
      let conn ← s.mgr.vecRedisContext[i]?
      let handler ← conn.redisTaskHandler
      some { s with runs := s.runs ++ [.queued handler.redisConnection], main := .mark i }
  | .mark i => do
      let mgr ← s.mgr.modify i fun conn => (conn.assignPostTask true).1
      some { s with mgr := mgr, main := .leave i }
  | .leave _ => some { s with main := .idle }

/-- The next step of the run number `k` of `OnExecRedisTask`. -/
def workerStep (s : AsyncState) (k : ℕ) : Option AsyncState :=
  match s.runs[k]? with
  | none => none
  | some (.queued i) => do
      let conn ← s.mgr.vecRedisContext[i]?
      let mgr ← s.mgr.modify i fun conn => { conn with threadCmdList := [] }
      some { s with mgr := mgr, runs := s.runs.set k (.batching i conn.threadCmdList []) }
  | some (.batching i [] _) => do
      let mgr ← s.mgr.modify i fun conn => (conn.assignPostTask false).1
      some { s with mgr := mgr, runs := s.runs.eraseIdx k }
  | some (.batching i (tmp :: head) vecRedisBuilder) =>
      let vecRedisBuilder := vecRedisBuilder ++ [tmp]
      if vecRedisBuilder.length = redisAsyncBatchCmdCount ∨ head = [] then do
        let conn ← s.mgr.vecRedisContext[i]?
        let r ← (batchExecCmd s.mgr conn.threadIdx vecRedisBuilder [] true).toOption
        some { s with mgr := r.mgr, runs := s.runs.set k (.batching i head []) }
      else some { s with runs := s.runs.set k (.batching i head vecRedisBuilder) }

/-- One step of the system. -/
def step (s : AsyncState) : AsyncAction → Option AsyncState
  | .call taskId cmdBuilder =>
      if s.main = .idle then do
        let i ← (s.mgr.getRedisConnectionInAsync taskId).toOption
        some { s with main := .insert i cmdBuilder }
      else none
  | .main => s.mainStep
  | .worker k => s.workerStep k

end AsyncState

/-- The commands on the list of connection `i`. -/
def RedisMgr.listAt (m : RedisMgr) (i : ℕ) : List RedisCmdBuilder :=
  (m.vecRedisContext[i]?.map RedisConnection.threadCmdList).getD []

/-- No command is stranded: when a list is not empty and no call on its connection is
in progress, a handler run for the connection was posted that has not cut the list. -/
def NotStranded (s : AsyncState) : Prop :=
  ∀ i, s.mgr.listAt i ≠ [] → s.main.connection ≠ some i → .queued i ∈ s.runs

/-- In particular, when nothing is in progress, queued or running, every list is empty. -/
theorem NotStranded.quiescent {s : AsyncState} (h : NotStranded s) (hmain : s.main = .idle)
    (hruns : s.runs = []) (i : ℕ) : s.mgr.listAt i = [] := by
  by_contra hne
  have := h i hne (by simp [hmain, MainPc.connection])
  simp [hruns] at this

/-! ## What a step can do -/

theorem RedisMgr.listAt_modify {m m' : RedisMgr} {i : ℕ} {f : RedisConnection → RedisConnection}
    (h : m.modify i f = some m') : ∃ conn, m.vecRedisContext[i]? = some conn ∧
      ∀ j, m'.listAt j = if j = i then (f conn).threadCmdList else m.listAt j := by
  obtain ⟨conn, hconn, rfl⟩ := Option.map_eq_some_iff.mp h
  refine ⟨conn, hconn, ?_⟩
  intro j
  have hlt : i < m.vecRedisContext.length := (List.getElem?_eq_some_iff.mp hconn).1
  by_cases hj : j = i
  · subst hj
    simp [RedisMgr.listAt, hlt]
  · simp [RedisMgr.listAt, List.getElem?_set_ne (Ne.symm hj), hj]

/-- A change that leaves the list alone. -/
theorem RedisMgr.listAt_modify_of_eq {m m' : RedisMgr} {i : ℕ} {f : RedisConnection → RedisConnection}
    (h : m.modify i f = some m') (hf : ∀ conn, (f conn).threadCmdList = conn.threadCmdList)
    (j : ℕ) : m'.listAt j = m.listAt j := by
  obtain ⟨conn, hconn, hlist⟩ := RedisMgr.listAt_modify h
  rw [hlist, hf]
  split
  · next hj =>
      subst hj
      simp [RedisMgr.listAt, hconn]
  · rfl

/-- Nothing was ever posted, and a call that is past `insertHead` has left its command
on the list. -/
structure Unposted (s : AsyncState) : Prop where
  runs_eq : s.runs = []
  not_post : ∀ i, s.main ≠ .post i
  not_mark : ∀ i, s.main ≠ .mark i
  inserted : ∀ i, s.main = .handler i ∨ s.main = .check i ∨ s.main = .leave i →
    s.mgr.listAt i ≠ []

/-- **What a step can do** while nothing was posted: the main thread goes through a call,
and the assignment sends it past the post. -/
theorem Unposted.step_cases {s t : AsyncState} {a : AsyncAction} (U : Unposted s)
    (h : s.step a = some t) :
    (∃ taskId b i, a = .call taskId b ∧ s.main = .idle ∧ t = { s with main := .insert i b }) ∨
    (∃ i b, a = .main ∧ s.main = .insert i b ∧ t.main = .handler i ∧ t.runs = s.runs ∧
      ∀ j, t.mgr.listAt j = if j = i then b :: s.mgr.listAt i else s.mgr.listAt j) ∨
    (∃ i, a = .main ∧ (s.main = .handler i ∧ t.main = .check i ∨
        s.main = .check i ∧ t.main = .leave i) ∧ t.runs = s.runs ∧
      ∀ j, t.mgr.listAt j = s.mgr.listAt j) ∨
    (∃ i, a = .main ∧ s.main = .leave i ∧ t = { s with main := .idle }) := by
  cases a with
  | call taskId b =>
      simp only [AsyncState.step, Option.bind_eq_bind, Option.ite_none_right_eq_some,
        Option.bind_eq_some_iff, Option.some.injEq] at h
      obtain ⟨hidle, i, -, rfl⟩ := h
      exact .inl ⟨taskId, b, i, rfl, hidle, rfl⟩
  | worker k =>
      rw [AsyncState.step, AsyncState.workerStep, U.runs_eq] at h
      cases h
  | main =>
      refine .inr ?_
      rw [AsyncState.step, AsyncState.mainStep] at h
      cases hmain : s.main with
      | idle =>
          rw [hmain] at h
          cases h
      | insert i b =>
          rw [hmain] at h
          obtain ⟨mgr, hmgr, h⟩ := Option.bind_eq_some_iff.mp h
          cases h
          obtain ⟨conn, hconn, hlist⟩ := RedisMgr.listAt_modify hmgr
          refine .inl ⟨i, b, rfl, rfl, rfl, rfl, ?_⟩
          intro j
          rw [hlist]
          simp [RedisMgr.listAt, hconn]
      | handler i =>
          rw [hmain] at h
          obtain ⟨mgr, hmgr, h⟩ := Option.bind_eq_some_iff.mp h
          cases h
          exact .inr (.inl ⟨i, rfl, .inl ⟨rfl, rfl⟩, rfl,
            RedisMgr.listAt_modify_of_eq hmgr fun _ => rfl⟩)
      | check i =>
          rw [hmain] at h
          obtain ⟨conn, -, h⟩ := Option.bind_eq_some_iff.mp h
          obtain ⟨mgr, hmgr, h⟩ := Option.bind_eq_some_iff.mp h
          cases h
          exact .inr (.inl ⟨i, rfl, .inr ⟨rfl, rfl⟩, rfl,
            RedisMgr.listAt_modify_of_eq hmgr fun _ => rfl⟩)
      | post i => exact absurd hmain (U.not_post i)
      | mark i => exact absurd hmain (U.not_mark i)
      | leave i =>
          rw [hmain] at h
          cases h
          exact .inr (.inr ⟨i, rfl, rfl, rfl⟩)

/-- **Nothing is ever posted.** -/
theorem Unposted.step {s t : AsyncState} {a : AsyncAction} (U : Unposted s)
    (h : s.step a = some t) : Unposted t := by
  obtain ⟨taskId, b, i, -, hmain, rfl⟩ | ⟨i, b, -, hmain, htmain, hruns, hlist⟩ |
    ⟨i, -, hmain, hruns, hlist⟩ | ⟨i, -, hmain, rfl⟩ := U.step_cases h
  · exact ⟨U.runs_eq, by simp, by simp, by simp⟩
  · refine ⟨hruns.trans U.runs_eq, by simp [htmain], by simp [htmain], ?_⟩
    intro j hj
    obtain rfl : i = j := by simpa [htmain] using hj
    simp [hlist]
  · refine ⟨hruns.trans U.runs_eq, ?_, ?_, ?_⟩
    · rcases hmain with ⟨-, ht⟩ | ⟨-, ht⟩ <;> simp [ht]
    · rcases hmain with ⟨-, ht⟩ | ⟨-, ht⟩ <;> simp [ht]
    · intro j hj
      rw [hlist]
      apply U.inserted j
      rcases hmain with ⟨hs, ht⟩ | ⟨hs, ht⟩
      · obtain rfl : i = j := by simpa [ht] using hj
        exact .inl hs
      · obtain rfl : i = j := by simpa [ht] using hj
        exact .inr (.inl hs)
  · exact ⟨U.runs_eq, by simp, by simp, by simp⟩

/-! ## Every run -/

/-- The step with which a call of `addAsyncTask` returns. -/
def Completes (s : AsyncState) (a : AsyncAction) : Prop := a = .main ∧ ∃ i, s.main = .leave i

/-- Only the connection of the call in progress has commands on its list. -/
def Pending (s : AsyncState) : Prop := ∀ i, s.mgr.listAt i ≠ [] → s.main.connection = some i

/-- Until a call returns, it stays that way. -/
theorem Pending.step {s t : AsyncState} {a : AsyncAction} (hp : Pending s) (U : Unposted s)
    (h : s.step a = some t) (hc : ¬ Completes s a) : Pending t := by
  obtain ⟨taskId, b, i, -, hmain, rfl⟩ | ⟨i, b, -, hmain, htmain, -, hlist⟩ |
    ⟨i, -, hmain, -, hlist⟩ | ⟨i, ha, hmain, -⟩ := U.step_cases h
  · intro j hj
    have := hp j hj
    simp [hmain, MainPc.connection] at this
  · intro j hj
    rw [htmain]
    by_cases hji : j = i
    · rw [hji]
      rfl
    · rw [hlist, if_neg hji] at hj
      have := hp j hj
      rwa [hmain] at this
  · intro j hj
    rw [hlist] at hj
    have := hp j hj
    rcases hmain with ⟨hs, ht⟩ | ⟨hs, ht⟩
    · rw [hs] at this
      rwa [ht]
    · rw [hs] at this
      rwa [ht]
  · exact absurd ⟨ha, i, hmain⟩ hc

/-- The system after `Initialize`. -/
def asyncInit (m : RedisMgr) : AsyncState := { mgr := m }

theorem Pool.listAt_eq {m : RedisMgr} (P : Pool m) (i : ℕ) : m.listAt i = [] := by
  unfold RedisMgr.listAt
  cases hconn : m.vecRedisContext[i]? with
  | none => rfl
  | some conn =>
      obtain ⟨ctx, rfl⟩ := P.unused conn (List.mem_of_getElem? hconn)
      rfl

theorem unposted_of_run {m : RedisMgr} {as : List AsyncAction} {s : AsyncState}
    (h : Run AsyncState.step (asyncInit m) as s) : Unposted s :=
  h.invariant (Q := fun _ => True) (fun _ _ _ _ hstep U => U.step hstep) (fun _ _ => trivial)
    ⟨rfl, by simp [asyncInit], by simp [asyncInit], by simp [asyncInit]⟩

/-- In a run in which no call returns, commands are pending at most where the call in
progress put them. -/
theorem pending_of_run {m : RedisMgr} (P : Pool m) {as : List AsyncAction}
    (hc : ∀ past a t, past ++ [a] <+: as → Run AsyncState.step (asyncInit m) past t →
      ¬ Completes t a) {s : AsyncState} (h : Run AsyncState.step (asyncInit m) as s) :
    Pending s := by
  induction as using List.reverseRecOn generalizing s with
  | nil =>
      cases h
      exact fun i hi => absurd (P.listAt_eq i) hi
  | append_singleton as a ih =>
      obtain ⟨t, hpast, hlast⟩ := run_append.mp h
      obtain _ | ⟨hstep, _ | _⟩ := hlast
      have hp := ih (fun past b u hpre hrun =>
        hc past b u (hpre.trans (List.prefix_append _ _)) hrun) hpast
      exact hp.step (unposted_of_run hpast) hstep (hc as a t List.prefix_rfl hpast)

/-- **When no command is stranded.**  Along every schedule of calls and workers, in any
interleaving of their steps, no state that is reached has a stranded command exactly
when no call of `addAsyncTask` returns: nothing is ever posted. -/
theorem notStranded_iff {redisObj : Option RedisElement} {w : World} {m : RedisMgr}
    (hinit : redisMgrInitialize redisObj w = .ok (true, m)) (as : List AsyncAction) :
    (∀ past t, past <+: as → Run AsyncState.step (asyncInit m) past t → NotStranded t) ↔
      ∀ past a t, past ++ [a] <+: as → Run AsyncState.step (asyncInit m) past t →
        ¬ Completes t a := by
  constructor
  · rintro hall past a t hpre hpast ⟨rfl, i, hmain⟩
    have U := unposted_of_run hpast
    have hstep : t.step .main = some { t with main := .idle } := by
      rw [AsyncState.step, AsyncState.mainStep, hmain]
    have hlast := run_append.mpr ⟨t, hpast, .cons hstep (.nil _)⟩
    have hqueued := hall _ _ hpre hlast i (U.inserted i (.inr (.inr hmain)))
      (by simp [MainPc.connection])
    have hruns : t.runs = [] := U.runs_eq
    simp [hruns] at hqueued
  · intro hc past t hpre hpast i hi hne
    refine absurd (pending_of_run (pool_of_redisMgrInitialize hinit) ?_ hpast i hi) hne
    exact fun past' a u hpre' hrun' => hc past' a u (hpre'.trans hpre) hrun'

/-- While the first call is in progress, its command is on the list and not stranded. -/
theorem notStranded_first_call :
    ∃ m s, redisMgrInitialize (some (exampleElement 1)) { connects := [connectOk 0, connectOk 1] }
        = .ok (true, m) ∧
      Run AsyncState.step (asyncInit m) [.call 0 (runOps pingOps), .main] s ∧
      s.mgr.listAt 1 = [runOps pingOps] ∧
      ∀ past t, past <+: [.call 0 (runOps pingOps), .main] →
        Run AsyncState.step (asyncInit m) past t → NotStranded t := by
  obtain ⟨⟨ok, m⟩, h, hobs⟩ := exists_ok_of_map
    (x := redisMgrInitialize (some (exampleElement 1)) { connects := [connectOk 0, connectOk 1] })
    (f := fun r => (r.1, (List.foldlM AsyncState.step (asyncInit r.2)
      [.call 0 (runOps pingOps), .main]).map fun s => s.mgr.listAt 1))
    (b := (true, some [runOps pingOps])) (by decide)
  obtain ⟨rfl, hrun⟩ := Prod.mk.inj hobs
  obtain ⟨s, hrun, hlist⟩ := Option.map_eq_some_iff.mp hrun
  refine ⟨m, s, h, run_iff_foldlM.mpr hrun, hlist, (notStranded_iff h _).mpr ?_⟩
  rintro past a t hpre hpast ⟨rfl, i, hmain⟩
  -- the only step of the main thread is the second one, from `insert`
  obtain ⟨rest, hcat⟩ := hpre
  rw [List.append_assoc] at hcat
  cases hpast with
  | nil => simp at hcat
  | cons hstep hpast =>
      obtain ⟨rfl, hcat⟩ := List.cons.inj hcat
      cases hpast with
      | nil =>
          rw [AsyncState.step, if_pos (by rfl)] at hstep
          obtain ⟨_, -, ht⟩ := Option.bind_eq_some_iff.mp hstep
          cases ht
          cases hmain
      | cons _ _ => simp at hcat

/-- One call that has returned: its command is on the list, and no handler was posted. -/
theorem stranded_after_first_call :
    ∃ m s, redisMgrInitialize (some (exampleElement 1)) { connects := [connectOk 0, connectOk 1] }
        = .ok (true, m) ∧
      Run AsyncState.step (asyncInit m)
        [.call 0 (runOps pingOps), .main, .main, .main, .main] s ∧
      s.main = .idle ∧ s.runs = [] ∧ s.mgr.listAt 1 = [runOps pingOps] ∧ ¬ NotStranded s := by
  obtain ⟨⟨ok, m⟩, h, hobs⟩ := exists_ok_of_map
    (x := redisMgrInitialize (some (exampleElement 1)) { connects := [connectOk 0, connectOk 1] })
    (f := fun r => (r.1, (List.foldlM AsyncState.step (asyncInit r.2)
      [.call 0 (runOps pingOps), .main, .main, .main, .main]).map
        fun s => (s.main, s.runs, s.mgr.listAt 1)))
    (b := (true, some (.idle, [], [runOps pingOps]))) (by decide)
  obtain ⟨rfl, hrun⟩ := Prod.mk.inj hobs
  obtain ⟨s, hrun, hs⟩ := Option.map_eq_some_iff.mp hrun
  obtain ⟨hmain, hs⟩ := Prod.mk.inj hs
  obtain ⟨hruns, hlist⟩ := Prod.mk.inj hs
  refine ⟨m, s, h, run_iff_foldlM.mpr hrun, hmain, hruns, hlist, ?_⟩
  intro hns
  have hnil := hns.quiescent hmain hruns 1
  rw [hlist] at hnil
  cases hnil

end SeedCore.Redis
