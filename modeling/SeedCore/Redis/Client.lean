import Mathlib.Tactic.IntervalCases
import SeedCore.Redis.AsyncQueue
import SeedCore.Redis.Pairing

/-!
# The whole client

The pool of connections as its users see it: calls of `execCmd` and `batchExecCmd` with
any thread index, and the asynchronous calls with everything that follows from them, in
any order.  A call of `execCmd` is one step, so calls on one connection come one after
the other.

Every connection is a `Session` of its own.  The calls whose thread index selects it make
a run of that session, whatever happens on the other connections and whatever the main
thread puts on the lists; and the codes of the session never get through to the callers.

## Main definitions

* `Client`, `Client.step` — the system.
* `Follows` — a connection of the client as a session.
* `client_sessions`, `client_paired`, `client_broken` — what holds along every run.
* `queued_forever` — what becomes of the asynchronous commands.
-/

namespace SeedCore.Redis

/-- Make a call through `execCmd` or `batchExecCmd`: the returned code, the replies handed
out, and the manager after it. -/
def Call.execAt (m : RedisMgr) (threadIdx : ℤ) (reSend : Bool) :
    Call → Except Stuck (ℤ × List RedisReply × RedisMgr)
  | .single b out => do
      let r ← execCmd m threadIdx b (if out then some none else none) reSend
      .ok (r.ret, r.reply.join.toList, r.mgr)
  | .pipe bs => do
      let r ← batchExecCmd m threadIdx bs [] reSend
      .ok (r.ret, r.reply, r.mgr)

/-- The manager with the asynchronous calls on it, and the calls that have returned, each
with its thread index. -/
structure Client where
  async : AsyncState
  done : List (ℤ × Finished) := []

/-- What the users of the client do. -/
inductive ClientAction
  /-- A call of `execCmd` or `batchExecCmd`. -/
  | sync (threadIdx : ℤ) (reSend : Bool) (call : Call)
  /-- A step of an asynchronous call or of a handler. -/
  | async (a : AsyncAction)

namespace Client

/-- The static members of `RedisMgr`. -/
def mgr (s : Client) : RedisMgr := s.async.mgr

/-- One step of the client. -/
def step (s : Client) : ClientAction → Option Client
  | .sync threadIdx reSend call => do
      let (ret, replies, mgr) ← (call.execAt s.mgr threadIdx reSend).toOption
      some {
        async := { s.async with mgr := mgr }
        done := s.done ++ [(threadIdx, ⟨call, ret, replies⟩)] }
  | .async a => do
      let async ← s.async.step a
      some { s with async := async }

/-- The client after `Initialize`. -/
def init (m : RedisMgr) : Client := { async := asyncInit m }

end Client

/-- The connection that a thread index selects. -/
def RedisMgr.route (m : RedisMgr) (threadIdx : ℤ) : Option ℕ :=
  (m.getRedisConnection threadIdx).toOption

section Connection

variable (m : RedisMgr) (i : ℕ)

/-- The call on connection `i` that an action makes. -/
def callAt : ClientAction → Option Call
  | .sync threadIdx _ call => if m.route threadIdx = some i then some call else none
  | .async _ => none

/-- The calls that were made on connection `i`. -/
def callsAt (as : List ClientAction) : List Call := as.filterMap (callAt m i)

/-- The calls on connection `i` that have returned. -/
def Client.doneAt (s : Client) : List Finished :=
  s.done.filterMap fun e => if m.route e.1 = some i then some e.2 else none

end Connection

/-- A finished call as `execCmd` reports it. -/
def Finished.reported (e : Finished) : Finished := { e with ret := redisOk }

/-- Every call is made with builders as `Commit` left them. -/
def ReadyCalls (as : List ClientAction) : Prop :=
  ∀ threadIdx reSend call, .sync threadIdx reSend call ∈ as → call.Ready

theorem ReadyCalls.callsAt {as : List ClientAction} (h : ReadyCalls as) (m : RedisMgr) (i : ℕ) :
    ∀ call ∈ callsAt m i as, call.Ready := by
  intro call hcall
  obtain ⟨a, ha, hcall⟩ := List.mem_filterMap.mp hcall
  cases a with
  | sync threadIdx reSend call' =>
      obtain ⟨-, heq⟩ := Option.ite_none_right_eq_some.mp hcall
      exact Option.some.inj heq ▸ h threadIdx reSend call' ha
  | async b => cases hcall

/-! ## What a step leaves alone -/

/-- The contexts, what selects one of them and the world are as they were. -/
structure SameContexts (m m' : RedisMgr) : Prop where
  connectNum_eq : m'.connectNum = m.connectNum
  ctx_eq : m'.vecRedisContext.map RedisConnection.ctx = m.vecRedisContext.map RedisConnection.ctx
  world_eq : m'.world = m.world

theorem SameContexts.refl (m : RedisMgr) : SameContexts m m := ⟨rfl, rfl, rfl⟩

/-- The selection depends on the number of connections only. -/
theorem getRedisConnection_congr {m m' : RedisMgr} (hnum : m'.connectNum = m.connectNum)
    (hlen : m'.vecRedisContext.length = m.vecRedisContext.length) (threadIdx : ℤ) :
    m'.getRedisConnection threadIdx = m.getRedisConnection threadIdx := by
  simp only [RedisMgr.getRedisConnection, RedisMgr.connectionAt, hnum, hlen]

theorem SameContexts.length_eq {m m' : RedisMgr} (h : SameContexts m m') :
    m'.vecRedisContext.length = m.vecRedisContext.length := by
  simpa using congrArg List.length h.ctx_eq

theorem SameContexts.getElem?_eq {m m' : RedisMgr} (h : SameContexts m m') (i : ℕ) :
    m'.vecRedisContext[i]?.map RedisConnection.ctx
      = m.vecRedisContext[i]?.map RedisConnection.ctx := by
  simpa using congrArg (fun l => l[i]?) h.ctx_eq

/-- A change that leaves the context alone. -/
theorem sameContexts_modify {m m' : RedisMgr} {i : ℕ} {f : RedisConnection → RedisConnection}
    (h : m.modify i f = some m') (hf : ∀ conn, (f conn).ctx = conn.ctx) : SameContexts m m' := by
  obtain ⟨conn, hconn, rfl⟩ := Option.map_eq_some_iff.mp h
  refine ⟨rfl, ?_, rfl⟩
  obtain ⟨hlt, rfl⟩ := List.getElem?_eq_some_iff.mp hconn
  rw [List.map_set, hf, ← List.getElem_map RedisConnection.ctx (h := by simpa using hlt)]
  exact List.set_getElem_self _

/-- **The asynchronous calls touch no context** while nothing was posted. -/
theorem Unposted.sameContexts {s t : AsyncState} {a : AsyncAction} (U : Unposted s)
    (h : s.step a = some t) : SameContexts s.mgr t.mgr := by
  cases a with
  | call taskId b =>
      simp only [AsyncState.step, Option.bind_eq_bind, Option.ite_none_right_eq_some,
        Option.bind_eq_some_iff, Option.some.injEq] at h
      obtain ⟨-, i, -, rfl⟩ := h
      exact .refl _
  | worker k =>
      rw [AsyncState.step, AsyncState.workerStep, U.runs_eq] at h
      cases h
  | main =>
      rw [AsyncState.step, AsyncState.mainStep] at h
      cases hmain : s.main with
      | idle =>
          rw [hmain] at h
          cases h
      | insert i b =>
          rw [hmain] at h
          obtain ⟨mgr, hmgr, h⟩ := Option.bind_eq_some_iff.mp h
          cases h
          exact sameContexts_modify hmgr fun _ => rfl
      | handler i =>
          rw [hmain] at h
          obtain ⟨mgr, hmgr, h⟩ := Option.bind_eq_some_iff.mp h
          cases h
          exact sameContexts_modify hmgr fun _ => rfl
      | check i =>
          rw [hmain] at h
          obtain ⟨conn, -, h⟩ := Option.bind_eq_some_iff.mp h
          obtain ⟨mgr, hmgr, h⟩ := Option.bind_eq_some_iff.mp h
          cases h
          exact sameContexts_modify hmgr fun _ => rfl
      | post i => exact absurd hmain (U.not_post i)
      | mark i => exact absurd hmain (U.not_mark i)
      | leave i =>
          rw [hmain] at h
          cases h
          exact .refl _

/-! ## What a call comes down to -/

theorem execWith_routed {β ρ : Type}
    {exchange : RedisContext → β → ρ → Except Stuck (Exchanged β ρ)} {m : RedisMgr}
    {threadIdx : ℤ} {builder : β} {reply : ρ} {reSend : Bool} {r : Executed β ρ}
    (h : execWith exchange m threadIdx builder reply reSend = .ok r) :
    ∃ i connection, m.getRedisConnection threadIdx = .ok i ∧
      m.vecRedisContext[i]? = some connection := by
  obtain ⟨i, hi, h⟩ := bind_eq_ok.mp h
  cases hconnection : m.vecRedisContext[i]? with
  | none =>
      rw [hconnection] at h
      cases h
  | some connection => exact ⟨i, connection, hi, hconnection⟩

/-- A call that returns has selected a connection. -/
theorem Call.execAt_routed {call : Call} {m : RedisMgr} {threadIdx : ℤ} {reSend : Bool}
    {r : ℤ × List RedisReply × RedisMgr} (h : call.execAt m threadIdx reSend = .ok r) :
    ∃ i connection, m.getRedisConnection threadIdx = .ok i ∧
      m.vecRedisContext[i]? = some connection := by
  cases call with
  | single b out =>
      obtain ⟨x, hexec, -⟩ := bind_eq_ok.mp h
      exact execWith_routed hexec
  | pipe bs =>
      obtain ⟨x, hexec, -⟩ := bind_eq_ok.mp h
      exact execWith_routed hexec

/-- **What a call through the manager comes down to**: the call on the context of the
selected connection, and the code for success. -/
theorem Call.execAt_eq {m : RedisMgr} {threadIdx : ℤ} {i : ℕ} {connection : RedisConnection}
    (hi : m.getRedisConnection threadIdx = .ok i)
    (hconnection : m.vecRedisContext[i]? = some connection) (reSend : Bool) (call : Call) :
    call.execAt m threadIdx reSend = (call.exec connection.ctx).map fun r =>
      (redisOk, r.2.1, m.update i { connection with ctx := r.2.2 } m.world) := by
  cases call with
  | single b out =>
      rw [Call.execAt, Call.exec, execCmd_eq hi hconnection]
      cases sendAndGetReply connection.ctx b (if out then some none else none) <;> rfl
  | pipe bs =>
      rw [Call.execAt, Call.exec, batchExecCmd_eq hi hconnection]
      cases pipelineSendAndGetReply connection.ctx bs [] <;> rfl

/-- A new context leaves every list alone. -/
theorem RedisMgr.listAt_update {m : RedisMgr} {i : ℕ} {connection : RedisConnection}
    (hconnection : m.vecRedisContext[i]? = some connection) (ctx : RedisContext) (w : World)
    (j : ℕ) : (m.update i { connection with ctx := ctx } w).listAt j = m.listAt j := by
  obtain ⟨hlt, rfl⟩ := List.getElem?_eq_some_iff.mp hconnection
  by_cases hj : i = j
  · subst hj
    simp [RedisMgr.listAt, RedisMgr.update, hlt]
  · simp [RedisMgr.listAt, RedisMgr.update, List.getElem?_set_ne hj]

/-- **What a step of the client can do.** -/
theorem Client.step_cases {s t : Client} {a : ClientAction} (h : s.step a = some t) :
    (∃ threadIdx reSend call i connection ret replies c, a = .sync threadIdx reSend call ∧
      s.mgr.getRedisConnection threadIdx = .ok i ∧
      s.mgr.vecRedisContext[i]? = some connection ∧
      call.exec connection.ctx = .ok (ret, replies, c) ∧
      t.async = { s.async with
        mgr := s.mgr.update i { connection with ctx := c } s.mgr.world } ∧
      t.done = s.done ++ [(threadIdx, ⟨call, redisOk, replies⟩)]) ∨
    (∃ b, a = .async b ∧ s.async.step b = some t.async ∧ t.done = s.done) := by
  cases a with
  | sync threadIdx reSend call =>
      rw [Client.step] at h
      cases hexec : call.execAt s.mgr threadIdx reSend with
      | error e =>
          rw [hexec] at h
          cases h
      | ok r =>
          obtain ⟨i, connection, hi, hconnection⟩ := Call.execAt_routed hexec
          rw [Call.execAt_eq hi hconnection] at h hexec
          cases hcall : call.exec connection.ctx with
          | error e =>
              rw [hcall] at h
              cases h
          | ok x =>
              obtain ⟨ret, replies, c⟩ := x
              rw [hcall] at h
              cases h
              exact .inl ⟨threadIdx, reSend, call, i, connection, ret, replies, c, rfl, hi,
                hconnection, hcall, rfl, rfl⟩
  | async b =>
      obtain ⟨async, hasync, h⟩ := Option.bind_eq_some_iff.mp h
      cases h
      exact .inr ⟨b, rfl, hasync, rfl⟩

/-! ## A connection as a session -/

/-- No handler was posted, the selection of a connection is as it was, and no connection
attempt was made. -/
structure Inert (m : RedisMgr) (s : Client) : Prop where
  unposted : Unposted s.async
  connectNum_eq : s.mgr.connectNum = m.connectNum
  length_eq : s.mgr.vecRedisContext.length = m.vecRedisContext.length
  world_eq : s.mgr.world = m.world

theorem inert_init (m : RedisMgr) : Inert m (.init m) :=
  ⟨⟨rfl, by simp [Client.init, asyncInit], by simp [Client.init, asyncInit],
    by simp [Client.init, asyncInit]⟩, rfl, rfl, rfl⟩

theorem Inert.getRedisConnection_eq {m : RedisMgr} {s : Client} (I : Inert m s) (threadIdx : ℤ) :
    s.mgr.getRedisConnection threadIdx = m.getRedisConnection threadIdx :=
  getRedisConnection_congr I.connectNum_eq I.length_eq threadIdx

/-- A new context on one connection posts nothing. -/
theorem Unposted.update {s : AsyncState} (U : Unposted s) {i : ℕ} {connection : RedisConnection}
    (hconnection : s.mgr.vecRedisContext[i]? = some connection) (ctx : RedisContext) (w : World) :
    Unposted { s with mgr := s.mgr.update i { connection with ctx := ctx } w } := by
  refine ⟨U.runs_eq, U.not_post, U.not_mark, ?_⟩
  intro j hj
  have hlist := U.inserted j hj
  rwa [RedisMgr.listAt_update hconnection]

theorem Inert.step {m : RedisMgr} {s t : Client} {a : ClientAction} (I : Inert m s)
    (h : s.step a = some t) : Inert m t := by
  obtain ⟨threadIdx, reSend, call, i, connection, ret, replies, c, -, -, hconnection, -, ht, -⟩ |
    ⟨b, -, hstep, -⟩ := Client.step_cases h
  · have hmgr : t.mgr = s.mgr.update i { connection with ctx := c } s.mgr.world := by
      rw [Client.mgr, ht]
    refine ⟨?_, ?_, ?_, ?_⟩
    · rw [ht]
      exact I.unposted.update hconnection c _
    · rw [hmgr]
      exact I.connectNum_eq
    · rw [hmgr, RedisMgr.update, List.length_set]
      exact I.length_eq
    · rw [hmgr]
      exact I.world_eq
  · have hsame := I.unposted.sameContexts hstep
    exact ⟨I.unposted.step hstep, hsame.connectNum_eq.trans I.connectNum_eq,
      hsame.length_eq.trans I.length_eq, hsame.world_eq.trans I.world_eq⟩

/-- **No handler is ever posted, and no connection is ever opened again.** -/
theorem inert_of_run {m : RedisMgr} {as : List ClientAction} {s : Client}
    (h : Run Client.step (.init m) as s) : Inert m s :=
  h.invariant (Q := fun _ => True) (fun _ _ _ _ hstep I => I.step hstep) (fun _ _ => trivial)
    (inert_init m)

/-- Connection `i` of the client is where the session is. -/
structure Follows (m : RedisMgr) (i : ℕ) (s : Client) (t : Session) : Prop where
  inert : Inert m s
  ctx_eq : s.mgr.vecRedisContext[i]?.map RedisConnection.ctx = some t.ctx
  done_eq : s.doneAt m i = t.done.map Finished.reported

theorem follows_init {m : RedisMgr} {i : ℕ} {conn : RedisConnection}
    (hconn : m.vecRedisContext[i]? = some conn) : Follows m i (.init m) ⟨conn.ctx, []⟩ := by
  refine ⟨inert_init m, ?_, rfl⟩
  rw [Client.init, Client.mgr, asyncInit, hconn]
  rfl

/-- **The step.**  A step of the client is a step of the session by the call that it makes
on the connection, or the session does not see it. -/
theorem follows_simulates (m : RedisMgr) (i : ℕ) :
    Simulates Client.step Session.step (callAt m i) (Follows m i) := by
  intro s t a c F h
  have hinert := F.inert.step h
  obtain ⟨threadIdx, reSend, call, j, connection, ret, replies, c', rfl, hj, hconnection, hexec,
    ht, hdone⟩ | ⟨b, rfl, hstep, hdone⟩ := Client.step_cases h
  · rw [F.inert.getRedisConnection_eq] at hj
    have hroute : m.route threadIdx = some j := by
      rw [RedisMgr.route, hj]
      rfl
    have hmgr : t.mgr = s.mgr.update j { connection with ctx := c' } s.mgr.world := by
      rw [Client.mgr, ht]
    have hdoneAt : t.doneAt m i
        = s.doneAt m i ++ if j = i then [⟨call, redisOk, replies⟩] else [] := by
      rw [Client.doneAt, hdone, List.filterMap_append]
      by_cases hji : j = i
      · simp [hroute, hji, Client.doneAt]
      · simp [hroute, hji, Client.doneAt]
    by_cases hji : j = i
    · subst hji
      have hctx : connection.ctx = c.ctx := by simpa [hconnection] using F.ctx_eq
      rw [callAt, if_pos hroute]
      refine ⟨⟨c', c.done ++ [⟨call, ret, replies⟩]⟩, ?_, hinert, ?_, ?_⟩
      · rw [Session.step, ← hctx, hexec]
      · rw [hmgr, RedisMgr.update_getElem? hconnection]
        rfl
      · rw [hdoneAt, if_pos rfl, F.done_eq, List.map_append]
        rfl
    · rw [callAt, if_neg (by simpa [hroute] using hji)]
      refine ⟨hinert, ?_, ?_⟩
      · rw [hmgr, RedisMgr.update, List.getElem?_set_ne hji]
        exact F.ctx_eq
      · rw [hdoneAt, if_neg hji, List.append_nil]
        exact F.done_eq
  · have hsame := F.inert.unposted.sameContexts hstep
    refine ⟨hinert, (hsame.getElem?_eq i).trans F.ctx_eq, ?_⟩
    rw [Client.doneAt, hdone]
    exact F.done_eq

/-- **The client is made of independent sessions.**  Along every run, whatever the users
of other connections do and whatever is put on the lists, the calls that select a
connection make a run of one session on its context; their callers get the replies of
that session, and the code for success.  The selection never changes, no handler runs and
no connection is opened again. -/
theorem client_sessions {m : RedisMgr} {as : List ClientAction} {s : Client}
    (h : Run Client.step (.init m) as s) :
    s.async.runs = [] ∧ s.mgr.world = m.world ∧
      (∀ threadIdx, s.mgr.getRedisConnection threadIdx = m.getRedisConnection threadIdx) ∧
      ∀ i conn, m.vecRedisContext[i]? = some conn → ∃ t : Session,
        Run Session.step ⟨conn.ctx, []⟩ (callsAt m i as) t ∧
        s.mgr.vecRedisContext[i]?.map RedisConnection.ctx = some t.ctx ∧
        s.doneAt m i = t.done.map Finished.reported := by
  have I := inert_of_run h
  refine ⟨I.unposted.runs_eq, I.world_eq, I.getRedisConnection_eq, ?_⟩
  intro i conn hconn
  obtain ⟨t, hrun, F⟩ := (follows_simulates m i).run h (follows_init hconn)
  exact ⟨t, hrun, F.ctx_eq, F.done_eq⟩

/-- A pool of two: the main connection works, the other one breaks. -/
def poolMgr : RedisMgr where
  vecRedisContext := [
    { ctx := freshContext [.sent 99] [.chunk [], .chunk [.reply (echoReply "a")]] },
    { ctx := freshContext [.failed .other] [] }]
  connectNum := 1
  world := { connects := [connectOk 2] }

/-- Calls on both connections, and an asynchronous call under way. -/
def poolActions : List ClientAction :=
  [.sync 0 true (.single (runOps (echoOps "a")) true), .async (.call 5 (runOps pingOps)),
    .sync 3 true (.single (runOps (echoOps "b")) true), .async .main]

theorem readyCalls_poolActions : ReadyCalls poolActions := by
  intro threadIdx reSend call hcall
  simp only [poolActions, List.mem_cons, ClientAction.sync.injEq, reduceCtorEq, List.not_mem_nil,
    or_false, false_or] at hcall
  obtain ⟨-, -, rfl⟩ | ⟨-, -, rfl⟩ := hcall
  · exact ready_echo _ (by decide)
  · exact ready_echo _ (by decide)

/-- The two connections of a run as sessions. -/
theorem client_sessions_two :
    ∃ s, Run Client.step (.init poolMgr) poolActions s ∧ s.async.runs = [] ∧
      s.mgr.world = poolMgr.world ∧
      ∃ t : Session, Run Session.step
          ⟨freshContext [.sent 99] [.chunk [], .chunk [.reply (echoReply "a")]], []⟩
          [.single (runOps (echoOps "a")) true] t ∧
        s.doneAt poolMgr 0 = t.done.map Finished.reported := by
  obtain ⟨s, hrun, -⟩ := Option.map_eq_some_iff.mp (show
    (List.foldlM Client.step (.init poolMgr) poolActions).map (fun s => s.done.length)
      = some 2 from rfl)
  have hrun := run_iff_foldlM.mpr hrun
  obtain ⟨hruns, hworld, -, hsessions⟩ := client_sessions hrun
  obtain ⟨t, ht, -, hdone⟩ := hsessions 0 _ rfl
  exact ⟨s, hrun, hruns, hworld, t, ht, hdone⟩

/-! ## Replies across the pool -/

/-- The code of a call has no part in the pairing. -/
theorem paired_reported {srv : List (List Bytes) → RedisReply} {done : List Finished}
    (h : Paired srv done) : Paired srv (done.map Finished.reported) := by
  intro past e rest heq
  obtain ⟨past', tail, rfl, rfl, htail⟩ := List.map_eq_append_iff.mp heq
  obtain ⟨e', rest', rfl, rfl, -⟩ := List.map_eq_cons_iff.mp htail
  have hcommands : commandsOf (past'.map Finished.reported) = commandsOf past' := by
    rw [commandsOf, List.flatMap_map]
    rfl
  rw [hcommands]
  exact h past' e' rest' rfl

/-- **Replies stay with their callers across the whole pool.**  On every connection each
reply that `execCmd` or `batchExecCmd` handed out answers the very command it was called
with, whatever other threads did meanwhile; and as long as the connection has no error,
its server got the commands of these calls and nothing else: no asynchronous command
reaches it. -/
theorem client_paired (srv : ℕ → List (List Bytes) → RedisReply) {m : RedisMgr}
    (hfresh : ∀ conn ∈ m.vecRedisContext, Fresh conn.ctx ∧ NoRetry conn.ctx)
    {as : List ClientAction} (hcalls : ReadyCalls as) {s : Client}
    (h : Run Client.step (.init m) as s)
    (hhonest : ∀ i conn, s.mgr.vecRedisContext[i]? = some conn →
      Honest (srv i) conn.ctx.sock.log) :
    ∀ i conn, s.mgr.vecRedisContext[i]? = some conn →
      Paired (srv i) (s.doneAt m i) ∧
      (conn.ctx.err = 0 → serverInput conn.ctx.sock.log
        = (commandsOf (s.doneAt m i)).flatMap Resp.command) := by
  intro i conn hconn
  have I := inert_of_run h
  have hlt : i < m.vecRedisContext.length := by
    rw [← I.length_eq]
    exact (List.getElem?_eq_some_iff.mp hconn).1
  have hconn₀ := List.getElem?_eq_getElem hlt
  obtain ⟨hfresh₀, hretry⟩ := hfresh _ (List.getElem_mem hlt)
  obtain ⟨t, hrun, F⟩ := (follows_simulates m i).run h (follows_init hconn₀)
  have hctx : conn.ctx = t.ctx := by simpa [hconn] using F.ctx_eq
  have hhonest' := hhonest i conn hconn
  rw [hctx] at hhonest' ⊢
  have hs := settled_of_run hfresh₀ hretry (hcalls.callsAt m i) hrun hhonest'
  rw [F.done_eq]
  refine ⟨paired_reported hs.paired, ?_⟩
  intro herr
  have hcommands : commandsOf (t.done.map Finished.reported) = commandsOf t.done := by
    rw [commandsOf, List.flatMap_map]
    rfl
  rw [hcommands]
  exact (hs.quiet herr).2.1

/-- The caller of the main connection gets its own reply. -/
theorem client_paired_two :
    ∃ s, Run Client.step (.init poolMgr) poolActions s ∧
      (s.doneAt poolMgr 0).map Finished.replies = [[echoReply "a"]] ∧
      Paired echoServer (s.doneAt poolMgr 0) ∧ Paired echoServer (s.doneAt poolMgr 1) := by
  obtain ⟨s, hrun, hobs⟩ := Option.map_eq_some_iff.mp (show
    (List.foldlM Client.step (.init poolMgr) poolActions).map (fun s =>
      (s.mgr.vecRedisContext.map fun conn => conn.ctx.sock.log,
        (s.doneAt poolMgr 0).map Finished.replies))
      = some ([[echoSent "a", .arrived [], .arrived [echoReply "a"]], []], [[echoReply "a"]])
    from rfl)
  obtain ⟨hlogs, hreplies⟩ := Prod.mk.inj hobs
  have hrun := run_iff_foldlM.mpr hrun
  have hlen : s.mgr.vecRedisContext.length = 2 := by simpa using congrArg List.length hlogs
  have hfresh : ∀ conn ∈ poolMgr.vecRedisContext, Fresh conn.ctx ∧ NoRetry conn.ctx := by
    simp only [poolMgr, List.forall_mem_cons]
    exact ⟨⟨⟨rfl, rfl, rfl⟩, by unfold NoRetry; decide⟩,
      ⟨⟨rfl, rfl, rfl⟩, by unfold NoRetry; decide⟩, by simp⟩
  have hpaired := client_paired (fun _ => echoServer) hfresh readyCalls_poolActions hrun ?_
  · exact ⟨s, hrun, hreplies, (hpaired 0 _ (List.getElem?_eq_getElem (by omega))).1,
      (hpaired 1 _ (List.getElem?_eq_getElem (by omega))).1⟩
  · intro i conn hconn
    have hlog : (s.mgr.vecRedisContext.map fun conn => conn.ctx.sock.log)[i]?
        = some conn.ctx.sock.log := by rw [List.getElem?_map, hconn]; rfl
    rw [hlogs] at hlog
    apply honest_of_take
    match i with
    | 0 =>
        obtain hlog := Option.some.inj hlog
        rw [← hlog]
        intro n hn
        have hn : n ≤ 3 := hn
        interval_cases n <;> exact ⟨_, rfl⟩
    | 1 =>
        obtain hlog := Option.some.inj hlog
        rw [← hlog]
        intro n hn
        obtain rfl : n = 0 := by simpa using hn
        exact ⟨_, rfl⟩
    | i + 2 => simp at hlog

/-! ## A broken connection -/

/-- On a context with an error a session goes nowhere, whatever its calls are. -/
theorem broken_of_run {s t : Session} {calls : List Call} (herr : s.ctx.err ≠ 0)
    (h : Run Session.step s calls t) :
    t.ctx.err ≠ 0 ∧ t.ctx.sock = s.ctx.sock ∧ t.done.map Finished.reported
      = s.done.map Finished.reported ++ calls.map fun call => ⟨call, redisOk, []⟩ := by
  induction h with
  | nil s => exact ⟨herr, rfl, by simp⟩
  | cons head _ ih =>
      obtain ⟨ret, replies, hexec, hdone⟩ := step_eq_some head
      obtain ⟨-, rfl, herr', hsock⟩ := Call.exec_of_err herr hexec
      obtain ⟨herr'', hsock', hdone'⟩ := ih herr'
      refine ⟨herr'', hsock'.trans hsock, ?_⟩
      rw [hdone', hdone, List.map_append, List.append_assoc]
      rfl

/-- **A connection that broke stays broken.**  From any state that the client can reach
with an error on a connection, and along everything that can follow, nothing is sent on
it any more, every call that selects it returns success without a reply, and no
connection attempt is made. -/
theorem client_broken {m : RedisMgr} {as bs : List ClientAction} {s s' : Client}
    (h : Run Client.step (.init m) as s) {i : ℕ} {conn : RedisConnection}
    (hconn : s.mgr.vecRedisContext[i]? = some conn) (herr : conn.ctx.err ≠ 0)
    (h' : Run Client.step s bs s') :
    (∃ conn', s'.mgr.vecRedisContext[i]? = some conn' ∧ conn'.ctx.err ≠ 0 ∧
      conn'.ctx.sock = conn.ctx.sock) ∧
    s'.doneAt m i = s.doneAt m i ++ (callsAt m i bs).map (fun call => ⟨call, redisOk, []⟩) ∧
    s'.mgr.world = s.mgr.world := by
  have I := inert_of_run h
  have hlt : i < m.vecRedisContext.length := by
    rw [← I.length_eq]
    exact (List.getElem?_eq_some_iff.mp hconn).1
  obtain ⟨c, -, F⟩ := (follows_simulates m i).run h (follows_init (List.getElem?_eq_getElem hlt))
  have hctx : conn.ctx = c.ctx := by simpa [hconn] using F.ctx_eq
  obtain ⟨t, hrun, F'⟩ := (follows_simulates m i).run h' F
  obtain ⟨herr', hsock, hdone⟩ := broken_of_run (hctx ▸ herr) hrun
  refine ⟨?_, ?_, F'.inert.world_eq.trans I.world_eq.symm⟩
  · obtain ⟨conn', hconn', hctx'⟩ := Option.map_eq_some_iff.mp F'.ctx_eq
    exact ⟨conn', hconn', hctx' ▸ herr', by rw [hctx', hctx, hsock]⟩
  · rw [F'.done_eq, F.done_eq]
    exact hdone

/-- The connection behind the main one breaks on the first call, and a later call finds
it so. -/
theorem client_broken_two :
    ∃ s s', Run Client.step (.init poolMgr) poolActions s ∧
      Run Client.step s [.sync 1 true (.single (runOps (echoOps "c")) true)] s' ∧
      s'.doneAt poolMgr 1 = s.doneAt poolMgr 1 ++
        [⟨.single (runOps (echoOps "c")) true, redisOk, []⟩] ∧
      s'.mgr.world = s.mgr.world := by
  obtain ⟨s, hrun, hobs⟩ := Option.map_eq_some_iff.mp (show
    (List.foldlM Client.step (.init poolMgr) poolActions).map (fun s =>
      (s.mgr.vecRedisContext[1]?.map (fun conn => decide (conn.ctx.err = 0)),
        (List.foldlM Client.step s [.sync 1 true (.single (runOps (echoOps "c")) true)]).isSome))
      = some (some false, true) from rfl)
  obtain ⟨herr, hsome⟩ := Prod.mk.inj hobs
  obtain ⟨conn, hconn, herr⟩ := Option.map_eq_some_iff.mp herr
  obtain ⟨s', hrun'⟩ := Option.isSome_iff_exists.mp hsome
  have hrun := run_iff_foldlM.mpr hrun
  have hrun' := run_iff_foldlM.mpr hrun'
  obtain ⟨-, hdone, hworld⟩ := client_broken hrun hconn (of_decide_eq_false herr) hrun'
  exact ⟨s, s', hrun, hrun', hdone, hworld⟩

/-! ## The asynchronous commands -/

/-- The command that an action hands to `addAsyncTask` for connection `i`. -/
def taskAt (m : RedisMgr) (i : ℕ) : ClientAction → Option RedisCmdBuilder
  | .async (.call taskId cmdBuilder) =>
      if (m.getRedisConnectionInAsync taskId).toOption = some i then some cmdBuilder else none
  | _ => none

/-- The command that `addAsyncTask` is about to put on the list of connection `i`. -/
def MainPc.inserting (pc : MainPc) (i : ℕ) : List RedisCmdBuilder :=
  match pc with
  | .insert j cmdBuilder => if j = i then [cmdBuilder] else []
  | _ => []

/-- What is queued for connection `i`, in the order in which it was handed in. -/
def Client.queued (s : Client) (i : ℕ) : List RedisCmdBuilder :=
  (s.mgr.listAt i).reverse ++ s.async.main.inserting i

/-- A queue that nothing is ever taken from. -/
def hoard (q : List RedisCmdBuilder) (b : RedisCmdBuilder) : Option (List RedisCmdBuilder) :=
  some (q ++ [b])

theorem eq_of_hoard {q q' bs : List RedisCmdBuilder} (h : Run hoard q bs q') : q' = q ++ bs := by
  induction h with
  | nil q => simp
  | cons head _ ih =>
      cases head
      rw [ih, List.append_assoc]
      rfl

theorem getRedisConnectionInAsync_congr {m m' : RedisMgr} (hnum : m'.connectNum = m.connectNum)
    (hlen : m'.vecRedisContext.length = m.vecRedisContext.length) (taskId : ℤ) :
    m'.getRedisConnectionInAsync taskId = m.getRedisConnectionInAsync taskId := by
  simp only [RedisMgr.getRedisConnectionInAsync, RedisMgr.connectionAt, hnum, hlen]

/-- **The step.**  What is handed in joins the queue, and nothing else changes it. -/
theorem queued_simulates (m : RedisMgr) (i : ℕ) :
    Simulates Client.step hoard (taskAt m i) fun s q => Inert m s ∧ s.queued i = q := by
  rintro s t a q ⟨I, rfl⟩ h
  have hinert := I.step h
  obtain ⟨threadIdx, reSend, call, j, connection, ret, replies, c, rfl, -, hconnection, -, ht, -⟩ |
    ⟨b, rfl, hstep, -⟩ := Client.step_cases h
  · refine ⟨hinert, ?_⟩
    rw [Client.queued, Client.mgr, ht]
    dsimp only
    rw [RedisMgr.listAt_update hconnection]
    rfl
  · obtain ⟨taskId, b, -, rfl, hmain, -⟩ | ⟨j, b, rfl, hmain, htmain, -, hlist⟩ |
      ⟨j, rfl, hmain, -, hlist⟩ | ⟨j, rfl, hmain, ht⟩ := I.unposted.step_cases hstep
    · simp only [AsyncState.step, Option.bind_eq_bind, Option.ite_none_right_eq_some,
        Option.bind_eq_some_iff, Option.some.injEq] at hstep
      obtain ⟨-, j, hj, ht⟩ := hstep
      have hroute : s.async.mgr.getRedisConnectionInAsync taskId
          = m.getRedisConnectionInAsync taskId :=
        getRedisConnectionInAsync_congr I.connectNum_eq I.length_eq taskId
      have hqueued : t.queued i = s.queued i ++ if j = i then [b] else [] := by
        rw [Client.queued, Client.mgr, ← ht, Client.queued, hmain]
        simp [MainPc.inserting, Client.mgr]
      rw [taskAt, ← hroute, hj]
      by_cases hji : j = i
      · subst hji
        rw [if_pos rfl]
        exact ⟨_, rfl, hinert, by rw [hqueued, if_pos rfl]⟩
      · rw [if_neg (by simpa using hji)]
        exact ⟨hinert, by rw [hqueued, if_neg hji, List.append_nil]⟩
    · refine ⟨hinert, ?_⟩
      rw [Client.queued, Client.mgr, hlist, htmain, Client.queued, hmain]
      by_cases hji : j = i
      · subst hji
        simp [MainPc.inserting, Client.mgr]
      · simp [MainPc.inserting, hji, Ne.symm hji, Client.mgr]
    · refine ⟨hinert, ?_⟩
      rw [Client.queued, Client.mgr, hlist, Client.queued]
      rcases hmain with ⟨hs, ht⟩ | ⟨hs, ht⟩
      · rw [hs, ht]
        rfl
      · rw [hs, ht]
        rfl
    · refine ⟨hinert, ?_⟩
      rw [Client.queued, Client.mgr, ht, Client.queued, hmain]
      rfl

/-- **Every asynchronous command is kept for ever.**  Along every run from `Initialize`,
the commands handed in for a connection are, in order, those on its list and the one
being put there: none is ever taken off, sent or freed. -/
theorem queued_forever {redisObj : Option RedisElement} {w : World} {m : RedisMgr}
    (hinit : redisMgrInitialize redisObj w = .ok (true, m)) {as : List ClientAction} {s : Client}
    (h : Run Client.step (.init m) as s) (i : ℕ) : s.queued i = as.filterMap (taskAt m i) := by
  have hempty : Client.queued (.init m) i = [] := by
    rw [Client.queued, Client.mgr, Client.init, asyncInit,
      (pool_of_redisMgrInitialize hinit).listAt_eq]
    rfl
  obtain ⟨q, hrun, -, rfl⟩ := (queued_simulates m i).run h ⟨inert_init m, hempty⟩
  rw [eq_of_hoard hrun, List.nil_append]

/-- Two asynchronous calls, the second one not yet at the list. -/
def queueActions : List ClientAction :=
  [.async (.call 0 (runOps pingOps)), .async .main, .async .main, .async .main, .async .main,
    .async (.call 7 (runOps (echoOps "a")))]

/-- Both commands are there. -/
theorem queued_forever_two :
    ∃ m s, redisMgrInitialize (some (exampleElement 1)) { connects := [connectOk 0, connectOk 1] }
        = .ok (true, m) ∧
      Run Client.step (.init m) queueActions s ∧
      s.queued 1 = [runOps pingOps, runOps (echoOps "a")] := by
  obtain ⟨⟨ok, m⟩, h, hobs⟩ := exists_ok_of_map
    (x := redisMgrInitialize (some (exampleElement 1)) { connects := [connectOk 0, connectOk 1] })
    (f := fun r => (r.1, (List.foldlM Client.step (.init r.2) queueActions).isSome,
      (r.2.getRedisConnectionInAsync 0).toOption, (r.2.getRedisConnectionInAsync 7).toOption))
    (b := (true, true, some 1, some 1)) (by decide)
  obtain ⟨rfl, hobs⟩ := Prod.mk.inj hobs
  obtain ⟨hsome, hroutes⟩ := Prod.mk.inj hobs
  have h0 : (m.getRedisConnectionInAsync 0).toOption = some 1 := (Prod.mk.inj hroutes).1
  have h7 : (m.getRedisConnectionInAsync 7).toOption = some 1 := (Prod.mk.inj hroutes).2
  have hmain : taskAt m 1 (.async .main) = none := rfl
  obtain ⟨s, hrun⟩ := Option.isSome_iff_exists.mp hsome
  have hrun := run_iff_foldlM.mpr hrun
  refine ⟨m, s, h, hrun, ?_⟩
  rw [queued_forever h hrun 1]
  simp [queueActions, hmain, taskAt.eq_1, h0, h7]

end SeedCore.Redis
