import SeedCore.Redis.Connection
import SeedCore.Redis.Exchange

/-!
# Executing a command or a batch

`execCmd` and `batchExecCmd` of `RedisMgr.cpp` differ only in the exchange they make,
so both are `execWith` at their own exchange.  When the first exchange returns
`REDIS_ERR_IO` and the command may be sent again, `execTaskByTimeOut` opens new
connections until one of them carries the exchange, or `reattemptTime` is over.

An exchange returns `REDIS_OK` or `REDIS_ERR`, and the test is for neither.

## Main definitions

* `execTaskByTimeOut` — the reconnect loop.
* `execCmd`, `batchExecCmd`.
* `execWith_eq` — what an execution comes down to.
* `exec_never_recovers` — a failed exchange is never repeated.
-/

namespace SeedCore.Redis

/-- `tools::GetTimeMillisecond` -/
def World.getTimeMillisecond (w : World) : Except Stuck (ℤ × World) :=
  match w.clock with
  | [] => .error .blocked
  | now :: rest => .ok (now, { w with clock := rest })

section TimeOut

variable {σ : Type} (config : RedisConnectionConfig)
  (callFunc : RedisConnection → σ → Except Stuck (Bool × RedisConnection × σ))

/-- The loop of `execTaskByTimeOut`; `σ` is what `callFunc` captures by reference.
Every iteration uses up one connection attempt, which is what `fuel` counts. -/
def execTaskLoop (enterTime : ℤ) :
    ℕ → World → RedisConnection → σ → Except Stuck (World × RedisConnection × σ)
  | 0, _, _, _ => .error .blocked
  | fuel + 1, w, connection, captured => do
      let (ctx, w) ← createRedisContext config w
      let (finished, w, connection, captured) ← match ctx with
        | none => .ok (false, w, connection, captured)
        | some ctx => do
            let w := w.free connection.ctx
            let (finished, connection, captured) ← callFunc { connection with ctx := ctx } captured
            .ok (finished, w, connection, captured)
      if finished then .ok (w, connection, captured)
      else do
        let (now, w) ← w.getTimeMillisecond
        if now - enterTime > config.reattemptTime then .ok (w, connection, captured)
        else execTaskLoop enterTime fuel w connection captured

/-- `execTaskByTimeOut` -/
def execTaskByTimeOut (w : World) (connection : RedisConnection) (captured : σ) :
    Except Stuck (World × RedisConnection × σ) := do
  let (enterTime, w) ← w.getTimeMillisecond
  execTaskLoop config callFunc enterTime (w.connects.length + 1) w connection captured

end TimeOut

/-- What an execution leaves. -/
structure Executed (β ρ : Type) where
  ret : ℤ
  mgr : RedisMgr
  builder : β
  reply : ρ

/-- The manager after connection `i` was worked on. -/
def RedisMgr.update (m : RedisMgr) (i : ℕ) (connection : RedisConnection) (w : World) : RedisMgr :=
  { m with vecRedisContext := m.vecRedisContext.set i connection, world := w }

theorem RedisMgr.update_getElem? {m : RedisMgr} {i : ℕ} {connection : RedisConnection}
    (h : m.vecRedisContext[i]? = some connection) (connection' : RedisConnection) (w : World) :
    (m.update i connection' w).vecRedisContext[i]? = some connection' := by
  have hlt : i < m.vecRedisContext.length := (List.getElem?_eq_some_iff.mp h).1
  simp [RedisMgr.update, hlt]

section Exec

variable {β ρ : Type} (exchange : RedisContext → β → ρ → Except Stuck (Exchanged β ρ))

/-- The lambda handed to `execTaskByTimeOut`: the exchange on the new context. -/
def callFun (connection : RedisConnection) (captured : β × ρ) :
    Except Stuck (Bool × RedisConnection × β × ρ) := do
  let r ← exchange connection.ctx captured.1 captured.2
  .ok (r.ret ≠ RedisErr.io.code, { connection with ctx := r.ctx }, r.builder, r.reply)

/-- The common body of `execCmd` and `batchExecCmd`. -/
def execWith (m : RedisMgr) (threadIdx : ℤ) (builder : β) (reply : ρ) (reSend : Bool) :
    Except Stuck (Executed β ρ) := do
  let i ← m.getRedisConnection threadIdx
  match m.vecRedisContext[i]? with
  | none => .error .outOfBounds
  | some connection => do
      let r ← exchange connection.ctx builder reply
      let connection := { connection with ctx := r.ctx }
      if reSend = true ∧ r.ret = RedisErr.io.code then do
        let (w, connection, builder, reply) ← execTaskByTimeOut m.connectionConfig
          (callFun exchange) m.world connection (r.builder, r.reply)
        .ok ⟨redisOk, m.update i connection w, builder, reply⟩
      else .ok ⟨redisOk, m.update i connection m.world, r.builder, r.reply⟩

/-- **What an execution comes down to** when the exchange never returns `REDIS_ERR_IO`:
one exchange, and the code for success whatever came of it. -/
theorem execWith_eq (hret : ∀ c b reply r, exchange c b reply = .ok r → r.ret ≠ RedisErr.io.code)
    {m : RedisMgr} {threadIdx : ℤ} {i : ℕ} {connection : RedisConnection}
    (hi : m.getRedisConnection threadIdx = .ok i)
    (hconnection : m.vecRedisContext[i]? = some connection) (builder : β) (reply : ρ)
    (reSend : Bool) :
    execWith exchange m threadIdx builder reply reSend =
      (exchange connection.ctx builder reply).map fun r =>
        ⟨redisOk, m.update i { connection with ctx := r.ctx } m.world, r.builder, r.reply⟩ := by
  simp only [execWith, hi, bind, Except.bind, hconnection]
  cases hex : exchange connection.ctx builder reply with
  | error e => rfl
  | ok r =>
      have hne := hret _ _ _ r hex
      simp only [Except.map, hne, and_false, if_false]

end Exec

/-- `execCmd` -/
def execCmd (m : RedisMgr) (threadIdx : ℤ) (cmdBuilder : RedisCmdBuilder)
    (reply : Option (Option RedisReply)) (reSend : Bool) :
    Except Stuck (Executed RedisCmdBuilder (Option (Option RedisReply))) :=
  execWith sendAndGetReply m threadIdx cmdBuilder reply reSend

/-- `batchExecCmd` -/
def batchExecCmd (m : RedisMgr) (threadIdx : ℤ) (vecBuilder : List RedisCmdBuilder)
    (vecReply : List RedisReply) (reSend : Bool) :
    Except Stuck (Executed (List RedisCmdBuilder) (List RedisReply)) :=
  execWith pipelineSendAndGetReply m threadIdx vecBuilder vecReply reSend

section Recovery

variable {m : RedisMgr} {threadIdx : ℤ} {i : ℕ} {connection : RedisConnection}
  (hi : m.getRedisConnection threadIdx = .ok i)
  (hconnection : m.vecRedisContext[i]? = some connection)
include hi hconnection

theorem execCmd_eq (b : RedisCmdBuilder) (reply : Option (Option RedisReply)) (reSend : Bool) :
    execCmd m threadIdx b reply reSend = (sendAndGetReply connection.ctx b reply).map fun r =>
      ⟨redisOk, m.update i { connection with ctx := r.ctx } m.world, r.builder, r.reply⟩ :=
  execWith_eq _ (fun _ _ _ _ h => sendAndGetReply_ret_ne h) hi hconnection b reply reSend

theorem batchExecCmd_eq (bs : List RedisCmdBuilder) (vecReply : List RedisReply) (reSend : Bool) :
    batchExecCmd m threadIdx bs vecReply reSend =
      (pipelineSendAndGetReply connection.ctx bs vecReply).map fun r =>
        ⟨redisOk, m.update i { connection with ctx := r.ctx } m.world, r.builder, r.reply⟩ :=
  execWith_eq _ (fun _ _ _ _ h => pipelineSendAndGetReply_ret_ne h) hi hconnection bs vecReply reSend

/-- **A failed exchange is never repeated.**  Whenever the first exchange of a command
fails, `execCmd` returns success without a reply and leaves a context with an error;
`batchExecCmd` does the same with some command unanswered.  No connection attempt is
made, whatever attempts would succeed. -/
theorem exec_never_recovers (reSend : Bool) :
    (∀ ops, (runOps ops).isCommit = true → ∀ first,
      sendAndGetReply connection.ctx (runOps ops) (some none) = .ok first → first.ret = redisErr →
      ∃ r, execCmd m threadIdx (runOps ops) (some none) reSend = .ok r ∧
        r.ret = redisOk ∧ r.reply = some none ∧ r.mgr.world = m.world ∧
        ∃ conn, r.mgr.vecRedisContext[i]? = some conn ∧ conn.ctx.err ≠ 0) ∧
    (∀ opss : List (List BuilderOp), (∀ ops ∈ opss, (runOps ops).isCommit = true) → ∀ first,
      pipelineSendAndGetReply connection.ctx (opss.map runOps) [] = .ok first →
      first.ret = redisErr →
      ∃ r, batchExecCmd m threadIdx (opss.map runOps) [] reSend = .ok r ∧
        r.ret = redisOk ∧ r.reply.length < opss.length ∧ r.mgr.world = m.world ∧
        ∃ conn, r.mgr.vecRedisContext[i]? = some conn ∧ conn.ctx.err ≠ 0) := by
  constructor
  · intro ops hc first hfirst hret
    obtain ⟨herr, hreply⟩ := sendAndGetReply_failed (framed_run ops hc).sendable hfirst hret
    rw [execCmd_eq hi hconnection, hfirst]
    exact ⟨_, rfl, rfl, hreply, rfl, _, RedisMgr.update_getElem? hconnection _ _, herr⟩
  · intro opss hcs first hfirst hret
    have hbs : ∀ b ∈ opss.map runOps, Sendable b := by
      intro b hb
      obtain ⟨ops, hops, rfl⟩ := List.mem_map.mp hb
      exact (framed_run ops (hcs ops hops)).sendable
    obtain ⟨herr, got, hreply, hlt⟩ := pipelineSendAndGetReply_failed hbs hfirst hret
    rw [batchExecCmd_eq hi hconnection, hfirst]
    refine ⟨_, rfl, rfl, ?_, rfl, _, RedisMgr.update_getElem? hconnection _ _, herr⟩
    simpa [hreply] using hlt

end Recovery

/-- A manager whose main connection is broken, while a new one would answer `PONG`. -/
def brokenMgr : RedisMgr where
  vecRedisContext := [{ ctx := freshContext [.failed .other] [] }]
  connectNum := 1
  world := {
    connects := [.connected
      (freshContext [.sent 99] [.chunk [.reply (.status (ascii "PONG"))]]) none (freshContext [] [])]
    clock := [0, 1] }

/-- A `PING` and a batch of two on a broken connection. -/
theorem exec_never_recovers_ping :
    (∃ r, execCmd brokenMgr 0 (runOps pingOps) (some none) true = .ok r ∧
      r.ret = redisOk ∧ r.reply = some none) ∧
    (∃ r, batchExecCmd brokenMgr 0 ([pingOps, pingOps].map runOps) [] true = .ok r ∧
      r.ret = redisOk ∧ r.reply.length < 2) := by
  have hi : brokenMgr.getRedisConnection 0 = .ok 0 := rfl
  have H := exec_never_recovers hi rfl true
  constructor
  · obtain ⟨first, hfirst, hret⟩ := exists_ok_of_map
      (x := sendAndGetReply (freshContext [.failed .other] []) (runOps pingOps) (some none))
      (f := Exchanged.ret) (b := redisErr) (by decide)
    obtain ⟨r, h, hok, hreply, -⟩ := H.1 pingOps (by decide) first hfirst hret
    exact ⟨r, h, hok, hreply⟩
  · obtain ⟨first, hfirst, hret⟩ := exists_ok_of_map
      (x := pipelineSendAndGetReply (freshContext [.failed .other] [])
        ([pingOps, pingOps].map runOps) [])
      (f := Exchanged.ret) (b := redisErr) (by decide)
    obtain ⟨r, h, hok, hlt, -⟩ := H.2 [pingOps, pingOps] (by decide) first hfirst hret
    exact ⟨r, h, hok, hlt⟩

/-- The first exchange fails with an I/O error, a new connection is to be had and would
carry the command; yet the caller gets neither a reply nor a usable context. -/
theorem execCmd_keeps_broken_context :
    (∃ first, sendAndGetReply (freshContext [.failed .other] []) (runOps pingOps) (some none)
        = .ok first ∧ first.ret = redisErr ∧ first.ctx.err = RedisErr.io.code) ∧
    (∃ ctx w second, createRedisContext brokenMgr.connectionConfig brokenMgr.world
        = .ok (some ctx, w) ∧
      sendAndGetReply ctx (runOps pingOps) (some none) = .ok second ∧ second.ret = redisOk) ∧
    ∃ r, execCmd brokenMgr 0 (runOps pingOps) (some none) true = .ok r ∧
      r.reply = some none ∧
      r.mgr.vecRedisContext.map (fun conn => conn.ctx.err) = [RedisErr.io.code] := by
  refine ⟨?_, ?_, ?_⟩
  · obtain ⟨first, hfirst, hobs⟩ := exists_ok_of_map
      (x := sendAndGetReply (freshContext [.failed .other] []) (runOps pingOps) (some none))
      (f := fun r => (r.ret, r.ctx.err)) (b := (redisErr, RedisErr.io.code)) (by decide)
    exact ⟨first, hfirst, (Prod.mk.inj hobs).1, (Prod.mk.inj hobs).2⟩
  · obtain ⟨second, hsecond, hret⟩ := exists_ok_of_map
      (x := sendAndGetReply (freshContext [.sent 99] [.chunk [.reply (.status (ascii "PONG"))]])
        (runOps pingOps) (some none))
      (f := Exchanged.ret) (b := redisOk) (by decide)
    exact ⟨_, _, second, rfl, hsecond, hret⟩
  · obtain ⟨r, h, hobs⟩ := exists_ok_of_map
      (x := execCmd brokenMgr 0 (runOps pingOps) (some none) true)
      (f := fun r => (r.reply.map Option.isSome,
        r.mgr.vecRedisContext.map fun conn => conn.ctx.err))
      (b := (some false, [RedisErr.io.code])) (by decide)
    obtain ⟨hreply, herr⟩ := Prod.mk.inj hobs
    refine ⟨r, h, ?_, herr⟩
    match hr : r.reply with
    | none => simp [hr] at hreply
    | some none => rfl
    | some (some v) => simp [hr] at hreply

end SeedCore.Redis
