import SeedCore.Lib.Run
import SeedCore.Redis.Builder
import SeedCore.Redis.Hiredis

/-!
# The connection pool

The state of `RedisMgr`: its configuration, its connections and the outcomes of the
calls it will make on the world outside.  `Initialize` opens one connection for the
main thread and `connectNum` more; the two selectors map a thread index and a task id
to one of them.  A reference to a connection is its index in `s_vecRedisContext`.

## Main definitions

* `RedisConnection`, `RedisMgr`, `World` — the state.
* `createRedisContext`, `redisMgrInitialize` — opening connections.
* `getRedisConnection`, `getRedisConnectionInAsync` — selecting one.
* `async_connection_iff` — which queued commands run on the connection they are
  queued on.
-/

namespace SeedCore.Redis

/-- `MAIN_THREAD_IDX` -/
def mainThreadIdx : ℤ := 0

/-- `RedisConnectionConfig`, as the static object is initialised. -/
structure RedisConnectionConfig where
  ip : Bytes := []
  port : ℤ := 0
  connectNum : ℤ := 0
  /-- `connectTV.tv_sec` -/
  tvSec : ℤ := 0
  /-- `connectTV.tv_usec` -/
  tvUsec : ℤ := 0
  passWord : Bytes := []
  reattemptTime : ℤ := 0
  deriving DecidableEq, Repr

/-- The attributes of the `redis` element of the configuration file. -/
structure RedisElement where
  ip : Bytes
  port : ℤ
  connectnum : ℤ
  connecttime : ℤ
  password : Bytes
  deriving DecidableEq, Repr

/-- `LoadConfigFile`; `none` when the file or its `redis` element is missing.  Nothing
sets `reattemptTime`. -/
def loadConfigFile : Option RedisElement → Option RedisConnectionConfig
  | none => none
  | some redisObj => some {
      ip := redisObj.ip
      port := redisObj.port
      connectNum := redisObj.connectnum
      tvSec := if redisObj.connecttime < 0 then 5 else redisObj.connecttime
      tvUsec := 0
      passWord := redisObj.password }

/-- The outcome of `redisConnectWithTimeout`, and of the `AUTH` that may follow it: its
reply, or null, and the context after it. -/
inductive ConnectOutcome
  | null
  | connected (ctx : RedisContext) (authReply : Option RedisReply) (authCtx : RedisContext)

/-- What lies outside the process: connection attempts to come, the values the clock
will show, and the contexts that were freed. -/
structure World where
  connects : List ConnectOutcome
  clock : List ℤ := []
  freed : List ℕ := []

/-- `redisFree` -/
def World.free (w : World) (ctx : RedisContext) : World := { w with freed := w.freed ++ [ctx.id] }

/-- `CreateRedisContext` -/
def createRedisContext (config : RedisConnectionConfig) (w : World) :
    Except Stuck (Option RedisContext × World) :=
  match w.connects with
  | [] => .error .blocked
  | .null :: rest => .ok (none, { w with connects := rest })
  | .connected ctx authReply authCtx :: rest =>
      let w := { w with connects := rest }
      if ctx.err ≠ 0 then .ok (none, w)
      else if config.passWord = [] then .ok (some ctx, w)
      else match authReply with
        -- the test is `reply == nullptr || reply->type != REDIS_REPLY_ERROR`
        | some (.error _) => .ok (some authCtx, w)
        | _ => .ok (none, w.free authCtx)

/-- `RedisTaskHandler`; the connection is given by its index. -/
structure RedisTaskHandler where
  redisConnection : ℕ
  deriving DecidableEq, Repr

/-- `RedisConnection`, with the initial values of the source.  A connection gets its
context and its command list before anything refers to it. -/
structure RedisConnection where
  ctx : RedisContext
  threadCmdList : List RedisCmdBuilder := []
  threadIdx : ℤ := 1
  redisTaskHandler : Option RedisTaskHandler := none
  postTask : Bool := false

/-- The static members of `RedisMgr`. -/
structure RedisMgr where
  connectionConfig : RedisConnectionConfig := {}
  vecRedisContext : List RedisConnection := []
  connectNum : ℤ := 0
  world : World

/-- The loop of `Initialize`, with `n` connections still to open. -/
def initLoop (config : RedisConnectionConfig) :
    ℕ → World → List RedisConnection → Except Stuck (Bool × World × List RedisConnection)
  | 0, w, vec => .ok (true, w, vec)
  | n + 1, w, vec => do
      let (ctx, w) ← createRedisContext config w
      match ctx with
      | none => .ok (false, w, vec)
      | some ctx => initLoop config n w (vec ++ [{ ctx := ctx }])

/-- `Initialize` -/
def redisMgrInitialize (redisObj : Option RedisElement) (w : World) : Except Stuck (Bool × RedisMgr) :=
  match loadConfigFile redisObj with
  | none => .ok (false, { world := w })
  | some config =>
      if config.connectNum + 1 < 2147483648 then do
        let (ok, w, vec) ← initLoop config (config.connectNum + 1).toNat w []
        .ok (ok, {
          connectionConfig := config
          vecRedisContext := vec
          connectNum := if ok then config.connectNum else 0
          world := w })
      else .error .overflow

namespace RedisMgr

/-- `s_vecRedisContext[i]`, as the index that it is. -/
def connectionAt (m : RedisMgr) (i : ℤ) : Except Stuck ℕ :=
  if 0 ≤ i ∧ i.toNat < m.vecRedisContext.length then .ok i.toNat else .error .outOfBounds

/-- `GetRedisConnection`: the remainder is taken in `u32`. -/
def getRedisConnection (m : RedisMgr) (threadIdx : ℤ) : Except Stuck ℕ :=
  if threadIdx = mainThreadIdx then m.connectionAt 0
  else if toUInt32 m.connectNum = 0 then .error .divByZero
  else m.connectionAt (toInt32 (toUInt32 threadIdx % toUInt32 m.connectNum + 1 : ℕ))

/-- `GetRedisConnectionInAsync`: the remainder is taken in `u64`. -/
def getRedisConnectionInAsync (m : RedisMgr) (taskId : ℤ) : Except Stuck ℕ :=
  if toUInt64 m.connectNum = 0 then .error .divByZero
  else m.connectionAt (toUInt64 taskId % toUInt64 m.connectNum + 1 : ℕ)

end RedisMgr

/-! ## The pool after `Initialize` -/

/-- A pool as `Initialize` leaves it: one connection for the main thread and
`connectNum` more, none of which was used. -/
structure Pool (m : RedisMgr) : Prop where
  connectNum_lt : m.connectNum + 1 < 2147483648
  length_eq : m.vecRedisContext.length = (m.connectNum + 1).toNat
  unused : ∀ conn ∈ m.vecRedisContext, ∃ ctx : RedisContext, conn = { ctx := ctx }

theorem initLoop_spec {config : RedisConnectionConfig} {n : ℕ} {w w' : World}
    {vec vec' : List RedisConnection}
    (hvec : ∀ conn ∈ vec, ∃ ctx : RedisContext, conn = { ctx := ctx })
    (h : initLoop config n w vec = .ok (true, w', vec')) :
    vec'.length = vec.length + n ∧ ∀ conn ∈ vec', ∃ ctx : RedisContext, conn = { ctx := ctx } := by
  induction n generalizing w vec with
  | zero =>
      cases h
      exact ⟨rfl, hvec⟩
  | succ n ih =>
      obtain ⟨⟨ctx, w₁⟩, -, h⟩ := bind_eq_ok.mp h
      cases ctx with
      | none => cases h
      | some ctx =>
          obtain ⟨hlen, hunused⟩ := ih (by
            intro conn hconn
            rcases List.mem_append.mp hconn with hconn | hconn
            · exact hvec conn hconn
            · exact ⟨ctx, List.mem_singleton.mp hconn⟩) h
          refine ⟨?_, hunused⟩
          rw [hlen, List.length_append, List.length_singleton]
          omega

theorem pool_of_redisMgrInitialize {redisObj : Option RedisElement} {w : World} {m : RedisMgr}
    (h : redisMgrInitialize redisObj w = .ok (true, m)) : Pool m := by
  unfold redisMgrInitialize at h
  split at h
  · cases h
  · next config _ =>
      split at h
      · next hfits =>
          obtain ⟨⟨ok, w', vec⟩, hloop, h⟩ := bind_eq_ok.mp h
          cases h
          obtain ⟨hlen, hunused⟩ := initLoop_spec (by simp) hloop
          exact ⟨hfits, by simpa using hlen, hunused⟩
      · cases h

namespace Pool

variable {m : RedisMgr} (P : Pool m) (hnum : 1 ≤ m.connectNum)
include P hnum

/-- The connections behind the main one can be selected. -/
theorem connectionAt_eq {i : ℕ} (hi : i < m.connectNum.toNat) :
    m.connectionAt (i + 1 : ℕ) = .ok (i + 1) := by
  have := P.length_eq
  rw [RedisMgr.connectionAt, if_pos ⟨by omega, by omega⟩]
  rfl

/-- A task goes to the connection that its id selects modulo the size of the pool. -/
theorem getRedisConnectionInAsync_eq (taskId : ℤ) :
    m.getRedisConnectionInAsync taskId = .ok (toUInt64 taskId % m.connectNum.toNat + 1) := by
  have hlt := P.connectNum_lt
  have hconv : toUInt64 m.connectNum = m.connectNum.toNat := toUInt64_eq_self (by omega) (by omega)
  rw [RedisMgr.getRedisConnectionInAsync, hconv, if_neg (by omega)]
  exact P.connectionAt_eq hnum (Nat.mod_lt _ (by omega))

/-- Every connection of the pool carries the thread index `1`, and so every handler
runs on the connection that this index selects. -/
theorem getRedisConnection_eq {conn : RedisConnection} (hconn : conn ∈ m.vecRedisContext) :
    m.getRedisConnection conn.threadIdx = .ok (1 % m.connectNum.toNat + 1) := by
  obtain ⟨ctx, rfl⟩ := P.unused conn hconn
  have hlt := P.connectNum_lt
  have hconv : toUInt32 m.connectNum = m.connectNum.toNat := toUInt32_eq_self (by omega) (by omega)
  have hmod : 1 % m.connectNum.toNat < m.connectNum.toNat := Nat.mod_lt _ (by omega)
  have hone : toUInt32 1 = 1 := rfl
  rw [RedisMgr.getRedisConnection, if_neg (show (1 : ℤ) ≠ mainThreadIdx by decide), hconv, if_neg (by omega), hone,
    toInt32_natCast (by omega)]
  exact P.connectionAt_eq hnum hmod

end Pool

/-- The commands queued on connection `i` are written to the context of connection
`i`: it is the one that `OnExecRedisTask` selects with the stored thread index. -/
def RedisMgr.RunsWhereQueued (m : RedisMgr) (i : ℕ) : Prop :=
  ∃ conn, m.vecRedisContext[i]? = some conn ∧ m.getRedisConnection conn.threadIdx = .ok i

theorem Pool.runsWhereQueued_iff {m : RedisMgr} (P : Pool m) (hnum : 1 ≤ m.connectNum) {i : ℕ}
    (hi : (i : ℤ) ≤ m.connectNum) : m.RunsWhereQueued i ↔ i = 1 % m.connectNum.toNat + 1 := by
  have hlen := P.length_eq
  have hlt : i < m.vecRedisContext.length := by omega
  have heq := P.getRedisConnection_eq hnum (List.getElem_mem hlt)
  constructor
  · rintro ⟨conn, hconn, hrun⟩
    rw [List.getElem?_eq_getElem hlt, Option.some.injEq] at hconn
    rw [← hconn, heq] at hrun
    exact (Except.ok.inj hrun).symm
  · intro h
    exact ⟨_, List.getElem?_eq_getElem hlt, by rw [heq, h]⟩

/-- **Which queued commands run on the connection they are queued on.**  All handlers
share one connection, so it is those of the tasks whose id selects that connection;
and it is all of them exactly when the pool has a single one. -/
theorem async_connection_iff {redisObj : Option RedisElement} {w : World} {m : RedisMgr}
    (h : redisMgrInitialize redisObj w = .ok (true, m)) (hnum : 1 ≤ m.connectNum) :
    (∀ taskId, ∃ i, m.getRedisConnectionInAsync taskId = .ok i ∧
      (m.RunsWhereQueued i ↔
        toUInt64 taskId % m.connectNum.toNat = 1 % m.connectNum.toNat)) ∧
    ((∀ i : ℕ, 1 ≤ i → (i : ℤ) ≤ m.connectNum → m.RunsWhereQueued i) ↔ m.connectNum = 1) := by
  have P := pool_of_redisMgrInitialize h
  constructor
  · intro taskId
    refine ⟨_, P.getRedisConnectionInAsync_eq hnum taskId, ?_⟩
    have hmod : toUInt64 taskId % m.connectNum.toNat < m.connectNum.toNat :=
      Nat.mod_lt _ (by omega)
    rw [P.runsWhereQueued_iff hnum (by omega)]
    omega
  · constructor
    · intro hall
      by_contra hne
      have hfirst := (P.runsWhereQueued_iff hnum (i := 1) (by omega)).mp (hall 1 le_rfl (by omega))
      rw [Nat.mod_eq_of_lt (by omega)] at hfirst
      omega
    · intro hone i hlo hhi
      rw [P.runsWhereQueued_iff hnum hhi, hone, Int.toNat_one, Nat.mod_self]
      omega

/-- A configuration without a password. -/
def exampleElement (connectnum : ℤ) : RedisElement :=
  { ip := ascii "127.0.0.1", port := 6379, connectnum := connectnum, connecttime := 5, password := [] }

/-- A connection attempt that succeeds, with the context numbered `id`. -/
def connectOk (id : ℕ) : ConnectOutcome :=
  .connected { id := id, sock := { sends := [], reads := [] } } none
    { sock := { sends := [], reads := [] } }

/-- A pool of one: every task runs where it is queued. -/
theorem async_connection_one :
    ∃ m, redisMgrInitialize (some (exampleElement 1)) { connects := [connectOk 0, connectOk 1] }
        = .ok (true, m) ∧
      ∀ i : ℕ, 1 ≤ i → (i : ℤ) ≤ m.connectNum → m.RunsWhereQueued i := by
  obtain ⟨⟨ok, m⟩, h, hobs⟩ := exists_ok_of_map
    (x := redisMgrInitialize (some (exampleElement 1)) { connects := [connectOk 0, connectOk 1] })
    (f := fun r => (r.1, r.2.connectNum)) (b := (true, 1)) (by decide)
  obtain ⟨rfl, hnum⟩ := Prod.mk.inj hobs
  have hnum : m.connectNum = 1 := hnum
  exact ⟨m, h, (async_connection_iff h (by omega)).2.mpr hnum⟩

/-- A pool of two: what task `0` queues on the first connection is written to the
second one. -/
theorem async_connection_two :
    ∃ m, redisMgrInitialize (some (exampleElement 2))
        { connects := [connectOk 0, connectOk 1, connectOk 2] } = .ok (true, m) ∧
      m.getRedisConnectionInAsync 0 = .ok 1 ∧
      (∃ conn, m.vecRedisContext[1]? = some conn ∧ m.getRedisConnection conn.threadIdx = .ok 2) ∧
      ¬ m.RunsWhereQueued 1 := by
  obtain ⟨⟨ok, m⟩, h, hobs⟩ := exists_ok_of_map
    (x := redisMgrInitialize (some (exampleElement 2))
      { connects := [connectOk 0, connectOk 1, connectOk 2] })
    (f := fun r => (r.1, (r.2.getRedisConnectionInAsync 0).toOption,
      (r.2.vecRedisContext[1]?.map fun conn => (r.2.getRedisConnection conn.threadIdx).toOption)))
    (b := (true, some 1, some (some 2))) (by decide)
  obtain ⟨rfl, hobs⟩ := Prod.mk.inj hobs
  obtain ⟨hasync, hrun⟩ := Prod.mk.inj hobs
  obtain ⟨conn, hconn, hrun⟩ := Option.map_eq_some_iff.mp hrun
  have ok_of_toOption : ∀ {x : Except Stuck ℕ} {i : ℕ}, x.toOption = some i → x = .ok i := by
    rintro (e | j) i hx
    · cases hx
    · exact congrArg Except.ok (Option.some.inj hx)
  have hrun := ok_of_toOption hrun
  refine ⟨m, h, ok_of_toOption hasync, ⟨conn, hconn, hrun⟩, ?_⟩
  rintro ⟨conn', hconn', hrun'⟩
  obtain rfl : conn = conn' := Option.some.inj (hconn.symm.trans hconn')
  rw [hrun] at hrun'
  cases hrun'

end SeedCore.Redis
