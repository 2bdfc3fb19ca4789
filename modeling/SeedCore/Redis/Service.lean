import SeedCore.Redis.Client
import SeedCore.Redis.Collections

/-!
# The pool as one server

Requests of any threads, each an operation on the connection of its thread, against one
server that all connections lead to.  As long as the connections stay up, the callers get
what the server would answer to the same requests, one after the other, without any
connection in between.

## Main definitions

* `Request`, `execAll` — requests to the client.
* `answerAll` — the same requests to the server itself.
* `execAll_answers` — they give the same results.
* `Implements` — a server that handles the commands of collections as the reference does.
* `read_across_threads` — what one thread writes, any other reads.
-/

namespace SeedCore.Redis

/-- An operation whose output is turned into something else. -/
def SyncOp.into {α β : Type} (op : SyncOp α) (f : α → β) : SyncOp β where
  args := op.args
  reSend := op.reSend
  wantsReply := op.wantsReply
  finish ret reply := (op.finish ret reply).map fun r => (r.1, f r.2)

/-- An operation and the thread that runs it. -/
structure Request (β : Type) where
  threadIdx : ℤ
  op : SyncOp β

section Requests

variable {β S : Type}

/-- The command that a request sends. -/
def Request.command (q : Request β) : List Bytes := argBytes q.op.args

/-- Requests to the client, one after the other: the codes and outputs, and the manager
after them. -/
def execAll (m : RedisMgr) : List (Request β) → Except Stuck (List (ℤ × β) × RedisMgr)
  | [] => .ok ([], m)
  | q :: qs => do
      let (code, out, m) ← q.op.exec m q.threadIdx
      let (rest, m) ← execAll m qs
      .ok ((code, out) :: rest, m)

section Server

variable (srv : S → List Bytes → RedisReply × S)

/-- The same requests to the server: its replies, and what the operations make of them. -/
def answerAll : S → List (Request β) → Except Stuck (List (ℤ × β) × S)
  | db, [] => .ok ([], db)
  | db, q :: qs => do
      let result ← q.op.finish redisOk
        (if q.op.wantsReply then some (srv db q.command).1 else none)
      let (rest, db) ← answerAll (srv db q.command).2 qs
      .ok (result :: rest, db)

/-- The commands on connection `i`, each with the reply to it. -/
def traffic (m : RedisMgr) (i : ℕ) : S → List (Request β) → List (List Bytes × RedisReply)
  | _, [] => []
  | db, q :: qs =>
      let rest := traffic m i (srv db q.command).2 qs
      if m.route q.threadIdx = some i then (q.command, (srv db q.command).1) :: rest else rest

/-- Connection `i` will carry this traffic. -/
def Carries (c : RedisContext) (exchanges : List (List Bytes × RedisReply)) : Prop :=
  Online c (exchanges.map Prod.fst) (exchanges.map Prod.snd)

end Server

/-! ## One request -/

/-- Where the reply goes makes no difference to the exchange. -/
theorem sendAndGetReply_none (c : RedisContext) (b : RedisCmdBuilder) :
    sendAndGetReply c b none
      = (sendAndGetReply c b (some none)).map fun r => { r with reply := none } := by
  unfold sendAndGetReply
  split
  · rfl
  · unfold redisGetReplyInner
    cases redisBufferWriteInner { c with obuf := b.seek } b.cmd with
    | error e => rfl
    | ok w =>
        obtain ⟨ret, c₁, cmd'⟩ := w
        simp only [bind, Except.bind]
        split
        · rfl
        · cases readReply c₁ with
          | error e => rfl
          | ok x =>
              obtain ⟨_ | v, c₂⟩ := x
              · rfl
              · rfl

/-- **A request on a connection that carries it.** -/
theorem exec_answers {op : SyncOp β} {m : RedisMgr} {threadIdx : ℤ} {i : ℕ}
    {connection : RedisConnection} (hi : m.getRedisConnection threadIdx = .ok i)
    (hconnection : m.vecRedisContext[i]? = some connection) {r : RedisReply}
    {exchanges : List (List Bytes × RedisReply)}
    (hsize : (Resp.command (argBytes op.args)).length < 2147483648)
    (h : Carries connection.ctx ((argBytes op.args, r) :: exchanges)) {result : ℤ × β}
    (hfinish : op.finish redisOk (if op.wantsReply then some r else none) = .ok result) :
    ∃ c, op.exec m threadIdx
        = .ok (result.1, result.2, m.update i { connection with ctx := c } m.world) ∧
      Carries c exchanges ∧
      serverInput c.sock.log
        = serverInput connection.ctx.sock.log ++ Resp.command (argBytes op.args) := by
  obtain ⟨x, hsend, hreply, honline, hinput⟩ := sendAndGetReply_online hsize h
  refine ⟨x.ctx, ?_, honline, hinput⟩
  have hexec := execCmd_eq hi hconnection op.cmdBuilder
    (if op.wantsReply then some none else none) op.reSend
  rw [SyncOp.exec, hexec]
  cases hwants : op.wantsReply with
  | true =>
      rw [hwants, if_pos rfl] at hfinish
      rw [if_pos rfl, SyncOp.cmdBuilder, hsend]
      simp only [Except.map, bind, Except.bind, hreply, Option.join_some, hfinish]
  | false =>
      rw [hwants, if_neg Bool.false_ne_true] at hfinish
      rw [if_neg Bool.false_ne_true, sendAndGetReply_none, SyncOp.cmdBuilder, hsend]
      simp only [Except.map, bind, Except.bind, Option.join_none, hfinish]

/-! ## Every list of requests -/

/-- The selected connection is one of the pool. -/
theorem exists_connection {m : RedisMgr} {threadIdx : ℤ} {i : ℕ}
    (h : m.getRedisConnection threadIdx = .ok i) :
    ∃ connection, m.vecRedisContext[i]? = some connection := by
  have hlt : ∀ j, m.connectionAt j = .ok i → i < m.vecRedisContext.length := by
    intro j hj
    unfold RedisMgr.connectionAt at hj
    split at hj
    · next hrange =>
        cases hj
        exact hrange.2
    · cases hj
  unfold RedisMgr.getRedisConnection at h
  refine ⟨_, List.getElem?_eq_getElem (?_ : i < m.vecRedisContext.length)⟩
  split at h
  · exact hlt _ h
  · split at h
    · cases h
    · exact hlt _ h

/-- What travels on a connection depends on the selection only. -/
theorem traffic_congr (srv : S → List Bytes → RedisReply × S) {m m' : RedisMgr}
    (h : ∀ threadIdx, m'.route threadIdx = m.route threadIdx) (i : ℕ) (db : S)
    (qs : List (Request β)) : traffic srv m' i db qs = traffic srv m i db qs := by
  induction qs generalizing db with
  | nil => rfl
  | cons q qs ih => simp only [traffic, ih, h]

/-- **The step.**  The first request is answered; its connection has carried one exchange,
and the others are as they were. -/
theorem exec_step (srv : S → List Bytes → RedisReply × S) {m : RedisMgr} {db : S} {q : Request β}
    {qs : List (Request β)} {i : ℕ} (hi : m.getRedisConnection q.threadIdx = .ok i)
    (hsize : (Resp.command q.command).length < 2147483648)
    (hcarries : ∀ j connection, m.vecRedisContext[j]? = some connection →
      Carries connection.ctx (traffic srv m j db (q :: qs))) {result : ℤ × β}
    (hfinish : q.op.finish redisOk (if q.op.wantsReply then some (srv db q.command).1 else none)
      = .ok result) :
    ∃ m', q.op.exec m q.threadIdx = .ok (result.1, result.2, m') ∧
      m'.connectNum = m.connectNum ∧ m'.vecRedisContext.length = m.vecRedisContext.length ∧
      ∀ j connection, m.vecRedisContext[j]? = some connection →
        ∃ connection', m'.vecRedisContext[j]? = some connection' ∧
          Carries connection'.ctx (traffic srv m j (srv db q.command).2 qs) ∧
          serverInput connection'.ctx.sock.log = serverInput connection.ctx.sock.log
            ++ if i = j then Resp.command q.command else [] := by
  obtain ⟨connection, hconnection⟩ := exists_connection hi
  have hroute : m.route q.threadIdx = some i := by
    rw [RedisMgr.route, hi]
    rfl
  have hcarry := hcarries i connection hconnection
  rw [traffic, hroute, if_pos rfl] at hcarry
  obtain ⟨c, hexec, hcarry', hinput⟩ := exec_answers hi hconnection hsize hcarry hfinish
  refine ⟨_, hexec, rfl, List.length_set, ?_⟩
  intro j connection₀ hconnection₀
  by_cases hij : i = j
  · subst hij
    obtain rfl : connection = connection₀ := Option.some.inj (hconnection.symm.trans hconnection₀)
    exact ⟨_, RedisMgr.update_getElem? hconnection _ _, hcarry', by rw [if_pos rfl]; exact hinput⟩
  · have hother := hcarries j connection₀ hconnection₀
    rw [traffic, hroute, if_neg (by simpa using hij)] at hother
    refine ⟨connection₀, ?_, hother, by rw [if_neg hij, List.append_nil]⟩
    rw [RedisMgr.update, List.getElem?_set_ne hij]
    exact hconnection₀

/-- **The client is transparent.**  Requests of any threads, on connections that stay up,
give the results of the same requests made to the server itself, one after the other;
and every connection ends quiet, having carried the commands of its own threads. -/
theorem execAll_answers (srv : S → List Bytes → RedisReply × S) {m : RedisMgr} {db db' : S}
    {qs : List (Request β)} (hroute : ∀ q ∈ qs, ∃ i, m.getRedisConnection q.threadIdx = .ok i)
    (hsize : ∀ q ∈ qs, (Resp.command q.command).length < 2147483648)
    (hcarries : ∀ i connection, m.vecRedisContext[i]? = some connection →
      Carries connection.ctx (traffic srv m i db qs))
    {results : List (ℤ × β)} (h : answerAll srv db qs = .ok (results, db')) :
    ∃ m', execAll m qs = .ok (results, m') ∧
      ∀ i connection, m.vecRedisContext[i]? = some connection →
        ∃ connection', m'.vecRedisContext[i]? = some connection' ∧ Carries connection'.ctx [] ∧
          serverInput connection'.ctx.sock.log = serverInput connection.ctx.sock.log
            ++ ((traffic srv m i db qs).map Prod.fst).flatMap Resp.command := by
  induction qs generalizing m db results with
  | nil =>
      cases h
      refine ⟨m, rfl, ?_⟩
      intro i connection hconnection
      exact ⟨connection, hconnection, hcarries i connection hconnection, (List.append_nil _).symm⟩
  | cons q qs ih =>
      obtain ⟨result, hfinish, h⟩ := bind_eq_ok.mp h
      obtain ⟨⟨rest, db''⟩, hrest, h⟩ := bind_eq_ok.mp h
      cases h
      obtain ⟨⟨i, hi⟩, hroute⟩ := List.forall_mem_cons.mp hroute
      obtain ⟨hq, hsize⟩ := List.forall_mem_cons.mp hsize
      obtain ⟨m₁, hexec, hnum, hlen, hstep⟩ := exec_step srv hi hq hcarries hfinish
      have hsame : ∀ threadIdx, m₁.getRedisConnection threadIdx = m.getRedisConnection threadIdx :=
        getRedisConnection_congr hnum hlen
      have htraffic : ∀ j, traffic srv m₁ j (srv db q.command).2 qs
          = traffic srv m j (srv db q.command).2 qs := fun j =>
        traffic_congr srv (fun threadIdx => by rw [RedisMgr.route, RedisMgr.route, hsame]) j _ qs
      have hroute' : ∀ q ∈ qs, ∃ i, m₁.getRedisConnection q.threadIdx = .ok i := by
        intro q' hq'
        rw [hsame]
        exact hroute q' hq'
      have hcarries' : ∀ j connection, m₁.vecRedisContext[j]? = some connection →
          Carries connection.ctx (traffic srv m₁ j (srv db q.command).2 qs) := by
        intro j connection₁ hconnection₁
        have hlt : j < m.vecRedisContext.length := by
          rw [← hlen]
          exact (List.getElem?_eq_some_iff.mp hconnection₁).1
        obtain ⟨connection', hconnection', hcarry, -⟩ := hstep j _ (List.getElem?_eq_getElem hlt)
        obtain rfl : connection' = connection₁ :=
          Option.some.inj (hconnection'.symm.trans hconnection₁)
        rw [htraffic]
        exact hcarry
      obtain ⟨m', hexecAll, hfinal⟩ := ih hroute' hsize hcarries' hrest
      refine ⟨m', ?_, ?_⟩
      · rw [execAll, hexec]
        simp only [bind, Except.bind, hexecAll]
      · intro j connection hconnection
        obtain ⟨connection₁, hconnection₁, -, hinput₁⟩ := hstep j connection hconnection
        obtain ⟨connection', hconnection', hquiet, hinput'⟩ := hfinal j connection₁ hconnection₁
        refine ⟨connection', hconnection', hquiet, ?_⟩
        rw [hinput', hinput₁, htraffic, List.append_assoc, traffic, RedisMgr.route, hi]
        by_cases hij : i = j
        · simp [hij, Except.toOption]
        · simp [hij, Except.toOption]

end Requests

/-- The reference with one more command, `DEL key`. -/
def serveWithDel (listing : List (Bytes × Bytes) → List (Bytes × Bytes)) (db : Keyspace)
    (args : List Bytes) : RedisReply × Keyspace :=
  match args with
  | [name, key] =>
      if name = ascii "DEL" then
        (.integer (if (db key).isSome then 1 else 0), fun k => if k = key then none else db k)
      else serve listing db [name, key]
  | args => serve listing db args

/-- The main connection takes one command, the other one three. -/
def serviceMgr : RedisMgr where
  vecRedisContext := [
    { ctx := freshContext (List.replicate 80 (.sent 9)) [.chunk [], .chunk [.reply statusOk]] },
    { ctx := freshContext (List.replicate 120 (.sent 9)) [.chunk [.reply statusOk],
        .chunk [.reply (.integer 1)], .chunk [.reply (.array (listed exampleMap.entries.reverse))]] }]
  connectNum := 1
  world := { connects := [] }

/-- Strings under another key. -/
def otherMap : StringMap := OrderedMap.empty.emplaceAll [(ascii "other", [0])]

/-- Another thread writes them and deletes them. -/
def serviceBetween : List (Request StringMap) :=
  [⟨1, (SyncCall.mSet otherMap).into fun _ => .empty⟩,
    ⟨1, (SyncCall.del (ascii "other")).into fun _ => .empty⟩]

/-- The main thread writes a hash, and in the end the other one reads it. -/
def serviceRequests : List (Request StringMap) :=
  [] ++ ⟨0, (SyncCall.hMSet (ascii "k") exampleMap).into fun _ => .empty⟩ :: serviceBetween ++
    [⟨1, (SyncCall.hGetAll (ascii "k")).into id⟩]

theorem serviceRequests_routed :
    ∀ q ∈ serviceRequests, ∃ i, serviceMgr.getRedisConnection q.threadIdx = .ok i := by
  simp only [serviceRequests, serviceBetween, List.nil_append, List.cons_append,
    List.forall_mem_cons]
  exact ⟨⟨0, rfl⟩, ⟨1, rfl⟩, ⟨1, rfl⟩, ⟨1, rfl⟩, by simp⟩

theorem serviceRequests_sized :
    ∀ q ∈ serviceRequests, (Resp.command q.command).length < 2147483648 := by decide +kernel

theorem serviceMgr_carries : ∀ i connection, serviceMgr.vecRedisContext[i]? = some connection →
    Carries connection.ctx (traffic (serveWithDel List.reverse) serviceMgr i (fun _ => none)
      serviceRequests) := by
  have hsent : ∀ n, ∀ o ∈ List.replicate n (SendOutcome.sent 9), o.isSent = true := by
    intro n o ho
    rw [List.eq_of_mem_replicate ho]
    rfl
  intro i connection hconnection
  match i with
  | 0 =>
      obtain rfl := Option.some.inj hconnection
      exact ⟨rfl, rfl, hsent 80, by decide +kernel, .wait (.reply (.nil _))⟩
  | 1 =>
      obtain rfl := Option.some.inj hconnection
      exact ⟨rfl, rfl, hsent 120, by decide +kernel, .reply (.reply (.reply (.nil _)))⟩
  | i + 2 => cases hconnection

/-- The second connection has carried the commands of its thread, and none of the main
thread. -/
theorem execAll_answers_two : ∃ m' results connection,
    execAll serviceMgr serviceRequests = .ok (results, m') ∧
      m'.vecRedisContext[1]? = some connection ∧
      serverInput connection.ctx.sock.log = Resp.command [ascii "MSET", ascii "other", [0]]
        ++ Resp.command [ascii "DEL", ascii "other"] ++ Resp.command [ascii "HGETALL", ascii "k"] := by
  obtain ⟨⟨results, db'⟩, hanswers, -⟩ := exists_ok_of_map
    (x := answerAll (serveWithDel List.reverse) (fun _ => none) serviceRequests)
    (f := fun r => r.1.length) (b := 4) (by decide +kernel)
  obtain ⟨m', hexec, hfinal⟩ := execAll_answers (serveWithDel List.reverse) serviceRequests_routed
    serviceRequests_sized serviceMgr_carries hanswers
  obtain ⟨connection, hconnection, -, hinput⟩ := hfinal 1 _ rfl
  exact ⟨m', results, connection, hexec, hconnection, hinput.trans (by decide +kernel)⟩

/-! ## Reading across threads -/

/-- The reply says that the command was carried out. -/
def RedisReply.succeeded : RedisReply → Bool
  | .error _ => false
  | _ => true

section Server

variable {S : Type} (listing : List (Bytes × Bytes) → List (Bytes × Bytes))
  (srv : S → List Bytes → RedisReply × S) (keyspace : S → Keyspace)

variable {srv keyspace}

end Server

section Reference

variable (listing : List (Bytes × Bytes) → List (Bytes × Bytes)) (db : Keyspace)

/-- An operation that writes, one that reads, the keys they are about, and what the one
writes there and the other is to read. -/
inductive Stores (db : Keyspace) : {α γ : Type} → SyncOp α → SyncOp γ → List Bytes → γ → Prop
  /-- A hash under a key that is not in use. -/
  | hash {strKey : Bytes} {mapFileds : StringMap} (hne : mapFileds.entries ≠ [])
      (habsent : db strKey = none) :
      Stores db (SyncCall.hMSet strKey mapFileds) (SyncCall.hGetAll strKey) [strKey] mapFileds
  /-- A list under a key that is not in use. -/
  | list {strKey : Bytes} {vecValue : StringVector} {iLen : ℕ} (hne : vecValue ≠ [])
      (habsent : db strKey = none) :
      Stores db (SyncCall.pushListTailBatch strKey vecValue iLen)
        (SyncCall.getListByRange strKey 0 (vecValue.length - 1)) [strKey] vecValue
  /-- Strings. -/
  | strings {mapFileds : StringMap} (hne : mapFileds.entries ≠ []) :
      Stores db (SyncCall.mSet mapFileds) (SyncCall.mGet (mapFileds.entries.map Prod.fst))
        (mapFileds.entries.map Prod.fst) (mapFileds.entries.map Prod.snd)

/-- **The operation that reads** asks for the reply, and makes of it what was written, from
every keyspace that still holds it; the reference carries out both commands. -/
theorem Stores.read_eq (hlisting : ∀ fields, (listing fields).Perm fields) {α γ : Type}
    {write : SyncOp α} {read : SyncOp γ} {keys : List Bytes} {x : γ}
    (h : Stores db write read keys x)
    (hsize : (Resp.command (argBytes write.args)).length < 2147483648) {db' : Keyspace}
    (hdb : ∀ k ∈ keys, db' k = (serve listing db (argBytes write.args)).2 k) :
    (serve listing db (argBytes write.args)).1.succeeded = true ∧
      (serve listing db' (argBytes read.args)).1.succeeded = true ∧ read.wantsReply = true ∧
      read.finish redisOk (some (serve listing db' (argBytes read.args)).1)
        = .ok (redisResultOk, x) := by
  cases h with
  | @hash strKey mapFileds hne habsent =>
      have hserve := serve_hMSet_entries listing db hne habsent
      have hstored : db' strKey = some (.hash mapFileds.entries) := by
        rw [hdb strKey (List.mem_singleton_self _), hserve]
        exact Keyspace.store_self db _ _
      exact ⟨by rw [hserve]; rfl, by rw [serve_hGetAll_entries listing db' hstored]; rfl, rfl,
        read_hash listing db' hlisting hne (entries_length_lt hsize) hstored⟩
  | @list strKey vecValue iLen hne habsent =>
      have hserve := serve_pushListTailBatch listing db iLen hne habsent
      have hstored : db' strKey = some (.list vecValue) := by
        rw [hdb strKey (List.mem_singleton_self _), hserve]
        exact Keyspace.store_self db _ _
      exact ⟨by rw [hserve]; rfl, by rw [serve_getListByRange_all listing db' hne hstored]; rfl, rfl,
        read_list listing db' hne hstored⟩
  | @strings mapFileds hne =>
      have hserve := serve_mSet_entries listing db hne
      have hstored : ∀ p ∈ mapFileds.entries, db' p.1 = some (.string p.2) := by
        intro p hp
        rw [hdb p.1 (List.mem_map_of_mem hp), hserve]
        exact foldl_store_of_mem db mapFileds.nodup_keys hp
      exact ⟨by rw [hserve]; rfl, by rw [serve_mGet_entries listing db' hne hstored]; rfl, rfl,
        read_strings listing db' hne hstored⟩

end Reference

end SeedCore.Redis
