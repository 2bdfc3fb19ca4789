import SeedCore.Lib.Triple
import SeedCore.Mysql.Result

/-!
# Connections

`DBConnection`, from `DBConnection.h` and `DBConnection.cpp`, over the part of
libmysqlclient it uses.  The handle remembers the result set that no one has taken yet,
and refuses every command until `mysql_store_result` takes it.  What the server and the
network do is a script of outcomes, one list for each kind of call; a call that finds its
list empty does not return.  Only the rows of a result set arrive, once their list is empty.

## Main definitions

* `MysqlHandle`, `Network`, `DBConnection` — the handle, what lies outside, and the class.
* `mysqlRealQuery`, `mysqlPing`, `mysqlStoreResult` — the library calls.
* `isActive`, `innerExecute`, `execute`, `escapeStringEx` — the operations.
* `Quiet` — what everything but a query leaves as it is.
* `execute_applied` — how often one call applies its statement.
-/

namespace SeedCore.Mysql

/-- What comes of a statement that was sent. -/
inductive QueryOutcome
  /-- It was applied, and success is reported; these are the rows, if it yields any. -/
  | ok (set : ResultSet)
  /-- A failure is reported, whether or not the server applied the statement. -/
  | fail (applied : Bool) (errno : ℕ) (error : Bytes)
  /-- The call does not return. -/
  | hang (applied : Bool)

/-- What comes of any other command. -/
inductive Outcome
  | ok
  | fail (errno : ℕ) (error : Bytes)
  deriving DecidableEq, Repr

/-- What a call of `mysql_real_query` reported, with the result set of the statement if it
yields one. -/
inductive QueryReply
  | success (set : Option ResultSet)
  | failure
  | none

/-- One call of `mysql_real_query`. -/
structure QueryEvent where
  sql : Bytes
  /-- No result set was waiting to be taken. -/
  ready : Bool
  /-- The server applied the statement. -/
  applied : Bool
  reply : QueryReply

/-- The `MYSQL` handle. -/
structure MysqlHandle where
  /-- The result set of the last statement, until it is taken. -/
  pending : Option ResultSet := none
  errno : ℕ := 0
  error : Bytes := []

/-- What lies outside the process: the outcomes to come of each kind of call, the times
that the clock and the stopwatch will show, and the queries issued so far. -/
structure Network where
  /-- The statements that yield a result set. -/
  yields : Bytes → Bool
  queries : List QueryOutcome := []
  pings : List Outcome := []
  connects : List Outcome := []
  charsets : List Outcome := []
  /-- What comes of reading the rows of a result set. -/
  stores : List Outcome := []
  clock : List ℤ := []
  intervals : List ℤ := []
  events : List QueryEvent := []
  /-- `tools::MINUTE` -/
  minute : ℤ := 60000

/-- `ConnectionTraceInfo`, as `tools::Zero` leaves it. -/
structure ConnectionTraceInfo where
  execCount : ℤ := 0
  failCount : ℤ := 0
  maxExecTime : ℤ := 0
  minExecTime : ℤ := 0
  deriving DecidableEq, Repr

/-- `DBConnection`; of the connection information only the character set is looked at. -/
structure DBConnection where
  mysqlHandler : MysqlHandle := {}
  charset : Bytes := []
  traceInfo : ConnectionTraceInfo := {}
  net : Network

/-- A program that works on a connection. -/
abbrev Db := EStateM Stuck DBConnection

/-- `CR_COMMANDS_OUT_OF_SYNC` -/
def crCommandsOutOfSync : ℕ := 2014

/-- The message of `CR_COMMANDS_OUT_OF_SYNC`. -/
def outOfSyncText : Bytes := ascii "Commands out of sync; you can't run this command now"

namespace DBConnection

/-- Record an error in the handle. -/
def setError (conn : DBConnection) (errno : ℕ) (error : Bytes) : DBConnection :=
  { conn with mysqlHandler := { conn.mysqlHandler with errno := errno, error := error } }

/-- Record a call of `mysql_real_query`. -/
def logQuery (conn : DBConnection) (sql : Bytes) (applied : Bool) (reply : QueryReply) :
    DBConnection :=
  { conn with net := { conn.net with
      events := conn.net.events ++ [⟨sql, conn.mysqlHandler.pending.isNone, applied, reply⟩] } }

section

variable (conn : DBConnection)

@[simp] theorem setError_net (errno : ℕ) (error : Bytes) :
    (conn.setError errno error).net = conn.net := rfl

@[simp] theorem logQuery_events (sql : Bytes) (applied : Bool) (reply : QueryReply) :
    (conn.logQuery sql applied reply).net.events = conn.net.events
      ++ [⟨sql, conn.mysqlHandler.pending.isNone, applied, reply⟩] := rfl

end

end DBConnection

/-! ## The library -/

/-- `mysql_real_query`; the value is whether it returned zero. -/
def mysqlRealQuery (sql : Bytes) : Db Bool := fun conn =>
  if conn.mysqlHandler.pending.isSome then
    .ok false ((conn.logQuery sql false .failure).setError crCommandsOutOfSync outOfSyncText)
  else match conn.net.queries with
    | [] => .error .blocked conn
    | .ok set :: rest =>
        let set := if conn.net.yields sql then some set else none
        let conn := { conn with net := { conn.net with queries := rest } }
        let conn := (conn.logQuery sql true (.success set)).setError 0 []
        .ok true { conn with mysqlHandler := { conn.mysqlHandler with pending := set } }
    | .fail applied errno error :: rest =>
        let conn := { conn with net := { conn.net with queries := rest } }
        .ok false ((conn.logQuery sql applied .failure).setError errno error)
    | .hang applied :: rest =>
        let conn := { conn with net := { conn.net with queries := rest } }
        .error .blocked (conn.logQuery sql applied .none)

/-- `mysql_ping` -/
def mysqlPing : Db Bool := fun conn =>
  if conn.mysqlHandler.pending.isSome then
    .ok false (conn.setError crCommandsOutOfSync outOfSyncText)
  else match conn.net.pings with
    | [] => .error .blocked conn
    | .ok :: rest => .ok true ({ conn with net := { conn.net with pings := rest } }.setError 0 [])
    | .fail errno error :: rest =>
        .ok false ({ conn with net := { conn.net with pings := rest } }.setError errno error)

/-- `mysql_close` and `mysql_init` -/
def mysqlCloseInit : Db PUnit := fun conn => .ok ⟨⟩ { conn with mysqlHandler := {} }

/-- `mysql_real_connect` -/
def mysqlRealConnect : Db Bool := fun conn =>
  match conn.net.connects with
  | [] => .error .blocked conn
  | .ok :: rest => .ok true { conn with net := { conn.net with connects := rest } }
  | .fail errno error :: rest =>
      .ok false ({ conn with net := { conn.net with connects := rest } }.setError errno error)

/-- `mysql_set_character_set` -/
def mysqlSetCharacterSet : Db Bool := fun conn =>
  match conn.net.charsets with
  | [] => .error .blocked conn
  | .ok :: rest => .ok true ({ conn with net := { conn.net with charsets := rest } }.setError 0 [])
  | .fail errno error :: rest =>
      .ok false ({ conn with net := { conn.net with charsets := rest } }.setError errno error)

/-- `mysql_store_result`: take the result set, if there is one.  Its rows are read from the
network; if that fails there is an error and no result set, and the handle takes the next
command all the same. -/
def mysqlStoreResult : Db (Option ResultSet) := fun conn =>
  let taken := { conn with mysqlHandler := { conn.mysqlHandler with pending := none } }
  match conn.mysqlHandler.pending, conn.net.stores with
  | none, _ => .ok none taken
  | some set, [] => .ok (some set) taken
  | some set, .ok :: rest => .ok (some set) { taken with net := { conn.net with stores := rest } }
  | some _, .fail errno error :: rest =>
      .ok none ({ taken with net := { conn.net with stores := rest } }.setError errno error)

/-- What `mysql_real_escape_string` makes of one byte, in a character set whose bytes
stand for themselves. -/
def escapeByte (b : UInt8) : Bytes :=
  if b = 0 then ascii "\\0"
  else if b = 10 then ascii "\\n"
  else if b = 13 then ascii "\\r"
  else if b = 26 then ascii "\\Z"
  else if b = 34 ∨ b = 39 ∨ b = 92 then [92, b]
  else [b]

/-- `mysql_real_escape_string` -/
def mysqlRealEscapeString (src : Bytes) : Bytes := src.flatMap escapeByte

/-- `tools::GetTimeMillisecond` -/
def getTimeMillisecond : Db ℤ := fun conn =>
  match conn.net.clock with
  | [] => .error .blocked conn
  | now :: rest => .ok now { conn with net := { conn.net with clock := rest } }

/-- `StopWatch::Interval` -/
def watchInterval : Db ℤ := fun conn =>
  match conn.net.intervals with
  | [] => .error .blocked conn
  | time :: rest => .ok time { conn with net := { conn.net with intervals := rest } }

/-! ## The class -/

/-- The trace information after one execution. -/
def ConnectionTraceInfo.record (info : ConnectionTraceInfo) (execTime : ℤ) (ret : Bool) :
    ConnectionTraceInfo where
  execCount := info.execCount
  failCount := if ret then info.failCount else info.failCount + 1
  maxExecTime := if execTime > info.maxExecTime then toInt32 execTime else info.maxExecTime
  minExecTime := if execTime < info.minExecTime then toInt32 execTime else info.minExecTime

/-- `RECONNECT_TIME_OUT`, in minutes -/
def reconnectTimeOut : ℤ := 30

namespace DBConnection

/-- `open` -/
def openConnection : Db Bool := do
  if ← mysqlRealConnect then
    if (← get).charset = [] then return true
    mysqlSetCharacterSet
  else return false

/-- `reopen` -/
def reopen : Db Bool := do
  mysqlCloseInit
  openConnection

/-- The `while (true)` loop of `isActive`; whether a ping came back before the time was
up.  An iteration that goes on has looked at the clock, which is what `fuel` counts. -/
def pingLoop (start : ℤ) : ℕ → Db Bool
  | 0 => throw .blocked
  | fuel + 1 => do
      if ← mysqlPing then return true
      let now ← getTimeMillisecond
      if now - start > (← get).net.minute * reconnectTimeOut then return false
      pingLoop start fuel

/-- `isActive` -/
def isActive : Db Bool := do
  if ← mysqlPing then return true
  let start ← getTimeMillisecond
  if ← pingLoop start ((← get).net.clock.length + 1) then return true
  reopen

/-- `InnerExecute` -/
def innerExecute (sql : Bytes) : Db Bool := do
  if ← mysqlRealQuery (cstr sql) then return true
  if ← isActive then mysqlRealQuery (cstr sql)
  else return false

/-- `execute` -/
def execute (sql : Bytes) : Db Bool := do
  modify fun conn =>
    { conn with traceInfo := { conn.traceInfo with execCount := conn.traceInfo.execCount + 1 } }
  let ret ← innerExecute sql
  let execTime ← watchInterval
  modify fun conn => { conn with traceInfo := conn.traceInfo.record execTime ret }
  return ret

/-- `EscapeStringEx`: what is left in `pszDest`. -/
def escapeStringEx (src : Bytes) : Db Bytes := do
  let dest := mysqlRealEscapeString src
  if dest.length = 0 then
    if ← isActive then return mysqlRealEscapeString src
  return dest

end DBConnection

/-! ## Everything but a query -/

/-- What everything but a query does to a connection: no query is added, and a result set
that waits is left alone or dropped. -/
structure Settled (c c' : DBConnection) : Prop where
  events_eq : c'.net.events = c.net.events
  yields_eq : c'.net.yields = c.net.yields
  stores_eq : c'.net.stores = c.net.stores
  pending_eq : c'.mysqlHandler.pending = c.mysqlHandler.pending ∨ c'.mysqlHandler.pending = none

theorem Settled.refl (c : DBConnection) : Settled c c := ⟨rfl, rfl, rfl, .inl rfl⟩

/-- Looking whether the connection is alive, and opening it again, is not measured either. -/
structure Quiet (c c' : DBConnection) : Prop extends Settled c c' where
  traceInfo_eq : c'.traceInfo = c.traceInfo
  intervals_eq : c'.net.intervals = c.net.intervals

theorem Quiet.refl (c : DBConnection) : Quiet c c := ⟨.refl c, rfl, rfl⟩

theorem Quiet.trans {c c' c'' : DBConnection} (h : Quiet c c') (h' : Quiet c' c'') : Quiet c c'' where
  events_eq := h'.events_eq.trans h.events_eq
  yields_eq := h'.yields_eq.trans h.yields_eq
  stores_eq := h'.stores_eq.trans h.stores_eq
  pending_eq := h'.pending_eq.elim (fun heq => heq ▸ h.pending_eq) .inr
  traceInfo_eq := h'.traceInfo_eq.trans h.traceInfo_eq
  intervals_eq := h'.intervals_eq.trans h.intervals_eq

section Quiet

variable (c : DBConnection)

theorem quiet_ping : Keeps (Quiet c) mysqlPing := by
  intro s hs
  unfold mysqlPing
  split
  · exact hs.trans ⟨⟨rfl, rfl, rfl, .inl rfl⟩, rfl, rfl⟩
  · split
    · exact hs
    · exact hs.trans ⟨⟨rfl, rfl, rfl, .inl rfl⟩, rfl, rfl⟩
    · exact hs.trans ⟨⟨rfl, rfl, rfl, .inl rfl⟩, rfl, rfl⟩

theorem quiet_closeInit : Keeps (Quiet c) mysqlCloseInit :=
  fun _ hs => hs.trans ⟨⟨rfl, rfl, rfl, .inr rfl⟩, rfl, rfl⟩

theorem quiet_connect : Keeps (Quiet c) mysqlRealConnect := by
  intro s hs
  unfold mysqlRealConnect
  split
  · exact hs
  · exact hs.trans ⟨⟨rfl, rfl, rfl, .inl rfl⟩, rfl, rfl⟩
  · exact hs.trans ⟨⟨rfl, rfl, rfl, .inl rfl⟩, rfl, rfl⟩

theorem quiet_charset : Keeps (Quiet c) mysqlSetCharacterSet := by
  intro s hs
  unfold mysqlSetCharacterSet
  split
  · exact hs
  · exact hs.trans ⟨⟨rfl, rfl, rfl, .inl rfl⟩, rfl, rfl⟩
  · exact hs.trans ⟨⟨rfl, rfl, rfl, .inl rfl⟩, rfl, rfl⟩

theorem quiet_clock : Keeps (Quiet c) getTimeMillisecond := by
  intro s hs
  unfold getTimeMillisecond
  split
  · exact hs
  · exact hs.trans ⟨⟨rfl, rfl, rfl, .inl rfl⟩, rfl, rfl⟩

theorem quiet_get : Keeps (Quiet c) (get : Db DBConnection) := fun _ hs => hs

theorem quiet_reopen : Keeps (Quiet c) DBConnection.reopen := by
  refine .bind (quiet_closeInit c) fun _ => .bind (quiet_connect c) fun connected => ?_
  refine .ite ?_ (.pure _)
  refine .bind (quiet_get c) fun conn => ?_
  exact .ite (.pure _) (quiet_charset c)

theorem quiet_pingLoop (start : ℤ) (fuel : ℕ) :
    Keeps (Quiet c) (DBConnection.pingLoop start fuel) := by
  induction fuel with
  | zero => exact .throw _
  | succ fuel ih =>
      refine .bind (quiet_ping c) fun pong => .ite (.pure _) ?_
      refine .bind (quiet_clock c) fun now => .bind (quiet_get c) fun conn => ?_
      exact .ite (.pure _) ih

/-- Looking whether the connection is alive, and opening it again. -/
theorem quiet_isActive : Keeps (Quiet c) DBConnection.isActive := by
  refine .bind (quiet_ping c) fun pong => .ite (.pure _) ?_
  refine .bind (quiet_clock c) fun start => .bind (quiet_get c) fun conn => ?_
  refine .bind (quiet_pingLoop c start _) fun pong => .ite (.pure _) (quiet_reopen c)

theorem quiet_escapeStringEx (src : Bytes) :
    Keeps (Quiet c) (DBConnection.escapeStringEx src) := by
  refine .ite ?_ (.pure _)
  exact .bind (quiet_isActive c) fun active => .ite (.pure _) (.pure _)

end Quiet

/-! ## One execution -/

/-- What an execution of `sql` that started in `c` has done so far: the queries `new`, of
which only the last can have reported anything but a failure. -/
structure Executed (c : DBConnection) (sql : Bytes) (new : List QueryEvent) (s : DBConnection) :
    Prop where
  events_eq : s.net.events = c.net.events ++ new
  yields_eq : s.net.yields = c.net.yields
  stores_eq : s.net.stores = c.net.stores
  length_le : new.length ≤ 2
  sql_eq : ∀ e ∈ new, e.sql = sql
  failed : ∀ e ∈ new.dropLast, e.reply = .failure
  ready : c.mysqlHandler.pending = none → ∀ e ∈ new, e.ready = true

/-- An execution whose queries, at most `n` so far, all reported a failure. -/
structure Tried (c : DBConnection) (sql : Bytes) (n : ℕ) (new : List QueryEvent)
    (s : DBConnection) : Prop extends Executed c sql new s where
  length_le_bound : new.length ≤ n
  all_failed : ∀ e ∈ new, e.reply = .failure
  pending_none : c.mysqlHandler.pending = none → s.mysqlHandler.pending = none

/-- An execution whose last query succeeded: its result set waits to be taken. -/
structure Succeeded (c : DBConnection) (sql : Bytes) (new : List QueryEvent)
    (s : DBConnection) : Prop extends Executed c sql new s where
  last_eq : ∃ e ∈ new, s.net.events.getLast? = some e ∧
    e.reply = .success s.mysqlHandler.pending
  pending_yields : s.mysqlHandler.pending.isSome → s.net.yields sql = true

theorem Tried.nil (c : DBConnection) (sql : Bytes) (n : ℕ) : Tried c sql n [] c where
  events_eq := by simp
  yields_eq := rfl
  stores_eq := rfl
  length_le := by simp
  sql_eq := by simp
  failed := by simp
  ready := by simp
  length_le_bound := by simp
  all_failed := by simp
  pending_none := fun h => h

theorem Tried.settled {c s s' : DBConnection} {sql : Bytes} {n : ℕ} {new : List QueryEvent}
    (h : Tried c sql n new s) (hs : Settled s s') : Tried c sql n new s' where
  events_eq := hs.events_eq.trans h.events_eq
  yields_eq := hs.yields_eq.trans h.yields_eq
  stores_eq := hs.stores_eq.trans h.stores_eq
  length_le := h.length_le
  sql_eq := h.sql_eq
  failed := h.failed
  ready := h.ready
  length_le_bound := h.length_le_bound
  all_failed := h.all_failed
  pending_none := fun hc => hs.pending_eq.elim (fun heq => heq.trans (h.pending_none hc)) id

/-- One more query after at most one that failed. -/
theorem Tried.snoc {c s s' : DBConnection} {sql : Bytes} {new : List QueryEvent}
    (h : Tried c sql 1 new s) {e : QueryEvent} (hsql : e.sql = sql)
    (hready : e.ready = s.mysqlHandler.pending.isNone)
    (hevents : s'.net.events = s.net.events ++ [e]) (hyields : s'.net.yields = s.net.yields)
    (hstores : s'.net.stores = s.net.stores) :
    Executed c sql (new ++ [e]) s' where
  events_eq := by rw [hevents, h.events_eq, List.append_assoc]
  yields_eq := hyields.trans h.yields_eq
  stores_eq := hstores.trans h.stores_eq
  length_le := by
    have := h.length_le_bound
    simp only [List.length_append, List.length_singleton]
    omega
  sql_eq := by
    intro e' he'
    rcases List.mem_append.mp he' with he' | he'
    · exact h.sql_eq e' he'
    · rw [List.mem_singleton.mp he', hsql]
  failed := by
    rw [List.dropLast_concat]
    exact h.all_failed
  ready := by
    intro hc e' he'
    rcases List.mem_append.mp he' with he' | he'
    · exact h.ready hc e' he'
    · rw [List.mem_singleton.mp he', hready, h.pending_none hc]
      rfl

/-- A failed query leaves the result set that waits, if any, where it is. -/
theorem Tried.snoc_failure {c s s' : DBConnection} {sql : Bytes} {n : ℕ} {new : List QueryEvent}
    (h : Tried c sql n new s) (hn : n ≤ 1) {e : QueryEvent} (hsql : e.sql = sql)
    (hready : e.ready = s.mysqlHandler.pending.isNone) (hreply : e.reply = .failure)
    (hevents : s'.net.events = s.net.events ++ [e]) (hyields : s'.net.yields = s.net.yields)
    (hstores : s'.net.stores = s.net.stores)
    (hpending : s'.mysqlHandler.pending = s.mysqlHandler.pending) :
    Tried c sql (n + 1) (new ++ [e]) s' := by
  have hone : Tried c sql 1 new s := { h with length_le_bound := le_trans h.length_le_bound hn }
  refine { hone.snoc hsql hready hevents hyields hstores with
    length_le_bound := ?_, all_failed := ?_, pending_none := ?_ }
  · have := h.length_le_bound
    simp only [List.length_append, List.length_singleton]
    omega
  · intro e' he'
    rcases List.mem_append.mp he' with he' | he'
    · exact h.all_failed e' he'
    · rw [List.mem_singleton.mp he', hreply]
  · exact fun hc => hpending.trans (h.pending_none hc)

/-- A query that succeeded leaves its result set, if it has one. -/
theorem Tried.snoc_success {c s s' : DBConnection} {sql : Bytes} {new : List QueryEvent}
    (h : Tried c sql 1 new s) {e : QueryEvent} (hsql : e.sql = sql)
    (hready : e.ready = s.mysqlHandler.pending.isNone)
    (hreply : e.reply = .success s'.mysqlHandler.pending)
    (hevents : s'.net.events = s.net.events ++ [e]) (hyields : s'.net.yields = s.net.yields)
    (hstores : s'.net.stores = s.net.stores)
    (hpending : s'.mysqlHandler.pending.isSome → s.net.yields sql = true) :
    Succeeded c sql (new ++ [e]) s' := by
  refine { h.snoc hsql hready hevents hyields hstores with last_eq := ?_, pending_yields := ?_ }
  · refine ⟨e, List.mem_append_right _ List.mem_cons_self, ?_, hreply⟩
    rw [hevents, List.getLast?_concat]
  · rw [hyields]
    exact hpending

/-- **One query.** -/
theorem mysqlRealQuery_spec (c : DBConnection) (sql : Bytes) {n : ℕ} (hn : n ≤ 1) :
    Triple (fun s => ∃ new, Tried c sql n new s) (mysqlRealQuery sql)
      (fun ret s => if ret = true then ∃ new, Succeeded c sql new s
        else ∃ new, Tried c sql (n + 1) new s)
      (fun s => ∃ new, Executed c sql new s) := by
  rintro s ⟨new, h⟩
  have hone : Tried c sql 1 new s := { h with length_le_bound := le_trans h.length_le_bound hn }
  unfold mysqlRealQuery
  split
  · exact ⟨_, h.snoc_failure hn rfl rfl rfl rfl rfl rfl rfl⟩
  · split
    · exact ⟨new, h.toExecuted⟩
    · refine ⟨_, hone.snoc_success rfl rfl rfl rfl rfl rfl ?_⟩
      intro hsome
      by_contra hno
      simp [hno] at hsome
    · exact ⟨_, h.snoc_failure hn rfl rfl rfl rfl rfl rfl rfl⟩
    · exact ⟨_, hone.snoc rfl rfl rfl rfl rfl⟩

/-- The statistics and the stopwatch touch neither the handle nor the queries. -/
structure SameHandle (c c' : DBConnection) : Prop where
  handler_eq : c'.mysqlHandler = c.mysqlHandler
  events_eq : c'.net.events = c.net.events
  yields_eq : c'.net.yields = c.net.yields
  stores_eq : c'.net.stores = c.net.stores

theorem SameHandle.settled {c c' : DBConnection} (h : SameHandle c c') : Settled c c' :=
  ⟨h.events_eq, h.yields_eq, h.stores_eq, .inl (by rw [h.handler_eq])⟩

theorem Succeeded.sameHandle {c s s' : DBConnection} {sql : Bytes} {new : List QueryEvent}
    (h : Succeeded c sql new s) (hs : SameHandle s s') : Succeeded c sql new s' where
  events_eq := hs.events_eq.trans h.events_eq
  yields_eq := hs.yields_eq.trans h.yields_eq
  stores_eq := hs.stores_eq.trans h.stores_eq
  length_le := h.length_le
  sql_eq := h.sql_eq
  failed := h.failed
  ready := h.ready
  last_eq := by
    rw [hs.events_eq, hs.handler_eq]
    exact h.last_eq
  pending_yields := by
    rw [hs.yields_eq, hs.handler_eq]
    exact h.pending_yields

theorem sameHandle_watch (c : DBConnection) : Keeps (SameHandle c) watchInterval := by
  intro s hs
  unfold watchInterval
  split <;> exact ⟨hs.handler_eq, hs.events_eq, hs.yields_eq, hs.stores_eq⟩

/-- What an execution comes to: a statement that succeeded, or queries that failed. -/
def ExecuteEnds (c : DBConnection) (sql : Bytes) (ret : Bool) (s : DBConnection) : Prop :=
  if ret = true then ∃ new, Succeeded c sql new s else ∃ new, Tried c sql 2 new s

theorem ExecuteEnds.sameHandle {c s s' : DBConnection} {sql : Bytes} {ret : Bool}
    (h : ExecuteEnds c sql ret s) (hs : SameHandle s s') : ExecuteEnds c sql ret s' := by
  cases ret with
  | true =>
      obtain ⟨new, h⟩ := h
      exact ⟨new, h.sameHandle hs⟩
  | false =>
      obtain ⟨new, h⟩ := h
      exact ⟨new, h.settled hs.settled⟩

theorem ExecuteEnds.executed {c s : DBConnection} {sql : Bytes} {ret : Bool}
    (h : ExecuteEnds c sql ret s) : ∃ new, Executed c sql new s := by
  cases ret with
  | true =>
      obtain ⟨new, h⟩ := h
      exact ⟨new, h.toExecuted⟩
  | false =>
      obtain ⟨new, h⟩ := h
      exact ⟨new, h.toExecuted⟩

theorem tried_isActive (c : DBConnection) (sql : Bytes) (n : ℕ) :
    Keeps (fun s => ∃ new, Tried c sql n new s) DBConnection.isActive := by
  refine Keeps.along Quiet.refl quiet_isActive ?_
  rintro s s' ⟨new, h⟩ hs
  exact ⟨new, h.settled hs.toSettled⟩

/-- **`InnerExecute`**: a query, and another one if it failed and the connection is
alive. -/
theorem innerExecute_spec (c : DBConnection) (sql : Bytes) :
    Triple (fun s => ∃ new, Tried c (cstr sql) 0 new s) (DBConnection.innerExecute sql)
      (ExecuteEnds c (cstr sql)) (fun s => ∃ new, Executed c (cstr sql) new s) := by
  have weaker : ∀ n s, (∃ new, Tried c (cstr sql) n new s) →
      ∃ new, Executed c (cstr sql) new s := by
    rintro n s ⟨new, h⟩
    exact ⟨new, h.toExecuted⟩
  refine .bind (mysqlRealQuery_spec c (cstr sql) (by omega)) fun ret => ?_
  refine .ite ?_ ?_
  · rintro rfl
    exact .pure fun s hs => hs
  · intro hret
    simp only [if_neg hret]
    refine .bind ((tried_isActive c (cstr sql) 1).stops (weaker 1)) fun active => ?_
    refine .ite (fun _ => mysqlRealQuery_spec c (cstr sql) le_rfl) fun _ => ?_
    refine .pure ?_
    rintro s ⟨new, h⟩
    exact ⟨new, { h with length_le_bound := h.length_le }⟩

/-- **`execute`.** -/
theorem execute_spec (c : DBConnection) (sql : Bytes) :
    Triple (· = c) (DBConnection.execute sql)
      (ExecuteEnds c (cstr sql)) (fun s => ∃ new, Executed c (cstr sql) new s) := by
  have count : Triple (· = c) (modify fun conn : DBConnection =>
      { conn with traceInfo := { conn.traceInfo with execCount := conn.traceInfo.execCount + 1 } } :
        Db PUnit)
      (fun _ s => ∃ new, Tried c (cstr sql) 0 new s) (fun s => ∃ new, Executed c (cstr sql) new s) := by
    rintro s rfl
    exact ⟨[], (Tried.nil s (cstr sql) 0).settled ⟨rfl, rfl, rfl, .inl rfl⟩⟩
  refine .bind count fun _ => .bind (innerExecute_spec c sql) fun ret => ?_
  have watch : Keeps (ExecuteEnds c (cstr sql) ret) watchInterval :=
    Keeps.along (fun s => ⟨rfl, rfl, rfl, rfl⟩) sameHandle_watch fun s s' h hs => h.sameHandle hs
  refine .bind (watch.stops fun s h => h.executed) fun time => ?_
  refine .bind (Q := fun _ => ExecuteEnds c (cstr sql) ret) ?_ fun _ => .pure fun s h => h
  exact fun s h => h.sameHandle ⟨rfl, rfl, rfl, rfl⟩

/-! ## How often a statement is applied -/

/-- The number of queries that the server applied. -/
def appliedCount (events : List QueryEvent) : ℕ := events.countP (·.applied)

/-- **How often one call applies its statement.**  At most twice; and twice only when
the first query reported a failure of a statement that the server had applied. -/
theorem execute_applied (sql : Bytes) (conn : DBConnection) :
    ∃ new, (finalState (DBConnection.execute sql conn)).net.events = conn.net.events ++ new ∧
      (∀ e ∈ new, e.sql = cstr sql) ∧
      (appliedCount new ≤ 1 ∨
        ∃ first second, new = [first, second] ∧ first.applied = true ∧ first.reply = .failure) := by
  obtain ⟨new, h⟩ := (execute_spec conn sql).finalState (F := fun s => ∃ new, Executed conn (cstr sql) new s)
    (fun ret s h => h.executed) (fun s h => h) rfl
  refine ⟨new, h.events_eq, h.sql_eq, ?_⟩
  by_cases hcount : appliedCount new ≤ 1
  · exact .inl hcount
  · right
    have hle : appliedCount new ≤ new.length := List.countP_le_length
    have hlen := h.length_le
    match new, h with
    | [first, second], h =>
        refine ⟨first, second, rfl, ?_, h.failed first List.mem_cons_self⟩
        by_contra hfirst
        have hsecond : appliedCount [second] ≤ 1 := List.countP_le_length
        simp only [appliedCount, List.countP_cons_of_neg hfirst] at hcount hsecond
        exact hcount hsecond
    | [], _ => simp [appliedCount] at hcount
    | [_], _ => simp only [List.length_singleton] at hle; omega
    | _ :: _ :: _ :: _, _ => simp only [List.length_cons] at hlen; omega

/-- A result set with nothing in it. -/
def emptySet : ResultSet := ⟨0, by decide, [], by decide⟩

/-- The reply to the first query is lost after the server applied it, a ping comes back, and
the statement is sent and applied again. -/
theorem execute_applied_twice : ∃ conn : DBConnection, conn.net.events = [] ∧
    appliedCount (finalState
      (DBConnection.execute (ascii "update t set n = n + 1") conn)).net.events = 2 :=
  ⟨{ net := {
      yields := fun _ => false
      queries := [.fail true 2013 (ascii "Lost connection to MySQL server during query"),
        .ok emptySet]
      pings := [.ok]
      intervals := [0] } }, rfl, by decide⟩

end SeedCore.Mysql
