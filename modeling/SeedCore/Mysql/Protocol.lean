import SeedCore.Mysql.Connection

/-!
# Staying in protocol

The operations of `MysqlBase` and `MysqlMgr` that send statements over a connection.  A
statement that yields a result set leaves it with the handle until `MysqlResult::Init`
takes it; only some of the operations do that.

## Main definitions

* `HandlerOp`, `MysqlBase.onExecute` — what a handler does, and the task that runs it.
* `Operation` — everything that sends statements over one connection.
* `InProtocol` — every query was issued while no result set was waiting.
* `runAll_inProtocol` — the operations that stay in protocol.
-/

namespace SeedCore.Mysql

/-! ## The operations -/

/-- What `ExecSql` of a handler does with its two arguments. -/
inductive HandlerOp
  /-- `callBackFun(sql)` -/
  | exec (sql : Bytes)
  /-- `pEscapeStrHandler->EscapeString(src)` -/
  | escape (src : Bytes)
  deriving DecidableEq, Repr

/-- A statement that a handler submitted, with the last query issued for it and the error
that the handle holds right after it. -/
structure Submission where
  sql : Bytes
  ret : Bool
  last : Option QueryEvent
  errno : ℕ
  error : Bytes

/-- `ExecSql`, with the value of `ret` in `OnExecute` and what was submitted so far. -/
def execSql : List HandlerOp → Bool → List Submission → Db (Bool × List Submission)
  | [], ret, subs => return (ret, subs)
  | .exec sql :: rest, _, subs => do
      let ret ← DBConnection.execute sql
      let conn ← get
      execSql rest ret (subs ++ [⟨sql, ret, conn.net.events.getLast?, conn.mysqlHandler.errno,
        conn.mysqlHandler.error⟩])
  | .escape src :: rest, ret, subs => do
      let _ ← DBConnection.escapeStringEx src
      execSql rest ret subs

/-- The outcome fields of `MysqlBase`; `_erorCode` has no value before it is assigned. -/
structure MysqlBase where
  result : MysqlResult := {}
  erorCode : Option ℤ := none
  errorInfo : Bytes := []

/-- `Init` on a handle. -/
def initResult : Db MysqlResult := do
  match MysqlResult.init (← mysqlStoreResult) with
  | .ok result => return result
  | .error stuck => throw stuck

/-- `OnExecute`, with the statements that the handler submitted. -/
def MysqlBase.onExecute (base : MysqlBase) (body : List HandlerOp) :
    Db (Bool × MysqlBase × List Submission) := do
  let (ret, subs) ← execSql body false []
  if ret then
    let result ← initResult
    return (ret, { base with result := result }, subs)
  else
    let conn ← get
    return (ret, { base with
      erorCode := some (toInt32 conn.mysqlHandler.errno)
      errorInfo := cstr conn.mysqlHandler.error }, subs)

/-- `ExecSqlInAsyncThread` on its connection. -/
def execSqlInAsyncThread (sql : Bytes) : Db Bool := DBConnection.execute sql

/-- `ExecSqlInAsyncThread` with `cbFun`, which may be empty; the value holds what `cbFun`
is called with. -/
def execSqlInAsyncThreadCb (sql : Bytes) (cbFun : Bool) : Db (Bool × Option MysqlResult) := do
  if ← DBConnection.execute sql then
    if cbFun then
      let result ← initResult
      return (true, some result)
    else return (true, none)
  else return (false, none)

/-- An operation on one connection. -/
inductive Operation
  /-- A handler that was pushed, and what its `ExecSql` does. -/
  | handler (body : List HandlerOp)
  | exec (sql : Bytes)
  | execCb (sql : Bytes) (cbFun : Bool)
  | escape (src : Bytes)
  deriving DecidableEq, Repr

/-- Carry out an operation. -/
def Operation.run : Operation → Db PUnit
  | .handler body => do
      let _ ← MysqlBase.onExecute {} body
  | .exec sql => do
      let _ ← execSqlInAsyncThread sql
  | .execCb sql cbFun => do
      let _ ← execSqlInAsyncThreadCb sql cbFun
  | .escape src => do
      let _ ← DBConnection.escapeStringEx src

/-- Carry out operations one after the other. -/
def runAll : List Operation → Db PUnit
  | [] => return ⟨⟩
  | op :: ops => do
      op.run
      runAll ops

/-! ## In protocol -/

/-- Every query was issued while no result set was waiting. -/
def InProtocol (conn : DBConnection) : Prop := ∀ e ∈ conn.net.events, e.ready = true

/-- The connection is in protocol and takes the next command. -/
structure Ready (yields : Bytes → Bool) (conn : DBConnection) : Prop where
  inProtocol : InProtocol conn
  yields_eq : conn.net.yields = yields
  pending_none : conn.mysqlHandler.pending = none

/-- The statements that a handler submits. -/
def sqls : List HandlerOp → List Bytes
  | [] => []
  | .exec sql :: rest => sql :: sqls rest
  | .escape _ :: rest => sqls rest

@[simp] theorem sqls_nil : sqls [] = [] := rfl

@[simp] theorem sqls_exec (sql : Bytes) (rest : List HandlerOp) :
    sqls (.exec sql :: rest) = sql :: sqls rest := rfl

@[simp] theorem sqls_escape (src : Bytes) (rest : List HandlerOp) :
    sqls (.escape src :: rest) = sqls rest := rfl

/-- The operation takes every result set it can get: only the last statement of a handler,
and a statement with a callback, may yield one. -/
def Operation.Consumes (yields : Bytes → Bool) : Operation → Prop
  | .handler body => ∀ sql ∈ (sqls body).dropLast, yields (cstr sql) = false
  | .exec sql => yields (cstr sql) = false
  | .execCb sql cbFun => cbFun = true ∨ yields (cstr sql) = false
  | .escape _ => True

section Steps

variable {yields : Bytes → Bool}

/-- The state between two statements of a handler that will submit `rest`, and in which
`OnExecute` has the value `ret`. -/
structure Between (yields : Bytes → Bool) (rest : List Bytes) (ret : Bool) (conn : DBConnection) :
    Prop where
  inProtocol : InProtocol conn
  yields_eq : conn.net.yields = yields
  pending_none : rest ≠ [] ∨ ret = false → conn.mysqlHandler.pending = none

theorem Between.settled {rest : List Bytes} {ret : Bool} {s s' : DBConnection}
    (h : Between yields rest ret s) (hs : Settled s s') : Between yields rest ret s' where
  inProtocol := by
    intro e he
    rw [hs.events_eq] at he
    exact h.inProtocol e he
  yields_eq := hs.yields_eq.trans h.yields_eq
  pending_none := fun hrest => hs.pending_eq.elim (fun heq => heq.trans (h.pending_none hrest)) id

theorem InProtocol.executed {c s : DBConnection} {sql : Bytes} {new : List QueryEvent}
    (hc : InProtocol c) (hpending : c.mysqlHandler.pending = none) (h : Executed c sql new s) :
    InProtocol s := by
  intro e he
  rw [h.events_eq] at he
  rcases List.mem_append.mp he with he | he
  · exact hc e he
  · exact h.ready hpending e he

/-- After a statement a result set can wait only if it succeeded and yields one. -/
structure AfterExecute (yields : Bytes → Bool) (sql : Bytes) (ret : Bool) (conn : DBConnection) :
    Prop where
  inProtocol : InProtocol conn
  yields_eq : conn.net.yields = yields
  pending_imp : conn.mysqlHandler.pending.isSome → ret = true ∧ yields (cstr sql) = true

theorem AfterExecute.ready {sql : Bytes} {ret : Bool} {s : DBConnection}
    (h : AfterExecute yields sql ret s) (hno : ret = false ∨ yields (cstr sql) = false) :
    Ready yields s := by
  refine ⟨h.inProtocol, h.yields_eq, ?_⟩
  by_contra hsome
  obtain ⟨hret, hyield⟩ := h.pending_imp (Option.isSome_iff_ne_none.mpr hsome)
  simp [hret, hyield] at hno

/-- **A statement on a connection that is ready.** -/
theorem ready_execute (yields : Bytes → Bool) (sql : Bytes) :
    Triple (Ready yields) (DBConnection.execute sql) (AfterExecute yields sql) InProtocol := by
  intro c hc
  refine (execute_spec c sql c rfl).weaken ?_ ?_
  · intro ret s h
    obtain ⟨new, hex⟩ := h.executed
    have hyields := hex.yields_eq.trans hc.yields_eq
    refine ⟨hc.inProtocol.executed hc.pending_none hex, hyields, ?_⟩
    intro hsome
    cases ret with
    | true =>
        obtain ⟨new, h⟩ := h
        exact ⟨rfl, hyields ▸ h.pending_yields hsome⟩
    | false =>
        obtain ⟨new, h⟩ := h
        rw [h.pending_none hc.pending_none] at hsome
        cases hsome
  · rintro s ⟨new, hex⟩
    exact hc.inProtocol.executed hc.pending_none hex

/-- `EscapeString` keeps what does not depend on the handle being alive. -/
theorem keeps_escapeStringEx {P : DBConnection → Prop} (src : Bytes)
    (hsettled : ∀ s s', P s → Settled s s' → P s') (hin : ∀ s, P s → InProtocol s) :
    Triple P (DBConnection.escapeStringEx src) (fun _ => P) InProtocol := by
  have keeps : Keeps P (DBConnection.escapeStringEx src) :=
    Keeps.along Quiet.refl (fun s => quiet_escapeStringEx s src)
      fun s s' h hs => hsettled s s' h hs.toSettled
  exact keeps.stops hin

/-- The statements of a handler, one by one. -/
theorem between_execSql (body : List HandlerOp) (ret : Bool) (subs : List Submission)
    (h : ∀ sql ∈ (sqls body).dropLast, yields (cstr sql) = false) :
    Triple (Between yields (sqls body) ret) (execSql body ret subs)
      (fun r => Between yields [] r.1) InProtocol := by
  induction body generalizing ret subs with
  | nil => exact .pure fun s hs => hs
  | cons op rest ih =>
      cases op with
      | escape src =>
          refine .bind (keeps_escapeStringEx src ?_ ?_) fun _ => ih ret subs h
          · exact fun s s' hs => hs.settled
          · exact fun s hs => hs.inProtocol
      | exec sql =>
          have hrest : ∀ sql' ∈ (sqls rest).dropLast, yields (cstr sql') = false := by
            intro sql' hsql'
            refine h sql' ?_
            have hne : sqls rest ≠ [] := by
              intro hnil
              simp [hnil] at hsql'
            rw [sqls_exec, List.dropLast_cons_of_ne_nil hne]
            exact List.mem_cons_of_mem _ hsql'
          -- a later statement means that this one yields nothing
          have hlater : sqls rest ≠ [] → yields (cstr sql) = false := by
            intro hne
            refine h sql ?_
            rw [sqls_exec, List.dropLast_cons_of_ne_nil hne]
            exact List.mem_cons_self
          have hexec : Triple (Between yields (sqls (.exec sql :: rest)) ret)
              (DBConnection.execute sql) (Between yields (sqls rest)) InProtocol := by
            refine (ready_execute yields sql).weaken ?_ ?_ fun _ hs => hs
            · exact fun s hs => ⟨hs.inProtocol, hs.yields_eq, hs.pending_none (.inl (by simp))⟩
            · intro ret' s hs
              refine ⟨hs.inProtocol, hs.yields_eq, fun hcase => (hs.ready ?_).pending_none⟩
              exact hcase.symm.imp_right hlater
          refine .bind hexec fun ret' => ?_
          refine .bind (Q := fun _ => Between yields (sqls rest) ret') (fun _ hs => hs) ?_
          exact fun conn => ih ret' _ hrest

/-- Taking the result makes the connection ready. -/
theorem ready_initResult :
    Triple (fun s => InProtocol s ∧ s.net.yields = yields) initResult
      (fun _ => Ready yields) InProtocol := by
  refine .bind (Q := fun _ => Ready yields) ?_ fun set => ?_
  · intro s hs
    unfold mysqlStoreResult
    split <;> exact ⟨hs.1, hs.2, rfl⟩
  split
  · exact .pure fun _ hs => hs
  · exact .throw fun _ hs => hs.inProtocol

theorem ready_onExecute (base : MysqlBase) (body : List HandlerOp)
    (h : ∀ sql ∈ (sqls body).dropLast, yields (cstr sql) = false) :
    Triple (Ready yields) (base.onExecute body) (fun _ => Ready yields) InProtocol := by
  refine .bind ((between_execSql body false [] h).assume fun s hs => ?_) fun r => ?_
  · exact ⟨hs.inProtocol, hs.yields_eq, fun _ => hs.pending_none⟩
  · refine .ite (fun _ => ?_) fun hret => ?_
    · refine .bind (ready_initResult.assume fun s hs => ?_) fun result => .pure fun _ hs => hs
      exact ⟨hs.inProtocol, hs.yields_eq⟩
    · refine .bind (Q := fun _ => Ready yields) (fun s hs => ?_) fun conn => .pure fun _ hs => hs
      exact ⟨hs.inProtocol, hs.yields_eq, hs.pending_none (.inr (Bool.not_eq_true _ ▸ hret))⟩

theorem Ready.settled {s s' : DBConnection} (h : Ready yields s) (hs : Settled s s') :
    Ready yields s' := by
  have hb : Between yields [] false s := ⟨h.inProtocol, h.yields_eq, fun _ => h.pending_none⟩
  have hb' := hb.settled hs
  exact ⟨hb'.inProtocol, hb'.yields_eq, hb'.pending_none (.inr rfl)⟩

/-- **One operation.**  An operation that takes every result set leaves the connection
ready. -/
theorem ready_run (op : Operation) (h : op.Consumes yields) :
    Triple (Ready yields) op.run (fun _ => Ready yields) InProtocol := by
  cases op with
  | handler body =>
      exact .bind (ready_onExecute {} body h) fun _ => .pure fun _ hs => hs
  | exec sql =>
      exact .bind (ready_execute yields sql) fun _ => .pure fun _ hs => hs.ready (.inr h)
  | execCb sql cbFun =>
      refine .bind (Q := fun _ => Ready yields) ?_ fun _ => .pure fun _ hs => hs
      refine .bind (ready_execute yields sql) fun ret => .ite (fun _ => ?_) fun hret => ?_
      · refine .ite (fun _ => ?_) fun hcb => ?_
        · refine .bind (ready_initResult.assume fun s hs => ?_) fun result => .pure fun _ hs => hs
          exact ⟨hs.inProtocol, hs.yields_eq⟩
        · exact .pure fun _ hs => hs.ready (.inr (h.resolve_left hcb))
      · exact .pure fun _ hs => hs.ready (.inl (Bool.not_eq_true _ ▸ hret))
  | escape src =>
      refine .bind (keeps_escapeStringEx src ?_ ?_) fun _ => .pure fun _ hs => hs
      · exact fun s s' hs => hs.settled
      · exact fun s hs => hs.inProtocol

theorem ready_runAll (ops : List Operation) (h : ∀ op ∈ ops, op.Consumes yields) :
    Triple (Ready yields) (runAll ops) (fun _ => Ready yields) InProtocol := by
  induction ops with
  | nil => exact .pure fun _ hs => hs
  | cons op ops ih =>
      refine .bind (ready_run op (h op List.mem_cons_self)) fun _ => ?_
      exact ih fun op' hop' => h op' (List.mem_cons_of_mem _ hop')

end Steps

/-- **The operations that stay in protocol.**  In every run of operations that take every
result set they can get, also in one that does not come to its end, each query is issued
while no result set is waiting; and after each operation the connection takes the next
command. -/
theorem runAll_inProtocol (ops : List Operation) (conn : DBConnection) (hin : InProtocol conn)
    (hpending : conn.mysqlHandler.pending = none)
    (h : ∀ op ∈ ops, op.Consumes conn.net.yields) :
    InProtocol (finalState (runAll ops conn)) ∧
      ∀ conn', runAll ops conn = .ok ⟨⟩ conn' → conn'.mysqlHandler.pending = none := by
  have hready : Ready conn.net.yields conn := ⟨hin, rfl, hpending⟩
  have hrun := ready_runAll ops h
  refine ⟨hrun.finalState (fun _ _ hs => hs.inProtocol) (fun _ hs => hs) hready, ?_⟩
  intro conn' hok
  exact (hrun.of_ok hready hok).pending_none

/-- A statement that yields a result set. -/
def selectSql : Bytes := ascii "select id from t"

/-- A statement that yields none. -/
def updateSql : Bytes := ascii "update t set n = 1"

/-- A connection over which two statements will succeed; a broken one is opened again. -/
def freshConnection : DBConnection where
  net := {
    yields := (· == selectSql)
    queries := [.ok emptySet, .ok emptySet]
    connects := [.ok]
    clock := [0, 1800001]
    intervals := [0, 0] }

/-- A result set that a callback takes, and a statement after it. -/
theorem runAll_callback_inProtocol :
    InProtocol (finalState (runAll [.execCb selectSql true, .exec updateSql] freshConnection)) := by
  refine (runAll_inProtocol _ _ (by simp [InProtocol, freshConnection]) rfl ?_).1
  intro op hop
  rcases List.mem_cons.mp hop with rfl | hop
  · exact .inl rfl
  · rw [List.mem_singleton.mp hop]
    show freshConnection.net.yields (cstr updateSql) = false
    decide

/-- A statement without a callback leaves its result set with the handle, and the next
statement is issued while it waits there. -/
theorem not_inProtocol_exec : InProtocol freshConnection ∧
    freshConnection.mysqlHandler.pending = none ∧
    ¬InProtocol (finalState (runAll [.exec selectSql, .exec updateSql] freshConnection)) := by
  refine ⟨by simp [InProtocol, freshConnection], rfl, ?_⟩
  intro h
  have hready : (finalState (runAll [.exec selectSql, .exec updateSql]
      freshConnection)).net.events.map (·.ready) = [true, false, true] := by decide +kernel
  have hall : ∀ b ∈ (finalState (runAll [.exec selectSql, .exec updateSql]
      freshConnection)).net.events.map (·.ready), b = true := by
    intro b hb
    obtain ⟨e, he, rfl⟩ := List.mem_map.mp hb
    exact h e he
  rw [hready] at hall
  exact absurd (hall false (by decide)) (by decide)

end SeedCore.Mysql
