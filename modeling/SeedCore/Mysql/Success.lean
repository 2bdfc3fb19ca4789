import SeedCore.Mysql.Protocol

/-!
# When a handler is told success

A handler may submit any number of statements while `OnExecute` runs it.  Every one of them
assigns its outcome to the same variable, which decides between `OnSuccess` and `OnFailed`.

## Main definitions

* `executions body` — the outcomes of the statements that a handler submits.
* `AllSucceeded` — there is a statement, and every one succeeded.
* `onExecute_eq` — what `OnExecute` returns.
* `onExecute_success_iff` — when this is success of all statements.
-/

namespace SeedCore.Mysql

/-- The outcomes of the statements that a handler submits, one after the other. -/
def executions : List HandlerOp → Db (List Bool)
  | [] => return []
  | .exec sql :: rest => do
      let ok ← DBConnection.execute sql
      let outcomes ← executions rest
      return ok :: outcomes
  | .escape src :: rest => do
      let _ ← DBConnection.escapeStringEx src
      executions rest

/-- At least one statement was submitted, and every one succeeded. -/
def AllSucceeded (outcomes : List Bool) : Prop := outcomes ≠ [] ∧ ∀ ok ∈ outcomes, ok = true

/-! ## The statements of a handler -/

/-- **The captured variable** ends as the last outcome; without a statement it stays what it
was. -/
theorem execSql_eq {body : List HandlerOp} {conn s : DBConnection} {outcomes : List Bool}
    (h : executions body conn = .ok outcomes s) (ret : Bool) (subs : List Submission) :
    ∃ subs', execSql body ret subs conn = .ok (outcomes.getLast?.getD ret, subs') s ∧
      subs'.map (·.ret) = subs.map (·.ret) ++ outcomes := by
  induction body generalizing conn outcomes ret subs with
  | nil =>
      cases h
      exact ⟨subs, rfl, by simp⟩
  | cons op rest ih =>
      cases op with
      | exec sql =>
          obtain ⟨ok, mid, hok, h⟩ := ok_of_bind h
          obtain ⟨later, s', hrest, h⟩ := ok_of_bind h
          cases h
          obtain ⟨subs', hsql, hsubs⟩ := ih hrest ok (subs ++ [⟨sql, ok, mid.net.events.getLast?,
            mid.mysqlHandler.errno, mid.mysqlHandler.error⟩])
          refine ⟨subs', ?_, by rw [hsubs]; simp⟩
          rw [execSql, bind_ok hok, List.getLast?_cons]
          exact hsql
      | escape src =>
          obtain ⟨dest, mid, hdest, h⟩ := ok_of_bind h
          obtain ⟨subs', hsql, hsubs⟩ := ih h ret subs
          refine ⟨subs', ?_, hsubs⟩
          rw [execSql, bind_ok hdest]
          exact hsql

/-- `Init` on a handle always ends. -/
theorem exists_initResult (conn : DBConnection) :
    ∃ result conn', initResult conn = .ok result conn' := by
  obtain ⟨set, conn', hstore⟩ : ∃ set conn', mysqlStoreResult conn = .ok set conn' := by
    unfold mysqlStoreResult
    split <;> exact ⟨_, _, rfl⟩
  rw [initResult, bind_ok hstore]
  cases set with
  | none => exact ⟨_, _, rfl⟩
  | some set =>
      rw [MysqlResult.init_eq]
      exact ⟨_, _, rfl⟩

/-- **`OnExecute`** returns the outcome of the last statement, and `false` without one. -/
theorem onExecute_eq (base : MysqlBase) {body : List HandlerOp} {conn s : DBConnection}
    {outcomes : List Bool} (h : executions body conn = .ok outcomes s) :
    ∃ base' subs conn',
      base.onExecute body conn = .ok (outcomes.getLast?.getD false, base', subs) conn' ∧
        subs.map (·.ret) = outcomes := by
  obtain ⟨subs, hsql, hsubs⟩ := execSql_eq h false []
  rw [MysqlBase.onExecute, bind_ok hsql]
  by_cases hret : outcomes.getLast?.getD false = true
  · obtain ⟨result, conn', hresult⟩ := exists_initResult s
    simp only [hret, if_true]
    rw [bind_ok hresult]
    exact ⟨_, subs, conn', rfl, hsubs⟩
  · simp only [hret]
    exact ⟨_, subs, s, rfl, hsubs⟩

/-! ## Success -/

theorem allSucceeded_iff {outcomes : List Bool} :
    AllSucceeded outcomes ↔ outcomes.getLast? = some true ∧ false ∉ outcomes := by
  constructor
  · intro h
    constructor
    · rw [List.getLast?_eq_some_getLast h.1, h.2 _ (List.getLast_mem h.1)]
    · intro hfalse
      exact absurd (h.2 false hfalse) (by simp)
  · intro h
    constructor
    · intro hnil
      simp [hnil] at h
    · intro ok hok
      by_contra hne
      rw [Bool.not_eq_true] at hne
      exact h.2 (hne ▸ hok)

/-- **When success is told.**  `OnExecute` comes to an end when its statements do, and it
returns `true` for the handlers all of whose statements succeeded, and for no others, exactly
if no statement failed before a last one that succeeded. -/
theorem onExecute_success_iff (base : MysqlBase) {body : List HandlerOp} {conn s : DBConnection}
    {outcomes : List Bool} (h : executions body conn = .ok outcomes s) :
    ∃ ret base' subs conn', base.onExecute body conn = .ok (ret, base', subs) conn' ∧
      subs.map (·.ret) = outcomes ∧
      ((ret = true ↔ AllSucceeded outcomes) ↔
        (outcomes.getLast? = some true → false ∉ outcomes)) := by
  obtain ⟨base', subs, conn', hexec, hsubs⟩ := onExecute_eq base h
  refine ⟨_, base', subs, conn', hexec, hsubs, ?_⟩
  have hlast : outcomes.getLast?.getD false = true ↔ outcomes.getLast? = some true := by
    cases outcomes.getLast? <;> simp
  rw [hlast, allSucceeded_iff]
  constructor
  · intro hiff htrue
    exact (hiff.mp htrue).2
  · intro hcond
    constructor
    · exact fun htrue => ⟨htrue, hcond htrue⟩
    · exact fun hboth => hboth.1

/-- Two statements that both succeed. -/
theorem onExecute_success_two : ∃ ret base' subs conn',
    MysqlBase.onExecute {} [.exec updateSql, .exec updateSql] freshConnection
      = .ok (ret, base', subs) conn' ∧ ret = true := by
  have hrun : observed (fun outcomes _ => outcomes)
      (executions [.exec updateSql, .exec updateSql] freshConnection)
        = some [true, true] := by decide +kernel
  obtain ⟨outcomes, s, hok, houtcomes⟩ := exists_ok_of_observed hrun
  obtain ⟨ret, base', subs, conn', hexec, -, hiff⟩ := onExecute_success_iff {} hok
  refine ⟨ret, base', subs, conn', hexec, ?_⟩
  subst houtcomes
  exact (hiff.mpr (by decide)).mpr ⟨by decide, by decide⟩

/-- A connection over which one statement will fail, and the next succeed. -/
def recoveringConnection : DBConnection where
  net := {
    yields := fun _ => false
    queries := [.fail false 1064 [], .fail false 1064 [], .ok emptySet]
    pings := [.ok]
    intervals := [0, 0] }

/-- A statement that fails and one that succeeds: the handler is told success. -/
theorem onExecute_success_afterFailure : ∃ base' subs conn',
    MysqlBase.onExecute {} [.exec updateSql, .exec updateSql] recoveringConnection
      = .ok (true, base', subs) conn' ∧
    subs.map (·.ret) = [false, true] ∧ ¬AllSucceeded (subs.map (·.ret)) := by
  have hrun : observed (fun (r : Bool × MysqlBase × List Submission) _ => (r.1, r.2.2.map (·.ret)))
      (MysqlBase.onExecute {} [.exec updateSql, .exec updateSql] recoveringConnection)
        = some (true, [false, true]) := by decide +kernel
  obtain ⟨⟨ret, base', subs⟩, conn', hexec, hobs⟩ := exists_ok_of_observed hrun
  simp only [Prod.mk.injEq] at hobs
  obtain ⟨rfl, hsubs⟩ := hobs
  refine ⟨base', subs, conn', hexec, hsubs, ?_⟩
  rw [hsubs]
  exact fun h => absurd (h.2 false (by decide)) (by decide)

end SeedCore.Mysql
