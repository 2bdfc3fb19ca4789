import SeedCore.Lib.Run
import SeedCore.Mysql.Protocol

/-!
# The life of a handler

A handler that was pushed is executed by a worker, or cancelled before that, and then
told of its outcome and released by the main thread.  `MysqlBase` carries the outcome
from one to the other in its fields.  The system below holds every handler of one
connection; its actions are the steps of their lives in any order that the queue allows,
and whatever else is done on the connection.

## Main definitions

* `Delivery`, `Task`, `LifeCycle` — what a handler is told, the handler, and the system.
* `LifeCycle.step` — the steps.
* `OwnOutcome` — an outcome that the handler's own last statement had.
* `Action.Meets` — the steps that are taken as the handlers need them.
* `run_ownOutcome` — the runs in which every handler is told its own outcome.
-/

namespace SeedCore.Mysql

/-- What the main thread calls on a handler. -/
inductive Delivery
  | onSuccess (result : MysqlResult)
  /-- The code is what `_erorCode` holds, which may never have been assigned. -/
  | onFail (errorCode : Option ℤ) (errorInfo : Bytes)
  | onRelease

/-- How far the queue is with a handler. -/
inductive Phase
  | queued
  | executed (ret : Bool)
  | cancelled
  | notified
  | released
  deriving DecidableEq, Repr

/-- A handler with its `MysqlBase`, what its `ExecSql` does and did, and what it was told. -/
structure Task where
  body : List HandlerOp
  base : MysqlBase := {}
  phase : Phase := .queued
  subs : List Submission := []
  deliveries : List Delivery := []

namespace Task

/-- `OnSuccess` -/
def onSuccess (t : Task) : Task :=
  { t with phase := .notified, deliveries := t.deliveries ++ [.onSuccess t.base.result] }

/-- `OnFailed`, which does not look at `isExecuted` -/
def onFailed (t : Task) (_isExecuted : Bool) : Task :=
  { t with
    phase := .notified
    deliveries := t.deliveries ++ [.onFail t.base.erorCode (cstr t.base.errorInfo)] }

/-- `OnRelease` -/
def onRelease (t : Task) : Task :=
  { t with phase := .released, deliveries := t.deliveries ++ [.onRelease] }

/-- The main thread takes a task that the worker is done with. -/
def notify (t : Task) : Option Task :=
  match t.phase with
  | .executed true => some t.onSuccess
  | .executed false => some (t.onFailed true)
  | .cancelled => some (t.onFailed false)
  | _ => none

end Task

/-- One connection and the handlers that were pushed to it. -/
structure LifeCycle where
  conn : DBConnection
  tasks : List Task := []
  /-- `_releaseBaseCount` -/
  releaseBaseCount : ℤ := 0

/-- A step of the queue, or something else done on the connection. -/
inductive Action
  | push (body : List HandlerOp)
  | exec (k : ℕ)
  | cancel (k : ℕ)
  | notify (k : ℕ)
  | release (k : ℕ)
  | other (op : Operation)
  deriving DecidableEq, Repr

namespace LifeCycle

/-- `OnExecute` of a task, if it comes back. -/
def execTask (conn : DBConnection) (t : Task) : Option (DBConnection × Task) :=
  match t.base.onExecute t.body conn with
  | .ok (ret, base, subs) conn =>
      some (conn, { t with base := base, phase := .executed ret, subs := subs })
  | .error _ _ => none

/-- One step; an action that is not possible has none. -/
def step (s : LifeCycle) : Action → Option LifeCycle
  | .push body => some { s with tasks := s.tasks ++ [{ body := body }] }
  | .exec k => do
      let t ← s.tasks[k]?
      if t.phase = .queued then
        let (conn, t) ← execTask s.conn t
        return { s with conn := conn, tasks := s.tasks.set k t }
      else none
  | .cancel k => do
      let t ← s.tasks[k]?
      if t.phase = .queued then return { s with tasks := s.tasks.set k { t with phase := .cancelled } }
      else none
  | .notify k => do
      let t ← s.tasks[k]?
      let t ← t.notify
      return { s with tasks := s.tasks.set k t }
  | .release k => do
      let t ← s.tasks[k]?
      if t.phase = .notified then
        return { s with
          tasks := s.tasks.set k t.onRelease
          releaseBaseCount := toInt32 (s.releaseBaseCount + 1) }
      else none
  | .other op =>
      match op.run s.conn with
      | .ok _ conn => some { s with conn := conn }
      | .error _ _ => none

end LifeCycle

/-! ## The outcome of a handler's own statement -/

/-- The outcome that a handler is told is that of its own last statement: the result set
that the server answered to it, or the error recorded for it. -/
def OwnOutcome (subs : List Submission) : Delivery → Prop
  | .onSuccess result => ∃ sub e set, subs.getLast? = some sub ∧ sub.ret = true ∧
      sub.last = some e ∧ e.sql = cstr sub.sql ∧ e.reply = .success set ∧
      MysqlResult.init set = .ok result
  | .onFail errorCode errorInfo => ∃ sub, subs.getLast? = some sub ∧ sub.ret = false ∧
      errorCode = some (toInt32 sub.errno) ∧ errorInfo = cstr sub.error
  | .onRelease => False

/-- Every `EscapeString` of an empty text, which looks whether the connection is alive, is
followed by a statement. -/
def EscapesFirst : List HandlerOp → Prop
  | [] => True
  | .exec _ :: rest => EscapesFirst rest
  | .escape src :: rest => (src = [] → sqls rest ≠ []) ∧ EscapesFirst rest

/-- What the last statement of a handler yields will arrive: the next reading of the rows of a
result set does not fail, or that statement yields none. -/
def ResultArrives (conn : DBConnection) (body : List HandlerOp) : Prop :=
  ∀ sql ∈ (sqls body).getLast?, conn.net.yields (cstr sql) = true →
    ∀ o ∈ conn.net.stores.head?, o = .ok

/-- A handler submits something, and after its last statement leaves the connection alone; none
is cancelled; and when one is executed its result arrives. -/
def Action.Meets (s : LifeCycle) : Action → Prop
  | .push body => sqls body ≠ [] ∧ EscapesFirst body
  | .cancel _ => False
  | .exec k => ∀ t ∈ s.tasks[k]?, ResultArrives s.conn t.body
  | _ => True

instance decidableEscapesFirst : ∀ body, Decidable (EscapesFirst body)
  | [] => isTrue trivial
  | .exec _ :: rest => decidableEscapesFirst rest
  | .escape src :: rest =>
      have := decidableEscapesFirst rest
      inferInstanceAs (Decidable ((src = [] → sqls rest ≠ []) ∧ EscapesFirst rest))

instance decidableResultArrives (conn : DBConnection) (body : List HandlerOp) :
    Decidable (ResultArrives conn body) :=
  inferInstanceAs (Decidable (∀ sql ∈ (sqls body).getLast?, conn.net.yields (cstr sql) = true →
    ∀ o ∈ conn.net.stores.head?, o = .ok))

instance decidableMeets (s : LifeCycle) : ∀ a, Decidable (Action.Meets s a)
  | .push body => inferInstanceAs (Decidable (sqls body ≠ [] ∧ EscapesFirst body))
  | .cancel _ => isFalse id
  | .exec k => inferInstanceAs (Decidable (∀ t ∈ s.tasks[k]?, ResultArrives s.conn t.body))
  | .notify _ | .release _ | .other _ => isTrue trivial

theorem mysqlRealEscapeString_ne_nil {src : Bytes} (h : src ≠ []) :
    mysqlRealEscapeString src ≠ [] := by
  cases src with
  | nil => exact absurd rfl h
  | cons b rest =>
      have hb : escapeByte b ≠ [] := by
        unfold escapeByte
        repeat' split
        all_goals simp [ascii]
      simp [mysqlRealEscapeString, hb]

/-- The handle holds the outcome of the last statement that was submitted. -/
structure Recorded (ret : Bool) (sub : Submission) (conn : DBConnection) : Prop where
  ret_eq : sub.ret = ret
  errno_eq : sub.errno = conn.mysqlHandler.errno
  error_eq : sub.error = conn.mysqlHandler.error
  last_eq : ret = true → ∃ e, sub.last = some e ∧ e.sql = cstr sub.sql ∧
    e.reply = .success conn.mysqlHandler.pending
  pending_yields : ret = true → conn.mysqlHandler.pending.isSome →
    conn.net.yields (cstr sub.sql) = true

/-- The state in which a handler has yet to do `rest`: unless it submits another statement,
the outcome of its last one is recorded. -/
def OutcomeKept (rest : List HandlerOp) (ret : Bool) (subs : List Submission)
    (conn : DBConnection) : Prop :=
  sqls rest = [] → ∃ sub, subs.getLast? = some sub ∧ Recorded ret sub conn

/-- **The statements of a handler**: when it is done its submissions are its statements,
and the outcome of the last one is recorded. -/
theorem outcomeKept_execSql (body : List HandlerOp) (ret : Bool) (subs : List Submission)
    (h : EscapesFirst body) :
    Triple (OutcomeKept body ret subs) (execSql body ret subs)
      (fun r s => OutcomeKept [] r.1 r.2 s ∧ r.2.map (·.sql) = subs.map (·.sql) ++ sqls body)
      (fun _ => True) := by
  induction body generalizing ret subs with
  | nil => exact .pure fun s hs => ⟨hs, by simp⟩
  | cons op rest ih =>
      cases op with
      | exec sql =>
          have hexec : Triple (OutcomeKept (.exec sql :: rest) ret subs) (DBConnection.execute sql)
              (fun ret' s => ret' = true → (∃ e, s.net.events.getLast? = some e ∧
                e.sql = cstr sql ∧ e.reply = .success s.mysqlHandler.pending) ∧
                (s.mysqlHandler.pending.isSome → s.net.yields (cstr sql) = true))
              (fun _ => True) := by
            intro c _
            refine (execute_spec c sql c rfl).weaken ?_ fun _ _ => trivial
            rintro ret' s hs rfl
            obtain ⟨new, hs⟩ := hs
            obtain ⟨e, he, hlast, hreply⟩ := hs.last_eq
            exact ⟨⟨e, hlast, hs.sql_eq e he, hreply⟩, hs.pending_yields⟩
          refine .bind hexec fun ret' => ?_
          refine .bind (Q := fun conn s => conn = s ∧ (ret' = true →
            (∃ e, s.net.events.getLast? = some e ∧ e.sql = cstr sql ∧
              e.reply = .success s.mysqlHandler.pending) ∧
            (s.mysqlHandler.pending.isSome → s.net.yields (cstr sql) = true)))
            (fun s hs => ⟨rfl, hs⟩) fun conn => ?_
          refine (ih ret' _ h).weaken ?_ ?_ fun _ _ => trivial
          · rintro s ⟨rfl, hs⟩ -
            exact ⟨_, List.getLast?_concat, rfl, rfl, rfl, fun h => (hs h).1, fun h => (hs h).2⟩
          · rintro r s ⟨hkept, hsqls⟩
            exact ⟨hkept, by simpa using hsqls⟩
      | escape src =>
          by_cases hsrc : src = []
          · -- the ping may change what is recorded, but a statement follows
            refine .bind (Q := fun _ => OutcomeKept rest ret subs) ?_ fun _ => ih ret subs h.2
            intro s _
            cases hr : DBConnection.escapeStringEx src s with
            | ok dest s' => exact fun hnil => absurd hnil (h.1 hsrc)
            | error e s' => trivial
          · have hlen : (mysqlRealEscapeString src).length ≠ 0 := fun hzero =>
              mysqlRealEscapeString_ne_nil hsrc (List.length_eq_zero_iff.mp hzero)
            refine .bind (Q := fun _ => OutcomeKept rest ret subs) ?_ fun _ => ih ret subs h.2
            refine .ite (fun hzero => absurd hzero hlen) fun _ => .pure fun s hs => hs

/-- The outcome in the fields of `MysqlBase` is that of the handler's own last statement. -/
structure OutcomeReady (body : List HandlerOp) (base : MysqlBase) (subs : List Submission)
    (ret : Bool) : Prop where
  sqls_eq : subs.map (·.sql) = sqls body
  own : OwnOutcome subs
    (if ret = true then .onSuccess base.result else .onFail base.erorCode (cstr base.errorInfo))

/-- The statements, and the results still to be read, are those that they were. -/
structure SameScript (c c' : DBConnection) : Prop where
  yields_eq : c'.net.yields = c.net.yields
  stores_eq : c'.net.stores = c.net.stores

/-- Submitting statements takes no result. -/
theorem sameScript_execSql (c : DBConnection) (body : List HandlerOp) (ret : Bool)
    (subs : List Submission) : Keeps (SameScript c) (execSql body ret subs) := by
  induction body generalizing ret subs with
  | nil => exact .pure _
  | cons op rest ih =>
      cases op with
      | exec sql =>
          have hexec : Keeps (SameScript c) (DBConnection.execute sql) := by
            intro s hs
            refine (execute_spec s sql s rfl).weaken ?_ ?_
            · intro ret s' h
              obtain ⟨new, h⟩ := h.executed
              exact ⟨h.yields_eq.trans hs.yields_eq, h.stores_eq.trans hs.stores_eq⟩
            · rintro s' ⟨new, h⟩
              exact ⟨h.yields_eq.trans hs.yields_eq, h.stores_eq.trans hs.stores_eq⟩
          have hget : Keeps (SameScript c) (get : Db DBConnection) := fun _ hs => hs
          exact .bind hexec fun _ => .bind hget fun _ => ih _ _
      | escape src =>
          have hescape : Keeps (SameScript c) (DBConnection.escapeStringEx src) :=
            Keeps.along Quiet.refl (fun s => quiet_escapeStringEx s src) fun _ _ h hs =>
              ⟨hs.yields_eq.trans h.yields_eq, hs.stores_eq.trans h.stores_eq⟩
          exact .bind hescape fun _ => ih _ _

/-- `Init` after a statement that succeeded makes the result of what the server answered, if
that arrives. -/
theorem recorded_initResult (sub : Submission) :
    Triple (fun s => Recorded true sub s ∧ (s.net.yields (cstr sub.sql) = true →
        ∀ o ∈ s.net.stores.head?, o = .ok)) initResult
      (fun result _ => ∃ e set, sub.last = some e ∧ e.sql = cstr sub.sql ∧
        e.reply = .success set ∧ MysqlResult.init set = .ok result) (fun _ => True) := by
  have store : Triple (fun s => Recorded true sub s ∧ (s.net.yields (cstr sub.sql) = true →
      ∀ o ∈ s.net.stores.head?, o = .ok)) mysqlStoreResult
      (fun set _ => ∃ e, sub.last = some e ∧ e.sql = cstr sub.sql ∧ e.reply = .success set)
      (fun _ => True) := by
    rintro s ⟨hs, harrives⟩
    obtain ⟨e, hlast, hsql, hreply⟩ := hs.last_eq rfl
    unfold mysqlStoreResult
    split
    · next hpending => exact ⟨e, hlast, hsql, hpending ▸ hreply⟩
    · next hpending _ => exact ⟨e, hlast, hsql, hpending ▸ hreply⟩
    · next hpending _ => exact ⟨e, hlast, hsql, hpending ▸ hreply⟩
    · next hpending hstores =>
        have hyields := hs.pending_yields rfl (by rw [hpending]; rfl)
        rw [hstores] at harrives
        cases harrives hyields _ rfl
  refine .bind store fun set => ?_
  split
  · next result hinit =>
      refine .pure ?_
      rintro s ⟨e, hlast, hsql, hreply⟩
      exact ⟨e, set, hlast, hsql, hreply, hinit⟩
  · exact .throw fun _ _ => trivial

/-- **`OnExecute`.** -/
theorem outcomeReady_execTask {conn conn' : DBConnection} {t t' : Task}
    (h : LifeCycle.execTask conn t = some (conn', t')) (hne : sqls t.body ≠ [])
    (hesc : EscapesFirst t.body) (harrives : ResultArrives conn t.body) :
    ∃ ret, t'.phase = .executed ret ∧ t'.body = t.body ∧ t'.deliveries = t.deliveries ∧
      OutcomeReady t'.body t'.base t'.subs ret := by
  have hbody : Triple (· = conn) (execSql t.body false [])
      (fun r s => (r.2.map (·.sql) = sqls t.body ∧
        ∃ sub, r.2.getLast? = some sub ∧ Recorded r.1 sub s) ∧ SameScript conn s)
      (fun _ => True) := by
    have hkept : Triple (· = conn) (execSql t.body false [])
        (fun r s => OutcomeKept [] r.1 r.2 s ∧ r.2.map (·.sql) = [] ++ sqls t.body)
        (fun _ => True) :=
      (outcomeKept_execSql t.body false [] hesc).assume fun _ _ hnil => absurd hnil hne
    have hsame : Triple (· = conn) (execSql t.body false []) (fun _ => SameScript conn)
        (SameScript conn) := by
      refine Triple.assume (sameScript_execSql conn t.body false []) ?_
      rintro s rfl
      exact ⟨rfl, rfl⟩
    refine (hkept.and hsame).weaken (fun _ hs => hs) ?_ fun _ _ => trivial
    rintro r s ⟨⟨hkept, hsqls⟩, hsame⟩
    exact ⟨⟨by simpa using hsqls, hkept rfl⟩, hsame⟩
  have hspec : Triple (· = conn) (t.base.onExecute t.body)
      (fun r _ => OutcomeReady t.body r.2.1 r.2.2 r.1) (fun _ => True) := by
    refine .bind hbody fun ⟨ret, subs⟩ => ?_
    cases ret with
    | true =>
        rintro s ⟨⟨hsqls, sub, hlast, hrec⟩, hsame⟩
        have harrives' : s.net.yields (cstr sub.sql) = true →
            ∀ o ∈ s.net.stores.head?, o = .ok := by
          intro hyields
          rw [hsame.stores_eq]
          refine harrives sub.sql ?_ (hsame.yields_eq ▸ hyields)
          rw [← hsqls, List.getLast?_map, hlast]
          rfl
        have hinit := (recorded_initResult sub).bind (R := fun r _ =>
          OutcomeReady t.body r.2.1 r.2.2 r.1)
          (f := fun result => pure (true, { t.base with result := result }, subs))
          fun result => .pure ?_
        · exact hinit s ⟨hrec, harrives'⟩
        · rintro s' ⟨e, set, hevent, hsql, hreply, hres⟩
          exact ⟨hsqls, sub, e, set, hlast, hrec.ret_eq, hevent, hsql, hreply, hres⟩
    | false =>
        rintro s ⟨⟨hsqls, sub, hlast, hrec⟩, -⟩
        refine ⟨hsqls, sub, hlast, hrec.ret_eq, ?_, ?_⟩
        · rw [hrec.errno_eq]
        · rw [hrec.error_eq]
          exact cstr_cstr _
  unfold LifeCycle.execTask at h
  split at h
  · next ret base subs conn₁ hrun =>
      cases h
      exact ⟨ret, rfl, rfl, rfl, hspec.of_ok rfl hrun⟩
  · cases h

/-- What holds of a handler at each point of its life. -/
structure Task.Lives (t : Task) : Prop where
  submits : sqls t.body ≠ []
  escapes : EscapesFirst t.body
  told : match t.phase with
    | .queued => t.deliveries = []
    | .executed ret => t.deliveries = [] ∧ OutcomeReady t.body t.base t.subs ret
    | .cancelled => False
    | .notified => ∃ d, OwnOutcome t.subs d ∧ t.subs.map (·.sql) = sqls t.body ∧ t.deliveries = [d]
    | .released => ∃ d, OwnOutcome t.subs d ∧ t.subs.map (·.sql) = sqls t.body ∧
        t.deliveries = [d, .onRelease]

theorem Task.Lives.notify {t t' : Task} (h : t.Lives) (hn : t.notify = some t') : t'.Lives := by
  have htold := h.told
  unfold Task.notify at hn
  split at hn
  · next hphase =>
      cases hn
      rw [hphase] at htold
      exact ⟨h.submits, h.escapes, _, htold.2.own, htold.2.sqls_eq,
        congrArg (· ++ [_]) htold.1⟩
  · next hphase =>
      cases hn
      rw [hphase] at htold
      exact ⟨h.submits, h.escapes, _, htold.2.own, htold.2.sqls_eq,
        congrArg (· ++ [_]) htold.1⟩
  · next hphase =>
      rw [hphase] at htold
      exact htold.elim
  · cases hn

theorem Task.Lives.onRelease {t : Task} (h : t.Lives) (hphase : t.phase = .notified) :
    t.onRelease.Lives := by
  have htold := h.told
  rw [hphase] at htold
  obtain ⟨d, hown, hsqls, hdeliv⟩ := htold
  exact ⟨h.submits, h.escapes, d, hown, hsqls, by simp [Task.onRelease, hdeliv]⟩

theorem Task.Lives.exec {t t' : Task} {conn conn' : DBConnection} (h : t.Lives)
    (hphase : t.phase = .queued) (harrives : ResultArrives conn t.body)
    (hexec : LifeCycle.execTask conn t = some (conn', t')) : t'.Lives := by
  obtain ⟨ret, hphase', hbody, hdeliv, hready⟩ :=
    outcomeReady_execTask hexec h.submits h.escapes harrives
  have htold := h.told
  rw [hphase] at htold
  refine ⟨hbody ▸ h.submits, hbody ▸ h.escapes, ?_⟩
  rw [hphase']
  exact ⟨hdeliv.trans htold, hready⟩

/-- **One step.** -/
theorem lives_step {s s' : LifeCycle} {a : Action} (ha : a.Meets s)
    (h : s.step a = some s') (hs : ∀ t ∈ s.tasks, t.Lives) : ∀ t ∈ s'.tasks, t.Lives := by
  -- all but `push` replace one task
  have set : ∀ {k : ℕ} {t' : Task}, t'.Lives → ∀ t ∈ s.tasks.set k t', t.Lives := by
    intro k t' ht' t ht
    rcases List.mem_or_eq_of_mem_set ht with ht | rfl
    · exact hs t ht
    · exact ht'
  cases a with
  | push body =>
      cases h
      intro t ht
      rcases List.mem_append.mp ht with ht | ht
      · exact hs t ht
      · rw [List.mem_singleton.mp ht]
        exact ⟨ha.1, ha.2, rfl⟩
  | exec k =>
      simp only [LifeCycle.step, Option.bind_eq_bind, Option.bind_eq_some_iff] at h
      obtain ⟨t, ht, h⟩ := h
      split at h
      · next hphase =>
          obtain ⟨⟨conn, t'⟩, hexec, h⟩ := Option.bind_eq_some_iff.mp h
          cases h
          exact set ((hs t (List.mem_of_getElem? ht)).exec hphase (ha t ht) hexec)
      · cases h
  | cancel k => exact ha.elim
  | notify k =>
      simp only [LifeCycle.step, Option.bind_eq_bind, Option.bind_eq_some_iff] at h
      obtain ⟨t, ht, t', hn, h⟩ := h
      cases h
      exact set ((hs t (List.mem_of_getElem? ht)).notify hn)
  | release k =>
      simp only [LifeCycle.step, Option.bind_eq_bind, Option.bind_eq_some_iff] at h
      obtain ⟨t, ht, h⟩ := h
      split at h
      · next hphase =>
          cases h
          exact set ((hs t (List.mem_of_getElem? ht)).onRelease hphase)
      · cases h
  | other op =>
      simp only [LifeCycle.step] at h
      split at h
      · cases h
        exact hs
      · cases h

/-- What a handler has been told: nothing yet, or its own outcome, and then its release. -/
def Task.Told (t : Task) : Prop :=
  (t.deliveries = [] ∧ t.phase ≠ .notified ∧ t.phase ≠ .released) ∨
    ∃ d, OwnOutcome t.subs d ∧ t.subs.map (·.sql) = sqls t.body ∧
      ((t.deliveries = [d] ∧ t.phase = .notified) ∨
        (t.deliveries = [d, .onRelease] ∧ t.phase = .released))

theorem Task.Lives.toTold {t : Task} (h : t.Lives) : t.Told := by
  have htold := h.told
  cases hphase : t.phase with
  | queued =>
      rw [hphase] at htold
      exact .inl ⟨htold, by simp [hphase], by simp [hphase]⟩
  | executed ret =>
      rw [hphase] at htold
      exact .inl ⟨htold.1, by simp [hphase], by simp [hphase]⟩
  | cancelled =>
      rw [hphase] at htold
      exact htold.elim
  | notified =>
      rw [hphase] at htold
      obtain ⟨d, hown, hsqls, hdeliv⟩ := htold
      exact .inr ⟨d, hown, hsqls, .inl ⟨hdeliv, hphase⟩⟩
  | released =>
      rw [hphase] at htold
      obtain ⟨d, hown, hsqls, hdeliv⟩ := htold
      exact .inr ⟨d, hown, hsqls, .inr ⟨hdeliv, hphase⟩⟩

/-- **Every handler is told its own outcome**, exactly once and before its release, in every
run in which no handler is cancelled, each submits a statement, none looks after its last one
whether the connection is alive, and the results that they are executed for arrive. -/
theorem run_ownOutcome (conn : DBConnection) {as : List Action} {s : LifeCycle}
    (h : Run LifeCycle.step { conn := conn } as s)
    (has : Along LifeCycle.step (fun s a => a.Meets s) { conn := conn } as) :
    ∀ t ∈ s.tasks, t.Told := by
  have hlives := h.invariant_along (P := fun s => ∀ t ∈ s.tasks, t.Lives)
    (fun s a s' ha hstep hs => lives_step ha hstep hs) has (by simp)
  exact fun t ht => (hlives t ht).toTold

/-- A handler that submits one statement, from its push to its release. -/
theorem run_ownOutcome_select : ∃ s, Run LifeCycle.step { conn := freshConnection }
      [.push [.exec selectSql], .exec 0, .notify 0, .release 0] s ∧ ∀ t ∈ s.tasks, t.Told := by
  obtain ⟨s, hs⟩ := Option.isSome_iff_exists.mp (show (([.push [.exec selectSql], .exec 0,
    .notify 0, .release 0] : List Action).foldlM LifeCycle.step
      { conn := freshConnection }).isSome = true by decide +kernel)
  have hrun := run_iff_foldlM.mpr hs
  exact ⟨s, hrun, run_ownOutcome freshConnection hrun (by decide +kernel)⟩

/-- An outcome that means something: that of the handler's own last statement, or
`noExec` where it has none. -/
def Meaningful (noExec : ℤ × Bytes) (subs : List Submission) : Delivery → Prop
  | .onFail errorCode errorInfo => OwnOutcome subs (.onFail errorCode errorInfo) ∨
      (subs = [] ∧ errorCode = some noExec.1 ∧ errorInfo = noExec.2)
  | .onSuccess result => OwnOutcome subs (.onSuccess result)
  | .onRelease => True

/-- The code and the text of `OnFail`. -/
def Delivery.failure? : Delivery → Option (Option ℤ × Bytes)
  | .onFail errorCode errorInfo => some (errorCode, errorInfo)
  | _ => none

/-- A connection over which a statement fails. -/
def failingConnection : DBConnection where
  net := {
    yields := fun _ => false
    queries := [.fail false 1064 (ascii "syntax error"), .fail false 1064 (ascii "syntax error")]
    pings := [.ok]
    intervals := [0] }

/-- A connection over which a statement succeeds, and then its one row is lost. -/
def losingConnection : DBConnection where
  net := {
    yields := fun _ => true
    queries := [.ok ⟨1, by decide, [[some (ascii "7")]], by decide⟩]
    stores := [.fail 2013 (ascii "Lost connection to MySQL server during query")]
    intervals := [0] }

/-- The rows of `OnSuccess`. -/
def Delivery.rows? : Delivery → Option ℕ
  | .onSuccess result => some result.rows.length
  | _ => none

/-- The rows that the server answered. -/
def QueryReply.rows? : QueryReply → Option ℕ
  | .success set => set.map fun set => set.rows.length
  | _ => Option.none

set_option synthInstance.maxSize 1000 in
/-- A handler that was cancelled is told a code that was never assigned; one that submits
nothing is told the error of the handler before it; and one whose row is lost is told success
without a row. -/
theorem not_meaningful :
    (¬∃ noExec, ∀ conn as s, Run LifeCycle.step { conn := conn } as s →
      ∀ t ∈ s.tasks, ∀ d ∈ t.deliveries, Meaningful noExec t.subs d) ∧
    (∃ s, Run LifeCycle.step { conn := failingConnection }
        [.push [.exec updateSql], .push [], .exec 0, .exec 1, .notify 1] s ∧
      s.tasks.map (·.subs.length) = [1, 0] ∧
      s.tasks.map (fun t => t.deliveries.map Delivery.failure?) =
        [[], [some (some 1064, ascii "syntax error")]]) ∧
    ∃ s, Run LifeCycle.step { conn := losingConnection } [.push [.exec selectSql], .exec 0, .notify 0] s ∧
      s.tasks.map (fun t => t.deliveries.map Delivery.rows?) = [[some 0]] ∧
      s.conn.net.events.map (fun e => e.reply.rows?) = [some 1] := by
  refine ⟨?_, ?_, ?_⟩
  · rintro ⟨noExec, h⟩
    have hrun : Run LifeCycle.step { conn := freshConnection }
        [.push [.exec updateSql], .cancel 0, .notify 0] _ :=
      .cons rfl (.cons rfl (.cons rfl (.nil _)))
    have hfail := h freshConnection _ _ hrun _ List.mem_cons_self (.onFail none [])
      List.mem_cons_self
    rcases hfail with ⟨sub, hlast, -⟩ | ⟨-, hcode, -⟩
    · cases hlast
    · cases hcode
  · obtain ⟨s, hs, hobs⟩ := Option.map_eq_some_iff.mp (show ((([.push [.exec updateSql], .push [],
      .exec 0, .exec 1, .notify 1] : List Action).foldlM LifeCycle.step
        { conn := failingConnection }).map fun s => (s.tasks.map (·.subs.length),
          s.tasks.map (fun t => t.deliveries.map Delivery.failure?)))
        = some ([1, 0], [[], [some (some 1064, ascii "syntax error")]]) by decide +kernel)
    obtain ⟨hsubs, hdeliv⟩ := Prod.mk.inj hobs
    exact ⟨s, run_iff_foldlM.mpr hs, hsubs, hdeliv⟩
  · obtain ⟨s, hs, hobs⟩ := Option.map_eq_some_iff.mp (show ((([.push [.exec selectSql], .exec 0,
      .notify 0] : List Action).foldlM LifeCycle.step { conn := losingConnection }).map fun s =>
        (s.tasks.map (fun t => t.deliveries.map Delivery.rows?),
          s.conn.net.events.map (fun e => e.reply.rows?)))
        = some ([[some 0]], [some 1]) by decide +kernel)
    obtain ⟨hdeliv, hrows⟩ := Prod.mk.inj hobs
    exact ⟨s, run_iff_foldlM.mpr hs, hdeliv, hrows⟩

end SeedCore.Mysql
