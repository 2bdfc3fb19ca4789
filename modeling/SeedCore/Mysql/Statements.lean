import SeedCore.Mysql.System

/-!
# The statements on a connection

Where only handlers use the connections, what a connection has carried is the statements of the
handlers pushed to it, in the order of the pushes, and never those of two handlers mixed.

## Main definitions

* `Queries` — the queries issued for statements, one after the other.
* `eventsOn` — the queries of one connection, in the order of the queue.
* `system_statements` — they are what it has carried.
-/

namespace SeedCore.Mysql

/-! ## The queries of a handler -/

/-- Queries that were issued for the statements, one statement after the other: each once, or
a second time when the first reported a failure. -/
inductive Queries : List Bytes → List QueryEvent → Prop
  | nil : Queries [] []
  | cons {sql : Bytes} {sqls : List Bytes} {part events : List QueryEvent} (hpart : part ≠ [])
      (hlen : part.length ≤ 2) (hsql : ∀ e ∈ part, e.sql = cstr sql)
      (hfailed : ∀ e ∈ part.dropLast, e.reply = .failure) (h : Queries sqls events) :
      Queries (sql :: sqls) (part ++ events)

/-- A query that comes back is on record. -/
theorem mysqlRealQuery_issues (n : ℕ) (sql : Bytes) :
    Triple (fun s => n ≤ s.net.events.length) (mysqlRealQuery sql)
      (fun _ s => n < s.net.events.length) (fun _ => True) := by
  intro s hs
  have hlt : n < s.net.events.length + 1 := by omega
  unfold mysqlRealQuery
  split
  · simpa [Ends] using hlt
  · split <;> simp [Ends, hlt]

/-- **`execute` issues its statement.** -/
theorem execute_issues (c : DBConnection) (sql : Bytes) :
    Triple (· = c) (DBConnection.execute sql)
      (fun _ s => c.net.events.length < s.net.events.length) (fun _ => True) := by
  have active : Triple (fun s => c.net.events.length < s.net.events.length)
      DBConnection.isActive (fun _ s => c.net.events.length < s.net.events.length)
      (fun _ => True) :=
    (Keeps.along Quiet.refl quiet_isActive fun s s' h hs => hs.events_eq ▸ h).stops
      fun _ _ => trivial
  have again : Triple (fun s => c.net.events.length < s.net.events.length)
      (mysqlRealQuery (cstr sql)) (fun _ s => c.net.events.length < s.net.events.length)
      (fun _ => True) :=
    (mysqlRealQuery_issues _ _).assume fun _ h => le_of_lt h
  have inner : Triple (fun s => c.net.events.length ≤ s.net.events.length)
      (DBConnection.innerExecute sql) (fun _ s => c.net.events.length < s.net.events.length)
      (fun _ => True) := by
    refine .bind (mysqlRealQuery_issues _ _) fun ret => .ite (fun _ => .pure fun _ h => h) ?_
    intro hret
    refine .bind active fun alive => .ite (fun _ => again) fun _ => .pure fun _ h => h
  have count : Triple (· = c) (modify fun conn : DBConnection =>
      { conn with traceInfo := { conn.traceInfo with execCount := conn.traceInfo.execCount + 1 } } :
        Db PUnit)
      (fun _ s => c.net.events.length ≤ s.net.events.length) (fun _ => True) := by
    rintro s rfl
    exact le_rfl (a := s.net.events.length)
  refine .bind count fun _ => .bind inner fun ret => ?_
  have watch : Triple (fun s => c.net.events.length < s.net.events.length) watchInterval
      (fun _ s => c.net.events.length < s.net.events.length) (fun _ => True) :=
    (Keeps.along (fun s => ⟨rfl, rfl, rfl, rfl⟩) sameHandle_watch
      fun s s' h hs => hs.events_eq ▸ h).stops fun _ _ => trivial
  refine .bind watch fun time => ?_
  have record : Triple (fun s => c.net.events.length < s.net.events.length)
      (modify fun conn : DBConnection =>
        { conn with traceInfo := conn.traceInfo.record time ret } : Db PUnit)
      (fun _ s => c.net.events.length < s.net.events.length) (fun _ => True) := fun s h => h
  exact .bind record fun _ => .pure fun s h => h

/-- **The queries of a handler.** -/
theorem queries_execSql (body : List HandlerOp) (ret : Bool) (subs : List Submission)
    (c : DBConnection) :
    Triple (· = c) (execSql body ret subs)
      (fun r s => r.2.map (·.sql) = subs.map (·.sql) ++ sqls body ∧
        ∃ events, Queries (sqls body) events ∧ s.net.events = c.net.events ++ events)
      (fun _ => True) := by
  induction body generalizing ret subs c with
  | nil =>
      refine .pure ?_
      rintro s rfl
      exact ⟨by simp, [], .nil, by simp⟩
  | cons op rest ih =>
      cases op with
      | exec sql =>
          refine .bind (((execute_spec c sql).and (execute_issues c sql)).stops
            fun _ _ => trivial) fun ret' => ?_
          refine .bind (Q := fun conn s => conn = s ∧ ExecuteEnds c (cstr sql) ret' s ∧
              c.net.events.length < s.net.events.length)
            (fun s hs => ⟨rfl, hs⟩) fun conn => ?_
          rintro s ⟨rfl, hs, hissued⟩
          obtain ⟨new, hnew⟩ := hs.executed
          have hpart : new ≠ [] := by
            rintro rfl
            simp [hnew.events_eq] at hissued
          refine (ih ret' _ conn conn rfl).weaken ?_ fun _ _ => trivial
          rintro r s' ⟨hsubs, events, hevents, heq⟩
          refine ⟨by simpa using hsubs, new ++ events,
            .cons hpart hnew.length_le hnew.sql_eq hnew.failed hevents, ?_⟩
          rw [heq, hnew.events_eq, List.append_assoc]
      | escape src =>
          have hesc : Triple (· = c) (DBConnection.escapeStringEx src) (fun _ => Quiet c)
              (fun _ => True) := by
            rintro s rfl
            exact (quiet_escapeStringEx s src s (Quiet.refl s)).weaken (fun _ _ hs => hs)
              fun _ _ => trivial
          refine .bind hesc fun _ => ?_
          intro s hs
          refine (ih ret subs s s rfl).weaken ?_ fun _ _ => trivial
          rintro r s' ⟨hsubs, events, hevents, heq⟩
          exact ⟨by simpa using hsubs, events, hevents, by rw [heq, hs.events_eq]⟩

/-- Taking the result issues no query. -/
theorem initResult_events (events : List QueryEvent) :
    Triple (fun s => s.net.events = events) initResult (fun _ s => s.net.events = events)
      (fun _ => True) := by
  have store : Triple (fun s => s.net.events = events) mysqlStoreResult
      (fun _ s => s.net.events = events) (fun _ => True) := by
    intro s hs
    unfold mysqlStoreResult
    split <;> exact hs
  refine .bind store fun set => ?_
  split
  · exact .pure fun _ hs => hs
  · exact .throw fun _ _ => trivial

/-- **The queries of an execution.** -/
theorem queries_execTask {conn conn' : DBConnection} {t t' : Task}
    (h : LifeCycle.execTask conn t = some (conn', t')) :
    ∃ events, Queries (t'.subs.map (·.sql)) events ∧
      conn'.net.events = conn.net.events ++ events := by
  have hspec : Triple (· = conn) (t.base.onExecute t.body)
      (fun r s => ∃ events, Queries (r.2.2.map (·.sql)) events ∧
        s.net.events = conn.net.events ++ events) (fun _ => True) := by
    refine .bind (queries_execSql t.body false [] conn) fun ⟨ret, subs⟩ => ?_
    rintro s ⟨hsubs, events, hevents, heq⟩
    rw [List.map_nil, List.nil_append] at hsubs
    have hqueries : Queries (subs.map (·.sql)) events := hsubs ▸ hevents
    cases ret with
    | true =>
        refine Triple.bind (initResult_events _) (fun result => .pure ?_) s heq
        exact fun s' hs' => ⟨events, hqueries, hs'⟩
    | false => exact ⟨events, hqueries, heq⟩
  unfold LifeCycle.execTask at h
  split at h
  · next ret base subs conn₁ hrun =>
      cases h
      exact hspec.of_ok rfl hrun
  · cases h

/-- The pools stay what they were, everything in the queue is where it was selected for, and
the lanes are in order. -/
structure Placed (m : MysqlMgr) (s : System) : Prop where
  pools : SamePools m s.mgr
  selected : ∀ job ∈ s.queue, Selected m job.lane job.payload
  order : LaneOrder s.queue

theorem laneFinish_eq {queue : List (Job ℕ Pushed)} {k : ℕ} {job : Job ℕ Pushed}
    (hjob : queue[k]? = some job) (hactive : job.status = .active) :
    laneStep queue (.finish k) = some (queue.set k { job with status := .done }) := by
  rw [laneStep, laneFinish, hjob]
  exact if_pos hactive

/-- **The step.** -/
theorem Placed.step {m : MysqlMgr} {s s' : System} {a : SystemAction} (h : Placed m s)
    (hstep : s.step a = some s') : Placed m s' := by
  cases System.step_cases hstep with
  | refused => exact h
  | unused => exact h
  | used => exact ⟨⟨h.pools.connctionMap_eq, h.pools.asyncConnectionNum_eq⟩, h.selected, h.order⟩
  | notify ht hnotify => exact ⟨h.pools, h.selected, h.order⟩
  | release ht hphase => exact ⟨h.pools, h.selected, h.order⟩
  | pushed hpush hnew hmgr =>
      obtain ⟨hpools, hsel⟩ := MysqlMgr.pushMysqlHandler_spec hpush
      exact ⟨h.pools.trans hpools,
        selected_append h.selected (h.pools.selected (hsel _ _ rfl)),
        h.order.step (a := .submit _ _) rfl⟩
  | @start k _ hqueue =>
      have horder := h.order.step (a := .start k) hqueue
      obtain ⟨job, hjob, -, -, rfl⟩ := laneStart_eq_some hqueue
      exact ⟨h.pools, selected_set h.selected hjob _, horder⟩
  | finish hjob hactive ht hconn hexec =>
      exact ⟨⟨h.pools.connctionMap_eq, h.pools.asyncConnectionNum_eq⟩, selected_set h.selected hjob _,
        h.order.step (laneFinish_eq hjob hactive)⟩
  | drop hjob hactive ht =>
      exact ⟨h.pools, selected_set h.selected hjob _, h.order.step (laneFinish_eq hjob hactive)⟩

/-- Of the queries written for each place of the queue, those on connection `c`, in the order
of the queue; `cs` are the connections of the places. -/
def eventsOn (c : ℕ) : List ℕ → List (List QueryEvent) → List QueryEvent
  | c' :: cs, events :: written => (if c' = c then events else []) ++ eventsOn c cs written
  | _, _ => []

@[simp] theorem eventsOn_nil_left (c : ℕ) (written : List (List QueryEvent)) :
    eventsOn c [] written = [] := rfl

@[simp] theorem eventsOn_cons (c c' : ℕ) (cs : List ℕ) (events : List QueryEvent)
    (written : List (List QueryEvent)) :
    eventsOn c (c' :: cs) (events :: written)
      = (if c' = c then events else []) ++ eventsOn c cs written := rfl

theorem eventsOn_nil {c : ℕ} {cs : List ℕ} {written : List (List QueryEvent)}
    (h : ∀ (i : ℕ) (events : List QueryEvent), cs[i]? = some c → written[i]? = some events →
      events = []) : eventsOn c cs written = [] := by
  induction cs generalizing written with
  | nil => rfl
  | cons c' cs ih =>
      cases written with
      | nil => rfl
      | cons events written =>
          rw [eventsOn_cons, ih fun i events' hc hevents => h (i + 1) events' hc hevents,
            List.append_nil]
          split
          · next hc => exact h 0 events (by rw [hc]; rfl) rfl
          · rfl

/-- A new place without queries. -/
theorem eventsOn_append {c c' : ℕ} {cs : List ℕ} {written : List (List QueryEvent)}
    (hlen : written.length = cs.length) :
    eventsOn c (cs ++ [c']) (written ++ [[]]) = eventsOn c cs written := by
  induction cs generalizing written with
  | nil =>
      obtain rfl := List.length_eq_zero_iff.mp hlen
      simp
  | cons c'' cs ih =>
      cases written with
      | nil => cases hlen
      | cons events written =>
          rw [List.cons_append, List.cons_append, eventsOn_cons, eventsOn_cons,
            ih (Nat.succ.inj hlen)]

/-- **The queries of one place**, when no later place of its connection has any, come behind
all others of the connection. -/
theorem eventsOn_set {c c₀ k : ℕ} {cs : List ℕ} {written : List (List QueryEvent)}
    (hk : cs[k]? = some c₀) (hempty : written[k]? = some [])
    (hlater : ∀ (i : ℕ) (events : List QueryEvent), k < i → cs[i]? = some c₀ →
      written[i]? = some events → events = []) (events : List QueryEvent) :
    eventsOn c cs (written.set k events)
      = eventsOn c cs written ++ if c₀ = c then events else [] := by
  induction cs generalizing written k with
  | nil => simp at hk
  | cons c' cs ih =>
      cases written with
      | nil => simp at hempty
      | cons events' written =>
          cases k with
          | zero =>
              obtain rfl : c' = c₀ := Option.some.inj hk
              obtain rfl : events' = [] := Option.some.inj hempty
              rw [List.set_cons_zero, eventsOn_cons, eventsOn_cons]
              by_cases hc : c' = c
              · subst hc
                have hrest : eventsOn c' cs written = [] :=
                  eventsOn_nil fun i events'' hi hevents =>
                    hlater (i + 1) events'' (Nat.succ_pos i) hi hevents
                simp [hrest]
              · simp [hc]
          | succ k =>
              rw [List.set_cons_succ, eventsOn_cons, eventsOn_cons, ih hk hempty ?_, List.append_assoc]
              intro i events'' hki hi hevents
              exact hlater (i + 1) events'' (Nat.succ_lt_succ hki) hi hevents

/-- What has reached the connections of the manager since it was `m`: for each place of the
queue the queries of its handler, and nothing else. -/
structure Reached (m : MysqlMgr) (s : System) (written : List (List QueryEvent)) : Prop where
  length_eq : written.length = s.queue.length
  queries : ∀ (k : ℕ) (t : Task) (events : List QueryEvent), s.tasks[k]? = some t →
    written[k]? = some events → Queries (t.subs.map (·.sql)) events
  waiting : ∀ (k : ℕ) (job : Job ℕ Pushed) (events : List QueryEvent), s.queue[k]? = some job →
    job.status ≠ .done → written[k]? = some events → events = []
  connections_eq : s.mgr.connections.length = m.connections.length
  events_eq : ∀ (c : ℕ) (conn₀ conn : DBConnection), m.connections[c]? = some conn₀ →
    s.mgr.connections[c]? = some conn →
    conn.net.events = conn₀.net.events ++ eventsOn c s.placeConnections written

/-- Nothing that the main thread tells a handler changes what it submitted. -/
theorem Task.notify_subs {t t' : Task} (h : t.notify = some t') : t'.subs = t.subs := by
  unfold Task.notify at h
  split at h
  · cases h
    rfl
  · cases h
    rfl
  · cases h
    rfl
  · cases h

theorem Reached.queries_set {m : MysqlMgr} {s : System} {written : List (List QueryEvent)}
    (h : Reached m s written) {k : ℕ} {t t' : Task} (ht : s.tasks[k]? = some t)
    (hsubs : t'.subs = t.subs) :
    ∀ (i : ℕ) (t₁ : Task) (events : List QueryEvent), (s.tasks.set k t')[i]? = some t₁ →
      written[i]? = some events → Queries (t₁.subs.map (·.sql)) events := by
  intro i t₁ events ht₁ hevents
  rcases getElem?_set_eq_some ht₁ with ⟨rfl, rfl⟩ | ⟨-, ht₁⟩
  · rw [hsubs]
    exact h.queries i t events ht hevents
  · exact h.queries i t₁ events ht₁ hevents

/-- What comes behind an active job on its connection waits. -/
theorem Placed.waiting_behind {m : MysqlMgr} (hpools : Pools m) {s : System} (h : Placed m s)
    {k i : ℕ} {job later : Job ℕ Pushed} (hki : k < i) (hjob : s.queue[k]? = some job)
    (hactive : job.status = .active) (hlater : s.queue[i]? = some later)
    (hconn : later.payload.connection = job.payload.connection) : later.status = .waiting := by
  obtain ⟨-, entry, hentry, hget⟩ := h.selected job (List.mem_of_getElem? hjob)
  obtain ⟨-, entry', hentry', hget'⟩ := h.selected later (List.mem_of_getElem? hlater)
  rw [hconn] at hget'
  have hlane := hpools.slot_unique entry hentry entry' hentry' _ _ _ hget hget'
  by_contra hstarted
  have hdone := h.order k i job later hki hjob hlater hlane hstarted
  rw [hactive] at hdone
  cases hdone

section Step

variable {m : MysqlMgr} {s : System} {written : List (List QueryEvent)} (h : Reached m s written)
include h

/-- A new handler has reached no connection. -/
theorem Reached.pushed (htasks : s.tasks.length = s.queue.length) {mgr : MysqlMgr}
    (hmgr : mgr.connections = s.mgr.connections) (job : Job ℕ Pushed) (body : List HandlerOp) :
    Reached m { s with
      mgr := mgr, queue := s.queue ++ [job], tasks := s.tasks ++ [{ body := body }] }
      (written ++ [[]]) := by
  have hlen := h.length_eq
  refine ⟨by simp [hlen], ?_, ?_, by rw [hmgr, h.connections_eq], ?_⟩
  · intro k t events ht hevents
    by_cases hk : k < s.queue.length
    · rw [List.getElem?_append_left (by omega)] at ht hevents
      exact h.queries k t events ht hevents
    · rw [List.getElem?_append_right (by omega)] at ht hevents
      rw [List.mem_singleton.mp (List.mem_of_getElem? ht),
        List.mem_singleton.mp (List.mem_of_getElem? hevents)]
      exact .nil
  · intro k job events hjob hstatus hevents
    by_cases hk : k < s.queue.length
    · rw [List.getElem?_append_left hk] at hjob
      rw [List.getElem?_append_left (by omega)] at hevents
      exact h.waiting k job events hjob hstatus hevents
    · rw [List.getElem?_append_right (by omega)] at hevents
      exact List.mem_singleton.mp (List.mem_of_getElem? hevents)
  · intro c conn₀ conn hconn₀ hconn
    rw [hmgr] at hconn
    rw [h.events_eq c conn₀ conn hconn₀ hconn, System.placeConnections,
      System.placeConnections, List.map_append, List.map_singleton,
      eventsOn_append (by rw [List.length_map, hlen])]

/-- Another status of a job, not the first one, changes nothing of what was written. -/
theorem Reached.status {k : ℕ} {job : Job ℕ Pushed} (hjob : s.queue[k]? = some job)
    (hactive : job.status ≠ .done) (status : Status) :
    Reached m { s with queue := s.queue.set k { job with status := status } } written := by
  refine ⟨by rw [List.length_set, h.length_eq], h.queries, ?_, h.connections_eq, ?_⟩
  · intro i job' events hjob' hstatus hevents
    rcases getElem?_set_eq_some hjob' with ⟨rfl, rfl⟩ | ⟨-, hjob'⟩
    · exact h.waiting _ job events hjob hactive hevents
    · exact h.waiting i job' events hjob' hstatus hevents
  · intro c conn₀ conn hconn₀ hconn
    rw [h.events_eq c conn₀ conn hconn₀ hconn, System.placeConnections,
      System.placeConnections, map_payload_set Pushed.connection hjob]

/-- The handler changes, but not what it has submitted. -/
theorem Reached.tell {k : ℕ} {t t' : Task} (ht : s.tasks[k]? = some t) (hsubs : t'.subs = t.subs) :
    Reached m { s with tasks := s.tasks.set k t' } written :=
  ⟨h.length_eq, h.queries_set ht hsubs, h.waiting, h.connections_eq, h.events_eq⟩

/-- A handler is executed while all that comes behind it on its connection waits. -/
theorem Reached.executed {k : ℕ} {job : Job ℕ Pushed} {t t' : Task} {conn conn' : DBConnection}
    (hjob : s.queue[k]? = some job) (hactive : job.status = .active)
    (hconn : s.mgr.connections[job.payload.connection]? = some conn)
    (hexec : LifeCycle.execTask conn t = some (conn', t'))
    (hbehind : ∀ (i : ℕ) (later : Job ℕ Pushed), k < i → s.queue[i]? = some later →
      later.payload.connection = job.payload.connection → later.status = .waiting) :
    ∃ written', Reached m { s with
      mgr := s.mgr.setConnection job.payload.connection conn'
      queue := s.queue.set k { job with status := .done }
      tasks := s.tasks.set k t' } written' := by
  obtain ⟨new, hnew, hevents'⟩ := queries_execTask hexec
  have hlt : k < written.length := by
    rw [h.length_eq]
    exact (List.getElem?_eq_some_iff.mp hjob).1
  have hempty : written[k]? = some [] := by
    have hget := List.getElem?_eq_getElem hlt
    rw [hget, h.waiting k job _ hjob (by simp [hactive]) hget]
  have hplace : s.placeConnections[k]? = some job.payload.connection := by
    rw [System.placeConnections, List.getElem?_map, hjob]
    rfl
  have hlater : ∀ (i : ℕ) (events : List QueryEvent), k < i →
      s.placeConnections[i]? = some job.payload.connection → written[i]? = some events →
      events = [] := by
    intro i events hki hi hevents
    rw [System.placeConnections, List.getElem?_map] at hi
    obtain ⟨later, hlater, hsame⟩ := Option.map_eq_some_iff.mp hi
    exact h.waiting i later events hlater (by simp [hbehind i later hki hlater hsame]) hevents
  refine ⟨written.set k new, by rw [List.length_set, List.length_set, h.length_eq], ?_, ?_, ?_, ?_⟩
  · intro i t₁ events ht₁ hevents
    rcases getElem?_set_eq_some ht₁ with ⟨rfl, rfl⟩ | ⟨hi, ht₁⟩
    · rw [List.getElem?_set_self hlt] at hevents
      exact Option.some.inj hevents ▸ hnew
    · rw [List.getElem?_set_ne (Ne.symm hi)] at hevents
      exact h.queries i t₁ events ht₁ hevents
  · intro i job' events hjob' hstatus hevents
    rcases getElem?_set_eq_some hjob' with ⟨rfl, rfl⟩ | ⟨hi, hjob'⟩
    · exact absurd rfl hstatus
    · rw [List.getElem?_set_ne (Ne.symm hi)] at hevents
      exact h.waiting i job' events hjob' hstatus hevents
  · rw [MysqlMgr.setConnection, List.length_set]
    exact h.connections_eq
  · intro c conn₀ conn₁ hconn₀ hconn₁
    rw [System.placeConnections, map_payload_set Pushed.connection hjob,
      ← System.placeConnections, eventsOn_set hplace hempty hlater]
    rcases getElem?_set_eq_some hconn₁ with ⟨rfl, rfl⟩ | ⟨hc, hconn₁⟩
    · rw [if_pos rfl, hevents', h.events_eq _ conn₀ conn hconn₀ hconn, List.append_assoc]
    · rw [if_neg (Ne.symm hc), List.append_nil]
      exact h.events_eq c conn₀ conn₁ hconn₀ hconn₁

/-- **The step**, unless another module uses a connection. -/
theorem Reached.step (hpools : Pools m) {s' : System} {a : SystemAction} (hp : Placed m s)
    (ha : Accounted s) (hstep : s.step a = some s') (huse : ∀ u, a ≠ .use u) :
    ∃ written', Reached m s' written' := by
  cases System.step_cases hstep with
  | refused => exact ⟨written, h⟩
  | unused => exact absurd rfl (huse _)
  | used => exact absurd rfl (huse _)
  | notify ht hnotify => exact ⟨written, h.tell ht (Task.notify_subs hnotify)⟩
  | @release k t ht hphase =>
      -- the count of the releases is in none of the fields
      have htold := h.tell ht (show t.onRelease.subs = t.subs from rfl)
      exact ⟨written, htold.length_eq, htold.queries, htold.waiting, htold.connections_eq,
        htold.events_eq⟩
  | pushed hpush hnew hmgr => exact ⟨written ++ [[]], h.pushed ha.length_eq (by rw [hmgr]) _ _⟩
  | start hqueue =>
      obtain ⟨job, hjob, hwaiting, -, rfl⟩ := laneStart_eq_some hqueue
      exact ⟨written, h.status hjob (by simp [hwaiting]) .active⟩
  | drop hjob hactive ht =>
      exact ⟨written, (h.status hjob (by simp [hactive]) .done).tell ht rfl⟩
  | finish hjob hactive ht hconn hexec =>
      exact h.executed hjob hactive hconn hexec fun i later hki hlater hsame =>
        hp.waiting_behind hpools hki hjob hactive hlater hsame

end Step

/-- **Statements reach a connection in the order of the pushes.**  Along every run in which
only handlers use the connections, what each connection has carried since start-up is, for
the handlers that were pushed to it and in the order of the pushes, the queries of one
handler after those of another, never mixed; and these are the statements that the handler
submitted, in its order. -/
theorem system_statements {config : Option ConfigFile} {nets : List Network} {m : MysqlMgr}
    (hload : loadConfigFile config nets = .ok (true, m)) {as : List SystemAction} {s : System}
    (h : Run System.step (.init m) as s) (has : ∀ u, .use u ∉ as) :
    ∃ written : List (List QueryEvent), written.length = s.queue.length ∧
      (∀ (k : ℕ) (t : Task) (events : List QueryEvent), s.tasks[k]? = some t →
        written[k]? = some events → Queries (t.subs.map (·.sql)) events) ∧
      ∀ (c : ℕ) (conn₀ conn : DBConnection), m.connections[c]? = some conn₀ →
        s.mgr.connections[c]? = some conn →
        conn.net.events = conn₀.net.events ++ eventsOn c s.placeConnections written := by
  have hpools := pools_loadConfigFile hload
  have hm := unpushed_loadConfigFile hload
  have hinit : Reached m (.init m) [] := by
    refine ⟨rfl, by simp, by simp, rfl, ?_⟩
    intro c conn₀ conn hconn₀ hconn
    rw [Option.some.inj (hconn₀.symm.trans hconn)]
    simp [System.placeConnections, System.init]
  have hinv := h.invariant
    (P := fun s => Placed m s ∧ Accounted s ∧ ∃ written, Reached m s written)
    (Q := fun a => ∀ u, a ≠ .use u)
    (fun s a t hu hstep hs => by
      obtain ⟨hp, ha, written, hr⟩ := hs
      exact ⟨hp.step hstep, ha.step hstep, hr.step hpools hp ha hstep hu⟩)
    (fun a ha u hu => has u (hu ▸ ha))
    ⟨⟨⟨rfl, rfl⟩, by simp [System.init], by simp [System.init, LaneOrder]⟩,
      accounted_of_run hm (.nil _), [], hinit⟩
  obtain ⟨-, -, written, hr⟩ := hinv
  exact ⟨written, hr.length_eq, hr.queries, hr.events_eq⟩

/-- Both handlers are on the connection of the second worker. -/
theorem system_statements_two : ∃ m s, ∃ written : List (List QueryEvent),
    loadConfigFile (some exampleConfig) (List.replicate 6 freshConnection.net) = .ok (true, m) ∧
      Run System.step (.init m) systemActions s ∧ written.length = 2 ∧
      ∀ (conn₀ conn : DBConnection), m.connections[2]? = some conn₀ →
        s.mgr.connections[2]? = some conn →
        conn.net.events = conn₀.net.events ++ eventsOn 2 [2, 2] written := by
  obtain ⟨m, s, hload, hrun, hlen, hplaces, -⟩ := exists_systemRun
  have huse : ∀ u, SystemAction.use u ∉ systemActions := by simp [systemActions]
  obtain ⟨written, hwritten, -, hevents⟩ := system_statements hload hrun huse
  exact ⟨m, s, written, hload, hrun, by rw [hwritten, hlen], hplaces ▸ hevents 2⟩

end SeedCore.Mysql
