import SeedCore.Mysql.LifeCycle
import SeedCore.Mysql.Selection

/-!
# The whole manager

Every handler of every connection at once: the main thread pushes, tells and releases
handlers, the workers take them in the order of their lanes, and other modules use the
connections in between.  A worker that has taken a handler executes it on the connection
that was selected for it, or the queue gives it up.

## Main definitions

* `System`, `System.step` — the manager, its queue and the handlers.
* `Accounted` — what the counters of the manager count.
* `system_accounts`, `system_ownOutcome` — what holds along every run.
-/

namespace SeedCore.Mysql

/-- The manager, its queue, and for each place of the queue the handler with its
`MysqlBase`. -/
structure System where
  mgr : MysqlMgr
  queue : List (Job ℕ Pushed) := []
  tasks : List Task := []
  /-- `_releaseBaseCount` -/
  releaseBaseCount : ℤ := 0

/-- A use of a connection that no handler makes. -/
inductive Use
  | exec (threadIdx : ℤ) (sql : Bytes) (connectionName : Option Bytes)
  | execCb (threadIdx : ℤ) (sql : Bytes) (cbFun : Bool) (connectionName : Option Bytes)
  | escape (threadIdx : ℤ) (src : Bytes) (connectionName : Option Bytes)
  | escapeMain (src : Bytes) (connectionName : Option Bytes)

/-- The manager after a use. -/
def MysqlMgr.use (m : MysqlMgr) : Use → Except Stuck MysqlMgr
  | .exec threadIdx sql connectionName =>
      (m.execSqlInAsyncThread threadIdx sql connectionName).map Prod.snd
  | .execCb threadIdx sql cbFun connectionName =>
      (m.execSqlInAsyncThreadCb threadIdx sql cbFun connectionName).map Prod.snd
  | .escape threadIdx src connectionName =>
      (m.escapeStringExInAsyncThread threadIdx src connectionName).map Prod.snd
  | .escapeMain src connectionName =>
      (m.escapeStringExInMainThread src connectionName).map Prod.snd

/-- A step of the main thread, of a worker or of another module. -/
inductive SystemAction
  /-- `PushMysqlHandler`; `body` is what `ExecSql` of the handler will do. -/
  | push (id : ℤ) (handler : Option ℕ) (connectionName : Option Bytes) (body : List HandlerOp)
  /-- A worker takes the handler. -/
  | start (k : ℕ)
  /-- `OnExecute` -/
  | finish (k : ℕ)
  /-- The queue gives the handler up. -/
  | drop (k : ℕ)
  /-- `OnSuccess` or `OnFailed` -/
  | notify (k : ℕ)
  /-- `OnRelease` -/
  | release (k : ℕ)
  | use (u : Use)

/-- The manager after a connection was worked on. -/
def MysqlMgr.setConnection (m : MysqlMgr) (c : ℕ) (conn : DBConnection) : MysqlMgr :=
  { m with connections := m.connections.set c conn }

namespace System

/-- One step; an action that is not possible has none. -/
def step (s : System) : SystemAction → Option System
  | .push id handler connectionName body =>
      match s.mgr.pushMysqlHandler id handler connectionName with
      | .error _ => none
      | .ok (none, mgr) => some { s with mgr := mgr }
      | .ok (some (threadIdx, pushed), mgr) => do
          let queue ← laneStep s.queue (.submit threadIdx pushed)
          return { s with mgr := mgr, queue := queue, tasks := s.tasks ++ [{ body := body }] }
  | .start k => do
      let queue ← laneStep s.queue (.start k)
      return { s with queue := queue }
  | .finish k => do
      let queue ← laneStep s.queue (.finish k)
      let job ← s.queue[k]?
      let t ← s.tasks[k]?
      let conn ← s.mgr.connections[job.payload.connection]?
      let (conn, t) ← LifeCycle.execTask conn t
      return { s with
        mgr := s.mgr.setConnection job.payload.connection conn
        queue := queue
        tasks := s.tasks.set k t }
  | .drop k => do
      let queue ← laneStep s.queue (.finish k)
      let t ← s.tasks[k]?
      return { s with queue := queue, tasks := s.tasks.set k { t with phase := .cancelled } }
  | .notify k => do
      let t ← s.tasks[k]?
      let t ← t.notify
      return { s with tasks := s.tasks.set k t }
  | .release k => do
      let t ← s.tasks[k]?
      if t.phase = .notified then
        return { s with
          tasks := s.tasks.set k t.onRelease
          releaseBaseCount := toInt32 (s.releaseBaseCount + 1) }
      else none
  | .use u =>
      match s.mgr.use u with
      | .ok mgr => some { s with mgr := mgr }
      | .error _ => none

/-- The manager as `Initialize` leaves it. -/
def init (m : MysqlMgr) : System := { mgr := m }

end System

/-- The connections of the places of the queue. -/
def System.placeConnections (s : System) : List ℕ := s.queue.map (·.payload.connection)

/-! ## What a step can do -/

/-- **What `PushMysqlHandler` can do**: refuse the handler, or give it a base. -/
theorem MysqlMgr.pushMysqlHandler_cases {m m' : MysqlMgr} {id : ℤ} {handler : Option ℕ}
    {connectionName : Option Bytes} {r : Option (ℕ × Pushed)}
    (h : m.pushMysqlHandler id handler connectionName = .ok (r, m')) :
    (r = none ∧ m' = m) ∨ ∃ threadIdx pushed, r = some (threadIdx, pushed) ∧
      pushed.handler ∉ m.based ∧ m' = { m with
        based := pushed.handler :: m.based
        createBaseCount := toInt32 (m.createBaseCount + 1) } := by
  unfold MysqlMgr.pushMysqlHandler at h
  split at h
  · cases h
    exact .inl ⟨rfl, rfl⟩
  · split at h
    · cases h
      exact .inl ⟨rfl, rfl⟩
    · next hnew =>
        obtain ⟨threadIdx, -, h⟩ := bind_eq_ok.mp h
        obtain ⟨connection, -, h⟩ := bind_eq_ok.mp h
        cases connection with
        | none =>
            cases h
            exact .inl ⟨rfl, rfl⟩
        | some connection =>
            cases h
            exact .inr ⟨_, _, rfl, hnew, rfl⟩

/-- An operation on a connection changes that connection, or none. -/
theorem MysqlMgr.onConnection_cases {α : Type} {m m' : MysqlMgr} {refused a : α} {x : Db α}
    {connection : Option ℕ} (h : m.onConnection refused x connection = .ok (a, m')) :
    m' = m ∨ ∃ c conn conn', m.connections[c]? = some conn ∧ x conn = .ok a conn' ∧
      m' = m.setConnection c conn' := by
  cases connection with
  | none =>
      cases h
      exact .inl rfl
  | some c =>
      unfold MysqlMgr.onConnection at h
      dsimp only at h
      split at h
      · cases h
      · next conn hconn =>
          split at h
          · next a' conn' hx =>
              cases h
              exact .inr ⟨c, conn, conn', hconn, hx, rfl⟩
          · cases h

theorem exists_of_map_snd {α : Type} {x : Except Stuck (α × MysqlMgr)} {m' : MysqlMgr}
    (h : x.map Prod.snd = .ok m') : ∃ a, x = .ok (a, m') := by
  cases x with
  | error e => cases h
  | ok r =>
      cases h
      exact ⟨r.1, rfl⟩

/-- A use leaves everything but the connections. -/
theorem MysqlMgr.use_cases {m m' : MysqlMgr} {u : Use} (h : m.use u = .ok m') :
    m' = m ∨ ∃ c conn', m' = m.setConnection c conn' := by
  have weaker : ∀ {α : Type} {refused a : α} {x : Db α} {connection : Option ℕ},
      m.onConnection refused x connection = .ok (a, m') →
        m' = m ∨ ∃ c conn', m' = m.setConnection c conn' := by
    intro α refused a x connection hon
    rcases MysqlMgr.onConnection_cases hon with heq | ⟨c, conn, conn', -, -, heq⟩
    · exact .inl heq
    · exact .inr ⟨c, conn', heq⟩
  cases u with
  | exec threadIdx sql connectionName =>
      obtain ⟨a, hexec⟩ := exists_of_map_snd h
      obtain ⟨connection, -, hon⟩ := bind_eq_ok.mp hexec
      exact weaker hon
  | execCb threadIdx sql cbFun connectionName =>
      obtain ⟨a, hexec⟩ := exists_of_map_snd h
      obtain ⟨connection, -, hon⟩ := bind_eq_ok.mp hexec
      exact weaker hon
  | escape threadIdx src connectionName =>
      obtain ⟨a, hexec⟩ := exists_of_map_snd h
      obtain ⟨connection, -, hon⟩ := bind_eq_ok.mp hexec
      exact weaker hon
  | escapeMain src connectionName =>
      obtain ⟨a, hexec⟩ := exists_of_map_snd h
      obtain ⟨connection, -, hon⟩ := bind_eq_ok.mp hexec
      exact weaker hon

/-- **What a step can do**, in terms of the queue, the handlers and the connections. -/
inductive Step (s : System) : SystemAction → System → Prop
  | refused {id handler connectionName body} : Step s (.push id handler connectionName body) s
  | pushed {id handler connectionName body} {threadIdx : ℕ} {pushed : Pushed} {mgr : MysqlMgr}
      (hpush : s.mgr.pushMysqlHandler id handler connectionName
        = .ok (some (threadIdx, pushed), mgr))
      (hnew : pushed.handler ∉ s.mgr.based)
      (hmgr : mgr = { s.mgr with
        based := pushed.handler :: s.mgr.based
        createBaseCount := toInt32 (s.mgr.createBaseCount + 1) }) :
      Step s (.push id handler connectionName body) { s with
        mgr := mgr
        queue := s.queue ++ [{ lane := threadIdx, payload := pushed }]
        tasks := s.tasks ++ [{ body := body }] }
  | start {k : ℕ} {queue : List (Job ℕ Pushed)} (hqueue : laneStart s.queue k = some queue) :
      Step s (.start k) { s with queue := queue }
  | finish {k : ℕ} {job : Job ℕ Pushed} {t t' : Task} {conn conn' : DBConnection}
      (hjob : s.queue[k]? = some job) (hactive : job.status = .active)
      (htask : s.tasks[k]? = some t)
      (hconn : s.mgr.connections[job.payload.connection]? = some conn)
      (hexec : LifeCycle.execTask conn t = some (conn', t')) :
      Step s (.finish k) { s with
        mgr := s.mgr.setConnection job.payload.connection conn'
        queue := s.queue.set k { job with status := .done }
        tasks := s.tasks.set k t' }
  | drop {k : ℕ} {job : Job ℕ Pushed} {t : Task} (hjob : s.queue[k]? = some job)
      (hactive : job.status = .active) (htask : s.tasks[k]? = some t) :
      Step s (.drop k) { s with
        queue := s.queue.set k { job with status := .done }
        tasks := s.tasks.set k { t with phase := .cancelled } }
  | notify {k : ℕ} {t t' : Task} (htask : s.tasks[k]? = some t) (hnotify : t.notify = some t') :
      Step s (.notify k) { s with tasks := s.tasks.set k t' }
  | release {k : ℕ} {t : Task} (htask : s.tasks[k]? = some t) (hphase : t.phase = .notified) :
      Step s (.release k) { s with
        tasks := s.tasks.set k t.onRelease
        releaseBaseCount := toInt32 (s.releaseBaseCount + 1) }
  | unused {u : Use} : Step s (.use u) s
  | used {u : Use} {c : ℕ} {conn' : DBConnection} :
      Step s (.use u) { s with mgr := s.mgr.setConnection c conn' }

theorem System.step_cases {s s' : System} {a : SystemAction} (h : s.step a = some s') :
    Step s a s' := by
  cases a with
  | push id handler connectionName body =>
      simp only [System.step] at h
      split at h
      · cases h
      · next mgr hpush =>
          rcases MysqlMgr.pushMysqlHandler_cases hpush with ⟨-, rfl⟩ | ⟨_, _, hr, -, -⟩
          · cases h
            exact .refused
          · cases hr
      · next threadIdx pushed mgr hpush =>
          rcases MysqlMgr.pushMysqlHandler_cases hpush with ⟨hr, -⟩ | ⟨_, _, hr, hnew, hmgr⟩
          · cases hr
          · cases hr
            cases h
            exact .pushed hpush hnew hmgr
  | start k =>
      obtain ⟨queue, hqueue, h⟩ := Option.bind_eq_some_iff.mp h
      cases h
      exact .start hqueue
  | finish k =>
      obtain ⟨queue, hqueue, h⟩ := Option.bind_eq_some_iff.mp h
      obtain ⟨job', hjob', h⟩ := Option.bind_eq_some_iff.mp h
      obtain ⟨t, htask, h⟩ := Option.bind_eq_some_iff.mp h
      obtain ⟨conn, hconn, h⟩ := Option.bind_eq_some_iff.mp h
      obtain ⟨⟨conn', t'⟩, hexec, h⟩ := Option.bind_eq_some_iff.mp h
      obtain ⟨job, hjob, hactive, rfl⟩ := laneFinish_eq_some hqueue
      obtain rfl : job = job' := Option.some.inj (hjob.symm.trans hjob')
      cases h
      exact .finish hjob hactive htask hconn hexec
  | drop k =>
      obtain ⟨queue, hqueue, h⟩ := Option.bind_eq_some_iff.mp h
      obtain ⟨t, htask, h⟩ := Option.bind_eq_some_iff.mp h
      obtain ⟨job, hjob, hactive, rfl⟩ := laneFinish_eq_some hqueue
      cases h
      exact .drop hjob hactive htask
  | notify k =>
      obtain ⟨t, htask, h⟩ := Option.bind_eq_some_iff.mp h
      obtain ⟨t', hnotify, h⟩ := Option.bind_eq_some_iff.mp h
      cases h
      exact .notify htask hnotify
  | release k =>
      obtain ⟨t, htask, h⟩ := Option.bind_eq_some_iff.mp h
      obtain ⟨hphase, h⟩ := Option.ite_none_right_eq_some.mp h
      cases h
      exact .release htask hphase
  | use u =>
      simp only [System.step] at h
      split at h
      · next mgr huse =>
          cases h
          rcases MysqlMgr.use_cases huse with rfl | ⟨c, conn', rfl⟩
          · exact .unused
          · exact .used
      · cases h

/-! ## What the counters count -/

/-- A handler that was executed. -/
theorem execTask_phase {conn conn' : DBConnection} {t t' : Task}
    (h : LifeCycle.execTask conn t = some (conn', t')) : ∃ ret, t'.phase = .executed ret := by
  unfold LifeCycle.execTask at h
  split at h
  · cases h
    exact ⟨_, rfl⟩
  · cases h

/-- A handler is told once, when the worker is done with it. -/
theorem Task.notify_phase {t t' : Task} (h : t.notify = some t') :
    t.phase ≠ .queued ∧ t.phase ≠ .released ∧ t'.phase = .notified := by
  unfold Task.notify at h
  split at h
  · next hphase =>
      cases h
      exact ⟨by simp [hphase], by simp [hphase], rfl⟩
  · next hphase =>
      cases h
      exact ⟨by simp [hphase], by simp [hphase], rfl⟩
  · next hphase =>
      cases h
      exact ⟨by simp [hphase], by simp [hphase], rfl⟩
  · cases h

/-- The handlers that were released. -/
def releasedCount (tasks : List Task) : ℕ := tasks.countP fun t => t.phase = .released

/-- A step of a handler that is not its release. -/
theorem releasedCount_set {tasks : List Task} {k : ℕ} {t t' : Task} (ht : tasks[k]? = some t)
    (hphase : t.phase ≠ .released) (hphase' : t'.phase ≠ .released) :
    releasedCount (tasks.set k t') = releasedCount tasks := by
  obtain ⟨hlt, rfl⟩ := List.getElem?_eq_some_iff.mp ht
  rw [releasedCount, releasedCount, List.countP_set hlt]
  simp [hphase, hphase']

/-- Its release. -/
theorem releasedCount_release {tasks : List Task} {k : ℕ} {t : Task} (ht : tasks[k]? = some t)
    (hphase : t.phase = .notified) :
    releasedCount (tasks.set k t.onRelease) = releasedCount tasks + 1 := by
  obtain ⟨hlt, rfl⟩ := List.getElem?_eq_some_iff.mp ht
  rw [releasedCount, releasedCount, List.countP_set hlt]
  simp [hphase, Task.onRelease]

/-- The counters count the handlers that were accepted and released, as far as 32 bits go, a
handler is accepted once, and the queue and the handlers are in step. -/
structure Accounted (s : System) : Prop where
  length_eq : s.tasks.length = s.queue.length
  created_eq : s.mgr.createBaseCount = toInt32 s.tasks.length
  released_eq : s.releaseBaseCount = toInt32 (releasedCount s.tasks)
  based_eq : s.mgr.based = (s.queue.map (·.payload.handler)).reverse
  nodup : s.mgr.based.Nodup
  done_iff : ∀ (k : ℕ) (job : Job ℕ Pushed) (t : Task), s.queue[k]? = some job →
    s.tasks[k]? = some t → (job.status = .done ↔ t.phase ≠ .queued)

/-- A job whose status changed is still about the same. -/
theorem map_payload_set {β : Type} (f : Pushed → β) {queue : List (Job ℕ Pushed)} {k : ℕ}
    {job : Job ℕ Pushed} (hjob : queue[k]? = some job) (status : Status) :
    (queue.set k { job with status := status }).map (fun job => f job.payload)
      = queue.map fun job => f job.payload := by
  obtain ⟨hlt, rfl⟩ := List.getElem?_eq_some_iff.mp hjob
  apply List.ext_getElem
  · simp
  · intro i hi hi'
    by_cases hki : k = i
    · subst hki
      simp
    · simp [List.getElem_set_ne hki]

/-- A worker is done with a handler. -/
theorem Accounted.settle {s : System} (h : Accounted s) {mgr : MysqlMgr} {k : ℕ}
    {job : Job ℕ Pushed} {t t' : Task} (hcreated : mgr.createBaseCount = s.mgr.createBaseCount)
    (hbased : mgr.based = s.mgr.based) (hjob : s.queue[k]? = some job)
    (hactive : job.status = .active) (ht : s.tasks[k]? = some t) (hphase : t'.phase ≠ .queued)
    (hphase' : t'.phase ≠ .released) :
    Accounted { s with
      mgr := mgr
      queue := s.queue.set k { job with status := .done }
      tasks := s.tasks.set k t' } := by
  have hqueued : t.phase = .queued := by
    have hdone := h.done_iff k job t hjob ht
    simpa [hactive] using hdone
  refine ⟨by simp [h.length_eq], ?_, ?_, ?_, hbased ▸ h.nodup, ?_⟩
  · rw [List.length_set, hcreated]
    exact h.created_eq
  · rw [releasedCount_set ht (by simp [hqueued]) hphase']
    exact h.released_eq
  · rw [map_payload_set Pushed.handler hjob, hbased]
    exact h.based_eq
  · intro i job₁ t₁ hjob₁ ht₁
    rcases getElem?_set_eq_some hjob₁ with ⟨rfl, rfl⟩ | ⟨hi, hjob₁⟩
    · rcases getElem?_set_eq_some ht₁ with ⟨-, rfl⟩ | ⟨hi, -⟩
      · simp [hphase]
      · exact absurd rfl hi
    · rcases getElem?_set_eq_some ht₁ with ⟨hi', -⟩ | ⟨-, ht₁⟩
      · exact absurd hi' hi
      · exact h.done_iff i job₁ t₁ hjob₁ ht₁

/-- The main thread goes on with a handler that the worker is done with. -/
theorem Accounted.done_iff_set {s : System} (h : Accounted s) {k : ℕ} {t t' : Task}
    (ht : s.tasks[k]? = some t) (hphase : t.phase ≠ .queued) (hphase' : t'.phase ≠ .queued) :
    ∀ (i : ℕ) (job : Job ℕ Pushed) (t₁ : Task), s.queue[i]? = some job →
      (s.tasks.set k t')[i]? = some t₁ → (job.status = .done ↔ t₁.phase ≠ .queued) := by
  intro i job t₁ hjob ht₁
  rcases getElem?_set_eq_some ht₁ with ⟨rfl, rfl⟩ | ⟨-, ht₁⟩
  · have hdone := h.done_iff i job t hjob ht
    simpa [hphase, hphase'] using hdone
  · exact h.done_iff i job t₁ hjob ht₁

/-- **The step.** -/
theorem Accounted.step {s s' : System} {a : SystemAction} (h : Accounted s)
    (hstep : s.step a = some s') : Accounted s' := by
  cases System.step_cases hstep with
  | refused => exact h
  | unused => exact h
  | used => exact ⟨h.length_eq, h.created_eq, h.released_eq, h.based_eq, h.nodup, h.done_iff⟩
  | pushed hpush hnew hmgr =>
      subst hmgr
      refine ⟨?_, ?_, ?_, ?_, List.nodup_cons.mpr ⟨hnew, h.nodup⟩, ?_⟩
      · simp [h.length_eq]
      · rw [h.created_eq, toInt32_add_one, List.length_append]
        rfl
      · simp [h.released_eq, releasedCount]
      · simp [h.based_eq]
      · intro k job t hjob ht
        have hlen := h.length_eq
        by_cases hk : k < s.queue.length
        · rw [List.getElem?_append_left hk] at hjob
          rw [List.getElem?_append_left (by omega)] at ht
          exact h.done_iff k job t hjob ht
        · rw [List.getElem?_append_right (by omega)] at hjob
          rw [List.getElem?_append_right (by omega)] at ht
          rw [List.mem_singleton.mp (List.mem_of_getElem? hjob),
            List.mem_singleton.mp (List.mem_of_getElem? ht)]
          simp
  | start hqueue =>
      obtain ⟨job₀, hjob₀, hwaiting, -, rfl⟩ := laneStart_eq_some hqueue
      refine ⟨by simp [h.length_eq], h.created_eq, h.released_eq, ?_, h.nodup, ?_⟩
      · rw [map_payload_set Pushed.handler hjob₀]
        exact h.based_eq
      · intro k job t hjob ht
        rcases getElem?_set_eq_some hjob with ⟨rfl, rfl⟩ | ⟨-, hjob⟩
        · have hdone := h.done_iff _ job₀ t hjob₀ ht
          rw [hwaiting] at hdone
          simpa using hdone
        · exact h.done_iff k job t hjob ht
  | finish hjob hactive ht hconn hexec =>
      obtain ⟨ret, hphase⟩ := execTask_phase hexec
      exact h.settle rfl rfl hjob hactive ht (by simp [hphase]) (by simp [hphase])
  | drop hjob hactive ht => exact h.settle rfl rfl hjob hactive ht (by simp) (by simp)
  | notify ht hnotify =>
      obtain ⟨hqueued, hreleased, hnotified⟩ := Task.notify_phase hnotify
      refine ⟨by simp [h.length_eq], ?_, ?_, h.based_eq, h.nodup,
        h.done_iff_set ht hqueued (by simp [hnotified])⟩
      · rw [List.length_set]
        exact h.created_eq
      · rw [releasedCount_set ht hreleased (by simp [hnotified])]
        exact h.released_eq
  | release ht hphase =>
      refine ⟨by simp [h.length_eq], ?_, ?_, h.based_eq, h.nodup,
        h.done_iff_set ht (by simp [hphase]) (by simp [Task.onRelease])⟩
      · rw [List.length_set]
        exact h.created_eq
      · rw [releasedCount_release ht hphase, h.released_eq, toInt32_add_one]
        rfl

/-- The manager when nothing was pushed yet. -/
structure Unpushed (m : MysqlMgr) : Prop where
  created_zero : m.createBaseCount = 0
  based_nil : m.based = []

theorem unpushed_connectionLoop {connectionNum : ℤ} {elements : List ConnectionElement}
    {m m' : MysqlMgr} {nets : List Network} {ok : Bool} (hm : Unpushed m)
    (h : connectionLoop connectionNum elements m nets = .ok (ok, m')) : Unpushed m' := by
  induction elements generalizing m nets with
  | nil =>
      cases h
      exact hm
  | cons element rest ih =>
      rw [connectionLoop] at h
      split at h
      · cases h
        exact hm
      · obtain ⟨⟨opened, conns, nets', pool⟩, -, h⟩ := bind_eq_ok.mp h
        cases opened with
        | false =>
            cases h
            exact ⟨hm.created_zero, hm.based_nil⟩
        | true =>
            refine ih ?_ h
            exact ⟨hm.created_zero, hm.based_nil⟩

theorem unpushed_loadConfigFile {config : Option ConfigFile} {nets : List Network} {m : MysqlMgr}
    (h : loadConfigFile config nets = .ok (true, m)) : Unpushed m := by
  unfold loadConfigFile at h
  split at h
  · cases h
  · dsimp only at h
    split at h
    · cases h
    · split at h
      · obtain ⟨⟨ok, m'⟩, hloop, h⟩ := bind_eq_ok.mp h
        have hm := unpushed_connectionLoop ⟨rfl, rfl⟩ hloop
        cases ok with
        | false => cases h
        | true =>
            simp only [if_true] at h
            split at h
            · cases h
            · cases h
              exact ⟨hm.created_zero, hm.based_nil⟩
      · cases h

/-- The counters are right along every run. -/
theorem accounted_of_run {m : MysqlMgr} (hm : Unpushed m) {as : List SystemAction} {s : System}
    (h : Run System.step (.init m) as s) : Accounted s :=
  h.invariant (P := Accounted) (Q := fun _ => True) (fun _ _ _ _ hstep hs => hs.step hstep)
    (fun _ _ => trivial)
    ⟨rfl, hm.created_zero, rfl, hm.based_nil, hm.based_nil ▸ List.nodup_nil, by simp [System.init]⟩

/-- **What the profile of the manager means.**  Along every run, `_createBaseCount` is the
number of handlers that were accepted and the difference to `_releaseBaseCount` the number
of those still to be released, both as 32-bit integers.  A handler is accepted once: no two
places of the queue are about the same one, and its next push is refused. -/
theorem system_accounts {config : Option ConfigFile} {nets : List Network} {m : MysqlMgr}
    (hload : loadConfigFile config nets = .ok (true, m)) {as : List SystemAction} {s : System}
    (h : Run System.step (.init m) as s) :
    s.mgr.createBaseCount = toInt32 s.queue.length ∧ s.tasks.length = s.queue.length ∧
    toInt32 (s.mgr.createBaseCount - s.releaseBaseCount)
      = toInt32 (s.tasks.countP fun t => t.phase ≠ .released : ℕ) ∧
    (s.queue.map (·.payload.handler)).Nodup ∧
    ∀ job ∈ s.queue, ∀ id connectionName,
      s.mgr.pushMysqlHandler id (some job.payload.handler) connectionName = .ok (none, s.mgr) := by
  have hs := accounted_of_run (unpushed_loadConfigFile hload) h
  refine ⟨by rw [hs.created_eq, hs.length_eq], hs.length_eq, ?_, ?_, ?_⟩
  · have hcount := List.length_eq_countP_add_countP (fun t : Task => decide (t.phase = .released))
      (l := s.tasks)
    simp only [decide_eq_true_eq] at hcount
    rw [hs.created_eq, hs.released_eq, releasedCount, toInt32_sub]
    simp only [ne_eq, decide_not] at hcount ⊢
    congr 1
    omega
  · have hnodup := hs.nodup
    rwa [hs.based_eq, (List.reverse_perm _).nodup_iff] at hnodup
  · intro job hjob id connectionName
    have hmem : job.payload.handler ∈ s.mgr.based := by
      rw [hs.based_eq, List.mem_reverse]
      exact List.mem_map_of_mem hjob
    rw [MysqlMgr.pushMysqlHandler]
    exact if_pos hmem

/-- A handler that is pushed submits something and leaves the connection alone after its last
statement; none is given up; and when one is executed its result arrives. -/
def SystemAction.Meets (s : System) : SystemAction → Prop
  | .push _ _ _ body => sqls body ≠ [] ∧ EscapesFirst body
  | .drop _ => False
  | .finish k => ∀ job ∈ s.queue[k]?, ∀ t ∈ s.tasks[k]?,
      ∀ conn ∈ s.mgr.connections[job.payload.connection]?, ResultArrives conn t.body
  | _ => True

instance decidableSystemMeets (s : System) : ∀ a, Decidable (SystemAction.Meets s a)
  | .push _ _ _ body => inferInstanceAs (Decidable (sqls body ≠ [] ∧ EscapesFirst body))
  | .drop _ => isFalse id
  | .finish k => inferInstanceAs (Decidable (∀ job ∈ s.queue[k]?, ∀ t ∈ s.tasks[k]?,
      ∀ conn ∈ s.mgr.connections[job.payload.connection]?, ResultArrives conn t.body))
  | .start _ | .notify _ | .release _ | .use _ => isTrue trivial

/-- Two handlers with one id, and the first one pushed again; the second one is released
before the first one is told. -/
def systemActions : List SystemAction :=
  [.push 5 (some 0) none [.exec updateSql], .push 5 (some 1) none [.exec selectSql],
    .push (-7) (some 0) none [.exec updateSql], .start 0, .finish 0, .start 1, .finish 1, .notify 1,
    .release 1]

/-- They run to their end, and as the handlers need it. -/
theorem exists_systemRun : ∃ m s,
    loadConfigFile (some exampleConfig) (List.replicate 6 freshConnection.net) = .ok (true, m) ∧
      Run System.step (.init m) systemActions s ∧ s.queue.length = 2 ∧
      s.placeConnections = [2, 2] ∧ Along System.step (fun s a => a.Meets s) (.init m) systemActions := by
  obtain ⟨m, hload, hobs, hmeets⟩ : ∃ m,
      loadConfigFile (some exampleConfig) (List.replicate 6 freshConnection.net) = .ok (true, m) ∧
        (systemActions.foldlM System.step (.init m)).map (fun s =>
          (s.queue.length, s.placeConnections)) = some (2, [2, 2]) ∧
        Along System.step (fun s a => a.Meets s) (.init m) systemActions :=
    ⟨_, rfl, by decide +kernel, by decide +kernel⟩
  obtain ⟨s, hs, hobs⟩ := Option.map_eq_some_iff.mp hobs
  exact ⟨m, s, hload, run_iff_foldlM.mpr hs, (Prod.mk.inj hobs).1, (Prod.mk.inj hobs).2, hmeets⟩

/-- One of the two is still to be released. -/
theorem system_accounts_two : ∃ m s,
    loadConfigFile (some exampleConfig) (List.replicate 6 freshConnection.net) = .ok (true, m) ∧
      Run System.step (.init m) systemActions s ∧ s.mgr.createBaseCount = 2 ∧
      toInt32 (s.mgr.createBaseCount - s.releaseBaseCount)
        = toInt32 (s.tasks.countP fun t => t.phase ≠ .released : ℕ) := by
  obtain ⟨m, s, hload, hrun, hlen, -⟩ := exists_systemRun
  obtain ⟨hcreated, -, hdiff, -⟩ := system_accounts hload hrun
  exact ⟨m, s, hload, hrun, by rw [hcreated, hlen]; rfl, hdiff⟩

/-! ## Every handler is told its own outcome -/

/-- **The step.** -/
theorem lives_systemStep {s s' : System} {a : SystemAction} (ha : a.Meets s) (h : Accounted s)
    (hstep : s.step a = some s') (hs : ∀ t ∈ s.tasks, t.Lives) : ∀ t ∈ s'.tasks, t.Lives := by
  -- all but `push` replace one handler
  have set : ∀ {k : ℕ} {t' : Task}, t'.Lives → ∀ t ∈ s.tasks.set k t', t.Lives := by
    intro k t' ht' t ht
    rcases List.mem_or_eq_of_mem_set ht with ht | rfl
    · exact hs t ht
    · exact ht'
  cases System.step_cases hstep with
  | refused => exact hs
  | unused => exact hs
  | used => exact hs
  | start hqueue => exact hs
  | drop hjob hactive ht => exact ha.elim
  | pushed hpush hnew hmgr =>
      intro t ht
      rcases List.mem_append.mp ht with ht | ht
      · exact hs t ht
      · rw [List.mem_singleton.mp ht]
        exact ⟨ha.1, ha.2, rfl⟩
  | finish hjob hactive ht hconn hexec =>
      have hdone := h.done_iff _ _ _ hjob ht
      exact set ((hs _ (List.mem_of_getElem? ht)).exec (by simpa [hactive] using hdone)
        (ha _ hjob _ ht _ hconn) hexec)
  | notify ht hnotify => exact set ((hs _ (List.mem_of_getElem? ht)).notify hnotify)
  | release ht hphase => exact set ((hs _ (List.mem_of_getElem? ht)).onRelease hphase)

/-- **Across all connections every handler is told its own outcome**, once and before its
release, whatever other handlers and other modules do on its connection in between: in every
run in which no handler is given up, each submits a statement and after its last one leaves
the connection alone, and the results that they are executed for arrive. -/
theorem system_ownOutcome {config : Option ConfigFile} {nets : List Network} {m : MysqlMgr}
    (hload : loadConfigFile config nets = .ok (true, m)) {as : List SystemAction} {s : System}
    (h : Run System.step (.init m) as s)
    (has : Along System.step (fun s a => a.Meets s) (.init m) as) : ∀ t ∈ s.tasks, t.Told := by
  have hm := unpushed_loadConfigFile hload
  have hinv : Accounted s ∧ ∀ t ∈ s.tasks, t.Lives :=
    h.invariant_along (P := fun s => Accounted s ∧ ∀ t ∈ s.tasks, t.Lives)
      (fun _ _ _ ha hstep hs => ⟨hs.1.step hstep, lives_systemStep ha hs.1 hstep hs.2⟩) has
      ⟨accounted_of_run hm (.nil _), by simp [System.init]⟩
  exact fun t ht => (hinv.2 t ht).toTold

/-- The two handlers. -/
theorem system_ownOutcome_two : ∃ m s,
    loadConfigFile (some exampleConfig) (List.replicate 6 freshConnection.net) = .ok (true, m) ∧
      Run System.step (.init m) systemActions s ∧ ∀ t ∈ s.tasks, t.Told := by
  obtain ⟨m, s, hload, hrun, -, -, hmeets⟩ := exists_systemRun
  exact ⟨m, s, hload, hrun, system_ownOutcome hload hrun hmeets⟩

end SeedCore.Mysql
