import SeedCore.Lib.Lanes
import SeedCore.Mysql.Connection

/-!
# Dispatching handlers

`MysqlMgr` opens, for every connection name of the configuration, a pool of connections:
one for the main thread and one for each of `_asyncConnectionNum` workers.  A handler is
pushed with an id; the id selects the worker, and the worker with the connection name
selects the connection.  The queue carries out what is pushed to one worker in order.

## Main definitions

* `ConfigFile`, `MysqlMgr`, `loadConfigFile` — the configuration and the pools.
* `MysqlMgr.pushMysqlHandler` — selecting worker and connection.
* `Dispatch` — the manager and the queue, with pushes and worker steps in any order.
* `push_order` — what the order of pushes means for the handlers.
-/

namespace SeedCore.Mysql

/-- The attributes of a `connection` element. -/
structure ConnectionElement where
  name : Bytes
  hostip : Bytes
  port : ℤ
  username : Bytes
  password : Bytes
  databasename : Bytes
  characterset : Bytes
  deriving DecidableEq, Repr

/-- The attributes of the `mysql` element, and its children. -/
structure MysqlElement where
  defultconnection : Bytes
  connectionnum : ℤ
  connections : List ConnectionElement
  deriving DecidableEq, Repr

/-- The configuration file: the thread count of the `async` element, and the `mysql`
element. -/
structure ConfigFile where
  async : Option ℤ
  mysql : Option MysqlElement
  deriving DecidableEq, Repr

/-- `MysqlMgr`.  A `DBConnection *` is the index of the connection among all that were
opened; a handler is a number, and `based` are those that have a base. -/
structure MysqlMgr where
  connctionMap : List (Bytes × List ℕ) := []
  /-- No value before it is assigned. -/
  asyncConnectionNum : Option ℤ := none
  /-- The name of the pool that `_mainConnection` points to. -/
  mainConnection : Option Bytes := none
  createBaseCount : ℤ := 0
  connections : List DBConnection := []
  based : List ℕ := []

/-- `_connctionMap.find` -/
def MysqlMgr.find (m : MysqlMgr) (name : Bytes) : Option (List ℕ) := m.connctionMap.lookup name

/-- The `for` loop of `LoadConfigFile`: open `n` more connections; each new one meets the
next of `nets`. -/
def openLoop (charset : Bytes) : ℕ → List DBConnection → List Network → List ℕ →
    Except Stuck (Bool × List DBConnection × List Network × List ℕ)
  | 0, conns, nets, pool => .ok (true, conns, nets, pool)
  | _ + 1, _, [], _ => .error .blocked
  | n + 1, conns, net :: nets, pool =>
      match DBConnection.openConnection { charset := charset, net := net } with
      | .error stuck _ => .error stuck
      | .ok false _ => .ok (false, conns, nets, pool)
      | .ok true conn => openLoop charset n (conns ++ [conn]) nets (pool ++ [conns.length])

/-- The `while (connection)` loop of `LoadConfigFile`. -/
def connectionLoop (connectionNum : ℤ) : List ConnectionElement → MysqlMgr → List Network →
    Except Stuck (Bool × MysqlMgr)
  | [], m, _ => .ok (true, m)
  | element :: rest, m, nets =>
      if (m.find element.name).isSome then .ok (false, m)
      else do
        let (ok, conns, nets, pool) ←
          openLoop element.characterset connectionNum.toNat m.connections nets []
        let m := { m with
          connections := conns
          connctionMap := m.connctionMap ++ [(element.name, pool)] }
        if ok then
          connectionLoop connectionNum rest
            { m with asyncConnectionNum := some (connectionNum - 1) } nets
        else .ok (false, m)

/-- `connectionNum` in `LoadConfigFile`, before it is incremented. -/
def clampConnectionNum (connectionnum threadCount : ℤ) : ℤ :=
  let connectionNum := if connectionnum < 0 then 1 else connectionnum
  if connectionNum > threadCount then threadCount else connectionNum

/-- `LoadConfigFile` -/
def loadConfigFile (config : Option ConfigFile) (nets : List Network) :
    Except Stuck (Bool × MysqlMgr) :=
  match config with
  | none => .ok (false, {})
  | some doc =>
      let threadCount := doc.async.getD 0
      match doc.mysql with
      | none => .ok (false, {})
      | some mysql => do
          let connectionNum := clampConnectionNum mysql.connectionnum threadCount
          if connectionNum + 1 < 2147483648 then
            let (ok, m) ← connectionLoop (connectionNum + 1) mysql.connections {} nets
            if ok then
              match m.find mysql.defultconnection with
              | none => .ok (false, m)
              | some _ => .ok (true, { m with mainConnection := some mysql.defultconnection })
            else .ok (false, m)
          else .error .overflow

namespace MysqlMgr

/-- `GetConnectionThreadIdx`: the remainder is taken in `u64`. -/
def getConnectionThreadIdx (m : MysqlMgr) (id : ℤ) : Except Stuck ℕ :=
  match m.asyncConnectionNum with
  | none => .error .outOfBounds
  | some num =>
      if toUInt64 num = 0 then .error .divByZero
      else .ok (toUInt32 (toUInt64 id % toUInt64 num + 1 : ℕ))

/-- `vector::operator[]` -/
def slot (pool : List ℕ) (threadIdx : ℕ) : Except Stuck (Option ℕ) :=
  match pool[threadIdx]? with
  | none => .error .outOfBounds
  | some connection => .ok (some connection)

/-- `GetDBConnection` -/
def getDBConnection (m : MysqlMgr) (threadIdx : ℕ) (connectionName : Option Bytes) :
    Except Stuck (Option ℕ) :=
  match connectionName with
  | none =>
      match m.mainConnection.bind m.find with
      | none => .error .outOfBounds
      | some pool => slot pool threadIdx
  | some name =>
      match m.find name with
      | some pool => slot pool threadIdx
      | none => .ok none

end MysqlMgr

/-- A handler that was pushed: its id, and what was selected for it. -/
structure Pushed where
  id : ℤ
  handler : ℕ
  connection : ℕ
  deriving DecidableEq, Repr

/-- `PushMysqlHandler`.  The value is the thread that `StartAsync` is called with, and what
it is called on; nothing if the push is refused. -/
def MysqlMgr.pushMysqlHandler (m : MysqlMgr) (id : ℤ) (handler : Option ℕ)
    (connectionName : Option Bytes) : Except Stuck (Option (ℕ × Pushed) × MysqlMgr) :=
  match handler with
  | none => .ok (none, m)
  | some handler =>
      if handler ∈ m.based then .ok (none, m)
      else do
        let threadIdx ← m.getConnectionThreadIdx id
        match ← m.getDBConnection threadIdx connectionName with
        | none => .ok (none, m)
        | some connection =>
            .ok (some (threadIdx, ⟨id, handler, connection⟩), { m with
              based := handler :: m.based
              createBaseCount := toInt32 (m.createBaseCount + 1) })

/-! ## The manager and its queue -/

/-- The manager, and the queue with a lane for each thread. -/
structure Dispatch where
  mgr : MysqlMgr
  queue : List (Job ℕ Pushed) := []

/-- A push from the main thread, or a worker that begins or ends `OnExecute`. -/
inductive DispatchAction
  | push (id : ℤ) (handler : Option ℕ) (connectionName : Option Bytes)
  | start (k : ℕ)
  | finish (k : ℕ)
  deriving DecidableEq, Repr

/-- One step. -/
def Dispatch.step (s : Dispatch) : DispatchAction → Option Dispatch
  | .push id handler connectionName =>
      match s.mgr.pushMysqlHandler id handler connectionName with
      | .error _ => none
      | .ok (none, mgr) => some { s with mgr := mgr }
      | .ok (some (threadIdx, pushed), mgr) => do
          let queue ← laneStep s.queue (.submit threadIdx pushed)
          return { mgr := mgr, queue := queue }
  | .start k => do
      let queue ← laneStep s.queue (.start k)
      return { s with queue := queue }
  | .finish k => do
      let queue ← laneStep s.queue (.finish k)
      return { s with queue := queue }

/-! ## The pools -/

/-- A connection is in one place of one pool. -/
structure Pools (m : MysqlMgr) : Prop where
  lt_length : ∀ entry ∈ m.connctionMap, ∀ connection ∈ entry.2, connection < m.connections.length
  slot_unique : ∀ entry ∈ m.connctionMap, ∀ entry' ∈ m.connctionMap, ∀ i j connection : ℕ,
    entry.2[i]? = some connection → entry'.2[j]? = some connection → i = j

theorem openLoop_spec {charset : Bytes} {n : ℕ} {conns conns' : List DBConnection}
    {nets nets' : List Network} {pool pool' : List ℕ}
    (h : openLoop charset n conns nets pool = .ok (true, conns', nets', pool')) :
    conns'.length = conns.length + n ∧ pool' = pool ++ List.range' conns.length n := by
  induction n generalizing conns nets pool with
  | zero =>
      cases h
      exact ⟨rfl, by simp⟩
  | succ n ih =>
      cases nets with
      | nil => cases h
      | cons net nets =>
          simp only [openLoop] at h
          split at h
          · cases h
          · cases h
          · obtain ⟨hlen, hpool⟩ := ih h
            rw [List.length_append, List.length_singleton] at hlen hpool
            refine ⟨by omega, ?_⟩
            rw [hpool, List.range'_succ, List.append_assoc]
            rfl

/-- A pool of new connections next to the pools there are. -/
theorem Pools.add {m : MysqlMgr} (h : Pools m) {conns : List DBConnection} {n : ℕ} (name : Bytes)
    (num : Option ℤ) (hlen : conns.length = m.connections.length + n) :
    Pools { m with
      connections := conns
      connctionMap := m.connctionMap ++ [(name, List.range' m.connections.length n)]
      asyncConnectionNum := num } := by
  have hnew : ∀ {i c : ℕ}, (List.range' m.connections.length n)[i]? = some c →
      c = m.connections.length + i := by
    intro i c hc
    obtain ⟨hi, hc⟩ := List.getElem?_eq_some_iff.mp hc
    rw [← hc, List.getElem_range', Nat.one_mul]
  have hold : ∀ entry ∈ m.connctionMap, ∀ {i c : ℕ}, entry.2[i]? = some c →
      c < m.connections.length :=
    fun entry hentry i c hc => h.lt_length entry hentry c (List.mem_of_getElem? hc)
  constructor
  · intro entry hentry c hc
    rcases List.mem_append.mp hentry with hentry | hentry
    · have := h.lt_length entry hentry c hc
      dsimp only
      omega
    · rw [List.mem_singleton.mp hentry] at hc
      have := (List.mem_range'_1.mp hc).2
      dsimp only
      omega
  · intro entry hentry entry' hentry' i j c hi hj
    rcases List.mem_append.mp hentry with hentry | hentry <;>
      rcases List.mem_append.mp hentry' with hentry' | hentry'
    · exact h.slot_unique entry hentry entry' hentry' i j c hi hj
    · rw [List.mem_singleton.mp hentry'] at hj
      have := hold entry hentry hi
      have := hnew hj
      omega
    · rw [List.mem_singleton.mp hentry] at hi
      have := hold entry' hentry' hj
      have := hnew hi
      omega
    · rw [List.mem_singleton.mp hentry] at hi
      rw [List.mem_singleton.mp hentry'] at hj
      have := hnew hi
      have := hnew hj
      omega

theorem pools_connectionLoop {connectionNum : ℤ} {elements : List ConnectionElement}
    {m m' : MysqlMgr} {nets : List Network} (hm : Pools m)
    (h : connectionLoop connectionNum elements m nets = .ok (true, m')) : Pools m' := by
  induction elements generalizing m nets with
  | nil =>
      cases h
      exact hm
  | cons element rest ih =>
      rw [connectionLoop] at h
      split at h
      · cases h
      · obtain ⟨⟨ok, conns, nets', pool⟩, hopen, h⟩ := bind_eq_ok.mp h
        cases ok with
        | false => cases h
        | true =>
            obtain ⟨hlen, hpool⟩ := openLoop_spec hopen
            rw [List.nil_append] at hpool
            subst hpool
            exact ih (hm.add element.name (some (connectionNum - 1)) hlen) h

/-- **The pools after `LoadConfigFile`.** -/
theorem pools_loadConfigFile {config : Option ConfigFile} {nets : List Network} {m : MysqlMgr}
    (h : loadConfigFile config nets = .ok (true, m)) : Pools m := by
  unfold loadConfigFile at h
  split at h
  · cases h
  · next doc =>
      dsimp only at h
      split at h
      · cases h
      · next mysql _ =>
          split at h
          · obtain ⟨⟨ok, m'⟩, hloop, h⟩ := bind_eq_ok.mp h
            cases ok with
            | false => cases h
            | true =>
                have hpools := pools_connectionLoop ⟨by simp, by simp⟩ hloop
                simp only [if_true] at h
                split at h
                · cases h
                · cases h
                  exact ⟨hpools.lt_length, hpools.slot_unique⟩
          · cases h

/-! ## What a push selects -/

/-- A pool that is found is one of the pools. -/
theorem MysqlMgr.mem_of_find {m : MysqlMgr} {name : Bytes} {pool : List ℕ}
    (h : m.find name = some pool) : (name, pool) ∈ m.connctionMap := by
  obtain ⟨front, back, hmap, -⟩ := List.lookup_eq_some_iff.mp h
  rw [hmap]
  exact List.mem_append_right _ List.mem_cons_self

theorem MysqlMgr.exists_of_getDBConnection {m : MysqlMgr} {threadIdx connection : ℕ}
    {connectionName : Option Bytes}
    (h : m.getDBConnection threadIdx connectionName = .ok (some connection)) :
    ∃ entry ∈ m.connctionMap, entry.2[threadIdx]? = some connection := by
  have slot : ∀ {name : Bytes} {pool : List ℕ}, m.find name = some pool →
      MysqlMgr.slot pool threadIdx = .ok (some connection) →
      ∃ entry ∈ m.connctionMap, entry.2[threadIdx]? = some connection := by
    intro name pool hfind hslot
    refine ⟨(name, pool), mem_of_find hfind, ?_⟩
    unfold MysqlMgr.slot at hslot
    split at hslot
    · cases hslot
    · next hget =>
        cases hslot
        exact hget
  unfold MysqlMgr.getDBConnection at h
  split at h
  · split at h
    · cases h
    · next hpool =>
        obtain ⟨name, -, hfind⟩ := Option.bind_eq_some_iff.mp hpool
        exact slot hfind h
  · split at h
    · next hfind => exact slot hfind h
    · cases h

/-- What a push keeps of the manager. -/
structure SamePools (m m' : MysqlMgr) : Prop where
  connctionMap_eq : m'.connctionMap = m.connctionMap
  asyncConnectionNum_eq : m'.asyncConnectionNum = m.asyncConnectionNum

/-- What is pushed goes to the thread that its id selects, with a connection at the place
of that thread in a pool. -/
def Selected (m : MysqlMgr) (threadIdx : ℕ) (pushed : Pushed) : Prop :=
  m.getConnectionThreadIdx pushed.id = .ok threadIdx ∧
    ∃ entry ∈ m.connctionMap, entry.2[threadIdx]? = some pushed.connection

theorem SamePools.selected {m m' : MysqlMgr} (h : SamePools m m') {threadIdx : ℕ} {pushed : Pushed}
    (hsel : Selected m' threadIdx pushed) : Selected m threadIdx pushed := by
  obtain ⟨hidx, entry, hentry, hget⟩ := hsel
  refine ⟨?_, entry, h.connctionMap_eq ▸ hentry, hget⟩
  simpa only [MysqlMgr.getConnectionThreadIdx, h.asyncConnectionNum_eq] using hidx

/-- **`PushMysqlHandler`.** -/
theorem MysqlMgr.pushMysqlHandler_spec {m m' : MysqlMgr} {id : ℤ} {handler : Option ℕ}
    {connectionName : Option Bytes} {r : Option (ℕ × Pushed)}
    (h : m.pushMysqlHandler id handler connectionName = .ok (r, m')) :
    SamePools m m' ∧ ∀ threadIdx pushed, r = some (threadIdx, pushed) →
      Selected m threadIdx pushed := by
  have refused : (none : Option (ℕ × Pushed)) = r → m = m' →
      SamePools m m' ∧ ∀ threadIdx pushed, r = some (threadIdx, pushed) →
        Selected m threadIdx pushed := by
    rintro rfl rfl
    exact ⟨⟨rfl, rfl⟩, by simp⟩
  unfold MysqlMgr.pushMysqlHandler at h
  split at h
  · cases h
    exact refused rfl rfl
  · next handler =>
      split at h
      · cases h
        exact refused rfl rfl
      · obtain ⟨threadIdx, hidx, h⟩ := bind_eq_ok.mp h
        obtain ⟨connection, hconn, h⟩ := bind_eq_ok.mp h
        cases connection with
        | none =>
            cases h
            exact refused rfl rfl
        | some connection =>
            cases h
            refine ⟨⟨rfl, rfl⟩, ?_⟩
            intro threadIdx' pushed heq
            cases heq
            exact ⟨hidx, exists_of_getDBConnection hconn⟩

/-! ## Every run -/

/-- The pools stay what they were, and everything in the queue is as it was selected. -/
structure Dispatched (m : MysqlMgr) (s : Dispatch) : Prop where
  pools : SamePools m s.mgr
  selected : ∀ job ∈ s.queue, Selected m job.lane job.payload

/-- A step of the dispatch is one of the lanes, or leaves the queue alone. -/
theorem Dispatch.step_queue {s s' : Dispatch} {a : DispatchAction} (h : s.step a = some s') :
    s'.queue = s.queue ∨ ∃ b, laneStep s.queue b = some s'.queue ∧
      ∀ k, b = .finish k → a = .finish k := by
  cases a with
  | push id handler connectionName =>
      simp only [Dispatch.step] at h
      split at h
      · cases h
      · cases h
        exact .inl rfl
      · obtain ⟨queue, hqueue, h⟩ := Option.bind_eq_some_iff.mp h
        cases h
        exact .inr ⟨_, hqueue, fun k hk => by cases hk⟩
  | start k =>
      obtain ⟨queue, hqueue, h⟩ := Option.bind_eq_some_iff.mp h
      cases h
      exact .inr ⟨_, hqueue, fun k hk => by cases hk⟩
  | finish k =>
      obtain ⟨queue, hqueue, h⟩ := Option.bind_eq_some_iff.mp h
      cases h
      refine .inr ⟨_, hqueue, ?_⟩
      intro k' hk'
      cases hk'
      rfl

/-- A run of the dispatch is one of the lanes. -/
theorem Dispatch.run_queue {s s' : Dispatch} {as : List DispatchAction}
    (h : Run Dispatch.step s as s') :
    ∃ bs, Run laneStep s.queue bs s'.queue ∧ ∀ k, .finish k ∈ bs → .finish k ∈ as := by
  induction h with
  | nil s => exact ⟨[], .nil _, by simp⟩
  | cons head _ ih =>
      obtain ⟨bs, hbs, hfinish⟩ := ih
      rcases Dispatch.step_queue head with heq | ⟨b, hb, hfin⟩
      · exact ⟨bs, heq ▸ hbs, fun k hk => List.mem_cons_of_mem _ (hfinish k hk)⟩
      · refine ⟨b :: bs, .cons hb hbs, ?_⟩
        intro k hk
        rcases List.mem_cons.mp hk with hk | hk
        · rw [hfin k hk.symm]
          exact List.mem_cons_self
        · exact List.mem_cons_of_mem _ (hfinish k hk)

theorem SamePools.trans {m m' m'' : MysqlMgr} (h : SamePools m m') (h' : SamePools m' m'') :
    SamePools m m'' :=
  ⟨h'.connctionMap_eq.trans h.connctionMap_eq,
    h'.asyncConnectionNum_eq.trans h.asyncConnectionNum_eq⟩

/-- A job whose status changed is still where it was selected for. -/
theorem selected_set {m : MysqlMgr} {queue : List (Job ℕ Pushed)}
    (h : ∀ job ∈ queue, Selected m job.lane job.payload) {k : ℕ} {job : Job ℕ Pushed}
    (hk : queue[k]? = some job) (status : Status) :
    ∀ job' ∈ queue.set k { job with status := status }, Selected m job'.lane job'.payload := by
  intro job' hjob'
  rcases List.mem_or_eq_of_mem_set hjob' with hjob' | rfl
  · exact h job' hjob'
  · exact h job (List.mem_of_getElem? hk)

/-- A job that joins the queue is where it was selected for, if its push was. -/
theorem selected_append {m : MysqlMgr} {queue : List (Job ℕ Pushed)}
    (h : ∀ job ∈ queue, Selected m job.lane job.payload) {threadIdx : ℕ} {pushed : Pushed}
    (hsel : Selected m threadIdx pushed) :
    ∀ job ∈ queue ++ [{ lane := threadIdx, payload := pushed }],
      Selected m job.lane job.payload := by
  intro job hjob
  rcases List.mem_append.mp hjob with hjob | hjob
  · exact h job hjob
  · rw [List.mem_singleton.mp hjob]
    exact hsel

/-- **One step.** -/
theorem Dispatched.step {m : MysqlMgr} {s s' : Dispatch} {a : DispatchAction}
    (h : Dispatched m s) (hstep : s.step a = some s') : Dispatched m s' := by
  cases a with
  | push id handler connectionName =>
      simp only [Dispatch.step] at hstep
      split at hstep
      · cases hstep
      · next hpush =>
          cases hstep
          exact ⟨h.pools.trans (MysqlMgr.pushMysqlHandler_spec hpush).1, h.selected⟩
      · next hpush =>
          obtain ⟨hpools, hsel⟩ := MysqlMgr.pushMysqlHandler_spec hpush
          cases hstep
          exact ⟨h.pools.trans hpools, selected_append h.selected (h.pools.selected (hsel _ _ rfl))⟩
  | start k =>
      obtain ⟨queue, hqueue, hstep⟩ := Option.bind_eq_some_iff.mp hstep
      cases hstep
      obtain ⟨job, hk, -, -, rfl⟩ := laneStart_eq_some hqueue
      exact ⟨h.pools, selected_set h.selected hk _⟩
  | finish k =>
      obtain ⟨queue, hqueue, hstep⟩ := Option.bind_eq_some_iff.mp hstep
      cases hstep
      obtain ⟨job, hk, -, rfl⟩ := laneFinish_eq_some hqueue
      exact ⟨h.pools, selected_set h.selected hk _⟩

theorem Dispatched.run {m : MysqlMgr} {s s' : Dispatch} {as : List DispatchAction}
    (h : Run Dispatch.step s as s') (hs : Dispatched m s) : Dispatched m s' :=
  h.invariant (P := Dispatched m) (Q := fun _ => True) (fun _ _ _ _ hstep hs => hs.step hstep)
    (fun _ _ => trivial) hs

/-- **The order of pushes.**  In every run, whatever is pushed and however the workers are
interleaved: of two handlers with the same id the one that was pushed first has finished
before the other starts; and two handlers that are active are active on two connections. -/
theorem push_order {config : Option ConfigFile} {nets : List Network} {m : MysqlMgr}
    (hload : loadConfigFile config nets = .ok (true, m)) {as : List DispatchAction} {s : Dispatch}
    (hrun : Run Dispatch.step { mgr := m } as s) :
    (∀ (i j : ℕ) (earlier later : Job ℕ Pushed), i < j → s.queue[i]? = some earlier → s.queue[j]? = some later →
      earlier.payload.id = later.payload.id →
      ∀ pre post, as = pre ++ .start j :: post → .finish i ∈ pre) ∧
    (∀ (i j : ℕ) (one other : Job ℕ Pushed), s.queue[i]? = some one → s.queue[j]? = some other →
      one.status = .active → other.status = .active →
      one.payload.connection = other.payload.connection → i = j) := by
  have hdisp : Dispatched m s := Dispatched.run hrun ⟨⟨rfl, rfl⟩, by simp⟩
  constructor
  · intro i j earlier later hij hi hj hid pre post has
    -- one id selects one lane
    have hlane : earlier.lane = later.lane := by
      have hearlier := (hdisp.selected earlier (List.mem_of_getElem? hi)).1
      have hlater := (hdisp.selected later (List.mem_of_getElem? hj)).1
      rw [hid, hlater] at hearlier
      exact (Except.ok.inj hearlier).symm
    rw [has] at hrun
    obtain ⟨mid, hpre, hpost⟩ := run_append.mp hrun
    obtain _ | ⟨head, tail⟩ := hpost
    obtain ⟨queue, hstart, hmid⟩ := Option.bind_eq_some_iff.mp head
    cases hmid
    obtain ⟨bs, hbs, hfinish⟩ := Dispatch.run_queue hpre
    obtain ⟨bs', hbs', -⟩ := Dispatch.run_queue tail
    have hlanes := run_append.mpr ⟨mid.queue, hbs, Run.cons hstart hbs'⟩
    exact hfinish i (laneRun_order hlanes hij hi hj hlane)
  · intro i j one other hi hj hone hother hconn
    -- one connection is in one place of one pool
    obtain ⟨-, entry, hentry, hget⟩ := hdisp.selected one (List.mem_of_getElem? hi)
    obtain ⟨-, entry', hentry', hget'⟩ := hdisp.selected other (List.mem_of_getElem? hj)
    rw [← hconn] at hget'
    have hlane := (pools_loadConfigFile hload).slot_unique entry hentry entry' hentry' _ _ _ hget hget'
    obtain ⟨bs, hbs, -⟩ := Dispatch.run_queue hrun
    exact (laneOrder_run hbs).exclusive hi hj hlane hone hother

/-- A `connection` element with a name. -/
def exampleElement (name : Bytes) : ConnectionElement :=
  { name := name, hostip := [], port := 3306, username := [], password := [], databasename := [],
    characterset := [] }

/-- Two names, and two workers. -/
def exampleConfig : ConfigFile where
  async := some 2
  mysql := some {
    defultconnection := ascii "a"
    connectionnum := 2
    connections := [exampleElement (ascii "a"), exampleElement (ascii "b")] }

/-- Two handlers with one negative id, for two connection names. -/
theorem push_order_two : ∃ m s,
    loadConfigFile (some exampleConfig)
      (List.replicate 6 { yields := fun _ => false, connects := [.ok] }) = .ok (true, m) ∧
    Run Dispatch.step { mgr := m } [.push (-7) (some 0) none, .push (-7) (some 1) (some (ascii "b")),
      .start 0, .finish 0, .start 1] s ∧
    DispatchAction.finish 0 ∈ [.push (-7) (some 0) none, .push (-7) (some 1) (some (ascii "b")),
      .start 0, .finish 0] := by
  obtain ⟨m, hload, hobs⟩ : ∃ m, loadConfigFile (some exampleConfig)
        (List.replicate 6 { yields := fun _ => false, connects := [.ok] }) = .ok (true, m) ∧
      (([.push (-7) (some 0) none, .push (-7) (some 1) (some (ascii "b")), .start 0, .finish 0,
        .start 1] : List DispatchAction).foldlM Dispatch.step { mgr := m }).map
          (fun s => s.queue.map (·.payload.id)) = some [-7, -7] := ⟨_, rfl, by decide +kernel⟩
  obtain ⟨s, hs, hids⟩ := Option.map_eq_some_iff.mp hobs
  have hrun := run_iff_foldlM.mpr hs
  refine ⟨m, s, hload, hrun, ?_⟩
  match hqueue : s.queue with
  | [] => simp [hqueue] at hids
  | [_] => simp [hqueue] at hids
  | earlier :: later :: rest =>
      simp only [hqueue, List.map_cons, List.cons.injEq] at hids
      exact (push_order hload hrun).1 0 1 earlier later (by decide) (by rw [hqueue]; rfl)
        (by rw [hqueue]; rfl) (hids.1.trans hids.2.1.symm) _ [] rfl

end SeedCore.Mysql
