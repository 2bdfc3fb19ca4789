import SeedCore.Mysql.Dispatch
import SeedCore.Mysql.Protocol

/-!
# Selecting a connection

`MysqlMgr` selects a connection by an id, by the index of a worker or for the main thread.
The number of workers is read from two places of the configuration, and the remainder and
the subscripts rely on it.

## Main definitions

* `MysqlMgr.checkThreadIdx`, `MysqlMgr.selectInAsyncThread` — selecting for a worker.
* `MysqlMgr.execSqlInAsyncThread` … — the operations that select a connection.
* `MysqlMgr.SelectionDefined` — every selection gives a connection of the chosen pool.
* `mysqlSelection_iff` — the configurations with which this is so.
-/

namespace SeedCore.Mysql

/-! ## The source -/

namespace MysqlMgr

variable {α : Type} (m : MysqlMgr)

/-- `CheckThreadIdx` -/
def checkThreadIdx (threadIdx : ℤ) : Except Stuck Bool :=
  if 0 < threadIdx then
    match m.asyncConnectionNum with
    | none => .error .outOfBounds
    | some num => .ok (threadIdx ≤ num)
  else .ok false

/-- The connection for a worker, or none. -/
def selectInAsyncThread (threadIdx : ℤ) (connectionName : Option Bytes) : Except Stuck (Option ℕ) := do
  if ← m.checkThreadIdx threadIdx then m.getDBConnection (toUInt32 threadIdx) connectionName
  else .ok none

/-- The connection for the main thread, or none; `GetConnectionMainThreadIdx` is `0`. -/
def selectInMainThread (connectionName : Option Bytes) : Except Stuck (Option ℕ) :=
  m.getDBConnection 0 connectionName

/-- `if (connection) return connection->…; return …;` -/
def onConnection (refused : α) (x : Db α) : Option ℕ → Except Stuck (α × MysqlMgr)
  | none => .ok (refused, m)
  | some connection =>
      match m.connections[connection]? with
      | none => .error .outOfBounds
      | some conn =>
          match x conn with
          | .ok a conn => .ok (a, { m with connections := m.connections.set connection conn })
          | .error stuck _ => .error stuck

/-- `ExecSqlInAsyncThread` -/
def execSqlInAsyncThread (threadIdx : ℤ) (sql : Bytes) (connectionName : Option Bytes) :
    Except Stuck (Bool × MysqlMgr) := do
  m.onConnection false (Mysql.execSqlInAsyncThread sql)
    (← m.selectInAsyncThread threadIdx connectionName)

/-- `ExecSqlInAsyncThread` with a callback. -/
def execSqlInAsyncThreadCb (threadIdx : ℤ) (sql : Bytes) (cbFun : Bool)
    (connectionName : Option Bytes) : Except Stuck ((Bool × Option MysqlResult) × MysqlMgr) := do
  m.onConnection (false, none) (Mysql.execSqlInAsyncThreadCb sql cbFun)
    (← m.selectInAsyncThread threadIdx connectionName)

/-- `EscapeStringExInAsyncThread`; the value is what is written to the destination. -/
def escapeStringExInAsyncThread (threadIdx : ℤ) (src : Bytes) (connectionName : Option Bytes) :
    Except Stuck (Bytes × MysqlMgr) := do
  m.onConnection [] (DBConnection.escapeStringEx src) (← m.selectInAsyncThread threadIdx connectionName)

/-- `EscapeStringExInMainThread` -/
def escapeStringExInMainThread (src : Bytes) (connectionName : Option Bytes) :
    Except Stuck (Bytes × MysqlMgr) := do
  m.onConnection [] (DBConnection.escapeStringEx src) (← m.selectInMainThread connectionName)

/-- `GetEscapeStringHandlerInAsyncThread` -/
def getEscapeStringHandlerInAsyncThread (threadIdx : ℤ) (connectionName : Option Bytes) :
    Except Stuck (Option ℕ) := m.selectInAsyncThread threadIdx connectionName

/-- `GetEscapeStringHandlerInMainThread` -/
def getEscapeStringHandlerInMainThread (connectionName : Option Bytes) : Except Stuck (Option ℕ) :=
  m.selectInMainThread connectionName

/-- The selection is defined: it gives a connection that was opened, or none. -/
def Defined (selection : Except Stuck (Option ℕ)) : Prop :=
  ∃ connection, selection = .ok connection ∧ ∀ c, connection = some c → c < m.connections.length

/-- `r` comes from an operation on a connection that was opened, or is a refusal. -/
def OnOpened (refused : α) (x : Db α) (r : Except Stuck (α × MysqlMgr)) : Prop :=
  ∃ connection, (∀ c, connection = some c → c < m.connections.length) ∧
    r = m.onConnection refused x connection

/-- All pools have a connection for the main thread and one for each worker; and no function
divides by zero or leaves a pool when it selects a connection. -/
structure SelectionDefined : Prop where
  sizes : ∃ num, m.asyncConnectionNum = some num ∧
    ∀ entry ∈ m.connctionMap, (entry.2.length : ℤ) = num + 1
  push : ∀ id handler connectionName, ∃ r m',
    m.pushMysqlHandler id handler connectionName = .ok (r, m')
  exec : ∀ threadIdx sql connectionName, m.OnOpened false (Mysql.execSqlInAsyncThread sql)
    (m.execSqlInAsyncThread threadIdx sql connectionName)
  execCb : ∀ threadIdx sql cbFun connectionName,
    m.OnOpened (false, none) (Mysql.execSqlInAsyncThreadCb sql cbFun)
      (m.execSqlInAsyncThreadCb threadIdx sql cbFun connectionName)
  escapeInAsyncThread : ∀ threadIdx src connectionName,
    m.OnOpened [] (DBConnection.escapeStringEx src)
      (m.escapeStringExInAsyncThread threadIdx src connectionName)
  escapeInMainThread : ∀ src connectionName, m.OnOpened [] (DBConnection.escapeStringEx src)
    (m.escapeStringExInMainThread src connectionName)
  handlerInAsyncThread : ∀ threadIdx connectionName,
    m.Defined (m.getEscapeStringHandlerInAsyncThread threadIdx connectionName)
  handlerInMainThread : ∀ connectionName,
    m.Defined (m.getEscapeStringHandlerInMainThread connectionName)

end MysqlMgr

/-! ## The pools -/

/-- The pools have `size` connections each, which are among those that were opened. -/
structure Sized (size : ℕ) (m : MysqlMgr) : Prop where
  length_eq : ∀ entry ∈ m.connctionMap, entry.2.length = size
  based_nil : m.based = []

theorem sized_connectionLoop {connectionNum : ℤ} {elements : List ConnectionElement}
    {m m' : MysqlMgr} {nets : List Network} (hm : Sized connectionNum.toNat m)
    (hnum : m.connctionMap ≠ [] → m.asyncConnectionNum = some (connectionNum - 1))
    (h : connectionLoop connectionNum elements m nets = .ok (true, m')) :
    Sized connectionNum.toNat m' ∧
      (m'.connctionMap ≠ [] → m'.asyncConnectionNum = some (connectionNum - 1)) := by
  induction elements generalizing m nets with
  | nil =>
      cases h
      exact ⟨hm, hnum⟩
  | cons element rest ih =>
      rw [connectionLoop] at h
      split at h
      · cases h
      · obtain ⟨⟨ok, conns, nets', pool⟩, hopen, h⟩ := bind_eq_ok.mp h
        cases ok with
        | false => cases h
        | true =>
            obtain ⟨-, hpool⟩ := openLoop_spec hopen
            have hsized : Sized connectionNum.toNat { m with
                connections := conns
                connctionMap := m.connctionMap ++ [(element.name, pool)]
                asyncConnectionNum := some (connectionNum - 1) } := by
              constructor
              · intro entry hentry
                rcases List.mem_append.mp hentry with hentry | hentry
                · exact hm.length_eq entry hentry
                · rw [List.mem_singleton.mp hentry, hpool]
                  simp
              · exact hm.based_nil
            exact ih hsized (fun _ => rfl) h

/-- **The pools after `LoadConfigFile`** have one connection more than there are workers. -/
structure Loaded (num : ℤ) (m : MysqlMgr) : Prop where
  num_lt : num + 1 < 2147483648
  sized : Sized (num + 1).toNat m
  asyncConnectionNum_eq : m.asyncConnectionNum = some num
  main : ∃ pool, m.mainConnection.bind m.find = some pool

theorem loaded_loadConfigFile {doc : ConfigFile} {mysql : MysqlElement} (hmysql : doc.mysql = some mysql)
    {nets : List Network} {m : MysqlMgr} (h : loadConfigFile (some doc) nets = .ok (true, m)) :
    Loaded (clampConnectionNum mysql.connectionnum (doc.async.getD 0)) m := by
  unfold loadConfigFile at h
  simp only [hmysql] at h
  split at h
  · next hlt =>
      obtain ⟨⟨ok, m'⟩, hloop, h⟩ := bind_eq_ok.mp h
      cases ok with
      | false => cases h
      | true =>
          obtain ⟨hsized, hnum⟩ := sized_connectionLoop ⟨by simp, rfl⟩
            (fun hne => (hne rfl).elim) hloop
          simp only [if_true] at h
          split at h
          · cases h
          · next pool hfind =>
              cases h
              have hne : m'.connctionMap ≠ [] := by
                intro hnil
                rw [MysqlMgr.find, hnil] at hfind
                cases hfind
              refine ⟨hlt, ⟨hsized.length_eq, hsized.based_nil⟩, ?_, pool, hfind⟩
              rw [hnum hne, Int.add_sub_cancel]
  · cases h

/-! ## What is selected -/

theorem clampConnectionNum_pos {connectionnum threadCount : ℤ} :
    1 ≤ clampConnectionNum connectionnum threadCount ↔ 1 ≤ threadCount ∧ connectionnum ≠ 0 := by
  unfold clampConnectionNum
  dsimp only
  split <;> split <;> omega

section Loaded

variable {num : ℤ} {m : MysqlMgr}

/-- The workers are numbered from `1` to `num`. -/
theorem Loaded.getConnectionThreadIdx (h : Loaded num m) (hnum : 1 ≤ num) (id : ℤ) :
    ∃ threadIdx : ℕ, m.getConnectionThreadIdx id = .ok threadIdx ∧ threadIdx ≤ num := by
  have hlt := h.num_lt
  have hnat : toUInt64 num = num.toNat := toUInt64_eq_self (by omega) (by omega)
  have hmod : toUInt64 id % num.toNat < num.toNat := Nat.mod_lt _ (by omega)
  have hidx : toUInt32 (toUInt64 id % num.toNat + 1 : ℕ) = toUInt64 id % num.toNat + 1 := by
    rw [toUInt32_eq_self (by omega) (by omega), Int.toNat_natCast]
  refine ⟨toUInt64 id % num.toNat + 1, ?_, by omega⟩
  simp only [MysqlMgr.getConnectionThreadIdx, h.asyncConnectionNum_eq, hnat]
  rw [if_neg (by omega), hidx]

/-- A place inside the pools. -/
theorem Loaded.slot (h : Loaded num m) (hpools : Pools m) {name : Bytes} {pool : List ℕ}
    (hfind : m.find name = some pool) {threadIdx : ℕ} (hidx : threadIdx ≤ num) :
    m.Defined (MysqlMgr.slot pool threadIdx) := by
  have hentry : (name, pool) ∈ m.connctionMap := MysqlMgr.mem_of_find hfind
  have hlen : pool.length = (num + 1).toNat := h.sized.length_eq _ hentry
  have hlt : threadIdx < pool.length := by omega
  refine ⟨some pool[threadIdx], ?_, ?_⟩
  · rw [MysqlMgr.slot, List.getElem?_eq_getElem hlt]
  · intro c hc
    cases hc
    exact hpools.lt_length _ hentry _ (List.getElem_mem hlt)

/-- **`GetDBConnection`** with an index that the pools have. -/
theorem Loaded.getDBConnection (h : Loaded num m) (hpools : Pools m) {threadIdx : ℕ}
    (hidx : threadIdx ≤ num) (connectionName : Option Bytes) :
    m.Defined (m.getDBConnection threadIdx connectionName) := by
  cases connectionName with
  | none =>
      obtain ⟨pool, hmain⟩ := h.main
      obtain ⟨name, -, hfind⟩ := Option.bind_eq_some_iff.mp hmain
      simp only [MysqlMgr.getDBConnection, hmain]
      exact h.slot hpools hfind hidx
  | some name =>
      simp only [MysqlMgr.getDBConnection]
      split
      · next hfind => exact h.slot hpools hfind hidx
      · exact ⟨none, rfl, by simp⟩

theorem Loaded.selectInAsyncThread (h : Loaded num m) (hpools : Pools m) (threadIdx : ℤ)
    (connectionName : Option Bytes) : m.Defined (m.selectInAsyncThread threadIdx connectionName) := by
  have hcheck : m.checkThreadIdx threadIdx = .ok (decide (0 < threadIdx ∧ threadIdx ≤ num)) := by
    simp only [MysqlMgr.checkThreadIdx, h.asyncConnectionNum_eq]
    split <;> simp_all
  have hlt := h.num_lt
  simp only [MysqlMgr.selectInAsyncThread, hcheck]
  by_cases hidx : 0 < threadIdx ∧ threadIdx ≤ num
  · have heq : toUInt32 threadIdx = threadIdx.toNat := toUInt32_eq_self (by omega) (by omega)
    simp only [hidx, heq]
    exact h.getDBConnection hpools (by omega) connectionName
  · simp only [hidx]
    exact ⟨none, rfl, by simp⟩

theorem MysqlMgr.Defined.onOpened {α : Type} {refused : α} {x : Db α}
    {selection : Except Stuck (Option ℕ)} (h : m.Defined selection) :
    m.OnOpened refused x (do m.onConnection refused x (← selection)) := by
  obtain ⟨connection, rfl, hlt⟩ := h
  exact ⟨connection, hlt, rfl⟩

/-- `PushMysqlHandler` ends when its worker and its connection are defined. -/
theorem Loaded.pushMysqlHandler (h : Loaded num m) (hpools : Pools m) (hnum : 1 ≤ num) (id : ℤ)
    (handler : Option ℕ) (connectionName : Option Bytes) :
    ∃ r m', m.pushMysqlHandler id handler connectionName = .ok (r, m') := by
  cases handler with
  | none => exact ⟨_, _, rfl⟩
  | some handler =>
      obtain ⟨threadIdx, hthread, hle⟩ := h.getConnectionThreadIdx hnum id
      obtain ⟨connection, hconn, -⟩ := h.getDBConnection hpools hle connectionName
      simp only [MysqlMgr.pushMysqlHandler, h.sized.based_nil, List.not_mem_nil, if_false]
      rw [hthread]
      simp only [bind, Except.bind, hconn]
      cases connection with
      | none => exact ⟨_, _, rfl⟩
      | some connection => exact ⟨_, _, rfl⟩

/-- Without a worker the selection is not defined. -/
theorem Loaded.not_selectionDefined (h : Loaded num m) (hnum : num < 1) : ¬m.SelectionDefined := by
  intro hdef
  by_cases hzero : num = 0
  · -- the remainder of a division by zero
    obtain ⟨r, m', hpush⟩ := hdef.push 0 (some 0) none
    simp [MysqlMgr.pushMysqlHandler, h.sized.based_nil, MysqlMgr.getConnectionThreadIdx,
      h.asyncConnectionNum_eq, hzero, toUInt64, bind, Except.bind] at hpush
  · -- there is no connection for the main thread
    obtain ⟨connection, hmain, -⟩ := hdef.handlerInMainThread none
    obtain ⟨pool, hpool⟩ := h.main
    obtain ⟨name, -, hfind⟩ := Option.bind_eq_some_iff.mp hpool
    have hlen : pool.length = (num + 1).toNat :=
      h.sized.length_eq (name, pool) (MysqlMgr.mem_of_find hfind)
    have hnil : pool = [] := List.eq_nil_of_length_eq_zero (by omega)
    simp [MysqlMgr.getEscapeStringHandlerInMainThread, MysqlMgr.selectInMainThread,
      MysqlMgr.getDBConnection, hpool, MysqlMgr.slot, hnil] at hmain

end Loaded

/-- **When the selection is defined.**  After the configuration was read, every pool has a
connection for the main thread and one for each worker, and no selection divides by zero or
leaves its pool, exactly if there is a thread for a worker and a number of connections other
than zero. -/
theorem mysqlSelection_iff {doc : ConfigFile} {mysql : MysqlElement} (hmysql : doc.mysql = some mysql)
    {nets : List Network} {m : MysqlMgr} (h : loadConfigFile (some doc) nets = .ok (true, m)) :
    m.SelectionDefined ↔ 1 ≤ doc.async.getD 0 ∧ mysql.connectionnum ≠ 0 := by
  have hloaded := loaded_loadConfigFile hmysql h
  have hpools := pools_loadConfigFile h
  rw [← clampConnectionNum_pos]
  generalize clampConnectionNum mysql.connectionnum (doc.async.getD 0) = num at hloaded
  constructor
  · intro hdef
    by_contra hnum
    exact hloaded.not_selectionDefined (by omega) hdef
  · intro hnum
    have hasync := hloaded.selectInAsyncThread hpools
    have hmain : ∀ connectionName, m.Defined (m.selectInMainThread connectionName) :=
      hloaded.getDBConnection hpools (by omega)
    constructor
    · refine ⟨num, hloaded.asyncConnectionNum_eq, ?_⟩
      intro entry hentry
      rw [hloaded.sized.length_eq entry hentry]
      omega
    · exact hloaded.pushMysqlHandler hpools hnum
    · exact fun threadIdx sql name => (hasync threadIdx name).onOpened
    · exact fun threadIdx sql cbFun name => (hasync threadIdx name).onOpened
    · exact fun threadIdx src name => (hasync threadIdx name).onOpened
    · exact fun src name => (hmain name).onOpened
    · exact hasync
    · exact hmain

/-- Two names, and two workers for each. -/
theorem mysqlSelection_two : ∃ m,
    loadConfigFile (some exampleConfig)
      (List.replicate 6 { yields := fun _ => false, connects := [.ok] }) = .ok (true, m) ∧
    m.SelectionDefined := by
  obtain ⟨m, hload⟩ : ∃ m, loadConfigFile (some exampleConfig)
      (List.replicate 6 { yields := fun _ => false, connects := [.ok] }) = .ok (true, m) := ⟨_, rfl⟩
  have hmysql : exampleConfig.mysql = some ⟨ascii "a", 2,
    [exampleElement (ascii "a"), exampleElement (ascii "b")]⟩ := rfl
  exact ⟨m, hload, (mysqlSelection_iff hmysql hload).mpr (by decide)⟩

/-- Without an `async` element there is no worker, and the first push divides by zero. -/
theorem mysqlSelection_undefined : ∃ m,
    loadConfigFile (some { exampleConfig with async := none })
      (List.replicate 2 { yields := fun _ => false, connects := [.ok] }) = .ok (true, m) ∧
    m.pushMysqlHandler 1 (some 0) none = .error .divByZero ∧ ¬m.SelectionDefined := by
  refine ⟨_, rfl, rfl, ?_⟩
  intro hdef
  obtain ⟨r, m', hpush⟩ := hdef.push 1 (some 0) none
  cases hpush

end SeedCore.Mysql
