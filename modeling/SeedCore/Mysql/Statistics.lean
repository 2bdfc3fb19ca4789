import SeedCore.Mysql.Success
import Mathlib.Algebra.Group.Int.Defs

/-!
# The statistics of a connection

`DBConnection::execute` counts its calls and its failures and keeps the longest and the
shortest time.  The constructor sets all four numbers to zero, and zero is where the shortest
time stays: no time is below it.

## Main definitions

* `executeAll sqls` — one execution after another.
* `Statistics times rets info` — the numbers are those of a run.
* `Measured times rets info` — what the numbers are.
* `executeAll_measured` — every run of executions leaves such numbers.
* `executeAll_statistics_iff` — when they are the statistics of the run.
-/

namespace SeedCore.Mysql

/-- `execute`, one statement after another; what the calls returned. -/
def executeAll (sqls : List Bytes) : Db (List Bool) := executions (sqls.map .exec)

/-- The trace information is about executions that took `times` and returned `rets`. -/
structure Statistics (times : List ℤ) (rets : List Bool) (info : ConnectionTraceInfo) : Prop where
  execCount_eq : info.execCount = times.length
  failCount_eq : info.failCount = rets.count false
  max_mem : info.maxExecTime ∈ times
  le_max : ∀ t ∈ times, t ≤ info.maxExecTime
  min_mem : info.minExecTime ∈ times
  min_le : ∀ t ∈ times, info.minExecTime ≤ t

/-- What the trace information is after executions that took `times` and returned `rets`: the
largest number is that of a run that began with an execution in no time, and the smallest
number is zero. -/
structure Measured (times : List ℤ) (rets : List Bool) (info : ConnectionTraceInfo) : Prop where
  execCount_eq : info.execCount = times.length
  failCount_eq : info.failCount = rets.count false
  nonneg : ∀ t ∈ times, 0 ≤ t
  max_mem : info.maxExecTime ∈ 0 :: times
  le_max : ∀ t ∈ 0 :: times, t ≤ info.maxExecTime
  min_eq : info.minExecTime = 0

/-! ## One execution -/

/-- `tools::Zero` -/
theorem measured_zero : Measured [] [] {} where
  execCount_eq := rfl
  failCount_eq := rfl
  nonneg := by simp
  max_mem := by simp
  le_max := by simp
  min_eq := rfl

/-- The step of the run: the count before the statement, the rest after it. -/
theorem Measured.record {times : List ℤ} {rets : List Bool} {info : ConnectionTraceInfo}
    (h : Measured times rets info) {time : ℤ} (hpos : 0 ≤ time) (hlt : time < 2 ^ 31)
    (ret : Bool) :
    Measured (times ++ [time]) (rets ++ [ret])
      (ConnectionTraceInfo.record { info with execCount := info.execCount + 1 } time ret) := by
  have hmax : (0 : ℤ) ≤ info.maxExecTime := h.le_max 0 List.mem_cons_self
  have htime : toInt32 time = time := toInt32_eq_self (by omega) (by omega)
  refine ⟨?_, ?_, ?_, ?_, ?_, ?_⟩
  · simp [ConnectionTraceInfo.record, h.execCount_eq]
  · cases ret <;> simp [ConnectionTraceInfo.record, h.failCount_eq]
  · intro t ht
    rcases List.mem_append.mp ht with ht | ht
    · exact h.nonneg t ht
    · rw [List.mem_singleton.mp ht]
      exact hpos
  · by_cases hnew : time > info.maxExecTime
    · simp [ConnectionTraceInfo.record, hnew, htime]
    · have hold := h.max_mem
      simp only [ConnectionTraceInfo.record, hnew, if_false]
      rw [← List.cons_append]
      exact List.mem_append_left _ hold
  · intro t ht
    have hle : t ≤ info.maxExecTime ∨ t = time := by
      rw [← List.cons_append] at ht
      rcases List.mem_append.mp ht with ht | ht
      · exact .inl (h.le_max t ht)
      · exact .inr (List.mem_singleton.mp ht)
    simp only [ConnectionTraceInfo.record, htime]
    split <;> omega
  · have hnot : ¬time < info.minExecTime := by
      rw [h.min_eq]
      omega
    simp only [ConnectionTraceInfo.record, hnot, if_false]
    exact h.min_eq

/-- What everything but the last lines of `execute` leaves alone. -/
structure Unmeasured (c c' : DBConnection) : Prop where
  traceInfo_eq : c'.traceInfo = c.traceInfo
  intervals_eq : c'.net.intervals = c.net.intervals

section Unmeasured

variable (c : DBConnection)

theorem unmeasured_query (sql : Bytes) : Keeps (Unmeasured c) (mysqlRealQuery sql) := by
  intro s hs
  unfold mysqlRealQuery
  split
  · exact ⟨hs.traceInfo_eq, hs.intervals_eq⟩
  · split <;> exact ⟨hs.traceInfo_eq, hs.intervals_eq⟩

theorem unmeasured_isActive : Keeps (Unmeasured c) DBConnection.isActive :=
  Keeps.along Quiet.refl quiet_isActive fun _ _ h hs =>
    ⟨hs.traceInfo_eq.trans h.traceInfo_eq, hs.intervals_eq.trans h.intervals_eq⟩

theorem unmeasured_innerExecute (sql : Bytes) :
    Keeps (Unmeasured c) (DBConnection.innerExecute sql) := by
  refine .bind (unmeasured_query c _) fun ret => .ite (.pure _) ?_
  exact .bind (unmeasured_isActive c) fun active => .ite (unmeasured_query c _) (.pure _)

end Unmeasured

/-- **One execution** takes one time from the stopwatch and records it. -/
theorem execute_record {sql : Bytes} {c c' : DBConnection} {ret : Bool}
    (h : DBConnection.execute sql c = .ok ret c') :
    ∃ time, c.net.intervals = time :: c'.net.intervals ∧
      c'.traceInfo = ConnectionTraceInfo.record
        { c.traceInfo with execCount := c.traceInfo.execCount + 1 } time ret := by
  obtain ⟨_, counted, hcount, h⟩ := ok_of_bind h
  cases hcount
  obtain ⟨ret', s, hinner, h⟩ := ok_of_bind h
  obtain ⟨time, t, hwatch, h⟩ := ok_of_bind h
  obtain ⟨_, u, hrecord, h⟩ := ok_of_bind h
  cases hrecord
  cases h
  have hs := (unmeasured_innerExecute _ sql).of_ok ⟨rfl, rfl⟩ hinner
  have hintervals : c.net.intervals = s.net.intervals := hs.intervals_eq.symm
  unfold watchInterval at hwatch
  cases hi : s.net.intervals with
  | nil =>
      rw [hi] at hwatch
      cases hwatch
  | cons first rest =>
      rw [hi] at hwatch
      cases hwatch
      refine ⟨time, by rw [hintervals, hi], ?_⟩
      show s.traceInfo.record time ret = _
      rw [hs.traceInfo_eq]

/-! ## Every run -/

/-- **A run of executions** adds its times and what its calls returned. -/
theorem executeAll_measured {sqls : List Bytes} {c c' : DBConnection} {rets : List Bool}
    (h : executeAll sqls c = .ok rets c')
    (htimes : ∀ t ∈ c.net.intervals.take sqls.length, 0 ≤ t ∧ t < 2 ^ 31)
    {times : List ℤ} {earlier : List Bool} (hc : Measured times earlier c.traceInfo) :
    Measured (times ++ c.net.intervals.take sqls.length) (earlier ++ rets) c'.traceInfo := by
  induction sqls generalizing c rets times earlier with
  | nil =>
      cases h
      simpa using hc
  | cons sql sqls ih =>
      obtain ⟨ret, mid, hret, h⟩ := ok_of_bind h
      obtain ⟨later, s, hrest, h⟩ := ok_of_bind h
      cases h
      obtain ⟨time, hintervals, hinfo⟩ := execute_record hret
      simp only [hintervals, List.length_cons, List.take_succ_cons, List.mem_cons] at htimes ⊢
      have htime := htimes time (.inl rfl)
      have hmid := hc.record htime.1 htime.2 ret
      rw [← hinfo] at hmid
      have hrun := ih hrest (fun t ht => htimes t (.inr ht)) hmid
      simpa using hrun

/-- Numbers as they are measured are the statistics of the run when some execution took no
time: only then is the shortest time zero. -/
theorem Measured.statistics_iff {times : List ℤ} {rets : List Bool} {info : ConnectionTraceInfo}
    (h : Measured times rets info) :
    Statistics times rets info ↔ 0 ∈ times := by
  constructor
  · intro hstat
    have hmem := hstat.min_mem
    rwa [h.min_eq] at hmem
  · intro hzero
    refine ⟨h.execCount_eq, h.failCount_eq, ?_, ?_, ?_, ?_⟩
    · rcases List.mem_cons.mp h.max_mem with hmax | hmax
      · rw [hmax]
        exact hzero
      · exact hmax
    · intro t ht
      exact h.le_max t (List.mem_cons_of_mem _ ht)
    · rw [h.min_eq]
      exact hzero
    · rw [h.min_eq]
      exact h.nonneg

/-- **When the numbers are the statistics of the run.**  The counts and the longest time always
are; the shortest time is when some execution took no time at all. -/
theorem executeAll_statistics_iff {sqls : List Bytes} {conn conn' : DBConnection}
    {rets : List Bool} (hfresh : conn.traceInfo = {})
    (htimes : ∀ t ∈ conn.net.intervals.take sqls.length, 0 ≤ t ∧ t < 2 ^ 31)
    (hrun : executeAll sqls conn = .ok rets conn') :
    Statistics (conn.net.intervals.take sqls.length) rets conn'.traceInfo ↔
      0 ∈ conn.net.intervals.take sqls.length := by
  have hstart : Measured [] [] conn.traceInfo := by
    rw [hfresh]
    exact measured_zero
  exact (executeAll_measured hrun htimes hstart).statistics_iff

/-- A connection over which two statements will succeed, taking these times. -/
def timedConnection (times : List ℤ) : DBConnection where
  net := {
    yields := fun _ => false
    queries := [.ok emptySet, .ok emptySet]
    intervals := times }

/-- Two executions, the first of which took no time. -/
theorem executeAll_statistics_zero : ∃ rets conn',
    executeAll [updateSql, updateSql] (timedConnection [0, 7]) = .ok rets conn' ∧
      Statistics [0, 7] rets conn'.traceInfo := by
  have hrun : observed (fun rets _ => rets)
      (executeAll [updateSql, updateSql] (timedConnection [0, 7])) = some [true, true] := by
    decide +kernel
  obtain ⟨rets, conn', hrun, -⟩ := exists_ok_of_observed hrun
  refine ⟨rets, conn', hrun, ?_⟩
  exact (executeAll_statistics_iff rfl (by decide) hrun).mpr (by decide)

/-- One execution that took five milliseconds: the shortest time is zero afterwards. -/
theorem executeAll_min_zero : ∃ rets conn',
    (timedConnection [5]).traceInfo = {} ∧
      executeAll [updateSql] (timedConnection [5]) = .ok rets conn' ∧
      conn'.traceInfo = ⟨1, 0, 5, 0⟩ ∧ ¬Statistics [5] rets conn'.traceInfo := by
  have hrun : observed (fun _ conn' => conn'.traceInfo)
      (executeAll [updateSql] (timedConnection [5])) = some ⟨1, 0, 5, 0⟩ := by
    decide +kernel
  obtain ⟨rets, conn', hrun, hinfo⟩ := exists_ok_of_observed hrun
  refine ⟨rets, conn', rfl, hrun, hinfo, ?_⟩
  intro h
  have hmem := h.min_mem
  rw [hinfo] at hmem
  exact absurd hmem (by decide)

end SeedCore.Mysql
