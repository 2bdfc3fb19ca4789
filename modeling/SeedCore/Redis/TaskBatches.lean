import SeedCore.Lib.Triple
import SeedCore.Redis.AsyncQueue

/-!
# The batches of a run of `OnExecRedisTask`

A run takes the nodes of a list one by one, collects their builders and executes a batch
when it is full or the list is at its end.  Nodes, builders and replies are objects on the
heap: they are numbered in the order of the list and in the order in which they are
obtained, and the log says what was executed and deleted, and in which order.

## Main definitions

* `TaskState`, `taskStep`, `onExecRedisTask` — the function.
* `batches`, `deletedBuilders` … — what a log says.
* `Executions` — each entry of a log is a call of `batchExecCmd`, one on what the other left.
* `Accounted mgr done s` — the invariant of the loop.
* `onExecRedisTask_batches` — every run executes the whole list and deletes everything once.
-/

namespace SeedCore.Redis

/-- A builder, with the number of its node. -/
abbrev NumberedCmd := RedisCmdBuilder × ℕ

/-- What happens to the objects of a run. -/
inductive TaskEvent
  /-- `batchExecCmd` returned, with these new replies. -/
  | exec (vecRedisBuilder : List NumberedCmd) (replies : List ℕ)
  | freeReply (reply : ℕ)
  | deleteBuilder (builder : ℕ)
  | deleteNode (node : ℕ)
  deriving DecidableEq, Repr

/-- The local variables of a run, and how many replies it has obtained. -/
structure TaskState where
  mgr : RedisMgr
  vecRedisBuilder : List NumberedCmd := []
  vecRedisReply : List (RedisReply × ℕ) := []
  obtained : ℕ := 0
  log : List TaskEvent := []

namespace TaskState

/-- `vecRedisBuilder.push_back(tmp->cmdBuilder)` -/
def push (s : TaskState) (tmp : NumberedCmd) : TaskState :=
  { s with vecRedisBuilder := s.vecRedisBuilder ++ [tmp] }

/-- `DEL tmp` -/
def deleteNode (s : TaskState) (tmp : NumberedCmd) : TaskState :=
  { s with log := s.log ++ [.deleteNode tmp.2] }

/-- The destructors of the `RedisResult`s free the replies, the builders are deleted, and
both vectors are cleared. -/
def clear (s : TaskState) : TaskState := { s with
  vecRedisBuilder := []
  vecRedisReply := []
  log := s.log ++ ((s.vecRedisReply.map Prod.snd).map .freeReply
    ++ (s.vecRedisBuilder.map Prod.snd).map .deleteBuilder) }

/-- `redisConnection->_postTask = false`, for connection `i`. -/
def resetPostTask (s : TaskState) (i : ℕ) : TaskState := { s with
  mgr := (s.mgr.modify i fun conn => (conn.assignPostTask false).1).getD s.mgr }

end TaskState

/-- A piece of `OnExecRedisTask`. -/
abbrev TaskM := EStateM Stuck TaskState

/-! ## The source -/

/-- The call of `batchExecCmd`. -/
def execBatch (threadIdx : ℤ) : TaskM Unit := do
  let s ← get
  match batchExecCmd s.mgr threadIdx (s.vecRedisBuilder.map Prod.fst) (s.vecRedisReply.map Prod.fst)
      true with
  | .error e => throw e
  | .ok r =>
      let new := (r.reply.drop s.vecRedisReply.length).zipIdx s.obtained
      set { s with
        mgr := r.mgr
        vecRedisReply := s.vecRedisReply ++ new
        obtained := s.obtained + new.length
        log := s.log ++ [TaskEvent.exec s.vecRedisBuilder (new.map Prod.snd)] }

/-- The block of the inner condition. -/
def flushBatch (threadIdx : ℤ) : TaskM Unit := do
  let s ← get
  if 0 < s.vecRedisBuilder.length then execBatch threadIdx
  modify fun s => s.clear

/-- One iteration of the loop, where `head` is the list behind the node. -/
def taskStep (threadIdx : ℤ) (tmp : NumberedCmd) (head : List NumberedCmd) : TaskM Unit := do
  modify fun s => s.push tmp
  let s ← get
  if s.vecRedisBuilder.length = redisAsyncBatchCmdCount ∨ head.isEmpty then flushBatch threadIdx
  modify fun s => s.deleteNode tmp

/-- The loop. -/
def taskLoop (threadIdx : ℤ) : List NumberedCmd → TaskM Unit
  | [] => pure ()
  | tmp :: head => do
      taskStep threadIdx tmp head
      taskLoop threadIdx head

/-- `OnExecRedisTask` on connection `i`, when `cutList` returns the nodes of these builders. -/
def onExecRedisTask (i : ℕ) (cutList : List RedisCmdBuilder) : TaskM Unit := do
  let s ← get
  match s.mgr.vecRedisContext[i]? with
  | none => throw .outOfBounds
  | some redisConnection => do
      taskLoop redisConnection.threadIdx cutList.zipIdx
      modify fun s => s.resetPostTask i

/-! ## What a step can do -/

section Steps

variable {threadIdx : ℤ} {tmp : NumberedCmd} {head : List NumberedCmd} {s s' : TaskState}

/-- A batch is due: it is full, or the list is at its end. -/
def Due (s : TaskState) (head : List NumberedCmd) : Prop :=
  s.vecRedisBuilder.length + 1 = redisAsyncBatchCmdCount ∨ head = []

/-- The state after an execution that leaves the manager `mgr` and gives the replies
`vecRedisReply`. -/
def TaskState.executed (s : TaskState) (mgr : RedisMgr) (vecRedisReply : List (RedisReply × ℕ)) :
    TaskState :=
  { s with
    mgr := mgr
    vecRedisReply := s.vecRedisReply ++ vecRedisReply
    obtained := s.obtained + vecRedisReply.length
    log := s.log ++ [.exec s.vecRedisBuilder (vecRedisReply.map Prod.snd)] }

theorem execBatch_ok {r : Executed (List RedisCmdBuilder) (List RedisReply)}
    (h : batchExecCmd s.mgr threadIdx (s.vecRedisBuilder.map Prod.fst) (s.vecRedisReply.map Prod.fst)
      true = .ok r) :
    execBatch threadIdx s
      = .ok () (s.executed r.mgr ((r.reply.drop s.vecRedisReply.length).zipIdx s.obtained)) := by
  rw [execBatch, bind_ok (show (get : TaskM TaskState) s = .ok s s from rfl), h]
  rfl

theorem execBatch_error {e : Stuck}
    (h : batchExecCmd s.mgr threadIdx (s.vecRedisBuilder.map Prod.fst) (s.vecRedisReply.map Prod.fst)
      true = .error e) : execBatch threadIdx s = .error e s := by
  rw [execBatch, bind_ok (show (get : TaskM TaskState) s = .ok s s from rfl), h]
  rfl

/-- **What a step can do**: collect a command, or execute a batch if one is due; and only the
execution may not return. -/
theorem taskStep_cases (threadIdx : ℤ) (tmp : NumberedCmd) (head : List NumberedCmd) (s : TaskState) :
    (¬Due s head ∧ taskStep threadIdx tmp head s = .ok () ((s.push tmp).deleteNode tmp)) ∨
    (Due s head ∧ ((∃ r, batchExecCmd s.mgr threadIdx ((s.push tmp).vecRedisBuilder.map Prod.fst)
          (s.vecRedisReply.map Prod.fst) true = .ok r ∧
        taskStep threadIdx tmp head s = .ok () (((s.push tmp).executed r.mgr
          ((r.reply.drop s.vecRedisReply.length).zipIdx s.obtained)).clear.deleteNode tmp)) ∨
      ∃ e, batchExecCmd s.mgr threadIdx ((s.push tmp).vecRedisBuilder.map Prod.fst)
          (s.vecRedisReply.map Prod.fst) true = .error e ∧
        taskStep threadIdx tmp head s = .error e (s.push tmp))) := by
  have hlen : (s.push tmp).vecRedisBuilder.length = s.vecRedisBuilder.length + 1 := by
    simp [TaskState.push]
  have hdue : (s.push tmp).vecRedisBuilder.length = redisAsyncBatchCmdCount ∨ head.isEmpty = true ↔
      Due s head := by
    rw [Due, hlen, List.isEmpty_iff]
  have hget : ∀ s : TaskState, (get : TaskM TaskState) s = .ok s s := fun _ => rfl
  have hpush : (modify fun s => s.push tmp : TaskM PUnit) s = .ok () (s.push tmp) := rfl
  have hflush : flushBatch threadIdx (s.push tmp)
      = (do execBatch threadIdx; modify fun s => s.clear : TaskM PUnit) (s.push tmp) := by
    rw [flushBatch, bind_ok (hget _), if_pos (by rw [hlen]; exact Nat.succ_pos _)]
  rw [taskStep, bind_ok hpush, bind_ok (hget _)]
  by_cases h : Due s head
  · refine .inr ⟨h, ?_⟩
    rw [if_pos (hdue.mpr h)]
    cases hexec : batchExecCmd s.mgr threadIdx ((s.push tmp).vecRedisBuilder.map Prod.fst)
        (s.vecRedisReply.map Prod.fst) true with
    | error e =>
        exact .inr ⟨e, rfl, bind_error (hflush.trans (bind_error (execBatch_error hexec)))⟩
    | ok r => exact .inl ⟨r, rfl, bind_ok (hflush.trans (bind_ok (execBatch_ok hexec)))⟩
  · refine .inl ⟨h, ?_⟩
    rw [if_neg (fun hc => h (hdue.mp hc))]
    rfl

end Steps

/-! ## What a log says -/

section Log

variable {log : List TaskEvent}

/-- The batches that were executed, one after the other. -/
def batches (log : List TaskEvent) : List (List NumberedCmd) :=
  log.filterMap fun
    | .exec vecRedisBuilder _ => some vecRedisBuilder
    | _ => none

/-- The executions: each batch, with the replies that it brought. -/
def executions (log : List TaskEvent) : List (List NumberedCmd × List ℕ) :=
  log.filterMap fun
    | .exec vecRedisBuilder replies => some (vecRedisBuilder, replies)
    | _ => none

/-- The replies that were obtained. -/
def obtainedReplies (log : List TaskEvent) : List ℕ :=
  log.flatMap fun
    | .exec _ replies => replies
    | _ => []

def freedReplies (log : List TaskEvent) : List ℕ :=
  log.filterMap fun
    | .freeReply reply => some reply
    | _ => none

def deletedBuilders (log : List TaskEvent) : List ℕ :=
  log.filterMap fun
    | .deleteBuilder builder => some builder
    | _ => none

def deletedNodes (log : List TaskEvent) : List ℕ :=
  log.filterMap fun
    | .deleteNode node => some node
    | _ => none

/-- The numbers of the commands that were executed. -/
def executedCmds (log : List TaskEvent) : List ℕ := (batches log).flatten.map Prod.snd

/-- At every moment, only what was executed is deleted, and only what was obtained is freed. -/
def Ordered (log : List TaskEvent) : Prop :=
  ∀ l, l <+: log → deletedBuilders l <+: executedCmds l ∧ freedReplies l <+: obtainedReplies l

theorem prefix_executedCmds {l l' : List TaskEvent} (h : l <+: l') : executedCmds l <+: executedCmds l' := by
  obtain ⟨t, rfl⟩ := h
  simp [executedCmds, batches]

theorem prefix_obtainedReplies {l l' : List TaskEvent} (h : l <+: l') :
    obtainedReplies l <+: obtainedReplies l' := by
  obtain ⟨t, rfl⟩ := h
  simp [obtainedReplies]

/-- More events are in order if what they delete was executed before. -/
theorem Ordered.append (h : Ordered log) {events : List TaskEvent}
    (hbuilders : deletedBuilders (log ++ events) <+: executedCmds log)
    (hreplies : freedReplies (log ++ events) <+: obtainedReplies log) : Ordered (log ++ events) := by
  intro l hl
  rcases List.prefix_or_prefix_of_prefix hl (List.prefix_append log events) with hle | hle
  · exact h l hle
  · exact ⟨((hl.filterMap _).trans hbuilders).trans (prefix_executedCmds hle),
      ((hl.filterMap _).trans hreplies).trans (prefix_obtainedReplies hle)⟩

end Log

/-- The executions of a run on `threadIdx` that starts with the manager `mgr`: each is a call of
`batchExecCmd` on the manager that the one before left, and the replies that it hands out get
the next numbers.  They leave the manager `mgr'`, with `obtained` replies handed out. -/
inductive Executions (threadIdx : ℤ) (mgr : RedisMgr) :
    List (List NumberedCmd × List ℕ) → RedisMgr → ℕ → Prop
  | nil : Executions threadIdx mgr [] mgr 0
  | exec {past : List (List NumberedCmd × List ℕ)} {mgr' : RedisMgr} {obtained : ℕ}
      {vecRedisBuilder : List NumberedCmd} {r : Executed (List RedisCmdBuilder) (List RedisReply)}
      (hpast : Executions threadIdx mgr past mgr' obtained)
      (hexec : batchExecCmd mgr' threadIdx (vecRedisBuilder.map Prod.fst) [] true = .ok r) :
      Executions threadIdx mgr
        (past ++ [(vecRedisBuilder, List.range' obtained r.reply.length)]) r.mgr
        (obtained + r.reply.length)

/-! ## The invariant of the loop -/

/-- After the commands `done` were taken over and the nodes `nodes` deleted, in a run on
`threadIdx` from the manager `mgr`, everything is accounted for. -/
structure Accounted (threadIdx : ℤ) (mgr : RedisMgr) (done : List NumberedCmd) (nodes : List ℕ)
    (s : TaskState) : Prop where
  executions_eq : Executions threadIdx mgr (executions s.log) s.mgr s.obtained
  batches_eq : (batches s.log).flatten ++ s.vecRedisBuilder = done
  replies_nil : s.vecRedisReply = []
  obtained_eq : obtainedReplies s.log = List.range s.obtained
  freed_eq : freedReplies s.log = obtainedReplies s.log
  builders_eq : deletedBuilders s.log = executedCmds s.log
  nodes_eq : deletedNodes s.log = nodes
  ordered : Ordered s.log

/-- The sizes of the batches, when `head` is still to come. -/
structure Sized (head : List NumberedCmd) (s : TaskState) : Prop where
  pending_lt : s.vecRedisBuilder.length < redisAsyncBatchCmdCount
  pending_nil : head = [] → s.vecRedisBuilder = []
  full : head ≠ [] → ∀ b ∈ batches s.log, b.length = redisAsyncBatchCmdCount
  dropLast_full : ∀ b ∈ (batches s.log).dropLast, b.length = redisAsyncBatchCmdCount
  bounded : ∀ b ∈ batches s.log, 1 ≤ b.length ∧ b.length ≤ redisAsyncBatchCmdCount

section Invariant

variable {threadIdx : ℤ} {mgr₀ : RedisMgr} {done head : List NumberedCmd} {tmp : NumberedCmd}
  {nodes : List ℕ} {s : TaskState} {vecReply : List (RedisReply × ℕ)}

@[simp] theorem batches_deleteNode (s : TaskState) (tmp : NumberedCmd) :
    batches (s.deleteNode tmp).log = batches s.log := by
  simp [batches, TaskState.deleteNode]

@[simp] theorem executions_deleteNode (s : TaskState) (tmp : NumberedCmd) :
    executions (s.deleteNode tmp).log = executions s.log := by
  simp [executions, TaskState.deleteNode]

theorem Accounted.push (h : Accounted threadIdx mgr₀ done nodes s) :
    Accounted threadIdx mgr₀ (done ++ [tmp]) nodes (s.push tmp) :=
  { h with batches_eq := by rw [← h.batches_eq, List.append_assoc]; rfl }

theorem Accounted.deleteNode (h : Accounted threadIdx mgr₀ done nodes s) :
    Accounted threadIdx mgr₀ done (nodes ++ [tmp.2]) (s.deleteNode tmp) := by
  have hobtained : obtainedReplies (s.deleteNode tmp).log = obtainedReplies s.log := by
    simp [obtainedReplies, TaskState.deleteNode]
  have hfreed : freedReplies (s.deleteNode tmp).log = freedReplies s.log := by
    simp [freedReplies, TaskState.deleteNode]
  have hbuilders : deletedBuilders (s.deleteNode tmp).log = deletedBuilders s.log := by
    simp [deletedBuilders, TaskState.deleteNode]
  constructor
  · rw [executions_deleteNode]
    exact h.executions_eq
  · rw [batches_deleteNode]
    exact h.batches_eq
  · exact h.replies_nil
  · exact hobtained.trans h.obtained_eq
  · rw [hfreed, hobtained, h.freed_eq]
  · rw [hbuilders, executedCmds, batches_deleteNode, h.builders_eq, executedCmds]
  · rw [← h.nodes_eq]
    simp [deletedNodes, TaskState.deleteNode]
  · refine h.ordered.append ?_ ?_
    · exact (hbuilders.trans h.builders_eq) ▸ List.prefix_rfl
    · exact (hfreed.trans h.freed_eq) ▸ List.prefix_rfl

/-- The state after a batch. -/
def TaskState.flushed (s : TaskState) (mgr : RedisMgr) (vecReply : List (RedisReply × ℕ)) : TaskState :=
  (s.executed mgr vecReply).clear

@[simp] theorem batches_flushed (s : TaskState) (mgr : RedisMgr) (vecReply : List (RedisReply × ℕ)) :
    batches (s.flushed mgr vecReply).log = batches s.log ++ [s.vecRedisBuilder] := by
  simp [batches, TaskState.flushed, TaskState.executed, TaskState.clear, List.filterMap_map,
    Function.comp_def]

section Flushed

variable (hnil : s.vecRedisReply = []) (mgr : RedisMgr)
include hnil

/-- The events of a batch: its execution, and then what is freed and deleted. -/
theorem log_flushed : (s.flushed mgr vecReply).log
    = (s.log ++ [.exec s.vecRedisBuilder (vecReply.map Prod.snd)])
      ++ ((vecReply.map Prod.snd).map .freeReply ++ (s.vecRedisBuilder.map Prod.snd).map .deleteBuilder) := by
  simp [TaskState.flushed, TaskState.executed, TaskState.clear, hnil]

theorem obtainedReplies_flushed : obtainedReplies (s.flushed mgr vecReply).log
    = obtainedReplies s.log ++ vecReply.map Prod.snd := by
  rw [log_flushed hnil]
  simp [obtainedReplies, List.flatMap_map]

theorem freedReplies_flushed : freedReplies (s.flushed mgr vecReply).log
    = freedReplies s.log ++ vecReply.map Prod.snd := by
  rw [log_flushed hnil]
  simp [freedReplies, List.filterMap_map, Function.comp_def]

theorem deletedBuilders_flushed : deletedBuilders (s.flushed mgr vecReply).log
    = deletedBuilders s.log ++ s.vecRedisBuilder.map Prod.snd := by
  rw [log_flushed hnil]
  simp [deletedBuilders, List.filterMap_map, Function.comp_def]

theorem deletedNodes_flushed :
    deletedNodes (s.flushed mgr vecReply).log = deletedNodes s.log := by
  rw [log_flushed hnil]
  simp [deletedNodes, List.filterMap_map, Function.comp_def]

theorem executions_flushed : executions (s.flushed mgr vecReply).log
    = executions s.log ++ [(s.vecRedisBuilder, vecReply.map Prod.snd)] := by
  rw [log_flushed hnil]
  simp [executions, List.filterMap_map, Function.comp_def]

end Flushed

theorem executedCmds_flushed (s : TaskState) (mgr : RedisMgr) (vecReply : List (RedisReply × ℕ)) :
    executedCmds (s.flushed mgr vecReply).log
      = executedCmds s.log ++ s.vecRedisBuilder.map Prod.snd := by
  rw [executedCmds, batches_flushed, executedCmds]
  simp

/-- What a batch deletes was executed just before, and what it frees was obtained there. -/
theorem Accounted.ordered_flushed (h : Accounted threadIdx mgr₀ done nodes s) (mgr : RedisMgr) :
    Ordered (s.flushed mgr vecReply).log := by
  have hexec : Ordered (s.log ++ [.exec s.vecRedisBuilder (vecReply.map Prod.snd)]) := by
    refine h.ordered.append ?_ ?_
    · simp [deletedBuilders, ← h.builders_eq]
    · simp [freedReplies, ← h.freed_eq]
  have hexecuted : executedCmds (s.log ++ [.exec s.vecRedisBuilder (vecReply.map Prod.snd)])
      = executedCmds s.log ++ s.vecRedisBuilder.map Prod.snd := by
    simp [executedCmds, batches]
  have hobtained : obtainedReplies (s.log ++ [.exec s.vecRedisBuilder (vecReply.map Prod.snd)])
      = obtainedReplies s.log ++ vecReply.map Prod.snd := by
    simp [obtainedReplies]
  have hlog : (s.flushed mgr vecReply).log = _ := log_flushed h.replies_nil mgr
  rw [hlog]
  refine hexec.append ?_ ?_
  · simp only [← hlog, deletedBuilders_flushed h.replies_nil, hexecuted, h.builders_eq,
      List.prefix_rfl]
  · simp only [← hlog, freedReplies_flushed h.replies_nil, hobtained, h.freed_eq, List.prefix_rfl]

/-- The numbers of new replies, from the next one on. -/
theorem map_snd_zipIdx_obtained (reply : List RedisReply) (obtained : ℕ) :
    (reply.zipIdx obtained).map Prod.snd = List.range' obtained (reply.zipIdx obtained).length := by
  rw [List.zipIdx_map_snd, List.length_zipIdx]

theorem Accounted.flushed (h : Accounted threadIdx mgr₀ done nodes s)
    {r : Executed (List RedisCmdBuilder) (List RedisReply)}
    (hexec : batchExecCmd s.mgr threadIdx (s.vecRedisBuilder.map Prod.fst) [] true = .ok r) :
    Accounted threadIdx mgr₀ done nodes (s.flushed r.mgr (r.reply.zipIdx s.obtained)) := by
  have hnil := h.replies_nil
  have hreply := map_snd_zipIdx_obtained r.reply s.obtained
  have hexecutions := h.executions_eq.exec hexec
  constructor
  · rw [executions_flushed hnil, hreply]
    simpa [TaskState.flushed, TaskState.executed, TaskState.clear] using hexecutions
  · rw [batches_flushed, List.flatten_append]
    simpa [TaskState.flushed, TaskState.executed, TaskState.clear] using h.batches_eq
  · rfl
  · have happend := List.range'_append_1 (s := 0) (m := s.obtained)
      (n := (r.reply.zipIdx s.obtained).length)
    rw [Nat.zero_add] at happend
    rw [obtainedReplies_flushed hnil, hreply, h.obtained_eq, List.range_eq_range', happend]
    exact List.range_eq_range'.symm
  · rw [freedReplies_flushed hnil, obtainedReplies_flushed hnil, h.freed_eq]
  · rw [deletedBuilders_flushed hnil, executedCmds_flushed, h.builders_eq]
  · rw [deletedNodes_flushed hnil, h.nodes_eq]
  · exact h.ordered_flushed r.mgr

theorem Sized.collect (h : Sized (tmp :: head) s) (hdue : ¬Due s head) :
    Sized head ((s.push tmp).deleteNode tmp) := by
  obtain ⟨hcount, hhead⟩ := not_or.mp hdue
  have hpending := h.pending_lt
  have hbatches : batches ((s.push tmp).deleteNode tmp).log = batches s.log :=
    batches_deleteNode (s.push tmp) tmp
  constructor
  · rw [TaskState.deleteNode, TaskState.push, List.length_append, List.length_singleton]
    omega
  · exact fun hnil => absurd hnil hhead
  · exact fun _ => hbatches ▸ h.full (List.cons_ne_nil _ _)
  · exact hbatches ▸ h.dropLast_full
  · exact hbatches ▸ h.bounded

theorem Sized.flushed (h : Sized (tmp :: head) s) (hdue : Due s head) (mgr : RedisMgr) :
    Sized head (((s.push tmp).flushed mgr vecReply).deleteNode tmp) := by
  have hfull := h.full (List.cons_ne_nil _ _)
  have hpending := h.pending_lt
  have hlen : (s.push tmp).vecRedisBuilder.length = s.vecRedisBuilder.length + 1 := by
    simp [TaskState.push]
  have hbatches : batches (((s.push tmp).flushed mgr vecReply).deleteNode tmp).log
      = batches s.log ++ [(s.push tmp).vecRedisBuilder] := by
    rw [batches_deleteNode, batches_flushed]
    rfl
  constructor
  · exact Nat.zero_lt_succ _
  · exact fun _ => rfl
  · intro hhead b hb
    rw [hbatches, List.mem_append, List.mem_singleton] at hb
    rcases hb with hb | rfl
    · exact hfull b hb
    · rw [hlen]
      exact hdue.resolve_right hhead
  · rw [hbatches, List.dropLast_concat]
    exact hfull
  · intro b hb
    rw [hbatches, List.mem_append, List.mem_singleton] at hb
    rcases hb with hb | rfl
    · exact h.bounded b hb
    · rw [hlen]
      omega

end Invariant

/-! ## Whole runs -/

/-- Why a run on `threadIdx` from the manager `mgr` over `todo` stopped in the state `s`: the
execution of the next batch did not return.  All before it is executed, in full batches. -/
structure StoppedAt (threadIdx : ℤ) (mgr : RedisMgr) (todo : List NumberedCmd) (e : Stuck)
    (s : TaskState) : Prop where
  executions_eq : Executions threadIdx mgr (executions s.log) s.mgr s.obtained
  full : ∀ b ∈ batches s.log, b.length = redisAsyncBatchCmdCount
  /-- The batch that is due. -/
  stops : batchExecCmd s.mgr threadIdx (s.vecRedisBuilder.map Prod.fst) [] true = .error e
  next_prefix : (batches s.log).flatten ++ s.vecRedisBuilder <+: todo
  next_pos : 1 ≤ s.vecRedisBuilder.length
  next_full : s.vecRedisBuilder.length = redisAsyncBatchCmdCount ∨
    s.vecRedisBuilder.length < redisAsyncBatchCmdCount ∧
      (batches s.log).flatten ++ s.vecRedisBuilder = todo
  builders_eq : deletedBuilders s.log = executedCmds s.log
  replies_eq : obtainedReplies s.log = List.range s.obtained ∧
    freedReplies s.log = List.range s.obtained
  ordered : Ordered s.log

section Loop

variable {threadIdx : ℤ} {mgr : RedisMgr} {done head : List NumberedCmd} {tmp : NumberedCmd}
  {s : TaskState}

/-- The state in which the execution of a batch that is due does not return. -/
theorem stoppedAt_push (h : Accounted threadIdx mgr done (done.map Prod.snd) s)
    (hsize : Sized (tmp :: head) s) (hdue : Due s head) {e : Stuck}
    (hexec : batchExecCmd s.mgr threadIdx ((s.push tmp).vecRedisBuilder.map Prod.fst) [] true
      = .error e) : StoppedAt threadIdx mgr (done ++ tmp :: head) e (s.push tmp) := by
  have hpush : Accounted threadIdx mgr (done ++ [tmp]) (done.map Prod.snd) (s.push tmp) := h.push
  have hcat : done ++ tmp :: head = (done ++ [tmp]) ++ head := by simp
  have hlen : (s.push tmp).vecRedisBuilder.length = s.vecRedisBuilder.length + 1 := by
    simp [TaskState.push]
  have hpending := hsize.pending_lt
  constructor
  · exact hpush.executions_eq
  · exact hsize.full (List.cons_ne_nil _ _)
  · exact hexec
  · rw [hpush.batches_eq, hcat]
    exact List.prefix_append _ _
  · omega
  · rw [hpush.batches_eq, hlen]
    rcases Nat.lt_or_ge (s.vecRedisBuilder.length + 1) redisAsyncBatchCmdCount with hlt | hge
    · -- a batch that is not full is due only at the end of the list
      obtain rfl : head = [] := hdue.resolve_left (Nat.ne_of_lt hlt)
      exact .inr ⟨hlt, rfl⟩
    · exact .inl (by omega)
  · exact hpush.builders_eq
  · exact ⟨hpush.obtained_eq, hpush.freed_eq.trans hpush.obtained_eq⟩
  · exact hpush.ordered

/-- **The loop** handles all that is still to come, unless an execution does not return. -/
theorem taskLoop_cases {todo : List NumberedCmd}
    (h : Accounted threadIdx mgr done (done.map Prod.snd) s) (hsize : Sized todo s) :
    (∃ s', taskLoop threadIdx todo s = .ok () s' ∧
      Accounted threadIdx mgr (done ++ todo) ((done ++ todo).map Prod.snd) s' ∧ Sized [] s') ∨
    ∃ e s', taskLoop threadIdx todo s = .error e s' ∧
      StoppedAt threadIdx mgr (done ++ todo) e s' := by
  induction todo generalizing done s with
  | nil =>
      rw [List.append_nil]
      exact .inl ⟨s, rfl, h, hsize⟩
  | cons tmp head ih =>
      have hcat : done ++ tmp :: head = (done ++ [tmp]) ++ head := by simp
      have hnodes : done.map Prod.snd ++ [tmp.2] = (done ++ [tmp]).map Prod.snd := by simp
      have hpush : Accounted threadIdx mgr (done ++ [tmp]) (done.map Prod.snd) (s.push tmp) := h.push
      have hnil := h.replies_nil
      obtain ⟨hdue, hstep⟩ | ⟨hdue, ⟨r, hexec, hstep⟩ | ⟨e, hexec, hstep⟩⟩ :=
        taskStep_cases threadIdx tmp head s
      · rw [taskLoop, bind_ok hstep, hcat]
        exact ih (hnodes ▸ hpush.deleteNode) (hsize.collect hdue)
      · rw [hnil] at hexec hstep
        rw [taskLoop, bind_ok hstep, hcat]
        exact ih (hnodes ▸ (hpush.flushed hexec).deleteNode) (hsize.flushed hdue r.mgr)
      · rw [hnil] at hexec
        exact .inr ⟨e, s.push tmp, bind_error hstep, stoppedAt_push h hsize hdue hexec⟩

end Loop

/-- What a run on `threadIdx` from the manager `mgr` has done to a list of commands. -/
structure BatchedAll (threadIdx : ℤ) (mgr : RedisMgr) (cutList : List RedisCmdBuilder)
    (s : TaskState) : Prop where
  /-- The batches were handed to `batchExecCmd`, and the replies are those that it handed out. -/
  executions_eq : Executions threadIdx mgr (executions s.log) s.mgr s.obtained
  /-- The batches one after the other are the list. -/
  flatten_eq : (batches s.log).flatten = cutList.zipIdx
  full : ∀ b ∈ (batches s.log).dropLast, b.length = redisAsyncBatchCmdCount
  bounded : ∀ b ∈ batches s.log, 1 ≤ b.length ∧ b.length ≤ redisAsyncBatchCmdCount
  /-- Every node, every builder and every reply is deleted once. -/
  nodes_eq : deletedNodes s.log = List.range cutList.length
  builders_eq : deletedBuilders s.log = List.range cutList.length
  replies_eq : obtainedReplies s.log = List.range s.obtained ∧
    freedReplies s.log = List.range s.obtained
  ordered : Ordered s.log

theorem batchedAll_of_accounted {threadIdx : ℤ} {mgr : RedisMgr} {cutList : List RedisCmdBuilder}
    {s : TaskState}
    (h : Accounted threadIdx mgr cutList.zipIdx (cutList.zipIdx.map Prod.snd) s) (hsize : Sized [] s) :
    BatchedAll threadIdx mgr cutList s := by
  have hnumbers : cutList.zipIdx.map Prod.snd = List.range cutList.length := by
    rw [List.zipIdx_map_snd, List.range_eq_range']
  have hflatten : (batches s.log).flatten = cutList.zipIdx := by
    rw [← h.batches_eq, hsize.pending_nil rfl, List.append_nil]
  constructor
  · exact h.executions_eq
  · exact hflatten
  · exact hsize.dropLast_full
  · exact hsize.bounded
  · rw [h.nodes_eq, hnumbers]
  · rw [h.builders_eq, executedCmds, hflatten, hnumbers]
  · exact ⟨h.obtained_eq, h.freed_eq.trans h.obtained_eq⟩
  · exact h.ordered

/-- **Every run executes the whole list in batches**, in its order and each with
`batchExecCmd`, and deletes everything once and not too early; then it resets the flag.  A run
does not return only if the execution of its next batch does not. -/
theorem onExecRedisTask_batches {mgr : RedisMgr} {i : ℕ} {redisConnection : RedisConnection}
    (hconnection : mgr.vecRedisContext[i]? = some redisConnection) (cutList : List RedisCmdBuilder) :
    (∃ s', onExecRedisTask i cutList { mgr := mgr } = .ok () (s'.resetPostTask i) ∧
      BatchedAll redisConnection.threadIdx mgr cutList s') ∨
    ∃ e s', onExecRedisTask i cutList { mgr := mgr } = .error e s' ∧
      StoppedAt redisConnection.threadIdx mgr cutList.zipIdx e s' := by
  have hstart : Accounted redisConnection.threadIdx mgr [] [] { mgr := mgr } := by
    refine ⟨.nil, rfl, rfl, rfl, rfl, rfl, rfl, ?_⟩
    intro l hl
    rw [List.prefix_nil.mp hl]
    exact ⟨List.prefix_rfl, List.prefix_rfl⟩
  have hsize : Sized cutList.zipIdx { mgr := mgr } := by
    constructor
    · exact Nat.zero_lt_succ _
    · exact fun _ => rfl
    all_goals simp [batches]
  rw [onExecRedisTask, bind_ok (show (get : TaskM TaskState) _ = .ok _ _ from rfl), hconnection]
  obtain ⟨s', hrun, hdone, hsize'⟩ | ⟨e, s', hrun, hstopped⟩ := taskLoop_cases hstart hsize
  · exact .inl ⟨s', bind_ok hrun, batchedAll_of_accounted hdone hsize'⟩
  · exact .inr ⟨e, s', bind_error hrun, hstopped⟩

/-- A context that answers a full batch and one more command. -/
def seventeenContext : RedisContext :=
  freshContext (List.replicate 17 (.sent 99))
    [.chunk (List.replicate 16 (.reply (.status (ascii "OK")))), .chunk [.reply (.status (ascii "OK"))]]

/-- A manager with this context on connection `1`. -/
def seventeenMgr : RedisMgr where
  vecRedisContext := [{ ctx := freshContext [] [] }, { ctx := seventeenContext }]
  connectNum := 1
  world := { connects := [] }

/-- Seventeen commands make two batches. -/
theorem onExecRedisTask_batches_seventeen : ∃ s' : TaskState,
    onExecRedisTask 1 (List.replicate 17 (runOps pingOps)) { mgr := seventeenMgr }
      = .ok () (s'.resetPostTask 1) ∧
    (batches s'.log).map List.length = [16, 1] ∧ deletedNodes s'.log = List.range 17 ∧
    freedReplies s'.log = List.range 17 := by
  obtain ⟨_, s₁, hrun, hobs⟩ := exists_ok_of_observed
    (f := fun (_ : Unit) (s : TaskState) => ((batches s.log).map List.length, s.obtained))
    (b := ([16, 1], 17))
    (r := onExecRedisTask 1 (List.replicate 17 (runOps pingOps)) { mgr := seventeenMgr })
    (by decide +kernel)
  obtain ⟨hlen, hobtained⟩ := Prod.mk.inj hobs
  have hconnection : seventeenMgr.vecRedisContext[1]? = some { ctx := seventeenContext } := rfl
  rcases onExecRedisTask_batches hconnection (List.replicate 17 (runOps pingOps)) with
    ⟨s', hrun', hall⟩ | ⟨e, s', hrun', -⟩
  · rw [hrun] at hrun'
    cases hrun'
    have hfreed := hall.replies_eq.2
    rw [show s'.obtained = 17 from hobtained] at hfreed
    exact ⟨s', hrun, hlen, hall.nodes_eq, hfreed⟩
  · rw [hrun] at hrun'
    cases hrun'

end SeedCore.Redis
