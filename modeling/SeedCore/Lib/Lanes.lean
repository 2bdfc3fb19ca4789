import Mathlib.Data.Nat.Notation
import SeedCore.Lib.Run

/-!
# Jobs in lanes

Jobs are submitted to lanes.  Each lane carries out its jobs one at a time, in the order
in which they were submitted; between lanes there is no order.  A worker pool in which a
key selects the worker is such a system, with the workers as its lanes.

## Main definitions

* `Job`, `LaneAction`, `laneStep` — the jobs, the steps, and when they are possible.
* `LaneOrder` — a job that was started has every earlier job of its lane behind it.
* `laneRun_order` — the jobs of a lane finish and start in their order.
* `LaneOrder.exclusive` — a lane has at most one active job.
-/

namespace SeedCore

universe u v

/-- How far a job is. -/
inductive Status
  | waiting
  | active
  | done
  deriving DecidableEq, Repr

/-- A job with its lane and what it works on. -/
structure Job (L : Type u) (P : Type v) where
  lane : L
  payload : P
  status : Status := .waiting

/-- Jobs are named by their place in the order of submission. -/
inductive LaneAction (L : Type u) (P : Type v)
  | submit (lane : L) (payload : P)
  | start (k : ℕ)
  | finish (k : ℕ)

section Lanes

variable {L : Type u} {P : Type v} {jobs jobs' : List (Job L P)} {k : ℕ}

/-- A job that was started has every earlier job of its lane behind it. -/
def LaneOrder (jobs : List (Job L P)) : Prop :=
  ∀ (i j : ℕ) (earlier job : Job L P), i < j → jobs[i]? = some earlier → jobs[j]? = some job →
    earlier.lane = job.lane → job.status ≠ .waiting → earlier.status = .done

/-- **A lane has at most one active job.** -/
theorem LaneOrder.exclusive (h : LaneOrder jobs) {i j : ℕ} {a b : Job L P}
    (ha : jobs[i]? = some a) (hb : jobs[j]? = some b) (hlane : a.lane = b.lane)
    (hactive : a.status = .active) (hactive' : b.status = .active) : i = j := by
  rcases Nat.lt_trichotomy i j with hlt | heq | hlt
  · have := h i j a b hlt ha hb hlane (by simp [hactive'])
    rw [hactive] at this
    cases this
  · exact heq
  · have := h j i b a hlt hb ha hlane.symm (by simp [hactive])
    rw [hactive'] at this
    cases this

/-- What an entry of a list is after one entry was replaced. -/
theorem getElem?_set_eq_some {α : Type u} {xs : List α} {k i : ℕ} {x y : α}
    (h : (xs.set k x)[i]? = some y) : (i = k ∧ y = x) ∨ (i ≠ k ∧ xs[i]? = some y) := by
  by_cases hi : i = k
  · subst hi
    have hlt : i < (xs.set i x).length := (List.getElem?_eq_some_iff.mp h).1
    rw [List.length_set] at hlt
    rw [List.getElem?_set_self hlt] at h
    exact .inl ⟨rfl, (Option.some.inj h).symm⟩
  · rw [List.getElem?_set_ne (Ne.symm hi)] at h
    exact .inr ⟨hi, h⟩

/-- A job keeps its lane and what it works on. -/
def SameJobs (jobs jobs' : List (Job L P)) : Prop :=
  ∀ (k : ℕ) (job : Job L P), jobs[k]? = some job → ∃ job', jobs'[k]? = some job' ∧
    job'.lane = job.lane ∧ job'.payload = job.payload

theorem SameJobs.refl (jobs : List (Job L P)) : SameJobs jobs jobs :=
  fun _ job h => ⟨job, h, rfl, rfl⟩

theorem SameJobs.trans {jobs'' : List (Job L P)} (h : SameJobs jobs jobs')
    (h' : SameJobs jobs' jobs'') : SameJobs jobs jobs'' := by
  intro k job hk
  obtain ⟨job', hk', hlane, hpayload⟩ := h k job hk
  obtain ⟨job'', hk'', hlane', hpayload'⟩ := h' k job' hk'
  exact ⟨job'', hk'', hlane'.trans hlane, hpayload'.trans hpayload⟩

theorem sameJobs_set {job job' : Job L P} (hk : jobs[k]? = some job) (hlane : job'.lane = job.lane)
    (hpayload : job'.payload = job.payload) : SameJobs jobs (jobs.set k job') := by
  intro i other hi
  have hlt := (List.getElem?_eq_some_iff.mp hk).1
  by_cases hik : i = k
  · subst hik
    obtain rfl := Option.some.inj (hk.symm.trans hi)
    exact ⟨job', List.getElem?_set_self hlt, hlane, hpayload⟩
  · exact ⟨other, by rw [List.getElem?_set_ne (Ne.symm hik), hi], rfl, rfl⟩

/-- An active job may finish at any time. -/
def laneFinish (jobs : List (Job L P)) (k : ℕ) : Option (List (Job L P)) :=
  match jobs[k]? with
  | none => none
  | some job =>
      if job.status = .active then some (jobs.set k { job with status := .done }) else none

theorem laneFinish_eq_some (h : laneFinish jobs k = some jobs') :
    ∃ job, jobs[k]? = some job ∧ job.status = .active ∧
      jobs' = jobs.set k { job with status := .done } := by
  unfold laneFinish at h
  split at h
  · cases h
  · next job hjob =>
      split at h
      · next hactive => exact ⟨job, hjob, hactive, (Option.some.inj h).symm⟩
      · cases h

variable [DecidableEq L]

/-- A job may start when every earlier job of its lane is done. -/
def laneStart (jobs : List (Job L P)) (k : ℕ) : Option (List (Job L P)) :=
  match jobs[k]? with
  | none => none
  | some job =>
      if job.status = .waiting ∧ ∀ earlier ∈ jobs.take k, earlier.lane = job.lane →
          earlier.status = .done then
        some (jobs.set k { job with status := .active })
      else none

/-- One step of the lanes. -/
def laneStep (jobs : List (Job L P)) : LaneAction L P → Option (List (Job L P))
  | .submit lane payload => some (jobs ++ [{ lane := lane, payload := payload }])
  | .start k => laneStart jobs k
  | .finish k => laneFinish jobs k

theorem laneStart_eq_some (h : laneStart jobs k = some jobs') :
    ∃ job, jobs[k]? = some job ∧ job.status = .waiting ∧
      (∀ i earlier, i < k → jobs[i]? = some earlier → earlier.lane = job.lane →
        earlier.status = .done) ∧
      jobs' = jobs.set k { job with status := .active } := by
  unfold laneStart at h
  split at h
  · cases h
  · next job hjob =>
      split at h
      · next hcond =>
          refine ⟨job, hjob, hcond.1, ?_, (Option.some.inj h).symm⟩
          intro i earlier hi hearlier hlane
          refine hcond.2 earlier (List.mem_of_getElem? (i := i) ?_) hlane
          rw [List.getElem?_take_of_lt hi, hearlier]
      · cases h

/-- **One step.**  Where a job is started, what is before it on its lane is done; and what
is done stays done. -/
theorem LaneOrder.step {a : LaneAction L P} (h : LaneOrder jobs) (hstep : laneStep jobs a = some jobs') :
    LaneOrder jobs' := by
  intro i j earlier job hij hearlier hjob hlane hstatus
  cases a with
  | submit lane payload =>
      cases hstep
      -- the new job is the last one, and it waits
      by_cases hj : j < jobs.length
      · rw [List.getElem?_append_left hj] at hjob
        rw [List.getElem?_append_left (by omega)] at hearlier
        exact h i j earlier job hij hearlier hjob hlane hstatus
      · rw [List.getElem?_append_right (by omega)] at hjob
        rw [List.mem_singleton.mp (List.mem_of_getElem? hjob)] at hstatus
        exact absurd rfl hstatus
  | start k =>
      obtain ⟨started, hk, hwaiting, hearly, rfl⟩ := laneStart_eq_some hstep
      rcases getElem?_set_eq_some hearlier with ⟨rfl, rfl⟩ | ⟨hik, hi⟩
      · -- the started job is not behind a job that was started
        rcases getElem?_set_eq_some hjob with ⟨rfl, -⟩ | ⟨hjk, hj⟩
        · omega
        · have := h i j started job hij hk hj hlane hstatus
          rw [hwaiting] at this
          cases this
      · rcases getElem?_set_eq_some hjob with ⟨rfl, rfl⟩ | ⟨hjk, hj⟩
        · exact hearly i earlier hij hi hlane
        · exact h i j earlier job hij hi hj hlane hstatus
  | finish k =>
      obtain ⟨finished, hk, hactive, rfl⟩ := laneFinish_eq_some hstep
      rcases getElem?_set_eq_some hearlier with ⟨rfl, rfl⟩ | ⟨hik, hi⟩
      · rfl
      · rcases getElem?_set_eq_some hjob with ⟨rfl, rfl⟩ | ⟨hjk, hj⟩
        · exact h i j earlier finished hij hi hk hlane (by simp [hactive])
        · exact h i j earlier job hij hi hj hlane hstatus

theorem sameJobs_step {a : LaneAction L P} (hstep : laneStep jobs a = some jobs') :
    SameJobs jobs jobs' := by
  cases a with
  | submit lane payload =>
      cases hstep
      intro k job hk
      have hlt := (List.getElem?_eq_some_iff.mp hk).1
      exact ⟨job, by rw [List.getElem?_append_left hlt, hk], rfl, rfl⟩
  | start k =>
      obtain ⟨job, hk, -, -, rfl⟩ := laneStart_eq_some hstep
      exact sameJobs_set hk rfl rfl
  | finish k =>
      obtain ⟨job, hk, -, rfl⟩ := laneFinish_eq_some hstep
      exact sameJobs_set hk rfl rfl

/-- A job is done only after it finished. -/
theorem done_step {a : LaneAction L P} (hstep : laneStep jobs a = some jobs') {i : ℕ} {job' : Job L P}
    (hi : jobs'[i]? = some job') (hdone : job'.status = .done) :
    a = .finish i ∨ ∃ job, jobs[i]? = some job ∧ job.status = .done := by
  cases a with
  | submit lane payload =>
      cases hstep
      by_cases hlt : i < jobs.length
      · rw [List.getElem?_append_left hlt] at hi
        exact .inr ⟨job', hi, hdone⟩
      · rw [List.getElem?_append_right (by omega)] at hi
        rw [List.mem_singleton.mp (List.mem_of_getElem? hi)] at hdone
        cases hdone
  | start k =>
      obtain ⟨job, hk, -, -, rfl⟩ := laneStart_eq_some hstep
      rcases getElem?_set_eq_some hi with ⟨rfl, rfl⟩ | ⟨-, hi⟩
      · cases hdone
      · exact .inr ⟨job', hi, hdone⟩
  | finish k =>
      obtain ⟨job, hk, -, rfl⟩ := laneFinish_eq_some hstep
      rcases getElem?_set_eq_some hi with ⟨rfl, -⟩ | ⟨-, hi⟩
      · exact .inl rfl
      · exact .inr ⟨job', hi, hdone⟩

section Runs

variable {as : List (LaneAction L P)}

theorem sameJobs_run (h : Run laneStep jobs as jobs') : SameJobs jobs jobs' := by
  induction h with
  | nil jobs => exact SameJobs.refl jobs
  | cons head _ ih => exact (sameJobs_step head).trans ih

theorem laneOrder_run (h : Run laneStep ([] : List (Job L P)) as jobs) : LaneOrder jobs :=
  h.invariant (P := LaneOrder) (Q := fun _ => True) (fun _ _ _ _ hstep hs => hs.step hstep)
    (fun _ _ => trivial) (by simp [LaneOrder])

theorem done_run (h : Run laneStep jobs as jobs') {i : ℕ} {job' : Job L P}
    (hi : jobs'[i]? = some job') (hdone : job'.status = .done) :
    .finish i ∈ as ∨ ∃ job, jobs[i]? = some job ∧ job.status = .done := by
  induction h with
  | nil jobs => exact .inr ⟨job', hi, hdone⟩
  | cons head _ ih =>
      rcases ih hi with hmem | ⟨job, hjob, hdone'⟩
      · exact .inl (List.mem_cons_of_mem _ hmem)
      · rcases done_step head hjob hdone' with rfl | hold
        · exact .inl List.mem_cons_self
        · exact .inr hold

/-- **The jobs of a lane run in their order**: before a job starts, every earlier job of its
lane has finished. -/
theorem laneRun_order {pre post : List (LaneAction L P)} {i j : ℕ} {earlier job : Job L P}
    (h : Run laneStep ([] : List (Job L P)) (pre ++ .start j :: post) jobs) (hij : i < j)
    (hi : jobs[i]? = some earlier) (hj : jobs[j]? = some job) (hlane : earlier.lane = job.lane) :
    .finish i ∈ pre := by
  obtain ⟨mid, hpre, hpost⟩ := run_append.mp h
  have hsame := sameJobs_run hpost
  obtain _ | ⟨head, tail⟩ := hpost
  obtain ⟨started, hstarted, -, hearly, -⟩ := laneStart_eq_some head
  obtain ⟨job', hj', hlane', -⟩ := hsame j started hstarted
  obtain rfl := Option.some.inj (hj.symm.trans hj')
  have hlt : i < mid.length := Nat.lt_trans hij (List.getElem?_eq_some_iff.mp hstarted).1
  obtain ⟨earlier', hi', hlanei, -⟩ := hsame i mid[i] (List.getElem?_eq_getElem hlt)
  obtain rfl := Option.some.inj (hi.symm.trans hi')
  have hdone := hearly i mid[i] hij (List.getElem?_eq_getElem hlt)
    (hlanei.symm.trans (hlane.trans hlane'))
  rcases done_run hpre (List.getElem?_eq_getElem hlt) hdone with hmem | ⟨_, hnil, -⟩
  · exact hmem
  · simp at hnil

end Runs

end Lanes

end SeedCore
