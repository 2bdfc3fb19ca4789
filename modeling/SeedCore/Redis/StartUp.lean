import SeedCore.Redis.Connection

/-!
# Starting up

`Initialize` opens the connections one by one and gives up at the first that fails, and
`CreateRedisContext` sends the password, if there is one.  Here the outcome of a start is
compared with the outcomes of the attempts; and the selectors are looked at for every
number of connections with which a start succeeds.

## Main definitions

* `ConnectOutcome.working` — the context of an attempt that gives a working connection.
* `StartsExactly` — a start succeeds with the working connections, if all of them are.
* `redisMgrInitialize_exact_iff`, `redisSelection_iff` — when that is so, and when every
  selection is defined.
-/

namespace SeedCore.Redis

/-! ## Attempts -/

namespace ConnectOutcome

/-- What `CreateRedisContext` returns for an attempt. -/
def opened (config : RedisConnectionConfig) : ConnectOutcome → Option RedisContext
  | .null => none
  | .connected ctx authReply authCtx =>
      if ctx.err ≠ 0 then none
      else if config.passWord = [] then some ctx
      else match authReply with
        | some (.error _) => some authCtx
        | _ => none

/-- The context of an attempt that gives a working connection: there is no error, and the
server accepts the password if there is one. -/
def working (config : RedisConnectionConfig) : ConnectOutcome → Option RedisContext
  | .null => none
  | .connected ctx authReply authCtx =>
      if ctx.err ≠ 0 then none
      else if config.passWord = [] then some ctx
      else authReply.bind fun r => if r.isError then none else some authCtx

/-- Whether the server accepts the password, if it is asked and answers. -/
def authAnswer : ConnectOutcome → Option Bool
  | .null => none
  | .connected ctx authReply _ => if ctx.err ≠ 0 then none else authReply.map fun r => !r.isError

variable {config : RedisConnectionConfig}

/-- Without a password nothing is asked. -/
theorem opened_eq_working (h : config.passWord = []) (o : ConnectOutcome) :
    o.opened config = o.working config := by
  cases o with
  | null => rfl
  | connected ctx authReply authCtx => simp only [opened, working, h, if_true]

/-- With a password, the attempts whose password is refused are the ones that are kept. -/
theorem isSome_opened_iff (h : config.passWord ≠ []) (o : ConnectOutcome) :
    (o.opened config).isSome = true ↔ o.authAnswer = some false := by
  cases o with
  | null => simp [opened, authAnswer]
  | connected ctx authReply authCtx =>
      simp only [opened, authAnswer, h, if_false]
      by_cases herr : ctx.err ≠ 0
      · simp [herr]
      · rw [if_neg herr, if_neg herr]
        cases authReply with
        | none => simp
        | some r => cases r <;> simp [RedisReply.isError]

theorem isSome_working_iff (h : config.passWord ≠ []) (o : ConnectOutcome) :
    (o.working config).isSome = true ↔ o.authAnswer = some true := by
  cases o with
  | null => simp [working, authAnswer]
  | connected ctx authReply authCtx =>
      simp only [working, authAnswer, h, if_false]
      by_cases herr : ctx.err ≠ 0
      · simp [herr]
      · rw [if_neg herr, if_neg herr]
        cases authReply with
        | none => simp
        | some r => cases herror : r.isError <;> simp [herror]

end ConnectOutcome

/-- `CreateRedisContext` takes the next attempt. -/
theorem createRedisContext_eq (config : RedisConnectionConfig) {w : World} {o : ConnectOutcome}
    {rest : List ConnectOutcome} (h : w.connects = o :: rest) :
    ∃ w', w'.connects = rest ∧ createRedisContext config w = .ok (o.opened config, w') := by
  rw [createRedisContext, h]
  cases o with
  | null => exact ⟨_, rfl, rfl⟩
  | connected ctx authReply authCtx =>
      simp only [ConnectOutcome.opened]
      by_cases herr : ctx.err ≠ 0
      · rw [if_pos herr, if_pos herr]
        exact ⟨_, rfl, rfl⟩
      · rw [if_neg herr, if_neg herr]
        by_cases hpass : config.passWord = []
        · rw [if_pos hpass, if_pos hpass]
          exact ⟨_, rfl, rfl⟩
        · rw [if_neg hpass, if_neg hpass]
          cases authReply with
          | none => exact ⟨_, rfl, rfl⟩
          | some r => cases r <;> exact ⟨_, rfl, rfl⟩

/-- **The loop of `Initialize`**: it succeeds when all of its attempts do. -/
theorem initLoop_eq (config : RedisConnectionConfig) {n : ℕ} {w : World}
    (hn : n ≤ w.connects.length) (vec : List RedisConnection) :
    ∃ w' vec', initLoop config n w vec
        = .ok ((w.connects.take n).all fun o => (o.opened config).isSome, w', vec') ∧
      ((w.connects.take n).all (fun o => (o.opened config).isSome) = true →
        vec'.map (fun conn => some conn.ctx)
          = vec.map (fun conn => some conn.ctx)
            ++ (w.connects.take n).map fun o => o.opened config) := by
  induction n generalizing w vec with
  | zero => exact ⟨w, vec, rfl, fun _ => (List.append_nil _).symm⟩
  | succ n ih =>
      obtain ⟨o, rest, hrest⟩ : ∃ o rest, w.connects = o :: rest := by
        cases hw : w.connects with
        | nil => simp [hw] at hn
        | cons o rest => exact ⟨o, rest, rfl⟩
      obtain ⟨w₁, hw₁, hcreate⟩ := createRedisContext_eq config hrest
      rw [initLoop, hcreate, hrest, List.take_succ_cons, List.all_cons, List.map_cons]
      cases hopened : o.opened config with
      | none => exact ⟨w₁, vec, rfl, fun h => by cases h⟩
      | some ctx =>
          have hn₁ : n ≤ w₁.connects.length := by
            rw [hrest, List.length_cons] at hn
            rw [hw₁]
            omega
          obtain ⟨w', vec', hloop, hvec⟩ := ih hn₁ (vec ++ [{ ctx := ctx }])
          rw [hw₁] at hloop hvec
          refine ⟨w', vec', hloop, fun hall => ?_⟩
          rw [hvec hall, List.map_append, List.append_assoc]
          rfl

/-! ## What a start means -/

/-- The attempts that a start is about: one for the main thread and `connectNum` more. -/
def RedisConnectionConfig.attempts (config : RedisConnectionConfig) (w : World) : List ConnectOutcome :=
  w.connects.take (config.connectNum + 1).toNat

/-- All of the attempts give working connections. -/
def AllWorking (redisObj : Option RedisElement) (w : World) : Prop :=
  ∃ config, loadConfigFile redisObj = some config ∧
    ∀ o ∈ config.attempts w, (o.working config).isSome = true

/-- `Initialize` returns, with true exactly when the configuration is there and all of its
connections work; and then these connections are the pool. -/
def StartsExactly (redisObj : Option RedisElement) (w : World) : Prop :=
  ∃ ok m, redisMgrInitialize redisObj w = .ok (ok, m) ∧
    (ok = true ↔ AllWorking redisObj w) ∧
    (ok = true → ∀ config, loadConfigFile redisObj = some config →
      m.vecRedisContext.map (fun conn => some conn.ctx)
        = (config.attempts w).map fun o => o.working config)

/-- What `Initialize` does with a configuration that it can load. -/
theorem redisMgrInitialize_eq {redisObj : Option RedisElement} {w : World}
    {config : RedisConnectionConfig} (hload : loadConfigFile redisObj = some config)
    (hfits : config.connectNum + 1 < 2147483648)
    (hn : (config.connectNum + 1).toNat ≤ w.connects.length) :
    ∃ m, redisMgrInitialize redisObj w
        = .ok ((config.attempts w).all fun o => (o.opened config).isSome, m) ∧
      ((config.attempts w).all (fun o => (o.opened config).isSome) = true →
        m.vecRedisContext.map (fun conn => some conn.ctx)
          = (config.attempts w).map fun o => o.opened config) := by
  obtain ⟨w', vec', hloop, hvec⟩ := initLoop_eq config hn []
  rw [redisMgrInitialize, hload]
  simp only [if_pos hfits, hloop]
  exact ⟨_, rfl, hvec⟩

/-- So a start is exact when the attempts that are kept are the ones that work. -/
theorem startsExactly_iff {redisObj : Option RedisElement} {w : World}
    {config : RedisConnectionConfig} (hload : loadConfigFile redisObj = some config)
    (hfits : config.connectNum + 1 < 2147483648)
    (hn : (config.connectNum + 1).toNat ≤ w.connects.length) :
    StartsExactly redisObj w ↔
      ((∀ o ∈ config.attempts w, (o.opened config).isSome = true) ↔
        ∀ o ∈ config.attempts w, (o.working config).isSome = true) ∧
      ((∀ o ∈ config.attempts w, (o.opened config).isSome = true) →
        (config.attempts w).map (fun o => o.opened config)
          = (config.attempts w).map fun o => o.working config) := by
  obtain ⟨m, hinit, hvec⟩ := redisMgrInitialize_eq hload hfits hn
  have hworking : AllWorking redisObj w ↔
      ∀ o ∈ config.attempts w, (o.working config).isSome = true := by
    rw [AllWorking, hload]
    simp
  rw [List.all_eq_true] at hvec
  constructor
  · rintro ⟨ok, m', hrun, hiff, hpool⟩
    rw [hinit] at hrun
    cases hrun
    rw [List.all_eq_true] at hiff hpool
    exact ⟨hiff.trans hworking, fun hall => (hvec hall).symm.trans (hpool hall config hload)⟩
  · rintro ⟨hiff, hpool⟩
    refine ⟨_, m, hinit, ?_, ?_⟩
    · rw [List.all_eq_true]
      exact hiff.trans hworking.symm
    · rw [List.all_eq_true]
      intro hall config' hconfig
      rw [hload] at hconfig
      cases hconfig
      exact (hvec hall).trans (hpool hall)

/-- Without a configuration a start fails, as it should. -/
theorem startsExactly_none {redisObj : Option RedisElement} {w : World}
    (hload : loadConfigFile redisObj = none) : StartsExactly redisObj w := by
  refine ⟨false, { world := w }, ?_, ?_, fun hok => by cases hok⟩
  · rw [redisMgrInitialize, hload]
  · refine iff_of_false Bool.false_ne_true ?_
    rintro ⟨config, hconfig, -⟩
    rw [hload] at hconfig
    cases hconfig

/-- With a password a start is exact when the answers are not all the same: all accepted, it
fails, and all refused, it succeeds. -/
theorem startsExactly_password_iff {redisObj : Option RedisElement} {w : World}
    {config : RedisConnectionConfig} (hload : loadConfigFile redisObj = some config)
    (hnum : 0 ≤ config.connectNum) (hfits : config.connectNum + 1 < 2147483648)
    (hn : (config.connectNum + 1).toNat ≤ w.connects.length) (hpass : config.passWord ≠ []) :
    StartsExactly redisObj w ↔
      ¬∃ accepted, ∀ o ∈ config.attempts w, o.authAnswer = some accepted := by
  rw [startsExactly_iff hload hfits hn]
  simp only [ConnectOutcome.isSome_opened_iff hpass, ConnectOutcome.isSome_working_iff hpass]
  -- there is an attempt, so not all of them can be answered in both ways
  obtain ⟨o, ho⟩ : ∃ o, o ∈ config.attempts w := by
    refine List.exists_mem_of_length_pos ?_
    rw [RedisConnectionConfig.attempts, List.length_take]
    omega
  constructor
  · rintro ⟨hiff, -⟩ ⟨accepted, hall⟩
    cases accepted with
    | false => cases (hall o ho).symm.trans (hiff.mp hall o ho)
    | true => cases (hall o ho).symm.trans (hiff.mpr hall o ho)
  · intro hnot
    have hrefused : ¬∀ o ∈ config.attempts w, o.authAnswer = some false :=
      fun hall => hnot ⟨false, hall⟩
    have haccepted : ¬∀ o ∈ config.attempts w, o.authAnswer = some true :=
      fun hall => hnot ⟨true, hall⟩
    exact ⟨iff_of_false hrefused haccepted, fun hall => absurd hall hrefused⟩

/-- **When a start is exact**: the number of connections can be counted in an `int32_t`, and
there is no password, or the attempts are not all answered alike.  When every server accepts
the password the start fails, and when every server refuses it the start succeeds. -/
theorem redisMgrInitialize_exact_iff {redisObj : Option RedisElement} {w : World}
    (h : ∀ config, loadConfigFile redisObj = some config →
      0 ≤ config.connectNum ∧ (config.connectNum + 1).toNat ≤ w.connects.length) :
    StartsExactly redisObj w ↔ ∀ config, loadConfigFile redisObj = some config →
      config.connectNum + 1 < 2147483648 ∧ (config.passWord = [] ∨
        ¬∃ accepted, ∀ o ∈ config.attempts w, o.authAnswer = some accepted) := by
  cases hload : loadConfigFile redisObj with
  | none => exact iff_of_true (startsExactly_none hload) (fun _ hc => by cases hc)
  | some config =>
      obtain ⟨hnum, hn⟩ := h config hload
      simp only [Option.some.injEq, forall_eq']
      by_cases hfits : config.connectNum + 1 < 2147483648
      · by_cases hpass : config.passWord = []
        · rw [startsExactly_iff hload hfits hn]
          simp [ConnectOutcome.opened_eq_working hpass, hfits, hpass]
        · rw [startsExactly_password_iff hload hnum hfits hn hpass]
          simp only [hfits, hpass, true_and, false_or]
      · refine iff_of_false ?_ (fun hc => hfits hc.1)
        rintro ⟨ok, m, hrun, -⟩
        rw [redisMgrInitialize, hload] at hrun
        simp only [if_neg hfits] at hrun
        cases hrun

/-- An attempt that connects, with the answer to the password. -/
def connectAuth (reply : RedisReply) : ConnectOutcome :=
  .connected { sock := { sends := [], reads := [] } } (some reply)
    { id := 1, sock := { sends := [], reads := [] } }

/-- A configuration with a password. -/
def passwordElement (connectnum : ℤ) : RedisElement :=
  { exampleElement connectnum with password := ascii "secret" }

/-- Without a password, two attempts that succeed are a start. -/
theorem redisMgrInitialize_exact_two :
    StartsExactly (some (exampleElement 1)) { connects := [connectOk 0, connectOk 1] } := by
  refine (redisMgrInitialize_exact_iff ?_).mpr ?_
  · rintro config ⟨⟩
    decide
  · rintro config ⟨⟩
    exact ⟨by decide, .inl rfl⟩

/-- A server that accepts the password is turned down, and one that refuses it is taken. -/
theorem not_startsExactly_accepted :
    ¬StartsExactly (some (passwordElement 0)) { connects := [connectAuth (.status (ascii "OK"))] } ∧
    ((redisMgrInitialize (some (passwordElement 0))
      { connects := [connectAuth (.status (ascii "OK"))] }).toOption.map Prod.fst = some false) ∧
    ((redisMgrInitialize (some (passwordElement 0))
      { connects := [connectAuth (.error (ascii "ERR invalid password"))] }).toOption.map Prod.fst
        = some true) := by
  refine ⟨?_, by decide, by decide⟩
  rintro ⟨ok, m, hrun, hiff, -⟩
  have hworking : AllWorking (some (passwordElement 0))
      { connects := [connectAuth (.status (ascii "OK"))] } := by
    refine ⟨_, rfl, ?_⟩
    decide
  rw [← hiff] at hworking
  subst hworking
  cases hrun

/-! ## Selecting a connection -/

/-- Every selection gives a connection of the pool: the main one for the main thread only, and
different ones for different worker threads. -/
structure SelectionDefined (m : RedisMgr) : Prop where
  thread : ∀ threadIdx, ∃ i, m.getRedisConnection threadIdx = .ok i ∧
    i < m.vecRedisContext.length ∧ (i = 0 → threadIdx = mainThreadIdx)
  task : ∀ taskId, ∃ i, m.getRedisConnectionInAsync taskId = .ok i ∧
    i < m.vecRedisContext.length ∧ i ≠ 0
  distinct : ∀ threadIdx threadIdx', 1 ≤ threadIdx → threadIdx ≤ m.connectNum →
    1 ≤ threadIdx' → threadIdx' ≤ m.connectNum →
    m.getRedisConnection threadIdx = m.getRedisConnection threadIdx' → threadIdx = threadIdx'

namespace Pool

variable {m : RedisMgr} (P : Pool m) (hnum : 1 ≤ m.connectNum)
include P hnum

theorem getRedisConnection_main : m.getRedisConnection mainThreadIdx = .ok 0 := by
  have hlen := P.length_eq
  rw [RedisMgr.getRedisConnection, if_pos rfl, RedisMgr.connectionAt, if_pos ⟨Int.le_refl 0, by omega⟩]
  rfl

/-- A worker gets the connection that its index selects modulo the size of the pool. -/
theorem getRedisConnection_worker {threadIdx : ℤ} (hne : threadIdx ≠ mainThreadIdx) :
    m.getRedisConnection threadIdx = .ok (toUInt32 threadIdx % m.connectNum.toNat + 1) := by
  have hlt := P.connectNum_lt
  have hconv : toUInt32 m.connectNum = m.connectNum.toNat := toUInt32_eq_self (by omega) (by omega)
  have hmod : toUInt32 threadIdx % m.connectNum.toNat < m.connectNum.toNat :=
    Nat.mod_lt _ (by omega)
  rw [RedisMgr.getRedisConnection, if_neg hne, hconv, if_neg (by omega), toInt32_natCast (by omega)]
  exact P.connectionAt_eq hnum hmod

theorem selectionDefined : SelectionDefined m := by
  have hlen := P.length_eq
  have hlt := P.connectNum_lt
  have hmod : ∀ a, a % m.connectNum.toNat < m.connectNum.toNat := fun a => Nat.mod_lt _ (by omega)
  constructor
  · intro threadIdx
    by_cases hmain : threadIdx = mainThreadIdx
    · subst hmain
      exact ⟨0, P.getRedisConnection_main hnum, by omega, fun _ => rfl⟩
    · have := hmod (toUInt32 threadIdx)
      exact ⟨_, P.getRedisConnection_worker hnum hmain, by omega, fun h => absurd h (by omega)⟩
  · intro taskId
    have := hmod (toUInt64 taskId)
    exact ⟨_, P.getRedisConnectionInAsync_eq hnum taskId, by omega, by omega⟩
  · intro t t' hlo hhi hlo' hhi' heq
    have hmain : ∀ {t : ℤ}, 1 ≤ t → t ≠ mainThreadIdx := by
      intro t hlo
      rw [mainThreadIdx]
      omega
    rw [P.getRedisConnection_worker hnum (hmain hlo), P.getRedisConnection_worker hnum (hmain hlo'),
      toUInt32_eq_self (by omega) (by omega), toUInt32_eq_self (by omega) (by omega)] at heq
    have hsame : t.toNat % m.connectNum.toNat = t'.toNat % m.connectNum.toNat :=
      Nat.add_right_cancel (Except.ok.inj heq)
    -- both indices are between one and the number of connections
    rcases Nat.lt_or_ge t.toNat m.connectNum.toNat with h | h <;>
      rcases Nat.lt_or_ge t'.toNat m.connectNum.toNat with h' | h'
    · rw [Nat.mod_eq_of_lt h, Nat.mod_eq_of_lt h'] at hsame
      omega
    · have : t'.toNat = m.connectNum.toNat := by omega
      rw [Nat.mod_eq_of_lt h, this, Nat.mod_self] at hsame
      omega
    · have : t.toNat = m.connectNum.toNat := by omega
      rw [Nat.mod_eq_of_lt h', this, Nat.mod_self] at hsame
      omega
    · omega

end Pool

/-- A pool with no connection for workers. -/
theorem not_selectionDefined {m : RedisMgr} (P : Pool m) (hnum : m.connectNum ≤ 0) :
    ¬SelectionDefined m := by
  intro h
  by_cases hzero : m.connectNum = 0
  · obtain ⟨i, hi, -⟩ := h.task 0
    rw [RedisMgr.getRedisConnectionInAsync, hzero] at hi
    cases hi
  · -- a negative number: no connection was opened at all
    have hlen := P.length_eq
    obtain ⟨i, -, hlt, -⟩ := h.thread mainThreadIdx
    omega

theorem connectNum_of_redisMgrInitialize {redisObj : RedisElement} {w : World} {m : RedisMgr}
    (h : redisMgrInitialize (some redisObj) w = .ok (true, m)) :
    m.connectNum = redisObj.connectnum := by
  rw [redisMgrInitialize] at h
  dsimp only [loadConfigFile] at h
  by_cases hfits : redisObj.connectnum + 1 < 2147483648
  · rw [if_pos hfits] at h
    obtain ⟨⟨ok, w', vec⟩, -, h⟩ := bind_eq_ok.mp h
    cases h
    rfl
  · rw [if_neg hfits] at h
    cases h

/-- **When every selection is defined**: a start with a positive number of connections. -/
theorem redisSelection_iff {redisObj : RedisElement} {w : World} {m : RedisMgr}
    (h : redisMgrInitialize (some redisObj) w = .ok (true, m)) :
    SelectionDefined m ↔ 1 ≤ redisObj.connectnum := by
  have P := pool_of_redisMgrInitialize h
  rw [← connectNum_of_redisMgrInitialize h]
  constructor
  · intro hdefined
    by_contra hle
    exact not_selectionDefined P (by omega) hdefined
  · exact fun hpos => P.selectionDefined hpos

/-- A pool of two. -/
theorem redisSelection_two : ∃ m,
    redisMgrInitialize (some (exampleElement 2)) { connects := [connectOk 0, connectOk 1, connectOk 2] }
      = .ok (true, m) ∧ SelectionDefined m := by
  have hstart : ∃ m, redisMgrInitialize (some (exampleElement 2))
      { connects := [connectOk 0, connectOk 1, connectOk 2] } = .ok (true, m) := ⟨_, rfl⟩
  obtain ⟨m, hm⟩ := hstart
  exact ⟨m, hm, (redisSelection_iff hm).mpr (by decide)⟩

/-- With no connections configured a start succeeds, and the first call of a worker divides by
zero; with a negative number there is not even the main connection. -/
theorem redisSelection_undefined :
    (∃ m, redisMgrInitialize (some (exampleElement 0)) { connects := [connectOk 0] } = .ok (true, m) ∧
      m.getRedisConnection 1 = .error .divByZero ∧
      m.getRedisConnectionInAsync 0 = .error .divByZero ∧ ¬SelectionDefined m) ∧
    ∃ m, redisMgrInitialize (some (exampleElement (-1))) { connects := [] } = .ok (true, m) ∧
      m.getRedisConnection mainThreadIdx = .error .outOfBounds := by
  refine ⟨⟨_, rfl, rfl, rfl, ?_⟩, ⟨_, rfl, rfl⟩⟩
  intro h
  obtain ⟨i, hi, -⟩ := h.task 0
  cases hi

end SeedCore.Redis
