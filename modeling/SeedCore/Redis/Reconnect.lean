import SeedCore.Redis.Exec
import SeedCore.Redis.StartUp

/-!
# The reconnect loop

`execTaskByTimeOut` is a `do … while (true)` loop: it is left when the callback is satisfied or
when the clock shows that `reattemptTime` is over.  Here it is run together with a record of its
iterations, from which one can see how often it went round, what the callback was called with, and
which contexts the connection held and which of them were freed.

## Main definitions

* `Iteration`, `reconnectLoop` — an iteration, and the loop with its record.
* `execTaskLoop_eq` — without the record it is the loop of `execTaskByTimeOut`.
* `Reconnected` — what the record says about the contexts.
* `SleepingClock` — a clock that every `Sleep` advances.
* `execTaskByTimeOut_ends` — the loop ends, and the connection is left with one context.
-/

namespace SeedCore.Redis

/-- `REATTEMPT_SLEEP_TIME` -/
def reattemptSleepTime : ℤ := 1000

/-- One iteration of `execTaskByTimeOut`. -/
structure Iteration where
  /-- What the attempt of `CreateRedisContext` came to. -/
  outcome : ConnectOutcome
  /-- The context that the loop freed. -/
  freed : Option RedisContext := none
  /-- The context that the callback was called with, and what it returned. -/
  called : Option (RedisContext × Bool) := none

section Loop

variable {σ : Type} (config : RedisConnectionConfig)
  (callFunc : RedisConnection → σ → Except Stuck (Bool × RedisConnection × σ))

/-- The loop of `execTaskByTimeOut`, with a record of its iterations. -/
def reconnectLoop (enterTime : ℤ) : ℕ → World → RedisConnection → σ →
    Except Stuck (List Iteration × World × RedisConnection × σ)
  | 0, _, _, _ => .error .blocked
  | fuel + 1, w, connection, captured =>
      match w.connects with
      | [] => .error .blocked
      | outcome :: _ => do
          let (ctx, w) ← createRedisContext config w
          let (iteration, finished, w, connection, captured) ← match ctx with
            | none => .ok (({ outcome := outcome } : Iteration), false, w, connection, captured)
            | some ctx => do
                let held := connection.ctx
                let w := w.free held
                let (finished, connection, captured) ← callFunc { connection with ctx := ctx } captured
                .ok (({ outcome := outcome, freed := some held, called := some (ctx, finished) } :
                  Iteration), finished, w, connection, captured)
          if finished then .ok ([iteration], w, connection, captured)
          else do
            let (now, w) ← w.getTimeMillisecond
            if now - enterTime > config.reattemptTime then
              .ok ([iteration], w, connection, captured)
            else do
              let (later, w, connection, captured) ←
                reconnectLoop enterTime fuel w connection captured
              .ok (iteration :: later, w, connection, captured)

/-- **The record changes nothing**: without it this is the loop of `execTaskByTimeOut`. -/
theorem execTaskLoop_eq (enterTime : ℤ) (fuel : ℕ) (w : World) (connection : RedisConnection)
    (captured : σ) :
    execTaskLoop config callFunc enterTime fuel w connection captured =
      (reconnectLoop config callFunc enterTime fuel w connection captured).map (·.2) := by
  induction fuel generalizing w connection captured with
  | zero => rfl
  | succ fuel ih =>
      rw [execTaskLoop, reconnectLoop]
      cases hconnects : w.connects with
      | nil => simp [createRedisContext, hconnects, bind, Except.bind, Except.map]
      | cons outcome rest =>
          have hrest : ∀ (iteration : Iteration) (w : World) (connection : RedisConnection)
              (captured : σ),
              (execTaskLoop config callFunc enterTime fuel w connection captured) =
                (((reconnectLoop config callFunc enterTime fuel w connection captured).bind
                  fun r => .ok (iteration :: r.1, r.2)).map (·.2)) := by
            intro iteration w connection captured
            rw [ih]
            cases reconnectLoop config callFunc enterTime fuel w connection captured <;> rfl
          cases hcreate : createRedisContext config w with
          | error e => simp [bind, Except.bind, Except.map]
          | ok created =>
              obtain ⟨ctx, w₁⟩ := created
              cases ctx with
              | none =>
                  simp only [bind, Except.bind, Bool.false_eq_true, if_false]
                  cases w₁.getTimeMillisecond with
                  | error e => rfl
                  | ok read =>
                      simp only
                      split
                      · rfl
                      · exact hrest _ _ _ _
              | some ctx =>
                  simp only [bind, Except.bind]
                  cases callFunc { connection with ctx := ctx } captured with
                  | error e => rfl
                  | ok called =>
                      simp only
                      split
                      · rfl
                      · cases (w₁.free connection.ctx).getTimeMillisecond with
                        | error e => rfl
                        | ok read =>
                            simp only
                            split
                            · rfl
                            · exact hrest _ _ _ _

end Loop

/-! ## What an iteration does to the contexts -/

/-- What `CreateRedisContext` itself frees: a context that did not pass its test of `AUTH`. -/
def ConnectOutcome.discarded (config : RedisConnectionConfig) : ConnectOutcome → List ℕ
  | .null => []
  | .connected ctx authReply authCtx =>
      if ctx.err ≠ 0 then []
      else if config.passWord = [] then []
      else match authReply with
        | some (.error _) => []
        | _ => [authCtx.id]

/-- `CreateRedisContext` takes the next attempt and frees nothing else. -/
theorem createRedisContext_next (config : RedisConnectionConfig) {w : World} {o : ConnectOutcome}
    {rest : List ConnectOutcome} (h : w.connects = o :: rest) :
    createRedisContext config w = .ok (o.opened config,
      { w with connects := rest, freed := w.freed ++ o.discarded config }) := by
  rw [createRedisContext, h]
  cases o with
  | null => simp [ConnectOutcome.opened, ConnectOutcome.discarded]
  | connected ctx authReply authCtx =>
      simp only [ConnectOutcome.opened, ConnectOutcome.discarded]
      by_cases herr : ctx.err ≠ 0
      · simp only [if_pos herr, List.append_nil]
      · by_cases hpass : config.passWord = []
        · simp only [if_neg herr, if_pos hpass, List.append_nil]
        · simp only [if_neg herr, if_neg hpass]
          cases authReply with
          | none => rfl
          | some r => cases r <;> simp [World.free]

/-- What the record of a run says about the contexts: the callback was called with the context of
its own iteration, and not again once it was satisfied; the contexts that the connection held
one after the other are those that were freed, each once, and the one it holds now. -/
structure Reconnected (config : RedisConnectionConfig) (w : World) (connection : RedisConnection)
    (trace : List Iteration) (w' : World) (connection' : RedisConnection) : Prop where
  connects_eq : w.connects = trace.map (·.outcome) ++ w'.connects
  called_eq : ∀ iteration ∈ trace,
    iteration.called.map Prod.fst = iteration.outcome.opened config
  not_again : ∀ iteration ∈ trace.dropLast, iteration.called.map Prod.snd ≠ some true
  held_eq : connection.ctx.id ::
      (trace.filterMap fun iteration => iteration.outcome.opened config).map (·.id) =
    (trace.filterMap (·.freed)).map (·.id) ++ [connection'.ctx.id]
  freed_eq : w'.freed = w.freed ++ trace.flatMap fun iteration =>
    iteration.outcome.discarded config ++ iteration.freed.toList.map (·.id)

/-- One iteration, after which the run ends or goes on. -/
inductive Iterated (config : RedisConnectionConfig) (w : World) (connection : RedisConnection) :
    Iteration → World → RedisConnection → Prop
  | failed {o : ConnectOutcome} {rest : List ConnectOutcome} {clock : List ℤ}
      (connects : w.connects = o :: rest) (none_opened : o.opened config = none) :
      Iterated config w connection { outcome := o }
        ⟨rest, clock, w.freed ++ o.discarded config⟩ connection
  | called (finished : Bool) {o : ConnectOutcome} {rest : List ConnectOutcome} {clock : List ℤ}
      {ctx : RedisContext} {connection' : RedisConnection}
      (connects : w.connects = o :: rest) (opened : o.opened config = some ctx)
      (kept : connection'.ctx.id = ctx.id) :
      Iterated config w connection
        { outcome := o, freed := some connection.ctx, called := some (ctx, finished) }
        ⟨rest, clock, (w.freed ++ o.discarded config) ++ [connection.ctx.id]⟩ connection'

section Iterated

variable {config : RedisConnectionConfig} {w w₁ w' : World}
  {connection connection₁ connection' : RedisConnection} {iteration : Iteration}
  {trace : List Iteration}

/-- The last iteration. -/
theorem Iterated.last (h : Iterated config w connection iteration w₁ connection₁) :
    Reconnected config w connection [iteration] w₁ connection₁ := by
  cases h with
  | failed connects none_opened =>
      refine ⟨by simpa using connects, ?_, by simp, ?_, by simp⟩
      · simp [none_opened]
      · simp [none_opened]
  | called finished connects opened kept =>
      refine ⟨by simpa using connects, ?_, by simp, ?_, by simp⟩
      · simp [opened]
      · simp [opened, kept]

/-- An iteration that is not the last one. -/
theorem Iterated.cons (h : Iterated config w connection iteration w₁ connection₁)
    (hagain : iteration.called.map Prod.snd ≠ some true) (hne : trace ≠ [])
    (hrest : Reconnected config w₁ connection₁ trace w' connection') :
    Reconnected config w connection (iteration :: trace) w' connection' := by
  have hdrop : (iteration :: trace).dropLast = iteration :: trace.dropLast :=
    List.dropLast_cons_of_ne_nil hne
  have hnot : ∀ it ∈ (iteration :: trace).dropLast, it.called.map Prod.snd ≠ some true := by
    rw [hdrop]
    exact List.forall_mem_cons.mpr ⟨hagain, hrest.not_again⟩
  cases h with
  | failed connects none_opened =>
      refine ⟨?_, ?_, hnot, ?_, ?_⟩
      · rw [connects, List.map_cons, List.cons_append, ← hrest.connects_eq]
      · exact List.forall_mem_cons.mpr ⟨by simp [none_opened], hrest.called_eq⟩
      · simpa [none_opened] using hrest.held_eq
      · simpa using hrest.freed_eq
  | called finished connects opened kept =>
      refine ⟨?_, ?_, hnot, ?_, ?_⟩
      · rw [connects, List.map_cons, List.cons_append, ← hrest.connects_eq]
      · exact List.forall_mem_cons.mpr ⟨by simp [opened], hrest.called_eq⟩
      · have hheld := hrest.held_eq
        rw [kept] at hheld
        simpa [opened] using hheld
      · simpa using hrest.freed_eq

end Iterated

/-! ## The end of the loop -/

section Callback

variable {σ : Type} (config : RedisConnectionConfig)
  (callFunc : RedisConnection → σ → Except Stuck (Bool × RedisConnection × σ))

/-- The callback returns in every call that the loop makes, on these attempts and at these
readings of the clock, from a connection and a captured state on. -/
def Returns (enterTime : ℤ) :
    List ConnectOutcome → List ℤ → RedisConnection → σ → Prop
  | o :: rest, now :: clock, connection, captured =>
      match o.opened config with
      | none => now - enterTime ≤ config.reattemptTime →
          Returns enterTime rest clock connection captured
      | some ctx => ∃ finished connection' captured',
          callFunc { connection with ctx := ctx } captured = .ok (finished, connection', captured') ∧
          (finished = false → now - enterTime ≤ config.reattemptTime →
            Returns enterTime rest clock connection' captured')
  | _, _, _, _ => True

/-- The callback leaves the connection the context that it was called with. -/
def KeepsContext : Prop := ∀ connection captured finished connection' captured',
  callFunc connection captured = .ok (finished, connection', captured') →
    connection'.ctx.id = connection.ctx.id

end Callback

/-! ## The callbacks that there are -/

theorem send_id {c c' : RedisContext} {cmd : Bytes} {len n : ℤ} {errno : Option Errno}
    (h : send c cmd len = .ok (n, errno, c')) : c'.id = c.id := by
  unfold send at h
  split at h
  · cases h
  · cases h
    rfl
  · dsimp only at h
    split at h
    · cases h
      rfl
    · cases h

theorem writeLoop_id {lenAt fuel : ℕ} {c c' : RedisContext} {cmd cmd' : Bytes} {ret : ℤ}
    (h : writeLoop lenAt fuel c cmd = .ok (ret, c', cmd')) : c'.id = c.id := by
  induction fuel generalizing c cmd with
  | zero => cases h
  | succ fuel ih =>
      rw [writeLoop] at h
      dsimp only at h
      split at h
      · obtain ⟨⟨nwritten, errno, c₁⟩, hsend, h⟩ := bind_eq_ok.mp h
        have hid := send_id hsend
        dsimp only at h
        split at h
        · cases h
          exact hid
        · split at h
          · exact (ih h).trans hid
          · cases h
      · cases h
        rfl

theorem redisBufferWriteInner_id {c c' : RedisContext} {cmd cmd' : Bytes} {ret : ℤ}
    (h : redisBufferWriteInner c cmd = .ok (ret, c', cmd')) : c'.id = c.id := by
  unfold redisBufferWriteInner at h
  split at h
  · cases h
    rfl
  · exact writeLoop_id h

theorem redisGetReplyFromReader_id (c : RedisContext) :
    (redisGetReplyFromReader c).2.2.id = c.id := by
  unfold redisGetReplyFromReader
  split
  · rfl
  · split <;> rfl

theorem readLoop_id {fuel : ℕ} {c c' : RedisContext} {aux : Option RedisReply}
    (h : readLoop fuel c = .ok (aux, c')) : c'.id = c.id := by
  induction fuel generalizing c with
  | zero => cases h
  | succ fuel ih =>
      rw [readLoop] at h
      obtain ⟨⟨ret, c₁⟩, hread, h⟩ := bind_eq_ok.mp h
      have hid : c₁.id = c.id := by
        unfold redisBufferRead at hread
        split at hread
        · cases hread
          rfl
        · split at hread <;> cases hread <;> rfl
      have hnext := (redisGetReplyFromReader_id c₁).trans hid
      dsimp only at h
      split at h
      · cases h
        exact hid
      · split at h
        · cases h
          exact hnext
        · split at h
          · cases h
            exact hnext
          · exact (ih h).trans hnext

theorem readReply_id {c c' : RedisContext} {aux : Option RedisReply}
    (h : readReply c = .ok (aux, c')) : c'.id = c.id := readLoop_id h

theorem sendAndGetReply_id {c : RedisContext} {b : RedisCmdBuilder}
    {reply : Option (Option RedisReply)}
    {r : Exchanged RedisCmdBuilder (Option (Option RedisReply))}
    (h : sendAndGetReply c b reply = .ok r) : r.ctx.id = c.id := by
  unfold sendAndGetReply at h
  split at h
  · cases h
    rfl
  · rw [redisGetReplyInner] at h
    obtain ⟨⟨ret, c₁, cmd'⟩, hwrite, h⟩ := bind_eq_ok.mp h
    have hid := redisBufferWriteInner_id hwrite
    dsimp only at h
    split at h
    · cases h
      exact hid
    · obtain ⟨⟨aux, c₂⟩, hread, h⟩ := bind_eq_ok.mp h
      have hreply := (readReply_id hread).trans hid
      cases aux with
      | none =>
          cases h
          exact hreply
      | some v =>
          cases h
          exact hreply

theorem pipelineWrite_id {c c' : RedisContext} {bs bs' : List RedisCmdBuilder} {ret : ℤ}
    (h : pipelineWrite c bs = .ok (ret, c', bs')) : c'.id = c.id := by
  induction bs generalizing c bs' ret with
  | nil =>
      cases h
      rfl
  | cons b bs ih =>
      rw [pipelineWrite] at h
      split at h
      · cases h
        rfl
      · obtain ⟨⟨ret₁, c₁, cmd'⟩, hwrite, h⟩ := bind_eq_ok.mp h
        have hid := redisBufferWriteInner_id hwrite
        dsimp only at h
        split at h
        · cases h
          exact hid
        · obtain ⟨⟨ret₂, c₂, bs₂⟩, hrest, h⟩ := bind_eq_ok.mp h
          cases h
          exact (ih hrest).trans hid

theorem pipelineRead_id {n : ℕ} {c c' : RedisContext} {acc acc' : List RedisReply} {ret : ℤ}
    (h : pipelineRead n c acc = .ok (ret, c', acc')) : c'.id = c.id := by
  induction n generalizing c acc with
  | zero =>
      cases h
      rfl
  | succ n ih =>
      rw [pipelineRead] at h
      have hid := redisGetReplyFromReader_id c
      dsimp only at h
      split at h
      · cases h
        exact hid
      · split at h
        · exact (ih h).trans hid
        · obtain ⟨⟨aux, c₁⟩, hread, h⟩ := bind_eq_ok.mp h
          have hreply := (readReply_id hread).trans hid
          cases aux with
          | none =>
              cases h
              exact hreply
          | some v => exact (ih h).trans hreply

theorem pipelineSendAndGetReply_id {c : RedisContext} {bs : List RedisCmdBuilder}
    {vecReply : List RedisReply} {r : Exchanged (List RedisCmdBuilder) (List RedisReply)}
    (h : pipelineSendAndGetReply c bs vecReply = .ok r) : r.ctx.id = c.id := by
  obtain ⟨ret, c₁, hwrite, hrest⟩ := pipelineSendAndGetReply_cases h
  have hid := pipelineWrite_id hwrite
  rcases hrest with ⟨-, -, hctx, -⟩ | ⟨-, hread⟩
  · rw [hctx]
    exact hid
  · exact (pipelineRead_id hread).trans hid

theorem callFun_keepsContext {β ρ : Type} {exchange : RedisContext → β → ρ → Except Stuck (Exchanged β ρ)}
    (hid : ∀ c b reply r, exchange c b reply = .ok r → r.ctx.id = c.id) :
    KeepsContext (callFun exchange) := by
  intro connection captured finished connection' captured' h
  obtain ⟨r, hexchange, h⟩ := bind_eq_ok.mp h
  cases h
  exact hid _ _ _ _ hexchange

/-- **The callbacks of `execCmd` and `batchExecCmd`** leave the connection its context: an
exchange writes to it and reads from it, and that is all. -/
theorem callFuns_keepContext :
    KeepsContext (callFun sendAndGetReply) ∧ KeepsContext (callFun pipelineSendAndGetReply) :=
  ⟨callFun_keepsContext fun _ _ _ _ h => sendAndGetReply_id h,
    callFun_keepsContext fun _ _ _ _ h => pipelineSendAndGetReply_id h⟩

/-! ## A clock that moves on -/

/-- A clock that is read on entry and then after every attempt, of which there are `n`.  It does
not run backwards, and every `Sleep` between two attempts takes at least its time. -/
structure SleepingClock (clock : List ℤ) (n : ℕ) : Prop where
  length_le : n + 1 ≤ clock.length
  entered : ∀ enterTime now, clock[0]? = some enterTime → clock[1]? = some now → enterTime ≤ now
  slept : clock.tail.IsChain fun now later => now + reattemptSleepTime ≤ later

section Ends

variable {σ : Type} {config : RedisConnectionConfig}
  {callFunc : RedisConnection → σ → Except Stuck (Bool × RedisConnection × σ)}

section Equations

variable (enterTime : ℤ) {now : ℤ} (fuel : ℕ) {clock : List ℤ} {w : World} {o : ConnectOutcome}
  {rest : List ConnectOutcome} {ctx : RedisContext} {connection connection₁ : RedisConnection}
  {captured captured₁ : σ}

/-- After an attempt that failed, the clock decides. -/
theorem reconnectLoop_failed (hconnects : w.connects = o :: rest) (hclock : w.clock = now :: clock)
    (hopened : o.opened config = none) :
    reconnectLoop config callFunc enterTime (fuel + 1) w connection captured =
      if now - enterTime > config.reattemptTime then
        .ok ([{ outcome := o }], ⟨rest, clock, w.freed ++ o.discarded config⟩, connection, captured)
      else
        (reconnectLoop config callFunc enterTime fuel
          ⟨rest, clock, w.freed ++ o.discarded config⟩ connection captured).bind
            fun r => .ok ({ outcome := o } :: r.1, r.2) := by
  have hcreate := createRedisContext_next config hconnects
  rw [hopened] at hcreate
  rw [reconnectLoop, hconnects]
  simp only [bind, Except.bind, hcreate, World.getTimeMillisecond, hclock, Bool.false_eq_true,
    if_false]

section Called

variable (hconnects : w.connects = o :: rest) (hopened : o.opened config = some ctx)
include hconnects hopened

/-- A callback that is satisfied ends the loop. -/
theorem reconnectLoop_satisfied
    (hret : callFunc { connection with ctx := ctx } captured =
      .ok (true, connection₁, captured₁)) :
    reconnectLoop config callFunc enterTime (fuel + 1) w connection captured =
      .ok ([{ outcome := o, freed := some connection.ctx, called := some (ctx, true) }],
        ⟨rest, w.clock, (w.freed ++ o.discarded config) ++ [connection.ctx.id]⟩, connection₁,
        captured₁) := by
  have hcreate := createRedisContext_next config hconnects
  rw [hopened] at hcreate
  rw [reconnectLoop, hconnects]
  simp only [bind, Except.bind, hcreate, hret, if_true, World.free]

/-- After one that is not, the clock decides. -/
theorem reconnectLoop_unsatisfied (hclock : w.clock = now :: clock)
    (hret : callFunc { connection with ctx := ctx } captured =
      .ok (false, connection₁, captured₁)) :
    reconnectLoop config callFunc enterTime (fuel + 1) w connection captured =
      if now - enterTime > config.reattemptTime then
        .ok ([{ outcome := o, freed := some connection.ctx, called := some (ctx, false) }],
          ⟨rest, clock, (w.freed ++ o.discarded config) ++ [connection.ctx.id]⟩, connection₁,
          captured₁)
      else
        (reconnectLoop config callFunc enterTime fuel
          ⟨rest, clock, (w.freed ++ o.discarded config) ++ [connection.ctx.id]⟩ connection₁
          captured₁).bind
            fun r => .ok
              ({ outcome := o, freed := some connection.ctx, called := some (ctx, false) } :: r.1,
                r.2) := by
  have hcreate := createRedisContext_next config hconnects
  rw [hopened] at hcreate
  rw [reconnectLoop, hconnects]
  simp only [bind, Except.bind, hcreate, hret, World.free, World.getTimeMillisecond, hclock,
    Bool.false_eq_true, if_false]

end Called

end Equations

/-- **One iteration.**  The run ends with it, or the time is not up and the rest follows. -/
theorem reconnectLoop_cases (hkeeps : KeepsContext callFunc)
    (enterTime : ℤ) {now : ℤ} (fuel : ℕ) {clock : List ℤ} {w : World} {o : ConnectOutcome}
    {rest : List ConnectOutcome} (hconnects : w.connects = o :: rest) (hclock : w.clock = now :: clock)
    {connection : RedisConnection} {captured : σ}
    (hreturns : Returns config callFunc enterTime (o :: rest) (now :: clock) connection captured) :
    ∃ iteration w₁ connection₁ captured₁, Iterated config w connection iteration w₁ connection₁ ∧
      (reconnectLoop config callFunc enterTime (fuel + 1) w connection captured =
          .ok ([iteration], w₁, connection₁, captured₁) ∨
        iteration.called.map Prod.snd ≠ some true ∧ w₁.connects = rest ∧ w₁.clock = clock ∧
          now - enterTime ≤ config.reattemptTime ∧
          Returns config callFunc enterTime rest clock connection₁ captured₁ ∧
          reconnectLoop config callFunc enterTime (fuel + 1) w connection captured =
            (reconnectLoop config callFunc enterTime fuel w₁ connection₁ captured₁).bind
              fun r => .ok (iteration :: r.1, r.2)) := by
  cases hopened : o.opened config with
  | none =>
      rw [Returns, hopened] at hreturns
      refine ⟨_, ⟨rest, clock, w.freed ++ o.discarded config⟩, connection, captured,
        .failed hconnects hopened, ?_⟩
      rw [reconnectLoop_failed enterTime fuel hconnects hclock hopened]
      by_cases htime : now - enterTime > config.reattemptTime
      · exact .inl (if_pos htime)
      · exact .inr ⟨by simp, rfl, rfl, by omega, hreturns (by omega), if_neg htime⟩
  | some ctx =>
      rw [Returns, hopened] at hreturns
      obtain ⟨finished, connection₁, captured₁, hret, hreturns⟩ := hreturns
      have hkept := hkeeps _ _ _ _ _ hret
      cases finished with
      | true =>
          have hrun := reconnectLoop_satisfied enterTime fuel hconnects hopened hret
          exact ⟨_, _, connection₁, captured₁, .called true hconnects hopened hkept, .inl hrun⟩
      | false =>
          have hrun := reconnectLoop_unsatisfied enterTime fuel hconnects hopened hclock hret
          refine ⟨_, ⟨rest, clock, _⟩, connection₁, captured₁,
            .called false hconnects hopened hkept, ?_⟩
          by_cases htime : now - enterTime > config.reattemptTime
          · exact .inl (hrun.trans (if_pos htime))
          · exact .inr ⟨by simp, rfl, rfl, by omega, hreturns rfl (by omega),
              hrun.trans (if_neg htime)⟩

/-- **The time that is left** bounds the iterations: each one but the last is followed by a
`Sleep`. -/
theorem reconnectLoop_ends (hkeeps : KeepsContext callFunc)
    {enterTime now : ℤ} {n : ℕ} (fuel : ℕ) {clock : List ℤ} {w : World} (hclock : w.clock = now :: clock)
    (hslept : (now :: clock).IsChain fun now later => now + reattemptSleepTime ≤ later)
    (hlength : n ≤ clock.length) (hconnects : n + 1 ≤ w.connects.length) (hfuel : n + 1 ≤ fuel)
    (htime : config.reattemptTime < now - enterTime + reattemptSleepTime * n)
    {connection : RedisConnection} {captured : σ}
    (hreturns : Returns config callFunc enterTime w.connects (now :: clock) connection captured) :
    ∃ trace w' connection' captured',
      reconnectLoop config callFunc enterTime fuel w connection captured =
        .ok (trace, w', connection', captured') ∧
      trace ≠ [] ∧ trace.length ≤ n + 1 ∧
      Reconnected config w connection trace w' connection' := by
  induction n generalizing now clock fuel w connection captured with
  | zero =>
      obtain ⟨fuel, rfl⟩ : ∃ k, fuel = k + 1 := ⟨fuel - 1, by omega⟩
      obtain ⟨o, rest, ho⟩ := List.exists_cons_of_length_pos (show 0 < w.connects.length by omega)
      obtain ⟨iteration, w₁, connection₁, captured₁, hit, h⟩ := reconnectLoop_cases
        hkeeps enterTime fuel ho hclock (ho ▸ hreturns)
      rcases h with h | ⟨-, -, -, hleft, -⟩
      · exact ⟨_, _, _, _, h, by simp, by simp, hit.last⟩
      · simp only [Int.ofNat_zero, Int.mul_zero] at htime
        omega
  | succ n ih =>
      obtain ⟨fuel, rfl⟩ : ∃ k, fuel = k + 1 := ⟨fuel - 1, by omega⟩
      obtain ⟨o, rest, ho⟩ := List.exists_cons_of_length_pos (show 0 < w.connects.length by omega)
      obtain ⟨iteration, w₁, connection₁, captured₁, hit, h⟩ := reconnectLoop_cases
        hkeeps enterTime fuel ho hclock (ho ▸ hreturns)
      rcases h with h | ⟨hagain, hrest, hlater, -, hreturns', h⟩
      · exact ⟨_, _, _, _, h, by simp, by simp, hit.last⟩
      · obtain ⟨later, clock, rfl⟩ := List.exists_cons_of_length_pos
          (show 0 < clock.length by omega)
        have hsleep := List.isChain_cons_cons.mp hslept
        have htime' : config.reattemptTime < later - enterTime + reattemptSleepTime * n := by
          have hstep := hsleep.1
          simp only [reattemptSleepTime] at hstep htime ⊢
          omega
        have hmore : n + 1 ≤ w₁.connects.length := by
          rw [ho, List.length_cons] at hconnects
          rw [hrest]
          omega
        obtain ⟨trace, w', connection', captured', hrun, hne, hlen, hreconnected⟩ :=
          ih fuel hlater hsleep.2 (by simpa using hlength) hmore (by omega) htime'
            (hrest ▸ hreturns')
        refine ⟨iteration :: trace, w', connection', captured', ?_, by simp, ?_,
          hit.cons hagain hne hreconnected⟩
        · rw [h, hrun]
          rfl
        · rw [List.length_cons]
          omega

/-- The bound on the iterations. -/
def RedisConnectionConfig.attemptsBound (config : RedisConnectionConfig) : ℕ :=
  config.reattemptTime.toNat / 1000 + 2

/-- **The reconnect loop ends, and leaves the connection one context.**  For every
`reattemptTime`, whatever the attempts come to and the callback returns in the calls that are
made, and every clock that a `Sleep` advances, there are at most
`max(0, reattemptTime) / 1000 + 2` iterations. -/
theorem execTaskByTimeOut_ends (hkeeps : KeepsContext callFunc)
    {w : World}
    (hconnects : config.attemptsBound ≤ w.connects.length)
    (hclock : SleepingClock w.clock config.attemptsBound) {connection : RedisConnection}
    {captured : σ}
    (hreturns : ∀ enterTime clock, w.clock = enterTime :: clock →
      Returns config callFunc enterTime w.connects clock connection captured) :
    ∃ enterTime clock trace w' connection' captured', w.clock = enterTime :: clock ∧
      reconnectLoop config callFunc enterTime (w.connects.length + 1) { w with clock := clock }
        connection captured = .ok (trace, w', connection', captured') ∧
      execTaskByTimeOut config callFunc w connection captured =
        .ok (w', connection', captured') ∧
      trace.length ≤ config.attemptsBound ∧
      Reconnected config w connection trace w' connection' := by
  obtain ⟨hlength, hentered, hslept⟩ := hclock
  cases hw : w.clock with
  | nil =>
      rw [hw] at hlength
      simp at hlength
  | cons enterTime clock =>
      rw [hw] at hlength hentered hslept
      cases clock with
      | nil =>
          simp only [RedisConnectionConfig.attemptsBound, List.length_singleton] at hlength
          omega
      | cons now clock =>
          have hnow := hentered enterTime now rfl rfl
          have hbound : config.attemptsBound = config.reattemptTime.toNat / 1000 + 1 + 1 := rfl
          rw [hbound] at hconnects hlength
          simp only [List.length_cons] at hlength
          have htime : config.reattemptTime <
              now - enterTime + reattemptSleepTime * (config.reattemptTime.toNat / 1000 + 1 : ℕ) := by
            simp only [reattemptSleepTime]
            omega
          obtain ⟨trace, w', connection', captured', hrun, -, hlen, hreconnected⟩ :=
            reconnectLoop_ends hkeeps (w.connects.length + 1)
              (w := { w with clock := now :: clock }) rfl hslept (by omega) hconnects (by omega)
              htime (hreturns enterTime _ hw)
          refine ⟨enterTime, now :: clock, trace, w', connection', captured', rfl, hrun, ?_, hlen,
            ⟨hreconnected.connects_eq, hreconnected.called_eq, hreconnected.not_again,
              hreconnected.held_eq, hreconnected.freed_eq⟩⟩
          rw [execTaskByTimeOut, World.getTimeMillisecond, hw]
          simp only [bind, Except.bind, execTaskLoop_eq, hrun, Except.map]

end Ends

/-- A context on which a `PING` is answered. -/
def answeringContext : RedisContext :=
  { freshContext [.sent 99] [.chunk [.reply (.status (ascii "PONG"))]] with id := 8 }

/-- Two attempts, the first of which fails; on the context of the other one `execCmd` gets its
reply. -/
theorem execTaskByTimeOut_ends_second :
    let config : RedisConnectionConfig := { reattemptTime := 500 }
    let w : World :=
      { connects := [.null, .connected answeringContext none answeringContext],
        clock := [0, 20, 1040] }
    ∃ w' connection' captured',
      execTaskByTimeOut config (callFun sendAndGetReply) w { ctx := freshContext [] [] }
        (runOps pingOps, some none) = .ok (w', connection', captured') ∧
      connection'.ctx.id = 8 ∧ captured'.2 = some (some (.status (ascii "PONG"))) ∧
      w'.freed = [0] := by
  intro config w
  have hclock : SleepingClock w.clock config.attemptsBound := by
    refine ⟨by decide, ?_, by decide⟩
    rintro enterTime now ⟨⟩ ⟨⟩
    decide
  have hreturns : ∀ enterTime clock, w.clock = enterTime :: clock →
      Returns config (callFun sendAndGetReply) enterTime w.connects clock
        { ctx := freshContext [] [] } (runOps pingOps, some none) := by
    rintro enterTime clock ⟨⟩
    intro _
    obtain ⟨⟨finished, connection', captured'⟩, hret, hfinished⟩ := exists_ok_of_map
      (x := callFun sendAndGetReply { ctx := answeringContext } (runOps pingOps, some none))
      (f := Prod.fst) (b := true) (by decide +kernel)
    obtain rfl : finished = true := hfinished
    exact ⟨true, connection', captured', hret, fun h => absurd h (by decide)⟩
  obtain ⟨enterTime, clock, trace, w', connection', captured', -, -, hrun, -⟩ :=
    execTaskByTimeOut_ends callFuns_keepContext.1 (by decide) hclock hreturns
  have hobs : (execTaskByTimeOut config (callFun sendAndGetReply) w { ctx := freshContext [] [] }
      (runOps pingOps, some none)).toOption.map (fun r => (r.2.1.ctx.id, r.2.2.2, r.1.freed))
        = some (8, some (some (.status (ascii "PONG"))), [0]) := rfl
  rw [hrun] at hobs
  simp only [Except.toOption, Option.map_some, Option.some.injEq, Prod.mk.injEq] at hobs
  exact ⟨w', connection', captured', hrun, hobs⟩

end SeedCore.Redis
