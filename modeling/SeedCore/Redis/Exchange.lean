import SeedCore.Redis.Write

/-!
# One exchange with the server

`sendAndGetReply` and `pipelineSendAndGetReply` of `RedisMgr.cpp`, as the debug build
compiles them: the check of `IsCommit` is in.  The builder is passed by constant
reference, but the write loop stores into its string, so an exchange hands it back.

A caller's `redisReply **` is an `Option (Option RedisReply)`: the outer `none` is the
null pointer, the inner one a null reply behind it.  A batch is a list of builders,
each an object of its own.

## Main definitions

* `redisGetReplyInner`, `sendAndGetReply`, `pipelineSendAndGetReply`.
* `Received` — everything the read loop can do.
* `shares` — what each builder of a batch gets of the script of `send` outcomes.
* `exchange_sameFrame_iff` — when a builder can be sent again.
-/

namespace SeedCore.Redis

/-- The `do … while (aux == NULL)` loop: read until the reader has a reply.  `none` is
the return with `REDIS_ERR`.  Every iteration uses up one outcome of the script, which
is what `fuel` counts. -/
def readLoop : ℕ → RedisContext → Except Stuck (Option RedisReply × RedisContext)
  | 0, _ => .error .blocked
  | fuel + 1, c => do
      let (ret, c) ← redisBufferRead c
      if ret = redisErr then .ok (none, c)
      else
        let (ret, aux, c) := redisGetReplyFromReader c
        if ret = redisErr then .ok (none, c)
        else match aux with
          | some r => .ok (some r, c)
          | none => readLoop fuel c

/-- The read loop with as much fuel as the script is long. -/
def readReply (c : RedisContext) : Except Stuck (Option RedisReply × RedisContext) :=
  readLoop (c.sock.reads.length + 1) c

/-- What an exchange leaves: the returned code, the context, the builders it was given
and the replies it handed out. -/
structure Exchanged (β ρ : Type) where
  ret : ℤ
  ctx : RedisContext
  builder : β
  reply : ρ

/-- `redisGetReplyInner`, on the builder that `c->obuf` points into. -/
def redisGetReplyInner (c : RedisContext) (b : RedisCmdBuilder)
    (reply : Option (Option RedisReply)) :
    Except Stuck (Exchanged RedisCmdBuilder (Option (Option RedisReply))) := do
  let (ret, c, cmd) ← redisBufferWriteInner c b.cmd
  let b := { b with cmd := cmd }
  if ret = redisErr then .ok ⟨redisErr, c, b, reply⟩
  else do
    let (aux, c) ← readReply c
    match aux with
    | none => .ok ⟨redisErr, c, b, reply⟩
    -- a null `reply` pointer stays null, and the reply is freed
    | some r => .ok ⟨redisOk, c, b, reply.map fun _ => some r⟩

/-- `sendAndGetReply` -/
def sendAndGetReply (ct : RedisContext) (b : RedisCmdBuilder)
    (reply : Option (Option RedisReply)) :
    Except Stuck (Exchanged RedisCmdBuilder (Option (Option RedisReply))) :=
  if b.isCommit = false then .ok ⟨redisErr, ct, b, reply⟩
  else redisGetReplyInner { ct with obuf := b.seek } b reply

/-- The first loop of `pipelineSendAndGetReply`: write every builder. -/
def pipelineWrite (ct : RedisContext) :
    List RedisCmdBuilder → Except Stuck (ℤ × RedisContext × List RedisCmdBuilder)
  | [] => .ok (redisOk, ct, [])
  | b :: bs =>
      if b.isCommit = false then .ok (redisErr, ct, b :: bs)
      else do
        let (ret, ct, cmd) ← redisBufferWriteInner { ct with obuf := b.seek } b.cmd
        let b := { b with cmd := cmd }
        if ret = redisErr then .ok (redisErr, ct, b :: bs)
        else do
          let (ret, ct, bs) ← pipelineWrite ct bs
          .ok (ret, ct, b :: bs)

/-- The second loop of `pipelineSendAndGetReply`, with `n` replies still to come. -/
def pipelineRead : ℕ → RedisContext → List RedisReply →
    Except Stuck (ℤ × RedisContext × List RedisReply)
  | 0, ct, vecReply => .ok (redisOk, ct, vecReply)
  | n + 1, ct, vecReply =>
      let (ret, aux, ct) := redisGetReplyFromReader ct
      if ret = redisErr then .ok (redisErr, ct, vecReply)
      else match aux with
        | some r => pipelineRead n ct (vecReply ++ [r])
        | none => do
            let (aux, ct) ← readReply ct
            match aux with
            | none => .ok (redisErr, ct, vecReply)
            | some r => pipelineRead n ct (vecReply ++ [r])

/-- `pipelineSendAndGetReply`: write the whole batch, then read as many replies as
`(int32_t)vecBuilder.size()` says. -/
def pipelineSendAndGetReply (ct : RedisContext) (vecBuilder : List RedisCmdBuilder)
    (vecReply : List RedisReply) :
    Except Stuck (Exchanged (List RedisCmdBuilder) (List RedisReply)) := do
  let iSize := toInt32 vecBuilder.length
  let (ret, ct, vecBuilder) ← pipelineWrite ct vecBuilder
  if ret = redisErr then .ok ⟨redisErr, ct, vecBuilder, vecReply⟩
  else do
    let (ret, ct, vecReply) ← pipelineRead iSize.toNat ct vecReply
    .ok ⟨ret, ct, vecBuilder, vecReply⟩

/-! ## Receiving -/

/-- The reply that the read loop ends with, read off the script: the first item the
reader holds after a read, if it is a reply and the read did not fail. -/
def firstReply : List ReadItem → List ReadOutcome → Option RedisReply
  | _, [] => none
  | _, .failed _ :: _ => none
  | reader, .chunk items :: rest =>
      match reader ++ items with
      | [] => firstReply [] rest
      | .reply r :: _ => some r
      | .malformed _ :: _ => none

/-- `Received c aux c'`: from `c` a read took the reply `aux` off the reader, or failed,
and nothing else happened to the connection. -/
structure Received (c : RedisContext) (aux : Option RedisReply) (c' : RedisContext) : Prop where
  id_eq : c'.id = c.id
  block_eq : c'.block = c.block
  sends_eq : c'.sock.sends = c.sock.sends
  log_grows : c.sock.log <+: c'.sock.log
  accepted_eq : acceptedOf c'.sock.log = acceptedOf c.sock.log
  err_iff : c'.err = 0 ↔ aux.isSome = true
  /-- Replies are handed out in the order in which they arrive. -/
  in_order : ∃ new, arrivedOf c'.sock.log = arrivedOf c.sock.log ++ new ∧
    (c'.err = 0 → repliesOf c.reader ++ new = aux.toList ++ repliesOf c'.reader)

/-- A read that took no reply failed. -/
theorem Received.err_ne_zero {c c' : RedisContext} (h : Received c none c') : c'.err ≠ 0 := by
  intro h0
  simpa using h.err_iff.mp h0

@[simp] theorem repliesOf_append (l l' : List ReadItem) :
    repliesOf (l ++ l') = repliesOf l ++ repliesOf l' := List.filterMap_append

@[simp] theorem repliesOf_reply (r : RedisReply) (l : List ReadItem) :
    repliesOf (.reply r :: l) = r :: repliesOf l := rfl

/-- The context after a chunk was read. -/
def RedisContext.feed (c : RedisContext) (items : List ReadItem) (rest : List ReadOutcome) :
    RedisContext :=
  { c with
    reader := c.reader ++ items
    sock.reads := rest
    sock.log := c.sock.log ++ [.arrived (repliesOf items)] }

/-- What one read does on a context without error. -/
theorem redisBufferRead_cases {c c' : RedisContext} {ret : ℤ} (herr : c.err = 0)
    (h : redisBufferRead c = .ok (ret, c')) :
    (∃ e rest, c.sock.reads = .failed e :: rest ∧ ret = redisErr ∧
      c' = { c with err := e.code, sock.reads := rest }) ∨
    (∃ items rest, c.sock.reads = .chunk items :: rest ∧ ret = redisOk ∧ c' = c.feed items rest) := by
  rw [redisBufferRead, if_neg (by simpa using herr)] at h
  split at h
  · cases h
  · next e rest hreads =>
      cases h
      exact .inl ⟨e, rest, hreads, rfl, rfl⟩
  · next items rest hreads =>
      cases h
      exact .inr ⟨items, rest, hreads, rfl, rfl⟩

/-- What taking a reply off the reader does on a context without error. -/
theorem redisGetReplyFromReader_cases {c : RedisContext} (herr : c.err = 0) :
    (c.reader = [] ∧ redisGetReplyFromReader c = (redisOk, none, c)) ∨
    (∃ r rest, c.reader = .reply r :: rest ∧
      redisGetReplyFromReader c = (redisOk, some r, { c with reader := rest })) ∨
    (∃ e rest, c.reader = .malformed e :: rest ∧
      redisGetReplyFromReader c = (redisErr, none, { c with err := e.code, reader := rest })) := by
  rw [redisGetReplyFromReader, if_neg (by simpa using herr)]
  split
  · next hreader => exact .inl ⟨hreader, rfl⟩
  · next r rest hreader => exact .inr (.inl ⟨r, rest, hreader, rfl⟩)
  · next e rest hreader => exact .inr (.inr ⟨e, rest, hreader, rfl⟩)

/-- A chunk that completes no reply only delays the one that is received. -/
theorem Received.of_feed {c c' : RedisContext} {items : List ReadItem} {rest : List ReadOutcome}
    {aux : Option RedisReply} (hreader : c.reader ++ items = [])
    (h : Received (c.feed items rest) aux c') : Received c aux c' := by
  obtain ⟨new, harr, hord⟩ := h.in_order
  dsimp only [RedisContext.feed] at harr hord
  obtain ⟨hc, rfl⟩ := List.append_eq_nil_iff.mp hreader
  refine ⟨h.id_eq, h.block_eq, h.sends_eq, (List.prefix_append _ _).trans h.log_grows, ?_,
    h.err_iff, new, ?_, ?_⟩
  · rw [h.accepted_eq]
    simp [RedisContext.feed]
  · simpa [repliesOf] using harr
  · simpa [hc] using hord

/-- **What the read loop can do**, and the reply it ends with. -/
theorem received_of_readLoop {fuel : ℕ} {c c' : RedisContext} {aux : Option RedisReply}
    (herr : c.err = 0) (h : readLoop fuel c = .ok (aux, c')) :
    Received c aux c' ∧ aux = firstReply c.reader c.sock.reads := by
  induction fuel generalizing c with
  | zero => cases h
  | succ fuel ih =>
      rw [readLoop] at h
      obtain ⟨⟨ret, c₁⟩, hread, h⟩ := bind_eq_ok.mp h
      dsimp only at h
      obtain ⟨e, rest, hreads, rfl, rfl⟩ | ⟨items, rest, hreads, rfl, rfl⟩ :=
        redisBufferRead_cases herr hread
      · rw [if_pos rfl] at h
        cases h
        have hne := e.code_ne_zero
        exact ⟨⟨rfl, rfl, rfl, List.prefix_rfl, rfl, by simpa using hne,
          [], by simp, fun h0 => absurd h0 hne⟩, by simp [firstReply, hreads]⟩
      · rw [if_neg redisOk_ne_redisErr] at h
        obtain ⟨hreader, heq⟩ | ⟨r, items', hreader, heq⟩ | ⟨e, items', hreader, heq⟩ :=
          redisGetReplyFromReader_cases (c := c.feed items rest) herr
        · -- nothing complete yet: round the loop again
          rw [heq] at h
          dsimp only at h
          rw [if_neg redisOk_ne_redisErr] at h
          obtain ⟨hrec, haux⟩ := ih (c := c.feed items rest) herr h
          dsimp only [RedisContext.feed] at hreader haux
          exact ⟨hrec.of_feed hreader, by rw [hreads, firstReply, hreader, haux, hreader]⟩
        · rw [heq] at h
          cases h
          dsimp only [RedisContext.feed] at hreader
          refine ⟨⟨rfl, rfl, rfl, List.prefix_append _ _, by simp [RedisContext.feed],
            by simpa [RedisContext.feed] using herr, repliesOf items,
            by simp [RedisContext.feed], fun _ => ?_⟩, by rw [hreads, firstReply, hreader]⟩
          have := congrArg repliesOf hreader
          simpa using this
        · rw [heq] at h
          dsimp only [RedisContext.feed] at h hreader
          rw [if_pos rfl] at h
          cases h
          have hne := e.code_ne_zero
          exact ⟨⟨rfl, rfl, rfl, List.prefix_append _ _, by simp, by simpa using hne,
            repliesOf items, by simp, fun h0 => absurd h0 hne⟩,
            by rw [hreads, firstReply, hreader]⟩

theorem received_of_readReply {c c' : RedisContext} {aux : Option RedisReply}
    (herr : c.err = 0) (h : readReply c = .ok (aux, c')) :
    Received c aux c' ∧ aux = firstReply c.reader c.sock.reads :=
  received_of_readLoop herr h

/-! ## Several replies -/

/-- `Delivered c got c'`: the replies `got` were taken off the reader, reading more where
needed, and nothing else happened to the connection. -/
structure Delivered (c : RedisContext) (got : List RedisReply) (c' : RedisContext) : Prop where
  block_eq : c'.block = c.block
  sends_eq : c'.sock.sends = c.sock.sends
  log_grows : c.sock.log <+: c'.sock.log
  accepted_eq : acceptedOf c'.sock.log = acceptedOf c.sock.log
  in_order : ∃ new left, arrivedOf c'.sock.log = arrivedOf c.sock.log ++ new ∧
    repliesOf c.reader ++ new = got ++ left ∧ (c'.err = 0 → left = repliesOf c'.reader)

theorem Delivered.refl (c : RedisContext) : Delivered c [] c :=
  ⟨rfl, rfl, List.prefix_rfl, rfl, [], repliesOf c.reader, by simp, by simp, fun _ => rfl⟩

theorem Delivered.trans {c c₁ c₂ : RedisContext} {got got' : List RedisReply}
    (h : Delivered c got c₁) (herr : c₁.err = 0) (h' : Delivered c₁ got' c₂) :
    Delivered c (got ++ got') c₂ := by
  obtain ⟨new, left, harr, hord, hleft⟩ := h.in_order
  obtain ⟨new', left', harr', hord', hleft'⟩ := h'.in_order
  refine ⟨h'.block_eq.trans h.block_eq, h'.sends_eq.trans h.sends_eq,
    h.log_grows.trans h'.log_grows, h'.accepted_eq.trans h.accepted_eq, new ++ new', left',
    by rw [harr', harr, List.append_assoc], ?_, hleft'⟩
  rw [← List.append_assoc, hord, hleft herr, List.append_assoc, hord', List.append_assoc]

theorem Received.delivered {c c' : RedisContext} {aux : Option RedisReply}
    (h : Received c aux c') : Delivered c aux.toList c' := by
  obtain ⟨new, harr, hord⟩ := h.in_order
  refine ⟨h.block_eq, h.sends_eq, h.log_grows, h.accepted_eq, new, ?_⟩
  cases aux with
  | none =>
      exact ⟨repliesOf c.reader ++ new, harr, rfl, fun h0 => absurd h0 h.err_ne_zero⟩
  | some r => exact ⟨repliesOf c'.reader, harr, hord (h.err_iff.mpr rfl), fun _ => rfl⟩

/-- **What reading the replies of a batch can do.**  On success there is one reply for
each builder; after a failure those that came before it have been handed out. -/
theorem pipelineRead_spec {n : ℕ} {c c' : RedisContext} {acc acc' : List RedisReply} {ret : ℤ}
    (herr : c.err = 0) (h : pipelineRead n c acc = .ok (ret, c', acc')) :
    ∃ got, acc' = acc ++ got ∧ Delivered c got c' ∧ got.length ≤ n ∧
      ((ret = redisOk ∧ c'.err = 0 ∧ got.length = n) ∨
        (ret = redisErr ∧ c'.err ≠ 0 ∧ got.length < n)) := by
  induction n generalizing c acc with
  | zero =>
      cases h
      exact ⟨[], (List.append_nil _).symm, .refl _, le_rfl, .inl ⟨rfl, herr, rfl⟩⟩
  | succ n ih =>
      have hmore : ∀ {r c₁}, Delivered c [r] c₁ → c₁.err = 0 →
          pipelineRead n c₁ (acc ++ [r]) = .ok (ret, c', acc') →
          ∃ got, acc' = acc ++ got ∧ Delivered c got c' ∧ got.length ≤ n + 1 ∧
            ((ret = redisOk ∧ c'.err = 0 ∧ got.length = n + 1) ∨
              (ret = redisErr ∧ c'.err ≠ 0 ∧ got.length < n + 1)) := by
        intro r c₁ hdel herr₁ htail
        obtain ⟨got, hacc, hdel', hle, hcase⟩ := ih herr₁ htail
        refine ⟨r :: got, by rw [hacc, List.append_assoc]; rfl, hdel.trans herr₁ hdel',
          by simpa using hle, ?_⟩
        simpa using hcase
      rw [pipelineRead] at h
      obtain ⟨hreader, heq⟩ | ⟨r, rest, hreader, heq⟩ | ⟨e, rest, hreader, heq⟩ :=
        redisGetReplyFromReader_cases herr
      · rw [heq] at h
        dsimp only at h
        rw [if_neg redisOk_ne_redisErr] at h
        obtain ⟨⟨aux, c₁⟩, hread, h⟩ := bind_eq_ok.mp h
        have hrec := (received_of_readReply herr hread).1
        cases aux with
        | none =>
            cases h
            exact ⟨[], (List.append_nil _).symm, hrec.delivered, Nat.zero_le _,
              .inr ⟨rfl, hrec.err_ne_zero, Nat.succ_pos n⟩⟩
        | some r => exact hmore hrec.delivered (hrec.err_iff.mpr rfl) h
      · rw [heq] at h
        dsimp only at h
        rw [if_neg redisOk_ne_redisErr] at h
        have hdel : Delivered c [r] { c with reader := rest } :=
          ⟨rfl, rfl, List.prefix_rfl, rfl, [], repliesOf rest, by simp [hreader]⟩
        exact hmore hdel herr h
      · rw [heq] at h
        dsimp only at h
        rw [if_pos rfl] at h
        cases h
        exact ⟨[], (List.append_nil _).symm,
          ⟨rfl, rfl, List.prefix_rfl, rfl, [], repliesOf c.reader, by simp, by simp,
            fun h0 => absurd h0 e.code_ne_zero⟩, Nat.zero_le _,
          .inr ⟨rfl, e.code_ne_zero, Nat.succ_pos n⟩⟩

/-! ## Sending -/

/-- A builder whose length prefix and send pointer lie inside its string. -/
structure Sendable (b : RedisCmdBuilder) : Prop where
  committed : b.isCommit = true
  four_le_seek : 4 ≤ b.seek
  seek_le : b.seek ≤ b.cmd.length

theorem Framed.sendable {b : RedisCmdBuilder} {args : List Arg} (F : Framed b args) :
    Sendable b :=
  ⟨F.committed, F.four_le_seek, by have := F.seek_le; omega⟩

/-- The bytes that the first `send` of a call with this builder is offered. -/
def RedisCmdBuilder.offered (b : RedisCmdBuilder) : Bytes := b.getSendBuff.take b.sendLen.toNat

/-- A call with `b'` offers the socket the frame that a call with `b` does: length
prefix and payload are the same. -/
structure SameFrame (b b' : RedisCmdBuilder) : Prop where
  sendLen_eq : b'.sendLen = b.sendLen
  payload_eq : b'.getSendBuff = b.getSendBuff
  offered_eq : b'.offered = b.offered

theorem sameFrame_refl (b : RedisCmdBuilder) : SameFrame b b := ⟨rfl, rfl, rfl⟩

/-- What a write does to the context around it. -/
structure Written (c : RedisContext) (b : RedisCmdBuilder) (ret : ℤ) (c' : RedisContext) :
    Prop where
  id_eq : c'.id = c.id
  block_eq : c'.block = c.block
  reader_eq : c'.reader = c.reader
  reads_eq : c'.sock.reads = c.sock.reads
  log_grows : c.sock.log <+: c'.sock.log
  arrived_eq : arrivedOf c'.sock.log = arrivedOf c.sock.log
  sends_eq : c.err = 0 →
    c'.sock.sends = c.sock.sends.drop (sendsFor c.block b.sendLen c.sock.sends).length
  ok_or_err : ret = redisOk ∨ ret = redisErr
  ok_iff : ret = redisOk ↔ c'.err = 0
  /-- A write succeeds exactly when the context has no error and no outcome of its
  share of the script is fatal. -/
  ok_iff_share : ret = redisOk ↔ c.err = 0 ∧
    ∀ o ∈ sendsFor c.block b.sendLen c.sock.sends, o.isFatal c.block = false

/-- A write that failed left an error. -/
theorem Written.err_ne_zero {c c' : RedisContext} {b : RedisCmdBuilder}
    (h : Written c b redisErr c') : c'.err ≠ 0 := by
  intro h0
  exact redisErr_ne_redisOk (h.ok_iff.mpr h0)

section Write

variable {b : RedisCmdBuilder} {c c' : RedisContext} {ret : ℤ} {cmd' : Bytes}
  (hb : Sendable b)
  (h : redisBufferWriteInner { c with obuf := b.seek } b.cmd = .ok (ret, c', cmd'))
include hb h

theorem Sendable.writeRun (herr : c.err = 0) :
    WriteRun (b.seek - 4) { c with obuf := b.seek } b.cmd
      (sendsFor c.block b.sendLen c.sock.sends) ret c' cmd' :=
  writeRun_of_write (c := { c with obuf := b.seek }) rfl hb.four_le_seek hb.seek_le herr h

theorem Sendable.written : Written c b ret c' := by
  by_cases herr : c.err = 0
  · have hrun := hb.writeRun h herr
    obtain ⟨hid, hblock, hreader, hreads, harr⟩ := hrun.ctx_eq
    have hsends : c'.sock.sends
        = c.sock.sends.drop (sendsFor c.block b.sendLen c.sock.sends).length := by
      have := congrArg (List.drop (sendsFor c.block b.sendLen c.sock.sends).length) hrun.sends_eq
      rw [List.drop_left] at this
      exact this.symm
    obtain ⟨rfl, herr', hos⟩ | ⟨rfl, herr', o, ho, hfatal⟩ := hrun.ret_cases
    · exact ⟨hid, hblock, hreader, hreads, hrun.log_grows, harr, fun _ => hsends,
        .inl rfl, by simpa [herr'] using herr, by simpa [herr] using hos⟩
    · refine ⟨hid, hblock, hreader, hreads, hrun.log_grows, harr, fun _ => hsends,
        .inr rfl, ?_, ?_⟩
      · simp [herr', redisErr, redisOk, RedisErr.code]
      · refine iff_of_false redisErr_ne_redisOk fun hos => ?_
        rw [hos.2 o ho] at hfatal
        cases hfatal
  · rw [redisBufferWriteInner, if_pos herr] at h
    cases h
    refine ⟨rfl, rfl, rfl, rfl, List.prefix_rfl, rfl, fun h0 => absurd h0 herr, .inr rfl, ?_, ?_⟩
    · simpa [redisErr, redisOk] using herr
    · simp [redisErr, redisOk, herr]

/-- **A write leaves a builder as it was exactly when it made no net progress.** -/
theorem Sendable.sameFrame_iff :
    SameFrame b { b with cmd := cmd' } ↔
      c.err ≠ 0 ∨ progress c.block (sendsFor c.block b.sendLen c.sock.sends) = 0 := by
  have hseek := hb.seek_le
  have h4 := hb.four_le_seek
  have hmem : b.seek - 4 + 4 ≤ b.cmd.length := by omega
  by_cases herr : c.err = 0
  · have hrun := hb.writeRun h herr
    have hload := hrun.load_eq_iff hmem
    have hpay : cmd'.drop b.seek = b.cmd.drop b.seek := by
      rw [hrun.cmd_eq hmem, drop_store32 hmem _ (by omega)]
    constructor
    · intro hs
      exact .inr (hload.mp hs.sendLen_eq)
    · rintro (hne | hprog)
      · exact absurd herr hne
      · have hlen := hload.mpr hprog
        exact ⟨hlen, hpay, by
          simp only [RedisCmdBuilder.offered, RedisCmdBuilder.sendLen,
            RedisCmdBuilder.getSendBuff, hlen, hpay]⟩
  · rw [redisBufferWriteInner, if_pos herr] at h
    cases h
    exact iff_of_true (sameFrame_refl b) (.inl herr)

end Write

/-! ## A single exchange -/

/-- **What `sendAndGetReply` can do** with a committed builder: the write fails, or it
succeeds and the read loop decides. -/
theorem sendAndGetReply_cases {b : RedisCmdBuilder} (hb : Sendable b) {c : RedisContext}
    {reply : Option (Option RedisReply)}
    {r : Exchanged RedisCmdBuilder (Option (Option RedisReply))}
    (h : sendAndGetReply c b reply = .ok r) :
    ∃ ret c₁ cmd', redisBufferWriteInner { c with obuf := b.seek } b.cmd = .ok (ret, c₁, cmd') ∧
      r.builder = { b with cmd := cmd' } ∧
      ((ret = redisErr ∧ r.ret = redisErr ∧ r.ctx = c₁ ∧ r.reply = reply) ∨
        (ret = redisOk ∧ ∃ aux, readReply c₁ = .ok (aux, r.ctx) ∧
          ((aux = none ∧ r.ret = redisErr ∧ r.reply = reply) ∨
            ∃ v, aux = some v ∧ r.ret = redisOk ∧ r.reply = reply.map fun _ => some v))) := by
  rw [sendAndGetReply, if_neg (by simp [hb.committed]), redisGetReplyInner] at h
  obtain ⟨⟨ret, c₁, cmd'⟩, hwrite, h⟩ := bind_eq_ok.mp h
  refine ⟨ret, c₁, cmd', hwrite, ?_⟩
  dsimp only at h
  rcases (hb.written hwrite).ok_or_err with rfl | rfl
  · rw [if_neg redisOk_ne_redisErr] at h
    obtain ⟨⟨aux, c₂⟩, hread, h⟩ := bind_eq_ok.mp h
    cases aux with
    | none =>
        cases h
        exact ⟨rfl, .inr ⟨rfl, none, hread, .inl ⟨rfl, rfl, rfl⟩⟩⟩
    | some v =>
        cases h
        exact ⟨rfl, .inr ⟨rfl, some v, hread, .inr ⟨v, rfl, rfl, rfl⟩⟩⟩
  · rw [if_pos rfl] at h
    cases h
    exact ⟨rfl, .inl ⟨rfl, rfl, rfl, rfl⟩⟩

/-- The outcomes that each builder of a batch gets: the writes follow one another down
the script, and a fatal outcome ends them all. -/
def shares (block : Bool) : List ℤ → List SendOutcome → List (List SendOutcome)
  | [], _ => []
  | len :: lens, sends =>
      let os := sendsFor block len sends
      if os.any (SendOutcome.isFatal block) then os :: lens.map fun _ => []
      else os :: shares block lens (sends.drop os.length)

/-- **What writing a batch can do.** -/
theorem pipelineWrite_cons {b : RedisCmdBuilder} {bs bs' : List RedisCmdBuilder} (hb : Sendable b)
    {c c' : RedisContext} {ret : ℤ} (h : pipelineWrite c (b :: bs) = .ok (ret, c', bs')) :
    ∃ ret₁ c₁ cmd', redisBufferWriteInner { c with obuf := b.seek } b.cmd = .ok (ret₁, c₁, cmd') ∧
      ((ret₁ = redisErr ∧ ret = redisErr ∧ c' = c₁ ∧ bs' = { b with cmd := cmd' } :: bs) ∨
        (ret₁ = redisOk ∧ ∃ bs₁, pipelineWrite c₁ bs = .ok (ret, c', bs₁) ∧
          bs' = { b with cmd := cmd' } :: bs₁)) := by
  rw [pipelineWrite, if_neg (by simp [hb.committed])] at h
  obtain ⟨⟨ret₁, c₁, cmd'⟩, hwrite, h⟩ := bind_eq_ok.mp h
  refine ⟨ret₁, c₁, cmd', hwrite, ?_⟩
  dsimp only at h
  rcases (hb.written hwrite).ok_or_err with rfl | rfl
  · rw [if_neg redisOk_ne_redisErr] at h
    obtain ⟨⟨ret₂, c₂, bs₁⟩, htail, h⟩ := bind_eq_ok.mp h
    cases h
    exact .inr ⟨rfl, bs₁, htail, rfl⟩
  · rw [if_pos rfl] at h
    cases h
    exact .inl ⟨rfl, rfl, rfl, rfl⟩

/-- Which builders of a batch the writes leave as they were. -/
theorem pipelineWrite_sameFrame_iff {bs bs' : List RedisCmdBuilder} {c c' : RedisContext} {ret : ℤ}
    (hbs : ∀ b ∈ bs, Sendable b) (h : pipelineWrite c bs = .ok (ret, c', bs')) (i : ℕ)
    {b : RedisCmdBuilder} (hi : bs[i]? = some b) :
    ∃ b', bs'[i]? = some b' ∧ (SameFrame b b' ↔ c.err ≠ 0 ∨ progress c.block
      ((shares c.block (bs.map RedisCmdBuilder.sendLen) c.sock.sends).getD i []) = 0) := by
  induction bs generalizing c bs' i with
  | nil => simp at hi
  | cons b₀ bs ih =>
      have hb₀ := hbs b₀ List.mem_cons_self
      have hbs' : ∀ x ∈ bs, Sendable x := by
        intro x hx
        exact hbs x (List.mem_cons_of_mem _ hx)
      obtain ⟨ret₁, c₁, cmd', hwrite, hcase⟩ := pipelineWrite_cons hb₀ h
      have W := hb₀.written hwrite
      cases i with
      | zero =>
          obtain rfl : b₀ = b := Option.some.inj hi
          refine ⟨{ b₀ with cmd := cmd' }, ?_, ?_⟩
          · obtain ⟨-, -, -, rfl⟩ | ⟨-, bs₁, -, rfl⟩ := hcase <;> rfl
          · rw [hb₀.sameFrame_iff hwrite, List.map_cons, shares]
            split <;> rfl
      | succ i =>
          have hi' : bs[i]? = some b := hi
          obtain ⟨rfl, -, -, rfl⟩ | ⟨rfl, bs₁, htail, rfl⟩ := hcase
          · -- the failed write is the last one of the batch
            refine ⟨b, hi', iff_of_true (sameFrame_refl b) ?_⟩
            by_cases herr : c.err = 0
            · have hany : (sendsFor c.block b₀.sendLen c.sock.sends).any
                  (SendOutcome.isFatal c.block) = true := by
                by_contra hnone
                have hok := W.ok_iff_share.mpr ⟨herr, by simpa using hnone⟩
                exact absurd hok redisErr_ne_redisOk
              refine .inr ?_
              rw [List.map_cons, shares, if_pos hany, List.getD_cons_succ, List.getD_eq_getElem?_getD,
                List.map_map, List.getElem?_map, hi']
              rfl
            · exact .inl herr
          · obtain ⟨herr, hnone⟩ := W.ok_iff_share.mp rfl
            obtain ⟨b', hb', hiff⟩ := ih hbs' htail i hi'
            refine ⟨b', hb', ?_⟩
            rw [hiff, W.block_eq, W.sends_eq herr, W.ok_iff.mp rfl, herr, List.map_cons, shares,
              if_neg (by simpa using hnone), List.getD_cons_succ]

/-- Writing a batch only adds to the log, and fails exactly by leaving an error. -/
theorem pipelineWrite_written {bs bs' : List RedisCmdBuilder} {c c' : RedisContext} {ret : ℤ}
    (hbs : ∀ b ∈ bs, Sendable b) (herr : c.err = 0)
    (h : pipelineWrite c bs = .ok (ret, c', bs')) :
    c.sock.log <+: c'.sock.log ∧
      ((ret = redisOk ∧ c'.err = 0) ∨ (ret = redisErr ∧ c'.err ≠ 0 ∧ bs ≠ [])) := by
  induction bs generalizing c bs' with
  | nil =>
      cases h
      exact ⟨List.prefix_rfl, .inl ⟨rfl, herr⟩⟩
  | cons b bs ih =>
      have hb := hbs b List.mem_cons_self
      obtain ⟨ret₁, c₁, cmd', hwrite, hcase⟩ := pipelineWrite_cons hb h
      have W := hb.written hwrite
      obtain ⟨rfl, rfl, rfl, -⟩ | ⟨rfl, bs₁, htail, -⟩ := hcase
      · exact ⟨W.log_grows, .inr ⟨rfl, W.err_ne_zero, List.cons_ne_nil _ _⟩⟩
      · have hbs' : ∀ x ∈ bs, Sendable x := by
          intro x hx
          exact hbs x (List.mem_cons_of_mem _ hx)
        obtain ⟨hgrows, hcase⟩ := ih hbs' (W.ok_iff.mp rfl) htail
        refine ⟨W.log_grows.trans hgrows, hcase.imp_right ?_⟩
        intro hfail
        exact ⟨hfail.1, hfail.2.1, List.cons_ne_nil _ _⟩

/-- With an error on the context a batch sends nothing. -/
theorem pipelineWrite_of_err {bs bs' : List RedisCmdBuilder} {c c' : RedisContext} {ret : ℤ}
    (herr : c.err ≠ 0) (h : pipelineWrite c bs = .ok (ret, c', bs')) :
    (ret = redisErr ∨ bs = []) ∧ c'.err ≠ 0 ∧ c'.sock = c.sock := by
  cases bs with
  | nil =>
      cases h
      exact ⟨.inr rfl, herr, rfl⟩
  | cons b bs =>
      rw [pipelineWrite] at h
      split at h
      · cases h
        exact ⟨.inl rfl, herr, rfl⟩
      · rw [redisBufferWriteInner, if_pos herr] at h
        cases h
        exact ⟨.inl rfl, herr, rfl⟩

/-- With an error on the context a single command is not sent. -/
theorem sendAndGetReply_of_err {b : RedisCmdBuilder} {c : RedisContext}
    {reply : Option (Option RedisReply)}
    {r : Exchanged RedisCmdBuilder (Option (Option RedisReply))}
    (herr : c.err ≠ 0) (h : sendAndGetReply c b reply = .ok r) :
    r.ret = redisErr ∧ r.reply = reply ∧ r.ctx.err ≠ 0 ∧ r.ctx.sock = c.sock := by
  rw [sendAndGetReply] at h
  split at h
  · cases h
    exact ⟨rfl, rfl, herr, rfl⟩
  · rw [redisGetReplyInner, redisBufferWriteInner, if_pos herr] at h
    cases h
    exact ⟨rfl, rfl, herr, rfl⟩

/-- Both loops of a batch return `REDIS_OK` or `REDIS_ERR`. -/
theorem pipelineWrite_ret {bs bs' : List RedisCmdBuilder} {c c' : RedisContext} {ret : ℤ}
    (h : pipelineWrite c bs = .ok (ret, c', bs')) : ret = redisOk ∨ ret = redisErr := by
  induction bs generalizing c bs' with
  | nil =>
      cases h
      exact .inl rfl
  | cons b bs ih =>
      rw [pipelineWrite] at h
      split at h
      · cases h
        exact .inr rfl
      · obtain ⟨⟨ret₁, c₁, cmd'⟩, -, h⟩ := bind_eq_ok.mp h
        dsimp only at h
        split at h
        · cases h
          exact .inr rfl
        · obtain ⟨⟨ret₂, c₂, bs₁⟩, htail, h⟩ := bind_eq_ok.mp h
          cases h
          exact ih htail

theorem pipelineRead_ret {n : ℕ} {c c' : RedisContext} {acc acc' : List RedisReply} {ret : ℤ}
    (h : pipelineRead n c acc = .ok (ret, c', acc')) : ret = redisOk ∨ ret = redisErr := by
  induction n generalizing c acc with
  | zero =>
      cases h
      exact .inl rfl
  | succ n ih =>
      rw [pipelineRead] at h
      dsimp only at h
      split at h
      · cases h
        exact .inr rfl
      · split at h
        · exact ih h
        · obtain ⟨⟨aux, c₁⟩, -, h⟩ := bind_eq_ok.mp h
          cases aux with
          | none =>
              cases h
              exact .inr rfl
          | some r => exact ih h

/-- **What `pipelineSendAndGetReply` can do.** -/
theorem pipelineSendAndGetReply_cases {bs : List RedisCmdBuilder} {c : RedisContext}
    {vecReply : List RedisReply} {r : Exchanged (List RedisCmdBuilder) (List RedisReply)}
    (h : pipelineSendAndGetReply c bs vecReply = .ok r) :
    ∃ ret c₁, pipelineWrite c bs = .ok (ret, c₁, r.builder) ∧
      ((ret = redisErr ∧ r.ret = redisErr ∧ r.ctx = c₁ ∧ r.reply = vecReply) ∨
        (ret = redisOk ∧
          pipelineRead (toInt32 bs.length).toNat c₁ vecReply = .ok (r.ret, r.ctx, r.reply))) := by
  rw [pipelineSendAndGetReply] at h
  obtain ⟨⟨ret, c₁, bs'⟩, hwrite, h⟩ := bind_eq_ok.mp h
  dsimp only at h
  refine ⟨ret, c₁, ?_⟩
  rcases pipelineWrite_ret hwrite with rfl | rfl
  · rw [if_neg redisOk_ne_redisErr] at h
    obtain ⟨⟨ret', c₂, replies⟩, hread, h⟩ := bind_eq_ok.mp h
    cases h
    exact ⟨hwrite, .inr ⟨rfl, hread⟩⟩
  · rw [if_pos rfl] at h
    cases h
    exact ⟨hwrite, .inl ⟨rfl, rfl, rfl, rfl⟩⟩

theorem redisErr_ne_io : redisErr ≠ RedisErr.io.code := by decide
theorem redisOk_ne_io : redisOk ≠ RedisErr.io.code := by decide

/-- Neither exchange returns `REDIS_ERR_IO`. -/
theorem sendAndGetReply_ret_ne {c : RedisContext} {b : RedisCmdBuilder}
    {reply : Option (Option RedisReply)}
    {r : Exchanged RedisCmdBuilder (Option (Option RedisReply))}
    (h : sendAndGetReply c b reply = .ok r) : r.ret ≠ RedisErr.io.code := by
  unfold sendAndGetReply at h
  split at h
  · cases h
    exact redisErr_ne_io
  · obtain ⟨⟨ret, c₁, cmd'⟩, -, h⟩ := bind_eq_ok.mp h
    dsimp only at h
    split at h
    · cases h
      exact redisErr_ne_io
    · obtain ⟨⟨aux, c₂⟩, -, h⟩ := bind_eq_ok.mp h
      cases aux with
      | none =>
          cases h
          exact redisErr_ne_io
      | some v =>
          cases h
          exact redisOk_ne_io

theorem pipelineSendAndGetReply_ret_ne {c : RedisContext} {bs : List RedisCmdBuilder}
    {vecReply : List RedisReply} {r : Exchanged (List RedisCmdBuilder) (List RedisReply)}
    (h : pipelineSendAndGetReply c bs vecReply = .ok r) : r.ret ≠ RedisErr.io.code := by
  obtain ⟨ret, c₁, -, ⟨-, hret, -, -⟩ | ⟨-, hread⟩⟩ := pipelineSendAndGetReply_cases h
  · rw [hret]
    exact redisErr_ne_io
  · rcases pipelineRead_ret hread with hret | hret
    · rw [hret]
      exact redisOk_ne_io
    · rw [hret]
      exact redisErr_ne_io

/-! ## Failing -/

/-- A single exchange that fails leaves an error on the context and hands out nothing. -/
theorem sendAndGetReply_failed {b : RedisCmdBuilder} (hb : Sendable b) {c : RedisContext}
    {reply : Option (Option RedisReply)}
    {r : Exchanged RedisCmdBuilder (Option (Option RedisReply))}
    (h : sendAndGetReply c b reply = .ok r) (hret : r.ret = redisErr) :
    r.ctx.err ≠ 0 ∧ r.reply = reply := by
  obtain ⟨ret, c₁, cmd', hwrite, -, hcase⟩ := sendAndGetReply_cases hb h
  have W := hb.written hwrite
  obtain ⟨rfl, -, hctx, hreply⟩ | ⟨rfl, aux, hread, hcase⟩ := hcase
  · rw [hctx]
    exact ⟨W.err_ne_zero, hreply⟩
  · have hrec := (received_of_readReply (W.ok_iff.mp rfl) hread).1
    obtain ⟨rfl, -, hreply⟩ | ⟨v, -, hok, -⟩ := hcase
    · exact ⟨hrec.err_ne_zero, hreply⟩
    · rw [hret] at hok
      exact absurd hok redisErr_ne_redisOk

/-- A batch that fails leaves an error on the context and some command unanswered. -/
theorem pipelineSendAndGetReply_failed {bs : List RedisCmdBuilder} (hbs : ∀ b ∈ bs, Sendable b)
    {c : RedisContext} {vecReply : List RedisReply}
    {r : Exchanged (List RedisCmdBuilder) (List RedisReply)}
    (h : pipelineSendAndGetReply c bs vecReply = .ok r) (hret : r.ret = redisErr) :
    r.ctx.err ≠ 0 ∧ ∃ got, r.reply = vecReply ++ got ∧ got.length < bs.length := by
  obtain ⟨ret, c₁, hwrite, hcase⟩ := pipelineSendAndGetReply_cases h
  have hne : bs ≠ [] := by
    rintro rfl
    obtain ⟨rfl, -⟩ := Prod.mk.inj (Except.ok.inj hwrite)
    obtain ⟨hok, -⟩ | ⟨-, hread⟩ := hcase
    · exact absurd hok redisOk_ne_redisErr
    · obtain ⟨hok, -⟩ := Prod.mk.inj (Except.ok.inj hread)
      rw [hret] at hok
      exact absurd hok redisOk_ne_redisErr
  have hpos := List.length_pos_iff.mpr hne
  have hfail : ret = redisErr ∧ c₁.err ≠ 0 ∨ ret = redisOk ∧ c₁.err = 0 := by
    by_cases herr : c.err = 0
    · obtain ⟨hok, herr'⟩ | ⟨hret', herr', -⟩ := (pipelineWrite_written hbs herr hwrite).2
      · exact .inr ⟨hok, herr'⟩
      · exact .inl ⟨hret', herr'⟩
    · obtain ⟨hret', herr', -⟩ := pipelineWrite_of_err herr hwrite
      exact .inl ⟨hret'.resolve_right hne, herr'⟩
  obtain ⟨rfl, herr'⟩ | ⟨rfl, herr'⟩ := hfail
  · obtain ⟨-, -, hctx, hreply⟩ | ⟨hok, -⟩ := hcase
    · exact ⟨hctx ▸ herr', [], by rw [hreply, List.append_nil], by simpa using hpos⟩
    · exact absurd hok redisErr_ne_redisOk
  · obtain ⟨hret', -⟩ | ⟨-, hread⟩ := hcase
    · exact absurd hret' redisOk_ne_redisErr
    · obtain ⟨got, hgot, -, -, ⟨hok, -⟩ | ⟨-, hctx, hlt⟩⟩ := pipelineRead_spec herr' hread
      · rw [hret] at hok
        exact absurd hok redisErr_ne_redisOk
      · refine ⟨hctx, got, hgot, ?_⟩
        have := toInt32_natCast_le bs.length
        omega

/-! ## Sending again -/

/-- **When a committed builder can be sent again.**  Whatever the socket did, a first
exchange leaves the frame as `Commit` left it exactly when the context had an error
before, or the bytes accepted from the builder and the failures retried on it cancel
out; in particular when nothing of it was sent.  This holds for a single exchange, and
for every builder of a batch with its share of the outcomes. -/
theorem exchange_sameFrame_iff (c : RedisContext) :
    (∀ ops, (runOps ops).isCommit = true → ∀ reply r,
      sendAndGetReply c (runOps ops) reply = .ok r →
      (SameFrame (runOps ops) r.builder ↔ c.err ≠ 0 ∨
        progress c.block (sendsFor c.block (runOps ops).sendLen c.sock.sends) = 0)) ∧
    (∀ opss : List (List BuilderOp), (∀ ops ∈ opss, (runOps ops).isCommit = true) →
      ∀ vecReply r, pipelineSendAndGetReply c (opss.map runOps) vecReply = .ok r →
      ∀ i ops, opss[i]? = some ops → ∃ b', r.builder[i]? = some b' ∧
        (SameFrame (runOps ops) b' ↔ c.err ≠ 0 ∨ progress c.block
          ((shares c.block (opss.map fun ops => (runOps ops).sendLen) c.sock.sends).getD i [])
            = 0)) := by
  constructor
  · intro ops hc reply r h
    have hb := (framed_run ops hc).sendable
    obtain ⟨ret, c₁, cmd', hwrite, hbuilder, -⟩ := sendAndGetReply_cases hb h
    rw [hbuilder]
    exact hb.sameFrame_iff hwrite
  · intro opss hcs vecReply r h i ops hi
    have hbs : ∀ b ∈ opss.map runOps, Sendable b := by
      intro b hb
      obtain ⟨ops, hops, rfl⟩ := List.mem_map.mp hb
      exact (framed_run ops (hcs ops hops)).sendable
    obtain ⟨ret, c₁, hwrite, -⟩ := pipelineSendAndGetReply_cases h
    have := pipelineWrite_sameFrame_iff hbs hwrite i (b := runOps ops) (by simp [hi])
    rwa [List.map_map] at this

/-- A socket that fails at once leaves both forms of the call repeatable. -/
theorem exchange_sameFrame_fatal :
    (∃ r, sendAndGetReply (freshContext [.failed .other] []) (runOps pingOps) (some none) = .ok r ∧
      SameFrame (runOps pingOps) r.builder) ∧
    (∃ r b', pipelineSendAndGetReply (freshContext [.failed .other] [])
        ([pingOps, pingOps].map runOps) [] = .ok r ∧
      r.builder[1]? = some b' ∧ SameFrame (runOps pingOps) b') := by
  constructor
  · obtain ⟨r, h, -⟩ := exists_ok_of_map
      (x := sendAndGetReply (freshContext [.failed .other] []) (runOps pingOps) (some none))
      (f := Exchanged.ret) (b := redisErr) (by decide)
    exact ⟨r, h, ((exchange_sameFrame_iff _).1 pingOps (by decide) _ r h).mpr (.inr (by decide))⟩
  · obtain ⟨r, h, -⟩ := exists_ok_of_map
      (x := pipelineSendAndGetReply (freshContext [.failed .other] [])
        ([pingOps, pingOps].map runOps) [])
      (f := Exchanged.ret) (b := redisErr) (by decide)
    obtain ⟨b', hb', hiff⟩ :=
      (exchange_sameFrame_iff _).2 [pingOps, pingOps] (by decide) _ r h 1 pingOps rfl
    exact ⟨r, b', h, hb', hiff.mpr (.inr (by decide))⟩

/-- After a `PING` that was written and answered, the length prefix is zero: a second
call with the builder would offer nothing. -/
theorem sendAndGetReply_consumes_frame :
    ∃ r, sendAndGetReply (freshContext [.sent 99] [.chunk [.reply (.status (ascii "PONG"))]])
        (runOps pingOps) (some none) = .ok r ∧
      r.ret = redisOk ∧ (runOps pingOps).offered = frame (committedArgs pingOps) ∧
      r.builder.offered = [] ∧ ¬ SameFrame (runOps pingOps) r.builder := by
  obtain ⟨r, h, hobs⟩ := exists_ok_of_map
    (x := sendAndGetReply (freshContext [.sent 99] [.chunk [.reply (.status (ascii "PONG"))]])
      (runOps pingOps) (some none))
    (f := fun r => (r.ret, r.builder.offered)) (b := (redisOk, [])) (by decide)
  obtain ⟨hret, hoff⟩ := Prod.mk.inj hobs
  refine ⟨r, h, hret, by decide, hoff, ?_⟩
  intro hs
  have := hs.offered_eq
  rw [hoff] at this
  exact absurd this (by decide)

end SeedCore.Redis
