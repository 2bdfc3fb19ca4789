import SeedCore.Redis.Pairing
import SeedCore.Redis.SyncCall

/-!
# A connection without failures

On a connection whose `send` calls all take something and whose reads bring one reply
for each command, an operation comes to its end: its command reaches the server byte for
byte, and it reads the reply to it.

## Main definitions

* `Delivers`, `Online` — reads that bring given replies, and the connection.
* `writeLoop_returns`, `readLoop_delivers` — the two loops come to their end.
* `exec_online` — an operation does.
-/

namespace SeedCore.Redis

/-- The reads to come bring these replies, each after any number of reads that complete
none.  No reply comes before the one in front of it was taken, since the command that it
answers is sent only then. -/
inductive Delivers : List RedisReply → List ReadOutcome → Prop
  | nil (reads : List ReadOutcome) : Delivers [] reads
  | wait {rs : List RedisReply} {reads : List ReadOutcome} (h : Delivers rs reads) :
      Delivers rs (.chunk [] :: reads)
  | reply {r : RedisReply} {rs : List RedisReply} {reads : List ReadOutcome} (h : Delivers rs reads) :
      Delivers (r :: rs) (.chunk [.reply r] :: reads)

/-- A connection on which no command is outstanding, which will take the commands `cmds`
and bring the replies `replies`. -/
structure Online (c : RedisContext) (cmds : List (List Bytes)) (replies : List RedisReply) :
    Prop where
  err_eq : c.err = 0
  reader_eq : c.reader = []
  sent : ∀ o ∈ c.sock.sends, o.isSent = true
  enough : (cmds.flatMap Resp.command).length ≤ c.sock.sends.length
  delivers : Delivers replies c.sock.reads

/-! ## The loops -/

/-- The context after the next `send` has taken `n` bytes. -/
def RedisContext.sentNext (c : RedisContext) (cmd : Bytes) (n : ℕ) : RedisContext :=
  { c with
    sock.sends := c.sock.sends.tail
    sock.log := c.sock.log ++ [.accepted (cells cmd c.obuf.toNat n)] }

/-- A `send` that takes something, when all it is offered lies in the buffer. -/
theorem send_sent {c : RedisContext} {cmd : Bytes} {len : ℤ} {more : ℕ} {rest : List SendOutcome}
    (hsends : c.sock.sends = .sent more :: rest) (hlen : 0 < len) (hobuf : 0 ≤ c.obuf)
    (hfit : c.obuf + len ≤ cmd.length) :
    ∃ n : ℕ, 1 ≤ n ∧ n ≤ len ∧ send c cmd len = .ok (n, none, c.sentNext cmd n) := by
  refine ⟨min (more + 1) len.toNat, by omega, by omega, ?_⟩
  rw [send, hsends, RedisContext.sentNext, hsends]
  dsimp only [List.tail_cons]
  rw [if_pos ⟨hobuf, by omega⟩]

/-- **The write loop** comes to its end when every `send` takes something and there are as
many as bytes to go. -/
theorem writeLoop_returns {lenAt fuel : ℕ} {c : RedisContext} {cmd : Bytes}
    (hsent : ∀ o ∈ c.sock.sends, o.isSent = true)
    (hlen : load32 cmd lenAt ≤ c.sock.sends.length) (hfuel : c.sock.sends.length < fuel)
    (hmem : lenAt + 4 ≤ cmd.length) (hobuf : 0 ≤ c.obuf)
    (hfit : c.obuf + load32 cmd lenAt ≤ cmd.length) :
    ∃ r, writeLoop lenAt fuel c cmd = .ok r := by
  induction fuel generalizing c cmd with
  | zero => omega
  | succ fuel ih =>
      rw [writeLoop]
      by_cases hpos : 0 < load32 cmd lenAt
      · have hlt := load32_lt cmd lenAt
        cases hsends : c.sock.sends with
        | nil =>
            rw [hsends, List.length_nil] at hlen
            omega
        | cons o rest =>
            have ho := hsent o (by rw [hsends]; exact List.mem_cons_self)
            cases o with
            | failed e => cases ho
            | sent more =>
                obtain ⟨n, hn1, hn, hsend⟩ := send_sent hsends hpos hobuf hfit
                rw [if_pos hpos, hsend]
                simp only [bind, Except.bind]
                rw [if_neg (by rintro ⟨hneg, -⟩; omega), if_pos (by omega)]
                have hload : load32 (store32 cmd lenAt (load32 cmd lenAt - n)) lenAt
                    = load32 cmd lenAt - n :=
                  load32_store32_of_lt hmem (by omega) (by omega)
                have htail : c.sock.sends.tail = rest := by rw [hsends, List.tail_cons]
                rw [hsends, List.length_cons] at hlen hfuel
                refine ih ?_ ?_ ?_ ?_ ?_ ?_
                · intro o ho
                  exact hsent o (List.mem_of_mem_tail ho)
                · rw [hload]
                  dsimp only [RedisContext.sentNext]
                  rw [htail]
                  omega
                · dsimp only [RedisContext.sentNext]
                  rw [htail]
                  omega
                · rw [length_store32 hmem]
                  exact hmem
                · dsimp only [RedisContext.sentNext]
                  omega
                · rw [hload, length_store32 hmem]
                  dsimp only [RedisContext.sentNext]
                  omega
      · rw [if_neg hpos]
        exact ⟨_, rfl⟩

/-- **The read loop** takes the next reply that is brought. -/
theorem readLoop_delivers {r : RedisReply} {rs : List RedisReply} {reads : List ReadOutcome}
    (h : Delivers (r :: rs) reads) {c : RedisContext} {fuel : ℕ} (herr : c.err = 0)
    (hreader : c.reader = []) (hreads : c.sock.reads = reads) (hfuel : reads.length < fuel) :
    ∃ c', readLoop fuel c = .ok (some r, c') ∧ c'.reader = [] ∧ Delivers rs c'.sock.reads := by
  generalize hreplies : r :: rs = replies at h
  induction h generalizing c fuel with
  | nil reads => cases hreplies
  | @wait rs' reads _ ih =>
      obtain ⟨fuel, rfl⟩ : ∃ n, fuel = n + 1 := ⟨fuel - 1, by omega⟩
      rw [List.length_cons] at hfuel
      obtain ⟨c', hloop, hrest⟩ := @ih (c.feed [] reads) fuel herr
        (by simp [RedisContext.feed, hreader]) rfl (by omega) hreplies
      refine ⟨c', ?_, hrest⟩
      rw [← hloop]
      simp [readLoop, redisBufferRead, herr, hreads, redisGetReplyFromReader, hreader, bind,
        Except.bind, redisOk_ne_redisErr, RedisContext.feed]
  | @reply r' rs' reads hrest _ =>
      cases hreplies
      obtain ⟨fuel, rfl⟩ : ∃ n, fuel = n + 1 := ⟨fuel - 1, by omega⟩
      refine ⟨{ c.feed [.reply r] reads with reader := [] }, ?_, rfl, hrest⟩
      simp [readLoop, redisBufferRead, herr, hreads, redisGetReplyFromReader, hreader, bind,
        Except.bind, redisOk_ne_redisErr, RedisContext.feed]

/-! ## An operation -/

/-- A write with `len` bytes to go makes at most `len` calls when each takes something. -/
theorem length_sendsFor_le {block : Bool} {sends : List SendOutcome}
    (h : ∀ o ∈ sends, o.isSent = true) (len : ℤ) :
    (sendsFor block len sends).length ≤ len.toNat := by
  induction sends generalizing len with
  | nil => exact Nat.zero_le _
  | cons o os ih =>
      by_cases hlen : len ≤ 0
      · rw [sendsFor_of_nonpos hlen]
        exact Nat.zero_le _
      · cases o with
        | sent more =>
            have := ih (fun o ho => h o (List.mem_cons_of_mem _ ho)) (len - (more + 1))
            simp only [sendsFor, if_neg hlen, List.length_cons]
            omega
        | failed e => cases h _ List.mem_cons_self

theorem mem_of_mem_sendsFor {block : Bool} {sends : List SendOutcome} {len : ℤ} {o : SendOutcome}
    (h : o ∈ sendsFor block len sends) : o ∈ sends := by
  induction sends generalizing len with
  | nil => exact h
  | cons o' os ih =>
      have later : ∀ {len' : ℤ}, o ∈ o' :: sendsFor block len' os → o ∈ o' :: os := by
        intro len' h
        rcases List.mem_cons.mp h with rfl | h
        · exact List.mem_cons_self
        · exact List.mem_cons_of_mem _ (ih h)
      by_cases hlen : len ≤ 0
      · rw [sendsFor_of_nonpos hlen] at h
        cases h
      · cases o' with
        | sent more =>
            simp only [sendsFor, if_neg hlen] at h
            exact later h
        | failed e =>
            simp only [sendsFor, if_neg hlen] at h
            split at h
            · exact later h
            · rw [List.mem_singleton.mp h]
              exact List.mem_cons_self

section Exec

variable {c : RedisContext} {args : List Arg} {cmds : List (List Bytes)} {r : RedisReply}
  {rs : List RedisReply} (hsize : (Resp.command (argBytes args)).length < 2147483648)
  (h : Online c (argBytes args :: cmds) (r :: rs))
include hsize h

/-- The whole command is written. -/
theorem redisBufferWriteInner_online : ∃ c₁ cmd', redisBufferWriteInner
    { c with obuf := (runOps (buildOps args)).seek } (runOps (buildOps args)).cmd
      = .ok (redisOk, c₁, cmd') := by
  have F := framed_run _ (isCommit_buildOps args)
  rw [committedArgs_buildOps] at F
  have hseek := F.seek_le
  have h4 := F.four_le_seek
  rw [frame_eq_command hsize] at hseek
  have hlen : (runOps (buildOps args)).sendLen = (Resp.command (argBytes args)).length := by
    rw [F.sendLen_eq, frame_eq_command hsize, toInt32_natCast hsize]
  rw [RedisCmdBuilder.sendLen] at hlen
  have henough := h.enough
  rw [List.flatMap_cons, List.length_append] at henough
  have hlenAt : ((runOps (buildOps args)).seek - 4 : ℤ).toNat = (runOps (buildOps args)).seek - 4 := by
    omega
  obtain ⟨⟨ret, c₁, cmd'⟩, hwrite⟩ : ∃ w, redisBufferWriteInner
      { c with obuf := (runOps (buildOps args)).seek } (runOps (buildOps args)).cmd = .ok w := by
    rw [redisBufferWriteInner, if_neg (by simpa using h.err_eq), hlenAt]
    refine writeLoop_returns h.sent ?_ (Nat.lt_succ_self _) (by omega) (by dsimp only; omega) ?_
    · rw [hlen]
      dsimp only
      omega
    · rw [hlen]
      dsimp only
      omega
  have hok : ret = redisOk := by
    refine (F.sendable.written hwrite).ok_iff_share.mpr ⟨h.err_eq, ?_⟩
    intro o ho
    have hsent := h.sent o (mem_of_mem_sendsFor ho)
    cases o with
    | sent more => rfl
    | failed e => cases hsent
  exact ⟨c₁, cmd', hok ▸ hwrite⟩

/-- **A command is sent and answered.** -/
theorem sendAndGetReply_online :
    ∃ x, sendAndGetReply c (runOps (buildOps args)) (some none) = .ok x ∧
      x.reply = some (some r) ∧ Online x.ctx cmds rs ∧
      serverInput x.ctx.sock.log = serverInput c.sock.log ++ Resp.command (argBytes args) := by
  have hcommit := isCommit_buildOps args
  have F := framed_run _ hcommit
  rw [committedArgs_buildOps] at F
  have hready : Ready (runOps (buildOps args)) := ⟨args, F, hsize⟩
  have hlen : (runOps (buildOps args)).sendLen = (Resp.command (argBytes args)).length := by
    rw [F.sendLen_eq, frame_eq_command hsize, toInt32_natCast hsize]
  have henough := h.enough
  rw [List.flatMap_cons, List.length_append] at henough
  obtain ⟨c₁, cmd', hwrite⟩ := redisBufferWriteInner_online hsize h
  have W := F.sendable.written hwrite
  have herr₁ : c₁.err = 0 := W.ok_iff.mp rfl
  obtain ⟨-, hne⟩ | ⟨-, T⟩ := hready.transmit h.err_eq (fun o ho => .inl (h.sent o ho)) hwrite
  · exact absurd herr₁ hne
  obtain ⟨c₂, hread, hreader, hdelivers⟩ := readLoop_delivers h.delivers herr₁
    (W.reader_eq.trans h.reader_eq) W.reads_eq (Nat.lt_succ_self _)
  have hreply : readReply c₁ = .ok (some r, c₂) := by
    rw [readReply, W.reads_eq]
    exact hread
  have hrec := (received_of_readReply herr₁ hreply).1
  refine ⟨⟨redisOk, c₂, { runOps (buildOps args) with cmd := cmd' }, some (some r)⟩, ?_, rfl, ?_, ?_⟩
  · rw [sendAndGetReply, if_neg (by simp [hcommit]), redisGetReplyInner, hwrite]
    simp only [bind, Except.bind]
    rw [if_neg redisOk_ne_redisErr, hreply]
    rfl
  · have hsends := hrec.sends_eq.trans (W.sends_eq h.err_eq)
    refine ⟨hrec.err_iff.mpr rfl, hreader, ?_, ?_, hdelivers⟩
    · intro o ho
      rw [hsends] at ho
      exact h.sent o (List.mem_of_mem_drop ho)
    · have hused : (sendsFor c.block (runOps (buildOps args)).sendLen c.sock.sends).length
          ≤ (runOps (buildOps args)).sendLen.toNat := length_sendsFor_le h.sent _
      rw [hlen] at hused
      rw [hsends, List.length_drop, hlen]
      omega
  · have hinput := T.input_eq
    rw [F.command_eq hsize] at hinput
    have hread : serverInput c₂.sock.log = serverInput c₁.sock.log :=
      congrArg (List.map Prod.fst) hrec.accepted_eq
    rw [hread, hinput, List.flatMap_singleton]

end Exec

theorem RedisMgr.update_getRedisConnection {m : RedisMgr} {threadIdx : ℤ} {i j : ℕ}
    (h : m.getRedisConnection threadIdx = .ok i) (connection : RedisConnection) (w : World) :
    (m.update j connection w).getRedisConnection threadIdx = .ok i := by
  simpa [RedisMgr.update, RedisMgr.getRedisConnection, RedisMgr.connectionAt] using h

/-- **An operation on such a connection** comes to its end, on the reply to its command. -/
theorem exec_online {α : Type} {op : SyncOp α} {m : RedisMgr} {threadIdx : ℤ} {i : ℕ}
    {connection : RedisConnection} (hi : m.getRedisConnection threadIdx = .ok i)
    (hconnection : m.vecRedisContext[i]? = some connection) {cmds : List (List Bytes)}
    {r : RedisReply} {rs : List RedisReply} (hwants : op.wantsReply = true)
    (hsize : (Resp.command (argBytes op.args)).length < 2147483648)
    (h : Online connection.ctx (argBytes op.args :: cmds) (r :: rs)) {code : ℤ} {out : α}
    (hfinish : op.finish redisOk (some r) = .ok (code, out)) :
    ∃ m' connection', op.exec m threadIdx = .ok (code, out, m') ∧
      m'.getRedisConnection threadIdx = .ok i ∧ m'.vecRedisContext[i]? = some connection' ∧
      Online connection'.ctx cmds rs ∧
      serverInput connection'.ctx.sock.log
        = serverInput connection.ctx.sock.log ++ Resp.command (argBytes op.args) := by
  obtain ⟨x, hsend, hreply, honline, hinput⟩ := sendAndGetReply_online hsize h
  refine ⟨m.update i { connection with ctx := x.ctx } m.world, _, ?_,
    RedisMgr.update_getRedisConnection hi _ _, RedisMgr.update_getElem? hconnection _ _,
    honline, hinput⟩
  have hexec : execCmd m threadIdx op.cmdBuilder (some none) op.reSend
      = .ok ⟨redisOk, m.update i { connection with ctx := x.ctx } m.world, x.builder, x.reply⟩ := by
    rw [execCmd_eq hi hconnection, SyncOp.cmdBuilder, hsend]
    rfl
  rw [SyncOp.exec, hwants, if_pos rfl, hexec]
  simp only [bind, Except.bind, hreply, Option.join_some, hfinish]

end SeedCore.Redis
