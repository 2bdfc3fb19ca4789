import Mathlib.Tactic.IntervalCases
import SeedCore.Redis.Exchange

/-!
# Requests and replies on one connection

A `Session` is one context and the calls that one thread has made on it.  The server
is any function from the commands it has read so far to its reply to the last of them,
so a reply says to which command, at which place of the stream, it belongs.  It is
only assumed that it answers the complete commands it got, in order.

Between calls the connection is settled: the context has an error, and then no later
call delivers anything, or every reply has been taken off the reader and none is
outstanding.  The step lemma is about one call; the theorem is about every run.

## Main definitions

* `Call`, `Session`, `Session.step` — the system.
* `Honest` — the server, as the log of the socket shows it.
* `Settled` — the invariant between calls.
* `Paired` — every reply was handed to the caller of its command.
-/

namespace SeedCore.Redis

/-- A call on a context. -/
inductive Call
  /-- `sendAndGetReply`; `out` says whether the caller passed a place for the reply. -/
  | single (b : RedisCmdBuilder) (out : Bool)
  /-- `pipelineSendAndGetReply` -/
  | pipe (bs : List RedisCmdBuilder)

/-- The builders that a call is made with. -/
def Call.builders : Call → List RedisCmdBuilder
  | .single b _ => [b]
  | .pipe bs => bs

/-- The commands that a call is made for. -/
def Call.commands (call : Call) : List (List Bytes) := call.builders.map RedisCmdBuilder.command

/-- Make a call: the returned code, the replies handed out and the context after it. -/
def Call.exec (c : RedisContext) : Call → Except Stuck (ℤ × List RedisReply × RedisContext)
  | .single b out => do
      let r ← sendAndGetReply c b (if out then some none else none)
      .ok (r.ret, r.reply.join.toList, r.ctx)
  | .pipe bs => do
      let r ← pipelineSendAndGetReply c bs []
      .ok (r.ret, r.reply, r.ctx)

/-- A call that has returned. -/
structure Finished where
  call : Call
  ret : ℤ
  replies : List RedisReply

/-- A context and the calls made on it so far. -/
structure Session where
  ctx : RedisContext
  done : List Finished := []

/-- Make one more call. -/
def Session.step (s : Session) (call : Call) : Option Session :=
  match call.exec s.ctx with
  | .ok (ret, replies, c) => some ⟨c, s.done ++ [⟨call, ret, replies⟩]⟩
  | .error _ => none

/-- The commands that the calls were made for, in order. -/
def commandsOf (done : List Finished) : List (List Bytes) := done.flatMap fun e => e.call.commands

/-! ## The server -/

/-- The replies of a server that answers every command, knowing those before it. -/
def answers (srv : List (List Bytes) → RedisReply) (cmds : List (List Bytes)) : List RedisReply :=
  (List.range cmds.length).map fun i => srv (cmds.take (i + 1))

/-- The bytes that the server got. -/
def serverInput (log : List NetEvent) : Bytes := (acceptedOf log).map Prod.fst

/-- At every moment, the replies that have arrived are the server's replies to the
complete commands it has got, in order, as far as they have come. -/
def Honest (srv : List (List Bytes) → RedisReply) (log : List NetEvent) : Prop :=
  ∀ past, past <+: log → arrivedOf past <+: answers srv (Resp.commands (serverInput past))

@[simp] theorem length_answers (srv : List (List Bytes) → RedisReply) (cmds : List (List Bytes)) :
    (answers srv cmds).length = cmds.length := by simp [answers]

theorem answers_getElem? {srv : List (List Bytes) → RedisReply} {cmds : List (List Bytes)} {i : ℕ}
    (h : i < cmds.length) : (answers srv cmds)[i]? = some (srv (cmds.take (i + 1))) := by
  simp [answers, h]

theorem Honest.of_isPrefix {srv : List (List Bytes) → RedisReply} {log log' : List NetEvent}
    (h : Honest srv log') (hp : log <+: log') : Honest srv log :=
  fun past hpast => h past (hpast.trans hp)

/-! ## What is claimed -/

/-- Every reply handed to a caller is the server's reply to that very command: the
`i`-th reply of a call is the answer to its `i`-th builder, at the place that this
command has in the stream. -/
def Paired (srv : List (List Bytes) → RedisReply) (done : List Finished) : Prop :=
  ∀ past e rest, done = past ++ e :: rest → ∀ i r, e.replies[i]? = some r →
    i < e.call.commands.length ∧ r = srv (commandsOf past ++ e.call.commands.take (i + 1))

/-- A builder as `Commit` left it, with a frame below `2 ^ 31` bytes. -/
def Ready (b : RedisCmdBuilder) : Prop :=
  ∃ args, Framed b args ∧ (Resp.command (argBytes args)).length < 2147483648

/-- A call with committed builders that were not sent since. -/
def Call.Ready : Call → Prop
  | .single b _ => Redis.Ready b
  | .pipe bs => bs ≠ [] ∧ bs.length < 2147483648 ∧ ∀ b ∈ bs, Redis.Ready b

/-- Every `send` takes some bytes or fails for good. -/
def NoRetry (c : RedisContext) : Prop :=
  ∀ o ∈ c.sock.sends, o.isSent = true ∨ o.isFatal c.block = true

/-- Between calls: the context has an error, or every command of the calls made was
sent, answered and its reply taken off the reader. -/
structure Settled (srv : List (List Bytes) → RedisReply) (s : Session) : Prop where
  paired : Paired srv s.done
  quiet : s.ctx.err = 0 → NoRetry s.ctx ∧
    serverInput s.ctx.sock.log = (commandsOf s.done).flatMap Resp.command ∧
      arrivedOf s.ctx.sock.log = answers srv (commandsOf s.done) ∧ repliesOf s.ctx.reader = []

/-! ## Commands reach the server whole -/

theorem sentFirst_sendsFor {block : Bool} {sends : List SendOutcome}
    (h : ∀ o ∈ sends, o.isSent = true ∨ o.isFatal block = true) (len : ℤ) :
    SentFirst (sendsFor block len sends) := by
  induction sends generalizing len with
  | nil => exact List.Pairwise.nil
  | cons o os ih =>
      have hos : ∀ o ∈ os, o.isSent = true ∨ o.isFatal block = true :=
        fun o ho => h o (List.mem_cons_of_mem _ ho)
      by_cases hlen : len ≤ 0
      · rw [sendsFor_of_nonpos hlen]
        exact List.Pairwise.nil
      · cases o with
        | sent more =>
            simp only [sendsFor, if_neg hlen]
            exact List.pairwise_cons.mpr ⟨fun _ _ hs => (Bool.noConfusion hs : False).elim, ih hos _⟩
        | failed e =>
            have hfatal : retriable block e = false := by
              simpa [SendOutcome.isSent, SendOutcome.isFatal] using h _ List.mem_cons_self
            simp only [sendsFor, if_neg hlen, hfatal, Bool.false_eq_true, if_false]
            exact List.pairwise_singleton _ _

/-- `Transmitted c cmds c'`: the socket took the commands `cmds`, byte for byte. -/
structure Transmitted (c : RedisContext) (cmds : List (List Bytes)) (c' : RedisContext) :
    Prop where
  err_eq : c'.err = 0
  reader_eq : c'.reader = c.reader
  noRetry : NoRetry c'
  arrived_eq : arrivedOf c'.sock.log = arrivedOf c.sock.log
  input_eq : serverInput c'.sock.log = serverInput c.sock.log ++ cmds.flatMap Resp.command

theorem Transmitted.trans {c c₁ c₂ : RedisContext} {cmds cmds' : List (List Bytes)}
    (h : Transmitted c cmds c₁) (h' : Transmitted c₁ cmds' c₂) :
    Transmitted c (cmds ++ cmds') c₂ :=
  ⟨h'.err_eq, h'.reader_eq.trans h.reader_eq, h'.noRetry,
    h'.arrived_eq.trans h.arrived_eq, by
      rw [h'.input_eq, h.input_eq, List.flatMap_append, List.append_assoc]⟩

theorem Ready.sendable {b : RedisCmdBuilder} (hb : Ready b) : Sendable b := by
  obtain ⟨args, F, -⟩ := hb
  exact F.sendable

/-- The payload of a ready builder is its command. -/
theorem Framed.command_eq {b : RedisCmdBuilder} {args : List Arg} (F : Framed b args)
    (hsize : (Resp.command (argBytes args)).length < 2147483648) : b.command = argBytes args := by
  obtain ⟨tail, htail⟩ := F.sendBuff_eq
  rw [RedisCmdBuilder.command, htail, frame_eq_command hsize, Resp.readCommand_command]
  rfl

/-- A write of a ready builder fails for good, or transmits its command. -/
theorem Ready.transmit {b : RedisCmdBuilder} (hb : Ready b) {c c' : RedisContext} {ret : ℤ}
    {cmd' : Bytes} (herr : c.err = 0) (hretry : NoRetry c)
    (h : redisBufferWriteInner { c with obuf := b.seek } b.cmd = .ok (ret, c', cmd')) :
    (ret = redisErr ∧ c'.err ≠ 0) ∨ (ret = redisOk ∧ Transmitted c [b.command] c') := by
  have W := hb.sendable.written h
  obtain ⟨args, F, hsize⟩ := hb
  rcases W.ok_or_err with rfl | rfl
  · refine .inr ⟨rfl, W.ok_iff.mp rfl, W.reader_eq, ?_, W.arrived_eq, ?_⟩
    · intro o ho
      rw [W.sends_eq herr] at ho
      rw [W.block_eq]
      exact hretry o (List.mem_of_mem_drop ho)
    · have hfaith := (F.faithfulWrite_iff herr h).mpr ⟨sentFirst_sendsFor hretry _,
        .inl (by rwa [frame_eq_command hsize])⟩
      rw [serverInput, hfaith.1 rfl, List.map_append, List.zipIdx_map_fst, F.command_eq hsize,
        frame_eq_command hsize]
      simp [serverInput]
  · exact .inl ⟨rfl, W.err_ne_zero⟩

/-- The same for a batch. -/
theorem pipelineWrite_transmit {bs bs' : List RedisCmdBuilder} (hbs : ∀ b ∈ bs, Ready b)
    {c c' : RedisContext} {ret : ℤ} (herr : c.err = 0) (hretry : NoRetry c)
    (h : pipelineWrite c bs = .ok (ret, c', bs')) :
    (ret = redisErr ∧ c'.err ≠ 0) ∨
      (ret = redisOk ∧ Transmitted c (bs.map RedisCmdBuilder.command) c') := by
  induction bs generalizing c bs' with
  | nil =>
      cases h
      exact .inr ⟨rfl, herr, rfl, hretry, rfl, by simp⟩
  | cons b bs ih =>
      have hb := hbs b List.mem_cons_self
      obtain ⟨ret₁, c₁, cmd', hwrite, hcase⟩ := pipelineWrite_cons hb.sendable h
      obtain ⟨rfl, hne⟩ | ⟨rfl, T⟩ := hb.transmit herr hretry hwrite
      · obtain ⟨-, rfl, rfl, -⟩ | ⟨hret, -⟩ := hcase
        · exact .inl ⟨rfl, hne⟩
        · exact absurd hret redisErr_ne_redisOk
      · obtain ⟨hret, -⟩ | ⟨-, bs₁, htail, -⟩ := hcase
        · exact absurd hret redisOk_ne_redisErr
        · have hbs' : ∀ x ∈ bs, Ready x := by
            intro x hx
            exact hbs x (List.mem_cons_of_mem _ hx)
          have hcase' := ih hbs' T.err_eq T.noRetry htail
          exact hcase'.imp_right fun hT => ⟨hT.1, T.trans hT.2⟩

/-! ## One call -/

/-- What a call can do on a context without error: fail before every command was sent,
or send them all, and take as many replies off the reader as come before a failure. -/
def Call.Spec (call : Call) (c : RedisContext) (ret : ℤ) (replies : List RedisReply)
    (c' : RedisContext) : Prop :=
  (ret = redisErr ∧ c'.err ≠ 0 ∧ replies = []) ∨
    ∃ c₁ got, Transmitted c call.commands c₁ ∧ Delivered c₁ got c' ∧ replies <+: got ∧
      got.length ≤ call.commands.length ∧
      ((ret = redisOk ∧ c'.err = 0 ∧ got.length = call.commands.length) ∨
        (ret = redisErr ∧ c'.err ≠ 0))

/-- A call of `sendAndGetReply`. -/
theorem Call.spec_single {b : RedisCmdBuilder} {out : Bool} (hb : Redis.Ready b)
    {c c' : RedisContext} {ret : ℤ} {replies : List RedisReply} (herr : c.err = 0)
    (hretry : NoRetry c) (h : (Call.single b out).exec c = .ok (ret, replies, c')) :
    (Call.single b out).Spec c ret replies c' := by
  obtain ⟨r, hsend, h⟩ := bind_eq_ok.mp h
  cases h
  obtain ⟨ret₁, c₁, cmd', hwrite, -, hcase⟩ := sendAndGetReply_cases hb.sendable hsend
  obtain ⟨rfl, hne⟩ | ⟨rfl, T⟩ := hb.transmit herr hretry hwrite
  · obtain ⟨-, hret, hctx, hreply⟩ | ⟨hret, -⟩ := hcase
    · refine .inl ⟨hret, hctx ▸ hne, ?_⟩
      rw [hreply]
      cases out <;> rfl
    · exact absurd hret redisErr_ne_redisOk
  · obtain ⟨hret, -⟩ | ⟨-, aux, hread, hcase⟩ := hcase
    · exact absurd hret redisOk_ne_redisErr
    · have hrec := (received_of_readReply T.err_eq hread).1
      refine .inr ⟨c₁, aux.toList, T, hrec.delivered, ?_⟩
      obtain ⟨rfl, hret, hreply⟩ | ⟨v, rfl, hret, hreply⟩ := hcase
      · refine ⟨?_, Nat.zero_le _, .inr ⟨hret, hrec.err_ne_zero⟩⟩
        rw [hreply]
        cases out <;> exact List.prefix_rfl
      · refine ⟨?_, le_rfl, .inl ⟨hret, hrec.err_iff.mpr rfl, rfl⟩⟩
        rw [hreply]
        cases out
        · exact List.nil_prefix
        · exact List.prefix_rfl

/-- A call of `pipelineSendAndGetReply`. -/
theorem Call.spec_pipe {bs : List RedisCmdBuilder} (hcall : (Call.pipe bs).Ready)
    {c c' : RedisContext} {ret : ℤ} {replies : List RedisReply} (herr : c.err = 0)
    (hretry : NoRetry c) (h : (Call.pipe bs).exec c = .ok (ret, replies, c')) :
    (Call.pipe bs).Spec c ret replies c' := by
  obtain ⟨r, hpipe, h⟩ := bind_eq_ok.mp h
  cases h
  obtain ⟨-, hsize, hbs⟩ := hcall
  obtain ⟨ret₁, c₁, hwrite, hcase⟩ := pipelineSendAndGetReply_cases hpipe
  obtain ⟨rfl, hne⟩ | ⟨rfl, T⟩ := pipelineWrite_transmit hbs herr hretry hwrite
  · obtain ⟨-, hret, hctx, hreply⟩ | ⟨hret, -⟩ := hcase
    · exact .inl ⟨hret, hctx ▸ hne, hreply⟩
    · exact absurd hret redisErr_ne_redisOk
  · obtain ⟨hret, -⟩ | ⟨-, hread⟩ := hcase
    · exact absurd hret redisOk_ne_redisErr
    · obtain ⟨got, hgot, D, hle, hcase⟩ := pipelineRead_spec T.err_eq hread
      have hn : (toInt32 bs.length).toNat = bs.length := by
        rw [toInt32_natCast hsize]
        rfl
      rw [hn] at hle hcase
      have hlen : (Call.pipe bs).commands.length = bs.length := List.length_map _
      refine .inr ⟨c₁, got, T, D, ?_, by rwa [hlen], ?_⟩
      · rw [hgot]
        exact List.prefix_rfl
      · rw [hlen]
        exact hcase.imp_right fun hfail => ⟨hfail.1, hfail.2.1⟩

/-- **What a call can do.** -/
theorem Call.Ready.spec {call : Call} (hcall : call.Ready) {c c' : RedisContext} {ret : ℤ}
    {replies : List RedisReply} (herr : c.err = 0) (hretry : NoRetry c)
    (h : call.exec c = .ok (ret, replies, c')) : call.Spec c ret replies c' := by
  cases call with
  | single b out => exact Call.spec_single hcall herr hretry h
  | pipe bs => exact Call.spec_pipe hcall herr hretry h

/-- On a context with an error every call fails, and nothing crosses the socket. -/
theorem Call.exec_of_err {call : Call} {c c' : RedisContext} {ret : ℤ}
    {replies : List RedisReply} (herr : c.err ≠ 0) (h : call.exec c = .ok (ret, replies, c')) :
    (ret = redisErr ∨ call = .pipe []) ∧ replies = [] ∧ c'.err ≠ 0 ∧ c'.sock = c.sock := by
  cases call with
  | single b out =>
      obtain ⟨r, hsend, h⟩ := bind_eq_ok.mp h
      cases h
      obtain ⟨hret, hreply, herr', hsock⟩ := sendAndGetReply_of_err herr hsend
      refine ⟨.inl hret, ?_, herr', hsock⟩
      rw [hreply]
      cases out <;> rfl
  | pipe bs =>
      obtain ⟨r, hpipe, h⟩ := bind_eq_ok.mp h
      cases h
      obtain ⟨⟨ret, c₁, bs'⟩, hwrite, h⟩ := bind_eq_ok.mp hpipe
      obtain ⟨hret, herr', hsock⟩ := pipelineWrite_of_err herr hwrite
      rcases hret with rfl | rfl
      · dsimp only at h
        rw [if_pos rfl] at h
        cases h
        exact ⟨.inl rfl, rfl, herr', hsock⟩
      · -- an empty batch has nothing to write and nothing to read
        cases hwrite
        cases h
        exact ⟨.inr rfl, rfl, herr', hsock⟩

theorem Call.Ready.exec_of_err {call : Call} (hcall : call.Ready) {c c' : RedisContext} {ret : ℤ}
    {replies : List RedisReply} (herr : c.err ≠ 0) (h : call.exec c = .ok (ret, replies, c')) :
    ret = redisErr ∧ replies = [] ∧ c'.err ≠ 0 ∧ c'.sock = c.sock := by
  obtain ⟨hret | rfl, hrest⟩ := Call.exec_of_err herr h
  · exact ⟨hret, hrest⟩
  · exact absurd rfl hcall.1

theorem Call.Ready.log_grows {call : Call} (hcall : call.Ready) {c c' : RedisContext} {ret : ℤ}
    {replies : List RedisReply} (h : call.exec c = .ok (ret, replies, c')) :
    c.sock.log <+: c'.sock.log := by
  by_cases herr : c.err = 0
  · cases call with
    | single b out =>
        obtain ⟨r, hsend, h⟩ := bind_eq_ok.mp h
        cases h
        have hb : Redis.Ready b := hcall
        obtain ⟨ret₁, c₁, cmd', hwrite, -, hcase⟩ := sendAndGetReply_cases hb.sendable hsend
        have W := hb.sendable.written hwrite
        obtain ⟨-, -, hctx, -⟩ | ⟨rfl, aux, hread, -⟩ := hcase
        · rw [hctx]
          exact W.log_grows
        · exact W.log_grows.trans (received_of_readReply (W.ok_iff.mp rfl) hread).1.log_grows
    | pipe bs =>
        obtain ⟨r, hpipe, h⟩ := bind_eq_ok.mp h
        cases h
        have hbs : ∀ b ∈ bs, Sendable b := fun b hb => (hcall.2.2 b hb).sendable
        obtain ⟨ret₁, c₁, hwrite, hcase⟩ := pipelineSendAndGetReply_cases hpipe
        obtain ⟨hgrows, hw⟩ := pipelineWrite_written hbs herr hwrite
        obtain ⟨-, -, hctx, -⟩ | ⟨rfl, hread⟩ := hcase
        · rw [hctx]
          exact hgrows
        · obtain ⟨-, herr'⟩ | ⟨hret, -⟩ := hw
          · obtain ⟨got, -, D, -⟩ := pipelineRead_spec herr' hread
            exact hgrows.trans D.log_grows
          · exact absurd hret redisOk_ne_redisErr
  · obtain ⟨-, -, -, hsock⟩ := hcall.exec_of_err herr h
    exact hsock ▸ List.prefix_rfl

/-! ## Every run -/

theorem step_eq_some {s t : Session} {call : Call} (h : s.step call = some t) :
    ∃ ret replies, call.exec s.ctx = .ok (ret, replies, t.ctx) ∧
      t.done = s.done ++ [⟨call, ret, replies⟩] := by
  unfold Session.step at h
  split at h
  · next ret replies c hexec =>
      cases h
      exact ⟨ret, replies, hexec, rfl⟩
  · cases h

/-- One more call keeps the pairing if its own replies are paired. -/
theorem Paired.snoc {srv : List (List Bytes) → RedisReply} {done : List Finished} {e : Finished}
    (h : Paired srv done)
    (he : ∀ i r, e.replies[i]? = some r → i < e.call.commands.length ∧
      r = srv (commandsOf done ++ e.call.commands.take (i + 1))) :
    Paired srv (done ++ [e]) := by
  intro past e' rest heq
  rcases List.eq_nil_or_concat rest with rfl | ⟨rest, last, rfl⟩
  · obtain ⟨rfl, hlast⟩ := List.append_inj' heq rfl
    obtain rfl : e = e' := List.head_eq_of_cons_eq hlast
    exact he
  · rw [List.concat_eq_append, ← List.cons_append, ← List.append_assoc] at heq
    exact h past e' rest (List.append_inj' heq rfl).1

/-- What the replies of an honest server can be, read off the stream: from the
`H.length`-th on, they answer the commands `K` one after the other. -/
theorem answer_of_isPrefix {srv : List (List Bytes) → RedisReply} {H K : List (List Bytes)}
    {got : List RedisReply} (h : answers srv H ++ got <+: answers srv (H ++ K)) {i : ℕ}
    {r : RedisReply} (hi : got[i]? = some r) : r = srv (H ++ K.take (i + 1)) := by
  have hlt : i < got.length := (List.getElem?_eq_some_iff.mp hi).1
  have hlen := h.length_le
  simp only [List.length_append, length_answers] at hlen
  have hget : (answers srv (H ++ K))[H.length + i]? = some r := by
    obtain ⟨rest, hrest⟩ := h
    rw [← hrest, List.append_assoc, List.getElem?_append_right (by simp), length_answers,
      Nat.add_sub_cancel_left, List.getElem?_append_left hlt, hi]
  rw [answers_getElem? (by simp only [List.length_append]; omega), List.take_append] at hget
  have htake : H.take (H.length + i + 1) = H := List.take_of_length_le (by omega)
  have hsub : H.length + i + 1 - H.length = i + 1 := by omega
  rw [htake, hsub] at hget
  exact (Option.some.inj hget).symm

/-- Both directions of the socket after a call on a quiet connection: the server got the
commands of the call behind those before it, and what has arrived, the replies taken and
those left over, are answers to them. -/
theorem Honest.streams {srv : List (List Bytes) → RedisReply} {c c₁ c' : RedisContext}
    {H K : List (List Bytes)} {got : List RedisReply} (hhonest : Honest srv c'.sock.log)
    (hin : serverInput c.sock.log = H.flatMap Resp.command)
    (harr : arrivedOf c.sock.log = answers srv H) (hreader : repliesOf c.reader = [])
    (T : Transmitted c K c₁) (D : Delivered c₁ got c') :
    serverInput c'.sock.log = (H ++ K).flatMap Resp.command ∧
      ∃ left, arrivedOf c'.sock.log = answers srv H ++ got ++ left ∧
        answers srv H ++ got ++ left <+: answers srv (H ++ K) ∧
        (c'.err = 0 → left = repliesOf c'.reader) := by
  obtain ⟨new, left, harr', hord, hleft⟩ := D.in_order
  have hinput : serverInput c'.sock.log = (H ++ K).flatMap Resp.command := by
    rw [serverInput, D.accepted_eq, List.flatMap_append, ← hin]
    exact T.input_eq
  have harrived : arrivedOf c'.sock.log = answers srv H ++ got ++ left := by
    rw [harr', T.arrived_eq, harr, List.append_assoc, ← hord, T.reader_eq, hreader,
      List.nil_append]
  have hanswers := hhonest _ List.prefix_rfl
  rw [hinput, Resp.commands_flatMap_command, harrived] at hanswers
  exact ⟨hinput, left, harrived, hanswers, hleft⟩

/-- **The step.**  A call with builders as `Commit` left them keeps the connection
settled, and its replies are its own. -/
theorem Settled.step {srv : List (List Bytes) → RedisReply} {s t : Session} {call : Call}
    (hs : Settled srv s) (hcall : call.Ready) (h : s.step call = some t)
    (hhonest : Honest srv t.ctx.sock.log) : Settled srv t := by
  obtain ⟨ret, replies, hexec, hdone⟩ := step_eq_some h
  have hnone : replies = [] → Paired srv t.done := by
    rintro rfl
    rw [hdone]
    exact hs.paired.snoc (by simp)
  by_cases herr : s.ctx.err = 0
  · obtain ⟨hretry, hin, harr, hreader⟩ := hs.quiet herr
    obtain ⟨-, hne, hnil⟩ | ⟨c₁, got, T, D, hpre, hle, hcase⟩ := hcall.spec herr hretry hexec
    · exact ⟨hnone hnil, fun h0 => absurd h0 hne⟩
    · obtain ⟨hinput, left, harrived, hanswers, hleft⟩ := hhonest.streams hin harr hreader T D
      constructor
      · rw [hdone]
        apply hs.paired.snoc
        intro i r hi
        obtain ⟨rest, hrest⟩ := hpre
        have hilt : i < replies.length := (List.getElem?_eq_some_iff.mp hi).1
        have hi' : got[i]? = some r := by
          rw [← hrest, List.getElem?_append_left hilt]
          exact hi
        have hglt : i < got.length := (List.getElem?_eq_some_iff.mp hi').1
        exact ⟨by dsimp only; omega,
          answer_of_isPrefix ((List.prefix_append _ _).trans hanswers) hi'⟩
      · intro h0
        obtain ⟨-, -, hlen⟩ | ⟨-, hne⟩ := hcase
        · -- as many replies as commands: nothing can be left over
          have hlens := hanswers.length_le
          simp only [List.length_append, length_answers] at hlens
          obtain rfl : left = [] := List.length_eq_zero_iff.mp (by omega)
          rw [List.append_nil] at hanswers harrived
          have hcommands : commandsOf t.done = commandsOf s.done ++ call.commands := by
            simp [commandsOf, hdone]
          rw [hcommands]
          refine ⟨?_, hinput, ?_, (hleft h0).symm⟩
          · intro o ho
            rw [D.block_eq]
            rw [D.sends_eq] at ho
            exact T.noRetry o ho
          · rw [harrived]
            exact hanswers.eq_of_length (by simp [hlen])
        · exact absurd h0 hne
  · obtain ⟨-, hnil, hne, -⟩ := hcall.exec_of_err herr hexec
    exact ⟨hnone hnil, fun h0 => absurd h0 hne⟩

/-- A context on which nothing has happened yet. -/
structure Fresh (c : RedisContext) : Prop where
  err_eq : c.err = 0
  reader_eq : c.reader = []
  log_eq : c.sock.log = []

/-- A session that starts on a fresh context stays settled. -/
theorem settled_of_run {srv : List (List Bytes) → RedisReply} {c : RedisContext} (hfresh : Fresh c)
    (hretry : NoRetry c) {calls : List Call} (hcalls : ∀ call ∈ calls, call.Ready) {s : Session}
    (h : Run Session.step ⟨c, []⟩ calls s) (hhonest : Honest srv s.ctx.sock.log) :
    Settled srv s := by
  have hinit : Settled srv ⟨c, []⟩ := by
    refine ⟨fun past e rest heq => absurd heq (by simp), fun _ => ⟨hretry, ?_⟩⟩
    simp [hfresh.reader_eq, hfresh.log_eq, serverInput, commandsOf, answers, repliesOf,
      acceptedOf, arrivedOf]
  refine h.invariant (P := fun s => Honest srv s.ctx.sock.log → Settled srv s)
    (fun s call t hcall hstep hs hhonest => ?_) hcalls (fun _ => hinit) hhonest
  obtain ⟨ret, replies, hexec, -⟩ := step_eq_some hstep
  exact (hs (hhonest.of_isPrefix (hcall.log_grows hexec))).step hcall hstep hhonest

/-- **Replies are paired with their commands.**  In every run of single and pipelined
calls with builders as `Commit` left them, whatever the chunks of the reads, the short
writes and the point of a fatal failure: every reply handed out is the server's reply
to that very command.  Between calls either no reply is outstanding and none is in
the reader, or the context has an error, and then every later call fails without a
reply. -/
theorem replies_paired (srv : List (List Bytes) → RedisReply) {c : RedisContext}
    (hfresh : Fresh c) (hretry : NoRetry c) {calls : List Call} (hcalls : ∀ call ∈ calls, call.Ready)
    {s : Session} (hrun : Run Session.step ⟨c, []⟩ calls s)
    (hhonest : Honest srv s.ctx.sock.log) :
    Paired srv s.done ∧
      ((s.ctx.err = 0 ∧ repliesOf s.ctx.reader = [] ∧
          arrivedOf s.ctx.sock.log = answers srv (Resp.commands (serverInput s.ctx.sock.log))) ∨
        (s.ctx.err ≠ 0 ∧ ∀ call, call.Ready → ∀ t, s.step call = some t →
          t.ctx.err ≠ 0 ∧ t.done = s.done ++ [⟨call, redisErr, []⟩])) := by
  have hs := settled_of_run hfresh hretry hcalls hrun hhonest
  refine ⟨hs.paired, ?_⟩
  by_cases herr : s.ctx.err = 0
  · obtain ⟨-, hin, harr, hreader⟩ := hs.quiet herr
    exact .inl ⟨herr, hreader, by rw [hin, Resp.commands_flatMap_command, harr]⟩
  · refine .inr ⟨herr, ?_⟩
    intro call hcall t ht
    obtain ⟨ret, replies, hexec, hdone⟩ := step_eq_some ht
    obtain ⟨rfl, rfl, hne, -⟩ := hcall.exec_of_err herr hexec
    exact ⟨hne, hdone⟩

/-- Honesty has to be checked after each event. -/
theorem honest_of_take {srv : List (List Bytes) → RedisReply} {log : List NetEvent}
    (h : ∀ n ≤ log.length, arrivedOf (log.take n)
      <+: answers srv (Resp.commands (serverInput (log.take n)))) : Honest srv log := by
  intro past hpast
  have := h past.length hpast.length_le
  rwa [← List.prefix_iff_eq_take.mp hpast] at this

/-- A committed `ECHO`. -/
def echoOps (text : String) : List BuilderOp :=
  [.put (.cstr (ascii "ECHO")), .put (.str (ascii text)), .commit]

/-- A server that answers every command with its last argument. -/
def echoServer (cmds : List (List Bytes)) : RedisReply :=
  .string ((cmds.getLast?.bind List.getLast?).getD [])

/-- The reply to an `ECHO`. -/
def echoReply (text : String) : RedisReply := .string (ascii text)

/-- The log entry of an `ECHO` that was written at once. -/
def echoSent (text : String) : NetEvent :=
  .accepted ((frame (committedArgs (echoOps text))).zipIdx 16)

theorem ready_echo (text : String)
    (h : (Resp.command (argBytes (committedArgs (echoOps text)))).length < 2147483648) :
    Ready (runOps (echoOps text)) := ⟨_, framed_run _ rfl, h⟩

/-- A single call and a batch; the replies to the batch arrive in one read. -/
theorem replies_paired_echo :
    ∃ s, Run Session.step ⟨freshContext [.sent 99, .sent 99, .sent 99] [.chunk [],
          .chunk [.reply (echoReply "a")], .chunk [.reply (echoReply "b"), .reply (echoReply "c")]], []⟩
        [.single (runOps (echoOps "a")) true, .pipe [runOps (echoOps "b"), runOps (echoOps "c")]] s ∧
      s.done.map Finished.replies = [[echoReply "a"], [echoReply "b", echoReply "c"]] ∧
      Paired echoServer s.done := by
  obtain ⟨s, hrun, hobs⟩ := Option.map_eq_some_iff.mp (show
    (List.foldlM Session.step ⟨freshContext [.sent 99, .sent 99, .sent 99] [.chunk [],
        .chunk [.reply (echoReply "a")], .chunk [.reply (echoReply "b"), .reply (echoReply "c")]], []⟩
      [.single (runOps (echoOps "a")) true, .pipe [runOps (echoOps "b"), runOps (echoOps "c")]]).map
        (fun s => (s.ctx.sock.log, s.done.map Finished.replies))
      = some ([echoSent "a", .arrived [], .arrived [echoReply "a"], echoSent "b", echoSent "c",
          .arrived [echoReply "b", echoReply "c"]],
        [[echoReply "a"], [echoReply "b", echoReply "c"]]) from rfl)
  obtain ⟨hlog, hreplies⟩ := Prod.mk.inj hobs
  have hrun' := run_iff_foldlM.mpr hrun
  refine ⟨s, hrun', hreplies,
    (replies_paired echoServer ⟨rfl, rfl, rfl⟩ (by unfold NoRetry; decide) ?_ hrun' ?_).1⟩
  · simp only [List.forall_mem_cons, Call.Ready]
    exact ⟨ready_echo _ (by decide), ⟨by simp, by decide, ready_echo _ (by decide),
      ready_echo _ (by decide), by simp⟩, by simp⟩
  · rw [hlog]
    apply honest_of_take
    intro n hn
    have hn : n ≤ 6 := hn
    interval_cases n <;> exact ⟨_, rfl⟩

/-- The `ECHO a` that a first call has sent is still a committed builder.  In a batch
it sends nothing, and the reply to the command after it is handed out in its place. -/
theorem replies_misplaced_after_resend :
    ∃ r s, sendAndGetReply (freshContext [.sent 99, .sent 99] [.chunk [.reply (echoReply "a")],
          .chunk [.reply (echoReply "b")], .failed .timeout])
        (runOps (echoOps "a")) (some none) = .ok r ∧
      r.builder.isCommit = true ∧ r.builder.command = [ascii "ECHO", ascii "a"] ∧
      Run Session.step ⟨freshContext [.sent 99, .sent 99] [.chunk [.reply (echoReply "a")],
          .chunk [.reply (echoReply "b")], .failed .timeout], []⟩
        [.single (runOps (echoOps "a")) true, .pipe [r.builder, runOps (echoOps "b")]] s ∧
      Honest echoServer s.ctx.sock.log ∧
      s.done.map Finished.replies = [[echoReply "a"], [echoReply "b"]] ∧
      ¬ Paired echoServer s.done := by
  let sent : RedisCmdBuilder :=
    { runOps (echoOps "a") with cmd := store32 (runOps (echoOps "a")).cmd 12 0 }
  obtain ⟨r, hr, hsent⟩ := exists_ok_of_map
    (x := sendAndGetReply (freshContext [.sent 99, .sent 99] [.chunk [.reply (echoReply "a")],
      .chunk [.reply (echoReply "b")], .failed .timeout]) (runOps (echoOps "a")) (some none))
    (f := Exchanged.builder) (b := sent) (by decide)
  obtain ⟨s, hrun, hobs⟩ := Option.map_eq_some_iff.mp (show
    (List.foldlM Session.step ⟨freshContext [.sent 99, .sent 99] [.chunk [.reply (echoReply "a")],
        .chunk [.reply (echoReply "b")], .failed .timeout], []⟩
      [.single (runOps (echoOps "a")) true, .pipe [sent, runOps (echoOps "b")]]).map
        (fun s => (s.ctx.sock.log, s.done))
      = some ([echoSent "a", .arrived [echoReply "a"], echoSent "b", .arrived [echoReply "b"]],
        [⟨.single (runOps (echoOps "a")) true, redisOk, [echoReply "a"]⟩,
          ⟨.pipe [sent, runOps (echoOps "b")], redisErr, [echoReply "b"]⟩]) from rfl)
  obtain ⟨hlog, hdone⟩ := Prod.mk.inj hobs
  refine ⟨r, s, hr, by rw [hsent]; decide, by rw [hsent]; decide,
    by rw [hsent]; exact run_iff_foldlM.mpr hrun, ?_, by rw [hdone]; rfl, ?_⟩
  · rw [hlog]
    apply honest_of_take
    intro n hn
    have hn : n ≤ 4 := hn
    interval_cases n <;> exact ⟨_, rfl⟩
  · intro hp
    have hb := (hp [_] _ [] hdone 0 (echoReply "b") rfl).2
    exact absurd (RedisReply.string.inj hb) (by decide)

end SeedCore.Redis
