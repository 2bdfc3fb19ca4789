import Mathlib.Data.List.Pairwise
import SeedCore.Lib.Run
import SeedCore.Redis.Builder
import SeedCore.Redis.Hiredis

/-!
# `redisBufferWriteInner`

The write loop of `RedisHelper.cpp`.  The loop keeps its progress in the builder's
own string: the number of bytes still to send is the 32-bit integer in front of the
frame, and `c->obuf` points at the next byte.  After every `send` that did not end
the call, the integer is decreased and the pointer advanced by the returned count,
which is `-1` when the failure was one to retry.

`WriteRun` says once what the loop can do; everything below is an induction on it.

## Main definitions

* `redisBufferWriteInner` — the loop.
* `WriteRun` — its runs, with the `send` outcomes each of them used.
* `sendsFor` — those outcomes, read off the script alone.
* `redisBufferWriteInner_faithful_iff` — when the socket gets exactly the frame.
-/

namespace SeedCore.Redis

/-- The failures after which the loop tries again. -/
def retriable (block : Bool) : Errno → Bool
  | .eintr => true
  | .ewouldblock => !block
  | .other => false

/-- The `n` bytes from offset `p` on, with their offsets. -/
def cells (mem : Bytes) (p n : ℕ) : List Cell := ((mem.drop p).take n).zipIdx p

/-- `send(c->fd, c->obuf, len, 0)`: the returned count, `errno` after a failure, and
the context with the socket moved on. -/
def send (c : RedisContext) (cmd : Bytes) (len : ℤ) :
    Except Stuck (ℤ × Option Errno × RedisContext) :=
  match c.sock.sends with
  | [] => .error .blocked
  | .failed errno :: rest => .ok (-1, some errno, { c with sock.sends := rest })
  | .sent more :: rest =>
      let n := min (more + 1) len.toNat
      if 0 ≤ c.obuf ∧ c.obuf.toNat + n ≤ cmd.length then
        .ok (n, none, { c with
          sock.sends := rest
          sock.log := c.sock.log ++ [.accepted (cells cmd c.obuf.toNat n)] })
      else .error .outOfBounds

/-- `__redisSetErrorInner` -/
def redisSetErrorInner (c : RedisContext) (type : RedisErr) : RedisContext :=
  { c with err := type.code }

/-- The `while (*len > 0)` loop; `lenAt` is the offset of `*len`.  Every iteration
uses up one outcome of the script, which is what `fuel` counts. -/
def writeLoop (lenAt : ℕ) : ℕ → RedisContext → Bytes → Except Stuck (ℤ × RedisContext × Bytes)
  | 0, _, _ => .error .blocked
  | fuel + 1, c, cmd =>
      let len := load32 cmd lenAt
      if 0 < len then do
        let (nwritten, errno, c) ← send c cmd len
        if nwritten < 0 ∧ errno.any (retriable c.block) = false then
          .ok (redisErr, redisSetErrorInner c .io, cmd)
        else if len - nwritten < 2147483648 then
          writeLoop lenAt fuel { c with obuf := c.obuf + nwritten }
            (store32 cmd lenAt (len - nwritten))
        else .error .overflow
      else .ok (redisOk, c, cmd)

/-- `redisBufferWriteInner`, on the string that `c->obuf` points into. -/
def redisBufferWriteInner (c : RedisContext) (cmd : Bytes) :
    Except Stuck (ℤ × RedisContext × Bytes) :=
  if c.err ≠ 0 then .ok (redisErr, c, cmd)
  else writeLoop (c.obuf - 4).toNat (c.sock.sends.length + 1) c cmd

/-! ## Cells -/

theorem cells_add {mem : Bytes} {p m : ℕ} (h : p + m ≤ mem.length) (n : ℕ) :
    cells mem p (m + n) = cells mem p m ++ cells mem (p + m) n := by
  rw [cells, List.take_add, List.zipIdx_append, List.drop_drop, cells, cells,
    List.length_take_of_le (by simp only [List.length_drop]; omega)]

theorem cells_store32 {mem : Bytes} {p q : ℕ} (h : p + 4 ≤ mem.length) (hq : p + 4 ≤ q)
    (v : ℤ) (n : ℕ) : cells (store32 mem p v) q n = cells mem q n := by
  rw [cells, drop_store32 h v hq, cells]

theorem length_cells {mem : Bytes} {p n : ℕ} (h : p + n ≤ mem.length) :
    (cells mem p n).length = n := by
  rw [cells, List.length_zipIdx, List.length_take_of_le]
  simp only [List.length_drop]
  omega

/-- The offsets of the cells run on without gap or repetition from `p`. -/
def RunsFrom (p : ℕ) (l : List Cell) : Prop := ∀ i cell, l[i]? = some cell → cell.2 = p + i

theorem runsFrom_zipIdx (bs : Bytes) (p : ℕ) : RunsFrom p (bs.zipIdx p) := by
  intro i cell h
  rw [List.getElem?_zipIdx, Option.map_eq_some_iff] at h
  obtain ⟨a, -, rfl⟩ := h
  rfl

theorem RunsFrom.of_isPrefix {p : ℕ} {l l' : List Cell} (h : RunsFrom p l') (hp : l <+: l') :
    RunsFrom p l := by
  intro i cell hi
  obtain ⟨t, rfl⟩ := hp
  refine h i cell ?_
  rw [List.getElem?_append_left (List.getElem?_eq_some_iff.mp hi).1]
  exact hi

/-! ## What the loop can do -/

/-- The context after `n` bytes at the send pointer were accepted. -/
def RedisContext.accept (c : RedisContext) (cmd : Bytes) (n : ℕ) (rest : List SendOutcome) :
    RedisContext :=
  { c with
    obuf := c.obuf + n
    sock.sends := rest
    sock.log := c.sock.log ++ [.accepted (cells cmd c.obuf.toNat n)] }

theorem accepted_accept (c : RedisContext) (cmd : Bytes) (n : ℕ) (rest : List SendOutcome) :
    acceptedOf (c.accept cmd n rest).sock.log
      = acceptedOf c.sock.log ++ cells cmd c.obuf.toNat n := by
  simp [RedisContext.accept]

/-- The context after a failure that the loop retries: the pointer goes back by one. -/
def RedisContext.retry (c : RedisContext) (rest : List SendOutcome) : RedisContext :=
  { c with obuf := c.obuf - 1, sock.sends := rest }

/-- The context after a failure that ends the call. -/
def RedisContext.fail (c : RedisContext) (rest : List SendOutcome) : RedisContext :=
  { c with err := RedisErr.io.code, sock.sends := rest }

/-- `WriteRun lenAt c cmd os ret c' cmd'`: from `c` and `cmd` the loop makes one `send`
call for each outcome of `os` and returns `ret`. -/
inductive WriteRun (lenAt : ℕ) :
    RedisContext → Bytes → List SendOutcome → ℤ → RedisContext → Bytes → Prop
  | done {c : RedisContext} {cmd : Bytes} (hlen : load32 cmd lenAt ≤ 0) :
      WriteRun lenAt c cmd [] redisOk c cmd
  | fatal {c : RedisContext} {cmd : Bytes} {e : Errno} {rest : List SendOutcome}
      (hlen : 0 < load32 cmd lenAt) (hsends : c.sock.sends = .failed e :: rest)
      (hfatal : retriable c.block e = false) :
      WriteRun lenAt c cmd [.failed e] redisErr (c.fail rest) cmd
  | retry {c c' : RedisContext} {cmd cmd' : Bytes} {e : Errno} {rest os : List SendOutcome} {ret : ℤ}
      (hlen : 0 < load32 cmd lenAt) (hsends : c.sock.sends = .failed e :: rest)
      (hretry : retriable c.block e = true) (hfits : load32 cmd lenAt + 1 < 2147483648)
      (tail : WriteRun lenAt (c.retry rest) (store32 cmd lenAt (load32 cmd lenAt + 1)) os ret c' cmd') :
      WriteRun lenAt c cmd (.failed e :: os) ret c' cmd'
  | sent {c c' : RedisContext} {cmd cmd' : Bytes} {more n : ℕ} {rest os : List SendOutcome} {ret : ℤ}
      (hlen : 0 < load32 cmd lenAt) (hsends : c.sock.sends = .sent more :: rest)
      (hn : n = min (more + 1) (load32 cmd lenAt).toNat)
      (hlo : 0 ≤ c.obuf) (hhi : c.obuf.toNat + n ≤ cmd.length)
      (tail : WriteRun lenAt (c.accept cmd n rest) (store32 cmd lenAt (load32 cmd lenAt - n))
        os ret c' cmd') :
      WriteRun lenAt c cmd (.sent more :: os) ret c' cmd'

/-- What one `send` call can do. -/
theorem send_cases {c c' : RedisContext} {cmd : Bytes} {len nwritten : ℤ} {errno : Option Errno}
    (h : send c cmd len = .ok (nwritten, errno, c')) :
    (∃ e rest, c.sock.sends = .failed e :: rest ∧ nwritten = -1 ∧ errno = some e ∧
      c' = { c with sock.sends := rest }) ∨
    (∃ more rest, c.sock.sends = .sent more :: rest ∧
      nwritten = (min (more + 1) len.toNat : ℕ) ∧ errno = none ∧ 0 ≤ c.obuf ∧
      c.obuf.toNat + min (more + 1) len.toNat ≤ cmd.length ∧
      { c' with obuf := c'.obuf + nwritten } = c.accept cmd (min (more + 1) len.toNat) rest) := by
  unfold send at h
  split at h
  · cases h
  · next e rest hsends =>
      cases h
      exact .inl ⟨e, rest, hsends, rfl, rfl, rfl⟩
  · next more rest hsends =>
      dsimp only at h
      split at h
      · next hbounds =>
          cases h
          exact .inr ⟨more, rest, hsends, rfl, rfl, hbounds.1, hbounds.2, rfl⟩
      · cases h

/-- Every result of the loop comes from a run. -/
theorem writeRun_of_writeLoop {lenAt fuel : ℕ} {c c' : RedisContext} {cmd cmd' : Bytes} {ret : ℤ}
    (h : writeLoop lenAt fuel c cmd = .ok (ret, c', cmd')) :
    ∃ os, WriteRun lenAt c cmd os ret c' cmd' := by
  induction fuel generalizing c cmd with
  | zero => cases h
  | succ fuel ih =>
      rw [writeLoop] at h
      by_cases hlen : 0 < load32 cmd lenAt
      · rw [if_pos hlen] at h
        obtain ⟨⟨nwritten, errno, c₁⟩, hsend, h⟩ := bind_eq_ok.mp h
        dsimp only at h
        obtain ⟨e, rest, hsends, rfl, rfl, rfl⟩ | ⟨more, rest, hsends, rfl, rfl, hlo, hhi, hc⟩ :=
          send_cases hsend
        · cases hretry : retriable c.block e with
          | true =>
              rw [if_neg (by simp [hretry])] at h
              split at h
              · next hfits =>
                  obtain ⟨os, hos⟩ := ih h
                  exact ⟨_, .retry hlen hsends hretry (by omega) hos⟩
              · cases h
          | false =>
              rw [if_pos (by simp [hretry])] at h
              cases h
              exact ⟨_, .fatal hlen hsends hretry⟩
        · rw [if_neg (by rintro ⟨hneg, -⟩; omega)] at h
          split at h
          · rw [hc] at h
            obtain ⟨os, hos⟩ := ih h
            exact ⟨_, .sent hlen hsends rfl hlo hhi hos⟩
          · cases h
      · rw [if_neg hlen] at h
        cases h
        exact ⟨[], .done (by omega)⟩

/-- A failure that ends the call. -/
def SendOutcome.isFatal (block : Bool) : SendOutcome → Bool
  | .sent _ => false
  | .failed e => !retriable block e

def SendOutcome.isSent : SendOutcome → Bool
  | .sent _ => true
  | .failed _ => false

/-- The outcomes of the `send` calls that a write with `len` bytes to go makes, read
off the script. -/
def sendsFor (block : Bool) (len : ℤ) : List SendOutcome → List SendOutcome
  | [] => []
  | o :: os =>
      if len ≤ 0 then []
      else match o with
        | .sent more => o :: sendsFor block (len - (more + 1)) os
        | .failed e => if retriable block e then o :: sendsFor block (len + 1) os else [o]

theorem sendsFor_of_nonpos {block : Bool} {len : ℤ} (h : len ≤ 0) (os : List SendOutcome) :
    sendsFor block len os = [] := by
  cases os with
  | nil => rfl
  | cons o os => simp [sendsFor, h]

/-- What an outcome takes off the length prefix when it is not cut short: the
accepted bytes, and `-1` for a failure that is retried. -/
def SendOutcome.count (block : Bool) : SendOutcome → ℤ
  | .sent more => more + 1
  | .failed e => if retriable block e then -1 else 0

/-- The accepted bytes less the retried failures. -/
def progress (block : Bool) : List SendOutcome → ℤ
  | [] => 0
  | o :: os => o.count block + progress block os

@[simp] theorem progress_nil (block : Bool) : progress block [] = 0 := rfl
@[simp] theorem progress_cons (block : Bool) (o : SendOutcome) (os : List SendOutcome) :
    progress block (o :: os) = o.count block + progress block os := rfl

/-- Every successful `send` comes before the first failed one. -/
def SentFirst (os : List SendOutcome) : Prop :=
  os.Pairwise fun o o' => o.isSent = false → o'.isSent = false

namespace WriteRun

variable {lenAt : ℕ} {c c' : RedisContext} {cmd cmd' : Bytes} {os : List SendOutcome} {ret : ℤ}

/-- The context keeps its identity, flags, reader and replies. -/
theorem ctx_eq (h : WriteRun lenAt c cmd os ret c' cmd') :
    c'.id = c.id ∧ c'.block = c.block ∧ c'.reader = c.reader ∧ c'.sock.reads = c.sock.reads ∧
      arrivedOf c'.sock.log = arrivedOf c.sock.log := by
  induction h with
  | done => exact ⟨rfl, rfl, rfl, rfl, rfl⟩
  | fatal => exact ⟨rfl, rfl, rfl, rfl, rfl⟩
  | retry _ _ _ _ _ ih => exact ih
  | sent _ _ _ _ _ _ ih => simpa [RedisContext.accept] using ih

theorem sends_eq (h : WriteRun lenAt c cmd os ret c' cmd') :
    c.sock.sends = os ++ c'.sock.sends := by
  induction h with
  | done => rfl
  | fatal _ hsends => exact hsends
  | retry _ hsends _ _ _ ih => rw [hsends, List.cons_append, ← ih]; rfl
  | sent _ hsends _ _ _ _ ih => rw [hsends, List.cons_append, ← ih]; rfl

/-- The call fails exactly by a fatal outcome, and then leaves `REDIS_ERR_IO`. -/
theorem ret_cases (h : WriteRun lenAt c cmd os ret c' cmd') :
    (ret = redisOk ∧ c'.err = c.err ∧ ∀ o ∈ os, o.isFatal c.block = false) ∨
      (ret = redisErr ∧ c'.err = RedisErr.io.code ∧ ∃ o ∈ os, o.isFatal c.block = true) := by
  induction h with
  | done => exact .inl ⟨rfl, rfl, by simp⟩
  | fatal _ _ hfatal =>
      exact .inr ⟨rfl, rfl, _, List.mem_singleton_self _, by simp [SendOutcome.isFatal, hfatal]⟩
  | retry _ _ hretry _ _ ih =>
      obtain ⟨hret, herr, hos⟩ | ⟨hret, herr, o, ho, hfatal⟩ := ih
      · exact .inl ⟨hret, herr, List.forall_mem_cons.mpr
          ⟨by simp [SendOutcome.isFatal, hretry], hos⟩⟩
      · exact .inr ⟨hret, herr, o, List.mem_cons_of_mem _ ho, hfatal⟩
  | sent _ _ _ _ _ _ ih =>
      obtain ⟨hret, herr, hos⟩ | ⟨hret, herr, o, ho, hfatal⟩ := ih
      · exact .inl ⟨hret, herr, List.forall_mem_cons.mpr ⟨rfl, hos⟩⟩
      · exact .inr ⟨hret, herr, o, List.mem_cons_of_mem _ ho, hfatal⟩

section Memory

variable (hmem : lenAt + 4 ≤ cmd.length)
include hmem

/-- The loop writes nothing but the length prefix. -/
theorem cmd_eq (h : WriteRun lenAt c cmd os ret c' cmd') :
    cmd' = store32 cmd lenAt (load32 cmd' lenAt) := by
  induction h with
  | done => exact (store32_load32 hmem).symm
  | fatal => exact (store32_load32 hmem).symm
  | retry _ _ _ _ _ ih =>
      have := ih (by rwa [length_store32 hmem])
      rwa [store32_store32 hmem] at this
  | sent _ _ _ _ _ _ ih =>
      have := ih (by rwa [length_store32 hmem])
      rwa [store32_store32 hmem] at this

/-- The prefix after a retried failure. -/
private theorem load_retry (hlen : 0 < load32 cmd lenAt)
    (hfits : load32 cmd lenAt + 1 < 2147483648) :
    load32 (store32 cmd lenAt (load32 cmd lenAt + 1)) lenAt = load32 cmd lenAt + 1 :=
  load32_store32_of_lt hmem (by omega) hfits

/-- The prefix after `n` of the offered bytes were accepted. -/
private theorem load_sent {n : ℕ} (hn : (n : ℤ) ≤ load32 cmd lenAt) :
    load32 (store32 cmd lenAt (load32 cmd lenAt - n)) lenAt = load32 cmd lenAt - n :=
  load32_store32_of_lt hmem (by omega) (by have := load32_lt cmd lenAt; omega)

/-- The loop makes one `send` call for each outcome of its share of the script. -/
theorem os_eq (h : WriteRun lenAt c cmd os ret c' cmd') :
    os = sendsFor c.block (load32 cmd lenAt) c.sock.sends := by
  induction h with
  | done hlen => rw [sendsFor_of_nonpos hlen]
  | fatal hlen hsends hfatal =>
      rw [hsends, sendsFor, if_neg (by omega)]
      simp [hfatal]
  | retry hlen hsends hretry hfits _ ih =>
      have hos := ih (by rwa [length_store32 hmem])
      rw [load_retry hmem hlen hfits] at hos
      rw [hsends, sendsFor, if_neg (by omega), hos]
      simp [hretry, RedisContext.retry]
  | @sent c _ cmd _ more n rest _ _ hlen hsends hn hlo hhi _ ih =>
      have hos := ih (by rwa [length_store32 hmem])
      rw [load_sent hmem (by omega)] at hos
      rw [hsends, sendsFor, if_neg (by omega), hos]
      -- a count that was cut short ends both sides
      by_cases hcut : (more : ℤ) + 1 ≤ load32 cmd lenAt
      · have hn' : (n : ℤ) = more + 1 := by omega
        rw [hn']
        rfl
      · rw [sendsFor_of_nonpos (by omega), sendsFor_of_nonpos (by omega)]

/-- The prefix moves by the progress made, unless the last count was cut short. -/
theorem load_cases (h : WriteRun lenAt c cmd os ret c' cmd') :
    load32 cmd' lenAt = load32 cmd lenAt - progress c.block os ∨
      (load32 cmd' lenAt = 0 ∧ 0 < load32 cmd lenAt ∧ load32 cmd lenAt ≤ progress c.block os) := by
  induction h with
  | done => exact .inl (by simp)
  | fatal _ _ hfatal => exact .inl (by simp [SendOutcome.count, hfatal])
  | retry hlen _ hretry hfits _ ih =>
      have hload := ih (by rwa [length_store32 hmem])
      rw [load_retry hmem hlen hfits] at hload
      simp only [RedisContext.retry] at hload
      simp only [progress_cons, SendOutcome.count, hretry, if_true]
      omega
  | @sent c _ cmd _ more n _ os _ hlen _ hn _ _ tail ih =>
      have hmem' : lenAt + 4 ≤ (store32 cmd lenAt (load32 cmd lenAt - n)).length := by
        rwa [length_store32 hmem]
      have hload := ih hmem'
      rw [load_sent hmem (by omega)] at hload
      simp only [RedisContext.accept] at hload
      simp only [progress_cons, SendOutcome.count]
      by_cases hcut : (more : ℤ) + 1 ≤ load32 cmd lenAt
      · omega
      · have hos := tail.os_eq hmem'
        rw [load_sent hmem (by omega), sendsFor_of_nonpos (by omega)] at hos
        simp only [hos, progress_nil] at hload ⊢
        omega

/-- **The length prefix survives a write exactly when there was no net progress.** -/
theorem load_eq_iff (h : WriteRun lenAt c cmd os ret c' cmd') :
    load32 cmd' lenAt = load32 cmd lenAt ↔ progress c.block os = 0 := by
  have := h.load_cases hmem
  omega

end Memory

/-! ### What the socket got -/

/-- The log only grows. -/
theorem log_grows (h : WriteRun lenAt c cmd os ret c' cmd') : c.sock.log <+: c'.sock.log := by
  induction h with
  | done => exact List.prefix_rfl
  | fatal => exact List.prefix_rfl
  | retry _ _ _ _ _ ih => exact ih
  | sent _ _ _ _ _ _ ih => exact (List.prefix_append _ _).trans ih

theorem accepted_grows (h : WriteRun lenAt c cmd os ret c' cmd') :
    ∃ new, acceptedOf c'.sock.log = acceptedOf c.sock.log ++ new := by
  obtain ⟨events, hevents⟩ := h.log_grows
  exact ⟨acceptedOf events, by rw [← hevents, acceptedOf_append]⟩

/-- Without a successful `send` nothing is accepted, and the call cannot succeed. -/
theorem of_none_sent (h : WriteRun lenAt c cmd os ret c' cmd') (hos : ∀ o ∈ os, o.isSent = false)
    (hmem : lenAt + 4 ≤ cmd.length) :
    acceptedOf c'.sock.log = acceptedOf c.sock.log ∧ (0 < load32 cmd lenAt → ret = redisErr) := by
  induction h with
  | done hlen => exact ⟨rfl, fun h => absurd h (by omega)⟩
  | fatal => exact ⟨rfl, fun _ => rfl⟩
  | retry hlen _ _ hfits _ ih =>
      obtain ⟨hacc, hret⟩ := ih (fun o ho => hos o (List.mem_cons_of_mem _ ho))
        (by rwa [length_store32 hmem])
      rw [load_retry hmem hlen hfits] at hret
      exact ⟨hacc, fun _ => hret (by omega)⟩
  | sent => simp [SendOutcome.isSent] at hos

/-- The first accepted byte never comes from beyond the send pointer. -/
theorem first_cell (h : WriteRun lenAt c cmd os ret c' cmd') (hos : ∃ o ∈ os, o.isSent = true) :
    ∃ cell rest, acceptedOf c'.sock.log = acceptedOf c.sock.log ++ cell :: rest ∧
      (cell.2 : ℤ) ≤ c.obuf := by
  induction h with
  | done => simp at hos
  | fatal => simp [SendOutcome.isSent] at hos
  | retry _ _ _ _ _ ih =>
      obtain ⟨cell, rest, hacc, hle⟩ := ih (by simpa [SendOutcome.isSent] using hos)
      refine ⟨cell, rest, hacc, ?_⟩
      simp only [RedisContext.retry] at hle
      omega
  | @sent c _ cmd _ more n rest _ _ hlen _ hn hlo hhi tail _ =>
      obtain ⟨new, hnew⟩ := tail.accepted_grows
      obtain ⟨m, hm⟩ : ∃ m, n = m + 1 := ⟨n - 1, by omega⟩
      have hlt : c.obuf.toNat < cmd.length := by omega
      rw [accepted_accept, hm, cells, List.drop_eq_getElem_cons hlt, List.take_succ_cons,
        List.zipIdx_cons, List.append_assoc, List.cons_append] at hnew
      exact ⟨_, _, hnew, Int.le_of_eq (Int.toNat_of_nonneg hlo)⟩

/-- When no `send` succeeds after one has failed, the socket takes the bytes at the
send pointer in order, and all of them if the call succeeds. -/
theorem accepted_of_sentFirst (h : WriteRun lenAt c cmd os ret c' cmd') (hs : SentFirst os)
    {p : ℕ} (hobuf : c.obuf = p) (hp : lenAt + 4 ≤ p) (hmem : lenAt + 4 ≤ cmd.length) :
    ∃ a : ℕ, acceptedOf c'.sock.log = acceptedOf c.sock.log ++ cells cmd p a ∧
      a ≤ (load32 cmd lenAt).toNat ∧ (ret = redisOk → a = (load32 cmd lenAt).toNat) := by
  induction h generalizing p with
  | done hlen => exact ⟨0, by simp [cells], by omega, fun _ => by omega⟩
  | fatal => exact ⟨0, by simp [cells, RedisContext.fail], by omega, fun h => by cases h⟩
  | retry hlen hsends hretry hfits tail _ =>
      have hnone := (List.pairwise_cons.mp hs).1
      obtain ⟨hacc, hret⟩ := (WriteRun.retry hlen hsends hretry hfits tail).of_none_sent
        (List.forall_mem_cons.mpr ⟨rfl, fun o ho => hnone o ho rfl⟩) hmem
      refine ⟨0, by simpa [cells] using hacc, by omega, ?_⟩
      intro hok
      rw [hok] at hret
      exact absurd (hret hlen) (by decide)
  | @sent c _ cmd _ more n rest _ _ hlen _ hn hlo hhi _ ih =>
      have hload := load_sent (n := n) hmem (by omega)
      obtain ⟨a, hacc, hle, hok⟩ := ih (List.pairwise_cons.mp hs).2 (p := p + n)
        (by simp [RedisContext.accept, hobuf]) (by omega) (by rwa [length_store32 hmem])
      rw [hload] at hle hok
      have hpn : c.obuf.toNat = p := by omega
      refine ⟨n + a, ?_, by omega, fun h => by have := hok h; omega⟩
      rw [hacc, accepted_accept, cells_store32 hmem (by omega), hpn, List.append_assoc,
        cells_add (by omega)]

/-- If the accepted bytes run on from the send pointer, then no `send` succeeded
after one had failed: a retried failure moves the pointer back. -/
theorem sentFirst_of_runsFrom (h : WriteRun lenAt c cmd os ret c' cmd') {p : ℕ}
    (hobuf : c.obuf = p) {new : List Cell}
    (hnew : acceptedOf c'.sock.log = acceptedOf c.sock.log ++ new) (hruns : RunsFrom p new) :
    SentFirst os := by
  induction h generalizing p new with
  | done => exact List.Pairwise.nil
  | fatal => exact List.pairwise_singleton _ _
  | @retry _ _ _ _ _ _ os _ _ _ _ _ tail _ =>
      by_cases hany : ∃ o ∈ os, o.isSent = true
      · obtain ⟨cell, rest, hcell, hle⟩ := tail.first_cell hany
        have heq : new = cell :: rest := List.append_cancel_left (hnew.symm.trans hcell)
        have := hruns 0 cell (by rw [heq]; rfl)
        simp only [RedisContext.retry] at hle
        omega
      · have hnone : ∀ o ∈ os, o.isSent = false := by simpa using hany
        exact List.pairwise_cons.mpr ⟨fun o ho _ => hnone o ho,
          List.pairwise_of_forall_mem_list fun _ _ o' ho' _ => hnone o' ho'⟩
  | @sent c _ cmd _ more n rest _ _ hlen _ hn hlo hhi tail ih =>
      obtain ⟨new', hnew'⟩ := tail.accepted_grows
      have hpn : c.obuf.toNat = p := by omega
      have heq : new = cells cmd p n ++ new' := by
        rw [accepted_accept, hpn, List.append_assoc] at hnew'
        exact List.append_cancel_left (hnew.symm.trans hnew')
      have htail : RunsFrom (p + n) new' := ?_
      · exact List.pairwise_cons.mpr ⟨fun _ _ h => (Bool.noConfusion h : False).elim,
          ih (by simp [RedisContext.accept, hobuf]) hnew' htail⟩
      intro i cell hi
      have hlen : (cells cmd p n).length = n := length_cells (by omega)
      have := hruns (n + i) cell (by
        rw [heq, List.getElem?_append_right (by omega), hlen, Nat.add_sub_cancel_left, hi])
      omega

end WriteRun

/-! ## A whole write -/

/-- Every result of `redisBufferWriteInner` on a context without error is a run of
the loop over the script's share. -/
theorem writeRun_of_write {c c' : RedisContext} {cmd cmd' : Bytes} {ret : ℤ} {p : ℕ}
    (hobuf : c.obuf = p) (h4 : 4 ≤ p) (hp : p ≤ cmd.length) (herr : c.err = 0)
    (h : redisBufferWriteInner c cmd = .ok (ret, c', cmd')) :
    WriteRun (p - 4) c cmd (sendsFor c.block (load32 cmd (p - 4)) c.sock.sends) ret c' cmd' := by
  rw [redisBufferWriteInner, if_neg (by simpa using herr)] at h
  have hlenAt : (c.obuf - 4).toNat = p - 4 := by omega
  rw [hlenAt] at h
  obtain ⟨os, hrun⟩ := writeRun_of_writeLoop h
  rwa [← hrun.os_eq (by omega)]

theorem Framed.seek_le {b : RedisCmdBuilder} {args : List Arg} (F : Framed b args) :
    b.seek + (frame args).length ≤ b.cmd.length := by
  obtain ⟨tail, htail⟩ := F.sendBuff_eq
  have hpos : 0 < (frame args).length := by simp [frame, header]
  have := congrArg List.length htail
  simp only [RedisCmdBuilder.getSendBuff, List.length_drop, List.length_append] at this
  omega

/-- The cells of the frame are its bytes, from the send pointer on. -/
theorem Framed.cells_eq {b : RedisCmdBuilder} {args : List Arg} (F : Framed b args) :
    cells b.cmd b.seek (frame args).length = (frame args).zipIdx b.seek := by
  obtain ⟨tail, htail⟩ := F.sendBuff_eq
  rw [RedisCmdBuilder.getSendBuff] at htail
  rw [cells, htail, List.take_left' rfl]

/-- What a write owes its caller.  `REDIS_OK` means that the socket accepted the bytes
of the frame, each once and in order; `REDIS_ERR` that it accepted a prefix of them,
and that the context says so. -/
def FaithfulWrite (b : RedisCmdBuilder) (args : List Arg) (c : RedisContext) (ret : ℤ)
    (c' : RedisContext) : Prop :=
  (ret = redisOk →
    acceptedOf c'.sock.log = acceptedOf c.sock.log ++ (frame args).zipIdx b.seek) ∧
  (ret = redisErr → c'.err = RedisErr.io.code ∧ ∃ part, part <+: (frame args).zipIdx b.seek ∧
    acceptedOf c'.sock.log = acceptedOf c.sock.log ++ part)

theorem toInt32_natCast_le (n : ℕ) : toInt32 n ≤ n := by
  rw [toInt32_eq]
  omega

section Faithful

variable {b : RedisCmdBuilder} {args : List Arg} (F : Framed b args) {c c' : RedisContext}
  {cmd' : Bytes} {ret : ℤ} (herr : c.err = 0)
  (h : redisBufferWriteInner { c with obuf := b.seek } b.cmd = .ok (ret, c', cmd'))
include F herr h

theorem Framed.writeRun :
    WriteRun (b.seek - 4) { c with obuf := b.seek } b.cmd
      (sendsFor c.block b.sendLen c.sock.sends) ret c' cmd' := by
  have hseek := F.seek_le
  exact writeRun_of_write (c := { c with obuf := b.seek }) rfl F.four_le_seek (by omega) herr h

/-- When no `send` succeeds after one has failed, the socket takes the frame from its
first byte on, and as many bytes as were announced if the call succeeds. -/
theorem Framed.accepted_of_sentFirst
    (hsent : SentFirst (sendsFor c.block b.sendLen c.sock.sends)) :
    ∃ a : ℕ, acceptedOf c'.sock.log = acceptedOf c.sock.log ++ cells b.cmd b.seek a ∧
      a ≤ (frame args).length ∧ (ret = redisOk → a = (toInt32 (frame args).length).toNat) := by
  have h4 := F.four_le_seek
  have hseek := F.seek_le
  have hload : load32 b.cmd (b.seek - 4) = toInt32 (frame args).length := F.sendLen_eq
  have hle := toInt32_natCast_le (frame args).length
  obtain ⟨a, hacc, hale, ha⟩ :=
    (F.writeRun herr h).accepted_of_sentFirst hsent rfl (by omega) (by omega)
  rw [hload] at hale ha
  exact ⟨a, hacc, by omega, ha⟩

theorem Framed.sentFirst_of_faithful (hfaith : FaithfulWrite b args c ret c') :
    SentFirst (sendsFor c.block b.sendLen c.sock.sends) ∧
      ((frame args).length < 2147483648 ∨
        ∃ o ∈ sendsFor c.block b.sendLen c.sock.sends, o.isFatal c.block = true) := by
  obtain ⟨hok, hfail⟩ := hfaith
  have hrun := F.writeRun herr h
  obtain ⟨hret, -, -⟩ | ⟨hret, -, hfatal⟩ := hrun.ret_cases
  · have hacc := hok hret
    have hsent := hrun.sentFirst_of_runsFrom rfl hacc (runsFrom_zipIdx _ _)
    obtain ⟨a, hacc', hale, ha⟩ := F.accepted_of_sentFirst herr h hsent
    have hlen := congrArg List.length (List.append_cancel_left (hacc.symm.trans hacc'))
    have hseek := F.seek_le
    have hlt := toInt32_lt (frame args).length
    rw [List.length_zipIdx, length_cells (by omega)] at hlen
    exact ⟨hsent, .inl (by have := ha hret; omega)⟩
  · obtain ⟨-, part, hpart, hacc⟩ := hfail hret
    exact ⟨hrun.sentFirst_of_runsFrom rfl hacc ((runsFrom_zipIdx _ _).of_isPrefix hpart),
      .inr hfatal⟩

theorem Framed.faithful_of_sentFirst
    (hsent : SentFirst (sendsFor c.block b.sendLen c.sock.sends))
    (hsize : (frame args).length < 2147483648 ∨
      ∃ o ∈ sendsFor c.block b.sendLen c.sock.sends, o.isFatal c.block = true) :
    FaithfulWrite b args c ret c' := by
  have hseek := F.seek_le
  obtain ⟨a, hacc, hale, ha⟩ := F.accepted_of_sentFirst herr h hsent
  obtain ⟨rfl, -, hnone⟩ | ⟨rfl, herr', -⟩ := (F.writeRun herr h).ret_cases
  · refine ⟨fun _ => ?_, fun hret => absurd hret redisOk_ne_redisErr⟩
    have hlt : (frame args).length < 2147483648 := by
      refine hsize.resolve_right ?_
      rintro ⟨o, ho, hfatal⟩
      rw [hnone o ho] at hfatal
      cases hfatal
    have hlen : a = (frame args).length := by
      have := ha rfl
      rw [toInt32_natCast hlt] at this
      omega
    rw [hacc, hlen, F.cells_eq]
  · refine ⟨fun hret => absurd hret redisErr_ne_redisOk, fun _ => ⟨herr', _, ?_, hacc⟩⟩
    have hsplit : (frame args).length = a + ((frame args).length - a) := by omega
    rw [← F.cells_eq, hsplit, cells_add (by omega)]
    exact List.prefix_append _ _

/-- **When a write is faithful.**  The loop steps back over a byte at every failure it
retries, so it is faithful exactly when no `send` succeeds after one has failed, and,
unless a fatal failure ends it, the frame is below `2 ^ 31` bytes. -/
theorem Framed.faithfulWrite_iff :
    FaithfulWrite b args c ret c' ↔
      SentFirst (sendsFor c.block b.sendLen c.sock.sends) ∧
        ((frame args).length < 2147483648 ∨
          ∃ o ∈ sendsFor c.block b.sendLen c.sock.sends, o.isFatal c.block = true) := by
  constructor
  · intro hfaith
    exact F.sentFirst_of_faithful herr h hfaith
  · rintro ⟨hsent, hsize⟩
    exact F.faithful_of_sentFirst herr h hsent hsize

end Faithful

/-- **Partial writes.**  For every committed builder and every behaviour of the
socket on which the call returns, the write is faithful exactly when no `send`
succeeds after one has failed and the frame, unless a fatal failure ends the call, is
below `2 ^ 31` bytes. -/
theorem redisBufferWriteInner_faithful_iff (ops : List BuilderOp)
    (hc : (runOps ops).isCommit = true) {c c' : RedisContext} {cmd' : Bytes} {ret : ℤ}
    (herr : c.err = 0)
    (h : redisBufferWriteInner { c with obuf := (runOps ops).seek } (runOps ops).cmd
      = .ok (ret, c', cmd')) :
    FaithfulWrite (runOps ops) (committedArgs ops) c ret c' ↔
      SentFirst (sendsFor c.block (runOps ops).sendLen c.sock.sends) ∧
        ((frame (committedArgs ops)).length < 2147483648 ∨
          ∃ o ∈ sendsFor c.block (runOps ops).sendLen c.sock.sends, o.isFatal c.block = true) :=
  (framed_run ops hc).faithfulWrite_iff herr h

/-- A committed `PING`. -/
def pingOps : List BuilderOp := [.put (.cstr (ascii "PING")), .commit]

/-- A fresh blocking context with the given outcomes to come. -/
def freshContext (sends : List SendOutcome) (reads : List ReadOutcome) : RedisContext :=
  { sock := { sends := sends, reads := reads } }

/-- Three short writes, then the rest. -/
theorem redisBufferWriteInner_faithful_ping :
    ∃ ret c' cmd',
      redisBufferWriteInner
        { freshContext [.sent 0, .sent 3, .sent 1, .sent 99] [] with obuf := (runOps pingOps).seek }
        (runOps pingOps).cmd = .ok (ret, c', cmd') ∧
      FaithfulWrite (runOps pingOps) (committedArgs pingOps)
        (freshContext [.sent 0, .sent 3, .sent 1, .sent 99] []) ret c' := by
  obtain ⟨⟨ret, c', cmd'⟩, h, -⟩ := exists_ok_of_map
    (x := redisBufferWriteInner
      { freshContext [.sent 0, .sent 3, .sent 1, .sent 99] [] with obuf := (runOps pingOps).seek }
      (runOps pingOps).cmd) (f := Prod.fst) (b := redisOk) (by decide)
  refine ⟨ret, c', cmd', h,
    (redisBufferWriteInner_faithful_iff pingOps (by decide) rfl h).mpr ⟨?_, .inl (by decide)⟩⟩
  unfold SentFirst
  decide

/-- One `EINTR` before anything was written: the call reports success, and the server
gets the last byte of the length prefix in front of the command. -/
theorem redisBufferWriteInner_eintr_prepends :
    ∃ c' cmd',
      redisBufferWriteInner
        { freshContext [.failed .eintr, .sent 99] [] with obuf := (runOps pingOps).seek }
        (runOps pingOps).cmd = .ok (redisOk, c', cmd') ∧
      (acceptedOf c'.sock.log).map Prod.fst = 0 :: frame (committedArgs pingOps) ∧
      ¬ FaithfulWrite (runOps pingOps) (committedArgs pingOps)
        (freshContext [.failed .eintr, .sent 99] []) redisOk c' := by
  obtain ⟨⟨ret, c', cmd'⟩, h, hobs⟩ := exists_ok_of_map
    (x := redisBufferWriteInner
      { freshContext [.failed .eintr, .sent 99] [] with obuf := (runOps pingOps).seek }
      (runOps pingOps).cmd)
    (f := fun r => (r.1, (acceptedOf r.2.1.sock.log).map Prod.fst))
    (b := (redisOk, 0 :: frame (committedArgs pingOps))) (by decide)
  obtain ⟨rfl, hbytes⟩ := Prod.mk.inj hobs
  refine ⟨c', cmd', h, hbytes, ?_⟩
  intro hfaith
  have := congrArg (List.map Prod.fst) (hfaith.1 rfl)
  rw [hbytes, List.map_append, List.zipIdx_map_fst] at this
  exact absurd this (by decide)

end SeedCore.Redis
