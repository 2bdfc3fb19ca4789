import SeedCore.Lib.Bytes

/-!
# The network seen through hiredis

What the repository uses of hiredis and of the socket below it, driven by scripts.
A context carries the outcomes that its future `send` calls and reads will have, in
order, so a theorem about every context is a theorem about every behaviour of the
network.  When a script runs out the call has not returned, which is `Stuck.blocked`
and no result.

Everything that crosses the socket is logged: each accepted byte with the address it
was read from, and each reply that arrived.

## Main definitions

* `RedisReply`, `RedisContext`, `Socket` — the data.
* `redisBufferRead`, `redisGetReplyFromReader` — the two calls into hiredis.
-/

namespace SeedCore.Redis

/-- `REDIS_OK` -/
def redisOk : ℤ := 0
/-- `REDIS_ERR` -/
def redisErr : ℤ := -1

theorem redisOk_ne_redisErr : redisOk ≠ redisErr := by decide
theorem redisErr_ne_redisOk : redisErr ≠ redisOk := redisOk_ne_redisErr.symm

/-- The values of `redisContext::err` other than zero. -/
inductive RedisErr
  | io | other | eof | protocol | oom | timeout
  deriving DecidableEq, Repr

/-- `REDIS_ERR_IO` and its siblings, from `read.h`. -/
def RedisErr.code : RedisErr → ℤ
  | .io => 1
  | .other => 2
  | .eof => 3
  | .protocol => 4
  | .oom => 5
  | .timeout => 6

theorem RedisErr.code_ne_zero (e : RedisErr) : e.code ≠ 0 := by cases e <;> decide

/-- A `redisReply`, by its `type`.  `other` stands for the types that no function of
the repository looks at. -/
inductive RedisReply
  | string (str : Bytes)
  | array (element : List RedisReply)
  | integer (integer : ℤ)
  | nil
  | status (str : Bytes)
  | error (str : Bytes)
  | double (str : Bytes)
  | other (type : ℕ)
  deriving Repr, Inhabited

/-- `type == REDIS_REPLY_ERROR` -/
def RedisReply.isError : RedisReply → Bool
  | .error _ => true
  | _ => false

/-- Why a modelled call has no result. -/
inductive Stuck
  /-- It waits for a network outcome that the script does not hold. -/
  | blocked
  /-- It reads outside the object it was given. -/
  | outOfBounds
  /-- A signed integer leaves its range. -/
  | overflow
  /-- It takes a remainder by zero. -/
  | divByZero
  deriving DecidableEq, Repr

/-- `errno` after a failed `send`, as far as it is looked at. -/
inductive Errno
  | eintr | ewouldblock | other
  deriving DecidableEq, Repr

/-- The outcome of one `send` call. -/
inductive SendOutcome
  /-- The socket takes `more + 1` bytes, or all that it is offered if that is less. -/
  | sent (more : ℕ)
  /-- `-1`, with `errno`. -/
  | failed (errno : Errno)
  deriving DecidableEq, Repr

/-- What the protocol reader finds next in the bytes it was fed. -/
inductive ReadItem
  | reply (r : RedisReply)
  | malformed (e : RedisErr)
  deriving Repr

/-- The outcome of one read from the socket.  A chunk may complete any number of
replies, none included. -/
inductive ReadOutcome
  | chunk (items : List ReadItem)
  | failed (e : RedisErr)
  deriving Repr

/-- A byte that the socket accepted, and the offset it was read from. -/
abbrev Cell := UInt8 × ℕ

/-- What crosses the socket. -/
inductive NetEvent
  | accepted (cells : List Cell)
  | arrived (replies : List RedisReply)
  deriving Repr

/-- A socket: the outcomes still to come, and what has happened. -/
structure Socket where
  sends : List SendOutcome
  reads : List ReadOutcome
  log : List NetEvent := []

/-- The bytes an event carries to the server. -/
def NetEvent.cells : NetEvent → List Cell
  | .accepted cells => cells
  | .arrived _ => []

/-- The replies an event carries to the client. -/
def NetEvent.replies : NetEvent → List RedisReply
  | .accepted _ => []
  | .arrived replies => replies

/-- Every byte the socket accepted, in order. -/
def acceptedOf (log : List NetEvent) : List Cell := log.flatMap NetEvent.cells

/-- Every reply that arrived, in order. -/
def arrivedOf (log : List NetEvent) : List RedisReply := log.flatMap NetEvent.replies

@[simp] theorem acceptedOf_append (l l' : List NetEvent) :
    acceptedOf (l ++ l') = acceptedOf l ++ acceptedOf l' := List.flatMap_append
@[simp] theorem arrivedOf_append (l l' : List NetEvent) :
    arrivedOf (l ++ l') = arrivedOf l ++ arrivedOf l' := List.flatMap_append
@[simp] theorem acceptedOf_accepted (cells : List Cell) :
    acceptedOf [.accepted cells] = cells := List.append_nil cells
@[simp] theorem acceptedOf_arrived (rs : List RedisReply) : acceptedOf [.arrived rs] = [] := rfl
@[simp] theorem arrivedOf_accepted (cells : List Cell) : arrivedOf [.accepted cells] = [] := rfl
@[simp] theorem arrivedOf_arrived (rs : List RedisReply) :
    arrivedOf [.arrived rs] = rs := List.append_nil rs

/-- A `redisContext`.  `id` is the pointer's identity and `obuf` an offset into the
string of the builder that is being sent. -/
structure RedisContext where
  id : ℕ := 0
  err : ℤ := 0
  block : Bool := true
  obuf : ℤ := 0
  reader : List ReadItem := []
  sock : Socket

/-- The replies among the items of a chunk. -/
def repliesOf (items : List ReadItem) : List RedisReply :=
  items.filterMap fun
    | .reply r => some r
    | .malformed _ => none

/-- `redisBufferRead`: feed one chunk to the reader. -/
def redisBufferRead (c : RedisContext) : Except Stuck (ℤ × RedisContext) :=
  if c.err ≠ 0 then .ok (redisErr, c)
  else match c.sock.reads with
    | [] => .error .blocked
    | .failed e :: rest => .ok (redisErr, { c with err := e.code, sock.reads := rest })
    | .chunk items :: rest =>
        .ok (redisOk, { c with
          reader := c.reader ++ items
          sock.reads := rest
          sock.log := c.sock.log ++ [.arrived (repliesOf items)] })

/-- `redisGetReplyFromReader`: the next complete reply, or null. -/
def redisGetReplyFromReader (c : RedisContext) : ℤ × Option RedisReply × RedisContext :=
  if c.err ≠ 0 then (redisErr, none, c)
  else match c.reader with
    | [] => (redisOk, none, c)
    | .reply r :: rest => (redisOk, some r, { c with reader := rest })
    | .malformed e :: rest => (redisErr, none, { c with err := e.code, reader := rest })

/-- Both calls return `REDIS_ERR` exactly when they leave `err` set. -/
theorem redisBufferRead_err_iff {c c' : RedisContext} {ret : ℤ}
    (h : redisBufferRead c = .ok (ret, c')) : ret = redisErr ↔ c'.err ≠ 0 := by
  unfold redisBufferRead at h
  split at h
  · next hc =>
      obtain ⟨rfl, rfl⟩ := Prod.mk.inj (Except.ok.inj h)
      simpa using hc
  · next hc =>
      split at h
      · cases h
      · next e rest _ =>
          obtain ⟨rfl, rfl⟩ := Prod.mk.inj (Except.ok.inj h)
          simpa using e.code_ne_zero
      · obtain ⟨rfl, rfl⟩ := Prod.mk.inj (Except.ok.inj h)
        simpa [redisOk, redisErr] using hc

theorem redisGetReplyFromReader_err_iff (c : RedisContext) :
    (redisGetReplyFromReader c).1 = redisErr ↔ (redisGetReplyFromReader c).2.2.err ≠ 0 := by
  unfold redisGetReplyFromReader
  split
  · next hc => simpa using hc
  · next hc =>
      split
      · simpa [redisOk, redisErr] using hc
      · simpa [redisOk, redisErr] using hc
      · next e rest _ => simpa using e.code_ne_zero

end SeedCore.Redis
