import Mathlib.Data.List.Basic
import SeedCore.Lib.Resp

/-!
# `RedisCmdBuilder`

The command builder of `RedisHelper.h`.  A default-constructed builder owns a
string that starts with a hole of `headContentBuff` bytes.  `operator <<` appends
one bulk string per argument behind the hole; `Commit` writes the array header
backwards into the hole, so that it ends where the arguments begin, and in front
of the header a 32-bit integer with the number of bytes to send.  Nothing is moved:
the unused part of the hole stays in front, and `GetSendBuff` points past it.

Lengths and counts go through `%d`, hence through a signed 32-bit integer.  The
model keeps that conversion, so it says what is written for every argument; below
`2 ^ 31` bytes the frame is the RESP command (`frame_eq_command`).

## Main definitions

* `RedisCmdBuilder`, `put`, `commit`, `getSendBuff` — the class.
* `frame args` — the bytes a committed builder announces for sending.
* `Framed b args` — what `Commit` leaves behind.
* `framed_run` — every committed builder is framed, whatever calls led to it.
* `committed_frame_roundtrip` — a decoder reads the arguments back.
-/

namespace SeedCore.Redis

/-- Size of the hole in front of the arguments, `HEAD_CONTENT_BUFF`. -/
def headContentBuff : ℕ := 20

/-- `SafeSprintf` into a buffer of `size` bytes: `vsnprintf` keeps one byte for the
terminating NUL and drops what does not fit. -/
def safeSprintf (size : ℕ) (text : Bytes) : Bytes := text.take (size - 1)

/-- The argument of one `operator <<` call, by overload. -/
inductive Arg
  /-- `const std::string &` -/
  | str (val : Bytes)
  /-- `const char *` -/
  | cstr (val : Bytes)
  /-- `const StrView &` -/
  | view (val : Bytes)
  /-- The template overload, which goes through `std::to_string`. -/
  | num (val : ℤ)
  deriving DecidableEq, Repr

/-- The fields of `RedisCmdBuilder`, with their initial values. -/
structure RedisCmdBuilder where
  count : ℕ := 0
  committed : Bool := false
  cmd : Bytes := List.replicate headContentBuff 0
  seek : ℕ := 0
  deriving DecidableEq, Repr

namespace RedisCmdBuilder

/-- The common body of the overloads: the length line, the bytes, CR and LF. -/
def putBulk (b : RedisCmdBuilder) (len : ℤ) (val : Bytes) : RedisCmdBuilder :=
  let buff := safeSprintf 32 (36 :: (decInt len ++ crlf))
  { b with cmd := b.cmd ++ buff ++ val ++ [13] ++ [10], count := b.count + 1 }

/-- `operator << (const std::string &)` -/
def putStr (b : RedisCmdBuilder) (val : Bytes) : RedisCmdBuilder :=
  b.putBulk (toInt32 val.length) val

/-- `operator << (const char *)`: both `strlen` and `append` stop at the first NUL. -/
def putCStr (b : RedisCmdBuilder) (val : Bytes) : RedisCmdBuilder :=
  b.putBulk (toInt32 (SeedCore.cstr val).length) (SeedCore.cstr val)

/-- `operator << (const StrView &)`: the converted length also bounds what is
appended.  (A view of `2 ^ 31` bytes or more has no converted length that `append`
takes; the model appends nothing then.) -/
def putView (b : RedisCmdBuilder) (val : Bytes) : RedisCmdBuilder :=
  b.putBulk (toInt32 val.length) (val.take (toInt32 val.length).toNat)

/-- `operator <<(T &)`: `*this << std::to_string(val)`. -/
def putNum (b : RedisCmdBuilder) (val : ℤ) : RedisCmdBuilder := b.putStr (decInt val)

/-- One `operator <<` call. -/
def put (b : RedisCmdBuilder) : Arg → RedisCmdBuilder
  | .str val => b.putStr val
  | .cstr val => b.putCStr val
  | .view val => b.putView val
  | .num val => b.putNum val

/-- `Commit`.  The second and later calls do nothing. -/
def commit (b : RedisCmdBuilder) : RedisCmdBuilder :=
  if b.committed then b else
    let cmdHead := safeSprintf (headContentBuff - 4) (42 :: (decInt (toInt32 b.count) ++ crlf))
    let headLen := cmdHead.length + 4
    let seek := headContentBuff - headLen
    let len : ℤ := b.cmd.length - seek - 4
    { b with
      cmd := b.cmd.take seek ++ (bytes32 len ++ cmdHead) ++ b.cmd.drop (seek + headLen)
      seek := seek + 4
      committed := true }

/-- The bytes from the pointer that `GetSendBuff` returns to the end of the string. -/
def getSendBuff (b : RedisCmdBuilder) : Bytes := b.cmd.drop b.seek

/-- The integer in the four bytes before `GetSendBuff`. -/
def sendLen (b : RedisCmdBuilder) : ℤ := load32 b.cmd (b.seek - 4)

def isCommit (b : RedisCmdBuilder) : Bool := b.committed

end RedisCmdBuilder

/-- A call on a builder. -/
inductive BuilderOp
  | put (arg : Arg)
  | commit
  deriving DecidableEq, Repr

/-- The effect of one call. -/
def BuilderOp.apply (b : RedisCmdBuilder) : BuilderOp → RedisCmdBuilder
  | .put arg => b.put arg
  | .commit => b.commit

/-- A default-constructed builder after a sequence of calls. -/
def runOps (ops : List BuilderOp) : RedisCmdBuilder := ops.foldl BuilderOp.apply {}

/-- The arguments appended before the first `Commit`. -/
def committedArgs : List BuilderOp → List Arg
  | .put arg :: ops => arg :: committedArgs ops
  | _ => []

/-! ## What is written -/

namespace Arg

/-- The byte string an argument stands for. -/
def bytes : Arg → Bytes
  | .str val => val
  | .cstr val => SeedCore.cstr val
  | .view val => val
  | .num val => decInt val

/-- What `operator <<` appends for an argument. -/
def encode : Arg → Bytes
  | .view val => 36 :: (decInt (toInt32 val.length) ++ crlf ++ val.take (toInt32 val.length).toNat
      ++ crlf)
  | arg => 36 :: (decInt (toInt32 arg.bytes.length) ++ crlf ++ arg.bytes ++ crlf)

/-- Below `2 ^ 31` bytes an argument is written as the RESP bulk string. -/
theorem encode_eq_bulk {arg : Arg} (h : arg.bytes.length < 2147483648) :
    arg.encode = Resp.bulk arg.bytes := by
  cases arg <;> simp only [bytes] at h <;>
    simp [encode, bytes, Resp.bulk, toInt32_natCast h]

end Arg

/-- The array header for `n` arguments. -/
def header (n : ℕ) : Bytes := 42 :: (decInt (toInt32 n) ++ crlf)

/-- The bytes that a builder committed after `args` announces for sending. -/
def frame (args : List Arg) : Bytes := header args.length ++ args.flatMap Arg.encode

/-- A signed 32-bit integer has at most eleven characters. -/
theorem length_decInt_toInt32_le (v : ℤ) : (decInt (toInt32 v)).length ≤ 11 := by
  have hlo := toInt32_ge v
  have hhi := toInt32_lt v
  cases h : toInt32 v with
  | ofNat n =>
      have hn : n < 10 ^ 10 := by rw [h] at hhi; simp only [Int.ofNat_eq_natCast] at hhi; omega
      have := (length_dec_le_iff (n := n) (k := 10) (by decide)).mpr hn
      simp only [decInt]
      omega
  | negSucc n =>
      have hn : n + 1 < 10 ^ 10 := by rw [h] at hlo; omega
      have := (length_dec_le_iff (n := n + 1) (k := 10) (by decide)).mpr hn
      simp only [decInt, List.length_cons]
      omega

theorem length_header_le (n : ℕ) : (header n).length ≤ 14 := by
  have := length_decInt_toInt32_le n
  simp only [header, crlf, List.length_cons, List.length_append, List.length_nil]
  omega

namespace RedisCmdBuilder

/-- The length line always fits its buffer. -/
private theorem safeSprintf_lengthLine (v : ℤ) :
    safeSprintf 32 (36 :: (decInt (toInt32 v) ++ crlf)) = 36 :: (decInt (toInt32 v) ++ crlf) := by
  have := length_decInt_toInt32_le v
  refine List.take_of_length_le ?_
  simp only [crlf, List.length_cons, List.length_append, List.length_nil]
  omega

/-- The array header always fits its buffer. -/
theorem safeSprintf_header (n : ℕ) :
    safeSprintf (headContentBuff - 4) (42 :: (decInt (toInt32 n) ++ crlf)) = header n :=
  List.take_of_length_le (by
    have := length_header_le n
    simp only [header] at this
    simp only [headContentBuff]
    omega)

/-- `operator <<` appends the encoding of its argument and counts it. -/
theorem put_eq (b : RedisCmdBuilder) (arg : Arg) :
    b.put arg = { b with cmd := b.cmd ++ arg.encode, count := b.count + 1 } := by
  cases arg <;>
    simp only [put, putStr, putCStr, putView, putNum, putBulk, safeSprintf_lengthLine] <;>
    simp [Arg.encode, Arg.bytes, crlf]

@[simp] theorem committed_put (b : RedisCmdBuilder) (arg : Arg) :
    (b.put arg).committed = b.committed := by rw [put_eq]

@[simp] theorem commit_of_committed {b : RedisCmdBuilder} (h : b.committed = true) :
    b.commit = b := by simp [commit, h]

end RedisCmdBuilder

/-! ## The two phases of a builder -/

/-- Before `Commit`: the hole, then the arguments appended so far. -/
structure Open (b : RedisCmdBuilder) (args : List Arg) : Prop where
  not_committed : b.committed = false
  cmd_eq : b.cmd = List.replicate headContentBuff 0 ++ args.flatMap Arg.encode
  count_eq : b.count = args.length

/-- After `Commit`: the announced length sits in the four bytes before the send
pointer, and the frame begins at the pointer.  Later `operator <<` calls only add
bytes behind the frame. -/
structure Framed (b : RedisCmdBuilder) (args : List Arg) : Prop where
  committed : b.committed = true
  four_le_seek : 4 ≤ b.seek
  sendLen_eq : b.sendLen = toInt32 (frame args).length
  sendBuff_eq : ∃ tail, b.getSendBuff = frame args ++ tail

theorem open_default : Open {} [] := ⟨rfl, by simp, rfl⟩

theorem Open.put {b : RedisCmdBuilder} {args : List Arg} (h : Open b args) (arg : Arg) :
    Open (b.put arg) (args ++ [arg]) := by
  refine ⟨by simp [h.not_committed], ?_, ?_⟩
  · rw [RedisCmdBuilder.put_eq, h.cmd_eq]
    simp
  · rw [RedisCmdBuilder.put_eq, h.count_eq]
    simp

/-- The string after the first `Commit`. -/
theorem Open.cmd_commit {b : RedisCmdBuilder} {args : List Arg} (h : Open b args) :
    b.commit = { b with
      cmd := List.replicate (16 - (header args.length).length) 0
        ++ bytes32 (frame args).length ++ frame args
      seek := 16 - (header args.length).length + 4
      committed := true } := by
  have hle := length_header_le args.length
  have hlen : (b.cmd.length : ℤ) - (16 - (header args.length).length : ℕ) - 4
      = (frame args).length := by
    rw [h.cmd_eq, frame]
    simp only [List.length_append, List.length_replicate, headContentBuff]
    omega
  have hseek : headContentBuff - ((header args.length).length + 4)
      = 16 - (header args.length).length := by simp only [headContentBuff]; omega
  have htake : b.cmd.take (16 - (header args.length).length)
      = List.replicate (16 - (header args.length).length) 0 := by
    rw [h.cmd_eq, List.take_append_of_le_length (by simp [headContentBuff]; omega),
      List.take_replicate]
    congr 1
    simp only [headContentBuff]
    omega
  have hdrop : b.cmd.drop (16 - (header args.length).length + ((header args.length).length + 4))
      = args.flatMap Arg.encode := by
    rw [h.cmd_eq]
    exact List.drop_left' (by simp [headContentBuff]; omega)
  simp only [RedisCmdBuilder.commit, h.not_committed, Bool.false_eq_true, if_false, h.count_eq,
    RedisCmdBuilder.safeSprintf_header, hseek, hlen, htake, hdrop]
  simp [frame, List.append_assoc]

/-- Right after `Commit` there is nothing behind the frame. -/
theorem Open.getSendBuff_commit {b : RedisCmdBuilder} {args : List Arg} (h : Open b args) :
    b.commit.getSendBuff = frame args := by
  rw [h.cmd_commit]
  exact List.drop_left' (by simp)

theorem Open.commit {b : RedisCmdBuilder} {args : List Arg} (h : Open b args) :
    Framed b.commit args := by
  have hbuff := h.getSendBuff_commit
  rw [h.cmd_commit] at hbuff ⊢
  refine ⟨rfl, by simp, ?_, [], by rw [hbuff, List.append_nil]⟩
  have := load32_append (List.replicate (16 - (header args.length).length) 0)
    (frame args) (frame args).length
  simpa [RedisCmdBuilder.sendLen] using this

theorem Framed.put {b : RedisCmdBuilder} {args : List Arg} (h : Framed b args) (arg : Arg) :
    Framed (b.put arg) args := by
  obtain ⟨tail, htail⟩ := h.sendBuff_eq
  have hin : b.seek ≤ b.cmd.length := by
    by_contra hlt
    have hnil : b.getSendBuff = [] := List.drop_eq_nil_of_le (by omega)
    rw [hnil] at htail
    simp [frame, header] at htail
  have h4 := h.four_le_seek
  rw [RedisCmdBuilder.put_eq]
  refine ⟨h.committed, h4, ?_, tail ++ arg.encode, ?_⟩
  · rw [← h.sendLen_eq]
    exact load32_append_right arg.encode (p := b.seek - 4) (by omega)
  · simp only [RedisCmdBuilder.getSendBuff] at htail ⊢
    rw [List.drop_append_of_le_length hin, htail, List.append_assoc]

/-- Nothing that is called after `Commit` reaches the frame. -/
theorem Framed.run {b : RedisCmdBuilder} {args : List Arg} (h : Framed b args)
    (ops : List BuilderOp) : Framed (ops.foldl BuilderOp.apply b) args := by
  induction ops generalizing b with
  | nil => exact h
  | cons op ops ih =>
      refine ih ?_
      cases op with
      | put arg => exact h.put arg
      | commit =>
          rw [BuilderOp.apply, RedisCmdBuilder.commit_of_committed h.committed]
          exact h

theorem Open.run {b : RedisCmdBuilder} {done : List Arg} (h : Open b done)
    (ops : List BuilderOp) (hc : (ops.foldl BuilderOp.apply b).isCommit = true) :
    Framed (ops.foldl BuilderOp.apply b) (done ++ committedArgs ops) := by
  induction ops generalizing b done with
  | nil =>
      have hc' : b.committed = true := hc
      simp [h.not_committed] at hc'
  | cons op ops ih =>
      cases op with
      | put arg =>
          have := ih (h.put arg) hc
          rwa [List.append_assoc] at this
      | commit =>
          have hnil : committedArgs (.commit :: ops) = [] := rfl
          rw [hnil, List.append_nil]
          exact h.commit.run ops

/-- **Every committed builder is framed** by the arguments that were appended
before the first `Commit`. -/
theorem framed_run (ops : List BuilderOp) (hc : (runOps ops).isCommit = true) :
    Framed (runOps ops) (committedArgs ops) :=
  open_default.run ops hc

/-! ## The frame as a RESP command -/

/-- The arguments as the byte strings they stand for. -/
def argBytes (args : List Arg) : List Bytes := args.map Arg.bytes

@[simp] theorem argBytes_cons (arg : Arg) (args : List Arg) :
    argBytes (arg :: args) = arg.bytes :: argBytes args := rfl
@[simp] theorem argBytes_nil : argBytes [] = [] := rfl
@[simp] theorem argBytes_map_str (vec : List Bytes) : argBytes (vec.map .str) = vec := by
  simp [argBytes, Arg.bytes, Function.comp_def]

/-- **Below `2 ^ 31` bytes the frame is the RESP command** of the arguments. -/
theorem frame_eq_command {args : List Arg}
    (h : (Resp.command (argBytes args)).length < 2147483648) :
    frame args = Resp.command (argBytes args) := by
  rw [Resp.length_command] at h
  have hcount := Resp.length_le_length_flatMap_bulk (argBytes args)
  have hheader : header args.length = 42 :: (dec args.length ++ crlf) := by
    simp only [argBytes, List.length_map] at hcount h
    rw [header, toInt32_natCast (by omega), decInt_natCast]
  have hbody : args.flatMap Arg.encode = (argBytes args).flatMap Resp.bulk := by
    rw [argBytes, List.flatMap_map]
    refine List.flatMap_congr fun arg harg => Arg.encode_eq_bulk ?_
    have hmem : arg.bytes ∈ argBytes args := List.mem_map_of_mem harg
    have := Resp.length_lt_of_mem hmem
    omega
  rw [frame, hheader, hbody, Resp.command]
  simp [argBytes]

/-- The command that a server reads from the payload of a builder. -/
def RedisCmdBuilder.command (b : RedisCmdBuilder) : List Bytes :=
  ((Resp.readCommand b.getSendBuff).map Prod.fst).getD []

/-- **The framing round trip of the builder.**  Whatever calls were made, and in
whatever order, a committed builder announces the length of the RESP command of
the arguments appended before the first `Commit`, that command is what lies at the
send pointer, and a decoder reads exactly those arguments back from it. -/
theorem committed_frame_roundtrip (ops : List BuilderOp)
    (hsize : (Resp.command (argBytes (committedArgs ops))).length < 2147483648)
    (hc : (runOps ops).isCommit = true) :
    4 ≤ (runOps ops).seek ∧
      (runOps ops).sendLen = (Resp.command (argBytes (committedArgs ops))).length ∧
      (runOps ops).getSendBuff.take (Resp.command (argBytes (committedArgs ops))).length
        = Resp.command (argBytes (committedArgs ops)) ∧
      Resp.readCommand ((runOps ops).getSendBuff.take
          (Resp.command (argBytes (committedArgs ops))).length)
        = some (argBytes (committedArgs ops), []) := by
  have F := framed_run ops hc
  obtain ⟨tail, htail⟩ := F.sendBuff_eq
  have hlen := F.sendLen_eq
  rw [frame_eq_command hsize] at htail hlen
  have htake : (runOps ops).getSendBuff.take (Resp.command (argBytes (committedArgs ops))).length
      = Resp.command (argBytes (committedArgs ops)) := by
    rw [htail, List.take_left' rfl]
  refine ⟨F.four_le_seek, ?_, htake, ?_⟩
  · rw [hlen, toInt32_natCast hsize]
  · have := Resp.readCommand_command (argBytes (committedArgs ops)) []
    rwa [List.append_nil, ← htake] at this

/-- A `GET` with framing bytes and a NUL in its key, and a late `operator <<`. -/
theorem committed_frame_roundtrip_get :
    let ops : List BuilderOp := [.put (.cstr (ascii "GET")), .put (.str [13, 10, 36, 0]), .commit,
      .put (.num (-7)), .commit]
    (runOps ops).isCommit = true ∧ argBytes (committedArgs ops) = [ascii "GET", [13, 10, 36, 0]] ∧
      Resp.readCommand ((runOps ops).getSendBuff.take
          (Resp.command (argBytes (committedArgs ops))).length)
        = some (argBytes (committedArgs ops), []) :=
  ⟨by decide, by decide, (committed_frame_roundtrip _ (by decide) (by decide)).2.2.2⟩

end SeedCore.Redis
