import SeedCore.Redis.Builder

/-!
# The size hint of a builder

`RedisCmdBuilder(s32 buffSize)` resizes the string that holds the hole, where it could have
reserved the room.  `Commit` goes on as if the hole were there: with a larger hint the frame has
zeros between its header and its arguments, with a smaller one the header is written over the
arguments, and over an empty string `std::string::replace` throws.

## Main definitions

* `RedisCmdBuilder.ofSize` — the other constructor.
* `RedisCmdBuilder.commitChecked` — `Commit` with the check of `std::string::replace`.
* `committedFrame b args` — the length and the bytes of the frame.
* `committedFrame_ofSize` — what they are.
* `committedFrame_ofSize_eq_iff` — when they are those of a default-constructed builder.
-/

namespace SeedCore.Redis

/-- `std::string::resize` -/
def resize (s : Bytes) (n : ℕ) : Bytes := s.take n ++ List.replicate (n - s.length) 0

namespace RedisCmdBuilder

/-- `RedisCmdBuilder(s32 buffSize)`, for a size that is not negative. -/
def ofSize (buffSize : ℕ) : RedisCmdBuilder where
  cmd := resize (List.replicate headContentBuff 0) buffSize

/-- `Commit` of a string of any length: `std::string::replace` throws `std::out_of_range` when it
is to begin behind the end. -/
def commitChecked (b : RedisCmdBuilder) : Option RedisCmdBuilder :=
  if b.committed then some b else
    let cmdHead := safeSprintf (headContentBuff - 4) (42 :: (decInt (toInt32 b.count) ++ crlf))
    if headContentBuff - (cmdHead.length + 4) ≤ b.cmd.length then some b.commit else none

end RedisCmdBuilder

/-- The frame of a builder that is given `args` and committed: the length prefix, and the bytes
at `GetSendBuff()`; none when `Commit` throws. -/
def committedFrame (b : RedisCmdBuilder) (args : List Arg) : Option (ℤ × Bytes) :=
  (args.foldl RedisCmdBuilder.put b).commitChecked.map fun b => (b.sendLen, b.getSendBuff)

/-! ## What is written -/

namespace RedisCmdBuilder

theorem foldl_put (b : RedisCmdBuilder) (args : List Arg) :
    args.foldl put b =
      { b with cmd := b.cmd ++ args.flatMap Arg.encode, count := b.count + args.length } := by
  induction args generalizing b with
  | nil => simp
  | cons arg args ih =>
      rw [List.foldl_cons, ih, put_eq]
      simp only [List.flatMap_cons, List.length_cons, List.append_assoc]
      congr 1
      omega

/-- Where the length prefix of `n` arguments begins. -/
def prefixStart (n : ℕ) : ℕ := 16 - (header n).length

/-- **`Commit` over a string of any length.**  The prefix counts what follows it, and the frame
is the header and what was behind the first twenty bytes. -/
theorem commitChecked_frame {b : RedisCmdBuilder} (h : b.committed = false) :
    (b.commitChecked.map fun b => (b.sendLen, b.getSendBuff)) =
      if prefixStart b.count ≤ b.cmd.length then
        some (toInt32 (b.cmd.length - prefixStart b.count - 4),
          header b.count ++ b.cmd.drop headContentBuff)
      else none := by
  have hle := length_header_le b.count
  have hseek : headContentBuff - ((header b.count).length + 4) = prefixStart b.count := by
    simp only [headContentBuff, prefixStart]
    omega
  have hsum : prefixStart b.count + ((header b.count).length + 4) = headContentBuff := by
    simp only [headContentBuff, prefixStart]
    omega
  simp only [commitChecked, h, Bool.false_eq_true, if_false, safeSprintf_header, hseek]
  split
  · next hin =>
      have htake : (b.cmd.take (prefixStart b.count)).length = prefixStart b.count :=
        List.length_take_of_le hin
      simp only [Option.map_some, commit, h, Bool.false_eq_true, if_false, safeSprintf_header,
        hseek, hsum]
      refine congrArg some (Prod.ext ?_ ?_)
      · have hload := load32_append (b.cmd.take (prefixStart b.count))
          (header b.count ++ b.cmd.drop headContentBuff)
          (b.cmd.length - prefixStart b.count - 4)
        rw [htake] at hload
        simpa [sendLen] using hload
      · simp only [getSendBuff]
        rw [← List.append_assoc, List.append_assoc]
        exact List.drop_left' (by simp [htake])
  · rfl

end RedisCmdBuilder

theorem cmd_ofSize (buffSize : ℕ) :
    (RedisCmdBuilder.ofSize buffSize).cmd = List.replicate buffSize 0 := by
  simp only [RedisCmdBuilder.ofSize, resize, List.take_replicate, List.length_replicate,
    List.replicate_append_replicate]
  congr 1
  omega

/-- **The frame with a size hint**, when the string is long enough for `Commit`. -/
theorem committedFrame_ofSize (buffSize : ℕ) (args : List Arg) :
    committedFrame (.ofSize buffSize) args =
      let start := RedisCmdBuilder.prefixStart args.length
      let size := buffSize + (args.flatMap Arg.encode).length
      if start ≤ size then
        some (toInt32 (size - start - 4), header args.length ++
          (List.replicate buffSize 0 ++ args.flatMap Arg.encode).drop headContentBuff)
      else none := by
  have hcount : (RedisCmdBuilder.ofSize buffSize).count + args.length = args.length :=
    Nat.zero_add _
  rw [committedFrame, RedisCmdBuilder.foldl_put, RedisCmdBuilder.commitChecked_frame rfl]
  simp only [hcount, cmd_ofSize, List.length_append, List.length_replicate, Int.natCast_add]

theorem ofSize_headContentBuff : RedisCmdBuilder.ofSize headContentBuff = {} := by decide

/-- **When the hint changes nothing.**  The frame is that of a default-constructed builder only
for the size of the hole itself, whatever the arguments are. -/
theorem committedFrame_ofSize_eq_iff {buffSize : ℕ} (hsize : buffSize < 2 ^ 31)
    (args : List Arg) :
    committedFrame (.ofSize buffSize) args = committedFrame {} args ↔
      buffSize = headContentBuff := by
  constructor
  · intro heq
    rw [← ofSize_headContentBuff] at heq
    simp only [committedFrame_ofSize] at heq
    have hstart : RedisCmdBuilder.prefixStart args.length ≤
        headContentBuff + (args.flatMap Arg.encode).length := by
      simp only [RedisCmdBuilder.prefixStart, headContentBuff]
      omega
    rw [if_pos hstart] at heq
    split at heq
    · have hlen := congrArg Prod.fst (Option.some.inj heq)
      simp only [toInt32_eq, headContentBuff] at hlen ⊢
      omega
    · cases heq
  · rintro rfl
    rw [ofSize_headContentBuff]

/-- The size of the hole, and a command. -/
theorem committedFrame_ofSize_hole :
    committedFrame (.ofSize 20) [.cstr (ascii "PING")] =
      committedFrame {} [.cstr (ascii "PING")] :=
  (committedFrame_ofSize_eq_iff (by decide) _).mpr rfl

/-- A hint of 32 puts twelve zeros between the header and the command, and counts them. -/
theorem committedFrame_ofSize_ne :
    committedFrame (.ofSize 32) [.cstr (ascii "PING")] =
        some (26, ascii "*1\r\n" ++ List.replicate 12 0 ++ ascii "$4\r\nPING\r\n") ∧
      committedFrame {} [.cstr (ascii "PING")] =
        some (14, ascii "*1\r\n" ++ ascii "$4\r\nPING\r\n") ∧
      committedFrame (.ofSize 32) [.cstr (ascii "PING")] ≠
        committedFrame {} [.cstr (ascii "PING")] := by
  decide +kernel

end SeedCore.Redis
