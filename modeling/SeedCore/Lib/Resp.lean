import SeedCore.Lib.Bytes

/-!
# RESP commands

The request half of the Redis serialization protocol.  A command is an array of
bulk strings: `*N\r\n`, then `$len\r\n<bytes>\r\n` for each of its `N` arguments.
Lengths are announced before the bytes, so an argument may contain any byte at
all, the framing bytes included.

The decoder below is the specification of what a server reads.  Every reader
returns the unread rest, so readers compose and a stream of commands is read one
after the other.

## Main definitions

* `bulk arg`, `command args` — the encoder.
* `readCommand s` — one command off the front of `s`, with the unread rest.
* `commands s` — every complete command at the front of a stream.
* `readCommand_command`, `commands_flatMap_command` — the round trips.
* `command_injective` — the framing is unambiguous.
-/

namespace SeedCore.Resp

/-- A bulk string: `$len\r\n<bytes>\r\n`. -/
def bulk (arg : Bytes) : Bytes := 36 :: (dec arg.length ++ crlf ++ arg ++ crlf)

/-- A command: `*N\r\n` and its arguments as bulk strings. -/
def command (args : List Bytes) : Bytes := 42 :: (dec args.length ++ crlf ++ args.flatMap bulk)

theorem length_bulk (arg : Bytes) :
    (bulk arg).length = 5 + (dec arg.length).length + arg.length := by
  simp only [bulk, crlf, List.length_cons, List.length_append, List.length_nil]
  omega

theorem length_command (args : List Bytes) :
    (command args).length = 3 + (dec args.length).length + (args.flatMap bulk).length := by
  simp only [command, crlf, List.length_cons, List.length_append, List.length_nil]
  omega

/-- An argument is shorter than any list of bulk strings that contains it. -/
theorem length_lt_of_mem {args : List Bytes} {arg : Bytes} (h : arg ∈ args) :
    arg.length < (args.flatMap bulk).length := by
  induction args with
  | nil => simp at h
  | cons a args ih =>
      rw [List.flatMap_cons, List.length_append, length_bulk]
      rcases List.mem_cons.mp h with rfl | h
      · omega
      · have := ih h
        omega

theorem length_le_length_flatMap_bulk (args : List Bytes) :
    args.length ≤ (args.flatMap bulk).length := by
  induction args with
  | nil => simp
  | cons a args ih =>
      rw [List.flatMap_cons, List.length_append, length_bulk, List.length_cons]
      omega

/-! ## Reading -/

/-- Read the byte `tag`. -/
def readTag (tag : UInt8) : Bytes → Option Bytes
  | [] => none
  | b :: s => if b = tag then some s else none

/-- Read a line that holds a decimal number. -/
def readNat (s : Bytes) : Option (ℕ × Bytes) :=
  let ds := s.takeWhile isDigit
  let rest := s.dropWhile isDigit
  if ds ≠ [] ∧ rest.take 2 = crlf then some (undec ds, rest.drop 2) else none

/-- Read one bulk string. -/
def readBulk (s : Bytes) : Option (Bytes × Bytes) := do
  let s ← readTag 36 s
  let (n, s) ← readNat s
  if (s.drop n).take 2 = crlf then some (s.take n, s.drop (n + 2)) else none

/-- Read `n` bulk strings. -/
def readBulks : ℕ → Bytes → Option (List Bytes × Bytes)
  | 0, s => some ([], s)
  | n + 1, s => do
      let (arg, s) ← readBulk s
      let (args, s) ← readBulks n s
      some (arg :: args, s)

/-- Read one command. -/
def readCommand (s : Bytes) : Option (List Bytes × Bytes) := do
  let s ← readTag 42 s
  let (n, s) ← readNat s
  readBulks n s

private theorem take_crlf (rest : Bytes) : (crlf ++ rest).take 2 = crlf := rfl
private theorem drop_crlf (rest : Bytes) : (crlf ++ rest).drop 2 = rest := rfl

/-- A numeral and its line end are read back, whatever follows. -/
theorem readNat_dec (n : ℕ) (rest : Bytes) :
    readNat (dec n ++ crlf ++ rest) = some (n, rest) := by
  have hdig : ∀ b ∈ dec n, isDigit b = true := fun b hb => isDigit_of_mem_dec hb
  have htake : (dec n ++ (crlf ++ rest)).takeWhile isDigit = dec n := by
    rw [List.takeWhile_append_of_pos hdig]
    simp [crlf, isDigit]
  have hdrop : (dec n ++ (crlf ++ rest)).dropWhile isDigit = crlf ++ rest := by
    rw [List.dropWhile_append_of_pos hdig]
    simp [crlf, isDigit]
  rw [List.append_assoc, readNat, htake, hdrop, undec_dec,
    if_pos ⟨dec_ne_nil n, take_crlf rest⟩, drop_crlf]

theorem readBulk_bulk (arg rest : Bytes) : readBulk (bulk arg ++ rest) = some (arg, rest) := by
  have hbody : dec arg.length ++ crlf ++ arg ++ crlf ++ rest
      = dec arg.length ++ crlf ++ (arg ++ (crlf ++ rest)) := by
    simp only [List.append_assoc]
  have hend : ((arg ++ (crlf ++ rest)).drop arg.length).take 2 = crlf := by
    rw [List.drop_left' rfl, take_crlf]
  have hrest : (arg ++ (crlf ++ rest)).drop (arg.length + 2) = rest := by
    rw [← List.drop_drop, List.drop_left' rfl, drop_crlf]
  simp only [readBulk, bulk, List.cons_append, readTag, if_true, Option.bind_eq_bind,
    Option.bind_some, hbody, readNat_dec, if_pos hend, hrest, List.take_left' rfl]

theorem readBulks_flatMap_bulk (args : List Bytes) (rest : Bytes) :
    readBulks args.length (args.flatMap bulk ++ rest) = some (args, rest) := by
  induction args with
  | nil => rfl
  | cons arg args ih =>
      simp only [List.length_cons, List.flatMap_cons, List.append_assoc, readBulks,
        readBulk_bulk, Option.bind_eq_bind, Option.bind_some, ih]

/-- **The framing round trip**: a server reads back exactly the arguments, and
leaves exactly what follows the command. -/
theorem readCommand_command (args : List Bytes) (rest : Bytes) :
    readCommand (command args ++ rest) = some (args, rest) := by
  have hbody : dec args.length ++ crlf ++ args.flatMap bulk ++ rest
      = dec args.length ++ crlf ++ (args.flatMap bulk ++ rest) := List.append_assoc ..
  simp only [readCommand, command, List.cons_append, readTag, if_true, Option.bind_eq_bind,
    Option.bind_some, hbody, readNat_dec, readBulks_flatMap_bulk]

/-- **The framing is unambiguous.** -/
theorem command_injective : Function.Injective command := by
  intro args args' h
  have hread := readCommand_command args []
  rw [h, readCommand_command args' []] at hread
  exact (Prod.mk.inj (Option.some.inj hread)).1.symm

/-! ## Streams of commands -/

/-- Read at most `fuel` complete commands off the front of a stream. -/
def readCommands : ℕ → Bytes → List (List Bytes)
  | 0, _ => []
  | fuel + 1, s =>
      match readCommand s with
      | some (args, rest) => args :: readCommands fuel rest
      | none => []

/-- The complete commands at the front of a stream.  A command takes at least one
byte, so the length of the stream bounds their number. -/
def commands (s : Bytes) : List (List Bytes) := readCommands s.length s

theorem readCommands_flatMap_command (cmds : List (List Bytes)) :
    ∀ fuel, cmds.length ≤ fuel → readCommands fuel (cmds.flatMap command) = cmds := by
  induction cmds with
  | nil =>
      intro fuel _
      cases fuel <;> simp [readCommands, readCommand, readTag]
  | cons args cmds ih =>
      intro fuel hfuel
      cases fuel with
      | zero => simp at hfuel
      | succ fuel =>
          simp only [readCommands, List.flatMap_cons, readCommand_command]
          rw [ih fuel (by simpa using hfuel)]

theorem length_le_length_flatMap_command (cmds : List (List Bytes)) :
    cmds.length ≤ (cmds.flatMap command).length := by
  induction cmds with
  | nil => simp
  | cons args cmds ih =>
      rw [List.flatMap_cons, List.length_append, length_command, List.length_cons]
      omega

/-- A stream of whole commands is read back command by command. -/
theorem commands_flatMap_command (cmds : List (List Bytes)) :
    commands (cmds.flatMap command) = cmds :=
  readCommands_flatMap_command cmds _ (length_le_length_flatMap_command cmds)

end SeedCore.Resp
