import SeedCore.Redis.Builder
import SeedCore.Redis.Hiredis

/-!
# The reference server

The meaning of the commands that write and read collections, as the Redis command
reference gives it: a keyspace of strings, hashes and lists, and one step for each
command.  A hash lists its fields in an order of its own, which is the parameter
`listing`.

## Main definitions

* `Stored`, `Keyspace` — what is stored.
* `serve`, `serveAll` — the reply to a command, and to commands one after the other.
-/

namespace SeedCore.Redis

/-- What is stored under a key. -/
inductive Stored
  | string (val : Bytes)
  | hash (fields : List (Bytes × Bytes))
  | list (vals : List Bytes)
  deriving DecidableEq, Repr

/-- The keys and what is stored under them. -/
abbrev Keyspace := Bytes → Option Stored

/-- Store under a key. -/
def Keyspace.store (db : Keyspace) (key : Bytes) (val : Stored) : Keyspace :=
  fun k => if k = key then some val else db k

theorem Keyspace.store_self (db : Keyspace) (key : Bytes) (val : Stored) :
    db.store key val key = some val := if_pos rfl

theorem Keyspace.store_ne (db : Keyspace) {key k : Bytes} (val : Stored) (h : k ≠ key) :
    db.store key val k = db k := if_neg h

/-- The arguments of a command taken two by two; nothing if one is left over. -/
def pairs : List Bytes → Option (List (Bytes × Bytes))
  | [] => some []
  | [_] => none
  | k :: v :: rest => (pairs rest).map ((k, v) :: ·)

/-- Set a field of a hash. -/
def setField (fields : List (Bytes × Bytes)) (k v : Bytes) : List (Bytes × Bytes) :=
  match fields with
  | [] => [(k, v)]
  | p :: rest => if p.1 = k then (k, v) :: rest else p :: setField rest k v

/-- Set fields of a hash, one after the other. -/
def setFields (fields entries : List (Bytes × Bytes)) : List (Bytes × Bytes) :=
  entries.foldl (fun fields p => setField fields p.1 p.2) fields

/-- Read a decimal numeral, which may be negative. -/
def parseInt (s : Bytes) : Option ℤ :=
  match s with
  | 45 :: ds => if ds ≠ [] ∧ ds.all isDigit then some (-(undec ds)) else none
  | ds => if ds ≠ [] ∧ ds.all isDigit then some (undec ds) else none

/-- The elements between two positions, which count from the end when negative. -/
def listRange (vals : List Bytes) (start stop : ℤ) : List Bytes :=
  let first := if start ≥ 0 then start
    else if start + vals.length ≥ 0 then start + vals.length else 0
  let last := if stop < 0 then stop + vals.length
    else if stop < vals.length then stop else vals.length - 1
  if last < first then [] else (vals.drop first.toNat).take (last - first + 1).toNat

/-- The errors of the server. -/
def wrongType : RedisReply :=
  .error (ascii "WRONGTYPE Operation against a key holding the wrong kind of value")
/-- Too few arguments, or one left over. -/
def wrongArgs : RedisReply := .error (ascii "ERR wrong number of arguments")
/-- A position that is not a number. -/
def notInteger : RedisReply := .error (ascii "ERR value is not an integer or out of range")
/-- A name that the server does not know. -/
def unknownCommand : RedisReply := .error (ascii "ERR unknown command")

/-- The status `OK`. -/
def statusOk : RedisReply := .status (ascii "OK")

section Serve

variable (listing : List (Bytes × Bytes) → List (Bytes × Bytes)) (db : Keyspace)

/-- `HMSET key field value [field value …]` -/
def serveHMSet (key : Bytes) (rest : List Bytes) : RedisReply × Keyspace :=
  match pairs rest with
  | none | some [] => (wrongArgs, db)
  | some entries =>
      match db key with
      | none => (statusOk, db.store key (.hash (setFields [] entries)))
      | some (.hash fields) => (statusOk, db.store key (.hash (setFields fields entries)))
      | some _ => (wrongType, db)

/-- `HGETALL key`: the fields and values in turn. -/
def serveHGetAll (key : Bytes) : RedisReply :=
  match db key with
  | none => .array []
  | some (.hash fields) => .array ((listing fields).flatMap fun p => [.string p.1, .string p.2])
  | some _ => wrongType

/-- `RPUSH key value [value …]`: the new length. -/
def serveRPush (key : Bytes) (vals : List Bytes) : RedisReply × Keyspace :=
  match vals, db key with
  | [], _ => (wrongArgs, db)
  | vals, none => (.integer vals.length, db.store key (.list vals))
  | vals, some (.list old) =>
      (.integer (old ++ vals).length, db.store key (.list (old ++ vals)))
  | _, some _ => (wrongType, db)

/-- `LRANGE key start stop` -/
def serveLRange (key : Bytes) : List Bytes → RedisReply
  | [start, stop] =>
      match parseInt start, parseInt stop with
      | some start, some stop =>
          match db key with
          | none => .array []
          | some (.list vals) => .array ((listRange vals start stop).map .string)
          | some _ => wrongType
      | _, _ => notInteger
  | _ => wrongArgs

/-- `MSET key value [key value …]` -/
def serveMSet (rest : List Bytes) : RedisReply × Keyspace :=
  match pairs rest with
  | none | some [] => (wrongArgs, db)
  | some entries => (statusOk, entries.foldl (fun db p => db.store p.1 (.string p.2)) db)

/-- One element of the reply to `MGET`. -/
def serveGetOne (key : Bytes) : RedisReply :=
  match db key with
  | some (.string val) => .string val
  | _ => .nil

/-- `MGET key [key …]` -/
def serveMGet (keys : List Bytes) : RedisReply :=
  if keys = [] then wrongArgs else .array (keys.map (serveGetOne db))

/-- The reply to one command, and the keyspace after it. -/
def serve (args : List Bytes) : RedisReply × Keyspace :=
  match args with
  | name :: key :: rest =>
      if name = ascii "HMSET" then serveHMSet db key rest
      else if name = ascii "HGETALL" ∧ rest = [] then (serveHGetAll listing db key, db)
      else if name = ascii "RPUSH" then serveRPush db key rest
      else if name = ascii "LRANGE" then (serveLRange db key rest, db)
      else if name = ascii "MSET" then serveMSet db (key :: rest)
      else if name = ascii "MGET" then (serveMGet db (key :: rest), db)
      else (unknownCommand, db)
  | _ => (wrongArgs, db)

section Names

variable (key : Bytes) (rest : List Bytes)

theorem serve_hMSet : serve listing db (ascii "HMSET" :: key :: rest) = serveHMSet db key rest := rfl

theorem serve_hGetAll : serve listing db [ascii "HGETALL", key] = (serveHGetAll listing db key, db) :=
  rfl

theorem serve_rPush : serve listing db (ascii "RPUSH" :: key :: rest) = serveRPush db key rest := rfl

theorem serve_lRange :
    serve listing db (ascii "LRANGE" :: key :: rest) = (serveLRange db key rest, db) := rfl

theorem serve_mSet : serve listing db (ascii "MSET" :: key :: rest) = serveMSet db (key :: rest) :=
  rfl

theorem serve_mGet :
    serve listing db (ascii "MGET" :: key :: rest) = (serveMGet db (key :: rest), db) := rfl

end Names

/-- The replies to commands, one after the other. -/
def serveAll (listing : List (Bytes × Bytes) → List (Bytes × Bytes)) :
    Keyspace → List (List Bytes) → List RedisReply
  | _, [] => []
  | db, args :: cmds => (serve listing db args).1 :: serveAll listing (serve listing db args).2 cmds

end Serve

/-! ## What is read back -/

theorem pairs_flatMap (entries : List (Bytes × Bytes)) :
    pairs (entries.flatMap fun p => [p.1, p.2]) = some entries := by
  induction entries with
  | nil => rfl
  | cons p rest ih =>
      simp only [List.flatMap_cons, List.cons_append, List.nil_append, pairs, ih, Option.map_some]

/-- A field that is not there is added behind the others. -/
theorem setField_of_notMem {fields : List (Bytes × Bytes)} {k : Bytes} (v : Bytes)
    (h : k ∉ fields.map Prod.fst) : setField fields k v = fields ++ [(k, v)] := by
  induction fields with
  | nil => rfl
  | cons p rest ih =>
      rw [List.map_cons, List.mem_cons, not_or] at h
      rw [setField, if_neg (Ne.symm h.1), ih h.2]
      rfl

/-- Distinct fields are set as they come. -/
theorem setFields_of_nodup {fields entries : List (Bytes × Bytes)}
    (h : (fields.map Prod.fst ++ entries.map Prod.fst).Nodup) :
    setFields fields entries = fields ++ entries := by
  induction entries generalizing fields with
  | nil => simp [setFields]
  | cons p rest ih =>
      have hnew : p.1 ∉ fields.map Prod.fst := by
        intro hmem
        exact (List.nodup_append.mp h).2.2 _ hmem _ List.mem_cons_self rfl
      have hkeys : ((fields ++ [p]).map Prod.fst ++ rest.map Prod.fst).Nodup := by
        simpa using h
      have := ih hkeys
      rw [setFields, List.foldl_cons, setField_of_notMem p.2 hnew]
      rw [setFields] at this
      rw [this, List.append_assoc, List.singleton_append]

theorem all_isDigit_dec (n : ℕ) : (dec n).all isDigit = true :=
  List.all_eq_true.mpr fun _ hb => isDigit_of_mem_dec hb

/-- The server reads back the numeral of a natural number. -/
theorem parseInt_dec (n : ℕ) : parseInt (dec n) = some (n : ℤ) := by
  have hdigits := all_isDigit_dec n
  have hne := dec_ne_nil n
  unfold parseInt
  split
  · next ds hds =>
      exact absurd (hds ▸ List.mem_cons_self) (minus_notMem_dec n)
  · rw [if_pos ⟨hne, hdigits⟩, undec_dec]

/-- The whole of a list that is not empty. -/
theorem listRange_all {vals : List Bytes} (h : vals ≠ []) :
    listRange vals 0 (vals.length - 1) = vals := by
  have hpos := List.length_pos_iff.mpr h
  have htake : ((vals.length : ℤ) - 1 - 0 + 1).toNat = vals.length := by omega
  have hstop : ¬(vals.length : ℤ) - 1 < 0 := by omega
  have hlast : (vals.length : ℤ) - 1 < vals.length := by omega
  simp only [listRange, ge_iff_le, Int.le_refl, if_true, if_neg hstop, if_pos hlast]
  rw [htake, Int.toNat_zero, List.drop_zero, List.take_length]

/-- A key keeps what was stored under it last. -/
theorem foldl_store_of_notMem {entries : List (Bytes × Bytes)} {k : Bytes} (db : Keyspace)
    (h : k ∉ entries.map Prod.fst) :
    entries.foldl (fun db p => db.store p.1 (.string p.2)) db k = db k := by
  induction entries generalizing db with
  | nil => rfl
  | cons p rest ih =>
      rw [List.map_cons, List.mem_cons, not_or] at h
      rw [List.foldl_cons, ih _ h.2, Keyspace.store_ne _ _ h.1]

theorem foldl_store_of_mem {entries : List (Bytes × Bytes)} {p : Bytes × Bytes} (db : Keyspace)
    (hkeys : (entries.map Prod.fst).Nodup) (h : p ∈ entries) :
    entries.foldl (fun db p => db.store p.1 (.string p.2)) db p.1 = some (.string p.2) := by
  induction entries generalizing db with
  | nil => cases h
  | cons q rest ih =>
      obtain ⟨hnew, hrest⟩ := List.nodup_cons.mp hkeys
      rw [List.foldl_cons]
      rcases List.mem_cons.mp h with rfl | h
      · rw [foldl_store_of_notMem _ hnew, Keyspace.store_self]
      · exact ih _ hrest h

end SeedCore.Redis
