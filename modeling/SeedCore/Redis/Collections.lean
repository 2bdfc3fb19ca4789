import SeedCore.Redis.Decoding
import SeedCore.Redis.Online
import SeedCore.Redis.Server

/-!
# Collections written and read back

The operations that write a hash, a list or several strings, each followed by the one
that reads it back, over a connection without failures to the reference server.

## Main definitions

* `Roundtrip` — an operation that writes and one that reads, in turn.
* `parseStringMap_listing` — the decoder of `HGetAll`, for fields in any order.
* `collections_roundtrip` — what was written is read back.
-/

namespace SeedCore.Redis

/-! ## Decoding -/

/-- The decoder of the array replies, on strings. -/
theorem parseStringArray_strings (vals : StringVector) :
    (RedisReply.array (vals.map .string)).parseStringArray [] = (true, vals) := by
  rw [parseStringArray_eq, List.nil_append, List.map_map]
  exact congrArg (Prod.mk true) (List.map_id vals)

/-- The elements of a reply that lists fields and values in turn. -/
def listed (fields : List (Bytes × Bytes)) : List RedisReply :=
  fields.flatMap fun p => [.string p.1, .string p.2]

theorem length_flatMap_two {α β : Type} (f g : α → β) (l : List α) :
    (l.flatMap fun a => [f a, g a]).length = 2 * l.length := by
  induction l with
  | nil => rfl
  | cons a l ih =>
      rw [List.flatMap_cons, List.length_append, ih, List.length_cons]
      exact Nat.add_comm 2 _

theorem length_listed (fields : List (Bytes × Bytes)) : (listed fields).length = 2 * fields.length :=
  length_flatMap_two ..

theorem replyPairs_listed (fields : List (Bytes × Bytes)) : replyPairs (listed fields) = fields := by
  induction fields with
  | nil => rfl
  | cons p fields ih =>
      rw [listed, List.flatMap_cons]
      exact congrArg (p :: ·) ih

/-- **The decoder of `HGetAll`**: a reply that lists the entries of a map, in whatever order,
gives that map. -/
theorem parseStringMap_listing {m : StringMap} {fields : List (Bytes × Bytes)}
    (hfields : fields.Perm m.entries) (hne : m.entries ≠ []) (hsize : m.entries.length < 2147483648) :
    (RedisReply.array (listed fields)).parseStringMap .empty = .ok (true, m) := by
  have hlen := hfields.length_eq
  have hlisted := length_listed fields
  have hpos := List.length_pos_iff.mpr hne
  have hnonempty : listed fields ≠ [] := List.length_pos_iff.mp (by omega)
  rw [parseStringMap_eq hnonempty (by omega), replyPairs_listed, OrderedMap.emplaceAll_empty hfields]

/-! ## What the server makes of the commands -/

theorem argBytes_entryArgs_eq (mapFileds : StringMap) :
    argBytes (SyncCall.entryArgs mapFileds) = mapFileds.entries.flatMap fun p => [p.1, p.2] := by
  rw [argBytes, SyncCall.entryArgs, List.map_flatMap]
  rfl

/-- A frame below `2 ^ 31` bytes has fewer arguments. -/
theorem length_args_lt {args : List Bytes} (h : (Resp.command args).length < 2147483648) :
    args.length < 2147483648 := by
  have hlen := Resp.length_le_length_flatMap_bulk args
  rw [Resp.length_command] at h
  omega

section Served

variable (listing : List (Bytes × Bytes) → List (Bytes × Bytes)) (db : Keyspace)

theorem argBytes_hMSet (strKey : Bytes) (mapFileds : StringMap) :
    argBytes (SyncCall.hMSet strKey mapFileds).args
      = ascii "HMSET" :: strKey :: mapFileds.entries.flatMap fun p => [p.1, p.2] := by
  rw [← argBytes_entryArgs_eq]
  rfl

theorem argBytes_pushListTailBatch (strKey : Bytes) (vecValue : StringVector) (iLen : ℕ) :
    argBytes (SyncCall.pushListTailBatch strKey vecValue iLen).args
      = ascii "RPUSH" :: strKey :: vecValue := by
  conv_rhs => rw [← argBytes_map_str vecValue]
  rfl

theorem argBytes_getListByRange_all (strKey : Bytes) {vecValue : StringVector} (hne : vecValue ≠ []) :
    argBytes (SyncCall.getListByRange strKey 0 (vecValue.length - 1)).args
      = [ascii "LRANGE", strKey, dec 0, dec (vecValue.length - 1)] := by
  have hpos := List.length_pos_iff.mpr hne
  have hlast : (vecValue.length : ℤ) - 1 = ((vecValue.length - 1 : ℕ) : ℤ) := by omega
  rw [hlast]
  rfl

theorem argBytes_mSet (mapFileds : StringMap) : argBytes (SyncCall.mSet mapFileds).args
    = ascii "MSET" :: mapFileds.entries.flatMap fun p => [p.1, p.2] := by
  rw [← argBytes_entryArgs_eq]
  rfl

theorem argBytes_mGet (vecKeys : StringVector) :
    argBytes (SyncCall.mGet vecKeys).args = ascii "MGET" :: vecKeys := by
  conv_rhs => rw [← argBytes_map_str vecKeys]
  rfl

/-- `HMSet` stores a hash under a key that is not in use. -/
theorem serve_hMSet_entries {strKey : Bytes} {mapFileds : StringMap} (hne : mapFileds.entries ≠ [])
    (habsent : db strKey = none) :
    serve listing db (argBytes (SyncCall.hMSet strKey mapFileds).args)
      = (statusOk, db.store strKey (.hash mapFileds.entries)) := by
  have hfields : setFields [] mapFileds.entries = mapFileds.entries :=
    setFields_of_nodup mapFileds.nodup_keys
  rw [argBytes_hMSet, serve_hMSet, serveHMSet, pairs_flatMap]
  cases hentries : mapFileds.entries with
  | nil => exact absurd hentries hne
  | cons p rest =>
      rw [hentries] at hfields
      simp only [habsent, hfields]

/-- `PushListTailBatch` stores a list under a key that is not in use. -/
theorem serve_pushListTailBatch {strKey : Bytes} {vecValue : StringVector} (iLen : ℕ)
    (hne : vecValue ≠ []) (habsent : db strKey = none) :
    serve listing db (argBytes (SyncCall.pushListTailBatch strKey vecValue iLen).args)
      = (.integer vecValue.length, db.store strKey (.list vecValue)) := by
  rw [argBytes_pushListTailBatch, serve_rPush]
  cases vecValue with
  | nil => exact absurd rfl hne
  | cons v rest => simp only [serveRPush, habsent]

/-- `MSet` stores strings, one after the other. -/
theorem serve_mSet_entries {mapFileds : StringMap} (hne : mapFileds.entries ≠ []) :
    serve listing db (argBytes (SyncCall.mSet mapFileds).args)
      = (statusOk, mapFileds.entries.foldl (fun db p => db.store p.1 (.string p.2)) db) := by
  rw [argBytes_mSet]
  cases hentries : mapFileds.entries with
  | nil => exact absurd hentries hne
  | cons p rest =>
      have hflat : ((p :: rest).flatMap fun p => [p.1, p.2])
          = p.1 :: p.2 :: rest.flatMap fun p => [p.1, p.2] := rfl
      rw [hflat, serve_mSet, serveMSet, ← hflat, pairs_flatMap]

/-- A hash that a command wrote has fewer than `2 ^ 31` fields. -/
theorem entries_length_lt {strKey : Bytes} {mapFileds : StringMap}
    (hsize : (Resp.command (argBytes (SyncCall.hMSet strKey mapFileds).args)).length < 2147483648) :
    mapFileds.entries.length < 2147483648 := by
  have hlen := length_args_lt hsize
  rw [argBytes_hMSet, List.length_cons, List.length_cons, length_flatMap_two] at hlen
  omega

/-- The server lists a hash that is there, -/
theorem serve_hGetAll_entries {strKey : Bytes} {fields : List (Bytes × Bytes)}
    (hstored : db strKey = some (.hash fields)) :
    (serve listing db (argBytes (SyncCall.hGetAll strKey).args)).1
      = .array (listed (listing fields)) := by
  have hargs : argBytes (SyncCall.hGetAll strKey).args = [ascii "HGETALL", strKey] := rfl
  rw [hargs, serve_hGetAll, serveHGetAll, hstored]
  rfl

/-- and `HGetAll` gives the hash, in whatever order it was listed. -/
theorem read_hash (hlisting : ∀ fields, (listing fields).Perm fields) {strKey : Bytes}
    {mapFileds : StringMap} (hne : mapFileds.entries ≠ [])
    (hcount : mapFileds.entries.length < 2147483648)
    (hstored : db strKey = some (.hash mapFileds.entries)) :
    (SyncCall.hGetAll strKey).finish redisOk
        (some (serve listing db (argBytes (SyncCall.hGetAll strKey).args)).1)
      = .ok (redisResultOk, mapFileds) := by
  rw [serve_hGetAll_entries listing db hstored]
  simp only [SyncCall.hGetAll, RedisReply.isNil, Bool.false_eq_true, if_false,
    parseStringMap_listing (hlisting _) hne hcount]
  rfl

/-- The server gives the whole of a list that is there, -/
theorem serve_getListByRange_all {strKey : Bytes} {vecValue : StringVector} (hne : vecValue ≠ [])
    (hstored : db strKey = some (.list vecValue)) :
    (serve listing db (argBytes (SyncCall.getListByRange strKey 0 (vecValue.length - 1)).args)).1
      = .array (vecValue.map .string) := by
  have hpos := List.length_pos_iff.mpr hne
  have hlast : (vecValue.length : ℤ) - 1 = ((vecValue.length - 1 : ℕ) : ℤ) := by omega
  rw [argBytes_getListByRange_all strKey hne, serve_lRange]
  simp only [serveLRange, parseInt_dec, hstored]
  rw [← hlast, Int.natCast_zero, listRange_all hne]

/-- and `GetListByRange` hands it out. -/
theorem read_list {strKey : Bytes} {vecValue : StringVector} (hne : vecValue ≠ [])
    (hstored : db strKey = some (.list vecValue)) :
    (SyncCall.getListByRange strKey 0 (vecValue.length - 1)).finish redisOk
        (some (serve listing db
          (argBytes (SyncCall.getListByRange strKey 0 (vecValue.length - 1)).args)).1)
      = .ok (redisResultOk, vecValue) := by
  rw [serve_getListByRange_all listing db hne hstored]
  simp only [SyncCall.getListByRange, SyncCall.ifReply, parseStringArray_strings]
  rfl

/-- The server gives the strings that are there, -/
theorem serve_mGet_entries {entries : List (Bytes × Bytes)} (hne : entries ≠ [])
    (hstored : ∀ p ∈ entries, db p.1 = some (.string p.2)) :
    (serve listing db (argBytes (SyncCall.mGet (entries.map Prod.fst)).args)).1
      = .array ((entries.map Prod.snd).map .string) := by
  have hvals : (entries.map Prod.fst).map (serveGetOne db)
      = (entries.map Prod.snd).map .string := by
    rw [List.map_map, List.map_map]
    refine List.map_congr_left fun p hp => ?_
    simp only [Function.comp_apply, serveGetOne, hstored p hp]
  have hkeys : entries.map Prod.fst ≠ [] := by simpa using hne
  rw [argBytes_mGet, ← hvals]
  cases hmap : entries.map Prod.fst with
  | nil => exact absurd hmap hkeys
  | cons key rest => rw [serve_mGet, serveMGet, if_neg (List.cons_ne_nil _ _)]

/-- and `MGet` hands them out. -/
theorem read_strings {entries : List (Bytes × Bytes)} (hne : entries ≠ [])
    (hstored : ∀ p ∈ entries, db p.1 = some (.string p.2)) :
    (SyncCall.mGet (entries.map Prod.fst)).finish redisOk
        (some (serve listing db (argBytes (SyncCall.mGet (entries.map Prod.fst)).args)).1)
      = .ok (redisResultOk, entries.map Prod.snd) := by
  rw [serve_mGet_entries listing db hne hstored]
  simp only [SyncCall.mGet, SyncCall.arrayOp, SyncCall.ifReply, parseStringArray_strings]
  rfl

end Served

/-! ## Writing and reading -/

section Roundtrip

variable (listing : List (Bytes × Bytes) → List (Bytes × Bytes)) (db : Keyspace)
  {m : RedisMgr} {threadIdx : ℤ} {i : ℕ} {connection : RedisConnection} {α β : Type}

/-- One operation writes and the next one reads, on a connection to the server that takes
their two commands and answers them: both return `REDIS_RESULT_OK` with these outputs, and
what the server got is their commands. -/
def Roundtrip (m : RedisMgr) (threadIdx : ℤ) (i : ℕ) (connection : RedisConnection)
    (write : SyncOp α) (read : SyncOp β) (out : α) (out' : β) : Prop :=
  (Resp.command (argBytes write.args)).length < 2147483648 →
  (Resp.command (argBytes read.args)).length < 2147483648 →
  Online connection.ctx [argBytes write.args, argBytes read.args]
    (serveAll listing db [argBytes write.args, argBytes read.args]) →
  ∃ m₁ m₂ connection₂, write.exec m threadIdx = .ok (redisResultOk, out, m₁) ∧
    read.exec m₁ threadIdx = .ok (redisResultOk, out', m₂) ∧
    m₂.vecRedisContext[i]? = some connection₂ ∧
    serverInput connection₂.ctx.sock.log = serverInput connection.ctx.sock.log
      ++ Resp.command (argBytes write.args) ++ Resp.command (argBytes read.args)

/-- It is enough to know what the server answers and what the operations make of that. -/
theorem roundtrip_of_serve (hi : m.getRedisConnection threadIdx = .ok i)
    (hconnection : m.vecRedisContext[i]? = some connection) {write : SyncOp α} {read : SyncOp β}
    {out : α} {out' : β} {r : RedisReply} {db' : Keyspace}
    (hwants : write.wantsReply = true) (hwants' : read.wantsReply = true)
    (hwrite : serve listing db (argBytes write.args) = (r, db'))
    (hfinish : write.finish redisOk (some r) = .ok (redisResultOk, out))
    (hfinish' : read.finish redisOk (some (serve listing db' (argBytes read.args)).1)
      = .ok (redisResultOk, out')) :
    Roundtrip listing db m threadIdx i connection write read out out' := by
  intro hsize hsize' honline
  rw [serveAll, serveAll, serveAll, hwrite] at honline
  obtain ⟨m₁, connection₁, hexec, hi₁, hconnection₁, honline₁, hinput⟩ :=
    exec_online hi hconnection hwants hsize honline hfinish
  obtain ⟨m₂, connection₂, hexec₂, -, hconnection₂, -, hinput₂⟩ :=
    exec_online hi₁ hconnection₁ hwants' hsize' honline₁ hfinish'
  exact ⟨m₁, m₂, connection₂, hexec, hexec₂, hconnection₂, by rw [hinput₂, hinput]⟩

section Online

variable (hi : m.getRedisConnection threadIdx = .ok i)
  (hconnection : m.vecRedisContext[i]? = some connection)
include hi hconnection

/-- **A hash.** -/
theorem hash_roundtrip (hlisting : ∀ fields, (listing fields).Perm fields) (strKey : Bytes)
    {mapFileds : StringMap} (hne : mapFileds.entries ≠ []) (habsent : db strKey = none) :
    Roundtrip listing db m threadIdx i connection (SyncCall.hMSet strKey mapFileds)
      (SyncCall.hGetAll strKey) () mapFileds := by
  intro hsize
  have hserve := serve_hMSet_entries listing db hne habsent
  have hread := read_hash listing (db.store strKey (.hash mapFileds.entries)) hlisting hne
    (entries_length_lt hsize) (Keyspace.store_self db _ _)
  exact roundtrip_of_serve listing db hi hconnection rfl rfl hserve rfl hread hsize

/-- **A list.** -/
theorem list_roundtrip (strKey : Bytes) {vecValue : StringVector} (iLen : ℕ) (hne : vecValue ≠ [])
    (habsent : db strKey = none) :
    Roundtrip listing db m threadIdx i connection
      (SyncCall.pushListTailBatch strKey vecValue iLen)
      (SyncCall.getListByRange strKey 0 (vecValue.length - 1)) vecValue.length vecValue := by
  intro hsize
  have hcount : vecValue.length < 2147483648 := by
    have hlen := length_args_lt hsize
    rw [argBytes_pushListTailBatch, List.length_cons, List.length_cons] at hlen
    omega
  have hserve := serve_pushListTailBatch listing db iLen hne habsent
  have hread := read_list listing (db.store strKey (.list vecValue)) hne (Keyspace.store_self db _ _)
  refine roundtrip_of_serve listing db hi hconnection rfl rfl hserve ?_ hread hsize
  simp only [SyncCall.pushListTailBatch, SyncCall.rPushVec, SyncCall.pushOp, SyncCall.ifReply,
    RedisReply.getInteger, if_true]
  rw [toUInt32_eq_self (by omega) (by omega), Int.toNat_natCast]
  rfl

/-- **Several strings.** -/
theorem strings_roundtrip {mapFileds : StringMap} (hne : mapFileds.entries ≠ []) :
    Roundtrip listing db m threadIdx i connection (SyncCall.mSet mapFileds)
      (SyncCall.mGet (mapFileds.entries.map Prod.fst)) () (mapFileds.entries.map Prod.snd) :=
  roundtrip_of_serve listing db hi hconnection rfl rfl (serve_mSet_entries listing db hne) rfl
    (read_strings listing _ hne fun _ hp => foldl_store_of_mem db mapFileds.nodup_keys hp)

end Online

/-- **Collections are read back as they were written.**  Whatever bytes they hold, and in
whatever order the server lists the fields of a hash; what the output containers held
before plays no part, since the three operations that read clear them first. -/
theorem collections_roundtrip (hlisting : ∀ fields, (listing fields).Perm fields)
    (hi : m.getRedisConnection threadIdx = .ok i)
    (hconnection : m.vecRedisContext[i]? = some connection) :
    (∀ strKey mapFileds, mapFileds.entries ≠ [] → db strKey = none →
      Roundtrip listing db m threadIdx i connection (SyncCall.hMSet strKey mapFileds)
        (SyncCall.hGetAll strKey) () mapFileds) ∧
    (∀ strKey vecValue iLen, vecValue ≠ [] → db strKey = none →
      Roundtrip listing db m threadIdx i connection
        (SyncCall.pushListTailBatch strKey vecValue iLen)
        (SyncCall.getListByRange strKey 0 (vecValue.length - 1)) vecValue.length vecValue) ∧
    (∀ mapFileds : StringMap, mapFileds.entries ≠ [] →
      Roundtrip listing db m threadIdx i connection (SyncCall.mSet mapFileds)
        (SyncCall.mGet (mapFileds.entries.map Prod.fst)) () (mapFileds.entries.map Prod.snd)) :=
  ⟨fun strKey _ hne habsent =>
      hash_roundtrip listing db hi hconnection hlisting strKey hne habsent,
    fun strKey _ iLen hne habsent =>
      list_roundtrip listing db hi hconnection strKey iLen hne habsent,
    fun _ hne => strings_roundtrip listing db hi hconnection hne⟩

end Roundtrip

/-- Two fields, an empty one and one with framing bytes and a NUL. -/
def exampleMap : StringMap := OrderedMap.empty.emplaceAll [([13, 10, 36, 0], [0]), ([], [])]

/-- A connection on which a read brings nothing, then the two replies come. -/
def exampleConnection : RedisConnection where
  ctx := freshContext (List.replicate 80 (.sent 9)) [.chunk [], .chunk [.reply statusOk],
    .chunk [.reply (.array (listed exampleMap.entries.reverse))]]

/-- The client with this connection only. -/
def exampleMgr : RedisMgr where
  vecRedisContext := [exampleConnection]
  connectNum := 1
  world := { connects := [] }

/-- A hash of two fields, which the server lists in the other order. -/
theorem collections_roundtrip_hash : ∃ m₁ m₂,
    (SyncCall.hMSet (ascii "k") exampleMap).exec exampleMgr 0 = .ok (redisResultOk, (), m₁) ∧
    (SyncCall.hGetAll (ascii "k")).exec m₁ 0 = .ok (redisResultOk, exampleMap, m₂) := by
  have hi : exampleMgr.getRedisConnection 0 = .ok 0 := rfl
  have hconnection : exampleMgr.vecRedisContext[0]? = some exampleConnection := rfl
  have hroundtrip := (collections_roundtrip List.reverse (fun _ => none) List.reverse_perm hi
    hconnection).1 (ascii "k") exampleMap (by decide) rfl
  have hsent : ∀ o ∈ exampleConnection.ctx.sock.sends, o.isSent = true := by
    intro o ho
    rw [List.eq_of_mem_replicate ho]
    rfl
  obtain ⟨m₁, m₂, -, hwrite, hread, -⟩ := hroundtrip (by decide +kernel) (by decide +kernel)
    ⟨rfl, rfl, hsent, by decide +kernel, .wait (.reply (.reply (.nil _)))⟩
  exact ⟨m₁, m₂, hwrite, hread⟩

end SeedCore.Redis
