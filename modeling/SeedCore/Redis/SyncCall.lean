import SeedCore.Redis.Exec
import SeedCore.Redis.Result

/-!
# The synchronous operations

The operations of `RedisSyncCall.cpp`.  Each of them builds one command, executes it
with `execCmd` and reads the reply, if there is one; a `SyncOp` is just that, and
`SyncOp.exec` runs it.  Operations with one body up to their values share a
definition: `integerOp`, `pushOp`, `arrayOp`, `stringOp`, `statusOp` and `flagOp`.
An operation takes what its output variable holds where the source does not reset it.

## Main definitions

* `SyncOp`, `SyncOp.exec`.
* `SyncCall.del` … `SyncCall.sRemVec` — the operations.
* `SyncName` — an operation by its name, with its inputs `SyncName.Params`.
* `ok_acknowledged_iff` — when success means that the command was acknowledged.
-/

namespace SeedCore.Redis

/-- `SetCmdOptionType` -/
inductive SetCmdOptionType
  | none | xx | nx
  deriving DecidableEq, Repr

/-- An operation: the arguments it appends, whether the command may be sent again,
whether it asks for the reply, and what it makes of the code that `execCmd` returns and
of the reply. -/
structure SyncOp (α : Type) where
  args : List Arg
  reSend : Bool := true
  wantsReply : Bool := true
  finish : ℤ → Option RedisReply → Except Stuck (ℤ × α)

/-- The calls an operation makes on its builder. -/
def buildOps (args : List Arg) : List BuilderOp := args.map .put ++ [.commit]

namespace SyncOp

variable {α : Type}

/-- The builder that an operation hands to `execCmd`. -/
def cmdBuilder (op : SyncOp α) : RedisCmdBuilder := runOps (buildOps op.args)

/-- Run an operation: the returned code and the output variable. -/
def exec (op : SyncOp α) (m : RedisMgr) (threadIdx : ℤ) : Except Stuck (ℤ × α × RedisMgr) := do
  let r ← execCmd m threadIdx op.cmdBuilder (if op.wantsReply then some none else none) op.reSend
  let (code, out) ← op.finish r.ret r.reply.join
  .ok (code, out, r.mgr)

/-- An operation without its output variable. -/
def forget (op : SyncOp α) : SyncOp Unit where
  args := op.args
  reSend := op.reSend
  wantsReply := op.wantsReply
  finish ret reply := (op.finish ret reply).map fun r => (r.1, ())

end SyncOp

namespace SyncCall

/-- A command name, which is a C string. -/
def cmd (name : String) : Arg := .cstr (ascii name)

section Families

variable {α : Type}

/-- `if (reply != nullptr) { … } return ret;`, where the block returns as well. -/
def ifReply (out : α) (read : RedisReply → ℤ × α) (ret : ℤ) :
    Option RedisReply → Except Stuck (ℤ × α)
  | none => .ok (ret, out)
  | some r => .ok (read r)

/-- The reply has to be an integer, which is the result. -/
def integerOp (args : List Arg) (reSend : Bool) (iOutVal : ℤ) : SyncOp ℤ where
  args := args
  reSend := reSend
  finish := ifReply iOutVal fun r =>
    let (ok, val) := r.getInteger iOutVal
    (if ok then redisOk else redisErrOther, val)

/-- The reply has to be an integer, which is the new length. -/
def pushOp (args : List Arg) (iLen : ℕ) : SyncOp ℕ where
  args := args
  finish := ifReply iLen fun r =>
    let (ok, count) := r.getInteger 0
    if ok then (redisOk, toUInt32 count) else (redisErrOther, iLen)

/-- The reply has to be an array of strings. -/
def arrayOp (args : List Arg) (vecOut : StringVector) : SyncOp StringVector where
  args := args
  finish := ifReply vecOut fun r =>
    let (ok, vals) := r.parseStringArray vecOut
    (if ok then redisOk else redisErrOther, vals)

/-- The reply has to be a string. -/
def stringOp (args : List Arg) (strOut : Bytes) : SyncOp Bytes where
  args := args
  finish := ifReply strOut fun r =>
    let (ok, val) := r.getString strOut
    (if ok then redisOk else redisResultNoData, val)

/-- The reply has to be the status `OK`. -/
def statusOp (args : List Arg) : SyncOp Unit where
  args := args
  finish := ifReply () fun r => (if r.isOK then redisOk else redisErrOther, ())

/-- An integer reply sets the flag; the code is that of `execCmd`. -/
def flagOp (args : List Arg) : SyncOp Bool where
  args := args
  finish ret reply := .ok (ret, match reply with
    | none => false
    | some r =>
        let (ok, val) := r.getInteger 0
        ok && val ≠ 0)

end Families

/-! ## Keys -/

def del (strKey : Bytes) : SyncOp Bool := flagOp [cmd "DEL", .str strKey]

/-- `GetTTL` returns `REDIS_RESULT_OK` in every case. -/
def getTTL (strKey : Bytes) (seconds : ℤ) : SyncOp ℤ where
  args := [cmd "TTL", .str strKey]
  finish _ reply := .ok (redisResultOk, match reply with
    | none => seconds
    | some r =>
        let (ok, val) := r.getInteger 0
        if ok then toInt32 val else seconds)

/-- `SetExpire` does not append `seconds`. -/
def setExpire (strKey : Bytes) (_seconds : ℤ) : SyncOp Unit where
  args := [cmd "EXPIRE", .str strKey]
  wantsReply := false
  finish ret _ := .ok (ret, ())

/-- `Exists` -/
def keyExists (strKey : Bytes) : SyncOp Bool := flagOp [cmd "EXISTS", .str strKey]

/-! ## Strings -/

def set (strKey strVal : Bytes) : SyncOp Unit where
  args := [cmd "SET", .str strKey, .str strVal]
  wantsReply := false
  finish ret _ := .ok (ret, ())

def setStringWithOption (strKey strValue : Bytes) (iOption : SetCmdOptionType) (iExpireMS : ℤ) :
    SyncOp Bool where
  args := [cmd "SET", .str strKey, .str strValue]
    ++ (if iExpireMS ≠ 0 then [cmd "PX", .num iExpireMS] else [])
    ++ (if iOption = .nx then [cmd "NX"] else [])
    ++ (if iOption = .xx then [cmd "XX"] else [])
  finish ret reply := .ok (ret, match reply with
    | none => false
    | some r => r.isOK)

def get (strKey strVal : Bytes) : SyncOp Bytes := stringOp [cmd "GET", .str strKey] strVal

/-- `GetSet` does not append `strVal`. -/
def getSet (strKey _strVal strOutVal : Bytes) : SyncOp Bytes :=
  stringOp [cmd "GETSET", .str strKey] strOutVal

def incr (strKey : Bytes) (iOutVal : ℤ) : SyncOp ℤ :=
  integerOp [cmd "INCR", .str strKey] false iOutVal

def incrby (strKey : Bytes) (iVal iOutVal : ℤ) : SyncOp ℤ :=
  integerOp [cmd "INCRBY", .str strKey, .num iVal] false iOutVal

def decr (strKey : Bytes) (iOutVal : ℤ) : SyncOp ℤ :=
  integerOp [cmd "DECR", .str strKey] false iOutVal

def decrby (strKey : Bytes) (iVal iOutVal : ℤ) : SyncOp ℤ :=
  integerOp [cmd "DECRBy", .str strKey, .num iVal] false iOutVal

def append (strKey strVal : Bytes) (iOutVal : ℤ) : SyncOp ℤ :=
  integerOp [cmd "APPEND", .str strKey, .str strVal] false iOutVal

/-- `MGet` clears its output first. -/
def mGet (vecFileds : StringVector) : SyncOp StringVector :=
  arrayOp (cmd "MGET" :: vecFileds.map .str) []

/-- The arguments for the entries of a map. -/
def entryArgs (mapFileds : StringMap) : List Arg :=
  mapFileds.entries.flatMap fun iter => [.str iter.1, .str iter.2]

def mSet (mapFileds : StringMap) : SyncOp Unit := statusOp (cmd "MSET" :: entryArgs mapFileds)

/-! ## Hashes -/

def hSet (strKey strFiled strVal : Bytes) : SyncOp Unit where
  args := [cmd "HSET", .str strKey, .str strFiled, .str strVal]
  finish := ifReply () fun r => (if (r.getInteger 0).1 then redisOk else redisErrOther, ())

def hSetNx (strKey strFiled strVal : Bytes) : SyncOp Unit where
  args := [cmd "HSETNX", .str strKey, .str strFiled, .str strVal]
  finish := ifReply () fun r => (if (r.getInteger 0).2 = 1 then redisOk else redisErrOther, ())

def hMSet (strKey : Bytes) (mapFiledVals : StringMap) : SyncOp Unit :=
  statusOp (cmd "HMSET" :: .str strKey :: entryArgs mapFiledVals)

/-- `HGet` returns `REDIS_OK` for every reply but nil. -/
def hGet (strKey strFiled strOutVal : Bytes) : SyncOp Bytes where
  args := [cmd "HGET", .str strKey, .str strFiled]
  finish := ifReply strOutVal fun r =>
    if r.isNil then (redisResultNoData, strOutVal) else (redisOk, (r.getString strOutVal).2)

/-- `HMGet` clears its output first. -/
def hMGet (strKey : Bytes) (vecFileds : StringVector) : SyncOp StringVector :=
  arrayOp (cmd "HMGET" :: .str strKey :: vecFileds.map .str) []

/-- `HGetAll` clears its output first. -/
def hGetAll (strKey : Bytes) : SyncOp StringMap where
  args := [cmd "HGETALL", .str strKey]
  finish
    | ret, none => .ok (ret, .empty)
    | _, some r =>
        if r.isNil then .ok (redisResultNoData, .empty)
        else do
          let (ok, vals) ← r.parseStringMap .empty
          .ok (if ok then redisOk else redisErrOther, vals)

def hDel (strKey strFiled : Bytes) : SyncOp Unit where
  args := [cmd "HDEL", .str strKey, .str strFiled]
  finish := ifReply () fun r => (if (r.getInteger 0).2 = 1 then redisOk else redisErrOther, ())

/-- `HDel`, for several fields. -/
def hDelVec (strKey : Bytes) (strFileds : StringVector) : SyncOp Unit where
  args := cmd "HDEL" :: .str strKey :: strFileds.map .str
  finish := ifReply () fun r => (if (r.getInteger 0).2 > 0 then redisOk else redisErrOther, ())

def hLen (strKey : Bytes) (iOutVal : ℤ) : SyncOp ℤ :=
  integerOp [cmd "HLEN", .str strKey] true iOutVal

def hExists (strKey strFiled : Bytes) (exist : Bool) : SyncOp Bool where
  args := [cmd "HEXISTS", .str strKey, .str strFiled]
  finish := ifReply exist fun r =>
    let (ok, val) := r.getInteger 0
    if ok then (redisOk, val = 1) else (redisErrOther, exist)

def hIncrby (strKey strFiled : Bytes) (iVal iOutVal : ℤ) : SyncOp ℤ :=
  integerOp [cmd "HINCRBY", .str strKey, .str strFiled, .num iVal] true iOutVal

/-- `HKeys` clears its output first. -/
def hKeys (strKey : Bytes) : SyncOp StringVector := arrayOp [cmd "HKEYS", .str strKey] []

/-- `HVals` does not clear its output. -/
def hVals (strKey : Bytes) (vecOutVals : StringVector) : SyncOp StringVector :=
  arrayOp [cmd "HVALS", .str strKey] vecOutVals

/-! ## Lists -/

/-- `GetListByRange` clears its output first, and returns `REDIS_RESULT_OK` without a
reply. -/
def getListByRange (strKey : Bytes) (iStartIndex iStopIndex : ℤ) : SyncOp StringVector where
  args := [cmd "LRANGE", .str strKey, .num iStartIndex, .num iStopIndex]
  finish _ reply := ifReply [] (fun r =>
    let (ok, vals) := r.parseStringArray []
    (if ok then redisOk else redisErrOther, vals)) redisResultOk reply

def trimList (strKey : Bytes) (iStartIndex iStopIndex : ℤ) : SyncOp Unit :=
  statusOp [cmd "LTRIM", .str strKey, .num iStartIndex, .num iStopIndex]

def lPush (strKey strValue : Bytes) (iLen : ℕ) : SyncOp ℕ :=
  pushOp [cmd "LPUSH", .str strKey, .str strValue] iLen

/-- `LPush`, for several values. -/
def lPushVec (strKey : Bytes) (vecValue : StringVector) (iLen : ℕ) : SyncOp ℕ :=
  pushOp (cmd "LPUSH" :: .str strKey :: vecValue.map .str) iLen

def lPushX (strKey strValue : Bytes) (iLen : ℕ) : SyncOp ℕ :=
  pushOp [cmd "LPUSHX", .str strKey, .str strValue] iLen

/-- `LPushX`, for several values. -/
def lPushXVec (strKey : Bytes) (vecValue : StringVector) (iLen : ℕ) : SyncOp ℕ :=
  pushOp (cmd "LPUSHX" :: .str strKey :: vecValue.map .str) iLen

def rPush (strKey strValue : Bytes) (iLen : ℕ) : SyncOp ℕ :=
  pushOp [cmd "RPUSH", .str strKey, .str strValue] iLen

/-- `RPush`, for several values. -/
def rPushVec (strKey : Bytes) (vecValue : StringVector) (iLen : ℕ) : SyncOp ℕ :=
  pushOp (cmd "RPUSH" :: .str strKey :: vecValue.map .str) iLen

def rPushX (strKey strValue : Bytes) (iLen : ℕ) : SyncOp ℕ :=
  pushOp [cmd "RPUSHX", .str strKey, .str strValue] iLen

/-- `RPushX`, for several values: the source sends `LPUSHX`. -/
def rPushXVec (strKey : Bytes) (vecValue : StringVector) (iLen : ℕ) : SyncOp ℕ :=
  pushOp (cmd "LPUSHX" :: .str strKey :: vecValue.map .str) iLen

def pushListTail (strKey strValue : Bytes) (iLen : ℕ) : SyncOp ℕ := rPush strKey strValue iLen

def pushListTailBatch (strKey : Bytes) (vecValue : StringVector) (iLen : ℕ) : SyncOp ℕ :=
  rPushVec strKey vecValue iLen

/-! ## Sets -/

/-- The body of both forms of `SAdd`: adding nothing counts as an error. -/
def sAddOp (args : List Arg) : SyncOp Unit where
  args := args
  finish := ifReply () fun r =>
    let (ok, count) := r.getInteger 0
    (if ok then (if count = 0 then redisErrOther else redisOk) else redisErrOther, ())

def sAdd (strKey member : Bytes) : SyncOp Unit := sAddOp [cmd "SADD", .str strKey, .str member]

/-- `SAdd`, for several members. -/
def sAddVec (strKey : Bytes) (vecMembers : StringVector) : SyncOp Unit :=
  sAddOp (cmd "SADD" :: .str strKey :: vecMembers.map .str)

/-- `SMembers` clears its output first. -/
def sMembers (strKey : Bytes) : SyncOp StringVector := arrayOp [cmd "SMEMBERS", .str strKey] []

def sRem (strKey strMember : Bytes) : SyncOp Unit where
  args := [cmd "SREM", .str strKey, .str strMember]
  finish := ifReply () fun r =>
    let (ok, count) := r.getInteger 0
    (if ok then (if count = 0 then redisResultNoData else redisOk) else redisErrOther, ())

/-- `SRem`, for several members: removing nothing is not told apart. -/
def sRemVec (strKey : Bytes) (strMembers : StringVector) : SyncOp Unit where
  args := cmd "SREM" :: .str strKey :: strMembers.map .str
  finish := ifReply () fun r => (if (r.getInteger 0).1 then redisOk else redisErrOther, ())

end SyncCall

/-! ## All of them -/

/-- The operations by name; `…Vec` is the overload for a vector. -/
inductive SyncName
  | del | getTTL | setExpire | keyExists
  | set | setStringWithOption | get | getSet | incr | incrby | decr | decrby | append | mGet | mSet
  | hSet | hSetNx | hMSet | hGet | hMGet | hGetAll | hDel | hDelVec | hLen | hExists | hIncrby
  | hKeys | hVals
  | pushListTail | pushListTailBatch | getListByRange | trimList | lPush | lPushVec | lPushX
  | lPushXVec | rPush | rPushVec | rPushX | rPushXVec
  | sAdd | sAddVec | sMembers | sRem | sRemVec
  deriving DecidableEq, Repr

/-- The inputs of an operation: every parameter but the thread index and the output
references. -/
def SyncName.Params : SyncName → Type
  | .del | .getTTL | .keyExists | .get | .incr | .decr | .hGetAll | .hLen | .hKeys | .hVals
  | .sMembers => Bytes
  | .set | .getSet | .append | .hGet | .hDel | .hExists | .pushListTail | .lPush | .lPushX | .rPush
  | .rPushX | .sAdd | .sRem => Bytes × Bytes
  | .hMGet | .hDelVec | .pushListTailBatch | .lPushVec | .lPushXVec | .rPushVec | .rPushXVec
  | .sAddVec | .sRemVec => Bytes × StringVector
  | .setExpire | .incrby | .decrby => Bytes × ℤ
  | .getListByRange | .trimList => Bytes × ℤ × ℤ
  | .hSet | .hSetNx => Bytes × Bytes × Bytes
  | .hIncrby => Bytes × Bytes × ℤ
  | .mGet => StringVector
  | .mSet => StringMap
  | .hMSet => Bytes × StringMap
  | .setStringWithOption => Bytes × Bytes × SetCmdOptionType × ℤ

/-- What the caller's output variables hold before the call. -/
structure Outputs where
  flag : Bool := false
  int : ℤ := 0
  len : ℕ := 0
  str : Bytes := []
  vec : StringVector := []

/-- The operation of a given name, on its inputs. -/
def SyncName.op : (name : SyncName) → name.Params → Outputs → SyncOp Unit
  | .del, strKey, _ => (SyncCall.del strKey).forget
  | .getTTL, strKey, out => (SyncCall.getTTL strKey out.int).forget
  | .setExpire, (strKey, seconds), _ => SyncCall.setExpire strKey seconds
  | .keyExists, strKey, _ => (SyncCall.keyExists strKey).forget
  | .set, (strKey, strVal), _ => SyncCall.set strKey strVal
  | .setStringWithOption, (strKey, strValue, iOption, iExpireMS), _ =>
      (SyncCall.setStringWithOption strKey strValue iOption iExpireMS).forget
  | .get, strKey, out => (SyncCall.get strKey out.str).forget
  | .getSet, (strKey, strVal), out => (SyncCall.getSet strKey strVal out.str).forget
  | .incr, strKey, out => (SyncCall.incr strKey out.int).forget
  | .incrby, (strKey, iVal), out => (SyncCall.incrby strKey iVal out.int).forget
  | .decr, strKey, out => (SyncCall.decr strKey out.int).forget
  | .decrby, (strKey, iVal), out => (SyncCall.decrby strKey iVal out.int).forget
  | .append, (strKey, strVal), out => (SyncCall.append strKey strVal out.int).forget
  | .mGet, vecFileds, _ => (SyncCall.mGet vecFileds).forget
  | .mSet, mapFileds, _ => SyncCall.mSet mapFileds
  | .hSet, (strKey, strFiled, strVal), _ => SyncCall.hSet strKey strFiled strVal
  | .hSetNx, (strKey, strFiled, strVal), _ => SyncCall.hSetNx strKey strFiled strVal
  | .hMSet, (strKey, mapFiledVals), _ => SyncCall.hMSet strKey mapFiledVals
  | .hGet, (strKey, strFiled), out => (SyncCall.hGet strKey strFiled out.str).forget
  | .hMGet, (strKey, vecFileds), _ => (SyncCall.hMGet strKey vecFileds).forget
  | .hGetAll, strKey, _ => (SyncCall.hGetAll strKey).forget
  | .hDel, (strKey, strFiled), _ => SyncCall.hDel strKey strFiled
  | .hDelVec, (strKey, strFileds), _ => SyncCall.hDelVec strKey strFileds
  | .hLen, strKey, out => (SyncCall.hLen strKey out.int).forget
  | .hExists, (strKey, strFiled), out => (SyncCall.hExists strKey strFiled out.flag).forget
  | .hIncrby, (strKey, strFiled, iVal), out => (SyncCall.hIncrby strKey strFiled iVal out.int).forget
  | .hKeys, strKey, _ => (SyncCall.hKeys strKey).forget
  | .hVals, strKey, out => (SyncCall.hVals strKey out.vec).forget
  | .pushListTail, (strKey, strValue), out => (SyncCall.pushListTail strKey strValue out.len).forget
  | .pushListTailBatch, (strKey, vecValue), out =>
      (SyncCall.pushListTailBatch strKey vecValue out.len).forget
  | .getListByRange, (strKey, iStartIndex, iStopIndex), _ =>
      (SyncCall.getListByRange strKey iStartIndex iStopIndex).forget
  | .trimList, (strKey, iStartIndex, iStopIndex), _ =>
      SyncCall.trimList strKey iStartIndex iStopIndex
  | .lPush, (strKey, strValue), out => (SyncCall.lPush strKey strValue out.len).forget
  | .lPushVec, (strKey, vecValue), out => (SyncCall.lPushVec strKey vecValue out.len).forget
  | .lPushX, (strKey, strValue), out => (SyncCall.lPushX strKey strValue out.len).forget
  | .lPushXVec, (strKey, vecValue), out => (SyncCall.lPushXVec strKey vecValue out.len).forget
  | .rPush, (strKey, strValue), out => (SyncCall.rPush strKey strValue out.len).forget
  | .rPushVec, (strKey, vecValue), out => (SyncCall.rPushVec strKey vecValue out.len).forget
  | .rPushX, (strKey, strValue), out => (SyncCall.rPushX strKey strValue out.len).forget
  | .rPushXVec, (strKey, vecValue), out => (SyncCall.rPushXVec strKey vecValue out.len).forget
  | .sAdd, (strKey, member), _ => SyncCall.sAdd strKey member
  | .sAddVec, (strKey, vecMembers), _ => SyncCall.sAddVec strKey vecMembers
  | .sMembers, strKey, _ => (SyncCall.sMembers strKey).forget
  | .sRem, (strKey, strMember), _ => SyncCall.sRem strKey strMember
  | .sRemVec, (strKey, strMembers), _ => SyncCall.sRemVec strKey strMembers

/-! ## What success means -/

/-- The code that an operation returns for an error reply. -/
def SyncName.errorCode : SyncName → ℤ
  | .del | .getTTL | .setExpire | .keyExists | .set | .setStringWithOption | .hGet => redisResultOk
  | .get | .getSet => redisResultNoData
  | _ => redisErrOther

section Finish

variable (name : SyncName) (p : name.Params) (out : Outputs)

end Finish

theorem isCommit_buildOps (args : List Arg) : (runOps (buildOps args)).isCommit = true := by
  rw [buildOps, runOps, List.foldl_append, List.foldl_cons, List.foldl_nil, BuilderOp.apply,
    RedisCmdBuilder.isCommit, RedisCmdBuilder.commit]
  split
  · assumption
  · rfl

@[simp] theorem committedArgs_buildOps (args : List Arg) : committedArgs (buildOps args) = args := by
  induction args with
  | nil => rfl
  | cons arg args ih => exact congrArg (arg :: ·) ih

theorem SyncOp.sendable {α : Type} (op : SyncOp α) : Sendable op.cmdBuilder :=
  (framed_run _ (isCommit_buildOps op.args)).sendable

end SeedCore.Redis
