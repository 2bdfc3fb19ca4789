import SeedCore.Redis.SyncCall

/-!
# The asynchronous operations, and what operations put on the wire

The operations of `RedisAsyncCall.cpp` build a command and queue it; what they do with
the queue is the subject of `AsyncQueue`.  Every one of them has a synchronous form
with the same inputs, so the two can be compared on all inputs at once.

The second half is about what an operation transmits: which of its inputs the bytes
determine.

## Main definitions

* `AsyncCall.asyncDel` … `AsyncCall.asyncSRem` — the commands they build.
* `AsyncName`, `AsyncName.sync` — an operation and its synchronous form.
* `async_sameFrame_iff` — which operations send the same command in both forms.
* `transmitted_ne_iff` — which pairs of calls can be told apart on the wire.
-/

namespace SeedCore.Redis

namespace AsyncCall

open SyncCall (cmd entryArgs)

def asyncDel (strKey : Bytes) : List Arg := [cmd "DEL", .str strKey]

def asyncSet (strKey strVal : Bytes) : List Arg := [cmd "SET", .str strKey, .str strVal]

/-- `AsyncSetStringWithOption` appends neither `strValue` nor, for `XX`, that option. -/
def asyncSetStringWithOption (strKey _strValue : Bytes) (iOption : SetCmdOptionType)
    (iExpireMS : ℤ) : List Arg :=
  [cmd "SET", .str strKey]
    ++ (if iExpireMS ≠ 0 then [cmd "PX", .num iExpireMS] else [])
    ++ (if iOption = .nx then [cmd "NX"] else [])
    ++ (if iOption = .xx then [cmd "EX"] else [])

def asyncIncr (strKey : Bytes) : List Arg := [cmd "INCR", .str strKey]

def asyncIncrby (strKey : Bytes) (iVal : ℤ) : List Arg := [cmd "INCRBY", .str strKey, .num iVal]

def asyncDecr (strKey : Bytes) : List Arg := [cmd "DECR", .str strKey]

def asyncDecrby (strKey : Bytes) (iVal : ℤ) : List Arg := [cmd "DECRBy", .str strKey, .num iVal]

def asyncHSet (strKey strFiled strVal : Bytes) : List Arg :=
  [cmd "HSET", .str strKey, .str strFiled, .str strVal]

def asyncHSetNx (strKey strFiled strVal : Bytes) : List Arg :=
  [cmd "HSETNX", .str strKey, .str strFiled, .str strVal]

def asyncHMSet (strKey : Bytes) (mapFiledVals : StringMap) : List Arg :=
  cmd "HMSET" :: .str strKey :: entryArgs mapFiledVals

def asyncPushListBack (strKey strValue : Bytes) : List Arg :=
  [cmd "RPUSH", .str strKey, .str strValue]

def asyncPushListBackBatch (strKey : Bytes) (vecValue : StringVector) : List Arg :=
  cmd "RPUSH" :: .str strKey :: vecValue.map .str

/-- `AsyncTrimList` sends `LPUSH`. -/
def asyncTrimList (strKey : Bytes) (iStartIndex iStopIndex : ℤ) : List Arg :=
  [cmd "LPUSH", .str strKey, .num iStartIndex, .num iStopIndex]

def asyncSAdd (strKey member : Bytes) : List Arg := [cmd "SADD", .str strKey, .str member]

/-- `AsyncSAdd`, for several members. -/
def asyncSAddVec (strKey : Bytes) (vecMembers : StringVector) : List Arg :=
  cmd "SADD" :: .str strKey :: vecMembers.map .str

def asyncSRem (strKey strMember : Bytes) : List Arg := [cmd "SREM", .str strKey, .str strMember]

end AsyncCall

/-- The asynchronous operations by name. -/
inductive AsyncName
  | del | set | setStringWithOption | incr | incrby | decr | decrby | hSet | hSetNx | hMSet
  | pushListBack | pushListBackBatch | trimList | sAdd | sAddVec | sRem
  deriving DecidableEq, Repr

/-- The synchronous form of an operation. -/
def AsyncName.sync : AsyncName → SyncName
  | .del => .del
  | .set => .set
  | .setStringWithOption => .setStringWithOption
  | .incr => .incr
  | .incrby => .incrby
  | .decr => .decr
  | .decrby => .decrby
  | .hSet => .hSet
  | .hSetNx => .hSetNx
  | .hMSet => .hMSet
  | .pushListBack => .pushListTail
  | .pushListBackBatch => .pushListTailBatch
  | .trimList => .trimList
  | .sAdd => .sAdd
  | .sAddVec => .sAddVec
  | .sRem => .sRem

/-- The arguments that an asynchronous operation appends.  Its inputs are those of the
synchronous form. -/
def AsyncName.args : (name : AsyncName) → name.sync.Params → List Arg
  | .del, strKey => AsyncCall.asyncDel strKey
  | .set, (strKey, strVal) => AsyncCall.asyncSet strKey strVal
  | .setStringWithOption, (strKey, strValue, iOption, iExpireMS) =>
      AsyncCall.asyncSetStringWithOption strKey strValue iOption iExpireMS
  | .incr, strKey => AsyncCall.asyncIncr strKey
  | .incrby, (strKey, iVal) => AsyncCall.asyncIncrby strKey iVal
  | .decr, strKey => AsyncCall.asyncDecr strKey
  | .decrby, (strKey, iVal) => AsyncCall.asyncDecrby strKey iVal
  | .hSet, (strKey, strFiled, strVal) => AsyncCall.asyncHSet strKey strFiled strVal
  | .hSetNx, (strKey, strFiled, strVal) => AsyncCall.asyncHSetNx strKey strFiled strVal
  | .hMSet, (strKey, mapFiledVals) => AsyncCall.asyncHMSet strKey mapFiledVals
  | .pushListBack, (strKey, strValue) => AsyncCall.asyncPushListBack strKey strValue
  | .pushListBackBatch, (strKey, vecValue) => AsyncCall.asyncPushListBackBatch strKey vecValue
  | .trimList, (strKey, iStartIndex, iStopIndex) =>
      AsyncCall.asyncTrimList strKey iStartIndex iStopIndex
  | .sAdd, (strKey, member) => AsyncCall.asyncSAdd strKey member
  | .sAddVec, (strKey, vecMembers) => AsyncCall.asyncSAddVec strKey vecMembers
  | .sRem, (strKey, strMember) => AsyncCall.asyncSRem strKey strMember

/-- The builder that an asynchronous operation queues. -/
def AsyncName.cmdBuilder (name : AsyncName) (p : name.sync.Params) : RedisCmdBuilder :=
  runOps (buildOps (name.args p))

/-! ## Both forms of an operation -/

/-- Appending arguments keeps a builder open. -/
theorem Open.puts {b : RedisCmdBuilder} {done : List Arg} (h : Open b done) (args : List Arg) :
    Open ((args.map BuilderOp.put).foldl BuilderOp.apply b) (done ++ args) := by
  induction args generalizing b done with
  | nil => simpa using h
  | cons arg args ih =>
      have := ih (h.put arg)
      rwa [List.append_assoc] at this

/-- What lies at the send pointer of a builder that was just committed. -/
theorem getSendBuff_buildOps (args : List Arg) :
    (runOps (buildOps args)).getSendBuff = frame args := by
  rw [buildOps, runOps, List.foldl_append, List.foldl_cons, List.foldl_nil, BuilderOp.apply]
  exact (open_default.puts args).getSendBuff_commit

/-- The first two bytes of a frame are those of its header. -/
theorem take_two_frame (args : List Arg) : (frame args).take 2 = (header args.length).take 2 := by
  have hlen : 2 ≤ (header args.length).length := by simp [header, crlf]
  rw [frame, List.take_append_of_le_length hlen]

section Differ

variable (strKey strValue : Bytes)

/-- One argument less is a different header. -/
theorem frame_setStringWithOption_ne (iOption : SetCmdOptionType) (iExpireMS : ℤ) :
    frame (AsyncCall.asyncSetStringWithOption strKey strValue iOption iExpireMS) ≠
      frame (SyncCall.setStringWithOption strKey strValue iOption iExpireMS).args := by
  intro h
  have h2 := congrArg (List.take 2) h
  rw [take_two_frame, take_two_frame] at h2
  revert h2
  by_cases hexp : iExpireMS = 0 <;> cases iOption <;>
    simp only [AsyncCall.asyncSetStringWithOption, SyncCall.setStringWithOption, hexp, ne_eq,
      not_true_eq_false, not_false_eq_true, if_true, if_false, reduceCtorEq, List.append_nil,
      List.cons_append, List.nil_append, List.length_cons, List.length_nil] <;>
    decide

/-- `LPUSH` is not `LTRIM`. -/
theorem frame_trimList_ne (iStartIndex iStopIndex : ℤ) :
    frame (AsyncCall.asyncTrimList strKey iStartIndex iStopIndex) ≠
      frame (SyncCall.trimList strKey iStartIndex iStopIndex).args := by
  intro h
  simp only [frame, AsyncCall.asyncTrimList, SyncCall.trimList, SyncCall.statusOp,
    List.length_cons, List.flatMap_cons] at h
  obtain ⟨hname, -⟩ := List.append_inj (List.append_cancel_left h) (by decide)
  exact absurd hname (by decide)

end Differ

/-- The other operations append the same arguments in both forms. -/
theorem async_args_eq (name : AsyncName) (p : name.sync.Params) (out : Outputs)
    (hset : name ≠ .setStringWithOption) (htrim : name ≠ .trimList) :
    name.args p = (name.sync.op p out).args := by
  cases name with
  | setStringWithOption => exact absurd rfl hset
  | trimList => exact absurd rfl htrim
  | _ => rfl

/-- **Which operations send the same command in both forms**: all but
`SetStringWithOption` and `TrimList`, which never do. -/
theorem async_sameFrame_iff (name : AsyncName) (p : name.sync.Params) (out : Outputs) :
    SameFrame (name.sync.op p out).cmdBuilder (name.cmdBuilder p) ↔
      name ≠ .setStringWithOption ∧ name ≠ .trimList := by
  constructor
  · intro h
    have hpay := h.payload_eq
    rw [AsyncName.cmdBuilder, SyncOp.cmdBuilder, getSendBuff_buildOps, getSendBuff_buildOps] at hpay
    constructor
    · rintro rfl
      exact frame_setStringWithOption_ne _ _ _ _ hpay
    · rintro rfl
      exact frame_trimList_ne _ _ _ hpay
  · rintro ⟨hset, htrim⟩
    rw [AsyncName.cmdBuilder, async_args_eq name p out hset htrim]
    exact sameFrame_refl _

/-- `AsyncTrimList` of a list pushes the two indices onto it. -/
theorem asyncTrimList_pushes :
    (AsyncName.cmdBuilder .trimList (ascii "k", 0, 9)).command
        = [ascii "LPUSH", ascii "k", ascii "0", ascii "9"] ∧
      (SyncName.op .trimList (ascii "k", 0, 9) {}).cmdBuilder.command
        = [ascii "LTRIM", ascii "k", ascii "0", ascii "9"] ∧
      ¬ SameFrame (SyncName.op .trimList (ascii "k", 0, 9) {}).cmdBuilder
        (AsyncName.cmdBuilder .trimList (ascii "k", 0, 9)) :=
  ⟨by decide, by decide, fun h => absurd h.payload_eq (by decide)⟩

/-! ## What the bytes determine -/

/-- An operation in either form. -/
inductive OpName
  | sync (name : SyncName)
  | async (name : AsyncName)
  deriving DecidableEq, Repr

/-- The inputs of an operation. -/
def OpName.Params : OpName → Type
  | .sync name => name.Params
  | .async name => name.sync.Params

/-- The arguments that an operation appends. -/
def OpName.args : (name : OpName) → name.Params → List Arg
  | .sync name, p => (name.op p {}).args
  | .async name, p => name.args p

/-- The inputs of a call without those that the operation does not append. -/
def SyncName.kept : (name : SyncName) → name.Params → name.Params
  | .setExpire, (strKey, _) => (strKey, 0)
  | .getSet, (strKey, _) => (strKey, [])
  | _, p => p

/-- The same for the asynchronous operations. -/
def AsyncName.kept : (name : AsyncName) → name.sync.Params → name.sync.Params
  | .setStringWithOption, (strKey, _, iOption, iExpireMS) => (strKey, [], iOption, iExpireMS)
  | _, p => p

/-- The same for either form. -/
def OpName.kept : (name : OpName) → name.Params → name.Params
  | .sync name, p => name.kept p
  | .async name, p => name.kept p

/-- The bytes that a call puts on the wire when the socket takes them. -/
def transmitted (args : List Arg) : Bytes := (runOps (buildOps args)).offered

/-- Below `2 ^ 31` bytes they are the RESP command of the arguments. -/
theorem transmitted_eq {args : List Arg}
    (h : (Resp.command (argBytes args)).length < 2147483648) :
    transmitted args = Resp.command (argBytes args) := by
  have F := framed_run _ (isCommit_buildOps args)
  rw [committedArgs_buildOps] at F
  rw [transmitted, RedisCmdBuilder.offered, F.sendLen_eq, getSendBuff_buildOps, frame_eq_command h,
    toInt32_natCast h, Int.toNat_natCast, List.take_length]

section Inputs

open SyncCall (cmd entryArgs)

variable {name : String}

@[simp] theorem bytes_str (val : Bytes) : (Arg.str val).bytes = val := rfl
@[simp] theorem bytes_num (val : ℤ) : (Arg.num val).bytes = decInt val := rfl
@[simp] theorem decInt_inj {i j : ℤ} : decInt i = decInt j ↔ i = j := decInt_injective.eq_iff

/-- The entries of a map can be read off their arguments. -/
theorem argBytes_entryArgs {map map' : StringMap} :
    argBytes (entryArgs map) = argBytes (entryArgs map') ↔ map = map' := by
  have key : ∀ l l' : List (Bytes × Bytes),
      argBytes (l.flatMap fun iter => [.str iter.1, .str iter.2])
        = argBytes (l'.flatMap fun iter => [.str iter.1, .str iter.2]) → l = l' := by
    intro l
    induction l with
    | nil =>
        intro l' h
        cases l' with
        | nil => rfl
        | cons q l' => cases h
    | cons p l ih =>
        intro l' h
        cases l' with
        | nil => cases h
        | cons q l' =>
            simp only [List.flatMap_cons, List.cons_append, List.nil_append, argBytes_cons,
              bytes_str, List.cons.injEq] at h
            rw [Prod.ext h.1 h.2.1, ih l' h.2.2]
  exact ⟨fun h => OrderedMap.ext (key _ _ h), fun h => by rw [h]⟩

theorem argBytes_key {k k' : Bytes} :
    argBytes [cmd name, .str k] = argBytes [cmd name, .str k'] ↔ k = k' := by simp

theorem argBytes_keyOnly {α : Type} {k k' : Bytes} {a : α} :
    argBytes [cmd name, .str k] = argBytes [cmd name, .str k'] ↔ (k, a) = (k', a) := by simp

theorem argBytes_keyStr {k k' v v' : Bytes} :
    argBytes [cmd name, .str k, .str v] = argBytes [cmd name, .str k', .str v'] ↔
      (k, v) = (k', v') := by simp

theorem argBytes_keyVec {k k' : Bytes} {vec vec' : StringVector} :
    argBytes (cmd name :: .str k :: vec.map .str) = argBytes (cmd name :: .str k' :: vec'.map .str) ↔
      (k, vec) = (k', vec') := by simp

theorem argBytes_keyNum {k k' : Bytes} {i i' : ℤ} :
    argBytes [cmd name, .str k, .num i] = argBytes [cmd name, .str k', .num i'] ↔
      (k, i) = (k', i') := by simp

theorem argBytes_keyNumNum {k k' : Bytes} {i i' j j' : ℤ} :
    argBytes [cmd name, .str k, .num i, .num j] = argBytes [cmd name, .str k', .num i', .num j'] ↔
      (k, i, j) = (k', i', j') := by simp

theorem argBytes_keyStrStr {k k' f f' v v' : Bytes} :
    argBytes [cmd name, .str k, .str f, .str v] = argBytes [cmd name, .str k', .str f', .str v'] ↔
      (k, f, v) = (k', f', v') := by simp

theorem argBytes_keyStrNum {k k' f f' : Bytes} {i i' : ℤ} :
    argBytes [cmd name, .str k, .str f, .num i] = argBytes [cmd name, .str k', .str f', .num i'] ↔
      (k, f, i) = (k', f', i') := by simp

theorem argBytes_vec {vec vec' : StringVector} :
    argBytes (cmd name :: vec.map .str) = argBytes (cmd name :: vec'.map .str) ↔ vec = vec' := by
  simp

theorem argBytes_map {map map' : StringMap} :
    argBytes (cmd name :: entryArgs map) = argBytes (cmd name :: entryArgs map') ↔ map = map' := by
  simp [argBytes_entryArgs]

theorem argBytes_keyMap {k k' : Bytes} {map map' : StringMap} :
    argBytes (cmd name :: .str k :: entryArgs map) = argBytes (cmd name :: .str k' :: entryArgs map') ↔
      (k, map) = (k', map') := by
  simp [argBytes_entryArgs]

/-- The tail of a `SET` with options; `x` is what it appends for `XX`. -/
def optionArgs (x : String) (iOption : SetCmdOptionType) (iExpireMS : ℤ) : List Arg :=
  (if iExpireMS ≠ 0 then [cmd "PX", .num iExpireMS] else [])
    ++ (if iOption = .nx then [cmd "NX"] else [])
    ++ (if iOption = .xx then [cmd x] else [])

/-- Option and expiry can be read off it. -/
theorem argBytes_optionArgs {x : String} (hx : (cmd x).bytes ≠ (cmd "NX").bytes)
    {o o' : SetCmdOptionType} {e e' : ℤ} :
    argBytes (optionArgs x o e) = argBytes (optionArgs x o' e') ↔ o = o' ∧ e = e' := by
  refine ⟨fun h => ?_, fun ⟨ho, he⟩ => by rw [ho, he]⟩
  by_cases he : e = 0 <;> by_cases he' : e' = 0 <;> cases o <;> cases o' <;>
    simp_all [optionArgs, Ne.symm hx]

theorem argBytes_setOption {k k' v v' : Bytes} {o o' : SetCmdOptionType} {e e' : ℤ} :
    argBytes (cmd name :: .str k :: .str v :: optionArgs "XX" o e)
        = argBytes (cmd name :: .str k' :: .str v' :: optionArgs "XX" o' e') ↔
      (k, v, o, e) = (k', v', o', e') := by
  simp [argBytes_optionArgs (x := "XX") (by decide)]

theorem argBytes_asyncSetOption {k k' : Bytes} {o o' : SetCmdOptionType} {e e' : ℤ} :
    argBytes (cmd name :: .str k :: optionArgs "EX" o e)
        = argBytes (cmd name :: .str k' :: optionArgs "EX" o' e') ↔
      ((k, [], o, e) : Bytes × Bytes × SetCmdOptionType × ℤ) = (k', [], o', e') := by
  simp [argBytes_optionArgs (x := "EX") (by decide)]

/-- The inputs that an operation keeps are those that its arguments determine. -/
theorem SyncName.argBytes_iff : (name : SyncName) → (p p' : name.Params) →
    (argBytes (name.op p {}).args = argBytes (name.op p' {}).args ↔ name.kept p = name.kept p')
  | .del, _, _ | .getTTL, _, _ | .keyExists, _, _ | .get, _, _ | .incr, _, _ | .decr, _, _
  | .hGetAll, _, _ | .hLen, _, _ | .hKeys, _, _ | .hVals, _, _ | .sMembers, _, _ => argBytes_key
  | .set, (_, _), (_, _) | .append, (_, _), (_, _) | .hGet, (_, _), (_, _) | .hDel, (_, _), (_, _)
  | .hExists, (_, _), (_, _) | .pushListTail, (_, _), (_, _) | .lPush, (_, _), (_, _)
  | .lPushX, (_, _), (_, _) | .rPush, (_, _), (_, _) | .rPushX, (_, _), (_, _)
  | .sAdd, (_, _), (_, _) | .sRem, (_, _), (_, _) => argBytes_keyStr
  | .hMGet, (_, _), (_, _) | .hDelVec, (_, _), (_, _) | .pushListTailBatch, (_, _), (_, _)
  | .lPushVec, (_, _), (_, _) | .lPushXVec, (_, _), (_, _) | .rPushVec, (_, _), (_, _)
  | .rPushXVec, (_, _), (_, _) | .sAddVec, (_, _), (_, _) | .sRemVec, (_, _), (_, _) =>
      argBytes_keyVec
  | .incrby, (_, _), (_, _) | .decrby, (_, _), (_, _) => argBytes_keyNum
  | .getListByRange, (_, _, _), (_, _, _) | .trimList, (_, _, _), (_, _, _) => argBytes_keyNumNum
  | .hSet, (_, _, _), (_, _, _) | .hSetNx, (_, _, _), (_, _, _) => argBytes_keyStrStr
  | .hIncrby, (_, _, _), (_, _, _) => argBytes_keyStrNum
  | .mGet, _, _ => argBytes_vec
  | .mSet, _, _ => argBytes_map
  | .hMSet, (_, _), (_, _) => argBytes_keyMap
  | .setStringWithOption, (_, _, _, _), (_, _, _, _) => argBytes_setOption
  -- the two operations that drop an input
  | .setExpire, (_, _), (_, _) => argBytes_keyOnly
  | .getSet, (_, _), (_, _) => argBytes_keyOnly

/-- The same for the asynchronous operations, of which one drops an input. -/
theorem AsyncName.argBytes_iff : (name : AsyncName) → (p p' : name.sync.Params) →
    (argBytes (name.args p) = argBytes (name.args p') ↔ name.kept p = name.kept p')
  | .del, _, _ | .incr, _, _ | .decr, _, _ => argBytes_key
  | .set, (_, _), (_, _) | .pushListBack, (_, _), (_, _) | .sAdd, (_, _), (_, _)
  | .sRem, (_, _), (_, _) => argBytes_keyStr
  | .pushListBackBatch, (_, _), (_, _) | .sAddVec, (_, _), (_, _) => argBytes_keyVec
  | .incrby, (_, _), (_, _) | .decrby, (_, _), (_, _) => argBytes_keyNum
  | .trimList, (_, _, _), (_, _, _) => argBytes_keyNumNum
  | .hSet, (_, _, _), (_, _, _) | .hSetNx, (_, _, _), (_, _, _) => argBytes_keyStrStr
  | .hMSet, (_, _), (_, _) => argBytes_keyMap
  | .setStringWithOption, (_, _, _, _), (_, _, _, _) => argBytes_asyncSetOption

end Inputs

theorem OpName.argBytes_iff (name : OpName) (p p' : name.Params) :
    argBytes (name.args p) = argBytes (name.args p') ↔ name.kept p = name.kept p' := by
  cases name with
  | sync name => exact name.argBytes_iff p p'
  | async name => exact name.argBytes_iff p p'

/-- **Which calls can be told apart on the wire.**  For two calls of one operation with
frames below `2 ^ 31` bytes: that they transmit different bytes if they differ in any
input, is so exactly when they then differ in an input that the operation appends. -/
theorem transmitted_ne_iff (name : OpName) (p p' : name.Params)
    (hsize : (Resp.command (argBytes (name.args p))).length < 2147483648)
    (hsize' : (Resp.command (argBytes (name.args p'))).length < 2147483648) :
    (p ≠ p' → transmitted (name.args p) ≠ transmitted (name.args p')) ↔
      (p ≠ p' → name.kept p ≠ name.kept p') := by
  rw [transmitted_eq hsize, transmitted_eq hsize', Ne, Ne, Ne, Resp.command_injective.eq_iff,
    name.argBytes_iff]

/-- Two values for one key. -/
theorem transmitted_ne_set :
    transmitted (OpName.args (.sync .set) (ascii "k", ascii "v")) ≠
      transmitted (OpName.args (.sync .set) (ascii "k", ascii "\r\n$1")) :=
  (transmitted_ne_iff (.sync .set) (ascii "k", ascii "v") (ascii "k", ascii "\r\n$1") (by decide)
    (by decide)).mpr (fun _ h => absurd (Prod.mk.inj h).2 (by decide))
    (fun h => absurd (Prod.mk.inj h).2 (by decide))

/-- `SetExpire` with ten seconds and with twenty. -/
theorem setExpire_drops_seconds :
    ∃ p p' : SyncName.Params .setExpire, p ≠ p' ∧
      transmitted (OpName.args (.sync .setExpire) p)
        = transmitted (OpName.args (.sync .setExpire) p') :=
  ⟨(ascii "k", 10), (ascii "k", 20), fun h => absurd (Prod.mk.inj h).2 (by decide), rfl⟩

end SeedCore.Redis
