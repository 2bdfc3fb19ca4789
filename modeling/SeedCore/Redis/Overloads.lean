import SeedCore.Redis.AsyncCall
import SeedCore.Redis.Decoding

/-!
# Overloads for one value and for several

Seven operations take one value or a vector of them.  The two forms are written one by one;
here they are compared on a vector with a single element, in what they send and in what they
make of each reply.

## Main definitions

* `Overloaded` — the operations, with their forms `Overloaded.one` and `Overloaded.vec`.
* `overloads_agree_iff` — the operations and replies on which the forms agree.
-/

namespace SeedCore.Redis

/-- An operation with two overloads. -/
inductive Overloaded
  | hDel | lPush | lPushX | rPush | rPushX | sAdd | sRem
  deriving DecidableEq, Repr

namespace Overloaded

/-- The output variable: the new length of a list, or none. -/
def Out : Overloaded → Type
  | .lPush | .lPushX | .rPush | .rPushX => ℕ
  | .hDel | .sAdd | .sRem => Unit

/-- The form for one value, when the output variable holds `initial`. -/
def one : (o : Overloaded) → (strKey strValue : Bytes) → (initial : o.Out) → SyncOp o.Out
  | .hDel, strKey, strFiled, _ => SyncCall.hDel strKey strFiled
  | .lPush, strKey, strValue, iLen => SyncCall.lPush strKey strValue iLen
  | .lPushX, strKey, strValue, iLen => SyncCall.lPushX strKey strValue iLen
  | .rPush, strKey, strValue, iLen => SyncCall.rPush strKey strValue iLen
  | .rPushX, strKey, strValue, iLen => SyncCall.rPushX strKey strValue iLen
  | .sAdd, strKey, member, _ => SyncCall.sAdd strKey member
  | .sRem, strKey, strMember, _ => SyncCall.sRem strKey strMember

/-- The form for a vector. -/
def vec : (o : Overloaded) → (strKey : Bytes) → (vecValue : StringVector) → (initial : o.Out) →
    SyncOp o.Out
  | .hDel, strKey, strFileds, _ => SyncCall.hDelVec strKey strFileds
  | .lPush, strKey, vecValue, iLen => SyncCall.lPushVec strKey vecValue iLen
  | .lPushX, strKey, vecValue, iLen => SyncCall.lPushXVec strKey vecValue iLen
  | .rPush, strKey, vecValue, iLen => SyncCall.rPushVec strKey vecValue iLen
  | .rPushX, strKey, vecValue, iLen => SyncCall.rPushXVec strKey vecValue iLen
  | .sAdd, strKey, vecMembers, _ => SyncCall.sAddVec strKey vecMembers
  | .sRem, strKey, strMembers, _ => SyncCall.sRemVec strKey strMembers

/-- The replies on which both forms of an operation agree: no two fields of a hash were
removed, some member of a set was, and the operation is not `RPushX`. -/
def Agrees : Overloaded → RedisReply → Prop
  | .hDel, .integer i => i ≤ 1
  | .sRem, .integer i => i ≠ 0
  | .rPushX, _ => False
  | _, _ => True

end Overloaded

section Forms

variable (strKey strValue : Bytes)

/-- `RPUSHX` is not `LPUSHX`. -/
theorem frame_rPushX_ne (iLen iLen' : ℕ) :
    frame (SyncCall.rPushXVec strKey [strValue] iLen').args ≠
      frame (SyncCall.rPushX strKey strValue iLen).args := by
  intro h
  simp only [frame, SyncCall.rPushXVec, SyncCall.rPushX, SyncCall.pushOp, List.map_cons, List.map_nil,
    List.length_cons, List.flatMap_cons] at h
  obtain ⟨hname, -⟩ := List.append_inj (List.append_cancel_left h) (by decide)
  exact absurd hname (by decide)

/-- The other operations append the same arguments in both forms. -/
theorem overload_args_eq {o : Overloaded} (hne : o ≠ .rPushX) (initial : o.Out) :
    (o.vec strKey [strValue] initial).args = (o.one strKey strValue initial).args := by
  cases o with
  | rPushX => exact absurd rfl hne
  | _ => rfl

theorem overload_sameFrame_iff (o : Overloaded) (initial : o.Out) :
    SameFrame (o.one strKey strValue initial).cmdBuilder (o.vec strKey [strValue] initial).cmdBuilder ↔
      o ≠ .rPushX := by
  constructor
  · rintro h rfl
    have hpay := h.payload_eq
    rw [SyncOp.cmdBuilder, SyncOp.cmdBuilder, getSendBuff_buildOps, getSendBuff_buildOps] at hpay
    exact frame_rPushX_ne strKey strValue initial initial hpay
  · intro hne
    rw [SyncOp.cmdBuilder, SyncOp.cmdBuilder, overload_args_eq strKey strValue hne]
    exact sameFrame_refl _

/-- `HDel` counts one removed field as success, and its form for a vector any positive number. -/
theorem finish_hDel_iff (i : ℤ) :
    (SyncCall.hDelVec strKey [strValue]).finish redisOk (some (.integer i))
      = (SyncCall.hDel strKey strValue).finish redisOk (some (.integer i)) ↔ i ≤ 1 := by
  simp only [SyncCall.hDelVec, SyncCall.hDel, SyncCall.ifReply, RedisReply.getInteger]
  by_cases hone : i = 1
  · simp [hone]
  · by_cases hpos : i > 0
    · simp only [hpos, hone, if_true, if_false]
      refine iff_of_false ?_ (by omega)
      intro h
      cases h
    · simp only [hpos, hone, if_false, true_iff]
      omega

/-- `SRem` tells apart that nothing was removed, its form for a vector does not. -/
theorem finish_sRem_iff (i : ℤ) :
    (SyncCall.sRemVec strKey [strValue]).finish redisOk (some (.integer i))
      = (SyncCall.sRem strKey strValue).finish redisOk (some (.integer i)) ↔ i ≠ 0 := by
  by_cases hzero : i = 0
  · subst hzero
    exact iff_of_false (fun h => by cases h) (fun h => h rfl)
  · refine iff_of_true ?_ hzero
    simp [SyncCall.sRemVec, SyncCall.sRem, SyncCall.ifReply, RedisReply.getInteger, hzero]

theorem overload_finish_iff {o : Overloaded} (hne : o ≠ .rPushX) (initial : o.Out) (r : RedisReply) :
    (o.vec strKey [strValue] initial).finish redisOk (some r)
      = (o.one strKey strValue initial).finish redisOk (some r) ↔ o.Agrees r := by
  cases o with
  | rPushX => exact absurd rfl hne
  | hDel =>
      cases r with
      | integer i => exact finish_hDel_iff strKey strValue i
      | _ => exact iff_of_true rfl trivial
  | sRem =>
      cases r with
      | integer i => exact finish_sRem_iff strKey strValue i
      | _ => exact iff_of_true rfl trivial
  | _ => exact iff_of_true rfl trivial

/-- **When the overloads agree**: both are called, on managers of their own, and get the same
reply to the command that they send. -/
theorem overloads_agree_iff {m m' : RedisMgr} {threadIdx threadIdx' : ℤ} {i i' : ℕ}
    {connection connection' : RedisConnection} (hi : m.getRedisConnection threadIdx = .ok i)
    (hconnection : m.vecRedisContext[i]? = some connection)
    (hi' : m'.getRedisConnection threadIdx' = .ok i')
    (hconnection' : m'.vecRedisContext[i']? = some connection')
    (o : Overloaded) (initial : o.Out) {r : RedisReply}
    (hreplied : Replied connection.ctx (o.one strKey strValue initial).cmdBuilder r)
    (hreplied' : Replied connection'.ctx (o.vec strKey [strValue] initial).cmdBuilder r) :
    (SameFrame (o.one strKey strValue initial).cmdBuilder (o.vec strKey [strValue] initial).cmdBuilder ∧
      ∃ code out m₁ m₁', (o.one strKey strValue initial).exec m threadIdx = .ok (code, out, m₁) ∧
        (o.vec strKey [strValue] initial).exec m' threadIdx' = .ok (code, out, m₁')) ↔ o.Agrees r := by
  rw [overload_sameFrame_iff]
  by_cases hne : o = .rPushX
  · subst hne
    exact iff_of_false (fun h => h.1 rfl) id
  · have hwants : (o.one strKey strValue initial).wantsReply = true := by cases o <;> rfl
    have hwants' : (o.vec strKey [strValue] initial).wantsReply = true := by cases o <;> rfl
    obtain ⟨code, out, hone⟩ : ∃ code out,
        (o.one strKey strValue initial).finish redisOk (some r) = .ok (code, out) := by
      cases o <;> exact ⟨_, _, rfl⟩
    rw [← overload_finish_iff strKey strValue hne initial, hone,
      ← SyncOp.exec_ok_iff hi' hconnection' hwants' hreplied']
    constructor
    · rintro ⟨-, code', out', m₁, m₁', hexec, hexec'⟩
      have hfinish := (SyncOp.exec_ok_iff hi hconnection hwants hreplied).mp ⟨m₁, hexec⟩
      rw [hone] at hfinish
      cases hfinish
      exact ⟨m₁', hexec'⟩
    · rintro ⟨m₁', hexec'⟩
      obtain ⟨m₁, hexec⟩ := (SyncOp.exec_ok_iff hi hconnection hwants hreplied).mpr hone
      exact ⟨hne, code, out, m₁, m₁', hexec, hexec'⟩

end Forms

/-- A member that was in the set. -/
theorem overloads_agree_sRem : ∃ code out m₁ m₁',
    (SyncCall.sRem (ascii "k") (ascii "v")).exec (repliedMgr (.integer 1)) 0 = .ok (code, out, m₁) ∧
    (SyncCall.sRemVec (ascii "k") [ascii "v"]).exec (repliedMgr (.integer 1)) 0
      = .ok (code, out, m₁') := by
  have hmain : (repliedMgr (.integer 1)).getRedisConnection 0 = .ok 0 := rfl
  exact ((overloads_agree_iff (ascii "k") (ascii "v") hmain rfl hmain rfl .sRem ()
    (r := .integer 1) ⟨_, rfl, rfl⟩ ⟨_, rfl, rfl⟩).mpr (show (1 : ℤ) ≠ 0 by decide)).2

/-- A member that was not in the set: one form says so, the other does not.  And `RPushX` for
a vector pushes at the other end. -/
theorem overloads_disagree :
    (∃ m₁ m₁',
      (SyncCall.sRem (ascii "k") (ascii "v")).exec (repliedMgr (.integer 0)) 0
        = .ok (redisResultNoData, (), m₁) ∧
      (SyncCall.sRemVec (ascii "k") [ascii "v"]).exec (repliedMgr (.integer 0)) 0
        = .ok (redisResultOk, (), m₁')) ∧
    (SyncCall.rPushX (ascii "k") (ascii "v") 0).cmdBuilder.command
      = [ascii "RPUSHX", ascii "k", ascii "v"] ∧
    (SyncCall.rPushXVec (ascii "k") [ascii "v"] 0).cmdBuilder.command
      = [ascii "LPUSHX", ascii "k", ascii "v"] :=
  ⟨⟨_, _, rfl, rfl⟩, by decide, by decide⟩

end SeedCore.Redis
