import SeedCore.Redis.SyncCall

/-!
# What the operations make of a reply

The decoders of `RedisResult` for any reply, and what they mean for the operations that
use them: whether the output variable holds what the server sent and nothing else.

## Main definitions

* `Replied c b v` — `v` is received in reply to the command of `b` on `c`.
* `RedisReply.text`, `replyPairs` — what an element and a list of elements stand for.
* `parseStringMap_exact_iff` — which arrays `ParseStringMap` decodes.
-/

namespace SeedCore.Redis

/-! ## Operations that get a reply -/

/-- `v` is received in reply to the command of `b` on `c`. -/
def Replied (c : RedisContext) (b : RedisCmdBuilder) (v : RedisReply) : Prop :=
  ∃ r, sendAndGetReply c b (some none) = .ok r ∧ r.reply = some (some v)

/-- An operation that gets a reply returns what it makes of it. -/
theorem SyncOp.exec_replied {α : Type} {op : SyncOp α} {m : RedisMgr} {threadIdx : ℤ} {i : ℕ}
    {connection : RedisConnection} (hi : m.getRedisConnection threadIdx = .ok i)
    (hconnection : m.vecRedisContext[i]? = some connection) (hwants : op.wantsReply = true)
    {v : RedisReply} (h : Replied connection.ctx op.cmdBuilder v) :
    ∃ m', op.exec m threadIdx = (op.finish redisOk (some v)).map fun r => (r.1, r.2, m') := by
  obtain ⟨r, hsend, hreply⟩ := h
  refine ⟨m.update i { connection with ctx := r.ctx } m.world, ?_⟩
  rw [SyncOp.exec, execCmd_eq hi hconnection, if_pos hwants, hsend]
  simp only [Except.map, bind, Except.bind, hreply, Option.join_some]

/-- It returns when it can make something of the reply. -/
theorem SyncOp.exec_ok_iff {α : Type} {op : SyncOp α} {m : RedisMgr} {threadIdx : ℤ} {i : ℕ}
    {connection : RedisConnection} (hi : m.getRedisConnection threadIdx = .ok i)
    (hconnection : m.vecRedisContext[i]? = some connection) (hwants : op.wantsReply = true)
    {v : RedisReply} (h : Replied connection.ctx op.cmdBuilder v) {code : ℤ} {out : α} :
    (∃ m', op.exec m threadIdx = .ok (code, out, m')) ↔
      op.finish redisOk (some v) = .ok (code, out) := by
  obtain ⟨m', hexec⟩ := SyncOp.exec_replied hi hconnection hwants h
  rw [hexec]
  cases op.finish redisOk (some v) with
  | error e => simp [Except.map]
  | ok r => simp [Except.map, Prod.ext_iff]

/-- A manager whose main connection gets the reply `v` to its next command. -/
def repliedMgr (v : RedisReply) : RedisMgr where
  vecRedisContext := [{ ctx := freshContext [.sent 99] [.chunk [.reply v]] }]
  connectNum := 1
  world := { connects := [] }

/-! ## Maps -/

/-- The text of a reply: its bytes if it is a string, and none otherwise. -/
def RedisReply.text : RedisReply → Bytes
  | .string str => str
  | _ => []

/-- Into an empty variable, `GetString` gives the text of any reply. -/
theorem getString_nil (e : RedisReply) : (e.getString []).2 = e.text := by
  cases e with
  | string str =>
      rw [RedisReply.getString, RedisReply.text]
      by_cases h : 0 < str.length
      · exact if_pos h
      · rw [if_neg h]
        exact (List.length_eq_zero_iff.mp (Nat.eq_zero_of_not_pos h)).symm
  | _ => rfl

/-- The pairs in a list of elements: the first and the second, the third and the fourth, and
so on; an element without a partner is left out. -/
def replyPairs : List RedisReply → List (Bytes × Bytes)
  | [] | [_] => []
  | key :: val :: rest => (key.text, val.text) :: replyPairs rest

/-- **The loop of `ParseStringMap`** from an element on, when `bound` is the number of elements
less one. -/
theorem parseStringMapLoop_eq (done todo : List RedisReply) {bound fuel : ℕ}
    (hbound : bound + 1 = (done ++ todo).length) (hfuel : todo.length < fuel) (vals : StringMap) :
    RedisReply.parseStringMapLoop (done ++ todo) bound fuel done.length vals
      = .ok (vals.emplaceAll (replyPairs todo)) := by
  obtain ⟨fuel, rfl⟩ : ∃ n, fuel = n + 1 := ⟨fuel - 1, by omega⟩
  rw [List.length_append] at hbound
  induction todo using replyPairs.induct generalizing done fuel vals with
  | case1 =>
      rw [List.length_nil] at hbound
      rw [RedisReply.parseStringMapLoop, if_neg (by omega)]
      rfl
  | case2 e =>
      rw [List.length_singleton] at hbound
      rw [RedisReply.parseStringMapLoop, if_neg (by omega)]
      rfl
  | case3 key val rest ih =>
      rw [List.length_cons, List.length_cons] at hbound hfuel
      obtain ⟨fuel, rfl⟩ : ∃ n, fuel = n + 1 := ⟨fuel - 1, by omega⟩
      have hkey : (done ++ key :: val :: rest)[done.length]? = some key := by
        rw [List.getElem?_append_right (Nat.le_refl _), Nat.sub_self]
        rfl
      have hval : (done ++ key :: val :: rest)[done.length + 1]? = some val := by
        rw [List.getElem?_append_right (Nat.le_add_right _ 1), Nat.add_sub_cancel_left]
        rfl
      have hcat : done ++ key :: val :: rest = (done ++ [key, val]) ++ rest := by simp
      have hnext : done.length + 2 = (done ++ [key, val]).length := by
        rw [List.length_append]
        rfl
      rw [RedisReply.parseStringMapLoop, if_pos (by omega), hkey, hval]
      dsimp only
      rw [getString_nil, getString_nil, hcat, hnext]
      exact ih (done ++ [key, val]) (by omega) _ _ (by omega)

/-- On an empty array the bound wraps around, and the loop reads an element that is not
there. -/
theorem parseStringMap_nil (vals : StringMap) :
    (RedisReply.array []).parseStringMap vals = .error .outOfBounds := by
  have hbound : 0 < toUInt64 (([] : List RedisReply).length - 1) := by decide
  rw [RedisReply.parseStringMap, RedisReply.parseStringMapLoop, if_pos hbound]
  rfl

/-- `ParseStringMap` on an array with an element. -/
theorem parseStringMap_eq {element : List RedisReply} (hne : element ≠ [])
    (hsize : element.length < 18446744073709551616) (vals : StringMap) :
    (RedisReply.array element).parseStringMap vals
      = .ok (true, vals.emplaceAll (replyPairs element)) := by
  have hpos := List.length_pos_iff.mpr hne
  have hbound : toUInt64 (element.length - 1) + 1 = ([] ++ element).length := by
    rw [toUInt64_eq_self (by omega) (by omega), List.nil_append]
    omega
  have hloop := parseStringMapLoop_eq [] element hbound (Nat.lt_succ_self _) vals
  rw [List.nil_append, List.length_nil] at hloop
  rw [RedisReply.parseStringMap, hloop]
  rfl

/-- **Which arrays `ParseStringMap` decodes**: all but the empty one.  So `HGetAll` gives the
fields of every hash that has some, and does not return for a hash that is not there. -/
theorem parseStringMap_exact_iff (vals : StringMap) {element : List RedisReply}
    (hsize : element.length < 18446744073709551616) :
    ((RedisReply.array element).parseStringMap vals
        = .ok (true, vals.emplaceAll (replyPairs element)) ↔ element ≠ []) ∧
    ∀ {m : RedisMgr} {threadIdx : ℤ} {i : ℕ} {connection : RedisConnection} (strKey : Bytes),
      m.getRedisConnection threadIdx = .ok i → m.vecRedisContext[i]? = some connection →
      Replied connection.ctx (SyncCall.hGetAll strKey).cmdBuilder (.array element) →
      ((∃ m', (SyncCall.hGetAll strKey).exec m threadIdx
          = .ok (redisResultOk, .emplaceAll .empty (replyPairs element), m')) ↔ element ≠ []) := by
  by_cases hnil : element = []
  · subst hnil
    refine ⟨?_, ?_⟩
    · rw [parseStringMap_nil]
      exact iff_of_false (fun h => by cases h) (fun h => h rfl)
    · intro m threadIdx i connection strKey hi hconnection hreplied
      rw [SyncOp.exec_ok_iff hi hconnection rfl hreplied]
      refine iff_of_false ?_ (fun h => h rfl)
      intro hfinish
      have hstuck : (SyncCall.hGetAll strKey).finish redisOk (some (.array []))
          = .error .outOfBounds := by
        simp only [SyncCall.hGetAll, RedisReply.isNil, parseStringMap_nil]
        rfl
      rw [hstuck] at hfinish
      cases hfinish
  · have hparse := parseStringMap_eq hnil hsize
    refine ⟨iff_of_true (hparse vals) hnil, ?_⟩
    intro m threadIdx i connection strKey hi hconnection hreplied
    rw [SyncOp.exec_ok_iff hi hconnection rfl hreplied]
    refine iff_of_true ?_ hnil
    simp only [SyncCall.hGetAll, RedisReply.isNil, hparse]
    rfl

/-- An array with an odd number of elements, one of them no string, and a key twice. -/
theorem parseStringMap_exact_odd :
    (RedisReply.array [.string (ascii "k"), .string (ascii "1"), .integer 5, .nil,
        .string (ascii "k"), .string (ascii "2"), .string (ascii "x")]).parseStringMap .empty
      = .ok (true, .emplaceAll .empty [(ascii "k", ascii "1"), ([], []), (ascii "k", ascii "2")]) :=
  (parseStringMap_exact_iff .empty (by decide)).1.mpr (List.cons_ne_nil _ _)

/-- The server's answer for a hash that is not there is an empty array. -/
theorem hGetAll_absent :
    (RedisReply.array []).parseStringMap .empty = .error .outOfBounds ∧
    ∀ code out m', (SyncCall.hGetAll (ascii "k")).exec (repliedMgr (.array [])) 0 ≠ .ok (code, out, m') := by
  refine ⟨parseStringMap_nil _, ?_⟩
  have hexec : (SyncCall.hGetAll (ascii "k")).exec (repliedMgr (.array [])) 0 = .error .outOfBounds := by
    rfl
  intro code out m' h
  rw [hexec] at h
  cases h

/-! ## Strings -/

/-- The operations whose output is one string. -/
inductive StringCall
  | get (strKey : Bytes)
  | getSet (strKey strVal : Bytes)
  | hGet (strKey strFiled : Bytes)

namespace StringCall

/-- The operation, when its output variable holds `initial`. -/
def op : StringCall → Bytes → SyncOp Bytes
  | .get strKey, initial => SyncCall.get strKey initial
  | .getSet strKey strVal, initial => SyncCall.getSet strKey strVal initial
  | .hGet strKey strFiled, initial => SyncCall.hGet strKey strFiled initial

/-- The command, which does not depend on the output variable. -/
def builder (call : StringCall) : RedisCmdBuilder := (call.op []).cmdBuilder

/-- The code that is returned for a reply. -/
def code : StringCall → RedisReply → ℤ
  | _, .string _ => redisResultOk
  | .hGet _ _, .nil => redisResultNoData
  | .hGet _ _, _ => redisResultOk
  | _, _ => redisResultNoData

def isHGet : StringCall → Bool
  | .hGet _ _ => true
  | _ => false

/-- A reply after which `initial` cannot be mistaken for a result: a string that is not empty
unless `initial` is, or nil; `Get` and `GetSet` accept no other reply anyway. -/
def Exact (call : StringCall) (initial : Bytes) : RedisReply → Prop
  | .string str => str = [] → initial = []
  | .nil => True
  | _ => call.isHGet = false

end StringCall

theorem finish_stringCall (call : StringCall) (initial : Bytes) (v : RedisReply) :
    (call.op initial).finish redisOk (some v) = .ok (call.code v, (v.getString initial).2) := by
  cases call with
  | get strKey => cases v <;> rfl
  | getSet strKey strVal => cases v <;> rfl
  | hGet strKey strFiled => cases v <;> rfl

/-- What success means for one reply and one previous content. -/
theorem stringCall_exact_iff (call : StringCall) (initial : Bytes) (v : RedisReply) :
    (call.code v = redisResultOk → v = .string (v.getString initial).2) ↔ call.Exact initial v := by
  cases v with
  | string str =>
      cases str with
      | nil => simp [StringCall.code, StringCall.Exact, RedisReply.getString, eq_comm]
      | cons b str => simp [StringCall.code, StringCall.Exact, RedisReply.getString]
  | nil =>
      have hcode : call.code .nil = redisResultNoData := by cases call <;> rfl
      refine iff_of_true ?_ trivial
      rw [hcode]
      intro h
      cases h
  | _ => cases call <;> simp [StringCall.code, StringCall.Exact, StringCall.isHGet, redisResultOk,
      redisResultNoData]

/-- When the previous content never matters, the output is the reply's. -/
theorem stringCall_agree_iff (call : StringCall) (v : RedisReply) :
    (call.code v = redisResultOk →
        ∀ initial initial', (v.getString initial).2 = (v.getString initial').2) ↔
      ∀ initial, call.Exact initial v := by
  constructor
  · intro h initial
    rw [← stringCall_exact_iff]
    intro hcode
    have hagree := h hcode
    cases v with
    | string str => rw [hagree initial [], getString_nil, RedisReply.text]
    | _ => cases hagree [] [0]
  · intro h hcode initial initial'
    have heq := (stringCall_exact_iff call initial v).mpr (h initial) hcode
    have heq' := (stringCall_exact_iff call initial' v).mpr (h initial') hcode
    exact RedisReply.string.inj (heq.symm.trans heq')

/-- **When a string result does not depend on the variable**: one run, and two runs that get
the same reply. -/
theorem stringCall_result_iff {m : RedisMgr} {threadIdx : ℤ} {i : ℕ} {connection : RedisConnection}
    (hi : m.getRedisConnection threadIdx = .ok i) (hconnection : m.vecRedisContext[i]? = some connection)
    (call : StringCall) {v : RedisReply} (hreplied : Replied connection.ctx call.builder v) :
    (∀ initial, ∃ code out m', (call.op initial).exec m threadIdx = .ok (code, out, m') ∧
      ((code = redisResultOk → v = .string out) ↔ call.Exact initial v)) ∧
    ((∀ initial initial' out out' m' m'',
        (call.op initial).exec m threadIdx = .ok (redisResultOk, out, m') →
        (call.op initial').exec m threadIdx = .ok (redisResultOk, out', m'') → out = out') ↔
      ∀ initial, call.Exact initial v) := by
  have hexec : ∀ initial, ∃ m', (call.op initial).exec m threadIdx
      = .ok (call.code v, (v.getString initial).2, m') := by
    intro initial
    have hwants : (call.op initial).wantsReply = true := by cases call <;> rfl
    have hbuilder : (call.op initial).cmdBuilder = call.builder := by cases call <;> rfl
    rw [← hbuilder] at hreplied
    exact (SyncOp.exec_ok_iff hi hconnection hwants hreplied).mpr (finish_stringCall call initial v)
  constructor
  · intro initial
    obtain ⟨m', h⟩ := hexec initial
    exact ⟨_, _, m', h, stringCall_exact_iff call initial v⟩
  · rw [← stringCall_agree_iff]
    constructor
    · intro h hcode initial initial'
      obtain ⟨m', hrun⟩ := hexec initial
      obtain ⟨m'', hrun'⟩ := hexec initial'
      rw [hcode] at hrun hrun'
      exact h _ _ _ _ _ _ hrun hrun'
    · intro h initial initial' out out' m' m'' hrun hrun'
      obtain ⟨_, hmine⟩ := hexec initial
      obtain ⟨_, hmine'⟩ := hexec initial'
      rw [hmine, Except.ok.injEq, Prod.mk.injEq, Prod.mk.injEq] at hrun
      rw [hmine', Except.ok.injEq, Prod.mk.injEq, Prod.mk.injEq] at hrun'
      rw [← hrun.2.1, ← hrun'.2.1]
      exact h hrun.1 initial initial'

/-- A `GET` that is answered with a value. -/
theorem stringCall_result_get : ∃ code out m',
    (SyncCall.get (ascii "k") (ascii "old")).exec (repliedMgr (.string (ascii "v"))) 0
      = .ok (code, out, m') ∧ (code = redisResultOk → .string (ascii "v") = RedisReply.string out) := by
  have hmain : (repliedMgr (.string (ascii "v"))).getRedisConnection 0 = .ok 0 := rfl
  obtain ⟨code, out, m', hexec, hiff⟩ :=
    (stringCall_result_iff hmain rfl (.get (ascii "k")) ⟨_, rfl, rfl⟩).1 (ascii "old")
  exact ⟨code, out, m', hexec, hiff.mpr fun h => by cases h⟩

/-- A `GET` of an empty string leaves the old value in the variable. -/
theorem get_keeps_old : ∃ m',
    (SyncCall.get (ascii "k") (ascii "old")).exec (repliedMgr (.string [])) 0
      = .ok (redisResultOk, ascii "old", m') ∧
    RedisReply.string [] ≠ .string (ascii "old") :=
  ⟨_, rfl, fun h => by cases h⟩

/-! ## Vectors -/

/-- The operations whose output is a vector. -/
inductive VectorCall
  | mGet (vecFileds : StringVector)
  | hMGet (strKey : Bytes) (vecFileds : StringVector)
  | hKeys (strKey : Bytes)
  | hVals (strKey : Bytes)
  | getListByRange (strKey : Bytes) (iStartIndex iStopIndex : ℤ)
  | sMembers (strKey : Bytes)

namespace VectorCall

/-- The operation, when its output variable holds `initial`.  All but `HVals` clear the
variable before they do anything with it. -/
def op : VectorCall → StringVector → SyncOp StringVector
  | .mGet vecFileds, _ => SyncCall.mGet vecFileds
  | .hMGet strKey vecFileds, _ => SyncCall.hMGet strKey vecFileds
  | .hKeys strKey, _ => SyncCall.hKeys strKey
  | .hVals strKey, initial => SyncCall.hVals strKey initial
  | .getListByRange strKey iStartIndex iStopIndex, _ =>
      SyncCall.getListByRange strKey iStartIndex iStopIndex
  | .sMembers strKey, _ => SyncCall.sMembers strKey

/-- The command, which does not depend on the output variable. -/
def builder (call : VectorCall) : RedisCmdBuilder := (call.op []).cmdBuilder

def isHVals : VectorCall → Bool
  | .hVals _ => true
  | _ => false

end VectorCall

/-- `ParseStringArray` appends the texts of the elements. -/
theorem parseStringArray_eq (vals : StringVector) (element : List RedisReply) :
    (RedisReply.array element).parseStringArray vals = (true, vals ++ element.map RedisReply.text) := by
  rw [RedisReply.parseStringArray]
  simp only [getString_nil]

theorem finish_vectorCall (call : VectorCall) (initial : StringVector) (element : List RedisReply) :
    (call.op initial).finish redisOk (some (.array element))
      = .ok (redisResultOk,
          (if call.isHVals then initial else []) ++ element.map RedisReply.text) := by
  cases call <;> simp only [VectorCall.op, SyncCall.mGet, SyncCall.hMGet, SyncCall.hKeys,
    SyncCall.hVals, SyncCall.getListByRange, SyncCall.sMembers, SyncCall.arrayOp, SyncCall.ifReply,
    parseStringArray_eq] <;> rfl

/-- **When a vector result replaces the previous content**: `HVals` adds to it. -/
theorem vectorCall_replaces_iff {m : RedisMgr} {threadIdx : ℤ} {i : ℕ} {connection : RedisConnection}
    (hi : m.getRedisConnection threadIdx = .ok i) (hconnection : m.vecRedisContext[i]? = some connection)
    (call : VectorCall) {element : List RedisReply}
    (hreplied : Replied connection.ctx call.builder (.array element)) (initial : StringVector) :
    (∃ m', (call.op initial).exec m threadIdx
        = .ok (redisResultOk, element.map RedisReply.text, m')) ↔
      (call.isHVals = true → initial = []) := by
  have hwants : (call.op initial).wantsReply = true := by cases call <;> rfl
  have hbuilder : (call.op initial).cmdBuilder = call.builder := by cases call <;> rfl
  rw [← hbuilder] at hreplied
  rw [SyncOp.exec_ok_iff hi hconnection hwants hreplied, finish_vectorCall]
  cases hvals : call.isHVals <;> simp

/-- Two elements, one of them nil, read into a vector with content. -/
theorem vectorCall_replaces_mGet : ∃ m',
    (SyncCall.mGet [ascii "a", ascii "b"]).exec (repliedMgr (.array [.string (ascii "1"), .nil])) 0
      = .ok (redisResultOk, [ascii "1", []], m') := by
  have hmain : (repliedMgr (.array [.string (ascii "1"), .nil])).getRedisConnection 0 = .ok 0 := rfl
  have hreplied : Replied
      (freshContext [.sent 99] [.chunk [.reply (.array [.string (ascii "1"), .nil])]])
      (VectorCall.mGet [ascii "a", ascii "b"]).builder (.array [.string (ascii "1"), .nil]) :=
    ⟨_, rfl, rfl⟩
  exact (vectorCall_replaces_iff hmain rfl _ hreplied [ascii "old"]).mpr fun h => by cases h

/-- `HVals` keeps what the vector held. -/
theorem hVals_appends : ∃ m',
    (SyncCall.hVals (ascii "k") [ascii "old"]).exec
      (repliedMgr (.array [.string (ascii "1")])) 0
      = .ok (redisResultOk, [ascii "old", ascii "1"], m') ∧
    [ascii "old", ascii "1"] ≠ [RedisReply.string (ascii "1")].map RedisReply.text :=
  ⟨_, rfl, by decide⟩

end SeedCore.Redis
