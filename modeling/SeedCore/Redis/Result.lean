import SeedCore.Lib.OrderedMap
import SeedCore.Redis.Hiredis

/-!
# Reading a reply

The methods of `RedisResult` that the operations use, on the reply they wrap.  A
method with an output reference takes what the variable holds and returns what it
holds afterwards, beside the returned flag.
-/

namespace SeedCore.Redis

/-- `StringMap` -/
abbrev StringMap := OrderedMap Bytes Bytes

/-- `StringVector` -/
abbrev StringVector := List Bytes

/-- `REDIS_RESULT_NODATA` -/
def redisResultNoData : ℤ := -999
/-- `REDIS_RESULT_OK` -/
def redisResultOk : ℤ := 0
/-- `REDIS_ERR_OTHER` -/
def redisErrOther : ℤ := RedisErr.other.code

namespace RedisReply

/-- `GetInteger` -/
def getInteger (val : ℤ) : RedisReply → Bool × ℤ
  | .integer i => (true, i)
  | _ => (false, val)

/-- `GetString`: an empty string leaves the variable alone. -/
def getString (strVal : Bytes) : RedisReply → Bool × Bytes
  | .string str => (true, if 0 < str.length then str else strVal)
  | _ => (false, strVal)

/-- `IsNil` -/
def isNil : RedisReply → Bool
  | .nil => true
  | _ => false

/-- `IsOK`, by `strcmp`. -/
def isOK : RedisReply → Bool
  | .status str => cstr str = ascii "OK"
  | _ => false

/-- `ParseStringArray`: an element that is not a string counts as an empty one. -/
def parseStringArray (vals : StringVector) : RedisReply → Bool × StringVector
  | .array element => (true, vals ++ element.map fun e => (e.getString []).2)
  | _ => (false, vals)

/-- The loop of `ParseStringMap`, with `bound` for `_reply->elements - 1` in `size_t`.
Every iteration moves past two elements, so their number is enough `fuel`. -/
def parseStringMapLoop (element : List RedisReply) (bound : ℕ) :
    ℕ → ℕ → StringMap → Except Stuck StringMap
  | 0, _, _ => .error .blocked
  | fuel + 1, i, vals =>
      if i < bound then
        match element[i]?, element[i + 1]? with
        | some key, some val =>
            parseStringMapLoop element bound fuel (i + 2)
              (vals.emplace (key.getString []).2 (val.getString []).2)
        | _, _ => .error .outOfBounds
      else .ok vals

/-- `ParseStringMap` -/
def parseStringMap (vals : StringMap) : RedisReply → Except Stuck (Bool × StringMap)
  | .array element => do
      let vals ← parseStringMapLoop element (toUInt64 (element.length - 1)) (element.length + 1) 0 vals
      .ok (true, vals)
  | _ => .ok (false, vals)

end RedisReply

end SeedCore.Redis
