/-
**The storage engine: the command semantics over the backend.**

Every public operation of `StorageEngine`, as a program over backend calls. The operations fall
into families that differ in a few values only; each family is one definition, and each member is
that definition at the member's own values:

* `unlessExpired` — `get`, `exists`, `expire`, `persist`, `ttl`, `pttl`, which repeat the expiry
  check in their own bodies;
* `readContainer` — `llen`, `lindex`, `scard`, `sismember`, `smembers`, `hget`, `hlen`, `hexists`,
  `hgetall`;
* `growContainer` — `lpush`, `rpush`, `sadd`, `hset`, over `getOrInitContainer`;
* `popList` — `lpop`, `rpop`;
* `shrinkContainer` — `srem`, `hdel`.

`Command` names them all, for statements about every operation.
-/

import SunKV.Storage.Backend

namespace SunKV.Storage

open SunKV.Lib

/-! ### The calls as one-step programs -/

/-- `backend_->getRecord(key)`. -/
def getRecord (key : Bytes) : Engine (Option Record) := Program.ask (Call.getRecord key)

/-- `backend_->putRecord(key, record)`. -/
def putRecord (key : Bytes) (record : Record) : Engine Bool :=
  Program.ask (Call.putRecord key record)

/-- `backend_->delKey(key)`. -/
def delKey (key : Bytes) : Engine Bool := Program.ask (Call.delKey key)

/-- `nowEpochUs()`. -/
def nowEpochUs : Engine Int64 := Program.ask Call.nowEpochUs

/-- `backend_->setBypassStorageLimit(on)`. -/
def setBypassStorageLimit (on : Bool) : Engine Unit := Program.ask (Call.setBypassStorageLimit on)

/-- `backend_->clearAll()`. -/
def clearAll : Engine Unit := Program.ask Call.clearAll

/-! ### Entry points of the persistence layer -/

/-- The loop of `loadSnapshot`: a refused record empties the store and ends it. -/
def loadRecords : List (Bytes × Record) → Engine Unit
  | [] => return ()
  | (key, record) :: rest => do
    if ← putRecord key record then
      loadRecords rest
    else
      clearAll

/-- `loadSnapshot`, inside the `BypassStorageLimitGuard`. -/
def loadSnapshot (records : List (Bytes × Record)) : Engine Unit := do
  setBypassStorageLimit true
  clearAll
  loadRecords records
  setBypassStorageLimit false

/-- The body of `applyMutation`. -/
def applyMutationBody (mutation : Mutation) : Engine Bool :=
  match mutation.type with
  | .putRecord =>
    match mutation.record with
    | none => return false
    | some record => putRecord mutation.key record
  | .delKey => do
    let _ ← delKey mutation.key
    return true
  | .clearAll => do
    clearAll
    return true
  | .unlisted _ _ => return false

/-- `applyMutation`, inside the `BypassStorageLimitGuard`. -/
def applyMutation (mutation : Mutation) : Engine Bool := do
  setBypassStorageLimit true
  let applied ← applyMutationBody mutation
  setBypassStorageLimit false
  return applied

/-! ### Expiry -/

/-- `isExpired`. -/
def isExpired (record : Record) (nowUs : Int64) : Bool :=
  decide (0 ≤ record.expireAtUs) && decide (record.expireAtUs ≤ nowUs)

/-- What has expired at a time has expired at every later one. -/
theorem isExpired_mono {record : Record} {time time' : Int64} (later : time ≤ time')
    (expired : isExpired record time = true) : isExpired record time' = true := by
  simp only [isExpired, Bool.and_eq_true, decide_eq_true_eq] at expired ⊢
  exact ⟨expired.1, Int64.le_trans expired.2 later⟩

/-- `getLiveRecordOrExpire`: the live record, and the mutation of the lazy deletion. -/
def getLiveRecordOrExpire (key : Bytes) : Engine (Option Record × MutationBatch) := do
  match ← getRecord key with
  | none => return (none, [])
  | some record =>
    let now ← nowEpochUs
    if isExpired record now then
      let _ ← delKey key
      return (none, [Mutation.del key now])
    else
      return (some record, [])

/-- The loop of `dumpAllLiveRecords`: the mutations of lazy deletions are thrown away. -/
def dumpRecords : List Bytes → Engine (List (Bytes × Record))
  | [] => return []
  | key :: rest => do
    let (live, _) ← getLiveRecordOrExpire key
    let dumped ← dumpRecords rest
    match live with
    | some record => return (key, record) :: dumped
    | none => return dumped

/-- `dumpAllLiveRecords`. -/
def dumpAllLiveRecords : Engine (List (Bytes × Record)) := do
  let keys ← Program.ask Call.keys
  dumpRecords keys

/-- The expiry check as `get`, `exists`, `expire`, `persist`, `ttl` and `pttl` spell it out:
`absent` for a missing or expired key, else `live` at the record and the time. -/
def unlessExpired {α : Type} (key : Bytes) (absent : α)
    (live : Record → Int64 → Engine (StorageResult α)) : Engine (StorageResult α) := do
  match ← getRecord key with
  | none => return .ok absent
  | some record =>
    let now ← nowEpochUs
    if isExpired record now then
      let _ ← delKey key
      return .ok absent [Mutation.del key now]
    else
      live record now

/-! ### Strings and keys -/

/-- `set`. -/
def set (key value : Bytes) : Engine (StorageResult Bool) := do
  let record : Record := { value := DataValue.ofString value }
  if ← putRecord key record then
    let now ← nowEpochUs
    return .ok true [Mutation.put key record now]
  else
    return .err .quotaExceeded

/-- `get`. -/
def get (key : Bytes) : Engine (StorageResult (Option Bytes)) :=
  unlessExpired key none fun record _ =>
    if record.value.type ≠ .string then
      return .err .wrongType
    else
      return .ok (some record.value.stringValue)

/-- `del`. -/
def del (key : Bytes) : Engine (StorageResult Int) := do
  if ← delKey key then
    let now ← nowEpochUs
    return .ok 1 [Mutation.del key now]
  else
    return .ok 0

/-- `exists`. -/
def keyExists (key : Bytes) : Engine (StorageResult Int) :=
  unlessExpired key 0 fun _ _ => return .ok 1

/-- `expire`; the sum is 64-bit. -/
def expire (key : Bytes) (ttlSeconds : Int64) : Engine (StorageResult Int) :=
  if ttlSeconds < 0 then
    return .err .invalidArg
  else
    unlessExpired key 0 fun record now => do
      if ttlSeconds = 0 then
        let _ ← delKey key
        return .ok 1 [Mutation.del key now]
      else
        let renewed := { record with expireAtUs := now + ttlSeconds * 1000000 }
        if ← putRecord key renewed then
          return .ok 1 [Mutation.put key renewed now]
        else
          return .err .quotaExceeded

/-- `persist`. -/
def persist (key : Bytes) : Engine (StorageResult Int) :=
  unlessExpired key 0 fun record now => do
    let renewed := { record with expireAtUs := -1 }
    if ← putRecord key renewed then
      return .ok (if 0 ≤ record.expireAtUs then 1 else 0) [Mutation.put key renewed now]
    else
      return .err .quotaExceeded

/-- `ttl` and `pttl`: the remaining time in units of `unit` microseconds. -/
def remaining (unit : Int64) (key : Bytes) : Engine (StorageResult Int) :=
  unlessExpired key (-2) fun record now => do
    if record.expireAtUs < 0 then
      return .ok (-1)
    else if record.expireAtUs - now ≤ 0 then
      let _ ← delKey key
      return .ok (-2) [Mutation.del key now]
    else
      return .ok ((record.expireAtUs - now) / unit).toInt

/-- `ttl`. -/
def ttl (key : Bytes) : Engine (StorageResult Int) := remaining 1000000 key

/-- `pttl`. -/
def pttl (key : Bytes) : Engine (StorageResult Int) := remaining 1000 key

/-- `dbsize`. -/
def dbsize : Engine (StorageResult Int) := do
  let size ← Program.ask Call.size
  return .ok size

/-- `keys`: all keys of the backend, expired ones included. -/
def keys : Engine (StorageResult (List Bytes)) := do
  let keys ← Program.ask Call.keys
  return .ok keys

/-! ### Containers -/

/-- `getOrInitContainer`: the live record of the wanted type, after storing an empty container if
there is none. -/
def getOrInitContainer (key : Bytes) (wantType : DataType) : Engine (StorageResult Record) := do
  let (live, muts) ← getLiveRecordOrExpire key
  match live with
  | none =>
    let record : Record := { value := DataValue.blank wantType }
    if ← putRecord key record then
      let now ← nowEpochUs
      return .ok record (muts ++ [Mutation.put key record now])
    else
      return .err .quotaExceeded
  | some record =>
    if record.value.type = wantType then
      return .ok record muts
    else
      return .err .wrongType

/-- A read of a container of type `wantType`: `absent` without a live key, else `view`. -/
def readContainer {α : Type} [Inhabited α] (wantType : DataType) (key : Bytes) (absent : α)
    (view : DataValue → α) : Engine (StorageResult α) := do
  let (live, muts) ← getLiveRecordOrExpire key
  match live with
  | none => return .ok absent muts
  | some record =>
    if record.value.type ≠ wantType then
      return .err .wrongType
    else
      return .ok (view record.value)

/-- A write into a container, created on demand: `grow` gives the new value and the reply. -/
def growContainer (wantType : DataType) (key : Bytes) (grow : DataValue → DataValue × Int) :
    Engine (StorageResult Int) := do
  let held ← getOrInitContainer key wantType
  if held.status ≠ .ok then
    return .err held.status
  else
    let record := { held.value with value := (grow held.value.value).1 }
    if ← putRecord key record then
      let now ← nowEpochUs
      return .ok (grow held.value.value).2 (held.mutations ++ [Mutation.put key record now])
    else
      return .err .quotaExceeded

/-- The last step of every removal: an emptied container goes, any other is stored back. -/
def storeOrDrop {α : Type} [Inhabited α] (key : Bytes) (record : Record) (empty : Bool)
    (muts : MutationBatch) (reply : α) : Engine (StorageResult α) := do
  if empty then
    let _ ← delKey key
    let now ← nowEpochUs
    return .ok reply (muts ++ [Mutation.del key now])
  else if ← putRecord key record then
    let now ← nowEpochUs
    return .ok reply (muts ++ [Mutation.put key record now])
  else
    return .err .quotaExceeded

/-- `lpop` and `rpop`: `pop` gives the element taken and the list left, nothing when it is
empty. -/
def popList (key : Bytes) (pop : List Bytes → Option (Bytes × List Bytes)) :
    Engine (StorageResult (Option Bytes)) := do
  let (live, muts) ← getLiveRecordOrExpire key
  match live with
  | none => return .ok none muts
  | some record =>
    if record.value.type ≠ .list then
      return .err .wrongType
    else
      match pop record.value.listValue with
      | none => return .ok none
      | some (elem, left) =>
        storeOrDrop key { record with value := { record.value with listValue := left } }
          left.isEmpty muts (some elem)

/-- `srem` and `hdel`: `shrink` gives the new value, whether it is empty, and the reply. -/
def shrinkContainer (wantType : DataType) (key : Bytes)
    (shrink : DataValue → DataValue × Bool × Int) : Engine (StorageResult Int) := do
  let (live, muts) ← getLiveRecordOrExpire key
  match live with
  | none => return .ok 0 muts
  | some record =>
    if record.value.type ≠ wantType then
      return .err .wrongType
    else
      storeOrDrop key { record with value := (shrink record.value).1 } (shrink record.value).2.1
        muts (shrink record.value).2.2

/-- The list with the values pushed to the front one by one, and its length. -/
def pushFront (values : List Bytes) (value : DataValue) : DataValue × Int :=
  let pushed := values.foldl (fun list item => item :: list) value.listValue
  ({ value with listValue := pushed }, pushed.length)

/-- The list with the values pushed to the back, and its length. -/
def pushBack (values : List Bytes) (value : DataValue) : DataValue × Int :=
  let pushed := values.foldl (fun list item => list ++ [item]) value.listValue
  ({ value with listValue := pushed }, pushed.length)

/-- `lpush`. -/
def lpush (key : Bytes) (values : List Bytes) : Engine (StorageResult Int) :=
  if values.isEmpty then return .err .invalidArg else growContainer .list key (pushFront values)

/-- `rpush`. -/
def rpush (key : Bytes) (values : List Bytes) : Engine (StorageResult Int) :=
  if values.isEmpty then return .err .invalidArg else growContainer .list key (pushBack values)

/-- The first element and the rest. -/
def popFront : List Bytes → Option (Bytes × List Bytes)
  | [] => none
  | first :: rest => some (first, rest)

/-- The last element and the rest. -/
def popBack (list : List Bytes) : Option (Bytes × List Bytes) :=
  list.getLast?.map fun last => (last, list.dropLast)

/-- `lpop`. -/
def lpop (key : Bytes) : Engine (StorageResult (Option Bytes)) := popList key popFront

/-- `rpop`. -/
def rpop (key : Bytes) : Engine (StorageResult (Option Bytes)) := popList key popBack

/-- `llen`. -/
def llen (key : Bytes) : Engine (StorageResult Int) :=
  readContainer .list key 0 fun value => value.listValue.length

/-- The element at an index, negative ones counted from the end. -/
def elementAt (list : List Bytes) (index : Int) : Option Bytes :=
  let idx := if index < 0 then list.length + index else index
  if idx < 0 ∨ (list.length : Int) ≤ idx then none else list[idx.toNat]?

/-- `lindex`. -/
def lindex (key : Bytes) (index : Int) : Engine (StorageResult (Option Bytes)) :=
  readContainer .list key none fun value => elementAt value.listValue index

/-- The set with the members inserted one by one, and how many were new. -/
def insertMembers (members : List Bytes) (held : StringSet) : StringSet × Int :=
  members.foldl (fun (held, added) member =>
    (held.insert member, if held.contains member then added else added + 1)) (held, 0)

/-- `sadd`. -/
def sadd (key : Bytes) (members : List Bytes) : Engine (StorageResult Int) :=
  if members.isEmpty then return .err .invalidArg
  else growContainer .set key fun value =>
    ({ value with setValue := (insertMembers members value.setValue).1 },
      (insertMembers members value.setValue).2)

/-- The set with the members erased one by one, and how many were there. -/
def eraseMembers (members : List Bytes) (held : StringSet) : StringSet × Int :=
  members.foldl (fun (held, removed) member =>
    (held.erase member, if held.contains member then removed + 1 else removed)) (held, 0)

/-- `srem`. -/
def srem (key : Bytes) (members : List Bytes) : Engine (StorageResult Int) :=
  if members.isEmpty then return .err .invalidArg
  else shrinkContainer .set key fun value =>
    ({ value with setValue := (eraseMembers members value.setValue).1 },
      (eraseMembers members value.setValue).1.isEmpty, (eraseMembers members value.setValue).2)

/-- `scard`. -/
def scard (key : Bytes) : Engine (StorageResult Int) :=
  readContainer .set key 0 fun value => value.setValue.size

/-- `sismember`. -/
def sismember (key member : Bytes) : Engine (StorageResult Int) :=
  readContainer .set key 0 fun value => if value.setValue.contains member then 1 else 0

/-- `smembers`. -/
def smembers (key : Bytes) : Engine (StorageResult (List Bytes)) :=
  readContainer .set key [] fun value => value.setValue.toList

/-- `hset`. -/
def hset (key field value : Bytes) : Engine (StorageResult Int) :=
  growContainer .hash key fun held =>
    ({ held with hashValue := held.hashValue.insert field value },
      if held.hashValue.contains field then 0 else 1)

/-- `hget`. -/
def hget (key field : Bytes) : Engine (StorageResult (Option Bytes)) :=
  readContainer .hash key none fun value => value.hashValue[field]?

/-- The hash with the fields erased one by one, and how many were there. -/
def eraseFields (fields : List Bytes) (held : Dict Bytes) : Dict Bytes × Int :=
  fields.foldl (fun (held, deleted) field =>
    (held.erase field, if held.contains field then deleted + 1 else deleted)) (held, 0)

/-- `hdel`. -/
def hdel (key : Bytes) (fields : List Bytes) : Engine (StorageResult Int) :=
  if fields.isEmpty then return .err .invalidArg
  else shrinkContainer .hash key fun value =>
    ({ value with hashValue := (eraseFields fields value.hashValue).1 },
      (eraseFields fields value.hashValue).1.isEmpty, (eraseFields fields value.hashValue).2)

/-- `hlen`. -/
def hlen (key : Bytes) : Engine (StorageResult Int) :=
  readContainer .hash key 0 fun value => value.hashValue.size

/-- `hexists`. -/
def hexists (key field : Bytes) : Engine (StorageResult Int) :=
  readContainer .hash key 0 fun value => if value.hashValue.contains field then 1 else 0

/-- `hgetall`. -/
def hgetall (key : Bytes) : Engine (StorageResult (List (Bytes × Bytes))) :=
  readContainer .hash key [] fun value => value.hashValue.toList

/-! ### Every operation -/

/-- The reply of an operation, whatever its type. -/
inductive Reply
  | flag (value : Bool)
  | int (value : Int)
  | element (value : Option Bytes)
  | elements (values : List Bytes)
  | pairs (values : List (Bytes × Bytes))
  deriving DecidableEq

/-- A result with its value read as a reply. -/
def StorageResult.reply {α : Type} (wrap : α → Reply) (result : StorageResult α) :
    StorageResult Reply where
  status := result.status
  value := wrap result.value
  mutations := result.mutations

/-- The operations of `IStorageAPI`. -/
inductive Command
  | set (key value : Bytes)
  | get (key : Bytes)
  | del (key : Bytes)
  | keyExists (key : Bytes)
  | expire (key : Bytes) (ttlSeconds : Int64)
  | persist (key : Bytes)
  | ttl (key : Bytes)
  | pttl (key : Bytes)
  | dbsize
  | keys
  | lpush (key : Bytes) (values : List Bytes)
  | rpush (key : Bytes) (values : List Bytes)
  | lpop (key : Bytes)
  | rpop (key : Bytes)
  | llen (key : Bytes)
  | lindex (key : Bytes) (index : Int)
  | sadd (key : Bytes) (members : List Bytes)
  | srem (key : Bytes) (members : List Bytes)
  | scard (key : Bytes)
  | sismember (key member : Bytes)
  | smembers (key : Bytes)
  | hset (key field value : Bytes)
  | hget (key field : Bytes)
  | hdel (key : Bytes) (fields : List Bytes)
  | hlen (key : Bytes)
  | hexists (key field : Bytes)
  | hgetall (key : Bytes)
  deriving DecidableEq

/-- The key an operation is about; `dbsize` and `keys` are about none. -/
def Command.key? : Command → Option Bytes
  | .set key _ | .get key | .del key | .keyExists key | .expire key _ | .persist key
  | .ttl key | .pttl key | .lpush key _ | .rpush key _ | .lpop key | .rpop key | .llen key
  | .lindex key _ | .sadd key _ | .srem key _ | .scard key | .sismember key _ | .smembers key
  | .hset key _ _ | .hget key _ | .hdel key _ | .hlen key | .hexists key _ | .hgetall key =>
      some key
  | .dbsize | .keys => none

/-- **The program of an operation.** -/
def Command.program : Command → Engine (StorageResult Reply)
  | .set key value => return (← Storage.set key value).reply .flag
  | .get key => return (← Storage.get key).reply .element
  | .del key => return (← Storage.del key).reply .int
  | .keyExists key => return (← Storage.keyExists key).reply .int
  | .expire key ttlSeconds => return (← Storage.expire key ttlSeconds).reply .int
  | .persist key => return (← Storage.persist key).reply .int
  | .ttl key => return (← Storage.ttl key).reply .int
  | .pttl key => return (← Storage.pttl key).reply .int
  | .dbsize => return (← Storage.dbsize).reply .int
  | .keys => return (← Storage.keys).reply .elements
  | .lpush key values => return (← Storage.lpush key values).reply .int
  | .rpush key values => return (← Storage.rpush key values).reply .int
  | .lpop key => return (← Storage.lpop key).reply .element
  | .rpop key => return (← Storage.rpop key).reply .element
  | .llen key => return (← Storage.llen key).reply .int
  | .lindex key index => return (← Storage.lindex key index).reply .element
  | .sadd key members => return (← Storage.sadd key members).reply .int
  | .srem key members => return (← Storage.srem key members).reply .int
  | .scard key => return (← Storage.scard key).reply .int
  | .sismember key member => return (← Storage.sismember key member).reply .int
  | .smembers key => return (← Storage.smembers key).reply .elements
  | .hset key field value => return (← Storage.hset key field value).reply .int
  | .hget key field => return (← Storage.hget key field).reply .element
  | .hdel key fields => return (← Storage.hdel key fields).reply .int
  | .hlen key => return (← Storage.hlen key).reply .int
  | .hexists key field => return (← Storage.hexists key field).reply .int
  | .hgetall key => return (← Storage.hgetall key).reply .pairs

end SunKV.Storage
