/-
**The command handlers.**

Every handler of `ArrayCmdDispatchCtx`, as a program over what it can ask of the server
(`ServerCall`): an operation of the storage API, a piece of the server's own state, a reply. It
returns whether it took the command. The handlers fall into families:

* `withKey`, `withKeyAnd` — the checks of the arguments: a key, or a key and one more;
* `countReply`, `elementReply`, `stringsReply`, `pairsReply` — one operation, whose wrong type is
  answered with an error, and whose other failures look like an absent key;
* `countOr`, `bulkOrNull` — one operation, all of whose failures look like that;
* `countKeys` — `DEL` and `EXISTS`, one operation per argument;
* `hsetPairs` — `HSET`, one operation per pair.

`dispatchArrayCommandsLookup` finds the handler of a command by its name.
-/

import SunKV.Protocol.Serializer
import SunKV.Storage.Engine

namespace SunKV.Storage

open SunKV.Lib

/-! ### The storage API with its own types -/

/-- The type of the value an operation returns. -/
@[reducible] def Command.Value : Command → Type
  | .set _ _ => Bool
  | .get _ | .lpop _ | .rpop _ | .lindex _ _ | .hget _ _ => Option Bytes
  | .keys | .smembers _ => List Bytes
  | .hgetall _ => List (Bytes × Bytes)
  | .del _ | .keyExists _ | .expire _ _ | .persist _ | .ttl _ | .pttl _ | .dbsize | .lpush _ _
  | .rpush _ _ | .llen _ | .sadd _ _ | .srem _ _ | .scard _ | .sismember _ _ | .hset _ _ _
  | .hdel _ _ | .hlen _ | .hexists _ _ => Int

/-- The operation itself. -/
def Command.operation : (command : Command) → Engine (StorageResult command.Value)
  | .set key value => Storage.set key value
  | .get key => Storage.get key
  | .del key => Storage.del key
  | .keyExists key => Storage.keyExists key
  | .expire key ttlSeconds => Storage.expire key ttlSeconds
  | .persist key => Storage.persist key
  | .ttl key => Storage.ttl key
  | .pttl key => Storage.pttl key
  | .dbsize => Storage.dbsize
  | .keys => Storage.keys
  | .lpush key values => Storage.lpush key values
  | .rpush key values => Storage.rpush key values
  | .lpop key => Storage.lpop key
  | .rpop key => Storage.rpop key
  | .llen key => Storage.llen key
  | .lindex key index => Storage.lindex key index
  | .sadd key members => Storage.sadd key members
  | .srem key members => Storage.srem key members
  | .scard key => Storage.scard key
  | .sismember key member => Storage.sismember key member
  | .smembers key => Storage.smembers key
  | .hset key field value => Storage.hset key field value
  | .hget key field => Storage.hget key field
  | .hdel key fields => Storage.hdel key fields
  | .hlen key => Storage.hlen key
  | .hexists key field => Storage.hexists key field
  | .hgetall key => Storage.hgetall key

/-- The value read as a reply. -/
def Command.wrap : (command : Command) → command.Value → Reply
  | .set _ _ => .flag
  | .get _ | .lpop _ | .rpop _ | .lindex _ _ | .hget _ _ => .element
  | .keys | .smembers _ => .elements
  | .hgetall _ => .pairs
  | .del _ | .keyExists _ | .expire _ _ | .persist _ | .ttl _ | .pttl _ | .dbsize | .lpush _ _
  | .rpush _ _ | .llen _ | .sadd _ _ | .srem _ _ | .scard _ | .sismember _ _ | .hset _ _ _
  | .hdel _ _ | .hlen _ | .hexists _ _ => .int

theorem Command.program_eq (command : Command) :
    command.program = do return (← command.operation).reply command.wrap := by
  cases command <;> rfl

end SunKV.Storage

namespace SunKV.Server

open SunKV.Lib SunKV.Protocol SunKV.Storage

/-! ### What a handler can ask -/

/-- The calls of a handler. `flushAll` is `loadSnapshot` with nothing, and the submission of a
`ClearAll`. -/
inductive ServerCall
  | api (command : Command)
  | flushAll
  | isHealthy
  | createSnapshot
  | statsReport (kvSize : Int)
  | resetStats
  | maxTtlSeconds
  | subscribeChannel (channel : Bytes)
  | unsubscribeChannel (channel : Bytes)
  | unsubscribeAllChannels
  | publishMessage (channel payload : Bytes)
  | writeResp (data : Bytes)

/-- The type of the answer. -/
@[reducible] def ServerCall.Answer : ServerCall → Type
  | .api command => StorageResult command.Value
  | .flushAll => Unit
  | .isHealthy => Bool
  | .createSnapshot => Bool
  | .statsReport _ => Bytes
  | .resetStats => Unit
  | .maxTtlSeconds => Int
  | .subscribeChannel _ => Nat
  | .unsubscribeChannel _ => Nat
  | .unsubscribeAllChannels => List (Bytes × Nat)
  | .publishMessage _ _ => Int
  | .writeResp _ => Unit

/-- A part of a handler. -/
abbrev Serving := Program ServerCall.Answer

/-- A handler: whether it took the command. -/
abbrev Handling := Serving Bool

/-- `server.storage2_.api->…`. -/
def api (command : Command) : Serving (StorageResult command.Value) :=
  Program.ask (ServerCall.api command)

/-- `server.isRunning() && !server.isStopping()`. -/
def isHealthy : Serving Bool := Program.ask ServerCall.isHealthy

/-- `server.create_multi_type_snapshot()`. -/
def createMultiTypeSnapshot : Serving Bool := Program.ask ServerCall.createSnapshot

/-- `server.maxTtlSeconds()`. -/
def maxTtlSeconds : Serving Int := Program.ask ServerCall.maxTtlSeconds

/-- `server.subscribeChannel_(conn, channel)`. -/
def subscribeChannel (channel : Bytes) : Serving Nat :=
  Program.ask (ServerCall.subscribeChannel channel)

/-- `server.unsubscribeChannel_(conn, channel)`. -/
def unsubscribeChannel (channel : Bytes) : Serving Nat :=
  Program.ask (ServerCall.unsubscribeChannel channel)

/-- `server.unsubscribeAllChannels_(conn)`. -/
def unsubscribeAllChannels : Serving (List (Bytes × Nat)) :=
  Program.ask ServerCall.unsubscribeAllChannels

/-- `server.publishMessage_(channel, payload)`. -/
def publishMessage (channel payload : Bytes) : Serving Int :=
  Program.ask (ServerCall.publishMessage channel payload)

/-- `writeResp`. -/
def writeResp (data : Bytes) : Serving Unit := Program.ask (ServerCall.writeResp data)

/-- The last lines of a handler. -/
def answer (data : Bytes) : Handling := do
  writeResp data
  return true

/-- An error reply. -/
def answerError (message : String) : Handling := answer (serializeError (text message))

/-- `send_wrongtype`. -/
def wrongTypeError : Bytes :=
  serializeError (text "WRONGTYPE Operation against a key holding the wrong kind of value")

/-- `buildStatsReport`: the other figures of the report do not come from the store. -/
def buildStatsReport : Serving Bytes := do
  let r ← api .dbsize
  Program.ask (ServerCall.statsReport (if r.status = .ok then r.value else 0))

/-! ### Arguments -/

/-- `require_bulk` and `bulk_value`. The enumerators of a null bulk string and of a bulk string are
equal, and its value is the empty string. -/
def bulk? : RespValue → Option Bytes
  | .bulkString value => some value
  | .nullBulkString => some []
  | _ => none

variable (cmdArray : List RespValue)

/-- The bulk string at a position. -/
def bulkAt (idx : Nat) : Option Bytes := (cmdArray[idx]?).bind bulk?

/-- The bulk strings behind the key; other values are skipped. -/
def bulksBehindKey : List Bytes := (cmdArray.drop 2).filterMap bulk?

/-- At least `size` elements, of which the second is a key. -/
def withKey (size : Nat) (use : Bytes → Handling) : Handling :=
  if cmdArray.length < size then return false
  else
    match bulkAt cmdArray 1 with
    | none => return false
    | some key => use key

/-- At least three elements: a key, and an argument. -/
def withKeyAnd (use : Bytes → Bytes → Handling) : Handling :=
  withKey cmdArray 3 fun key =>
    match bulkAt cmdArray 2 with
    | none => return false
    | some arg => use key arg

/-- No arguments. -/
def alone (use : Handling) : Handling := if cmdArray.length ≠ 1 then return false else use

/-! ### Replies -/

/-- A number, `failed` for a failure. -/
def countOr (failed : Int) (r : StorageResult Int) : Bytes :=
  serializeInteger (if r.status = .ok then r.value else failed)

/-- A number, `0` for a failure other than a wrong type. -/
def countReply (r : StorageResult Int) : Bytes :=
  if r.status = .wrongType then wrongTypeError else countOr 0 r

/-- A string, null for a failure. -/
def bulkOrNull (r : StorageResult (Option Bytes)) : Bytes :=
  match r.value with
  | none => kNullBulkString
  | some value => if r.status = .ok then serializeBulkString value else kNullBulkString

/-- A string, null for a failure other than a wrong type. -/
def elementReply (r : StorageResult (Option Bytes)) : Bytes :=
  if r.status = .wrongType then wrongTypeError else bulkOrNull r

/-- Strings, none for a failure other than a wrong type. -/
def stringsReply (r : StorageResult (List Bytes)) : Bytes :=
  if r.status = .wrongType then wrongTypeError
  else serializeStrings (if r.status = .ok then r.value else [])

/-- Pairs, none for a failure other than a wrong type. -/
def pairsReply (r : StorageResult (List (Bytes × Bytes))) : Bytes :=
  if r.status = .wrongType then wrongTypeError
  else
    serializeStrings (if r.status = .ok then r.value.flatMap fun pair => [pair.1, pair.2] else [])

/-- A message of the subscription protocol. -/
def subscriptionReply (kind : String) (channel : Bytes) (count : Nat) : Bytes :=
  text "*3" ++ crlf ++ serializeBulkString (text kind) ++ channel ++ serializeInteger count

/-! ### The server itself -/

/-- `cmdPing`. -/
def cmdPing : Handling := alone cmdArray (answer kSimpleStringPong)

/-- `cmdHealth`. -/
def cmdHealth : Handling := alone cmdArray do
  if ← isHealthy then answer kSimpleStringOk else answerError "UNHEALTHY"

/-- `cmdSnapshot`. -/
def cmdSnapshot : Handling := alone cmdArray do
  if ← createMultiTypeSnapshot then answer kSimpleStringOk
  else answerError "Snapshot creation failed"

/-- `cmdDbsize`. -/
def cmdDbsize : Handling := alone cmdArray do
  answer (countOr 0 (← api .dbsize))

/-- `cmdFlushall`. -/
def cmdFlushall : Handling := alone cmdArray do
  Program.ask ServerCall.flushAll
  answer kSimpleStringOk

/-- `cmdMonitor`. -/
def cmdMonitor : Handling := alone cmdArray do answer (serializeBulkString (← buildStatsReport))

/-- `cmdStats`. -/
def cmdStats : Handling := alone cmdArray do answer (serializeBulkString (← buildStatsReport))

/-- `std::toupper`. -/
def toUpper (byte : UInt8) : UInt8 := if 97 ≤ byte ∧ byte ≤ 122 then byte - 32 else byte

/-- `cmdDebug`. -/
def cmdDebug : Handling :=
  match bulkAt cmdArray 1 with
  | none => answerError "ERR wrong number of arguments for 'DEBUG' command"
  | some subcmd =>
    if subcmd.map toUpper = text "INFO" then do answer (serializeBulkString (← buildStatsReport))
    else if subcmd.map toUpper = text "RESETSTATS" then do
      Program.ask ServerCall.resetStats
      answer kSimpleStringOk
    else answerError "ERR unknown DEBUG subcommand"

/-! ### Channels -/

/-- The loop of `cmdSubscribe` and `cmdUnsubscribe`: one call and one reply per channel. -/
def eachChannel (call : Bytes → Serving Nat) (kind : String) : List RespValue → Handling
  | [] => return true
  | arg :: rest =>
    match bulk? arg with
    | none => return false
    | some channel => do
      let count ← call channel
      writeResp (subscriptionReply kind (serializeBulkString channel) count)
      eachChannel call kind rest

/-- `cmdSubscribe`. -/
def cmdSubscribe : Handling :=
  if cmdArray.length < 2 then return false
  else eachChannel subscribeChannel "subscribe" (cmdArray.drop 1)

/-- The replies to `UNSUBSCRIBE` without argument. -/
def eachUnsubscribed : List (Bytes × Nat) → Handling
  | [] => return true
  | item :: rest => do
    writeResp (subscriptionReply "unsubscribe" (serializeBulkString item.1) item.2)
    eachUnsubscribed rest

/-- `cmdUnsubscribe`. -/
def cmdUnsubscribe : Handling :=
  if cmdArray.length = 1 then do
    let unsubscribed ← unsubscribeAllChannels
    if unsubscribed.isEmpty then answer (subscriptionReply "unsubscribe" kNullBulkString 0)
    else eachUnsubscribed unsubscribed
  else eachChannel unsubscribeChannel "unsubscribe" (cmdArray.drop 1)

/-- `cmdPublish`. -/
def cmdPublish : Handling :=
  if cmdArray.length ≠ 3 then return false
  else
    withKeyAnd cmdArray fun channel payload => do
      answer (serializeInteger (← publishMessage channel payload))

/-! ### Keys and strings -/

/-- `cmdSet`. -/
def cmdSet : Handling := withKeyAnd cmdArray fun key value => do
  let r ← api (.set key value)
  if r.status = .quotaExceeded then answerError "OOM maxmemory" else answer kSimpleStringOk

/-- `cmdGet`. -/
def cmdGet : Handling := withKey cmdArray 2 fun key => do
  answer (bulkOrNull (← api (.get key)))

/-- The loop of `cmdDel` and `cmdExists`: one operation per bulk string. -/
def countKeys (call : Bytes → Serving (StorageResult Int)) : List RespValue → Int → Handling
  | [], count => answer (serializeInteger count)
  | arg :: rest, count =>
    match bulk? arg with
    | none => countKeys call rest count
    | some key => do
      let r ← call key
      countKeys call rest (if r.status = .ok ∧ 0 < r.value then count + r.value else count)

/-- `cmdDel`. -/
def cmdDel : Handling :=
  if cmdArray.length < 2 then return false
  else countKeys (fun key => api (.del key)) (cmdArray.drop 1) 0

/-- `cmdExists`. -/
def cmdExists : Handling :=
  if cmdArray.length < 2 then return false
  else countKeys (fun key => api (.keyExists key)) (cmdArray.drop 1) 0

/-- `cmdKeys`. -/
def cmdKeys (_ : List RespValue) : Handling := do
  let r ← api .keys
  answer (serializeStrings (if r.status = .ok then r.value else []))

/-- `cmdExpire`. -/
def cmdExpire : Handling := withKeyAnd cmdArray fun key ttl =>
  match stoll ttl with
  | none => answerError "Invalid TTL value"
  | some ttlSeconds => do
    if (← maxTtlSeconds) < ttlSeconds then
      answerError "ERR TTL exceeds server max_ttl_seconds"
    else
      answer (countOr 0 (← api (.expire key (Int64.ofInt ttlSeconds))))

/-- `cmdTtl`. -/
def cmdTtl : Handling := withKey cmdArray 2 fun key => do
  answer (countOr (-2) (← api (.ttl key)))

/-- `cmdPttl`. -/
def cmdPttl : Handling := withKey cmdArray 2 fun key => do
  answer (countOr (-2) (← api (.pttl key)))

/-- `cmdPersist`. -/
def cmdPersist : Handling := withKey cmdArray 2 fun key => do
  answer (countOr 0 (← api (.persist key)))

/-! ### Lists -/

/-- `cmdLpush`. -/
def cmdLpush : Handling := withKey cmdArray 3 fun key => do
  answer (countReply (← api (.lpush key (bulksBehindKey cmdArray))))

/-- `cmdRpush`. -/
def cmdRpush : Handling := withKey cmdArray 3 fun key => do
  answer (countReply (← api (.rpush key (bulksBehindKey cmdArray))))

/-- `cmdLpop`. -/
def cmdLpop : Handling := withKey cmdArray 2 fun key => do
  answer (elementReply (← api (.lpop key)))

/-- `cmdRpop`. -/
def cmdRpop : Handling := withKey cmdArray 2 fun key => do
  answer (elementReply (← api (.rpop key)))

/-- `cmdLlen`. -/
def cmdLlen : Handling := withKey cmdArray 2 fun key => do
  answer (countReply (← api (.llen key)))

/-- `cmdLindex`. -/
def cmdLindex : Handling := withKeyAnd cmdArray fun key index =>
  match stoll index with
  | none => answerError "ERR value is not an integer or out of range"
  | some index => do answer (elementReply (← api (.lindex key index)))

/-! ### Sets -/

/-- `cmdSadd`. -/
def cmdSadd : Handling := withKey cmdArray 3 fun key => do
  answer (countReply (← api (.sadd key (bulksBehindKey cmdArray))))

/-- `cmdSrem`. -/
def cmdSrem : Handling := withKey cmdArray 3 fun key => do
  answer (countReply (← api (.srem key (bulksBehindKey cmdArray))))

/-- `cmdSmembers`. -/
def cmdSmembers : Handling := withKey cmdArray 2 fun key => do
  answer (stringsReply (← api (.smembers key)))

/-- `cmdScard`. -/
def cmdScard : Handling := withKey cmdArray 2 fun key => do
  answer (countReply (← api (.scard key)))

/-- `cmdSismember`. -/
def cmdSismember : Handling := withKeyAnd cmdArray fun key member => do
  answer (countReply (← api (.sismember key member)))

/-! ### Hashes -/

/-- The loop of `cmdHset`: pairs that are not two bulk strings are skipped, and a wrong type ends
it. -/
def hsetPairs (key : Bytes) : List RespValue → Int → Handling
  | field :: value :: rest, added =>
    match bulk? field, bulk? value with
    | some field, some value => do
      let r : StorageResult Int ← api (.hset key field value)
      if r.status = .wrongType then answer wrongTypeError
      else hsetPairs key rest (if r.status = .ok then added + r.value else added)
    | _, _ => hsetPairs key rest added
  | _, added => answer (serializeInteger added)

/-- `cmdHset`. -/
def cmdHset : Handling :=
  if cmdArray.length < 4 then return false
  else
    match bulkAt cmdArray 1 with
    | none => answerError "ERR wrong number of arguments for 'hset' command"
    | some key =>
      if (cmdArray.length - 2) % 2 ≠ 0 then
        answerError "ERR wrong number of arguments for 'hset' command"
      else hsetPairs key (cmdArray.drop 2) 0

/-- `cmdHget`. -/
def cmdHget : Handling := withKeyAnd cmdArray fun key field => do
  answer (elementReply (← api (.hget key field)))

/-- `cmdHdel`. -/
def cmdHdel : Handling := withKey cmdArray 3 fun key => do
  answer (countReply (← api (.hdel key (bulksBehindKey cmdArray))))

/-- `cmdHgetall`. -/
def cmdHgetall : Handling := withKey cmdArray 2 fun key => do
  answer (pairsReply (← api (.hgetall key)))

/-- `cmdHlen`. -/
def cmdHlen : Handling := withKey cmdArray 2 fun key => do
  answer (countReply (← api (.hlen key)))

/-- `cmdHexists`. -/
def cmdHexists : Handling := withKeyAnd cmdArray fun key field => do
  answer (countReply (← api (.hexists key field)))

/-! ### The table -/

/-- `array_cmd_dispatch_table`. -/
def arrayCmdDispatchTable : List (String × (List RespValue → Handling)) :=
  [("PING", cmdPing), ("HEALTH", cmdHealth), ("SNAPSHOT", cmdSnapshot), ("DBSIZE", cmdDbsize),
    ("FLUSHALL", cmdFlushall), ("MONITOR", cmdMonitor), ("STATS", cmdStats),
    ("SUBSCRIBE", cmdSubscribe), ("UNSUBSCRIBE", cmdUnsubscribe), ("PUBLISH", cmdPublish),
    ("SET", cmdSet), ("GET", cmdGet), ("DEL", cmdDel), ("EXISTS", cmdExists),
    ("DEBUG", cmdDebug), ("KEYS", cmdKeys), ("LPUSH", cmdLpush), ("RPUSH", cmdRpush),
    ("LPOP", cmdLpop), ("RPOP", cmdRpop), ("LLEN", cmdLlen), ("LINDEX", cmdLindex),
    ("SADD", cmdSadd), ("SREM", cmdSrem), ("SMEMBERS", cmdSmembers), ("SCARD", cmdScard),
    ("SISMEMBER", cmdSismember), ("HSET", cmdHset), ("HGET", cmdHget), ("HDEL", cmdHdel),
    ("HGETALL", cmdHgetall), ("HLEN", cmdHlen), ("HEXISTS", cmdHexists), ("EXPIRE", cmdExpire),
    ("TTL", cmdTtl), ("PTTL", cmdPttl), ("PERSIST", cmdPersist)]

/-- `dispatchArrayCommandsLookup`. -/
def dispatchArrayCommandsLookup (cmdName : Bytes) (cmdArray : List RespValue) : Handling :=
  match arrayCmdDispatchTable.find? fun entry => text entry.1 == cmdName with
  | some entry => entry.2 cmdArray
  | none => return false

end SunKV.Server
