/-
**One call of the client, on the server.**

A call about one key is one operation of the store (`KeyCall.command`). Its handler renders the
result of the operation, and the client's method reads the reply back:

* `Reply.wire` — the reply that stands for a result, `Reply.said` — the reply as the client holds
  it;
* `Speaks` — the command that the method sends reaches the handler that calls the operation, the
  handler answers with the reply for its result, and the method turns that into the result again;
  `KeyCall.speaks` — so for every call;
* `answered_call`, `answered_keysExist`, `answered_hset` — what the server answers to a call, and
  `Answered.append` — to several.
-/

import SunKV.Server.Transactions
import SunKV.System.Link

namespace SunKV.Client

open SunKV.Lib

/-- The method with another result. -/
def Method.map {α β : Type} (method : Method α) (convert : α → β) : Method β where
  refusal := method.refusal
  args := method.args
  convert reply := (method.convert reply).map convert

end SunKV.Client

namespace SunKV.System

open SunKV.Lib SunKV.Protocol SunKV.Storage SunKV.Server
open SunKV.Client hiding RespValue

/-! ### Calls about one key -/

/-- **The methods of the client that are one operation of the store.** -/
inductive KeyCall
  | set (key value : Bytes)
  | get (key : Bytes)
  | lpush (key : Bytes) (values : List Bytes)
  | rpush (key : Bytes) (values : List Bytes)
  | lpop (key : Bytes)
  | rpop (key : Bytes)
  | llen (key : Bytes)
  | lindex (key : Bytes) (index : Int64)
  | sadd (key : Bytes) (members : List Bytes)
  | srem (key : Bytes) (members : List Bytes)
  | scard (key : Bytes)
  | sismember (key member : Bytes)
  | smembers (key : Bytes)
  | hget (key field : Bytes)
  | hdel (key : Bytes) (fields : List Bytes)
  | hlen (key : Bytes)
  | hexists (key field : Bytes)
  | hgetall (key : Bytes)

namespace KeyCall

/-- The operation. -/
def command : KeyCall → Command
  | .set key value => .set key value
  | .get key => .get key
  | .lpush key values => .lpush key values
  | .rpush key values => .rpush key values
  | .lpop key => .lpop key
  | .rpop key => .rpop key
  | .llen key => .llen key
  | .lindex key index => .lindex key index.toInt
  | .sadd key members => .sadd key members
  | .srem key members => .srem key members
  | .scard key => .scard key
  | .sismember key member => .sismember key member
  | .smembers key => .smembers key
  | .hget key field => .hget key field
  | .hdel key fields => .hdel key fields
  | .hlen key => .hlen key
  | .hexists key field => .hexists key field
  | .hgetall key => .hgetall key

/-- The method, with its result read as a reply of the store. -/
def method : KeyCall → Method Reply
  | .set key value => (Method.set key value).map fun _ => .flag true
  | .get key => (Method.get key).map .element
  | .lpush key values => (Method.lpush key values).map .int
  | .rpush key values => (Method.rpush key values).map .int
  | .lpop key => (Method.lpop key).map .element
  | .rpop key => (Method.rpop key).map .element
  | .llen key => (Method.llen key).map .int
  | .lindex key index => (Method.lindex key index).map .element
  | .sadd key members => (Method.sadd key members).map .int
  | .srem key members => (Method.srem key members).map .int
  | .scard key => (Method.scard key).map .int
  | .sismember key member => (Method.sismember key member).map .int
  | .smembers key => (Method.smembers key).map .elements
  | .hget key field => (Method.hget key field).map .element
  | .hdel key fields => (Method.hdel key fields).map .int
  | .hlen key => (Method.hlen key).map .int
  | .hexists key field => (Method.hexists key field).map .int
  | .hgetall key => (Method.hgetall key).map .pairs

end KeyCall

/-! ### Replies -/

/-- The reply of the server that stands for a result of the store. -/
def Reply.wire : Reply → RespValue
  | .flag _ => .simpleString (text "OK")
  | .int value => .integer value
  | .element none => .nullBulkString
  | .element (some value) => .bulkString value
  | .elements values => .array (values.map .bulkString)
  | .pairs values => .array (values.flatMap fun pair => [.bulkString pair.1, .bulkString pair.2])

/-- The same reply, as the client holds it. -/
def Reply.said : Reply → Client.RespValue
  | .flag _ => .simpleString (text "OK")
  | .int value => .integer value
  | .element none => .nullBulkString
  | .element (some value) => .bulkString value
  | .elements values => .array (values.map .bulkString)
  | .pairs values => .array (values.flatMap fun pair => [.bulkString pair.1, .bulkString pair.2])

/-- The message for a key of another type. -/
def wrongTypeMessage : Bytes :=
  text "WRONGTYPE Operation against a key holding the wrong kind of value"

/-- **The reply to an operation** that succeeds or finds a wrong type. -/
def wireReply (hidesType : Bool) (status : StatusCode) (reply : Reply) : RespValue :=
  if status = .wrongType then if hidesType then .nullBulkString else .error wrongTypeMessage
  else Reply.wire reply

theorem meanings_bulkStrings (strings : List Bytes) :
    meanings (strings.map .bulkString) = .ok (strings.map .bulkString) := by
  induction strings with
  | nil => rfl
  | cons first strings ih =>
    rw [List.map_cons, meanings, ih]
    rfl

theorem map_bulkString_pairs {ρ : Type} (wrap : Bytes → ρ) (pairs : List (Bytes × Bytes)) :
    (pairs.flatMap fun pair => [pair.1, pair.2]).map wrap =
      pairs.flatMap fun pair => [wrap pair.1, wrap pair.2] := by
  rw [List.map_flatMap]
  rfl

theorem meaning_wire (reply : Reply) : meaning (Reply.wire reply) = .ok (Reply.said reply) := by
  cases reply with
  | flag value => rfl
  | int value => rfl
  | element value => cases value <;> rfl
  | elements values =>
    rw [Reply.wire, meaning, meanings_bulkStrings]
    rfl
  | pairs values =>
    rw [Reply.wire, Reply.said, ← map_bulkString_pairs, ← map_bulkString_pairs, meaning,
      meanings_bulkStrings]
    rfl

/-- The reply to an operation, as the client holds it. -/
def saidReply (hidesType : Bool) (status : StatusCode) (reply : Reply) : Client.RespValue :=
  if status = .wrongType then if hidesType then .nullBulkString else .error wrongTypeMessage
  else Reply.said reply

theorem meaning_wireReply (hidesType : Bool) (status : StatusCode) (reply : Reply) :
    meaning (wireReply hidesType status reply) = .ok (saidReply hidesType status reply) := by
  unfold wireReply saidReply
  split
  · cases hidesType <;> rfl
  · exact meaning_wire reply

theorem errorText_said (reply : Reply) : (Reply.said reply).errorText = none := by
  cases reply with
  | element value => cases value <;> rfl
  | _ => rfl

theorem every_strings {strings : List Bytes} (few : strings.length ≤ maxElements)
    (short : ∀ bytes ∈ strings, bytes.length < 2 ^ 63) :
    (Protocol.RespValue.array (strings.map .bulkString)).Every Sendable := by
  refine .array (by simpa [Sendable] using few) fun value member => ?_
  obtain ⟨bytes, inside, rfl⟩ := List.mem_map.mp member
  exact .leaf (fun _ array => by cases array) (short bytes inside)

/-- A result that fits can be sent. -/
theorem sendable_wire {reply : Reply} (fits : reply.Fits) :
    (Reply.wire reply).Every Sendable := by
  cases reply with
  | flag value => exact .leaf nofun (by decide : ¬ crlf <:+: text "OK")
  | int value => exact .leaf nofun fits
  | element value =>
    cases value with
    | none => exact .leaf nofun trivial
    | some value => exact .leaf nofun (fits value rfl)
  | elements values => exact every_strings fits.1 fits.2
  | pairs values =>
    rw [Reply.wire, ← map_bulkString_pairs]
    refine every_strings ?_ fun bytes member => ?_
    · have twice : (values.flatMap fun pair => [pair.1, pair.2]).length = 2 * values.length := by
        simp [List.length_flatMap, mul_comm]
      rw [twice]
      exact fits.1
    · obtain ⟨pair, inside, either⟩ := List.mem_flatMap.mp member
      rcases List.mem_pair.mp either with rfl | rfl
      · exact (fits.2 pair inside).1
      · exact (fits.2 pair inside).2

theorem sendable_wireReply (hidesType : Bool) (status : StatusCode) {reply : Reply}
    (fits : reply.Fits) : (wireReply hidesType status reply).Every Sendable := by
  unfold wireReply
  split
  · cases hidesType with
    | true => exact .leaf nofun trivial
    | false => exact .leaf nofun (by decide +kernel : ¬ crlf <:+: wrongTypeMessage)
  · exact sendable_wire fits

/-! ### Handlers and conversions -/

/-- The operation succeeded, or found a wrong type. -/
def Told (command : Command) (status : StatusCode) : Prop :=
  status = .ok ∨
    status = .wrongType ∧ (command.reported = some .wrongType ∨ command.hidesType = true)

theorem Told.cases {command : Command} {status : StatusCode} (told : Told command status) :
    status = .ok ∨ status = .wrongType :=
  told.imp id And.left

/-- The reply of `cmdSet`. -/
def setReply (r : StorageResult Bool) : Bytes :=
  if r.status = .quotaExceeded then serializeError (text "OOM maxmemory") else kSimpleStringOk

theorem setReply_eq {key value : Bytes} (r : StorageResult Bool)
    (told : Told (.set key value) r.status) :
    setReply r = (wireReply false r.status (.flag r.value)).encode := by
  obtain ⟨status, flag⟩ := r
  rcases told with rfl | ⟨-, reported | hides⟩
  · rfl
  · cases reported
  · cases hides

section Renders

variable {command : Command}

theorem countReply_eq (r : StorageResult Int) (told : Told command r.status) :
    countReply r = (wireReply false r.status (.int r.value)).encode := by
  rcases told.cases with fine | wrong
  · simp only [countReply, countOr, wireReply, fine, reduceCtorEq, if_false, if_true]
    rfl
  · simp only [countReply, wireReply, wrong, if_true]
    rfl

theorem bulkOrNull_eq (r : StorageResult (Option Bytes)) (told : Told command r.status) :
    bulkOrNull r = (wireReply true r.status (.element r.value)).encode := by
  obtain ⟨status, value⟩ := r
  rcases told.cases with rfl | rfl <;> cases value <;> rfl

theorem elementReply_eq (r : StorageResult (Option Bytes)) (told : Told command r.status) :
    elementReply r = (wireReply false r.status (.element r.value)).encode := by
  obtain ⟨status, value⟩ := r
  rcases told.cases with rfl | rfl <;> cases value <;> rfl

theorem serializeStrings_eq (strings : List Bytes) :
    serializeStrings strings = (Protocol.RespValue.array (strings.map .bulkString)).encode := by
  rw [← commandValue, encode_commandValue]
  rfl

theorem stringsReply_eq (r : StorageResult (List Bytes)) (told : Told command r.status) :
    stringsReply r = (wireReply false r.status (.elements r.value)).encode := by
  obtain ⟨status, value⟩ := r
  rcases told.cases with rfl | rfl
  · exact serializeStrings_eq value
  · rfl

theorem pairsReply_eq (r : StorageResult (List (Bytes × Bytes))) (told : Told command r.status) :
    pairsReply r = (wireReply false r.status (.pairs r.value)).encode := by
  obtain ⟨status, value⟩ := r
  rcases told.cases with rfl | rfl
  · show serializeStrings (value.flatMap fun pair => [pair.1, pair.2]) =
      (Protocol.RespValue.array (value.flatMap fun pair =>
        [.bulkString pair.1, .bulkString pair.2])).encode
    rw [serializeStrings_eq, map_bulkString_pairs]
  · rfl

end Renders

theorem mapM_string? (strings : List Bytes) :
    (strings.map Client.RespValue.bulkString).mapM Client.RespValue.string? = some strings := by
  induction strings with
  | nil => rfl
  | cons first strings ih =>
    rw [List.map_cons, List.mapM_cons, ih]
    rfl

theorem pairStrings_eq (pairs : List (Bytes × Bytes)) :
    pairStrings (pairs.flatMap fun pair =>
      [Client.RespValue.bulkString pair.1, Client.RespValue.bulkString pair.2]) = some pairs := by
  induction pairs with
  | nil => rfl
  | cons first pairs ih =>
    rw [List.flatMap_cons, List.cons_append, List.singleton_append, pairStrings, ih]
    rfl

theorem asOptional_said (message : String) (value : Option Bytes) :
    (asOptional message (Reply.said (.element value))).map Reply.element =
      .success (.element value) := by
  cases value <;> rfl

theorem asStrings_said (notArray notString : String) (values : List Bytes) :
    (asStrings notArray notString (Reply.said (.elements values))).map Reply.elements =
      .success (.elements values) := by
  rw [Reply.said, asStrings, mapM_string?]
  rfl

theorem asPairs_said (notArray odd notString : String) (values : List (Bytes × Bytes)) :
    (asPairs notArray odd notString (Reply.said (.pairs values))).map Reply.pairs =
      .success (.pairs values) := by
  have even : (values.flatMap fun pair =>
      [Client.RespValue.bulkString pair.1, Client.RespValue.bulkString pair.2]).length % 2 = 0 := by
    simp [List.length_flatMap]
  rw [Reply.said, asPairs, even, pairStrings_eq]
  rfl

/-- **A method speaks for an operation.** -/
structure Speaks (method : Method Reply) (command : Command) : Prop where
  accepts : method.refusal = none ↔ command.invalid = false
  reaches : ∃ name args, method.args = name :: args ∧ name.map toUpper = name ∧
    name ∉ controlNames ++ [text "SUBSCRIBE", text "UNSUBSCRIBE"] ∧
    ∃ render : StorageResult command.Value → Bytes,
      (command.invalid = false → dispatchArrayCommandsLookup name (method.args.map .bulkString) =
        do answer (render (← api command))) ∧
      ∀ result, Told command result.status → render result =
        (wireReply command.hidesType result.status (command.wrap result.value)).encode
  converts : ∀ value : command.Value, command.wrap value ≠ .flag false →
    method.convert (Reply.said (command.wrap value)) = .success (command.wrap value)

/-- What makes a method speak for an operation: one check for each part. -/
theorem Speaks.of {method : Method Reply} {command : Command} (name : String) {args : List Bytes}
    (accepts : method.refusal = none ↔ command.invalid = false)
    (sends : method.args = text name :: args) (upper : (text name).map toUpper = text name)
    (plain : text name ∉ controlNames ++ [text "SUBSCRIBE", text "UNSUBSCRIBE"])
    {render : StorageResult command.Value → Bytes}
    (renders : ∀ result, Told command result.status → render result =
      (wireReply command.hidesType result.status (command.wrap result.value)).encode)
    (converts : ∀ value : command.Value, command.wrap value ≠ .flag false →
      method.convert (Reply.said (command.wrap value)) = .success (command.wrap value))
    (reaches : command.invalid = false →
      dispatchArrayCommandsLookup (text name) ((text name :: args).map .bulkString) =
        do answer (render (← api command))) :
    Speaks method command := by
  refine ⟨accepts, ⟨text name, args, sends, upper, plain, render, ?_, renders⟩, converts⟩
  rw [sends]
  exact reaches

theorem filterMap_bulk (strings : List Bytes) :
    (strings.map Protocol.RespValue.bulkString).filterMap bulk? = strings := by
  induction strings with
  | nil => rfl
  | cons first strings ih =>
    rw [List.map_cons, List.filterMap_cons, ih]
    rfl

theorem requireSome_eq_none {α : Type} {items : List α} {message : String} :
    requireSome items message = none ↔ items.isEmpty = false := by
  cases items <;> simp [requireSome]

/-- The handlers with a key and at least one more argument, all of which they pass on. -/
theorem withKey_strings {name key : Bytes} {items : List Bytes} (some : items.isEmpty = false)
    (use : Bytes → List Bytes → Handling) :
    withKey ((name :: key :: items).map .bulkString) 3 (fun key' =>
      use key' (bulksBehindKey ((name :: key :: items).map .bulkString))) = use key items := by
  have long : ¬ ((name :: key :: items).map Protocol.RespValue.bulkString).length < 3 := by
    cases items with
    | nil => cases some
    | cons => simp
  have behind : bulksBehindKey ((name :: key :: items).map .bulkString) = items := by
    rw [bulksBehindKey]
    exact filterMap_bulk items
  rw [withKey, if_neg long, behind]
  rfl

theorem cmdSet_eq (name key value : Bytes) :
    cmdSet ([name, key, value].map .bulkString) =
      (do answer (setReply (← api (.set key value)))) := by
  show (api (.set key value) >>= fun r : StorageResult Bool =>
    if r.status = .quotaExceeded then answerError "OOM maxmemory" else answer kSimpleStringOk) = _
  congr 1
  funext r
  exact (apply_ite answer _ _ _).symm

theorem cmdLindex_eq (name key : Bytes) (index : Int64) :
    cmdLindex ([name, key, toDecimal index.toInt].map .bulkString) = (do
      answer (elementReply (← api (.lindex key index.toInt)))) := by
  have parsed := stoll_toDecimal index.le_toInt index.toInt_lt
  simp [cmdLindex, withKeyAnd, withKey, bulkAt, bulk?, parsed]

/-- **Every call about a key speaks for its operation.** -/
theorem KeyCall.speaks (call : KeyCall) : Speaks call.method call.command := by
  have always : (none : Option Bytes) = none ↔ false = false := iff_of_true rfl rfl
  cases call with
  | set key value =>
    refine .of "SET" always rfl (by decide) (by decide) setReply_eq (fun value fine => ?_)
      fun _ => cmdSet_eq (text "SET") key value
    cases value with
    | true => rfl
    | false => exact absurd rfl fine
  | get key =>
    exact .of "GET" always rfl (by decide) (by decide) bulkOrNull_eq
      (fun value _ => asOptional_said _ value) fun _ => rfl
  | lpush key values =>
    exact .of "LPUSH" requireSome_eq_none rfl (by decide) (by decide) countReply_eq
      (fun _ _ => rfl) fun some => withKey_strings some fun key values => do
        answer (countReply (← api (.lpush key values)))
  | rpush key values =>
    exact .of "RPUSH" requireSome_eq_none rfl (by decide) (by decide) countReply_eq
      (fun _ _ => rfl) fun some => withKey_strings some fun key values => do
        answer (countReply (← api (.rpush key values)))
  | lpop key =>
    exact .of "LPOP" always rfl (by decide) (by decide) elementReply_eq
      (fun value _ => asOptional_said _ value) fun _ => rfl
  | rpop key =>
    exact .of "RPOP" always rfl (by decide) (by decide) elementReply_eq
      (fun value _ => asOptional_said _ value) fun _ => rfl
  | llen key =>
    exact .of "LLEN" always rfl (by decide) (by decide) countReply_eq (fun _ _ => rfl) fun _ => rfl
  | lindex key index =>
    exact .of "LINDEX" always rfl (by decide) (by decide) elementReply_eq
      (fun value _ => asOptional_said _ value) fun _ => cmdLindex_eq (text "LINDEX") key index
  | sadd key members =>
    exact .of "SADD" requireSome_eq_none rfl (by decide) (by decide) countReply_eq
      (fun _ _ => rfl) fun some => withKey_strings some fun key members => do
        answer (countReply (← api (.sadd key members)))
  | srem key members =>
    exact .of "SREM" requireSome_eq_none rfl (by decide) (by decide) countReply_eq
      (fun _ _ => rfl) fun some => withKey_strings some fun key members => do
        answer (countReply (← api (.srem key members)))
  | scard key =>
    exact .of "SCARD" always rfl (by decide) (by decide) countReply_eq (fun _ _ => rfl) fun _ => rfl
  | sismember key member =>
    exact .of "SISMEMBER" always rfl (by decide) (by decide) countReply_eq (fun _ _ => rfl)
      fun _ => rfl
  | smembers key =>
    exact .of "SMEMBERS" always rfl (by decide) (by decide) stringsReply_eq
      (fun values _ => asStrings_said "SMEMBERS expected array response"
        "SMEMBERS array element must be string" values) fun _ => rfl
  | hget key field =>
    exact .of "HGET" always rfl (by decide) (by decide) elementReply_eq
      (fun value _ => asOptional_said _ value) fun _ => rfl
  | hdel key fields =>
    exact .of "HDEL" requireSome_eq_none rfl (by decide) (by decide) countReply_eq
      (fun _ _ => rfl) fun some => withKey_strings some fun key fields => do
        answer (countReply (← api (.hdel key fields)))
  | hlen key =>
    exact .of "HLEN" always rfl (by decide) (by decide) countReply_eq (fun _ _ => rfl) fun _ => rfl
  | hexists key field =>
    exact .of "HEXISTS" always rfl (by decide) (by decide) countReply_eq (fun _ _ => rfl)
      fun _ => rfl
  | hgetall key =>
    exact .of "HGETALL" always rfl (by decide) (by decide) pairsReply_eq
      (fun values _ => asPairs_said "HGETALL expected array response"
        "HGETALL array size should be even" "HGETALL array element must be string" values)
      fun _ => rfl

/-! ### The server's answers -/

section Answers

variable {σ : Type} {env : Env} {host : Handler ServerCall.Answer σ} {conn : Conn σ}

/-- **A command whose handler takes it** is answered with what the handler sends. -/
theorem answered_dispatch {name : Bytes} {args : List Bytes} (upper : name.map toUpper = name)
    (plain : name ∉ controlNames ++ [text "SUBSCRIBE", text "UNSUBSCRIBE"])
    (unbound : Unbound conn) {done : Service σ} {value : RespValue}
    (ran : (dispatchArrayCommandsLookup name ((name :: args).map .bulkString)).run
      (serving env host) conn.service = (true, done))
    (sent : done.sent = conn.service.sent ++ [value.encode]) :
    Answered env host conn [name :: args] [value] { conn with service := done } := by
  simp only [List.mem_append, List.mem_cons, List.not_mem_nil, or_false, not_or] at plain
  obtain ⟨uncontrolled, other, another⟩ := plain
  have read : arrayCommand (commandValue (name :: args)) =
      some ⟨name, (name :: args).map .bulkString⟩ := by
    show some (QueuedCommand.mk (name.map toUpper) _) = _
    rw [upper]
    rfl
  have ordinary : queueable (commandValue (name :: args)) =
      some ⟨name, (name :: args).map .bulkString⟩ := queueable_eq_some.mpr ⟨read, uncontrolled⟩
  have handled : dispatchArrayCommand env host ⟨name, (name :: args).map .bulkString⟩ conn =
      { conn with service := done } := by
    rw [dispatchArrayCommand, run_attached (once_dispatch other another).makes unbound.unsubscribed,
      ran]
    rfl
  refine ⟨?_, sent, fun call member => ?_, unbound.outside, unbound.unsubscribed⟩
  · rw [List.map_singleton, processCommands,
      processCommand_dispatch ordinary unbound.outside unbound.unsubscribed, handled]
    rfl
  · have stays : call ∈ ((dispatchArrayCommandsLookup name ((name :: args).map .bulkString)).run
        (serving env host) conn.service).2.issued := mem_issued_run _ member
    rwa [ran] at stays

/-- **What the server answers to a call**: the reply for the result of its operation. -/
theorem answered_call (env : Env) (host : Handler ServerCall.Answer σ) (call : KeyCall)
    (valid : call.command.invalid = false) (unbound : Unbound conn)
    (told : Told call.command
      (env.exec call.command.operation conn.service.world).1.status) :
    let ran := env.exec call.command.operation conn.service.world
    let value := wireReply call.command.hidesType ran.1.status (call.command.wrap ran.1.value)
    Answered env host conn [call.method.args] [value] { conn with service := { conn.service with
      world := ran.2
      sent := conn.service.sent ++ [value.encode]
      issued := conn.service.issued ++ [⟨call.command, conn.service.world⟩] } } := by
  intro ran value
  obtain ⟨name, args, sends, upper, plain, render, reaches, renders⟩ := call.speaks.reaches
  have reply : render ran.1 = value.encode := renders ran.1 told
  rw [sends]
  refine answered_dispatch upper plain unbound ?_ rfl
  rw [← sends, reaches valid, Program.run_bind, ← reply]
  rfl

/-- **The answers to several commands**, one after the other. -/
theorem Answered.append {middle after : Conn σ} {commands others : List (List Bytes)}
    {values later : List RespValue} (first : Answered env host conn commands values middle)
    (second : Answered env host middle others later after) :
    Answered env host conn (commands ++ others) (values ++ later) after := by
  refine ⟨?_, ?_, List.Subset.trans first.grows second.grows, second.unbound⟩
  · rw [List.map_append, processCommands_append, first.processed]
    exact second.processed
  · rw [second.sent, first.sent, List.map_append, List.append_assoc]

end Answers

end SunKV.System
