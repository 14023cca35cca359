/-
**The typed methods of the client.**

A method of `Client` sends one command and turns the reply into a value of its own type: `Method`
is the command, the check of the arguments before it, and the conversion. `mget` and `mset` send a
pipeline instead. All of them are calls of the same shape (`Api`): the commands they send, and what
the client does with what it reads.

The conversions fall into families: `asOk`, `asInteger`, `asOptional`, `asStrings` and `asPairs`,
each with the messages of the method. An error reply never gets to a conversion: `command` makes a
failure of it.

* `Method.call_eq` — a method on a stream that brings its reply;
* `collect_eq` — a pipeline on a stream that brings the replies to its commands.
-/

import SunKV.Client.Session

namespace SunKV.Client

open SunKV.Lib SunKV.Protocol

/-! ### Results and conversions -/

/-- `Result<T>` of a typed method; `invalidResponse` is the error code for a reply of a type that
the method does not expect, which no call without types returns. -/
inductive TypedResult (α : Type)
  | success (value : α)
  | failure (code : ErrorCode) (message : Bytes)
  | invalidResponse (message : Bytes)
  | thrown

/-- The result with another value. -/
def TypedResult.map {α β : Type} (convert : α → β) : TypedResult α → TypedResult β
  | .success value => .success (convert value)
  | .failure code message => .failure code message
  | .invalidResponse message => .invalidResponse message
  | .thrown => .thrown

/-- What a method makes of the result of a command. -/
def Result.typed {α β : Type} (convert : α → TypedResult β) : Result α → TypedResult β
  | .success value => convert value
  | .failure code message => .failure code message
  | .thrown => .thrown

/-- The text of a simple or a bulk string. -/
def RespValue.string? : RespValue → Option Bytes
  | .simpleString str => some str
  | .bulkString str => some str
  | _ => none

/-- `+OK`. -/
def asOk (message : String) : RespValue → TypedResult Unit
  | .simpleString str =>
    if str = text "OK" then .success () else .invalidResponse (text message)
  | _ => .invalidResponse (text message)

/-- An integer. -/
def asInteger (message : String) : RespValue → TypedResult Int
  | .integer value => .success value
  | _ => .invalidResponse (text message)

/-- A string, or null. -/
def asOptional (message : String) (reply : RespValue) : TypedResult (Option Bytes) :=
  match reply with
  | .nullBulkString => .success none
  | _ =>
    match reply.string? with
    | some str => .success (some str)
    | none => .invalidResponse (text message)

/-- An array of strings. -/
def asStrings (notArray notString : String) : RespValue → TypedResult (List Bytes)
  | .array elems =>
    match elems.mapM RespValue.string? with
    | some strs => .success strs
    | none => .invalidResponse (text notString)
  | _ => .invalidResponse (text notArray)

/-- The loop of `hgetall`: two strings at a time. -/
def pairStrings : List RespValue → Option (List (Bytes × Bytes))
  | key :: value :: rest => do
    let key ← key.string?
    let value ← value.string?
    let others ← pairStrings rest
    return (key, value) :: others
  | _ => some []

/-- An array of an even number of strings. -/
def asPairs (notArray odd notString : String) : RespValue → TypedResult (List (Bytes × Bytes))
  | .array elems =>
    if elems.length % 2 ≠ 0 then .invalidResponse (text odd)
    else
      match pairStrings elems with
      | some pairs => .success pairs
      | none => .invalidResponse (text notString)
  | _ => .invalidResponse (text notArray)

/-! ### Methods of one command -/

/-- **A method that sends one command**: the message with which it refuses its arguments, the
command, and what it makes of the reply. -/
structure Method (α : Type) where
  refusal : Option Bytes := none
  args : List Bytes
  convert : RespValue → TypedResult α

/-- The check of a list of arguments. -/
def requireSome {α : Type} (items : List α) (message : String) : Option Bytes :=
  if items.isEmpty then some (text message) else none

namespace Method

/-- `Client::get`. -/
def get (key : Bytes) : Method (Option Bytes) where
  args := [text "GET", key]
  convert := asOptional "GET expected bulk string response"

/-- `Client::set`. -/
def set (key value : Bytes) : Method Unit where
  args := [text "SET", key, value]
  convert := asOk "SET expected +OK"

/-- `Client::del`. -/
def del (key : Bytes) : Method Int where
  args := [text "DEL", key]
  convert := asInteger "DEL expected integer response"

/-- `Client::exists`. -/
def keysExist (keys : List Bytes) : Method Int where
  refusal := requireSome keys "EXISTS requires at least one key"
  args := text "EXISTS" :: keys
  convert := asInteger "EXISTS expected integer response"

/-- `Client::lpush`. -/
def lpush (key : Bytes) (values : List Bytes) : Method Int where
  refusal := requireSome values "LPUSH requires values"
  args := text "LPUSH" :: key :: values
  convert := asInteger "LPUSH expected integer response"

/-- `Client::rpush`. -/
def rpush (key : Bytes) (values : List Bytes) : Method Int where
  refusal := requireSome values "RPUSH requires values"
  args := text "RPUSH" :: key :: values
  convert := asInteger "RPUSH expected integer response"

/-- `Client::lpop`. -/
def lpop (key : Bytes) : Method (Option Bytes) where
  args := [text "LPOP", key]
  convert := asOptional "LPOP expected bulk/null response"

/-- `Client::rpop`. -/
def rpop (key : Bytes) : Method (Option Bytes) where
  args := [text "RPOP", key]
  convert := asOptional "RPOP expected bulk/null response"

/-- `Client::llen`. -/
def llen (key : Bytes) : Method Int where
  args := [text "LLEN", key]
  convert := asInteger "LLEN expected integer response"

/-- `Client::lindex`. -/
def lindex (key : Bytes) (index : Int64) : Method (Option Bytes) where
  args := [text "LINDEX", key, toDecimal index.toInt]
  convert := asOptional "LINDEX expected bulk/null response"

/-- `Client::sadd`. -/
def sadd (key : Bytes) (members : List Bytes) : Method Int where
  refusal := requireSome members "SADD requires members"
  args := text "SADD" :: key :: members
  convert := asInteger "SADD expected integer response"

/-- `Client::srem`. -/
def srem (key : Bytes) (members : List Bytes) : Method Int where
  refusal := requireSome members "SREM requires members"
  args := text "SREM" :: key :: members
  convert := asInteger "SREM expected integer response"

/-- `Client::scard`. -/
def scard (key : Bytes) : Method Int where
  args := [text "SCARD", key]
  convert := asInteger "SCARD expected integer response"

/-- `Client::sismember`. -/
def sismember (key member : Bytes) : Method Int where
  args := [text "SISMEMBER", key, member]
  convert := asInteger "SISMEMBER expected integer response"

/-- `Client::smembers`. -/
def smembers (key : Bytes) : Method (List Bytes) where
  args := [text "SMEMBERS", key]
  convert := asStrings "SMEMBERS expected array response" "SMEMBERS array element must be string"

/-- `Client::hset`. -/
def hset (key : Bytes) (fieldValues : List (Bytes × Bytes)) : Method Int where
  refusal := requireSome fieldValues "HSET requires field-value pairs"
  args := text "HSET" :: key :: fieldValues.flatMap fun kv => [kv.1, kv.2]
  convert := asInteger "HSET expected integer response"

/-- `Client::hget`. -/
def hget (key field : Bytes) : Method (Option Bytes) where
  args := [text "HGET", key, field]
  convert := asOptional "HGET expected bulk/null response"

/-- `Client::hdel`. -/
def hdel (key : Bytes) (fields : List Bytes) : Method Int where
  refusal := requireSome fields "HDEL requires fields"
  args := text "HDEL" :: key :: fields
  convert := asInteger "HDEL expected integer response"

/-- `Client::hlen`. -/
def hlen (key : Bytes) : Method Int where
  args := [text "HLEN", key]
  convert := asInteger "HLEN expected integer response"

/-- `Client::hexists`. -/
def hexists (key field : Bytes) : Method Int where
  args := [text "HEXISTS", key, field]
  convert := asInteger "HEXISTS expected integer response"

/-- `Client::hgetall`. -/
def hgetall (key : Bytes) : Method (List (Bytes × Bytes)) where
  args := [text "HGETALL", key]
  convert := asPairs "HGETALL expected array response" "HGETALL array size should be even"
    "HGETALL array element must be string"

end Method

/-! ### Calls -/

/-- What a typed call returns, the client it leaves, the commands it sent and the reads it did not
use. -/
structure TypedDone (α : Type) where
  result : TypedResult α
  client : Impl
  sent : Nat
  later : List Read

/-- **A typed call**: the commands that it sends when it gets to sending, and the call itself. -/
structure Api (α : Type) where
  requests : List (List Bytes)
  call : Options → Impl → List Read → Option (TypedDone α)

/-- A typed call that makes one of a method or a pipeline. -/
def Done.typed {α β : Type} (convert : α → TypedResult β) (done : Done α) : TypedDone β :=
  ⟨done.result.typed convert, done.client, done.sent, done.later⟩

/-- **The call of a method.** -/
def Method.api {α : Type} (method : Method α) : Api α where
  requests := [method.args]
  call options client reads :=
    match method.refusal with
    | some message => some ⟨.failure .invalidArgument message, client, 0, reads⟩
    | none => (client.command options method.args reads).map (Done.typed method.convert)

/-- The loop of `mget` over the replies. -/
def optionalStrings : List RespValue → TypedResult (List (Option Bytes))
  | [] => .success []
  | reply :: replies =>
    match reply with
    | .nullBulkString => (optionalStrings replies).map (none :: ·)
    | .error str => .failure .serverError str
    | _ =>
      match reply.string? with
      | some str => (optionalStrings replies).map (some str :: ·)
      | none => .invalidResponse (text "MGET expected bulk/null response")

/-- **`Client::mget`.** -/
def mget (keys : List Bytes) : Api (List (Option Bytes)) where
  requests := keys.map fun key => [text "GET", key]
  call options client reads :=
    if keys.isEmpty then some ⟨.failure .invalidArgument (text "empty keys"), client, 0, reads⟩
    else
      (client.pipeline options (keys.map fun key => [text "GET", key]) {} reads).map
        (Done.typed optionalStrings)

/-- The loop of `mset` over the replies. -/
def allOk (replies : List RespValue) : TypedResult Unit :=
  if replies.all fun reply => match reply with
    | .simpleString str => str = text "OK"
    | _ => false
  then .success () else .invalidResponse (text "MSET expected +OK responses")

/-- **`Client::mset`.** -/
def mset (kvs : List (Bytes × Bytes)) : Api Unit where
  requests := kvs.map fun kv => [text "SET", kv.1, kv.2]
  call options client reads :=
    if kvs.isEmpty then some ⟨.failure .invalidArgument (text "empty kvs"), client, 0, reads⟩
    else
      (client.pipeline options (kvs.map fun kv => [text "SET", kv.1, kv.2])
        { failOnServerError := true, closeOnServerError := true } reads).map (Done.typed allOk)

/-! ### Calls whose replies arrive -/

/-- What a method makes of a reply: an error reply is a failure. -/
def Method.outcome {α : Type} (method : Method α) (reply : RespValue) : TypedResult α :=
  match reply.errorText with
  | some str => .failure .serverError str
  | none => method.convert reply

/-- **Reads that bring a reply and nothing else.** -/
structure Brings (reads : List Read) (bytes : Bytes) : Prop where
  quiet : ∀ read ∈ reads, read.error = none
  whole : arrived reads = bytes

section Arriving

variable {options : Options} {client : Impl} {reads : List Read}

/-- **Timeouts that are no errors.** -/
structure Options.Patient (options : Options) : Prop where
  read : 0 ≤ options.readTimeoutMs
  write : 0 ≤ options.writeTimeoutMs

/-- The client is connected, and no reply is left in its buffer. -/
structure Impl.Ready (client : Impl) : Prop where
  connected : client.connected = true
  empty : client.inbuf = []

theorem Impl.Ready.eq (ready : client.Ready) : client = {} := by
  obtain ⟨connected, inbuf⟩ := client
  obtain ⟨rfl, rfl⟩ := ready
  rfl

/-- The reply next on the stream is taken off it. -/
theorem takeReply_eq_some {readTimeoutMs : Int} (patient : 0 ≤ readTimeoutMs)
    {value : Protocol.RespValue} (sendable : value.Every Sendable) {reply : RespValue}
    (meant : meaning value = .ok reply) {rest : Bytes}
    (quiet : ∀ read ∈ reads, read.error = none)
    (stream : client.inbuf ++ arrived reads = value.encode ++ rest) :
    ∃ left later, client.takeReply readTimeoutMs reads =
      some (.success reply, { client with inbuf := left }, later) ∧ later ⊆ reads ∧
        left ++ arrived later = rest := by
  have reads_value := reads_encode sendable
  rw [meant] at reads_value
  obtain ⟨left, later, received, fewer, remains⟩ := recv_reads patient reads_value quiet stream
  refine ⟨left, later, ?_, fewer, remains⟩
  rw [Impl.takeReply, received]
  rfl

/-- **The replies of a pipeline**, none of which ends it: by induction on those to come. -/
theorem collect_eq {readTimeoutMs : Int} (patient : 0 ≤ readTimeoutMs)
    {pipelineOptions : PipelineOptions} {pending : List Protocol.RespValue}
    (sendable : ∀ value ∈ pending, value.Every Sendable) {replies : List RespValue}
    (meant : meanings pending = .ok replies)
    (fine : pipelineOptions.failOnServerError = true → ∀ reply ∈ replies, reply.errorText = none)
    (quiet : ∀ read ∈ reads, read.error = none)
    (stream : client.inbuf ++ arrived reads = Protocol.RespValue.encodeAll pending)
    (i : Nat) (out : List RespValue) :
    ∃ left later, Impl.collect readTimeoutMs pipelineOptions pending.length i out client reads =
      some (.success (out ++ replies), { client with inbuf := left }, later) ∧
        left ++ arrived later = [] := by
  induction pending generalizing client reads replies i out with
  | nil =>
    cases meant
    refine ⟨client.inbuf, reads, ?_, stream⟩
    rw [List.append_nil]
    rfl
  | cons value pending ih =>
    obtain ⟨first, others⟩ := List.forall_mem_cons.mp sendable
    rw [meanings] at meant
    split at meant
    · cases meant
    next reply meantFirst =>
    obtain ⟨replies, meantLater, rfl⟩ : ∃ more, meanings pending = .ok more ∧
        replies = reply :: more := by
      cases meantLater : meanings pending with
      | error fault =>
        rw [meantLater] at meant
        cases meant
      | ok more =>
        rw [meantLater] at meant
        cases meant
        exact ⟨more, rfl, rfl⟩
    obtain ⟨left, later, taken, fewer, remains⟩ :=
      takeReply_eq_some patient first meantFirst quiet stream
    obtain ⟨left', later', collected, nothing⟩ := @ih { client with inbuf := left } later
      others replies meantLater
      (fun strict other member => fine strict other (List.mem_cons_of_mem _ member))
      (fun read member => quiet read (fewer member)) remains (i + 1) (out ++ [reply])
    refine ⟨left', later', ?_, nothing⟩
    rw [List.length_cons, Impl.collect, taken]
    simp only [Option.bind_eq_bind, Option.bind_some]
    split
    · next strict error =>
      rw [fine strict reply List.mem_cons_self] at error
      cases error
    · rw [collected, List.append_assoc, List.singleton_append]

/-- A client that is ready and patient sends, and waits for the reply. -/
theorem command_of_ready (patient : options.Patient) (ready : client.Ready) {args : List Bytes}
    (filled : args ≠ []) :
    client.command options args reads =
      (client.receiveOne options.readTimeoutMs reads).map fun out =>
        ⟨out.1, out.2.1, 1, out.2.2⟩ := by
  have writes : sendAllWithTimeout options.writeTimeoutMs = none :=
    if_neg (Int.not_lt.mpr patient.write)
  rw [Impl.command, if_neg (by simp [ready.connected]), if_neg (by simpa using filled), writes]
  cases client.receiveOne options.readTimeoutMs reads <;> rfl

/-- The same with a pipeline. -/
theorem pipeline_of_ready (patient : options.Patient) (ready : client.Ready)
    {commands : List (List Bytes)} (some : commands ≠ []) (filled : ∀ args ∈ commands, args ≠ [])
    {pipelineOptions : PipelineOptions} :
    client.pipeline options commands pipelineOptions reads =
      (Impl.collect options.readTimeoutMs pipelineOptions commands.length 0 [] client reads).map
        fun out => ⟨out.1, out.2.1, commands.length, out.2.2⟩ := by
  have complete : ¬ commands.any List.isEmpty = true := by
    simpa using fun member : [] ∈ commands => filled [] member rfl
  have writes : sendAllWithTimeout options.writeTimeoutMs = none :=
    if_neg (Int.not_lt.mpr patient.write)
  rw [Impl.pipeline, if_neg (by simp [ready.connected]), if_neg (by simpa using some),
    if_neg complete, writes]
  cases Impl.collect options.readTimeoutMs pipelineOptions commands.length 0 [] client reads <;> rfl

/-- A pipeline whose replies arrive. -/
theorem pipeline_eq (patient : options.Patient) (ready : client.Ready)
    {commands : List (List Bytes)} (some : commands ≠ []) (filled : ∀ args ∈ commands, args ≠ [])
    {pipelineOptions : PipelineOptions} {values : List Protocol.RespValue}
    (each : values.length = commands.length)
    (sendable : ∀ value ∈ values, value.Every Sendable) {replies : List RespValue}
    (meant : meanings values = .ok replies)
    (fine : pipelineOptions.failOnServerError = true → ∀ reply ∈ replies, reply.errorText = none)
    (brings : Brings reads (Protocol.RespValue.encodeAll values)) :
    ∃ later, client.pipeline options commands pipelineOptions reads =
      Option.some ⟨.success replies, {}, commands.length, later⟩ ∧ arrived later = [] := by
  have stream : client.inbuf ++ arrived reads = Protocol.RespValue.encodeAll values := by
    rw [ready.empty, List.nil_append, brings.whole]
  obtain ⟨left, later, collected, nothing⟩ :=
    collect_eq patient.read sendable meant fine brings.quiet stream 0 []
  obtain ⟨rfl, none⟩ := List.append_eq_nil_iff.mp nothing
  refine ⟨later, ?_, none⟩
  rw [pipeline_of_ready patient ready some filled, ← each, collected, ready.eq]
  rfl

/-- **A method whose reply arrives** returns what it makes of it. -/
theorem Method.call_eq {α : Type} {method : Method α} (patient : options.Patient)
    (ready : client.Ready) (accepted : method.refusal = none) (filled : method.args ≠ [])
    {value : Protocol.RespValue} (sendable : value.Every Sendable) {reply : RespValue}
    (meant : meaning value = .ok reply) (brings : Brings reads value.encode) :
    ∃ later, method.api.call options client reads = some ⟨method.outcome reply, {}, 1, later⟩ ∧
      arrived later = [] := by
  have stream : client.inbuf ++ arrived reads = value.encode ++ [] := by
    rw [ready.empty, List.nil_append, brings.whole, List.append_nil]
  obtain ⟨left, later, taken, -, nothing⟩ :=
    takeReply_eq_some patient.read sendable meant brings.quiet stream
  obtain ⟨rfl, none⟩ := List.append_eq_nil_iff.mp nothing
  have received : client.receiveOne options.readTimeoutMs reads =
      match reply.errorText with
      | some str => Option.some (.failure .serverError str, {}, later)
      | Option.none => Option.some (.success reply, {}, later) := by
    rw [Impl.receiveOne, taken, ready.eq]
    rfl
  refine ⟨later, ?_, none⟩
  rw [Method.api, accepted]
  dsimp only
  rw [command_of_ready patient ready filled, received, Method.outcome]
  cases reply.errorText with
  | some str => rfl
  | none => rfl

/-- A method that accepts its arguments sends its command. -/
theorem Method.call_sent {α : Type} {method : Method α} (patient : options.Patient)
    (ready : client.Ready) (accepted : method.refusal = none) (filled : method.args ≠ [])
    {done : TypedDone α} (called : method.api.call options client reads = some done) :
    done.sent = 1 := by
  rw [Method.api, accepted] at called
  dsimp only at called
  rw [command_of_ready patient ready filled] at called
  obtain ⟨_, returned, rfl⟩ := Option.map_eq_some_iff.mp called
  obtain ⟨_, -, rfl⟩ := Option.map_eq_some_iff.mp returned
  rfl

/-- A pipeline sends its commands. -/
theorem pipeline_sent (patient : options.Patient) (ready : client.Ready)
    {commands : List (List Bytes)} (some : commands ≠ []) (filled : ∀ args ∈ commands, args ≠ [])
    {pipelineOptions : PipelineOptions} {done : Done (List RespValue)}
    (called : client.pipeline options commands pipelineOptions reads = Option.some done) :
    done.sent = commands.length := by
  rw [pipeline_of_ready patient ready some filled] at called
  obtain ⟨_, -, rfl⟩ := Option.map_eq_some_iff.mp called
  rfl

/-- A method that refuses its arguments sends nothing. -/
theorem Method.call_refused {α : Type} {method : Method α} {message : Bytes}
    (refused : method.refusal = some message) :
    method.api.call options client reads =
      some ⟨.failure .invalidArgument message, client, 0, reads⟩ := by
  rw [Method.api, refused]

end Arriving

end SunKV.Client
