/-
**A client and its server.**

`command` and `pipeline` send requests and take replies off the stream, in order; nothing in a
reply says which request it answers. The connection is a channel to a server that answers the
requests one by one: what the reads of a call bring is the next part of the answers to the requests
sent so far, in pieces of any size and after any wait.

* `takeReply_cases`, `collect_cases` — with the answers to its own requests next on the stream, a
  call returns these; where it fails without waiting in vain, the connection is closed, or no later
  call gets anything out of it (`Barren`).
* `run_right` — as long as no wait runs into its timeout, every value returned is the reply to the
  request that the call sent. A wait that does leaves the late reply to the next call
  (`run_shifted`): only an I/O error and a strict pipeline close the connection.
-/

import SunKV.Client.Receive

namespace SunKV.Client

open SunKV.Lib SunKV.Protocol

/-- `struct Client::Options`, the timeouts of reading and writing. -/
structure Options where
  readTimeoutMs : Int := 2000
  writeTimeoutMs : Int := 2000

/-- `struct Client::Impl`; there is a descriptor as long as the client is connected. -/
structure Impl where
  connected : Bool := true
  inbuf : Bytes := []

/-- `close`. -/
def Impl.close (_ : Impl) : Impl := { connected := false, inbuf := [] }

/-- `sendAllWithTimeout`, on a channel that takes all bytes. -/
def sendAllWithTimeout (writeTimeoutMs : Int) : Option (ErrorCode × Bytes) :=
  if writeTimeoutMs < 0 then some (.invalidArgument, text "negative timeout") else none

/-- The result with another value. -/
def Result.map {α β : Type} (convert : α → β) : Result α → Result β
  | .success value => .success (convert value)
  | .failure code message => .failure code message
  | .thrown => .thrown

/-- What a call returns, the client it leaves, the requests it sent and the reads it did not use. -/
structure Done (α : Type) where
  result : Result α
  client : Impl
  sent : Nat
  later : List Read

/-- A call of `recvOneRespWithTimeout`; an I/O error closes the connection. -/
def Impl.takeReply (client : Impl) (readTimeoutMs : Int) (reads : List Read) :
    Option (Result RespValue × Impl × List Read) :=
  (recvOneRespWithTimeout readTimeoutMs client.inbuf reads).map fun receipt =>
    match receipt.result with
    | .failure .ioError message => (.failure .ioError message, client.close, receipt.later)
    | result => (result, { client with inbuf := receipt.inbuf }, receipt.later)

/-- The text of an error reply. -/
def RespValue.errorText : RespValue → Option Bytes
  | .error str => some str
  | _ => none

/-- The reply to a command; an error reply is a failure. -/
def Impl.receiveOne (client : Impl) (readTimeoutMs : Int) (reads : List Read) :
    Option (Result RespValue × Impl × List Read) := do
  let (result, client, later) ← client.takeReply readTimeoutMs reads
  match result with
  | .success value =>
    match value.errorText with
    | some str => return (.failure .serverError str, client, later)
    | none => return (.success value, client, later)
  | failed => return (failed, client, later)

/-- **`Client::command`.** -/
def Impl.command (client : Impl) (options : Options) (args : List Bytes) (reads : List Read) :
    Option (Done RespValue) :=
  if client.connected = false then
    some ⟨.failure .notConnected (text "not connected"), client, 0, reads⟩
  else if args.isEmpty then
    some ⟨.failure .invalidArgument (text "empty command args"), client, 0, reads⟩
  else
    match sendAllWithTimeout options.writeTimeoutMs with
    | some (code, message) => some ⟨.failure code message, client, 0, reads⟩
    | none => do
      let (result, client, later) ← client.receiveOne options.readTimeoutMs reads
      return ⟨result, client, 1, later⟩

/-- `struct Client::PipelineOptions`. -/
structure PipelineOptions where
  failOnServerError : Bool := false
  closeOnServerError : Bool := true

/-- The loop of `pipeline` over the replies, from reply number `i` on. -/
def Impl.collect (readTimeoutMs : Int) (options : PipelineOptions) :
    Nat → Nat → List RespValue → Impl → List Read →
      Option (Result (List RespValue) × Impl × List Read)
  | 0, _, out, client, reads => some (.success out, client, reads)
  | commands + 1, i, out, client, reads => do
    let (result, client, later) ← client.takeReply readTimeoutMs reads
    match result with
    | .failure code message => return (.failure code message, client, later)
    | .thrown => return (.thrown, client, later)
    | .success value =>
      match options.failOnServerError, value.errorText with
      | true, some str =>
        return (.failure .serverError
            (text "pipeline command[" ++ decimal i ++ text "] failed: " ++ str),
          if options.closeOnServerError then client.close else client, later)
      | _, _ => Impl.collect readTimeoutMs options commands (i + 1) (out ++ [value]) client later

/-- **`Client::pipeline`.** -/
def Impl.pipeline (client : Impl) (options : Options) (commands : List (List Bytes))
    (pipelineOptions : PipelineOptions) (reads : List Read) : Option (Done (List RespValue)) :=
  if client.connected = false then
    some ⟨.failure .notConnected (text "not connected"), client, 0, reads⟩
  else if commands.isEmpty then
    some ⟨.failure .invalidArgument (text "empty pipeline commands"), client, 0, reads⟩
  else if commands.any List.isEmpty then
    some ⟨.failure .invalidArgument (text "pipeline contains empty command"), client, 0, reads⟩
  else
    match sendAllWithTimeout options.writeTimeoutMs with
    | some (code, message) => some ⟨.failure code message, client, 0, reads⟩
    | none => do
      let (result, client, later) ← Impl.collect options.readTimeoutMs pipelineOptions
        commands.length 0 [] client reads
      return ⟨result, client, commands.length, later⟩

/-! ### The channel -/

/-- A call of the client. -/
inductive Request
  | command (args : List Bytes)
  | pipeline (commands : List (List Bytes)) (options : PipelineOptions)

/-- The commands of a call. -/
def Request.commands : Request → List (List Bytes)
  | .command args => [args]
  | .pipeline commands _ => commands

/-- A strict pipeline closes the connection when it fails. -/
def Request.closing : Request → Bool
  | .command _ => true
  | .pipeline _ options => !options.failOnServerError || options.closeOnServerError

/-- The call itself; the value of a command counts as a list of one. -/
def Request.perform (options : Options) (client : Impl) (reads : List Read) :
    Request → Option (Done (List RespValue))
  | .command args => (client.command options args reads).map fun done =>
      ⟨done.result.map ([·]), done.client, done.sent, done.later⟩
  | .pipeline commands pipelineOptions => client.pipeline options commands pipelineOptions reads

/-- A call and its reads. -/
structure Call where
  request : Request
  reads : List Read

/-- What a call returned, and the number of its first request. -/
structure Returned where
  request : Request
  first : Nat
  result : Result (List RespValue)

/-- **The client and the channel**: the requests sent and the bytes delivered so far. -/
structure Session where
  client : Impl := {}
  requests : Nat := 0
  delivered : Bytes := []

section Run

variable (options : Options) (reply : Nat → Protocol.RespValue)

/-- What the server sends in answer to so many requests, from the first one on. -/
def answers (first count : Nat) : List Protocol.RespValue :=
  (List.range count).map fun i => reply (first + i)

/-- **A call on the channel**; there is none with these reads when it does not use them all, or when
they bring anything but the next bytes of the answers. -/
def Session.call (session : Session) (call : Call) : Option (Returned × Session) := do
  let done ← call.request.perform options session.client call.reads
  let requests := session.requests + done.sent
  let delivered := session.delivered ++ arrived call.reads
  if done.later.isEmpty ∧ delivered <+: Protocol.RespValue.encodeAll (answers reply 0 requests) then
    return (⟨call.request, session.requests, done.result⟩, ⟨done.client, requests, delivered⟩)
  else none

/-- Calls one after the other. -/
def run : List Call → Session → Option (List Returned)
  | [], _ => some []
  | call :: calls, session => do
    let (returned, session) ← session.call options reply call
    let others ← run calls session
    return returned :: others

/-- **The values returned are the replies to the requests that the call sent**, command by
command. -/
def Returned.Right (returned : Returned) : Prop :=
  ∀ values, returned.result = .success values →
    values.map .ok = (answers reply returned.first returned.request.commands.length).map meaning

end Run

/-! ### One reply -/

section Replies

variable {options : Options} {client next : Impl} {readTimeoutMs : Int} {reads later : List Read}
  {future : Bytes}

/-- **Every attempt to receive fails at once** and changes nothing. -/
def Impl.Barren (client : Impl) (readTimeoutMs : Int) : Prop :=
  ∀ reads, ∃ result,
    recvOneRespWithTimeout readTimeoutMs client.inbuf reads = some ⟨result, client.inbuf, reads⟩ ∧
      ∀ value, result ≠ .success value

/-- Nothing more comes out of the connection. -/
def Impl.Dead (client : Impl) (readTimeoutMs : Int) : Prop :=
  client.connected = false ∨ client.Barren readTimeoutMs

/-- A buffer that holds no value, and that is not waited on. -/
theorem barren_of_settled
    (settled : parseRespValue client.inbuf ≠ .incomplete ∨ readTimeoutMs < 0)
    (nothing : ∀ value consumed, parseRespValue client.inbuf ≠ .complete value consumed) :
    client.Barren readTimeoutMs := by
  intro reads
  obtain ⟨result, left, received, receives⟩ := recv_settled reads settled
  cases receives with
  | success complete => exact absurd complete (nothing _ _)
  | protocolError => exact ⟨_, received, nofun⟩
  | thrown => exact ⟨_, received, nofun⟩
  | negative => exact ⟨_, received, nofun⟩
  | ended member => cases member

theorem barren_of_failed {fault : Fault} (failed : parseRespValue client.inbuf = .failed fault) :
    client.Barren readTimeoutMs := by
  refine barren_of_settled (Or.inl ?_) ?_
  · simp [failed]
  · simp [failed]

/-- What `takeReply` makes of what was received. -/
theorem takeReply_eq {result : Result RespValue}
    (taken : client.takeReply readTimeoutMs reads = some (result, next, later)) :
    ∃ left, recvOneRespWithTimeout readTimeoutMs client.inbuf reads = some ⟨result, left, later⟩ ∧
      (next.connected = false ∧ (∀ value, result ≠ .success value) ∨
        next = { client with inbuf := left } ∧ ∀ message, result ≠ .failure .ioError message) := by
  obtain ⟨⟨received, left, later'⟩, same, converted⟩ := Option.map_eq_some_iff.mp taken
  dsimp only at converted
  split at converted
  · cases converted
    exact ⟨left, same, Or.inl ⟨rfl, nofun⟩⟩
  · next other =>
    cases converted
    exact ⟨left, same, Or.inr ⟨rfl, other⟩⟩

theorem Impl.Barren.takeReply (barren : client.Barren readTimeoutMs) {result : Result RespValue}
    (taken : client.takeReply readTimeoutMs reads = some (result, next, later)) :
    (∀ value, result ≠ .success value) ∧ next.Dead readTimeoutMs := by
  obtain ⟨left, received, after⟩ := takeReply_eq taken
  obtain ⟨result', same, failed⟩ := barren reads
  obtain ⟨rfl, rfl, rfl⟩ := Receipt.mk.inj (Option.some.inj (received.symm.trans same))
  refine ⟨failed, ?_⟩
  rcases after with ⟨closed, -⟩ | ⟨rfl, -⟩
  · exact Or.inl closed
  · exact Or.inr barren

/-- **With a reply next on the stream, a call takes it**; where it fails although no wait runs into
its timeout, nothing more comes out of the connection. -/
theorem takeReply_cases {value : Protocol.RespValue} (sendable : value.Every Sendable)
    {rest : Bytes}
    (stream : client.inbuf ++ (arrived reads ++ future) = value.encode ++ rest)
    {result : Result RespValue}
    (taken : client.takeReply readTimeoutMs reads = some (result, next, later)) :
    (∃ reply, result = .success reply ∧ meaning value = .ok reply ∧
      next.connected = client.connected ∧ later ⊆ reads ∧
      next.inbuf ++ (arrived later ++ future) = rest) ∨
    (∀ reply, result ≠ .success reply) ∧ (.timeout ∉ reads → next.Dead readTimeoutMs) := by
  obtain ⟨left, received, after⟩ := takeReply_eq taken
  obtain ⟨used, whole, receives⟩ := recv_cases received
  dsimp only at whole receives
  subst whole
  have stream' :
      client.inbuf ++ arrived used ++ (arrived later ++ future) = value.encode ++ rest := by
    rw [← stream, List.append_assoc, arrived, arrived, arrived, List.flatMap_append,
      List.append_assoc]
  rcases after with ⟨closed, failed⟩ | ⟨rfl, open_⟩
  · exact Or.inr ⟨failed, fun _ => Or.inl closed⟩
  cases result with
  | success reply =>
    obtain ⟨meant, rest'⟩ := recv_first (reads_encode sendable) receives stream'
    exact Or.inl ⟨reply, rfl, meant, rfl, List.subset_append_right _ _, rest'⟩
  | thrown =>
    refine Or.inr ⟨by simp, fun _ => Or.inr ?_⟩
    cases receives with
    | thrown failed => exact barren_of_failed failed
  | failure code message =>
    refine Or.inr ⟨by simp, fun prompt => Or.inr ?_⟩
    cases receives with
    | protocolError failed => exact barren_of_failed failed
    | negative _ negative more => exact barren_of_settled (Or.inr negative) (by simp [more])
    | ended member error =>
      rename_i read
      cases read with
      | timeout => exact absurd (List.mem_append_left _ member) prompt
      | data => cases error
      | interrupted => cases error
      | selectFailed =>
        cases error
        exact absurd rfl (open_ _)
      | closed =>
        cases error
        exact absurd rfl (open_ _)
      | recvFailed =>
        cases error
        exact absurd rfl (open_ _)

/-! ### The replies of a call -/

/-- The stream is used up: nothing is left of the answers to the requests of a call. -/
def Impl.Synced (client : Impl) (later : List Read) (future : Bytes) : Prop :=
  client.inbuf = [] ∧ arrived later = [] ∧ future = []

theorem synced_of_nil (stream : client.inbuf ++ (arrived reads ++ future) = []) :
    client.Synced reads future := by
  obtain ⟨buffer, rest⟩ := List.append_eq_nil_iff.mp stream
  exact ⟨buffer, List.append_eq_nil_iff.mp rest⟩

/-- The reply to a command. -/
theorem receiveOne_cases {value : Protocol.RespValue} (sendable : value.Every Sendable)
    (stream : client.inbuf ++ (arrived reads ++ future) = value.encode) {result : Result RespValue}
    (received : client.receiveOne readTimeoutMs reads = some (result, next, later)) :
    (∀ reply, result = .success reply → meaning value = .ok reply) ∧
      (.timeout ∉ reads → next.Synced later future ∨ next.Dead readTimeoutMs) := by
  obtain ⟨⟨result', next', later'⟩, taken, rest⟩ := Option.bind_eq_some_iff.mp received
  rw [← List.append_nil value.encode] at stream
  rcases takeReply_cases sendable stream taken with
    ⟨reply, rfl, meant, -, -, nothing⟩ | ⟨failed, dead⟩
  · have synced := synced_of_nil nothing
    dsimp only at rest
    split at rest
    · cases rest
      exact ⟨nofun, fun _ => Or.inl synced⟩
    · cases rest
      refine ⟨?_, fun _ => Or.inl synced⟩
      rintro _ ⟨⟩
      exact meant
  · cases result' with
    | success reply => exact absurd rfl (failed reply)
    | failure code message =>
      cases rest
      exact ⟨nofun, fun prompt => Or.inr (dead prompt)⟩
    | thrown =>
      cases rest
      exact ⟨nofun, fun prompt => Or.inr (dead prompt)⟩

theorem Impl.Barren.receiveOne (barren : client.Barren readTimeoutMs) {result : Result RespValue}
    (received : client.receiveOne readTimeoutMs reads = some (result, next, later)) :
    (∀ value, result ≠ .success value) ∧ next.Dead readTimeoutMs := by
  obtain ⟨⟨result', next', later'⟩, taken, rest⟩ := Option.bind_eq_some_iff.mp received
  obtain ⟨failed, dead⟩ := barren.takeReply taken
  cases result' with
  | success reply => exact absurd rfl (failed reply)
  | failure code message =>
    cases rest
    exact ⟨nofun, dead⟩
  | thrown =>
    cases rest
    exact ⟨nofun, dead⟩

/-- The replies of a pipeline, by induction on those still to come. -/
theorem collect_cases {pipelineOptions : PipelineOptions}
    (closing : pipelineOptions.failOnServerError = true → pipelineOptions.closeOnServerError = true)
    {pending : List Protocol.RespValue} (sendable : ∀ value ∈ pending, value.Every Sendable)
    (stream : client.inbuf ++ (arrived reads ++ future) = Protocol.RespValue.encodeAll pending)
    {i : Nat} {out : List RespValue} {result : Result (List RespValue)}
    (collected : Impl.collect readTimeoutMs pipelineOptions pending.length i out client reads =
      some (result, next, later)) :
    (∀ values, result = .success values →
      ∃ fresh, values = out ++ fresh ∧ fresh.map .ok = pending.map meaning) ∧
      (.timeout ∉ reads → next.Synced later future ∨ next.Dead readTimeoutMs) := by
  induction pending generalizing client reads i out with
  | nil =>
    cases collected
    refine ⟨?_, fun _ => Or.inl (synced_of_nil stream)⟩
    rintro _ ⟨⟩
    exact ⟨[], (List.append_nil out).symm, rfl⟩
  | cons value pending ih =>
    obtain ⟨⟨result', next', later'⟩, taken, rest⟩ := Option.bind_eq_some_iff.mp collected
    rcases takeReply_cases (sendable value List.mem_cons_self) stream taken with
      ⟨reply, rfl, meant, -, fewer, stream'⟩ | ⟨failed, dead⟩
    · dsimp only at rest
      split at rest
      · -- a strict pipeline: the error closes the connection
        next _ strict _ =>
        cases rest
        refine ⟨nofun, fun _ => Or.inr (Or.inl ?_)⟩
        rw [closing strict, if_pos rfl]
        rfl
      · obtain ⟨right, fine⟩ :=
          ih (fun other member => sendable other (List.mem_cons_of_mem _ member)) stream' rest
        refine ⟨fun values success => ?_, fun prompt => fine fun member => prompt (fewer member)⟩
        obtain ⟨fresh, rfl, same⟩ := right values success
        refine ⟨reply :: fresh, by simp, ?_⟩
        rw [List.map_cons, List.map_cons, meant, same]
    · cases result' with
      | success reply => exact absurd rfl (failed reply)
      | failure code message =>
        cases rest
        exact ⟨nofun, fun prompt => Or.inr (dead prompt)⟩
      | thrown =>
        cases rest
        exact ⟨nofun, fun prompt => Or.inr (dead prompt)⟩

theorem Impl.Barren.collect (barren : client.Barren readTimeoutMs) {count i : Nat}
    (some : count ≠ 0)
    {pipelineOptions : PipelineOptions} {out : List RespValue} {result : Result (List RespValue)}
    (collected : Impl.collect readTimeoutMs pipelineOptions count i out client reads =
      Option.some (result, next, later)) :
    (∀ values, result ≠ .success values) ∧ next.Dead readTimeoutMs := by
  cases count with
  | zero => exact absurd rfl some
  | succ count =>
    obtain ⟨⟨result', next', later'⟩, taken, rest⟩ := Option.bind_eq_some_iff.mp collected
    obtain ⟨failed, dead⟩ := barren.takeReply taken
    cases result' with
    | success reply => exact absurd rfl (failed reply)
    | failure code message =>
      cases rest
      exact ⟨nofun, dead⟩
    | thrown =>
      cases rest
      exact ⟨nofun, dead⟩

end Replies

/-! ### Calls -/

section Calls

variable {options : Options} {client : Impl} {reads : List Read} {request : Request}

/-- **What a call can do**: fail before it sends anything, or send its commands and receive. -/
inductive Performs (options : Options) (client : Impl) (reads : List Read) :
    Request → Done (List RespValue) → Prop
  | refused (request : Request) (code : ErrorCode) (message : Bytes) :
      Performs options client reads request ⟨.failure code message, client, 0, reads⟩
  | command {args : List Bytes} {result : Result RespValue} {next : Impl} {later : List Read}
      (connected : client.connected = true)
      (received : client.receiveOne options.readTimeoutMs reads = some (result, next, later)) :
      Performs options client reads (.command args) ⟨result.map ([·]), next, 1, later⟩
  | pipeline {commands : List (List Bytes)} {pipelineOptions : PipelineOptions}
      {result : Result (List RespValue)} {next : Impl} {later : List Read}
      (connected : client.connected = true) (some : commands ≠ [])
      (collected : Impl.collect options.readTimeoutMs pipelineOptions commands.length 0 [] client
        reads = Option.some (result, next, later)) :
      Performs options client reads (.pipeline commands pipelineOptions)
        ⟨result, next, commands.length, later⟩

theorem performs_command {args : List Bytes} {done : Done RespValue}
    (performed : client.command options args reads = some done) :
    Performs options client reads (.command args)
      ⟨done.result.map ([·]), done.client, done.sent, done.later⟩ := by
  unfold Impl.command at performed
  split_ifs at performed with closed empty
  · cases performed
    exact .refused _ _ _
  · cases performed
    exact .refused _ _ _
  · split at performed
    · cases performed
      exact .refused _ _ _
    · obtain ⟨⟨result, next, later⟩, received, same⟩ := Option.bind_eq_some_iff.mp performed
      cases same
      exact .command (Bool.eq_true_of_not_eq_false closed) received

theorem performs_pipeline {commands : List (List Bytes)} {pipelineOptions : PipelineOptions}
    {done : Done (List RespValue)}
    (performed : client.pipeline options commands pipelineOptions reads = some done) :
    Performs options client reads (.pipeline commands pipelineOptions) done := by
  unfold Impl.pipeline at performed
  split_ifs at performed with closed empty blank
  · cases performed
    exact .refused _ _ _
  · cases performed
    exact .refused _ _ _
  · cases performed
    exact .refused _ _ _
  · split at performed
    · cases performed
      exact .refused _ _ _
    · obtain ⟨⟨result, next, later⟩, collected, same⟩ := Option.bind_eq_some_iff.mp performed
      cases same
      refine .pipeline (Bool.eq_true_of_not_eq_false closed) ?_ collected
      rintro rfl
      exact empty rfl

theorem performs_of_perform {done : Done (List RespValue)}
    (performed : request.perform options client reads = some done) :
    Performs options client reads request done := by
  cases request with
  | command args =>
    obtain ⟨done', commanded, rfl⟩ := Option.map_eq_some_iff.mp performed
    exact performs_command commanded
  | pipeline commands pipelineOptions => exact performs_pipeline performed

/-- A call on a dead connection. -/
theorem Performs.dead {done : Done (List RespValue)}
    (performs : Performs options client reads request done)
    (dead : client.Dead options.readTimeoutMs) :
    (∀ values, done.result ≠ .success values) ∧ done.client.Dead options.readTimeoutMs := by
  have barren (connected : client.connected = true) : client.Barren options.readTimeoutMs :=
    dead.resolve_left (by rw [connected]; nofun)
  cases performs with
  | refused => exact ⟨nofun, dead⟩
  | command connected received =>
    rename_i args result next later
    obtain ⟨failed, after⟩ := (barren connected).receiveOne received
    refine ⟨fun values success => ?_, after⟩
    cases result with
    | success value => exact failed value rfl
    | failure => cases success
    | thrown => cases success
  | pipeline connected some collected =>
    exact (barren connected).collect (fun none => some (List.length_eq_zero_iff.mp none)) collected

/-- **A call with the answers to its own requests on the stream.** -/
theorem Performs.synced {done : Done (List RespValue)}
    (performs : Performs options client reads request done) (closing : request.closing = true)
    (empty : client.inbuf = []) {pending : List Protocol.RespValue} {future : Bytes}
    (sendable : ∀ value ∈ pending, value.Every Sendable) (count : pending.length = done.sent)
    (stream : arrived reads ++ future = Protocol.RespValue.encodeAll pending) :
    (∀ values, done.result = .success values →
      pending.length = request.commands.length ∧ values.map .ok = pending.map meaning) ∧
      (.timeout ∉ reads → done.client.Synced done.later future ∨
        done.client.Dead options.readTimeoutMs) := by
  have stream' : client.inbuf ++ (arrived reads ++ future) =
      Protocol.RespValue.encodeAll pending := by rw [empty, List.nil_append, stream]
  cases performs with
  | refused =>
    obtain rfl := List.length_eq_zero_iff.mp count
    exact ⟨nofun, fun _ => Or.inl (synced_of_nil stream')⟩
  | command connected received =>
    rename_i args result next later
    obtain ⟨value, rfl⟩ := List.length_eq_one_iff.mp count
    rw [Protocol.RespValue.encodeAll, Protocol.RespValue.encodeAll, List.append_nil] at stream'
    obtain ⟨right, fine⟩ := receiveOne_cases (sendable value List.mem_cons_self) stream' received
    refine ⟨fun values success => ⟨rfl, ?_⟩, fine⟩
    cases result with
    | success reply =>
      cases success
      rw [List.map_singleton, List.map_singleton, right reply rfl]
    | failure => cases success
    | thrown => cases success
  | pipeline connected some collected =>
    rename_i commands pipelineOptions result next later
    have strict (fails : pipelineOptions.failOnServerError = true) :
        pipelineOptions.closeOnServerError = true := by
      rw [Request.closing, fails] at closing
      exact closing
    dsimp only at count
    rw [← count] at collected
    obtain ⟨right, fine⟩ := collect_cases strict sendable stream' collected
    refine ⟨fun values success => ⟨count, ?_⟩, fine⟩
    obtain ⟨fresh, rfl, same⟩ := right values success
    exact same

end Calls

/-! ### Runs -/

section Runs

variable {options : Options} {reply : Nat → Protocol.RespValue}

/-- **A session in which replies belong to their requests**: every reply was received, or nothing
more comes out of the connection. -/
def Session.Fine (options : Options) (reply : Nat → Protocol.RespValue) (session : Session) :
    Prop :=
  (session.client.inbuf = [] ∧
    session.delivered = Protocol.RespValue.encodeAll (answers reply 0 session.requests)) ∨
  session.client.Dead options.readTimeoutMs

theorem answers_add (first count : Nat) :
    answers reply 0 (first + count) = answers reply 0 first ++ answers reply first count := by
  simp [answers, List.range_add]

theorem answers_sendable (sendable : ∀ k, (reply k).Every Sendable) (first count : Nat) :
    ∀ value ∈ answers reply first count, value.Every Sendable := by
  intro value member
  obtain ⟨i, -, rfl⟩ := List.mem_map.mp member
  exact sendable _

/-- **A call in a fine session returns the right values**, and leaves the session fine unless a wait
ran into its timeout. -/
theorem call_right (sendable : ∀ k, (reply k).Every Sendable) {session next : Session} {call : Call}
    (closing : call.request.closing = true) (fine : session.Fine options reply)
    {returned : Returned} (called : session.call options reply call = some (returned, next)) :
    returned.Right reply ∧ (.timeout ∉ call.reads → next.Fine options reply) := by
  obtain ⟨done, performed, rest⟩ := Option.bind_eq_some_iff.mp called
  have performs := performs_of_perform performed
  dsimp only at rest
  split_ifs at rest with possible
  obtain ⟨none, future, stream⟩ := possible
  cases rest
  rcases fine with ⟨empty, delivered⟩ | dead
  · rw [answers_add, encodeAll_append, delivered, List.append_assoc] at stream
    have stream' := List.append_cancel_left stream
    obtain ⟨right, after⟩ := performs.synced closing empty
      (answers_sendable sendable session.requests done.sent) (by simp [answers]) stream'
    constructor
    · intro values success
      obtain ⟨count, same⟩ := right values success
      rw [same]
      simp [answers] at count ⊢
      rw [count]
    · intro prompt
      rcases after prompt with ⟨buffer, -, rfl⟩ | dead
      · refine Or.inl ⟨buffer, ?_⟩
        rw [answers_add, encodeAll_append, delivered, ← stream', List.append_nil]
      · exact Or.inr dead
  · obtain ⟨failed, after⟩ := performs.dead dead
    exact ⟨fun values success => absurd success (failed values), fun _ => Or.inr after⟩

theorem run_cons {call : Call} {calls : List Call} {session : Session} {returned : List Returned}
    (ran : run options reply (call :: calls) session = some returned) :
    ∃ first next others, session.call options reply call = some (first, next) ∧
      run options reply calls next = some others ∧ returned = first :: others := by
  obtain ⟨⟨first, next⟩, called, rest⟩ := Option.bind_eq_some_iff.mp ran
  obtain ⟨others, onward, same⟩ := Option.bind_eq_some_iff.mp rest
  exact ⟨first, next, others, called, onward, (Option.some.inj same).symm⟩

/-- From a fine session on. -/
theorem run_fine (sendable : ∀ k, (reply k).Every Sendable) {calls : List Call} {session : Session}
    (fine : session.Fine options reply) (closing : ∀ call ∈ calls, call.request.closing = true)
    (prompt : ∀ call ∈ calls.dropLast, .timeout ∉ call.reads) {returned : List Returned}
    (ran : run options reply calls session = some returned) :
    ∀ answer ∈ returned, answer.Right reply := by
  induction calls generalizing session returned with
  | nil =>
    cases ran
    exact fun _ => nofun
  | cons call calls ih =>
    obtain ⟨first, next, others, called, onward, rfl⟩ := run_cons ran
    obtain ⟨right, after⟩ := call_right sendable (closing call List.mem_cons_self) fine called
    intro answer member
    rcases List.mem_cons.mp member with rfl | member
    · exact right
    cases calls with
    | nil =>
      cases onward
      cases member
    | cons second calls =>
      rw [List.dropLast_cons_cons] at prompt
      exact ih (after (prompt call List.mem_cons_self))
        (fun other inside => closing other (List.mem_cons_of_mem _ inside))
        (fun other inside => prompt other (List.mem_cons_of_mem _ inside)) onward answer member

/-- **Where no wait of an earlier call ran into its timeout, every value returned is the reply to
the request that the call sent.** -/
theorem run_right (options : Options) (reply : Nat → Protocol.RespValue)
    (sendable : ∀ k, (reply k).Every Sendable) (calls : List Call)
    (closing : ∀ call ∈ calls, call.request.closing = true)
    (prompt : ∀ call ∈ calls.dropLast, .timeout ∉ call.reads) (returned : List Returned)
    (ran : run options reply calls {} = some returned) :
    ∀ answer ∈ returned, answer.Right reply :=
  run_fine sendable (Or.inl ⟨rfl, rfl⟩) closing prompt ran

/-- A server that answers the first request with `OK` and every later one with an error. -/
def okOnce : Nat → Protocol.RespValue
  | 0 => .simpleString (text "OK")
  | _ + 1 => .error (text "ERR")

theorem okOnce_sendable (k : Nat) : (okOnce k).Every Sendable := by
  cases k with
  | zero => exact .leaf nofun (by decide)
  | succ k => exact .leaf nofun (show Sendable (.error (text "ERR")) by decide)

/-- A possible call. -/
theorem call_eq (session : Session) (call : Call) (done : Done (List RespValue))
    (performed : call.request.perform options session.client call.reads = some done)
    (used : done.later = [])
    (possible : session.delivered ++ arrived call.reads <+:
      Protocol.RespValue.encodeAll (answers reply 0 (session.requests + done.sent))) :
    session.call options reply call = some (⟨call.request, session.requests, done.result⟩,
      ⟨done.client, session.requests + done.sent, session.delivered ++ arrived call.reads⟩) := by
  rw [Session.call, performed]
  exact if_pos ⟨by rw [used]; rfl, possible⟩

theorem run_eq {call : Call} {calls : List Call} {session next : Session} {first : Returned}
    (called : session.call options reply call = some (first, next)) {others : List Returned}
    (onward : run options reply calls next = some others) :
    run options reply (call :: calls) session = some (first :: others) := by
  rw [run, called]
  simp only [Option.bind_eq_bind, Option.bind_some, onward]
  rfl

/-- A command whose reply comes in two reads, a pipeline of two commands, and a wait for nothing. -/
theorem run_right_prompt :
    run {} okOnce
        [⟨.command [text "FLUSHALL"], [.data (text "+O"), .interrupted, .data (text "K\r\n")]⟩,
          ⟨.pipeline [[text "A"], [text "B"]] {}, [.data (text "-ERR\r\n-ERR\r\n")]⟩,
          ⟨.command [text "C"], [.timeout]⟩] {} =
      some [⟨.command [text "FLUSHALL"], 0, .success [.simpleString (text "OK")]⟩,
        ⟨.pipeline [[text "A"], [text "B"]] {}, 1,
          .success [.error (text "ERR"), .error (text "ERR")]⟩,
        ⟨.command [text "C"], 3, .failure .timeout (text "I/O timeout")⟩] ∧
    (Returned.mk (.pipeline [[text "A"], [text "B"]] {}) 1
      (.success [.error (text "ERR"), .error (text "ERR")])).Right okOnce := by
  refine have ran := ?_; ⟨ran, run_right {} okOnce okOnce_sendable _
    (by simp [Request.closing]) (by simp) _ ran _ (List.mem_cons_of_mem _ List.mem_cons_self)⟩
  refine run_eq (call_eq {} _ ⟨.success [.simpleString (text "OK")], {}, 1, []⟩ rfl rfl ?_)
    (run_eq (call_eq ⟨{}, 1, text "+OK\r\n"⟩ _
      ⟨.success [.error (text "ERR"), .error (text "ERR")], {}, 2, []⟩ rfl rfl ?_)
    (run_eq (call_eq ⟨{}, 3, text "+OK\r\n-ERR\r\n-ERR\r\n"⟩ _
      ⟨.failure .timeout (text "I/O timeout"), {}, 1, []⟩ rfl rfl ?_) rfl))
  · decide
  · decide
  · decide

/-- **A reply that comes too late is returned to the next command**: the server refuses it, and the
client reports the success of the first one. -/
theorem run_shifted :
    run {} okOnce [⟨.command [text "FLUSHALL"], [.timeout]⟩,
        ⟨.command [text "BAD"], [.data (text "+OK\r\n")]⟩] {} =
      some [⟨.command [text "FLUSHALL"], 0, .failure .timeout (text "I/O timeout")⟩,
        ⟨.command [text "BAD"], 1, .success [.simpleString (text "OK")]⟩] ∧
    okOnce 1 = .error (text "ERR") ∧
    ¬ (Returned.mk (.command [text "BAD"]) 1 (.success [.simpleString (text "OK")])).Right
      okOnce := by
  refine ⟨?_, rfl, fun right => ?_⟩
  · refine run_eq (call_eq {} _ ⟨.failure .timeout (text "I/O timeout"), {}, 1, []⟩ rfl rfl ?_)
      (run_eq (call_eq ⟨{}, 1, []⟩ _ ⟨.success [.simpleString (text "OK")], {}, 1, []⟩ rfl rfl ?_)
        rfl)
    · decide
    · decide
  · have same := right [.simpleString (text "OK")] rfl
    simp [answers, Request.commands, okOnce, meaning] at same

end Runs

end SunKV.Client
