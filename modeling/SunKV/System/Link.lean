/-
**A client and its server, on one connection.**

`Link` is the two ends of a connection: the client, the server's input and the server behind it. A
call of the client sends its commands, the server reads them in chunks and processes what its parser
hands over, and the client reads what the server sent; how the two streams are cut is the
`Transport` of the call.

* `receive_eq` — what the server does with the commands of a call, however they are cut, if the
  calls of the parser return;
* `Link.call_eq` — **a call returns what the client makes of the replies to its own commands**, and
  leaves both ends at rest.
-/

import SunKV.Client.Typed
import SunKV.Server.Pieces
import SunKV.Server.Quit

namespace SunKV.System

open SunKV.Lib SunKV.Protocol SunKV.Storage SunKV.Server
open SunKV.Client hiding RespValue

/-! ### Both ends -/

/-- **The two ends of a connection.** -/
structure Link (σ : Type) where
  client : Impl := {}
  input : Connection := {}
  conn : Conn σ

/-- How the streams of a call are cut: the chunks in which the server gets the commands, and what
the client's waits and reads come to. -/
structure Transport where
  chunks : List Bytes
  reads : List Read

/-- The size of the buffer that the client receives into. -/
def kRecvBytes : Nat := 8192

/-- **Every chunk and every read is what one system call may bring.** -/
structure Transport.Bounded (transport : Transport) : Prop where
  chunks : ∀ chunk ∈ transport.chunks, SmallPiece chunk
  reads : ∀ read ∈ transport.reads, read.bytes ≠ [] ∧ read.bytes.length ≤ kRecvBytes

section Calls

variable {σ : Type} (env : Env) (host : Handler ServerCall.Answer σ) (megabytes : Int32)

/-- What happens in the loop over the pending input. -/
def happen (conn : Conn σ) : Server.Event → Option (Conn σ)
  | .handed value => processCommand env host value conn
  | .replied message => some (conn.send (serializeError message))
  | .parsed _ _ _ => some conn

/-- The server's part: the chunks arrive, one after the other. -/
def Link.receive (link : Link σ) (chunks : List Bytes) : Option (Connection × Conn σ) := do
  let (input, events) ← onMessages megabytes chunks link.input
  let conn ← events.foldlM (happen env host) link.conn
  return (input, conn)

/-- What was sent to the client in the meantime. -/
def sentSince (before after : Conn σ) : Bytes :=
  (after.service.sent.drop before.service.sent.length).flatten

/-- **A call on the connection**; there is none with this transport when it brings the server
anything but the commands that the call sends, or the client anything but what the server sends, or
when the call leaves replies behind on a connection that it does not close. -/
def Link.call (options : Options) {α : Type} (link : Link σ) (api : Api α) (transport : Transport) :
    Option (TypedResult α × Link σ) := do
  let done ← api.call options link.client transport.reads
  let (input, conn) ← link.receive env host megabytes transport.chunks
  if transport.chunks.flatten = (api.requests.take done.sent).flatMap encodeRespArrayCommand ∧
      arrived transport.reads = sentSince link.conn conn ∧
      (arrived done.later = [] ∨ done.client.connected = false) then
    return (done.result, ⟨done.client, input, conn⟩)
  else none

end Calls

/-- No transaction is open, and the connection has not subscribed to anything. -/
structure Unbound {σ : Type} (conn : Conn σ) : Prop where
  outside : conn.inMulti = false
  unsubscribed : conn.isSubscribeMode = false

/-- **Between two calls**: nothing is on its way. -/
structure AtRest {σ : Type} (link : Link σ) : Prop where
  ready : link.client.Ready
  idle : Idle link.input
  fresh : link.input.parser = {}
  unbound : Unbound link.conn

theorem atRest_fresh {σ : Type} (service : Service σ) : AtRest { conn := { service := service } } :=
  ⟨⟨rfl, rfl⟩, ⟨rfl, rfl, rfl⟩, rfl, rfl, by simp [Conn.isSubscribeMode]⟩

/-! ### The stream of commands -/

section Stream

variable {σ : Type} {env : Env} {host : Handler ServerCall.Answer σ} {megabytes : Int32}
  {input last : Connection} {chunks : List Bytes} {events : List Server.Event}

/-- Events of a smooth loop: the values handed over are processed. -/
theorem foldlM_happen {conn : Conn σ} (smooth : ∀ event ∈ events, event.smooth = true) :
    events.foldlM (happen env host) conn = processCommands env host (handed events) conn := by
  induction events generalizing conn with
  | nil => rfl
  | cons event events ih =>
    obtain ⟨good, later⟩ := List.forall_mem_cons.mp smooth
    rw [List.foldlM_cons]
    cases event with
    | handed value =>
      show _ = (processCommand env host value conn).bind _
      rw [happen, Option.bind_eq_bind]
      congr 1
      funext next
      exact ih later
    | replied message => cases good
    | parsed position count outcome => exact ih later

end Stream

/-! ### What has been asked of the store -/

section Issued

variable {σ α : Type} {env : Env} {host : Handler ServerCall.Answer σ} {megabytes : Int32}
  {conn next : Conn σ}

theorem issued_attached (request : ServerCall) (conn : Conn σ) :
    conn.service.issued ⊆ (attached env host request conn).2.service.issued := by
  cases request with
  | api command => exact List.subset_append_left _ _
  | publishMessage channel payload =>
    simp only [attached]
    split
    · exact List.Subset.refl _
    · exact List.Subset.refl _
  | _ => exact List.Subset.refl _

theorem issued_run (program : Serving α) (conn : Conn σ) :
    conn.service.issued ⊆ (program.run (attached env host) conn).2.service.issued := by
  induction program generalizing conn with
  | pure value => exact List.Subset.refl _
  | query request later ih => exact List.Subset.trans (issued_attached request conn) (ih _ _)

theorem issued_detached {request : ServerCall} {out : Bytes}
    {step : request.Answer × Conn σ × Bytes}
    (called : detached env host request (conn, out) = some step) :
    conn.service.issued ⊆ step.2.1.service.issued := by
  have stays : conn.service.issued ⊆ (attached env host request conn).2.service.issued :=
    issued_attached request conn
  cases request with
  | subscribeChannel channel => cases called
  | unsubscribeChannel channel => cases called
  | unsubscribeAllChannels => cases called
  | writeResp data =>
    cases called
    exact List.Subset.refl _
  | _ =>
    cases called
    exact stays

theorem issued_attempt {program : Serving α} {out : Bytes} {ran : α × Conn σ × Bytes}
    (attempted : program.attempt (detached env host) (conn, out) = some ran) :
    conn.service.issued ⊆ ran.2.1.service.issued := by
  induction program generalizing conn out with
  | pure value =>
    cases attempted
    exact List.Subset.refl _
  | query request later ih =>
    obtain ⟨step, called, onward⟩ := Option.bind_eq_some_iff.mp attempted
    exact List.Subset.trans (issued_detached called) (ih _ onward)

theorem issued_execQueued {queue : List QueuedCommand} {out : Bytes} {ran : Bytes × Conn σ}
    (executed : execQueued env host queue out conn = some ran) :
    conn.service.issued ⊆ ran.2.service.issued := by
  induction queue generalizing conn out with
  | nil =>
    cases executed
    exact List.Subset.refl _
  | cons command queue ih =>
    obtain ⟨first, called, onward⟩ := Option.bind_eq_some_iff.mp executed
    obtain ⟨_, attempted, rfl⟩ := Option.map_eq_some_iff.mp called
    exact List.Subset.trans (issued_attempt attempted) (ih onward)

theorem issued_dispatch (command : QueuedCommand) (conn : Conn σ) :
    conn.service.issued ⊆ (dispatchArrayCommand env host command conn).service.issued := by
  unfold dispatchArrayCommand
  dsimp only
  split
  · exact issued_run _ conn
  · exact issued_run _ conn

/-- **A command forgets none of the operations before it.** -/
theorem Processed.issued {command : RespValue} {result : Option (Conn σ)}
    (step : Processed env host command conn result) (returned : result = some next) :
    conn.service.issued ⊆ next.service.issued := by
  cases step with
  | exec named inside unsubscribed =>
    obtain ⟨_, executed, rfl⟩ := Option.map_eq_some_iff.mp returned
    exact issued_execQueued executed
  | dispatched array ordinary outside admitted =>
    cases returned
    exact issued_dispatch array conn
  | _ =>
    cases returned
    exact List.Subset.refl _

theorem issued_processCommands {commands : List RespValue}
    (processed : processCommands env host commands conn = some next) :
    conn.service.issued ⊆ next.service.issued := by
  induction commands generalizing conn with
  | nil =>
    cases processed
    exact List.Subset.refl _
  | cons command commands ih =>
    obtain ⟨middle, first, onward⟩ := Option.bind_eq_some_iff.mp processed
    exact List.Subset.trans (Processed.issued processCommand_step first) (ih onward)

theorem issued_happen {event : Server.Event} (happened : happen env host conn event = some next) :
    conn.service.issued ⊆ next.service.issued := by
  cases event with
  | handed value => exact Processed.issued processCommand_step happened
  | _ =>
    cases happened
    exact List.Subset.refl _

/-- **Nor does the input that a connection reads.** -/
theorem Link.receive_issued {link : Link σ} {chunks : List Bytes} {input : Connection}
    (received : link.receive env host megabytes chunks = some (input, next)) :
    link.conn.service.issued ⊆ next.service.issued := by
  have folded : ∀ (events : List Server.Event) (conn : Conn σ),
      events.foldlM (happen env host) conn = some next →
        conn.service.issued ⊆ next.service.issued := by
    intro events
    induction events with
    | nil =>
      intro conn same
      cases same
      exact List.Subset.refl _
    | cons event events ih =>
      intro conn ran
      rw [List.foldlM_cons] at ran
      obtain ⟨middle, happened, onward⟩ := Option.bind_eq_some_iff.mp ran
      exact List.Subset.trans (issued_happen happened) (ih middle onward)
  obtain ⟨⟨last, events⟩, -, rest⟩ := Option.bind_eq_some_iff.mp received
  obtain ⟨after, ran, same⟩ := Option.bind_eq_some_iff.mp rest
  cases same
  exact folded events link.conn ran

end Issued

/-! ### A call -/

section Call

variable {σ : Type} {env : Env} {host : Handler ServerCall.Answer σ} {megabytes : Int32}

theorem encodeAll_eq (values : List RespValue) :
    RespValue.encodeAll values = (values.map RespValue.encode).flatten := by
  induction values with
  | nil => rfl
  | cons value values ih => rw [RespValue.encodeAll, ih, List.map_cons, List.flatten_cons]

/-- **The server answers these commands with these values**, one for each, and leaves the connection
unbound. -/
structure Answered (env : Env) (host : Handler ServerCall.Answer σ) (conn : Conn σ)
    (commands : List (List Bytes)) (values : List RespValue) (after : Conn σ) : Prop where
  processed : processCommands env host (commands.map commandValue) conn = some after
  sent : after.service.sent = conn.service.sent ++ values.map RespValue.encode
  grows : conn.service.issued ⊆ after.service.issued
  unbound : Unbound after

theorem Answered.sentSince {conn after : Conn σ} {commands : List (List Bytes)}
    {values : List RespValue} (answered : Answered env host conn commands values after) :
    sentSince conn after = RespValue.encodeAll values := by
  rw [System.sentSince, answered.sent, List.drop_left, encodeAll_eq]

/-- The commands of a call arrive, in pieces that the parser takes. -/
structure Delivers (megabytes : Int32) (link : Link σ) (transport : Transport)
    (commands : List (List Bytes)) : Prop where
  stream : transport.chunks.flatten = commands.flatMap encodeRespArrayCommand
  fits : transport.chunks.flatten.length ≤ kMaxConnInbufBytes megabytes
  returns : (onMessages megabytes transport.chunks link.input).isSome = true

/-- **What the server has done** when it has read the commands of a call. -/
theorem receive_some {link : Link σ} {chunks : List Bytes} {commands : List (List Bytes)}
    (rest : AtRest link) (filled : ∀ args ∈ commands, args ≠ [])
    (stream : chunks.flatten = commands.flatMap encodeRespArrayCommand)
    (fits : chunks.flatten.length ≤ kMaxConnInbufBytes megabytes) {input : Connection}
    {conn : Conn σ} (received : link.receive env host megabytes chunks = some (input, conn)) :
    processCommands env host (commands.map commandValue) link.conn = some conn ∧ Idle input ∧
      input.parser = {} := by
  obtain ⟨⟨last, events⟩, ran, folded⟩ := Option.bind_eq_some_iff.mp received
  obtain ⟨handed, smooth, idle, fresh⟩ :=
    onMessages_stream filled rest.idle rest.fresh stream fits ran
  obtain ⟨after, processed, same⟩ := Option.bind_eq_some_iff.mp folded
  rw [foldlM_happen smooth, handed] at processed
  cases same
  exact ⟨processed, idle, fresh⟩

/-- **What the server does with the commands of a call.** -/
theorem receive_eq {link : Link σ} {transport : Transport} {commands : List (List Bytes)}
    (rest : AtRest link) (filled : ∀ args ∈ commands, args ≠ [])
    (delivers : Delivers megabytes link transport commands) {values : List RespValue}
    {after : Conn σ} (answered : Answered env host link.conn commands values after) :
    ∃ last, link.receive env host megabytes transport.chunks = some (last, after) ∧
      Idle last ∧ last.parser = {} := by
  obtain ⟨⟨last, events⟩, ran⟩ := Option.isSome_iff_exists.mp delivers.returns
  obtain ⟨values, smooth, idle, fresh⟩ :=
    onMessages_stream filled rest.idle rest.fresh delivers.stream delivers.fits ran
  refine ⟨last, ?_, idle, fresh⟩
  rw [Link.receive, ran]
  simp only [Option.bind_eq_bind, Option.bind_some, foldlM_happen smooth, values,
    answered.processed]
  rfl

/-- **A call returns what the client makes of the replies to its own commands**, and leaves both
ends at rest. -/
theorem Link.call_eq {options : Options} {α : Type} {link : Link σ} {api : Api α}
    {transport : Transport} (rest : AtRest link) (filled : ∀ args ∈ api.requests, args ≠ [])
    (delivers : Delivers megabytes link transport api.requests)
    {values : List RespValue} {after : Conn σ}
    (answered : Answered env host link.conn api.requests values after)
    {result : TypedResult α} {later : List Read}
    (called : api.call options link.client transport.reads =
      some ⟨result, {}, api.requests.length, later⟩)
    (brought : arrived transport.reads = RespValue.encodeAll values)
    (nothing : arrived later = []) :
    ∃ next, link.call env host megabytes options api transport = some (result, next) ∧
      next.conn = after ∧ AtRest next := by
  obtain ⟨last, received, idle, fresh⟩ := receive_eq rest filled delivers answered
  refine ⟨⟨{}, last, after⟩, ?_, rfl, ⟨⟨rfl, rfl⟩, idle, fresh, answered.unbound⟩⟩
  rw [Link.call, called]
  simp only [Option.bind_eq_bind, Option.bind_some, received, List.take_length]
  exact if_pos ⟨delivers.stream, brought.trans answered.sentSince.symm, .inl nothing⟩

/-- What a call that is possible comes with. -/
theorem Link.call_some {options : Options} {α : Type} {link next : Link σ} {api : Api α}
    {transport : Transport} {result : TypedResult α}
    (called : link.call env host megabytes options api transport = some (result, next)) :
    ∃ later sent, api.call options link.client transport.reads =
        some ⟨result, next.client, sent, later⟩ ∧
      link.receive env host megabytes transport.chunks = some (next.input, next.conn) ∧
      transport.chunks.flatten = (api.requests.take sent).flatMap encodeRespArrayCommand ∧
      arrived transport.reads = System.sentSince link.conn next.conn := by
  obtain ⟨⟨result', client, sent, later⟩, first, rest⟩ := Option.bind_eq_some_iff.mp called
  obtain ⟨⟨input, conn⟩, received, rest⟩ := Option.bind_eq_some_iff.mp rest
  dsimp only at rest
  split_ifs at rest with possible
  cases rest
  exact ⟨later, sent, first, received, possible.1, possible.2.1⟩

end Call

end SunKV.System
