/-
**One request, one reply.**

Every value handed to `processCommand`, in whatever state of transaction and subscription the
connection is, is answered with one call of `send`, and the client decodes what was sent as one
value. The commands that answer with as many messages as they have channels, and the one that ends
the connection, are not among them.

* `IsReply.decodes` — the client reads a reply, and nothing is left of it.
* `dispatch_ping` — the one command of a handler that the subscribe mode lets through.
* `one_reply` — every value, in every state.
-/

import SunKV.Server.Transactions

namespace SunKV.Server

open SunKV.Lib SunKV.Protocol SunKV.Storage
open SunKV.Client (maxElements parseRespValue meaning_ok reads_encode)

/-- **The client decodes a reply.** -/
theorem IsReply.decodes {data : Bytes} (reply : IsReply data) :
    ∃ value, parseRespValue data = .complete value data.length := by
  obtain ⟨value, receivable, rfl⟩ := reply
  obtain ⟨read, meant⟩ := meaning_ok receivable
  have reads := reads_encode (receivable.mono fun _ => And.left)
  rw [meant] at reads
  have whole := reads []
  rw [List.append_nil] at whole
  exact ⟨read, whole⟩

section OneReply

variable {σ : Type} {env : Env} {host : Handler ServerCall.Answer σ} {command : RespValue}
  {conn : Conn σ}

theorem isReply_queued : IsReply (text "+QUEUED" ++ crlf) :=
  ⟨.simpleString (text "QUEUED"), .leaf nofun ⟨by decide, nofun⟩, rfl⟩

/-- `PING`, with or without subscriptions. -/
theorem dispatch_ping {array : QueuedCommand} (ping : array.cmdName = text "PING") :
    ∃ reply, IsReply reply ∧ dispatchArrayCommand env host array conn = conn.send reply := by
  have lookup : dispatchArrayCommandsLookup array.cmdName array.cmdArray =
      cmdPing array.cmdArray := by
    rw [ping]
    rfl
  rw [dispatchArrayCommand, lookup, cmdPing, alone]
  split
  · exact ⟨_, isReply_error (by decide), rfl⟩
  · exact ⟨_, isReply_pong, rfl⟩

/-- **Numbers that the source's types hold**: the lengths of the arrays and of the queue, and what
the rest of the server answers. -/
structure Limits (host : Handler ServerCall.Answer σ) (command : RespValue) (conn : Conn σ) :
    Prop where
  host : HostFits host
  array : ∀ array, arrayCommand command = some array → array.cmdArray.length < 2 ^ 63
  queued : ∀ queued ∈ conn.queuedCommands, queued.cmdArray.length < 2 ^ 63
  queue : conn.queuedCommands.length ≤ maxElements

/-- The reply to `EXEC`. -/
theorem exec_reply (limits : Limits host command conn)
    (unattached : ∀ queued ∈ conn.queuedCommands, queued.Unattached)
    (unsubscribed : conn.isSubscribeMode = false) :
    ∃ after reply, (execQueued env host conn.queuedCommands
        (arrayHeader conn.queuedCommands.length) conn).map (fun ran => ran.2.reset.send ran.1) =
          some after ∧ after.service.sent = conn.service.sent ++ [reply] ∧
        ((∀ call ∈ after.service.issued, call.Fits) → IsReply reply) := by
  obtain ⟨done, replies, length, -, run, valid⟩ :=
    execQueued_eq env host conn.queuedCommands unattached conn.service
  rw [(run conn conn.service.sent unsubscribed rfl).2]
  refine ⟨_, _, rfl, rfl, fun fits => ?_⟩
  rw [← length]
  refine isReply_array (valid limits.queued limits.host fits) ?_
  rw [length]
  exact limits.queue

/-- The reply of a handler. -/
theorem dispatch_reply {array : QueuedCommand} (limits : Limits host command conn)
    (plain : Plain command) (ordinary : queueable command = some array)
    (admitted : conn.isSubscribeMode = true → array.cmdName ∈ allowedSubscribed) :
    ∃ reply, (dispatchArrayCommand env host array conn).service.sent =
        conn.service.sent ++ [reply] ∧
      ((∀ call ∈ (dispatchArrayCommand env host array conn).service.issued, call.Fits) →
        IsReply reply) := by
  obtain ⟨read, uncontrolled⟩ := queueable_eq_some.mp ordinary
  have unattached := plain.unattached ordinary
  cases subscribed : conn.isSubscribeMode with
  | true =>
    have ping : array.cmdName = text "PING" := by
      have allowed := admitted subscribed
      simp only [allowedSubscribed, List.mem_cons, List.not_mem_nil, or_false] at allowed
      rcases allowed with same | same | same | same
      · exact absurd same unattached.1
      · exact absurd same unattached.2
      · exact same
      · exact absurd (by rw [same]; decide) uncontrolled
    obtain ⟨reply, valid, sends⟩ : ∃ reply, IsReply reply ∧
        dispatchArrayCommand env host array conn = conn.send reply := dispatch_ping ping
    rw [sends]
    exact ⟨reply, rfl, fun _ => valid⟩
  | false =>
    obtain ⟨done, reply, -, step, valid⟩ := executed env host unattached conn.service
    rw [(step conn conn.service.sent subscribed rfl).1]
    exact ⟨reply, rfl, fun fits => valid (limits.array array read) limits.host fits⟩

end OneReply

/-- **One request, one reply, decodable by the client.** -/
theorem one_reply {σ : Type} (env : Env) (host : Handler ServerCall.Answer σ)
    (command : RespValue) (conn : Conn σ) (plain : Plain command)
    (unattached : Named "EXEC" command → ∀ queued ∈ conn.queuedCommands, queued.Unattached)
    (limits : Limits host command conn) :
    ∃ after reply, processCommand env host command conn = some after ∧
      after.service.sent = conn.service.sent ++ [reply] ∧
      ((∀ call ∈ after.service.issued, call.Fits) →
        ∃ value, parseRespValue reply = .complete value reply.length) := by
  suffices replied : ∃ after reply, processCommand env host command conn = some after ∧
      after.service.sent = conn.service.sent ++ [reply] ∧
      ((∀ call ∈ after.service.issued, call.Fits) → IsReply reply) by
    obtain ⟨after, reply, returns, sent, valid⟩ := replied
    exact ⟨after, reply, returns, sent, fun fits => (valid fits).decodes⟩
  generalize result : processCommand env host command conn = ended
  have step : Processed env host command conn ended := result ▸ processCommand_step
  cases step with
  | refused message line _ => exact ⟨_, _, rfl, rfl, fun _ => isReply_error line⟩
  | pong _ => exact ⟨_, _, rfl, rfl, fun _ => isReply_pong⟩
  | quit named => exact absurd named plain.quit
  | multi _ _ => exact ⟨_, _, rfl, rfl, fun _ => isReply_ok⟩
  | discard _ _ => exact ⟨_, _, rfl, rfl, fun _ => isReply_ok⟩
  | exec named _ unsubscribed => exact exec_reply limits (unattached named) unsubscribed
  | queued _ _ _ => exact ⟨_, _, rfl, rfl, fun _ => isReply_queued⟩
  | dispatched array ordinary _ admitted =>
    obtain ⟨reply, sent, valid⟩ : ∃ reply, (dispatchArrayCommand env host array conn).service.sent =
        conn.service.sent ++ [reply] ∧ _ := dispatch_reply limits plain ordinary admitted
    exact ⟨_, reply, rfl, sent, valid⟩

theorem hostFits_idleHost : HostFits idleHost :=
  ⟨fun _ _ => (by decide : ([] : Bytes).length < 2 ^ 63), fun _ _ _ => Reply.fits_zero⟩

/-- A transaction that reads a string and fills a list, on a store that holds the string. -/
def openTransaction : Conn Unit where
  service := { world := ({} : World).put (text "k") { value := .ofString (text "v") }, rest := () }
  inMulti := true
  queuedCommands :=
    [⟨text "GET", [text "GET", text "k"].map .bulkString⟩,
      ⟨text "RPUSH", [text "RPUSH", text "l", text "a", text "b"].map .bulkString⟩]

theorem one_reply_exec :
    ∃ after reply value,
      processCommand (Env.still 0) idleHost (commandValue [text "EXEC"]) openTransaction =
        some after ∧
      after.service.sent = [reply] ∧ parseRespValue reply = .complete value reply.length := by
  have plain : Plain (commandValue [text "EXEC"]) := by
    refine ⟨?_, ?_, ?_⟩ <;>
    · rw [named_commandValue]
      decide
  have limits : Limits idleHost (commandValue [text "EXEC"]) openTransaction := by
    refine ⟨hostFits_idleHost, fun array read => ?_, by decide, by decide⟩
    obtain rfl := Option.some.inj read
    decide
  obtain ⟨after, reply, returns, sent, decodes⟩ :=
    one_reply (Env.still 0) idleHost (commandValue [text "EXEC"]) openTransaction plain
      (fun _ => by unfold QueuedCommand.Unattached; decide) limits
  have issued : (processCommand (Env.still 0) idleHost (commandValue [text "EXEC"])
      openTransaction).map (·.service.issued.all fun call => decide call.Fits) = some true := by
    decide +kernel
  rw [returns] at issued
  have fits := List.all_eq_true.mp (Option.some.inj issued)
  obtain ⟨value, decoded⟩ := decodes fun call member => of_decide_eq_true (fits call member)
  exact ⟨after, reply, value, returns, sent, decoded⟩

end SunKV.Server
