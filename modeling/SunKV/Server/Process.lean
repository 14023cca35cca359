/-
**One command of a connection.**

`processCommand` is what the server does with a value that the parser hands it: the commands of
transactions and of the subscribe mode are its own, the others go to their handlers. Outside a
transaction a handler runs with the connection (`attached`); `EXEC` runs the queued ones without
one and collects their replies (`detached`), where a call that needs the connection is an error.
The figures that `recordCommandMetrics_` collects, which only the texts of `STATS`, `MONITOR` and
`DEBUG INFO` show, are left out.

* `processCommand_step` — what a command can do, once for all.
* `executed` — a command that does not need the connection does the same with and without it.
-/

import SunKV.Server.Replies

namespace SunKV.Server

open SunKV.Lib SunKV.Protocol SunKV.Storage

/-! ### The connection -/

/-- `struct QueuedCommand`: an array command, its name in capitals. -/
structure QueuedCommand where
  cmdName : Bytes
  cmdArray : List RespValue

/-- The fields of `struct ConnParseState` that `processCommand` uses, beside the server as one
connection sees it: `sent` is what has been sent to this connection. -/
structure Conn (σ : Type) where
  service : Service σ
  inMulti : Bool := false
  queuedCommands : List QueuedCommand := []
  subscribedChannels : StringSet := ∅
  forceClosed : Bool := false

namespace Conn

variable {σ : Type} (conn : Conn σ)

/-- `conn->send`. -/
def send (data : Bytes) : Conn σ :=
  { conn with service := { conn.service with sent := conn.service.sent ++ [data] } }

/-- An error reply. -/
def sendError (message : String) : Conn σ := conn.send (serializeError (text message))

/-- `isSubscribeMode_`. -/
def isSubscribeMode : Bool := !conn.subscribedChannels.isEmpty

/-- The end of a transaction. -/
def reset : Conn σ := { conn with inMulti := false, queuedCommands := [] }

end Conn

/-! ### Handlers with and without a connection -/

section Handlers

variable {σ : Type} (env : Env) (host : Handler ServerCall.Answer σ)

/-- The message that `publishMessage_` sends to the subscribers of a channel. -/
def publishedMessage (channel payload : Bytes) : Bytes :=
  text "*3" ++ crlf ++ serializeBulkString (text "message") ++ serializeBulkString channel ++
    serializeBulkString payload

/-- **The calls of a handler that runs with the connection.** The server keeps the other half of the
subscriptions, and its own messages reach the connection if it has subscribed to the channel. -/
def attached : Handler ServerCall.Answer (Conn σ)
  | .subscribeChannel channel, conn =>
      let channels := conn.subscribedChannels.insert channel
      (channels.size, { conn with
        subscribedChannels := channels
        service.rest := (host (.subscribeChannel channel) conn.service.rest).2 })
  | .unsubscribeChannel channel, conn =>
      let channels := conn.subscribedChannels.erase channel
      (channels.size, { conn with
        subscribedChannels := channels
        service.rest := (host (.unsubscribeChannel channel) conn.service.rest).2 })
  | .unsubscribeAllChannels, conn =>
      (conn.subscribedChannels.toList.map fun channel => (channel, 0), { conn with
        subscribedChannels := ∅
        service.rest := (host .unsubscribeAllChannels conn.service.rest).2 })
  | .publishMessage channel payload, conn =>
      let ran := serving env host (.publishMessage channel payload) conn.service
      let after := { conn with service := ran.2 }
      (ran.1, if conn.subscribedChannels.contains channel then
        after.send (publishedMessage channel payload) else after)
  | request, conn =>
      ((serving env host request conn.service).1,
        { conn with service := (serving env host request conn.service).2 })

/-- **The calls of a handler that runs without one**, beside the replies collected so far. The three
calls that look at the name of the connection dereference a null pointer. -/
def detached : PartialHandler ServerCall.Answer (Conn σ × Bytes)
  | .writeResp data, (conn, out) => some ((), conn, out ++ data)
  | .subscribeChannel _, _ => none
  | .unsubscribeChannel _, _ => none
  | .unsubscribeAllChannels, _ => none
  | request, (conn, out) =>
      some ((attached env host request conn).1, (attached env host request conn).2, out)

/-- `executeArrayCommandToResp`. -/
def executeArrayCommandToResp (command : QueuedCommand) (conn : Conn σ) :
    Option (Bytes × Conn σ) :=
  ((dispatchArrayCommandsLookup command.cmdName command.cmdArray).attempt (detached env host)
    (conn, [])).map fun ran =>
      (if ran.1 then ran.2.2 else serializeError (text "ERR unknown command"), ran.2.1)

/-- The loop of `EXEC`. -/
def execQueued : List QueuedCommand → Bytes → Conn σ → Option (Bytes × Conn σ)
  | [], out, conn => some (out, conn)
  | command :: rest, out, conn =>
      (executeArrayCommandToResp env host command conn).bind fun ran =>
        execQueued rest (out ++ ran.1) ran.2

/-- The command handed to its handler, `ERR unknown command` if that does not take it. -/
def dispatchArrayCommand (command : QueuedCommand) (conn : Conn σ) : Conn σ :=
  let ran := (dispatchArrayCommandsLookup command.cmdName command.cmdArray).run (attached env host)
    conn
  if ran.1 then ran.2 else ran.2.sendError "ERR unknown command"

/-- An array whose first element is a bulk string, as a command. The enumerators of a null array and
of an array are equal, and it is empty. -/
def arrayCommand : RespValue → Option QueuedCommand
  | .array (head :: args) => (bulk? head).map fun name => ⟨name.map toUpper, head :: args⟩
  | _ => none

/-- The commands that the subscribe mode allows. -/
def allowedSubscribed : List Bytes :=
  [text "SUBSCRIBE", text "UNSUBSCRIBE", text "PING", text "QUIT"]

/-- The part of `processCommand` for array commands. -/
def processArrayCommand (command : QueuedCommand) (conn : Conn σ) : Option (Conn σ) :=
  if command.cmdName = text "WATCH" ∨ command.cmdName = text "UNWATCH" then
    some (conn.sendError "ERR WATCH/UNWATCH is not supported")
  else if conn.isSubscribeMode && !allowedSubscribed.contains command.cmdName then
    some (conn.sendError "ERR only SUBSCRIBE/UNSUBSCRIBE/PING/QUIT allowed in this context")
  else if command.cmdName = text "QUIT" then
    some { conn.send kSimpleStringOk with forceClosed := true }
  else if command.cmdName = text "MULTI" then
    if conn.inMulti then some (conn.sendError "ERR MULTI calls can not be nested")
    else some ({ conn with inMulti := true, queuedCommands := [] }.send kSimpleStringOk)
  else if command.cmdName = text "DISCARD" then
    if !conn.inMulti then some (conn.sendError "ERR DISCARD without MULTI")
    else some (conn.reset.send kSimpleStringOk)
  else if command.cmdName = text "EXEC" then
    if !conn.inMulti then some (conn.sendError "ERR EXEC without MULTI")
    else
      (execQueued env host conn.queuedCommands (arrayHeader conn.queuedCommands.length) conn).map
        fun ran => ran.2.reset.send ran.1
  else if conn.inMulti then
    some ({ conn with queuedCommands := conn.queuedCommands ++ [command] }.send
      (text "+QUEUED" ++ crlf))
  else some (dispatchArrayCommand env host command conn)

/-- **`processCommand`**, `none` when a missing connection is dereferenced. The parser hands over no
null pointer, and no call throws. -/
def processCommand (command : RespValue) (conn : Conn σ) : Option (Conn σ) :=
  match arrayCommand command with
  | some command => processArrayCommand env host command conn
  | none =>
    match command with
    | .simpleString cmd =>
      if cmd = text "PING" then some (conn.send kSimpleStringPong)
      else some (conn.sendError "ERR unknown command")
    | _ => some (conn.sendError "ERR unknown command")

/-- The commands of a connection, one after the other. -/
def processCommands : List RespValue → Conn σ → Option (Conn σ)
  | [], conn => some conn
  | command :: rest, conn => (processCommand env host command conn).bind (processCommands rest)

end Handlers

/-! ### What a command can do -/

/-- The command is the array command with this name. -/
def Named (name : String) (command : RespValue) : Prop :=
  ∃ array, arrayCommand command = some array ∧ array.cmdName = text name

/-- The commands that `processCommand` itself takes care of. -/
def controlNames : List Bytes :=
  [text "WATCH", text "UNWATCH", text "QUIT", text "MULTI", text "DISCARD", text "EXEC"]

/-- What is queued of a value inside a transaction. -/
def queueable (command : RespValue) : Option QueuedCommand :=
  (arrayCommand command).filter fun array => !controlNames.contains array.cmdName

section Step

variable {σ : Type} {env : Env} {host : Handler ServerCall.Answer σ} {command : RespValue}
  {conn : Conn σ} {array : QueuedCommand}

theorem queueable_of_control (read : arrayCommand command = some array)
    (control : array.cmdName ∈ controlNames) : queueable command = none := by
  simp [queueable, read, control]

theorem queueable_eq_some :
    queueable command = some array ↔
      arrayCommand command = some array ∧ array.cmdName ∉ controlNames := by
  simp [queueable, Option.filter_eq_some_iff]

/-- **What `processCommand` does with a value**: refuse it or answer it at once, end the connection,
open, drop or execute a transaction, queue the command, or hand it to its handler. -/
inductive Processed (env : Env) (host : Handler ServerCall.Answer σ) (command : RespValue)
    (conn : Conn σ) : Option (Conn σ) → Prop
  | refused (message : String) (plain : ¬ crlf <:+: text message)
      (unqueued : conn.isSubscribeMode = true ∨ queueable command = none) :
      Processed env host command conn (some (conn.sendError message))
  | pong (other : arrayCommand command = none) :
      Processed env host command conn (some (conn.send kSimpleStringPong))
  | quit (named : Named "QUIT" command) :
      Processed env host command conn (some { conn.send kSimpleStringOk with forceClosed := true })
  | multi (named : Named "MULTI" command) (outside : conn.inMulti = false) :
      Processed env host command conn
        (some ({ conn with inMulti := true, queuedCommands := [] }.send kSimpleStringOk))
  | discard (named : Named "DISCARD" command) (inside : conn.inMulti = true) :
      Processed env host command conn (some (conn.reset.send kSimpleStringOk))
  | exec (named : Named "EXEC" command) (inside : conn.inMulti = true)
      (unsubscribed : conn.isSubscribeMode = false) :
      Processed env host command conn
        ((execQueued env host conn.queuedCommands (arrayHeader conn.queuedCommands.length) conn).map
          fun ran => ran.2.reset.send ran.1)
  | queued (array : QueuedCommand) (ordinary : queueable command = some array)
      (inside : conn.inMulti = true) :
      Processed env host command conn
        (some ({ conn with queuedCommands := conn.queuedCommands ++ [array] }.send
          (text "+QUEUED" ++ crlf)))
  | dispatched (array : QueuedCommand) (ordinary : queueable command = some array)
      (outside : conn.inMulti = false)
      (admitted : conn.isSubscribeMode = true → array.cmdName ∈ allowedSubscribed) :
      Processed env host command conn (some (dispatchArrayCommand env host array conn))

theorem processArrayCommand_step (read : arrayCommand command = some array) :
    Processed env host command conn (processArrayCommand env host array conn) := by
  have control (name : Bytes) (same : array.cmdName = name) (member : name ∈ controlNames) :
      queueable command = none :=
    queueable_of_control read (same ▸ member)
  unfold processArrayCommand
  split
  case isTrue watch =>
    refine .refused _ (by decide) (.inr ?_)
    rcases watch with same | same
    · exact control _ same (by decide)
    · exact control _ same (by decide)
  split
  case isTrue gated => exact .refused _ (by decide) (.inl (Bool.and_eq_true_iff.mp gated).1)
  case isFalse unwatched ungated =>
  have admitted : ¬ (conn.isSubscribeMode = true ∧ array.cmdName ∉ allowedSubscribed) := by
    simpa using ungated
  split
  case isTrue quit => exact .quit ⟨array, read, quit⟩
  split
  case isTrue multi =>
    split
    · exact .refused _ (by decide) (.inr (control _ multi (by decide)))
    case isFalse outside => exact .multi ⟨array, read, multi⟩ (by simpa using outside)
  split
  case isTrue discard =>
    split
    · exact .refused _ (by decide) (.inr (control _ discard (by decide)))
    case isFalse inside => exact .discard ⟨array, read, discard⟩ (by simpa using inside)
  split
  case isTrue exec =>
    split
    · exact .refused _ (by decide) (.inr (control _ exec (by decide)))
    case isFalse inside =>
      refine .exec ⟨array, read, exec⟩ (by simpa using inside) ?_
      by_contra subscribed
      refine admitted ⟨by simpa using subscribed, ?_⟩
      rw [exec]
      decide
  case isFalse notQuit notMulti notDiscard notExec =>
  have ordinary : queueable command = some array := by
    refine queueable_eq_some.mpr ⟨read, ?_⟩
    rw [not_or] at unwatched
    simp [controlNames, unwatched, notQuit, notMulti, notDiscard, notExec]
  split
  case isTrue inside => exact .queued array ordinary inside
  case isFalse outside =>
    refine .dispatched array ordinary (by simpa using outside) fun subscribed => ?_
    by_contra refused
    exact admitted ⟨subscribed, refused⟩

theorem processCommand_step :
    Processed env host command conn (processCommand env host command conn) := by
  unfold processCommand
  split
  case h_1 array read => exact processArrayCommand_step read
  case h_2 other =>
    have unqueued : queueable command = none := by simp [queueable, other]
    split
    · split
      · exact .pong other
      · exact .refused _ (by decide) (.inr unqueued)
    · exact .refused _ (by decide) (.inr unqueued)

/-- An accepted `MULTI`. -/
theorem processCommand_multi (named : Named "MULTI" command) (outside : conn.inMulti = false)
    (unsubscribed : conn.isSubscribeMode = false) :
    processCommand env host command conn =
      some ({ conn with inMulti := true, queuedCommands := [] }.send kSimpleStringOk) := by
  obtain ⟨array, read, name⟩ := named
  have watch : ¬ (text "MULTI" = text "WATCH" ∨ text "MULTI" = text "UNWATCH") := by decide
  have quit : text "MULTI" ≠ text "QUIT" := by decide
  simp [processCommand, read, processArrayCommand, name, watch, quit, outside, unsubscribed]

/-- `DISCARD` in a transaction. -/
theorem processCommand_discard (named : Named "DISCARD" command) (inside : conn.inMulti = true)
    (unsubscribed : conn.isSubscribeMode = false) :
    processCommand env host command conn = some (conn.reset.send kSimpleStringOk) := by
  obtain ⟨array, read, name⟩ := named
  have watch : ¬ (text "DISCARD" = text "WATCH" ∨ text "DISCARD" = text "UNWATCH") := by decide
  have quit : text "DISCARD" ≠ text "QUIT" := by decide
  have multi : text "DISCARD" ≠ text "MULTI" := by decide
  simp [processCommand, read, processArrayCommand, name, watch, quit, multi, inside, unsubscribed]

/-- `EXEC` in a transaction. -/
theorem processCommand_exec (named : Named "EXEC" command) (inside : conn.inMulti = true)
    (unsubscribed : conn.isSubscribeMode = false) :
    processCommand env host command conn =
      (execQueued env host conn.queuedCommands (arrayHeader conn.queuedCommands.length) conn).map
        fun ran => ran.2.reset.send ran.1 := by
  obtain ⟨array, read, name⟩ := named
  have watch : ¬ (text "EXEC" = text "WATCH" ∨ text "EXEC" = text "UNWATCH") := by decide
  have quit : text "EXEC" ≠ text "QUIT" := by decide
  have multi : text "EXEC" ≠ text "MULTI" := by decide
  have discard : text "EXEC" ≠ text "DISCARD" := by decide
  simp [processCommand, read, processArrayCommand, name, watch, quit, multi, discard, inside,
    unsubscribed]

/-- A command of a handler, outside a transaction. -/
theorem processCommand_dispatch (ordinary : queueable command = some array)
    (outside : conn.inMulti = false) (unsubscribed : conn.isSubscribeMode = false) :
    processCommand env host command conn = some (dispatchArrayCommand env host array conn) := by
  obtain ⟨read, uncontrolled⟩ := queueable_eq_some.mp ordinary
  simp only [controlNames, List.mem_cons, List.not_mem_nil, or_false, not_or] at uncontrolled
  obtain ⟨watch, unwatch, quit, multi, discard, exec⟩ := uncontrolled
  simp [processCommand, read, processArrayCommand, watch, unwatch, quit, multi, discard, exec,
    outside, unsubscribed]

end Step

/-! ### With and without the connection -/

/-- The handler of the command does not need the connection. -/
def QueuedCommand.Unattached (command : QueuedCommand) : Prop :=
  command.cmdName ≠ text "SUBSCRIBE" ∧ command.cmdName ≠ text "UNSUBSCRIBE"

section Executed

variable {σ α : Type} {env : Env} {host : Handler ServerCall.Answer σ} {conn : Conn σ}

theorem not_subscribed (unsubscribed : conn.isSubscribeMode = false) (channel : Bytes) :
    conn.subscribedChannels.contains channel = false := by
  have empty : conn.subscribedChannels.isEmpty = true := by simpa [Conn.isSubscribeMode] using
    unsubscribed
  rw [Std.ExtTreeSet.isEmpty_iff.mp empty]
  exact Std.ExtTreeSet.contains_empty

/-- Without subscriptions, a call that does not need the connection only uses the service. -/
theorem attached_eq {request : ServerCall} (needless : request.Detachable)
    (unsubscribed : conn.isSubscribeMode = false) :
    attached env host request conn =
      ((serving env host request conn.service).1,
        { conn with service := (serving env host request conn.service).2 }) := by
  cases request with
  | subscribeChannel channel => exact needless.elim
  | unsubscribeChannel channel => exact needless.elim
  | unsubscribeAllChannels => exact needless.elim
  | publishMessage channel payload => simp [attached, not_subscribed unsubscribed channel]
  | _ => rfl

theorem run_attached {program : Serving α} (needless : program.Makes ServerCall.Detachable)
    (unsubscribed : conn.isSubscribeMode = false) :
    program.run (attached env host) conn =
      ((program.run (serving env host) conn.service).1,
        { conn with service := (program.run (serving env host) conn.service).2 }) := by
  induction program generalizing conn with
  | pure value => rfl
  | query request next ih =>
    rw [Program.run, attached_eq needless.1 unsubscribed, Program.run]
    exact ih _ (needless.2 _) unsubscribed

/-- A call other than a reply looks at no reply. -/
theorem serving_sent {request : ServerCall} (quiet : ∀ data, request ≠ .writeResp data)
    (service : Service σ) (sent : List Bytes) :
    serving env host request { service with sent := sent } =
      ((serving env host request service).1,
        { (serving env host request service).2 with sent := sent }) := by
  cases request with
  | writeResp data => exact absurd rfl (quiet data)
  | _ => rfl

theorem detached_eq {request : ServerCall} (needless : request.Detachable)
    (quiet : ∀ data, request ≠ .writeResp data) (out : Bytes) :
    detached env host request (conn, out) =
      some ((attached env host request conn).1, (attached env host request conn).2, out) := by
  cases request with
  | subscribeChannel channel => exact needless.elim
  | unsubscribeChannel channel => exact needless.elim
  | unsubscribeAllChannels => exact needless.elim
  | writeResp data => exact absurd rfl (quiet data)
  | _ => rfl

/-- **Without the connection** the same is done, and the replies are collected. -/
theorem attempt_detached {program : Serving α} (needless : program.Makes ServerCall.Detachable)
    (unsubscribed : conn.isSubscribeMode = false) (pieces : List Bytes) :
    program.attempt (detached env host) (conn, pieces.flatten) =
      some ((program.run (serving env host) { conn.service with sent := pieces }).1,
        { conn with service :=
          { (program.run (serving env host) { conn.service with sent := pieces }).2 with
            sent := conn.service.sent } },
        (program.run (serving env host) { conn.service with sent := pieces }).2.sent.flatten) := by
  induction program generalizing conn pieces with
  | pure value => rfl
  | query request next ih =>
    by_cases writes : ∃ data, request = .writeResp data
    · obtain ⟨data, rfl⟩ := writes
      have later := ih () (needless.2 ()) unsubscribed (pieces ++ [data])
      rw [List.flatten_append, List.flatten_singleton] at later
      exact later
    · have quiet : ∀ data, request ≠ .writeResp data := fun data same => writes ⟨data, same⟩
      have unsaid : (serving env host request conn.service).2.sent = conn.service.sent :=
        sent_serving quiet conn.service
      rw [Program.attempt, detached_eq needless.1 quiet, attached_eq needless.1 unsubscribed,
        Program.run, serving_sent quiet conn.service pieces, ← unsaid]
      have still : ({ conn with service := (serving env host request conn.service).2 } :
        Conn σ).isSubscribeMode = false := unsubscribed
      exact ih _ (needless.2 _) still pieces

variable (env host) in
/-- What a program does, and what it adds to the replies, does not depend on the replies sent
before. -/
theorem run_sent (program : Serving α) (service : Service σ) :
    ∃ (value : α) (final : Service σ) (added : List Bytes), ∀ sent,
      program.run (serving env host) { service with sent := sent } =
        (value, { final with sent := sent ++ added }) := by
  induction program generalizing service with
  | pure value => exact ⟨value, service, [], fun sent => by rw [List.append_nil]; rfl⟩
  | query request next ih =>
    by_cases writes : ∃ data, request = .writeResp data
    · obtain ⟨data, rfl⟩ := writes
      obtain ⟨value, final, added, same⟩ := ih () service
      refine ⟨value, final, data :: added, fun sent => ?_⟩
      rw [List.append_cons]
      exact same (sent ++ [data])
    · have quiet : ∀ data, request ≠ .writeResp data := fun data same => writes ⟨data, same⟩
      obtain ⟨value, final, added, same⟩ :=
        ih (serving env host request service).1 (serving env host request service).2
      refine ⟨value, final, added, fun sent => ?_⟩
      rw [Program.run, serving_sent quiet]
      exact same sent

variable (env host) in
/-- **A command that does not need the connection does the same with and without it**: it adds one
reply, the reply that is collected without the connection. -/
theorem executed {command : QueuedCommand} (unattached : command.Unattached)
    (service : Service σ) :
    ∃ (done : Service σ) (reply : Bytes), service.issued ⊆ done.issued ∧
      (∀ (conn : Conn σ) (sent : List Bytes), conn.isSubscribeMode = false →
        conn.service = { service with sent := sent } →
          dispatchArrayCommand env host command conn =
              { conn with service := { done with sent := sent ++ [reply] } } ∧
            executeArrayCommandToResp env host command conn =
              some (reply, { conn with service := { done with sent := sent } })) ∧
        (command.cmdArray.length < 2 ^ 63 → HostFits host →
          (∀ call ∈ done.issued, call.Fits) → IsReply reply) := by
  have once : Once (command.cmdArray.length < 2 ^ 63)
      (dispatchArrayCommandsLookup command.cmdName command.cmdArray) :=
    once_dispatch unattached.1 unattached.2
  obtain ⟨took, final, added, same⟩ := run_sent env host
    (dispatchArrayCommandsLookup command.cmdName command.cmdArray) service
  have told := once.run env host { service with sent := [] }
  rw [same []] at told
  have kept : service.issued ⊆ final.issued := by
    intro call member
    have stays : call ∈ ((dispatchArrayCommandsLookup command.cmdName command.cmdArray).run
        (serving env host) { service with sent := [] }).2.issued := mem_issued_run _ member
    rwa [same []] at stays
  have direct (conn : Conn σ) (sent : List Bytes) (unsubscribed : conn.isSubscribeMode = false)
      (serves : conn.service = { service with sent := sent }) :
      (dispatchArrayCommandsLookup command.cmdName command.cmdArray).run (attached env host) conn =
        (took, { conn with service := { final with sent := sent ++ added } }) := by
    rw [run_attached once.makes unsubscribed, serves, same sent]
  have collected (conn : Conn σ) (sent : List Bytes) (unsubscribed : conn.isSubscribeMode = false)
      (serves : conn.service = { service with sent := sent }) :
      (dispatchArrayCommandsLookup command.cmdName command.cmdArray).attempt (detached env host)
        (conn, []) =
        some (took, { conn with service := { final with sent := sent } }, added.flatten) := by
    have ran : (dispatchArrayCommandsLookup command.cmdName command.cmdArray).attempt
        (detached env host) (conn, ([] : List Bytes).flatten) = _ :=
      attempt_detached once.makes unsubscribed []
    rw [serves, List.flatten_nil] at ran
    rw [ran, same []]
    rfl
  rcases told with ⟨refused, nothing⟩ | ⟨took, data, one, valid⟩
  · obtain rfl : took = false := refused
    obtain rfl : added = [] := nothing
    refine ⟨final, serializeError (text "ERR unknown command"), kept,
      fun conn sent unsub serves => ?_,
      fun _ _ _ => isReply_error (by decide)⟩
    rw [dispatchArrayCommand, executeArrayCommandToResp, direct conn sent unsub serves,
      collected conn sent unsub serves, List.append_nil]
    exact ⟨rfl, rfl⟩
  · obtain rfl : _ = true := took
    obtain rfl : added = [data] := one
    refine ⟨final, data, kept, fun conn sent unsub serves => ?_, valid⟩
    rw [dispatchArrayCommand, executeArrayCommandToResp, direct conn sent unsub serves,
      collected conn sent unsub serves, List.flatten_singleton]
    exact ⟨rfl, rfl⟩

variable (env host) in
/-- **The loop of `EXEC` does what the handlers do one after the other**, and collects the replies
that they would send. -/
theorem execQueued_eq (queue : List QueuedCommand)
    (unattached : ∀ command ∈ queue, command.Unattached) (service : Service σ) :
    ∃ (done : Service σ) (replies : List Bytes), replies.length = queue.length ∧
      service.issued ⊆ done.issued ∧
      (∀ (conn : Conn σ) (sent : List Bytes), conn.isSubscribeMode = false →
        conn.service = { service with sent := sent } →
          queue.foldl (fun conn command => dispatchArrayCommand env host command conn) conn =
              { conn with service := { done with sent := sent ++ replies } } ∧
            ∀ out, execQueued env host queue out conn =
              some (out ++ replies.flatten, { conn with service := { done with sent := sent } })) ∧
        ((∀ command ∈ queue, command.cmdArray.length < 2 ^ 63) → HostFits host →
          (∀ call ∈ done.issued, call.Fits) → ∀ reply ∈ replies, IsReply reply) := by
  induction queue generalizing service with
  | nil =>
    refine ⟨service, [], rfl, List.Subset.refl _, fun conn sent _ serves => ?_, nofun⟩
    have same : ({ conn with service := { service with sent := sent } } : Conn σ) = conn := by
      rw [← serves]
    rw [List.append_nil, same]
    exact ⟨rfl, fun out => by rw [List.flatten_nil, List.append_nil]; rfl⟩
  | cons command queue ih =>
    obtain ⟨first, others⟩ := List.forall_mem_cons.mp unattached
    obtain ⟨middle, reply, kept, step, valid⟩ := executed env host first service
    obtain ⟨done, replies, length, later, run, validLater⟩ := ih others middle
    refine ⟨done, reply :: replies, by rw [List.length_cons, length, List.length_cons],
      List.Subset.trans kept later, fun conn sent unsubscribed serves => ?_,
      fun short honest fits => ?_⟩
    · obtain ⟨dispatched, collected⟩ := step conn sent unsubscribed serves
      have direct := (run { conn with service := { middle with sent := sent ++ [reply] } }
        (sent ++ [reply]) unsubscribed rfl).1
      have gathered := (run { conn with service := { middle with sent := sent } } sent
        unsubscribed rfl).2
      refine ⟨?_, fun out => ?_⟩
      · rw [List.foldl_cons, dispatched, direct, List.append_cons sent reply replies]
      · rw [execQueued, collected, Option.bind_some, gathered, List.flatten_cons, List.append_assoc]
    · obtain ⟨shortFirst, shortLater⟩ := List.forall_mem_cons.mp short
      refine List.forall_mem_cons.mpr ⟨?_, validLater shortLater honest fits⟩
      exact valid shortFirst honest fun call member => fits call (later member)

end Executed

end SunKV.Server
