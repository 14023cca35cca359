/-
**Transactions are deferred sequential execution.**

Between an accepted `MULTI` and the next `EXEC` or `DISCARD` the commands of a connection are only
queued; `EXEC` runs them one after the other and answers with their replies in one array.

* `processCommands_inside` — inside a transaction nothing happens but the queueing.
* `processCommands_ordinary` — outside, commands run through their handlers one after the other.
* `transaction_deferred` — so `EXEC` does what the queued commands would have done directly.
-/

import SunKV.Server.Process

namespace SunKV.Server

open SunKV.Lib SunKV.Protocol SunKV.Storage

/-- Neither a command of subscriptions nor `QUIT`. -/
structure Plain (command : RespValue) : Prop where
  subscribe : ¬ Named "SUBSCRIBE" command
  unsubscribe : ¬ Named "UNSUBSCRIBE" command
  quit : ¬ Named "QUIT" command

/-- Does not end a transaction. -/
structure Staying (command : RespValue) : Prop where
  exec : ¬ Named "EXEC" command
  discard : ¬ Named "DISCARD" command

section Transactions

variable {σ : Type} {env : Env} {host : Handler ServerCall.Answer σ} {command : RespValue}
  {conn : Conn σ}

theorem Plain.unattached {array : QueuedCommand} (plain : Plain command)
    (ordinary : queueable command = some array) : array.Unattached :=
  have read := (queueable_eq_some.mp ordinary).1
  ⟨fun named => plain.subscribe ⟨array, read, named⟩,
    fun named => plain.unsubscribe ⟨array, read, named⟩⟩

/-! ### Inside a transaction -/

/-- **One command inside a transaction**: one reply, and at most one more command queued. -/
theorem processCommand_inside (plain : Plain command) (staying : Staying command)
    (inside : conn.inMulti = true) (unsubscribed : conn.isSubscribeMode = false) :
    ∃ reply, processCommand env host command conn = some { conn with
      queuedCommands := conn.queuedCommands ++ (queueable command).toList
      service := { conn.service with sent := conn.service.sent ++ [reply] } } := by
  generalize result : processCommand env host command conn = after
  have step : Processed env host command conn after := result ▸ processCommand_step
  cases step with
  | refused message _ unqueued =>
    have nothing : queueable command = none :=
      unqueued.resolve_left (by rw [unsubscribed]; exact Bool.false_ne_true)
    refine ⟨serializeError (text message), ?_⟩
    rw [nothing, Option.toList_none, List.append_nil]
    rfl
  | pong other =>
    refine ⟨kSimpleStringPong, ?_⟩
    rw [queueable, other, Option.filter_none, Option.toList_none, List.append_nil]
    rfl
  | quit named => exact absurd named plain.quit
  | multi _ outside => exact absurd (inside.symm.trans outside) (by decide)
  | discard named _ => exact absurd named staying.discard
  | exec named _ _ => exact absurd named staying.exec
  | queued array ordinary _ =>
    refine ⟨text "+QUEUED" ++ crlf, ?_⟩
    rw [ordinary]
    rfl
  | dispatched _ _ outside _ => exact absurd (inside.symm.trans outside) (by decide)

/-- **All commands up to the end of the transaction.** -/
theorem processCommands_inside (body : List RespValue) (plain : ∀ command ∈ body, Plain command)
    (staying : ∀ command ∈ body, Staying command) (inside : conn.inMulti = true)
    (unsubscribed : conn.isSubscribeMode = false) :
    ∃ replies, processCommands env host body conn = some { conn with
      queuedCommands := conn.queuedCommands ++ body.filterMap queueable
      service := { conn.service with sent := conn.service.sent ++ replies } } := by
  induction body generalizing conn with
  | nil => exact ⟨[], by rw [List.filterMap_nil, List.append_nil, List.append_nil]; rfl⟩
  | cons command body ih =>
    obtain ⟨plainFirst, plainLater⟩ := List.forall_mem_cons.mp plain
    obtain ⟨stays, stay⟩ := List.forall_mem_cons.mp staying
    obtain ⟨reply, first⟩ : ∃ reply, processCommand env host command conn = _ :=
      processCommand_inside plainFirst stays inside unsubscribed
    generalize next : ({ conn with
      queuedCommands := conn.queuedCommands ++ (queueable command).toList
      service := { conn.service with sent := conn.service.sent ++ [reply] } } : Conn σ) = middle
      at first
    obtain ⟨replies, later⟩ : ∃ replies, processCommands env host body middle = _ :=
      ih plainLater stay (by rw [← next]; exact inside) (by rw [← next]; exact unsubscribed)
    refine ⟨reply :: replies, ?_⟩
    have queued : (command :: body).filterMap queueable =
        (queueable command).toList ++ body.filterMap queueable := by
      cases found : queueable command with
      | none => rw [List.filterMap_cons_none found, Option.toList_none, List.nil_append]
      | some array => rw [List.filterMap_cons_some found, Option.toList_some, List.singleton_append]
    rw [processCommands, first, Option.bind_some, later, queued, ← next,
      List.append_cons conn.service.sent reply replies, List.append_assoc conn.queuedCommands]

/-! ### Outside a transaction -/

/-- Commands that go to their handlers, one after the other. -/
theorem processCommands_ordinary (commands : List RespValue)
    (ordinary : ∀ command ∈ commands, Plain command ∧ (queueable command).isSome = true)
    (outside : conn.inMulti = false) (unsubscribed : conn.isSubscribeMode = false) :
    processCommands env host commands conn =
      some ((commands.filterMap queueable).foldl
        (fun conn command => dispatchArrayCommand env host command conn) conn) := by
  induction commands generalizing conn with
  | nil => rfl
  | cons command commands ih =>
    obtain ⟨⟨plain, isSome⟩, others⟩ := List.forall_mem_cons.mp ordinary
    obtain ⟨array, found⟩ := Option.isSome_iff_exists.mp isSome
    obtain ⟨done, reply, -, step, -⟩ := executed env host (plain.unattached found) conn.service
    obtain ⟨dispatched, -⟩ := step conn conn.service.sent unsubscribed rfl
    have first : processCommand env host command conn =
        some (dispatchArrayCommand env host array conn) :=
      processCommand_dispatch found outside unsubscribed
    rw [processCommands, first, Option.bind_some, List.filterMap_cons_some found, List.foldl_cons,
      dispatched]
    exact ih others outside unsubscribed

/-! ### The whole connection -/

/-- **A connection without subscriptions**: it has none, and none of its queued commands makes or
ends one. -/
structure Orderly (conn : Conn σ) : Prop where
  unsubscribed : conn.isSubscribeMode = false
  queue : conn.inMulti = true → ∀ command ∈ conn.queuedCommands, command.Unattached

theorem Orderly.send (orderly : Orderly conn) (data : Bytes) : Orderly (conn.send data) :=
  ⟨orderly.unsubscribed, orderly.queue⟩

/-- Commands other than those of subscriptions keep it so, and return. -/
theorem Orderly.processCommand (orderly : Orderly conn) (plain : Plain command) :
    ∃ after, processCommand env host command conn = some after ∧ Orderly after := by
  generalize result : Server.processCommand env host command conn = ended
  have step : Processed env host command conn ended := result ▸ processCommand_step
  cases step with
  | refused message _ _ => exact ⟨_, rfl, orderly.send _⟩
  | pong _ => exact ⟨_, rfl, orderly.send _⟩
  | quit named => exact absurd named plain.quit
  | multi _ _ => exact ⟨_, rfl, orderly.unsubscribed, fun _ => nofun⟩
  | discard _ _ => exact ⟨_, rfl, orderly.unsubscribed, nofun⟩
  | exec _ inside _ =>
    obtain ⟨done, replies, -, -, run, -⟩ :=
      execQueued_eq env host conn.queuedCommands (orderly.queue inside) conn.service
    rw [(run conn conn.service.sent orderly.unsubscribed rfl).2]
    exact ⟨_, rfl, orderly.unsubscribed, nofun⟩
  | queued array ordinary inside =>
    refine ⟨_, rfl, orderly.unsubscribed, fun _ other member => ?_⟩
    rcases List.mem_append.mp member with old | new
    · exact orderly.queue inside other old
    · obtain rfl := List.mem_singleton.mp new
      exact plain.unattached ordinary
  | dispatched array ordinary _ _ =>
    obtain ⟨done, reply, -, step, -⟩ := executed env host
      (plain.unattached ordinary) conn.service
    obtain ⟨dispatched, -⟩ := step conn conn.service.sent orderly.unsubscribed rfl
    rw [dispatched]
    exact ⟨_, rfl, orderly.unsubscribed, orderly.queue⟩

theorem Orderly.processCommands (orderly : Orderly conn) (commands : List RespValue)
    (plain : ∀ command ∈ commands, Plain command) :
    ∃ after, processCommands env host commands conn = some after ∧ Orderly after := by
  induction commands generalizing conn with
  | nil => exact ⟨conn, rfl, orderly⟩
  | cons command commands ih =>
    obtain ⟨first, others⟩ := List.forall_mem_cons.mp plain
    obtain ⟨after, step, next⟩ :
        ∃ after, Server.processCommand env host command conn = some after ∧ Orderly after :=
      orderly.processCommand first
    obtain ⟨last, run, stays⟩ := ih next others
    exact ⟨last, by rw [Server.processCommands, step]; exact run, stays⟩

theorem filterMap_queued (body : List RespValue) :
    (body.filter fun command => (queueable command).isSome).filterMap queueable =
      body.filterMap queueable := by
  rw [List.filterMap_filter]
  refine List.filterMap_congr fun command _ => ?_
  cases queueable command with
  | none => rfl
  | some array => rfl

/-- An accepted `MULTI`, and the commands behind it. -/
theorem processCommands_multi {multi : RespValue} (opens : Named "MULTI" multi)
    (body : List RespValue) (plain : ∀ command ∈ body, Plain command)
    (staying : ∀ command ∈ body, Staying command) (outside : conn.inMulti = false)
    (unsubscribed : conn.isSubscribeMode = false) :
    ∃ replies, processCommands env host (multi :: body) conn = some { conn with
      inMulti := true
      queuedCommands := body.filterMap queueable
      service := { conn.service with sent := conn.service.sent ++ replies } } := by
  have first : processCommand env host multi conn =
      some ({ conn with inMulti := true, queuedCommands := [] }.send kSimpleStringOk) :=
    processCommand_multi opens outside unsubscribed
  generalize next : ({ conn with inMulti := true, queuedCommands := [] } : Conn σ).send
    kSimpleStringOk = opened at first
  obtain ⟨replies, later⟩ : ∃ replies, processCommands env host body opened = _ :=
    processCommands_inside body plain staying (by rw [← next]; rfl)
      (by rw [← next]; exact unsubscribed)
  refine ⟨kSimpleStringOk :: replies, ?_⟩
  rw [processCommands, first, Option.bind_some, later, ← next,
    List.append_cons conn.service.sent kSimpleStringOk replies]
  rfl

end Transactions

/-- The same store and server, and the same operations called on them; the replies may differ. -/
structure Service.Alike {σ : Type} (service other : Service σ) : Prop where
  world : service.world = other.world
  rest : service.rest = other.rest
  issued : service.issued = other.issued

theorem named_commandValue {name : String} {head : Bytes} {args : List Bytes} :
    Named name (commandValue (head :: args)) ↔ head.map toUpper = text name := by
  simp [Named, commandValue, arrayCommand, bulk?]

/-- **Transactions are deferred sequential execution.** -/
theorem transaction_deferred {σ : Type} (env : Env) (host : Handler ServerCall.Answer σ)
    (start : Conn σ) (outside : start.inMulti = false)
    (unsubscribed : start.isSubscribeMode = false) (past : List RespValue)
    (plainPast : ∀ command ∈ past, Plain command) :
    ∃ before, processCommands env host past start = some before ∧
      (before.inMulti = false → ∀ (multi : RespValue) (body : List RespValue),
        Named "MULTI" multi → (∀ command ∈ body, Plain command ∧ Staying command) →
        ∃ inside, processCommands env host (multi :: body) before = some inside ∧
          inside.inMulti = true ∧ inside.service.Alike before.service ∧
          inside.queuedCommands = body.filterMap queueable ∧
          (∀ exec, Named "EXEC" exec → ∃ after direct replies,
            processCommand env host exec inside = some after ∧
            processCommands env host (body.filter fun command => (queueable command).isSome)
              before = some direct ∧
            direct.service.sent = before.service.sent ++ replies ∧
            replies.length = inside.queuedCommands.length ∧
            after.service.sent =
              inside.service.sent ++ [arrayHeader replies.length ++ replies.flatten] ∧
            after.service.Alike direct.service ∧
            after.inMulti = false ∧ after.queuedCommands = []) ∧
          ∀ discard, Named "DISCARD" discard → ∃ after,
            processCommand env host discard inside = some after ∧
            after.service.Alike before.service ∧
            after.service.sent = inside.service.sent ++ [kSimpleStringOk] ∧
            after.inMulti = false ∧ after.queuedCommands = []) := by
  have orderly : Orderly start :=
    ⟨unsubscribed, fun inside => absurd (inside.symm.trans outside) (by decide)⟩
  obtain ⟨before, reached, tidy⟩ :
      ∃ before, processCommands env host past start = some before ∧ Orderly before :=
    orderly.processCommands past plainPast
  refine ⟨before, reached, fun idle multi body opens calm => ?_⟩
  have plain : ∀ command ∈ body, Plain command := fun command member => (calm command member).1
  obtain ⟨replies, queued⟩ : ∃ replies, processCommands env host (multi :: body) before = _ :=
    processCommands_multi opens body plain (fun command member => (calm command member).2) idle
      tidy.unsubscribed
  let inside : Conn σ := { before with
    inMulti := true
    queuedCommands := body.filterMap queueable
    service := { before.service with sent := before.service.sent ++ replies } }
  refine ⟨inside, queued, rfl, ⟨rfl, rfl, rfl⟩, rfl, fun exec executes => ?_,
    fun discard drops => ?_⟩
  · have unattached : ∀ array ∈ body.filterMap queueable, array.Unattached := by
      intro array member
      obtain ⟨command, inside, found⟩ := List.mem_filterMap.mp member
      exact (plain command inside).unattached found
    obtain ⟨done, answers, length, -, run, -⟩ :=
      execQueued_eq env host (body.filterMap queueable) unattached before.service
    have directly : processCommands env host
        (body.filter fun command => (queueable command).isSome) before = _ :=
      processCommands_ordinary _ (fun command member =>
        ⟨plain command (List.mem_of_mem_filter member), (List.mem_filter.mp member).2⟩) idle
        tidy.unsubscribed
    rw [filterMap_queued, (run before before.service.sent tidy.unsubscribed rfl).1] at directly
    have executed : processCommand env host exec inside = _ :=
      processCommand_exec executes rfl tidy.unsubscribed
    rw [(run inside _ tidy.unsubscribed rfl).2] at executed
    refine ⟨_, _, answers, executed, directly, rfl, length, ?_, ⟨rfl, rfl, rfl⟩, rfl, rfl⟩
    rw [length]
    rfl
  · exact ⟨_, processCommand_discard drops rfl tidy.unsubscribed, ⟨rfl, rfl, rfl⟩, rfl, rfl, rfl⟩

/-- `MULTI`, `SET k v`, `GET k`, `EXEC` on a new connection to an empty store. -/
theorem transaction_deferred_set :
    let fresh : Conn Unit := { service := { world := {}, rest := () } }
    let body := [commandValue [text "set", [107], [118]], commandValue [text "get", [107]]]
    ∃ inside after direct,
      processCommands (Env.still 0) idleHost (commandValue [text "multi"] :: body) fresh =
        some inside ∧ inside.queuedCommands.length = 2 ∧
      processCommand (Env.still 0) idleHost (commandValue [text "exec"]) inside = some after ∧
      processCommands (Env.still 0) idleHost body fresh = some direct ∧
      after.service.Alike direct.service := by
  intro fresh body
  have plain : ∀ command ∈ body, Plain command ∧ Staying command := by
    refine List.forall_mem_cons.mpr ⟨⟨⟨?_, ?_, ?_⟩, ?_, ?_⟩,
      List.forall_mem_singleton.mpr ⟨⟨?_, ?_, ?_⟩, ?_, ?_⟩⟩ <;>
    · rw [named_commandValue]
      decide
  obtain ⟨before, reached, rest⟩ :=
    transaction_deferred (Env.still 0) idleHost fresh rfl rfl [] nofun
  obtain rfl : fresh = before := Option.some.inj reached
  obtain ⟨inside, opened, -, -, queued, executes, -⟩ :=
    rest rfl (commandValue [text "multi"]) body (named_commandValue.mpr (by decide)) plain
  obtain ⟨after, direct, replies, executed, directly, -, -, -, alike, -, -⟩ :=
    executes (commandValue [text "exec"]) (named_commandValue.mpr (by decide))
  exact ⟨inside, after, direct, opened, by rw [queued]; rfl, executed, directly, alike⟩

end SunKV.Server
