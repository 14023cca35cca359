/-
**The connection that `EXEC` does not have.**

`EXEC` runs its handlers with a null pointer in place of the connection. Those of `SUBSCRIBE` and
`UNSUBSCRIBE` dereference it, unless they refuse their arguments first (`NeedsConnection`); no other
handler does.

* `executeArrayCommandToResp_cases` — one command, with the arguments on which it fails.
* `processCommand_eq_none_iff` — one value handed to the server.
* `connection_kept_iff` — all that a client sends.
-/

import SunKV.Server.Transactions

namespace SunKV.Server

open SunKV.Lib SunKV.Protocol SunKV.Storage

/-- **The commands whose handlers dereference the connection**: `SUBSCRIBE` with a first channel,
and `UNSUBSCRIBE` with one or without arguments. -/
def QueuedCommand.NeedsConnection (command : QueuedCommand) : Prop :=
  (command.cmdName = text "SUBSCRIBE" ∧ (bulkAt command.cmdArray 1).isSome = true) ∨
    (command.cmdName = text "UNSUBSCRIBE" ∧
      (command.cmdArray.length = 1 ∨ (bulkAt command.cmdArray 1).isSome = true))

section Missing

variable {σ : Type} {env : Env} {host : Handler ServerCall.Answer σ} {conn : Conn σ}

variable (env host conn) in
/-- The loop over the channels fails at the first one, if that is a bulk string. -/
theorem attempt_eachChannel {call : Bytes → Serving Nat} (kind : String)
    (cmdArray : List RespValue)
    (fails : ∀ channel, (call channel).attempt (detached env host) (conn, []) = none) :
    ((bulkAt cmdArray 1).isSome = true ∧
        (eachChannel call kind (cmdArray.drop 1)).attempt (detached env host) (conn, []) = none) ∨
      ((bulkAt cmdArray 1).isSome = false ∧ ∃ took,
        (eachChannel call kind (cmdArray.drop 1)).attempt (detached env host) (conn, []) =
          some (took, conn, [])) := by
  have first : bulkAt cmdArray 1 = ((cmdArray.drop 1).head?).bind bulk? := by
    rw [bulkAt, List.head?_drop]
  rw [first]
  cases cmdArray.drop 1 with
  | nil => exact .inr ⟨rfl, true, rfl⟩
  | cons arg args =>
    rw [List.head?_cons, Option.bind_some, eachChannel]
    cases bulk? arg with
    | none => exact .inr ⟨rfl, false, rfl⟩
    | some channel =>
      refine .inl ⟨rfl, ?_⟩
      dsimp only
      rw [Program.attempt_bind, fails channel]
      rfl

variable (env host conn) in
theorem attempt_cmdSubscribe (cmdArray : List RespValue) :
    ((bulkAt cmdArray 1).isSome = true ∧
        (cmdSubscribe cmdArray).attempt (detached env host) (conn, []) = none) ∨
      ((bulkAt cmdArray 1).isSome = false ∧ ∃ took,
        (cmdSubscribe cmdArray).attempt (detached env host) (conn, []) =
          some (took, conn, [])) := by
  unfold cmdSubscribe
  split
  case isTrue short =>
    refine .inr ⟨?_, false, rfl⟩
    rw [bulkAt, List.getElem?_eq_none (by omega)]
    rfl
  case isFalse => exact attempt_eachChannel env host conn _ cmdArray fun _ => rfl

variable (env host conn) in
theorem attempt_cmdUnsubscribe (cmdArray : List RespValue) :
    ((cmdArray.length = 1 ∨ (bulkAt cmdArray 1).isSome = true) ∧
        (cmdUnsubscribe cmdArray).attempt (detached env host) (conn, []) = none) ∨
      (¬ (cmdArray.length = 1 ∨ (bulkAt cmdArray 1).isSome = true) ∧ ∃ took,
        (cmdUnsubscribe cmdArray).attempt (detached env host) (conn, []) =
          some (took, conn, [])) := by
  unfold cmdUnsubscribe
  split
  case isTrue alone => exact .inl ⟨.inl alone, rfl⟩
  case isFalse more =>
    have fails (channel : Bytes) :
        (unsubscribeChannel channel).attempt (detached env host) (conn, []) = none := rfl
    rcases attempt_eachChannel env host conn "unsubscribe" cmdArray fails with
      ⟨channel, fails⟩ | ⟨none, returns⟩
    · exact .inl ⟨.inr channel, fails⟩
    · refine .inr ⟨?_, returns⟩
      rintro (alone | channel)
      · exact more alone
      · rw [none] at channel
        cases channel

variable (env host) in
/-- **One command without a connection**: it dereferences the null pointer, or returns. -/
theorem executeArrayCommandToResp_cases (command : QueuedCommand)
    (unsubscribed : conn.isSubscribeMode = false) :
    (command.NeedsConnection ∧ executeArrayCommandToResp env host command conn = none) ∨
      (¬ command.NeedsConnection ∧ ∃ reply after,
        executeArrayCommandToResp env host command conn = some (reply, after) ∧
          after.isSubscribeMode = false) := by
  by_cases subscribe : command.cmdName = text "SUBSCRIBE"
  · have lookup : dispatchArrayCommandsLookup command.cmdName command.cmdArray =
        cmdSubscribe command.cmdArray := by
      rw [subscribe]
      rfl
    rw [executeArrayCommandToResp, lookup]
    rcases attempt_cmdSubscribe env host conn command.cmdArray with
      ⟨channel, fails⟩ | ⟨nothing, took, returns⟩
    · exact .inl ⟨.inl ⟨subscribe, channel⟩, by rw [fails]; rfl⟩
    · refine .inr ⟨?_, _, conn, by rw [returns]; rfl, unsubscribed⟩
      rintro (⟨-, channel⟩ | ⟨named, -⟩)
      · rw [nothing] at channel
        cases channel
      · exact absurd (subscribe.symm.trans named) (by decide)
  by_cases unsubscribe : command.cmdName = text "UNSUBSCRIBE"
  · have lookup : dispatchArrayCommandsLookup command.cmdName command.cmdArray =
        cmdUnsubscribe command.cmdArray := by
      rw [unsubscribe]
      rfl
    rw [executeArrayCommandToResp, lookup]
    rcases attempt_cmdUnsubscribe env host conn command.cmdArray with
      ⟨channel, fails⟩ | ⟨nothing, took, returns⟩
    · exact .inl ⟨.inr ⟨unsubscribe, channel⟩, by rw [fails]; rfl⟩
    · refine .inr ⟨?_, _, conn, by rw [returns]; rfl, unsubscribed⟩
      rintro (⟨named, -⟩ | ⟨-, channel⟩)
      · exact subscribe named
      · exact nothing channel
  obtain ⟨done, reply, -, step, -⟩ := executed env host ⟨subscribe, unsubscribe⟩ conn.service
  obtain ⟨-, collected⟩ := step conn conn.service.sent unsubscribed rfl
  refine .inr ⟨?_, reply, _, collected, unsubscribed⟩
  rintro (⟨named, -⟩ | ⟨named, -⟩)
  · exact subscribe named
  · exact unsubscribe named

/-- **The loop of `EXEC`.** -/
theorem execQueued_eq_none_iff (queue : List QueuedCommand) (out : Bytes)
    (unsubscribed : conn.isSubscribeMode = false) :
    execQueued env host queue out conn = none ↔ ∃ command ∈ queue, command.NeedsConnection := by
  induction queue generalizing out conn with
  | nil => simp [execQueued]
  | cons command queue ih =>
    rw [execQueued, List.exists_mem_cons_iff]
    rcases executeArrayCommandToResp_cases env host command unsubscribed with
      ⟨needs, fails⟩ | ⟨needless, reply, after, returns, still⟩
    · rw [fails]
      exact iff_of_true rfl (.inl needs)
    · rw [returns, Option.bind_some, ih _ still]
      exact (or_iff_right needless).symm

/-- **The state in which a command dereferences the missing connection.** -/
structure Faulty (command : RespValue) (conn : Conn σ) : Prop where
  exec : Named "EXEC" command
  inside : conn.inMulti = true
  unsubscribed : conn.isSubscribeMode = false
  needs : ∃ queued ∈ conn.queuedCommands, queued.NeedsConnection

/-- One value handed to the server. -/
theorem processCommand_eq_none_iff (command : RespValue) :
    processCommand env host command conn = none ↔ Faulty command conn := by
  constructor
  · intro failed
    have step : Processed env host command conn none := failed ▸ processCommand_step
    generalize ended : none = after at step
    cases step with
    | exec named inside unsubscribed =>
      have fails := Option.map_eq_none_iff.mp ended.symm
      exact ⟨named, inside, unsubscribed, (execQueued_eq_none_iff _ _ unsubscribed).mp fails⟩
    | _ => cases ended
  · intro faulty
    rw [processCommand_exec faulty.exec faulty.inside faulty.unsubscribed,
      (execQueued_eq_none_iff _ _ faulty.unsubscribed).mpr faulty.needs]
    rfl

end Missing

/-- **No handler dereferences the missing connection, exactly when no `EXEC` runs a queue with such
a command.** -/
theorem connection_kept_iff {σ : Type} (env : Env) (host : Handler ServerCall.Answer σ)
    (commands : List RespValue) (start : Conn σ) :
    (∃ after, processCommands env host commands start = some after) ↔
      ∀ past command later conn, commands = past ++ command :: later →
        processCommands env host past start = some conn → ¬ Faulty command conn := by
  induction commands generalizing start with
  | nil =>
    refine iff_of_true ⟨start, rfl⟩ ?_
    rintro past command later conn split
    cases past <;> cases split
  | cons first commands ih =>
    cases step : processCommand env host first start with
    | none =>
      refine iff_of_false ?_ fun calm => ?_
      · rintro ⟨after, ran⟩
        rw [processCommands, step] at ran
        cases ran
      · exact calm [] first commands start rfl rfl ((processCommand_eq_none_iff first).mp step)
    | some next =>
      rw [processCommands, step, Option.bind_some, ih next]
      constructor
      · intro calm past command later conn split reached
        cases past with
        | nil =>
          obtain ⟨rfl, rfl⟩ := List.cons.inj split
          obtain rfl := Option.some.inj reached
          intro faulty
          rw [(processCommand_eq_none_iff first).mpr faulty] at step
          cases step
        | cons head past =>
          obtain ⟨rfl, rest⟩ := List.cons.inj split
          rw [processCommands, step, Option.bind_some] at reached
          exact calm past command later conn rest reached
      · intro calm past command later conn split reached
        refine calm (first :: past) command later conn (by rw [split]; rfl) ?_
        rw [processCommands, step]
        exact reached

/-- `MULTI`, `SUBSCRIBE c`, `EXEC` on a new connection dereferences the null pointer. -/
theorem exec_subscribe :
    processCommands (Env.still 0) idleHost
      [commandValue [text "MULTI"], commandValue [text "SUBSCRIBE", [99]],
        commandValue [text "EXEC"]] { service := { world := {}, rest := () } } = none := by
  rfl

end SunKV.Server
