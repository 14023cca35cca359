/-
**`QUIT` in a pipeline.**

A chunk is read in one iteration of the event loop: the replies of its commands are coalesced in the
output buffer, to be written at the next write event, and after the channels the loop runs the tasks
that were queued. `QUIT` queues the one that closes the connection. So the connection is closed
before any reply is written, its own among them; and the commands behind `QUIT` are executed as if
it were not there, for the loop over the pending input does not stop at it.

* `Coalesced` — while writes are coalesced the kernel is given nothing.
* `Leaving` — once `QUIT` was executed the connection is closed, or about to be.
* `iteration_quit` — what one iteration does with a stream that holds a `QUIT`.
* `quit_never_clean` — for no stream does `QUIT` end the pipeline cleanly.
-/

import SunKV.Network.TcpConnection
import SunKV.Server.Framing
import SunKV.Server.OneReply

namespace SunKV.Server

open SunKV.Lib SunKV.Protocol SunKV.Storage SunKV.Network

/-! ### An iteration of the event loop -/

/-- A connection with what the server and the network keep of it, and the commands executed. -/
structure Session (σ : Type) where
  input : Connection
  conn : Conn σ
  tcp : TcpConnection
  executed : List RespValue := []

/-- The connection before a command that has not sent anything yet. -/
def Conn.quiet {σ : Type} (conn : Conn σ) : Conn σ :=
  { conn with service := { conn.service with sent := [] }, forceClosed := false }

/-- A task of the event loop. -/
def runTask (tcp : TcpConnection) : LoopTask → TcpConnection
  | .writeComplete => tcp
  | .forceCloseInLoop => tcp.forceCloseInLoop

/-- `doPendingTasks`. -/
def doPendingTasks (tcp : TcpConnection) : TcpConnection :=
  tcp.queued.foldl runTask { tcp with queued := [] }

section Iteration

variable {σ : Type} (env : Env) (host : Handler ServerCall.Answer σ) (socket : Socket)

namespace Session

variable (session : Session σ)

/-- `processCommand` on a connection: what it sends goes to `TcpConnection::send`. -/
def process (command : RespValue) : Option (Session σ) :=
  (processCommand env host command session.conn.quiet).map fun done =>
    let tcp := done.service.sent.foldl (fun tcp data => tcp.send socket data) session.tcp
    { session with
      conn := done
      tcp := if done.forceClosed then tcp.forceClose else tcp
      executed := session.executed ++ [command] }

/-- What happens in the loop over the pending input. An exception leaves the scope in which writes
are coalesced before it is answered. -/
def happen (session : Session σ) : Event → Option (Session σ)
  | .handed value => session.process env host socket value
  | .replied message =>
    some { session with tcp := session.tcp.send socket (serializeError message) }
  | .parsed _ _ .exception => some { session with tcp := session.tcp.endWriteCoalescing }
  | .parsed _ _ _ => some session

/-- **`Server::onMessage` on a connection.** Writes are coalesced, except for the reply to too much
pending input. -/
def onMessage (megabytes : Int32) (chunk : Bytes) : Option (Session σ) :=
  (Server.onMessage megabytes session.input chunk).bind fun (input, events) =>
    if kMaxConnInbufBytes megabytes < (session.input.receive chunk).pendingReadableBytes then
      (events.foldlM (happen env host socket) { session with input }).map fun done =>
        { done with tcp := done.tcp.forceClose }
    else
      (events.foldlM (happen env host socket)
        { session with input, tcp := session.tcp.beginWriteCoalescing }).map fun done =>
          let tcp := if input.closed then done.tcp.forceClose else done.tcp
          { done with tcp := tcp.endWriteCoalescing }

/-- **One iteration of `EventLoop::loop`** in which the chunk is read: the channels, and then the
pending tasks. -/
def iteration (megabytes : Int32) (chunk : Bytes) : Option (Session σ) :=
  (session.onMessage env host socket megabytes chunk).map fun done =>
    { done with tcp := doPendingTasks done.tcp }

end Session

end Iteration

/-! ### Coalesced writes -/

/-- Writes are coalesced, and this is what the kernel has been given. -/
structure Coalesced (written : Bytes) (tcp : TcpConnection) : Prop where
  coalescing : tcp.writeCoalescing = true
  written : tcp.written = written
  begun : tcp.state ≠ .kConnecting

/-- The connection is closed, or the task that closes it is queued. -/
def Leaving (tcp : TcpConnection) : Prop :=
  tcp.state = .kDisconnected ∨
    tcp.state = .kDisconnecting ∧ .forceCloseInLoop ∈ tcp.queued

section Coalescing

variable {written : Bytes} {tcp : TcpConnection} {socket : Socket}

theorem Coalesced.handleClose (coalesced : Coalesced written tcp) :
    Coalesced written tcp.handleClose :=
  ⟨coalesced.coalescing, coalesced.written, by simp [TcpConnection.handleClose]⟩

theorem Coalesced.enforce (coalesced : Coalesced written tcp) :
    Coalesced written tcp.enforceOutputBackpressure := by
  unfold TcpConnection.enforceOutputBackpressure TcpConnection.forceCloseInLoop
  split
  · exact coalesced
  · split
    · exact coalesced.handleClose
    · exact coalesced

theorem Coalesced.send (coalesced : Coalesced written tcp) (data : Bytes) :
    Coalesced written (tcp.send socket data) := by
  unfold TcpConnection.send TcpConnection.sendInLoop
  split
  · rw [if_pos coalesced.coalescing]
    split
    · exact coalesced
    · split
      · exact Coalesced.enforce ⟨coalesced.coalescing, coalesced.written, coalesced.begun⟩
      · exact coalesced
  · exact coalesced

theorem Coalesced.sendAll (coalesced : Coalesced written tcp) (messages : List Bytes) :
    Coalesced written (messages.foldl (fun tcp data => tcp.send socket data) tcp) := by
  induction messages generalizing tcp with
  | nil => exact coalesced
  | cons data messages ih => exact ih (coalesced.send data)

theorem Coalesced.forceClose (coalesced : Coalesced written tcp) :
    Coalesced written tcp.forceClose := by
  unfold TcpConnection.forceClose
  split
  · exact ⟨coalesced.coalescing, coalesced.written, by simp [TcpConnection.queueInLoop]⟩
  · exact coalesced

/-- Nothing is sent on a connection that is leaving. -/
theorem Leaving.sendAll (leaving : Leaving tcp) (messages : List Bytes) :
    messages.foldl (fun tcp data => tcp.send socket data) tcp = tcp := by
  have refused (data : Bytes) : tcp.send socket data = tcp := by
    refine if_neg fun connected => ?_
    rcases leaving with closed | ⟨closing, -⟩
    · rw [closed] at connected
      cases connected
    · rw [closing] at connected
      cases connected
  induction messages with
  | nil => rfl
  | cons data messages ih => rw [List.foldl_cons, refused, ih]

/-- `forceClose` makes a connection leave. -/
theorem leaving_forceClose (begun : tcp.state ≠ .kConnecting) : Leaving tcp.forceClose := by
  unfold TcpConnection.forceClose
  split
  case isTrue => exact .inr ⟨rfl, List.mem_append_right _ (List.mem_singleton.mpr rfl)⟩
  case isFalse stays =>
    cases state : tcp.state with
    | kConnecting => exact absurd state begun
    | kConnected => simp [TcpConnectionState.closable, state] at stays
    | kDisconnecting => simp [TcpConnectionState.closable, state] at stays
    | kDisconnected => exact .inl state

theorem endWriteCoalescing_fields (tcp : TcpConnection) :
    tcp.endWriteCoalescing.state = tcp.state ∧ tcp.endWriteCoalescing.queued = tcp.queued ∧
      tcp.endWriteCoalescing.written = tcp.written := by
  unfold TcpConnection.endWriteCoalescing
  dsimp only
  split
  · exact ⟨rfl, rfl, rfl⟩
  · split <;> exact ⟨rfl, rfl, rfl⟩

/-! ### The pending tasks -/

theorem forceCloseInLoop_written (tcp : TcpConnection) :
    tcp.forceCloseInLoop.written = tcp.written := by
  unfold TcpConnection.forceCloseInLoop
  split <;> rfl

theorem tasks_written (tasks : List LoopTask) (tcp : TcpConnection) :
    (tasks.foldl runTask tcp).written = tcp.written := by
  induction tasks generalizing tcp with
  | nil => rfl
  | cons task tasks ih =>
    rw [List.foldl_cons, ih]
    cases task with
    | writeComplete => rfl
    | forceCloseInLoop => exact forceCloseInLoop_written tcp

/-- The tasks of a connection that is leaving close it. -/
theorem tasks_closed (tasks : List LoopTask)
    (leaving : tcp.state = .kDisconnected ∨
      tcp.state = .kDisconnecting ∧ .forceCloseInLoop ∈ tasks) :
    (tasks.foldl runTask tcp).state = .kDisconnected := by
  induction tasks generalizing tcp with
  | nil =>
    rcases leaving with closed | ⟨-, member⟩
    · exact closed
    · cases member
  | cons task tasks ih =>
    rw [List.foldl_cons]
    refine ih ?_
    cases task with
    | writeComplete =>
      rcases leaving with closed | ⟨closing, member⟩
      · exact .inl closed
      · exact .inr ⟨closing, by simpa using member⟩
    | forceCloseInLoop =>
      refine .inl ?_
      show tcp.forceCloseInLoop.state = _
      rcases leaving with closed | ⟨closing, -⟩
      · simp [TcpConnection.forceCloseInLoop, TcpConnectionState.closable, closed]
      · simp [TcpConnection.forceCloseInLoop, TcpConnectionState.closable, closing,
          TcpConnection.handleClose]

theorem doPendingTasks_leaving (leaving : Leaving tcp) :
    (doPendingTasks tcp).state = .kDisconnected ∧ (doPendingTasks tcp).written = tcp.written :=
  ⟨tasks_closed tcp.queued leaving, tasks_written tcp.queued _⟩

end Coalescing

/-! ### The loop over the pending input -/

section Loop

variable {σ : Type} {env : Env} {host : Handler ServerCall.Answer σ} {socket : Socket}
  {written : Bytes}

/-- `QUIT`, in a transaction or in subscribe mode as well. -/
theorem processCommand_quit {command : RespValue} (named : Named "QUIT" command) (conn : Conn σ) :
    processCommand env host command conn =
      some { conn.send kSimpleStringOk with forceClosed := true } := by
  obtain ⟨array, read, name⟩ := named
  have watch : ¬ (text "QUIT" = text "WATCH" ∨ text "QUIT" = text "UNWATCH") := by decide
  have allowed : text "QUIT" ∈ allowedSubscribed := by decide
  simp [processCommand, read, processArrayCommand, name, watch, allowed]

/-- **What the session does with these values** while writes are coalesced. -/
structure Executes (written : Bytes) (session : Session σ) (values : List RespValue)
    (last : Session σ) : Prop where
  executed : last.executed = session.executed ++ values
  coalesced : Coalesced written last.tcp
  leaving : (Leaving session.tcp ∨ ∃ value ∈ values, Named "QUIT" value) → Leaving last.tcp

theorem Executes.trans {first second third : Session σ} {values more : List RespValue}
    (one : Executes written first values second) (two : Executes written second more third) :
    Executes written first (values ++ more) third where
  executed := by rw [two.executed, one.executed, List.append_assoc]
  coalesced := two.coalesced
  leaving := by
    rintro (leaving | ⟨value, member, named⟩)
    · exact two.leaving (.inl (one.leaving (.inl leaving)))
    · rcases List.mem_append.mp member with early | late
      · exact two.leaving (.inl (one.leaving (.inr ⟨value, early, named⟩)))
      · exact two.leaving (.inr ⟨value, late, named⟩)

/-- **One command.** -/
theorem process_executes {session last : Session σ} {command : RespValue}
    (coalesced : Coalesced written session.tcp)
    (ran : session.process env host socket command = some last) :
    Executes written session [command] last := by
  obtain ⟨done, processed, rfl⟩ := Option.map_eq_some_iff.mp ran
  have sent : Coalesced written
      (done.service.sent.foldl (fun tcp data => tcp.send socket data) session.tcp) :=
    coalesced.sendAll done.service.sent
  refine ⟨rfl, ?_, ?_⟩
  · dsimp only
    split
    · exact sent.forceClose
    · exact sent
  · rintro (leaving | ⟨value, member, named⟩)
    · dsimp only
      rw [leaving.sendAll]
      split
      · exact leaving_forceClose coalesced.begun
      · exact leaving
    · obtain rfl := List.mem_singleton.mp member
      rw [processCommand_quit named] at processed
      cases processed
      exact leaving_forceClose sent.begun

/-- **The events of a loop that ends.** -/
theorem happen_executes {session last : Session σ} {events : List Event}
    (smooth : ∀ event ∈ events, event.smooth = true) (coalesced : Coalesced written session.tcp)
    (ran : events.foldlM (Session.happen env host socket) session = some last) :
    Executes written session (handed events) last := by
  induction events generalizing session with
  | nil =>
    obtain rfl := Option.some.inj ran
    exact ⟨(List.append_nil _).symm, coalesced, by simp [handed]⟩
  | cons event events ih =>
    rw [List.foldlM_cons] at ran
    obtain ⟨next, happened, onward⟩ := Option.bind_eq_some_iff.mp ran
    obtain ⟨good, later⟩ := List.forall_mem_cons.mp smooth
    cases event with
    | handed value =>
      have one := process_executes coalesced happened
      exact one.trans (ih later one.coalesced onward)
    | replied => cases good
    | parsed position count outcome =>
      obtain rfl : session = next := by
        cases outcome with
        | complete => exact Option.some.inj happened
        | incomplete => exact Option.some.inj happened
        | error => cases good
        | exception => cases good
      exact ih later coalesced onward

end Loop

/-! ### A stream with a `QUIT` in it -/

section Stream

variable {σ : Type} {env : Env} {host : Handler ServerCall.Answer σ} {socket : Socket}
  {megabytes : Int32} {session last : Session σ} {chunk : Bytes}

/-- Too much input: nothing is executed. -/
theorem iteration_flooded (opened : session.input.closed = false)
    (much : kMaxConnInbufBytes megabytes < (session.input.receive chunk).pendingReadableBytes)
    (ran : session.iteration env host socket megabytes chunk = some last) :
    last.executed = session.executed := by
  obtain ⟨done, message, rfl⟩ := Option.map_eq_some_iff.mp ran
  obtain ⟨⟨input, events⟩, handled, rest⟩ := Option.bind_eq_some_iff.mp message
  dsimp only at rest
  rw [if_pos much] at rest
  obtain ⟨replied, happened, rfl⟩ := Option.map_eq_some_iff.mp rest
  cases onMessage_handles handled with
  | closed closed =>
    rw [opened] at closed
    cases closed
  | flooded =>
    obtain rfl := Option.some.inj happened
    rfl
  | failed _ within => omega
  | read _ within => omega

/-- **Everything is executed, nothing is written, and the connection is closed.** -/
theorem iteration_quit {commands : List (List Bytes)} (filled : ∀ args ∈ commands, args ≠ [])
    (idle : Idle session.input) (fresh : session.input.parser = {})
    (begun : session.tcp.state ≠ .kConnecting)
    (quits : ∃ args ∈ commands, Named "QUIT" (commandValue args))
    (fits : (commands.flatMap encodeRespArrayCommand).length ≤ kMaxConnInbufBytes megabytes)
    (ran : session.iteration env host socket megabytes
      (commands.flatMap encodeRespArrayCommand) = some last) :
    last.executed = session.executed ++ commands.map commandValue ∧
      last.tcp.state = .kDisconnected ∧ last.tcp.written = session.tcp.written := by
  obtain ⟨done, message, rfl⟩ := Option.map_eq_some_iff.mp ran
  obtain ⟨⟨input, events⟩, handled, rest⟩ := Option.bind_eq_some_iff.mp message
  have expects : Expects session.input.parser
      (commands.flatMap encodeRespArrayCommand ++ []) (commands.map commandValue) := by
    rw [fresh, List.append_nil]
    exact expects_stream filled fits
  obtain ⟨left, values, onward, idle', smooth⟩ := onMessage_expects idle fits handled expects
  obtain ⟨rfl, -⟩ := onward.finished
  rw [List.append_nil] at values
  have few : ¬ kMaxConnInbufBytes megabytes <
      (session.input.receive (commands.flatMap encodeRespArrayCommand)).pendingReadableBytes := by
    rw [← unread_length, idle.unread_receive]
    exact Nat.not_lt.mpr fits
  dsimp only at rest
  rw [if_neg few] at rest
  obtain ⟨read, happened, rfl⟩ := Option.map_eq_some_iff.mp rest
  have coalesced : Coalesced session.tcp.written session.tcp.beginWriteCoalescing :=
    ⟨rfl, rfl, begun⟩
  have executes := happen_executes smooth coalesced happened
  rw [← values] at executes
  have leaving : Leaving read.tcp := by
    obtain ⟨args, member, named⟩ := quits
    exact executes.leaving (.inr ⟨commandValue args, List.mem_map_of_mem member, named⟩)
  dsimp only
  rw [idle'.opened, if_neg Bool.false_ne_true]
  obtain ⟨state, queued, written⟩ := endWriteCoalescing_fields read.tcp
  have ended : Leaving read.tcp.endWriteCoalescing := by
    rw [Leaving, state, queued]
    exact leaving
  obtain ⟨gone, kept⟩ := doPendingTasks_leaving ended
  refine ⟨executes.executed, gone, ?_⟩
  rw [kept, written]
  exact executes.coalesced.written

end Stream

/-- **`QUIT` ends the pipeline cleanly**: of the commands of the stream exactly those up to `QUIT`
are executed, and when the connection is closed all their replies have been written. The socket
takes everything it is offered. -/
def QuitsCleanly {σ : Type} (env : Env) (host : Handler ServerCall.Answer σ) (megabytes : Int32)
    (session : Session σ) (before : List (List Bytes)) (quit : List Bytes)
    (after : List (List Bytes)) : Prop :=
  ∃ last done,
    session.iteration env host .writable megabytes
      ((before ++ quit :: after).flatMap encodeRespArrayCommand) = some last ∧
    processCommands env host ((before ++ [quit]).map commandValue) session.conn.quiet =
      some done ∧
    last.executed = (before ++ [quit]).map commandValue ∧
    (last.tcp.state = .kDisconnected →
      last.tcp.written = session.tcp.written ++ done.service.sent.flatten)

theorem processCommands_append {σ : Type} {env : Env} {host : Handler ServerCall.Answer σ}
    (first second : List RespValue) (conn : Conn σ) :
    processCommands env host (first ++ second) conn =
      (processCommands env host first conn).bind (processCommands env host second) := by
  induction first generalizing conn with
  | nil => rfl
  | cons command first ih =>
    rw [List.cons_append, processCommands, processCommands, Option.bind_assoc]
    exact congrArg (Option.bind _) (funext ih)

/-- The replies up to a `QUIT` are not empty. -/
theorem replies_ne_nil {σ : Type} {env : Env} {host : Handler ServerCall.Answer σ}
    {before : List RespValue} {quit : RespValue} (named : Named "QUIT" quit) {conn done : Conn σ}
    (ran : processCommands env host (before ++ [quit]) conn = some done) :
    done.service.sent.flatten ≠ [] := by
  rw [processCommands_append] at ran
  obtain ⟨ready, -, last⟩ := Option.bind_eq_some_iff.mp ran
  rw [processCommands, processCommand_quit named] at last
  obtain rfl := Option.some.inj last
  show (ready.service.sent ++ [kSimpleStringOk]).flatten ≠ []
  rw [List.flatten_append]
  exact List.append_ne_nil_of_right_ne_nil _ (by decide)

/-- **`QUIT` never ends a pipeline cleanly**: whatever stands before and behind it in the stream, in
whatever state the connection is. -/
theorem quit_never_clean {σ : Type} (env : Env) (host : Handler ServerCall.Answer σ)
    (megabytes : Int32) (session : Session σ) (idle : Idle session.input)
    (fresh : session.input.parser = {}) (connected : session.tcp.state = .kConnected)
    (unused : session.executed = []) (before after : List (List Bytes)) (name : Bytes)
    (args : List Bytes) (filled : ∀ args ∈ before ++ after, args ≠ [])
    (named : name.map toUpper = text "QUIT") :
    ¬ QuitsCleanly env host megabytes session before (name :: args) after := by
  rintro ⟨last, done, ran, replies, executed, clean⟩
  have quit : Named "QUIT" (commandValue (name :: args)) := named_commandValue.mpr named
  have each : ∀ command ∈ before ++ (name :: args) :: after, command ≠ [] := by
    intro command member
    rcases List.mem_append.mp member with early | late
    · exact filled command (List.mem_append_left _ early)
    · rcases List.mem_cons.mp late with rfl | behind
      · exact List.cons_ne_nil _ _
      · exact filled command (List.mem_append_right _ behind)
  by_cases fits : ((before ++ (name :: args) :: after).flatMap encodeRespArrayCommand).length ≤
      kMaxConnInbufBytes megabytes
  · obtain ⟨-, closed, written⟩ := iteration_quit each idle fresh (by rw [connected]; decide)
      ⟨_, List.mem_append_right _ List.mem_cons_self, quit⟩ fits ran
    have all := clean closed
    rw [written] at all
    rw [List.map_append] at replies
    exact replies_ne_nil quit replies (List.self_eq_append_right.mp all)
  · have much : kMaxConnInbufBytes megabytes < (session.input.receive
        ((before ++ (name :: args) :: after).flatMap
          encodeRespArrayCommand)).pendingReadableBytes := by
      rw [← unread_length, idle.unread_receive]
      exact Nat.not_le.mp fits
    rw [iteration_flooded idle.opened much ran, unused] at executed
    simp at executed

/-- A new connection to an empty store. -/
def newSession : Session Unit where
  input := {}
  conn := { service := { world := {}, rest := () } }
  tcp := { state := .kConnected }

/-- `PING` before it and nothing behind it: the two replies are lost. -/
theorem quit_never_clean_last :
    ¬ QuitsCleanly (Env.still 0) idleHost 8 newSession [[text "PING"]] [text "quit"] [] :=
  quit_never_clean (Env.still 0) idleHost 8 newSession ⟨rfl, rfl, rfl⟩ rfl rfl rfl
    [[text "PING"]] [] (text "quit") [] (by simp) (by decide)

/-- **`QUIT` and a `SET` behind it**: both are executed, and when the connection is closed nothing
has been written, not even the reply to `QUIT`. -/
theorem quit_unclean :
    (∃ last, newSession.iteration (Env.still 0) idleHost .writable 8
        ([[text "QUIT"], [text "SET", [107], [118]]].flatMap encodeRespArrayCommand) = some last ∧
      last.executed.length = 2 ∧ last.conn.service.issued.length = 1 ∧
      last.tcp.state = .kDisconnected ∧ last.tcp.written = []) ∧
    ¬ QuitsCleanly (Env.still 0) idleHost 8 newSession [] [text "QUIT"]
      [[text "SET", [107], [118]]] := by
  have facts : (newSession.iteration (Env.still 0) idleHost .writable 8
      ([[text "QUIT"], [text "SET", [107], [118]]].flatMap encodeRespArrayCommand)).map
        (fun last => (last.executed.length, last.conn.service.issued.length, last.tcp.state,
          last.tcp.written)) = some (2, 1, .kDisconnected, []) := by
    decide +kernel
  obtain ⟨last, ran, same⟩ := Option.map_eq_some_iff.mp facts
  simp only [Prod.mk.injEq] at same
  refine ⟨⟨last, ran, same⟩, ?_⟩
  rintro ⟨other, done, ran', -, executed, -⟩
  obtain rfl : last = other := Option.some.inj (ran.symm.trans ran')
  rw [executed] at same
  simp at same

end SunKV.Server
