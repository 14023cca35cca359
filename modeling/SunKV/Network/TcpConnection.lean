/-
**The output of a connection.**

A message is appended to the output buffer while writes are coalesced, written together with what
the buffer holds when it holds something, and written directly otherwise. The kernel takes as much
as it likes; the rest waits in the buffer for the next write event. A buffer that grows beyond the
high water mark closes the connection.

* `Sound` — the invariant: the bytes the kernel took, followed by the buffer, are what was sent, and
  a buffer that is not empty has asked for write events.
* `sound_step` — **every event keeps it**, unless it closes the connection; `closed_step` — a closed
  connection stays closed.
* `output_kept` — no byte is lost, duplicated or reordered, along every run.
-/

import SunKV.Network.Buffer

namespace SunKV.Network

open SunKV.Lib

/-! ### The socket and the channel -/

/-- `enum class TcpConnectionState`. -/
inductive TcpConnectionState
  | kConnecting
  | kConnected
  | kDisconnecting
  | kDisconnected
  deriving DecidableEq

/-- The states in which `forceClose` and `forceCloseInLoop` do something. -/
def TcpConnectionState.closable (state : TcpConnectionState) : Bool :=
  state = .kConnected ∨ state = .kDisconnecting

/-- The two bits of `Channel::events_` that a connection uses. -/
structure Channel where
  reading : Bool
  writing : Bool

/-- The errors of a write that are told apart: `EWOULDBLOCK` and `EAGAIN`, `EPIPE` and `ECONNRESET`,
and the others. -/
inductive Errno
  | again
  | broken
  | other
  deriving DecidableEq

/-- What a write returns. -/
inductive Answer
  | accepted (count : Nat)
  | failed (errno : Errno)

/-- What `::write` and `::writev` answer when they are offered these bytes. -/
abbrev Socket := Bytes → Answer

/-- A socket that takes all it is offered. -/
def Socket.writable : Socket := fun offered => .accepted offered.length

/-! ### The connection -/

/-- What a connection hands to `queueInLoop`. -/
inductive LoopTask
  | writeComplete
  | forceCloseInLoop
  deriving DecidableEq

/-- `class TcpConnection`, as far as its output goes: `written` is what the kernel has accepted,
`shut` that the socket was shut down for writing, `queued` the tasks handed to the loop, and
`closeCallbacks` how often `closeCallback_` has run. -/
structure TcpConnection where
  state : TcpConnectionState
  channel : Channel := { reading := true, writing := false }
  outputBuffer : Buffer := Buffer.new kInitialSize
  writeCoalescing : Bool := false
  written : Bytes := []
  shut : Bool := false
  queued : List LoopTask := []
  closeCallbacks : Nat := 0

/-- `kHighWaterMarkBytes_`. -/
def kHighWaterMarkBytes : Nat := 8 * 1024 * 1024

namespace TcpConnection

variable (conn : TcpConnection)

/-- `channel_->enableWriting()`. -/
def enableWriting : TcpConnection := { conn with channel.writing := true }

/-- `loop_->queueInLoop`. -/
def queueInLoop (task : LoopTask) : TcpConnection := { conn with queued := conn.queued ++ [task] }

/-- `handleClose`. -/
def handleClose : TcpConnection :=
  { conn with
    state := .kDisconnected
    channel := { reading := false, writing := false }
    closeCallbacks := conn.closeCallbacks + 1 }

/-- `forceCloseInLoop`. -/
def forceCloseInLoop : TcpConnection := if conn.state.closable then conn.handleClose else conn

/-- `forceClose`. -/
def forceClose : TcpConnection :=
  if conn.state.closable then
    { conn with state := .kDisconnecting }.queueInLoop .forceCloseInLoop
  else conn

/-- `shutdownInLoop`. -/
def shutdownInLoop : TcpConnection :=
  if conn.channel.writing then conn else { conn with shut := true }

/-- `shutdown` on the loop thread. -/
def shutdown : TcpConnection :=
  if conn.state = .kConnected then { conn with state := .kDisconnecting }.shutdownInLoop else conn

/-- `enforceOutputBackpressure_`. -/
def enforceOutputBackpressure : TcpConnection :=
  if conn.outputBuffer.readableBytes ≤ kHighWaterMarkBytes then conn else conn.forceCloseInLoop

/-- What follows wherever bytes are left to a later write event. -/
def appendOutput (data : Bytes) : TcpConnection :=
  { conn with
    outputBuffer := conn.outputBuffer.append data }.enableWriting.enforceOutputBackpressure

/-- What follows when the output buffer has been written out. -/
def drained : TcpConnection :=
  let done := { conn with channel.writing := false }.queueInLoop .writeComplete
  if done.state = .kDisconnecting then done.shutdownInLoop else done

/-- The path of `sendInLoop` behind bytes that wait in the buffer: both go into one `writev`. -/
def sendBehind (socket : Socket) (data : Bytes) : TcpConnection :=
  match socket (conn.outputBuffer.content ++ data) with
  | .failed .broken => conn
  | .failed _ => conn.appendOutput data
  | .accepted 0 => conn.appendOutput data
  | .accepted n =>
    let bufLen := conn.outputBuffer.readableBytes
    let sent :=
      { conn with
        written := conn.written ++ (conn.outputBuffer.content ++ data).take n
        outputBuffer :=
          if n ≤ bufLen then (conn.outputBuffer.retrieve n).append data
          else if n - bufLen < data.length then
            (conn.outputBuffer.retrieve bufLen).append (data.drop (n - bufLen))
          else conn.outputBuffer.retrieve bufLen }
    if sent.outputBuffer.readableBytes = 0 then sent.drained.enforceOutputBackpressure
    else sent.enableWriting.enforceOutputBackpressure

/-- The path of `sendInLoop` for an empty buffer: a `write`, unless a write event is due, and the
rest into the buffer. -/
def sendDirect (socket : Socket) (data : Bytes) : TcpConnection :=
  if !conn.channel.writing ∧ conn.outputBuffer.readableBytes = 0 then
    match socket data with
    | .failed .broken => conn
    | .failed _ => if 0 < data.length then conn.appendOutput data else conn
    | .accepted n =>
      let sent := { conn with written := conn.written ++ data.take n }
      if n < data.length then sent.appendOutput (data.drop n)
      else sent.queueInLoop .writeComplete
  else if 0 < data.length then conn.appendOutput data
  else conn

/-- **`sendInLoop`.** -/
def sendInLoop (socket : Socket) (data : Bytes) : TcpConnection :=
  if conn.state = .kDisconnected then conn
  else if conn.writeCoalescing then
    if 0 < data.length then conn.appendOutput data else conn
  else if 0 < conn.outputBuffer.readableBytes ∧ 0 < data.length then conn.sendBehind socket data
  else conn.sendDirect socket data

/-- `send` on the loop thread. -/
def send (socket : Socket) (data : Bytes) : TcpConnection :=
  if conn.state = .kConnected then conn.sendInLoop socket data else conn

/-- `beginWriteCoalescing` on the loop thread. -/
def beginWriteCoalescing : TcpConnection := { conn with writeCoalescing := true }

/-- `endWriteCoalescing` on the loop thread. -/
def endWriteCoalescing : TcpConnection :=
  let ended := { conn with writeCoalescing := false }
  if ended.state ≠ .kConnected then ended
  else if 0 < ended.outputBuffer.readableBytes ∧ ¬ ended.channel.writing then ended.enableWriting
  else ended

/-- **`handleWrite`.** -/
def handleWrite (socket : Socket) : TcpConnection :=
  if conn.channel.writing then
    match socket conn.outputBuffer.content with
    | .failed _ => conn
    | .accepted 0 => conn
    | .accepted n =>
      let sent :=
        { conn with
          written := conn.written ++ conn.outputBuffer.content.take n
          outputBuffer := conn.outputBuffer.retrieve n }
      if sent.outputBuffer.readableBytes = 0 then sent.drained else sent
  else conn

end TcpConnection

/-! ### Events -/

/-- What happens to a connection on its loop thread; a write comes with the answer of its socket. -/
inductive LoopEvent
  | sendInLoop (socket : Socket) (message : Bytes)
  | beginWriteCoalescing
  | endWriteCoalescing
  | handleWrite (socket : Socket)
  | shutdown
  | forceClose
  | forceCloseInLoop
  | handleClose

/-- What an event does. -/
def TcpConnection.step (conn : TcpConnection) : LoopEvent → TcpConnection
  | .sendInLoop socket message => conn.sendInLoop socket message
  | .beginWriteCoalescing => conn.beginWriteCoalescing
  | .endWriteCoalescing => conn.endWriteCoalescing
  | .handleWrite socket => conn.handleWrite socket
  | .shutdown => conn.shutdown
  | .forceClose => conn.forceClose
  | .forceCloseInLoop => conn.forceCloseInLoop
  | .handleClose => conn.handleClose

/-- The message an event sends. -/
def LoopEvent.message : LoopEvent → Bytes
  | .sendInLoop _ message => message
  | _ => []

/-- A write takes at most what it is offered, and the peer is there. -/
def Socket.Healthy (socket : Socket) : Prop :=
  ∀ offered,
    match socket offered with
    | .accepted count => count ≤ offered.length
    | .failed errno => errno ≠ .broken

/-- The sockets of an event are healthy. -/
def LoopEvent.Healthy : LoopEvent → Prop
  | .sendInLoop socket _ => socket.Healthy
  | .handleWrite socket => socket.Healthy
  | _ => True

/-! ### No byte is lost -/

/-- **The invariant of the output**: what was sent is what the kernel took followed by the buffer,
and a buffer with something in it waits for a write event. -/
structure Sound (sent : Bytes) (conn : TcpConnection) : Prop where
  whole : conn.written ++ conn.outputBuffer.content = sent
  interest : conn.outputBuffer.content ≠ [] → conn.channel.writing = true

/-- The invariant holds, unless the connection is closed. -/
def SoundIfOpen (sent : Bytes) (conn : TcpConnection) : Prop :=
  conn.state ≠ .kDisconnected → Sound sent conn

section Output

variable {conn : TcpConnection} {sent data : Bytes} {socket : Socket}

theorem readable_eq_zero (buf : Buffer) : buf.readableBytes = 0 ↔ buf.content = [] := by
  rw [← buf.length_content, List.length_eq_zero_iff]

theorem Sound.enforce (sound : Sound sent conn) :
    SoundIfOpen sent conn.enforceOutputBackpressure := by
  intro opened
  unfold TcpConnection.enforceOutputBackpressure at opened ⊢
  split
  case isTrue => exact sound
  case isFalse much =>
    rw [if_neg much] at opened
    unfold TcpConnection.forceCloseInLoop at opened ⊢
    split
    case isTrue closable =>
      rw [if_pos closable] at opened
      exact absurd rfl opened
    case isFalse => exact sound

/-- **Bytes left to a write event**: they are in the buffer, and the event is asked for. -/
theorem sound_appendOutput (whole : conn.written ++ conn.outputBuffer.content = sent)
    (data : Bytes) : SoundIfOpen (sent ++ data) (conn.appendOutput data) := by
  refine Sound.enforce ⟨?_, fun _ => rfl⟩
  show conn.written ++ (conn.outputBuffer.append data).content = sent ++ data
  rw [Buffer.content_append, ← List.append_assoc, whole]

theorem drained_fields (conn : TcpConnection) :
    conn.drained.written = conn.written ∧ conn.drained.outputBuffer = conn.outputBuffer ∧
      conn.drained.state = conn.state := by
  unfold TcpConnection.drained TcpConnection.shutdownInLoop
  dsimp only
  split
  · split <;> exact ⟨rfl, rfl, rfl⟩
  · exact ⟨rfl, rfl, rfl⟩

theorem sound_drained (whole : conn.written ++ conn.outputBuffer.content = sent)
    (empty : conn.outputBuffer.content = []) : Sound sent conn.drained := by
  obtain ⟨written, buffer, -⟩ := drained_fields conn
  refine ⟨?_, ?_⟩
  · rw [written, buffer]
    exact whole
  · rw [buffer]
    exact absurd empty

/-- The buffer after a `writev` that took `n` bytes holds the others. -/
theorem content_writev (buf : Buffer) (data : Bytes) (n : Nat) :
    (if n ≤ buf.readableBytes then (buf.retrieve n).append data
      else if n - buf.readableBytes < data.length then
        (buf.retrieve buf.readableBytes).append (data.drop (n - buf.readableBytes))
      else buf.retrieve buf.readableBytes).content = (buf.content ++ data).drop n := by
  have count := buf.length_content
  have emptied : (buf.retrieve buf.readableBytes).content = [] := by
    rw [buf.content_retrieve (Nat.le_refl _), ← count, List.drop_length]
  split
  case isTrue within =>
    rw [Buffer.content_append, buf.content_retrieve within,
      List.drop_append_of_le_length (count ▸ within)]
  case isFalse beyond =>
    have skipped : (buf.content ++ data).drop n = data.drop (n - buf.readableBytes) := by
      rw [List.drop_append, count, List.drop_of_length_le (by omega), List.nil_append]
    rw [skipped]
    split
    case isTrue => rw [Buffer.content_append, emptied, List.nil_append]
    case isFalse all => rw [emptied, List.drop_of_length_le (Nat.not_lt.mp all)]

theorem sound_sendBehind (healthy : socket.Healthy) (sound : Sound sent conn) :
    SoundIfOpen (sent ++ data) (conn.sendBehind socket data) := by
  have answer := healthy (conn.outputBuffer.content ++ data)
  unfold TcpConnection.sendBehind
  split
  case h_1 broken =>
    rw [broken] at answer
    exact absurd rfl answer
  case h_2 => exact sound_appendOutput sound.whole data
  case h_3 => exact sound_appendOutput sound.whole data
  case h_4 n _ _ =>
    dsimp only
    have left := content_writev conn.outputBuffer data n
    generalize (if n ≤ conn.outputBuffer.readableBytes then
        (conn.outputBuffer.retrieve n).append data
      else if n - conn.outputBuffer.readableBytes < data.length then
        (conn.outputBuffer.retrieve conn.outputBuffer.readableBytes).append
          (data.drop (n - conn.outputBuffer.readableBytes))
      else conn.outputBuffer.retrieve conn.outputBuffer.readableBytes) = buffer at left ⊢
    have whole : conn.written ++ (conn.outputBuffer.content ++ data).take n ++ buffer.content =
        sent ++ data := by
      rw [left, List.append_assoc, List.take_append_drop, ← List.append_assoc, sound.whole]
    split
    case isTrue zero => exact (sound_drained whole ((readable_eq_zero buffer).mp zero)).enforce
    case isFalse => exact Sound.enforce ⟨whole, fun _ => rfl⟩

theorem sound_sendDirect (healthy : socket.Healthy) (sound : Sound sent conn) :
    SoundIfOpen (sent ++ data) (conn.sendDirect socket data) := by
  have unsent : ¬ 0 < data.length → Sound (sent ++ data) conn := by
    intro none
    rw [List.length_eq_zero_iff.mp (Nat.eq_zero_of_not_pos none), List.append_nil]
    exact sound
  unfold TcpConnection.sendDirect
  split
  case isTrue idle =>
    have empty := (readable_eq_zero conn.outputBuffer).mp idle.2
    have written : conn.written = sent := by
      rw [← sound.whole, empty, List.append_nil]
    have answer := healthy data
    split
    case h_1 broken =>
      rw [broken] at answer
      exact absurd rfl answer
    case h_2 =>
      split
      case isTrue => exact sound_appendOutput sound.whole data
      case isFalse none => exact fun _ => unsent none
    case h_3 n taken =>
      dsimp only
      split
      case isTrue =>
        have whole : conn.written ++ data.take n ++ conn.outputBuffer.content =
            sent ++ data.take n := by
          rw [empty, List.append_nil, written]
        have split : sent ++ data = sent ++ data.take n ++ data.drop n := by
          rw [List.append_assoc, List.take_append_drop]
        rw [split]
        exact sound_appendOutput whole (data.drop n)
      case isFalse all =>
        refine fun _ => ⟨?_, absurd empty⟩
        show conn.written ++ data.take n ++ conn.outputBuffer.content = sent ++ data
        rw [empty, List.append_nil, written, List.take_of_length_le (Nat.not_lt.mp all)]
  case isFalse =>
    split
    case isTrue => exact sound_appendOutput sound.whole data
    case isFalse none => exact fun _ => unsent none

theorem sound_sendInLoop (healthy : socket.Healthy) (sound : Sound sent conn) :
    SoundIfOpen (sent ++ data) (conn.sendInLoop socket data) := by
  unfold TcpConnection.sendInLoop
  split
  case isTrue closed => exact absurd closed
  case isFalse =>
    split
    case isTrue =>
      split
      case isTrue => exact sound_appendOutput sound.whole data
      case isFalse none =>
        rw [List.length_eq_zero_iff.mp (Nat.eq_zero_of_not_pos none), List.append_nil]
        exact fun _ => sound
    case isFalse =>
      split
      case isTrue => exact sound_sendBehind healthy sound
      case isFalse => exact sound_sendDirect healthy sound

theorem sound_endWriteCoalescing (sound : Sound sent conn) :
    Sound sent conn.endWriteCoalescing := by
  unfold TcpConnection.endWriteCoalescing
  dsimp only
  split
  case isTrue => exact ⟨sound.whole, sound.interest⟩
  case isFalse =>
    split
    case isTrue => exact ⟨sound.whole, fun _ => rfl⟩
    case isFalse => exact ⟨sound.whole, sound.interest⟩

theorem sound_handleWrite (healthy : socket.Healthy) (sound : Sound sent conn) :
    Sound sent (conn.handleWrite socket) := by
  have answer := healthy conn.outputBuffer.content
  unfold TcpConnection.handleWrite
  split
  case isFalse => exact sound
  case isTrue writing =>
    split
    case h_1 => exact sound
    case h_2 => exact sound
    case h_3 n _ taken =>
      rw [taken] at answer
      have left : (conn.outputBuffer.retrieve n).content = conn.outputBuffer.content.drop n :=
        conn.outputBuffer.content_retrieve (conn.outputBuffer.length_content ▸ answer)
      have whole : conn.written ++ conn.outputBuffer.content.take n ++
          (conn.outputBuffer.retrieve n).content = sent := by
        rw [left, List.append_assoc, List.take_append_drop, sound.whole]
      dsimp only
      split
      case isTrue zero => exact sound_drained whole ((readable_eq_zero _).mp zero)
      case isFalse => exact ⟨whole, fun _ => writing⟩

theorem sound_shutdownInLoop (sound : Sound sent conn) : Sound sent conn.shutdownInLoop := by
  unfold TcpConnection.shutdownInLoop
  split
  · exact sound
  · exact ⟨sound.whole, sound.interest⟩

/-- **An event keeps the invariant**, unless it closes the connection. -/
theorem sound_step {event : LoopEvent} (healthy : event.Healthy) (sound : Sound sent conn) :
    SoundIfOpen (sent ++ event.message) (conn.step event) := by
  have silent (next : TcpConnection) (sound : SoundIfOpen sent next) :
      SoundIfOpen (sent ++ []) next := by
    rw [List.append_nil]
    exact sound
  cases event with
  | sendInLoop socket message => exact sound_sendInLoop healthy sound
  | beginWriteCoalescing => exact silent _ fun _ => ⟨sound.whole, sound.interest⟩
  | endWriteCoalescing => exact silent _ fun _ => sound_endWriteCoalescing sound
  | handleWrite socket => exact silent _ fun _ => sound_handleWrite healthy sound
  | shutdown =>
    refine silent _ fun _ => ?_
    show Sound sent conn.shutdown
    unfold TcpConnection.shutdown
    split
    · exact sound_shutdownInLoop ⟨sound.whole, sound.interest⟩
    · exact sound
  | forceClose =>
    refine silent _ fun _ => ?_
    show Sound sent conn.forceClose
    unfold TcpConnection.forceClose
    split
    · exact ⟨sound.whole, sound.interest⟩
    · exact sound
  | forceCloseInLoop =>
    refine silent _ ?_
    show SoundIfOpen sent conn.forceCloseInLoop
    unfold TcpConnection.forceCloseInLoop
    split
    · exact fun opened => absurd rfl opened
    · exact fun _ => sound
  | handleClose => exact silent _ fun opened => absurd rfl opened

/-- A closed connection stays closed. -/
theorem closed_step (closed : conn.state = .kDisconnected) (event : LoopEvent) :
    (conn.step event).state = .kDisconnected := by
  have unclosable : conn.state.closable = false := by
    rw [closed]
    rfl
  cases event with
  | sendInLoop socket message =>
    show (conn.sendInLoop socket message).state = _
    rw [TcpConnection.sendInLoop, if_pos closed]
    exact closed
  | beginWriteCoalescing => exact closed
  | endWriteCoalescing =>
    show conn.endWriteCoalescing.state = _
    rw [TcpConnection.endWriteCoalescing, if_pos (by rw [closed]; decide)]
    exact closed
  | handleWrite socket =>
    show (conn.handleWrite socket).state = _
    unfold TcpConnection.handleWrite
    split
    · split
      · exact closed
      · exact closed
      · dsimp only
        split
        · rw [(drained_fields _).2.2]
          exact closed
        · exact closed
    · exact closed
  | shutdown =>
    show conn.shutdown.state = _
    rw [TcpConnection.shutdown, if_neg (by rw [closed]; decide)]
    exact closed
  | forceClose =>
    show conn.forceClose.state = _
    rw [TcpConnection.forceClose, unclosable]
    exact closed
  | forceCloseInLoop =>
    show conn.forceCloseInLoop.state = _
    rw [TcpConnection.forceCloseInLoop, unclosable]
    exact closed
  | handleClose => rfl

/-- **What the events of a run keep.** -/
theorem sound_run (events : List LoopEvent) (healthy : ∀ event ∈ events, event.Healthy)
    (sound : SoundIfOpen sent conn) :
    SoundIfOpen (sent ++ (events.map LoopEvent.message).flatten)
      (events.foldl TcpConnection.step conn) := by
  induction events generalizing conn sent with
  | nil =>
    rw [List.map_nil, List.flatten_nil, List.append_nil]
    exact sound
  | cons event events ih =>
    have next : SoundIfOpen (sent ++ event.message) (conn.step event) := by
      by_cases closed : conn.state = .kDisconnected
      · exact fun opened => absurd (closed_step closed event) opened
      · exact sound_step (healthy event List.mem_cons_self) (sound closed)
    have run := ih (fun event member => healthy event (List.mem_cons_of_mem _ member)) next
    rw [List.append_assoc] at run
    exact run

end Output

/-- **No output byte is lost, duplicated or reordered**, and none is forgotten: whatever happens on
a new connection, as long as it is not closed the bytes the kernel took followed by the buffer are
the messages sent, and a buffer that is not empty waits for a write event. -/
theorem output_kept (state : TcpConnectionState) (events : List LoopEvent)
    (healthy : ∀ event ∈ events, event.Healthy) :
    let last := events.foldl TcpConnection.step { state := state }
    last.state ≠ .kDisconnected →
      last.written ++ last.outputBuffer.content = (events.map LoopEvent.message).flatten ∧
      (last.outputBuffer.content ≠ [] → last.channel.writing = true) := by
  intro last opened
  have start : Sound [] { state := state } := by
    have empty : (Buffer.new kInitialSize).content = [] := Buffer.content_new _
    exact ⟨empty, absurd empty⟩
  have sound := sound_run events healthy (fun _ => start) opened
  exact ⟨sound.whole, sound.interest⟩

/-- A socket that takes at most `count` bytes at a time. -/
def Socket.trickle (count : Nat) : Socket := fun offered => .accepted (min count offered.length)

/-- Four bytes of which the kernel takes one, then three more of which it takes four of the six that
are offered, and a write event that takes none. -/
def partialWrites : List LoopEvent :=
  [.sendInLoop (.trickle 1) [1, 2, 3, 4], .sendInLoop (.trickle 4) [5, 6, 7],
    .handleWrite fun _ => .failed .again]

/-- The two bytes that are left wait for a write event. -/
theorem output_kept_partial :
    (partialWrites.foldl TcpConnection.step { state := .kConnected }).outputBuffer.content =
      [6, 7] ∧
    (partialWrites.foldl TcpConnection.step { state := .kConnected }).written ++
      (partialWrites.foldl TcpConnection.step { state := .kConnected }).outputBuffer.content =
        [1, 2, 3, 4, 5, 6, 7] ∧
    (partialWrites.foldl TcpConnection.step { state := .kConnected }).channel.writing = true := by
  have healthy : ∀ event ∈ partialWrites, event.Healthy := by
    have trickle (count : Nat) : Socket.Healthy (.trickle count) :=
      fun offered => Nat.min_le_right count offered.length
    have later : Socket.Healthy fun _ => .failed .again :=
      fun _ => show Errno.again ≠ .broken by decide
    simp only [partialWrites, List.forall_mem_cons]
    exact ⟨trickle 1, trickle 4, later, nofun⟩
  have opened : (partialWrites.foldl TcpConnection.step { state := .kConnected }).state ≠
      .kDisconnected := by
    decide +kernel
  have left : (partialWrites.foldl TcpConnection.step
      { state := .kConnected }).outputBuffer.content = [6, 7] := by
    decide +kernel
  have kept := output_kept .kConnected partialWrites healthy opened
  exact ⟨left, kept.1, kept.2 (by rw [left]; decide)⟩

end SunKV.Network
