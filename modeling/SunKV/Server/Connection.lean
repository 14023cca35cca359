/-
**A connection and its messages.**

`onMessage` is what the server does with a chunk of bytes that arrived on a connection: append it
to the pending input, call the parser on what is unread until that is used up, hand every value to
`processCommand`, and give back the memory of what has been read. `processCommand` is not looked
into; it is an event here, as are the calls of the parser and the error replies.

* `parsePending_hangs` — the loop over the pending input fails to return only where a call of the
  parser does.
* `onMessages` — the chunks of a connection, one after the other.
-/

import SunKV.Protocol.Call

namespace SunKV.Server

open SunKV.Lib SunKV.Protocol

/-! ### The message callback -/

/-- `struct ConnParseState` without the fields of `processCommand`; whether the connection was
closed, and how many bytes have been erased from the front of the pending input. -/
structure Connection where
  pendingInput : Bytes := []
  pendingOffset : Nat := 0
  parser : RespParser := {}
  closed : Bool := false
  erased : Nat := 0

/-- How a call of the parser ends. -/
inductive Outcome
  | complete
  | incomplete
  | error
  | exception
  deriving DecidableEq

/-- What happens on a connection: a call of the parser on the bytes from a position of the stream
on, with the number of bytes it took; a value handed to `processCommand`; an error sent to the
client. -/
inductive Event
  | parsed (position count : Nat) (outcome : Outcome)
  | handed (value : RespValue)
  | replied (message : Bytes)

namespace Connection

variable (conn : Connection)

/-- The bytes from the pending offset on. -/
def unread : Bytes := conn.pendingInput.drop conn.pendingOffset

/-- `pendingReadableBytes`. -/
def pendingReadableBytes : Nat := conn.pendingInput.length - conn.pendingOffset

/-- The position of the pending offset in the stream. -/
def position : Nat := conn.erased + conn.pendingOffset

/-- The call of the parser, as an event. -/
def call (last : RespParser) (outcome : Outcome) : Event :=
  .parsed conn.position (last.processedBytes - conn.parser.processedBytes) outcome

end Connection

/-- How the loop over the pending input is left: at its end, or out of the function. -/
inductive Exit
  | ended
  | returned
  deriving DecidableEq

/-- **The loop over the pending input**, `none` when a call of the parser does not return. An
exception of the parser leaves the function by its handler. A value is never null, so the branch
for a call that completed without one is not reached. -/
def parsePending : Nat → Connection → Option (Exit × Connection × List Event)
  | 0, _ => none
  | fuel + 1, conn =>
    if conn.pendingOffset < conn.pendingInput.length then
      let before := conn.parser.processedBytes
      match conn.parser.parse conn.unread with
      | none => none
      | some (.error message, parser) =>
        some (.returned, { conn with parser := parser },
          [conn.call parser .error, .replied (text "Invalid RESP format: " ++ message)])
      | some (.thrown, parser) =>
        some (.returned, { conn with parser := parser },
          [conn.call parser .exception, .replied (text "Internal server error")])
      | some (.success value processed, parser) =>
        (parsePending fuel
          { conn with
            pendingOffset := conn.pendingOffset + (processed - before)
            parser := parser.reset }).map
          fun (exit, last, events) =>
            (exit, last, conn.call parser .complete :: .handed value :: events)
      | some (.incomplete processed, parser) =>
        some (.ended,
          { conn with
            pendingOffset := conn.pendingOffset + (processed - before)
            parser := parser },
          [conn.call parser .incomplete])
    else some (.ended, conn, [])

/-- `kCompactMinBytes`. -/
def kCompactMinBytes : Nat := 4 * 1024

/-- The compaction of the pending input. -/
def Connection.compact (conn : Connection) : Connection :=
  if conn.pendingInput.length ≤ conn.pendingOffset then
    { conn with
      pendingInput := [], pendingOffset := 0, erased := conn.erased + conn.pendingInput.length }
  else if kCompactMinBytes ≤ conn.pendingOffset ∧
      conn.pendingInput.length ≤ conn.pendingOffset * 2 then
    { conn with
      pendingInput := conn.unread, pendingOffset := 0, erased := conn.erased + conn.pendingOffset }
  else conn

/-- `kMaxConnInbufBytes`, from `max_conn_input_buffer_mb`. -/
def kMaxConnInbufBytes (megabytes : Int32) : Nat := (max 1 megabytes.toInt).toNat * 1024 * 1024

/-- The defence against too much pending input: the client is told, and the connection closed. -/
def Connection.overflow (conn : Connection) : Connection × List Event :=
  ({ conn with closed := true }, [.replied (text "Input buffer overflow")])

/-- **`Server::onMessage`.** No message arrives on a closed connection. -/
def onMessage (megabytes : Int32) (conn : Connection) (chunk : Bytes) :
    Option (Connection × List Event) :=
  if conn.closed then some (conn, [])
  else
    let conn := { conn with pendingInput := conn.pendingInput ++ chunk }
    if kMaxConnInbufBytes megabytes < conn.pendingReadableBytes then some conn.overflow
    else
      match parsePending (conn.pendingReadableBytes + 1) conn with
      | none => none
      | some (.returned, conn, events) => some (conn, events)
      | some (.ended, conn, events) =>
        let conn := conn.compact
        if kMaxConnInbufBytes megabytes < conn.pendingReadableBytes then
          some (conn.overflow.1, events ++ conn.overflow.2)
        else some (conn, events)

/-- The chunks of a connection, one after the other. -/
def onMessages (megabytes : Int32) : List Bytes → Connection → Option (Connection × List Event)
  | [], conn => some (conn, [])
  | chunk :: chunks, conn =>
    (onMessage megabytes conn chunk).bind fun (next, events) =>
      (onMessages megabytes chunks next).map fun (last, later) => (last, events ++ later)

/-- The values handed to `processCommand`. -/
def handed (events : List Event) : List RespValue :=
  events.filterMap fun
    | .handed value => some value
    | _ => none

/-! ### The loop over the pending input -/

/-- The connection with `count` more bytes read, and this parser. -/
def Connection.move (conn : Connection) (count : Nat) (parser : RespParser) : Connection :=
  { conn with pendingOffset := conn.pendingOffset + count, parser := parser }

/-- **What the loop does**, call by call. -/
inductive Drains : Connection → Exit → Connection → List Event → Prop
  | nothing {conn : Connection} (read : conn.unread = []) : Drains conn .ended conn []
  | value {conn last : Connection} {exit : Exit} {events : List Event} {value : RespValue}
      {parser : RespParser} {taken rest : Bytes} (whole : conn.unread = taken ++ rest)
      (some : taken ≠ [])
      (returns : Returns RespParser.step conn.parser conn.unread
        (.halted (.success value) parser rest))
      (onward : Drains (conn.move taken.length {}) exit last events) :
      Drains conn exit last
        (.parsed conn.position taken.length .complete :: .handed value :: events)
  | incomplete {conn : Connection} {parser : RespParser} (some : conn.unread ≠ [])
      (returns : Returns RespParser.step conn.parser conn.unread (.dry parser)) :
      Drains conn .ended (conn.move conn.unread.length parser)
        [.parsed conn.position conn.unread.length .incomplete]
  | error {conn : Connection} {parser : RespParser} {message taken rest : Bytes}
      (some : conn.unread ≠ []) (whole : conn.unread = taken ++ rest)
      (returns : Returns RespParser.step conn.parser conn.unread
        (.halted (.error message) parser rest))
      (refuses : taken = [] → parser = conn.parser ∧ conn.parser.Refuses conn.unread) :
      Drains conn .returned { conn with parser := parser }
        [.parsed conn.position taken.length .error,
          .replied (text "Invalid RESP format: " ++ message)]
  | exception {conn : Connection} {parser : RespParser} {count : Nat} {rest : Bytes}
      (some : conn.unread ≠ [])
      (returns : Returns RespParser.step conn.parser conn.unread (.halted .thrown parser rest)) :
      Drains conn .returned { conn with parser := parser }
        [.parsed conn.position count .exception, .replied (text "Internal server error")]

/-- A call of the parser that the loop makes does not return. -/
inductive Hangs : Connection → Prop
  | here {conn : Connection} (some : conn.unread ≠ [])
      (never : conn.parser.parse conn.unread = none) : Hangs conn
  | later {conn : Connection} {value : RespValue} {processed : Nat} {parser : RespParser}
      (some : conn.unread ≠ [])
      (called : conn.parser.parse conn.unread = Option.some (.success value processed, parser))
      (hangs : Hangs (conn.move (processed - conn.parser.processedBytes) {})) : Hangs conn

section Loop

variable {conn : Connection}

theorem unread_ne_nil_iff : conn.unread ≠ [] ↔ conn.pendingOffset < conn.pendingInput.length := by
  rw [Connection.unread, Ne, List.drop_eq_nil_iff, Nat.not_le]

theorem unread_length : conn.unread.length = conn.pendingReadableBytes := List.length_drop

/-- Moving the offset moves the unread bytes. -/
theorem unread_move (conn : Connection) (count : Nat) (parser : RespParser) :
    (conn.move count parser).unread = conn.unread.drop count :=
  List.drop_drop.symm

/-- **The loop does what `Drains` lists.** -/
theorem parsePending_drains {fuel : Nat} {exit : Exit} {last : Connection} {events : List Event}
    (ran : parsePending fuel conn = some (exit, last, events)) : Drains conn exit last events := by
  induction fuel generalizing conn events with
  | zero => cases ran
  | succ fuel ih =>
    rw [parsePending] at ran
    split at ran
    case isFalse done =>
      cases ran
      exact .nothing (not_not.mp (mt unread_ne_nil_iff.mp done))
    case isTrue more =>
      have some := unread_ne_nil_iff.mpr more
      dsimp only at ran
      cases called : conn.parser.parse conn.unread with
      | none =>
        rw [called] at ran
        cases ran
      | some out =>
        obtain ⟨result, parser⟩ := out
        rw [called] at ran
        have call := parse_call some called
        cases call with
        | success whole taken counted returns =>
          obtain ⟨⟨exit', last', later⟩, next, same⟩ := Option.map_eq_some_iff.mp ran
          cases same
          rw [counted, Nat.add_sub_cancel_left] at next
          rw [Connection.call, counted, Nat.add_sub_cancel_left]
          exact .value whole taken returns (ih next)
        | incomplete counted returns =>
          cases ran
          rw [Connection.call, counted, Nat.add_sub_cancel_left]
          exact .incomplete some returns
        | error whole counted returns refuses =>
          cases ran
          rw [Connection.call, counted, Nat.add_sub_cancel_left]
          exact .error some whole returns refuses
        | thrown returns =>
          cases ran
          exact .exception some returns

/-- **The loop fails to return only in a call of the parser.** -/
theorem parsePending_hangs {fuel : Nat} (enough : conn.unread.length < fuel)
    (never : parsePending fuel conn = none) : Hangs conn := by
  induction fuel generalizing conn with
  | zero => omega
  | succ fuel ih =>
    rw [parsePending] at never
    split at never
    case isFalse => cases never
    case isTrue more =>
      have some := unread_ne_nil_iff.mpr more
      dsimp only at never
      cases called : conn.parser.parse conn.unread with
      | none => exact .here some called
      | some out =>
        obtain ⟨result, parser⟩ := out
        rw [called] at never
        have call := parse_call some called
        cases call with
        | success whole taken counted returns =>
          refine .later some called (ih ?_ (Option.map_eq_none_iff.mp never))
          have pos := List.length_pos_iff.mpr taken
          have total := congrArg List.length whole
          rw [List.length_append] at total
          rw [unread_move, counted, Nat.add_sub_cancel_left, List.length_drop]
          omega
        | incomplete => cases never
        | error => cases never
        | thrown => cases never

/-- A loop that ended has read everything. -/
theorem Drains.unread_eq_nil {last : Connection} {events : List Event}
    (drains : Drains conn .ended last events) : last.unread = [] := by
  generalize ended : Exit.ended = exit at drains
  induction drains with
  | nothing read => exact read
  | value _ _ _ _ ih => exact ih ended
  | incomplete => rw [unread_move, List.drop_length]
  | error => cases ended
  | exception => cases ended

end Loop

/-! ### Messages -/

/-- The connection with a chunk appended to its pending input. -/
def Connection.receive (conn : Connection) (chunk : Bytes) : Connection :=
  { conn with pendingInput := conn.pendingInput ++ chunk }

/-- The connection with its pending input given back. -/
def Connection.emptied (conn : Connection) : Connection :=
  { conn with
    pendingInput := [], pendingOffset := 0, erased := conn.erased + conn.pendingInput.length }

/-- **What a message does**: nothing on a closed connection, nothing but closing it when too much is
pending, or the loop. After a loop that ended nothing is pending any more. -/
inductive Handles (megabytes : Int32) (conn : Connection) (chunk : Bytes) :
    Connection → List Event → Prop
  | closed (closed : conn.closed = true) : Handles megabytes conn chunk conn []
  | flooded (opened : conn.closed = false)
      (much : kMaxConnInbufBytes megabytes < (conn.receive chunk).pendingReadableBytes) :
      Handles megabytes conn chunk { conn.receive chunk with closed := true }
        [.replied (text "Input buffer overflow")]
  | failed {last : Connection} {events : List Event} (opened : conn.closed = false)
      (within : (conn.receive chunk).pendingReadableBytes ≤ kMaxConnInbufBytes megabytes)
      (drains : Drains (conn.receive chunk) .returned last events) :
      Handles megabytes conn chunk last events
  | read {last : Connection} {events : List Event} (opened : conn.closed = false)
      (within : (conn.receive chunk).pendingReadableBytes ≤ kMaxConnInbufBytes megabytes)
      (drains : Drains (conn.receive chunk) .ended last events) :
      Handles megabytes conn chunk last.emptied events

section Message

variable {megabytes : Int32} {conn next : Connection} {chunk : Bytes} {events : List Event}

theorem compact_of_unread (read : conn.unread = []) : conn.compact = conn.emptied := by
  have all : conn.pendingInput.length ≤ conn.pendingOffset := List.drop_eq_nil_iff.mp read
  rw [Connection.compact, if_pos all, Connection.emptied]

theorem emptied_readable : conn.emptied.pendingReadableBytes = 0 := rfl

theorem onMessage_handles (ran : onMessage megabytes conn chunk = some (next, events)) :
    Handles megabytes conn chunk next events := by
  rw [onMessage] at ran
  split at ran
  case isTrue closed =>
    cases ran
    exact .closed closed
  case isFalse opened =>
    have opened : conn.closed = false := Bool.eq_false_iff.mpr opened
    dsimp only at ran
    split at ran
    case isTrue much =>
      cases ran
      exact .flooded opened much
    case isFalse few =>
      have within := Nat.not_lt.mp few
      split at ran
      case h_1 => cases ran
      case h_2 drained =>
        cases ran
        exact .failed opened within (parsePending_drains drained)
      case h_3 drained =>
        have drains := parsePending_drains drained
        rw [compact_of_unread drains.unread_eq_nil, emptied_readable,
          if_neg (Nat.not_lt_zero _)] at ran
        cases ran
        exact .read opened within drains

/-- **A message fails to return only in a call of the parser.** -/
theorem onMessage_hangs (never : onMessage megabytes conn chunk = none) :
    conn.closed = false ∧ Hangs (conn.receive chunk) := by
  rw [onMessage] at never
  split at never
  case isTrue => cases never
  case isFalse opened =>
    refine ⟨Bool.eq_false_iff.mpr opened, ?_⟩
    dsimp only at never
    split at never
    case isTrue => cases never
    case isFalse =>
      split at never
      case h_1 hangs =>
        refine parsePending_hangs ?_ hangs
        rw [← unread_length]
        exact Nat.lt_succ_self _
      case h_2 => cases never
      case h_3 => split at never <;> cases never

/-- The first message of a run, and the others. -/
theorem onMessages_cons {chunks : List Bytes} {last : Connection}
    (ran : onMessages megabytes (chunk :: chunks) conn = some (last, events)) :
    ∃ next first later, onMessage megabytes conn chunk = some (next, first) ∧
      onMessages megabytes chunks next = some (last, later) ∧ events = first ++ later := by
  obtain ⟨⟨next, first⟩, message, rest⟩ := Option.bind_eq_some_iff.mp ran
  obtain ⟨⟨last', later⟩, onward, same⟩ := Option.map_eq_some_iff.mp rest
  cases same
  exact ⟨next, first, later, message, onward, rfl⟩

end Message

end SunKV.Server
