/-
**Chunks do not matter.**

The commands of a client arrive as one stream, cut into chunks anywhere. `Expects` says how a
parser stands to the rest of the stream: between two commands it is fresh, inside one it awaits the
rest of it. The loop over a chunk keeps this (`Drains.expects`), hands over the commands that the
chunk completes, and reads the chunk to its end; so does a message (`onMessage_expects`).

`onMessages_stream`, `onMessages_commands` — over all chunks exactly the commands are handed over,
in order, and the connection is left as it began. The only hypothesis on the chunks is that every
call of the parser returns (`onMessage_hangs`: a message fails to return only in such a call).
-/

import SunKV.Protocol.Command
import SunKV.Server.Connection

namespace SunKV.Server

open SunKV.Lib SunKV.Protocol

/-- **The parser expects these values from this stream.** -/
def Expects (parser : RespParser) (stream : Bytes) : List RespValue → Prop
  | [] => parser = {} ∧ stream = []
  | value :: values => ∃ bytes rest,
      stream = bytes ++ rest ∧ Awaits parser bytes value ∧ Expects {} rest values

theorem expects_commands {commands : List (List Bytes)} (filled : ∀ args ∈ commands, args ≠ [])
    (few : ∀ args ∈ commands, args.length < 2 ^ 59)
    (fits : ∀ args ∈ commands, ∀ arg ∈ args, arg.length < 2 ^ 62) :
    Expects {} (commands.flatMap encodeRespArrayCommand) (commands.map commandValue) := by
  induction commands with
  | nil => exact ⟨rfl, rfl⟩
  | cons args commands ih =>
    refine ⟨_, _, rfl, ?_, ih ?_ ?_ ?_⟩
    · exact awaits_command (filled args List.mem_cons_self) (few args List.mem_cons_self)
        (fits args List.mem_cons_self)
    · exact fun args member => filled args (List.mem_cons_of_mem _ member)
    · exact fun args member => few args (List.mem_cons_of_mem _ member)
    · exact fun args member => fits args (List.mem_cons_of_mem _ member)

/-- At the end of the stream nothing is expected any more. -/
theorem Expects.finished {parser : RespParser} {values : List RespValue}
    (expects : Expects parser [] values) : values = [] ∧ parser = {} := by
  cases values with
  | nil => exact ⟨rfl, expects.1⟩
  | cons value values =>
    obtain ⟨bytes, rest, nothing, awaits, -⟩ := expects
    exact absurd (List.append_eq_nil_iff.mp nothing.symm).1 awaits.1

/-- **A call on the next part of the stream** completes the first expected value, or uses the part
up. -/
theorem Expects.call {parser : RespParser} {unread future : Bytes} {values : List RespValue}
    (expects : Expects parser (unread ++ future) values) (some : unread ≠ [])
    {ending : Ending RespParser UInt8 Halt}
    (returns : Returns RespParser.step parser unread ending) :
    (∃ value left last rest, values = value :: left ∧
        ending = .halted (.success value) last rest ∧ Expects {} (rest ++ future) left) ∨
      ∃ last, ending = .dry last ∧ Expects last future values := by
  cases values with
  | nil => exact absurd (List.append_eq_nil_iff.mp expects.2).1 some
  | cons value left =>
    obtain ⟨bytes, rest, stream, awaits, onward⟩ := expects
    rcases List.append_eq_append_iff.mp stream with ⟨back, rfl, rfl⟩ | ⟨beyond, rfl, rfl⟩
    · by_cases complete : back = []
      · subst complete
        obtain ⟨last, whole⟩ := awaits.2 []
        rw [List.append_nil, List.append_nil] at whole
        exact Or.inl ⟨value, left, last, [], rfl, returns.unique whole, onward⟩
      · obtain ⟨last, dry, awaits'⟩ := awaits.resume complete returns
        exact Or.inr ⟨last, dry, back, rest, rfl, awaits', onward⟩
    · obtain ⟨last, whole⟩ := awaits.2 beyond
      exact Or.inl ⟨value, left, last, beyond, rfl, returns.unique whole, onward⟩

@[simp] theorem handed_append (first second : List Event) :
    handed (first ++ second) = handed first ++ handed second :=
  List.filterMap_append

/-- **The loop over a chunk** reads it to its end, hands over what it completes, and leaves the
parser expecting the rest. -/
theorem Drains.expects {conn last : Connection} {exit : Exit} {events : List Event}
    (drains : Drains conn exit last events) {future : Bytes} {values : List RespValue}
    (expects : Expects conn.parser (conn.unread ++ future) values) :
    ∃ left, values = handed events ++ left ∧ Expects last.parser future left ∧
      exit = .ended ∧ last.unread = [] ∧ last.closed = conn.closed := by
  induction drains generalizing values with
  | nothing read =>
    rw [read] at expects
    exact ⟨values, rfl, expects, rfl, read, rfl⟩
  | @value conn _ _ _ _ _ taken rest whole some returns onward ih =>
    have more : conn.unread ≠ [] := by
      rw [whole]
      exact List.append_ne_nil_of_left_ne_nil some _
    rcases expects.call more returns with ⟨_, left, _, _, rfl, same, onwards⟩ | ⟨_, dry, -⟩
    · cases same
      have moved : (conn.move taken.length {}).unread = rest := by
        rw [unread_move, whole, List.drop_left]
      rw [← moved] at onwards
      obtain ⟨left', split, after⟩ := ih onwards
      exact ⟨left', by rw [split]; rfl, after⟩
    · cases dry
  | incomplete some returns =>
    rcases expects.call some returns with ⟨_, _, _, _, -, success, -⟩ | ⟨last, dry, onward⟩
    · cases success
    · cases dry
      refine ⟨values, rfl, onward, rfl, ?_, rfl⟩
      rw [unread_move, List.drop_length]
  | error some whole returns =>
    rcases expects.call some returns with ⟨_, _, _, _, -, success, -⟩ | ⟨_, dry, -⟩
    · cases success
    · cases dry
  | exception some returns =>
    rcases expects.call some returns with ⟨_, _, _, _, -, success, -⟩ | ⟨_, dry, -⟩
    · cases success
    · cases dry

/-- A call of the parser that went well, or a value handed over. -/
def Event.smooth : Event → Bool
  | .handed _ => true
  | .replied _ => false
  | .parsed _ _ outcome => outcome = .complete ∨ outcome = .incomplete

/-- In a loop that ends nothing goes wrong. -/
theorem Drains.smooth {conn last : Connection} {events : List Event}
    (drains : Drains conn .ended last events) : ∀ event ∈ events, event.smooth = true := by
  generalize ended : Exit.ended = exit at drains
  induction drains with
  | nothing => nofun
  | value _ _ _ _ ih =>
    simp only [List.forall_mem_cons]
    exact ⟨rfl, rfl, ih ended⟩
  | incomplete =>
    simp only [List.forall_mem_cons]
    exact ⟨rfl, nofun⟩
  | error => cases ended
  | exception => cases ended

/-- Nothing is pending. -/
structure Idle (conn : Connection) : Prop where
  input : conn.pendingInput = []
  offset : conn.pendingOffset = 0
  opened : conn.closed = false

theorem Idle.unread_receive {conn : Connection} (idle : Idle conn) (chunk : Bytes) :
    (conn.receive chunk).unread = chunk := by
  rw [Connection.unread, Connection.receive, idle.input, idle.offset]
  rfl

/-- **One message.** -/
theorem onMessage_expects {megabytes : Int32} {conn next : Connection} {chunk future : Bytes}
    {events : List Event} {values : List RespValue} (idle : Idle conn)
    (fits : chunk.length ≤ kMaxConnInbufBytes megabytes)
    (ran : onMessage megabytes conn chunk = some (next, events))
    (expects : Expects conn.parser (chunk ++ future) values) :
    ∃ left, values = handed events ++ left ∧ Expects next.parser future left ∧ Idle next ∧
      ∀ event ∈ events, event.smooth = true := by
  have arrived := idle.unread_receive chunk
  rw [← arrived] at expects
  cases onMessage_handles ran with
  | closed closed =>
    rw [idle.opened] at closed
    cases closed
  | flooded _ much =>
    rw [← unread_length, arrived] at much
    omega
  | failed _ _ drains =>
    obtain ⟨_, -, -, impossible, -⟩ := drains.expects expects
    cases impossible
  | read _ _ drains =>
    obtain ⟨left, split, onward, -, -, closed⟩ := drains.expects expects
    exact ⟨left, split, onward, ⟨rfl, rfl, closed.trans idle.opened⟩, drains.smooth⟩

/-- All messages, one after the other. -/
theorem onMessages_expects {megabytes : Int32} {chunks : List Bytes} {conn last : Connection}
    {events : List Event} {values : List RespValue} (idle : Idle conn)
    (fits : ∀ chunk ∈ chunks, chunk.length ≤ kMaxConnInbufBytes megabytes)
    (ran : onMessages megabytes chunks conn = some (last, events))
    (expects : Expects conn.parser chunks.flatten values) :
    handed events = values ∧ (∀ event ∈ events, event.smooth = true) ∧ Idle last ∧
      last.parser = {} := by
  induction chunks generalizing conn events values with
  | nil =>
    cases ran
    obtain ⟨rfl, fresh⟩ := expects.finished
    exact ⟨rfl, nofun, idle, fresh⟩
  | cons chunk chunks ih =>
    obtain ⟨next, first, later, message, onward, rfl⟩ := onMessages_cons ran
    obtain ⟨short, others⟩ := List.forall_mem_cons.mp fits
    obtain ⟨left, rfl, expects', idle', now⟩ := onMessage_expects idle short message expects
    obtain ⟨rfl, after, idle'', fresh⟩ := ih idle' others onward expects'
    exact ⟨handed_append _ _, List.forall_mem_append.mpr ⟨now, after⟩, idle'', fresh⟩

/-! ### Commands -/

theorem kMaxConnInbufBytes_lt (megabytes : Int32) : kMaxConnInbufBytes megabytes < 2 ^ 52 := by
  have bound := megabytes.toInt_lt
  rw [kMaxConnInbufBytes]
  omega

theorem length_lt_encodeBulk (arg : Bytes) : arg.length < (encodeBulk arg).length := by
  simp only [encodeBulk, List.length_append, List.length_singleton]
  omega

/-- A stream holds each of its arguments, and at least a byte for each. -/
theorem command_fits {commands : List (List Bytes)} {args : List Bytes} (member : args ∈ commands) :
    args.length ≤ (commands.flatMap encodeRespArrayCommand).length ∧
      ∀ arg ∈ args, arg.length ≤ (commands.flatMap encodeRespArrayCommand).length := by
  have command := length_le_flatMap encodeRespArrayCommand member
  have elements : (args.flatMap encodeBulk).length ≤ (encodeRespArrayCommand args).length := by
    simp only [encodeRespArrayCommand, List.length_append]
    omega
  have each := length_le_length_flatMap encodeBulk args fun arg _ =>
    Nat.lt_of_le_of_lt (Nat.zero_le _) (length_lt_encodeBulk arg)
  refine ⟨by omega, fun arg inside => ?_⟩
  have element := length_le_flatMap encodeBulk inside
  have larger := length_lt_encodeBulk arg
  omega

/-- A fresh parser expects the commands of a stream within the limit. -/
theorem expects_stream {megabytes : Int32} {commands : List (List Bytes)}
    (filled : ∀ args ∈ commands, args ≠ [])
    (fits : (commands.flatMap encodeRespArrayCommand).length ≤ kMaxConnInbufBytes megabytes) :
    Expects {} (commands.flatMap encodeRespArrayCommand) (commands.map commandValue) := by
  have limit := kMaxConnInbufBytes_lt megabytes
  refine expects_commands filled ?_ ?_
  · intro args member
    have few := (command_fits member).1
    omega
  · intro args member arg inside
    have short := (command_fits member).2 arg inside
    omega

/-- **A stream of commands within the limit, however it is cut**: the commands are handed over,
nothing goes wrong, and nothing is pending at the end. -/
theorem onMessages_stream {megabytes : Int32} {commands : List (List Bytes)} {chunks : List Bytes}
    {input last : Connection} {events : List Event} (filled : ∀ args ∈ commands, args ≠ [])
    (idle : Idle input) (fresh : input.parser = {})
    (stream : chunks.flatten = commands.flatMap encodeRespArrayCommand)
    (fits : chunks.flatten.length ≤ kMaxConnInbufBytes megabytes)
    (ran : onMessages megabytes chunks input = some (last, events)) :
    handed events = commands.map commandValue ∧ (∀ event ∈ events, event.smooth = true) ∧
      Idle last ∧ last.parser = {} := by
  have each : ∀ chunk ∈ chunks, chunk.length ≤ kMaxConnInbufBytes megabytes :=
    fun chunk member => (List.sublist_flatten_of_mem member).length_le.trans fits
  refine onMessages_expects idle each ran ?_
  rw [fresh, stream]
  rw [stream] at fits
  exact expects_stream filled fits

/-- **However the stream of commands is cut into chunks, exactly the commands are handed over**, in
order; at the end nothing is pending and the parser is fresh. -/
theorem onMessages_commands (megabytes : Int32) (commands : List (List Bytes))
    (filled : ∀ args ∈ commands, args ≠ []) (chunks : List Bytes)
    (stream : chunks.flatten = commands.flatMap encodeRespArrayCommand)
    (fits : chunks.flatten.length ≤ kMaxConnInbufBytes megabytes) (last : Connection)
    (events : List Event) (returned : onMessages megabytes chunks {} = some (last, events)) :
    handed events = commands.map (fun args => RespValue.array (args.map .bulkString)) ∧
      last.pendingInput = [] ∧ last.parser = {} := by
  obtain ⟨values, -, idle, fresh⟩ :=
    onMessages_stream filled ⟨rfl, rfl, rfl⟩ rfl stream fits returned
  exact ⟨values, idle.input, fresh⟩

/-- A command whose first argument is a line end and whose second is a type character, cut inside
the first argument. -/
theorem onMessages_commands_cut :
    ∃ last events,
      onMessages 8 [text "*2\r\n$2\r\n\r", text "\n\r\n$1\r\n*\r\n"] {} = some (last, events) ∧
      handed events = [RespValue.array [.bulkString (text "\r\n"), .bulkString (text "*")]] ∧
      last.pendingInput = [] ∧ last.parser = {} := by
  have returns :
      (onMessages 8 [text "*2\r\n$2\r\n\r", text "\n\r\n$1\r\n*\r\n"] {}).isSome = true := by
    decide +kernel
  obtain ⟨⟨last, events⟩, returned⟩ := Option.isSome_iff_exists.mp returns
  exact ⟨last, events, returned, onMessages_commands 8 [[text "\r\n", text "*"]] (by decide) _
    (by decide +kernel) (by decide +kernel) last events returned⟩

end SunKV.Server
