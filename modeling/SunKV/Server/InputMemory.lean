/-
**The memory a connection's input takes.**

What the server keeps of input that has not formed a complete command stands in three places: the
unread bytes of the pending input, the body that the parser is collecting, and the elements of the
arrays that are not complete yet. The limit is checked against the first alone, while the parser
moves bytes from there to the other two.

* `step_potential` — **one iteration of the parser.** A byte of a bulk body stands once in the
  body and, when the element is complete, a second time among the elements, for the body is only
  cleared at the next type character; counted so, an iteration never raises the sum.
* `Drains.retained_le` — **the loop over the pending input.** Its last call of the parser decides.
  When the loop ends the unread bytes are used up. When it is left by an error they stay, although
  the parser has taken them, so that a byte may be kept three times.
* `input_bounded` — the limit is kept in every run in which, at the last call for each message,
  three times the bytes to be read and twice the body leave room for the elements.
* `input_unbounded` — a bulk string whose body arrives in chunks of 64 kilobytes.
-/

import SunKV.Server.Pieces

namespace SunKV.Protocol

open SunKV.Lib

/-! ### What the parser keeps -/

mutual

/-- The bytes of a value: those of its strings, and eight for an `int64_t`. -/
def RespValue.payload : RespValue → Nat
  | .simpleString value => value.length
  | .error message => message.length
  | .integer _ => 8
  | .bulkString value => value.length
  | .nullBulkString => 0
  | .array values => RespValue.payloadAll values
  | .nullArray => 0

/-- The bytes of the elements of an array. -/
def RespValue.payloadAll : List RespValue → Nat
  | [] => 0
  | value :: values => value.payload + RespValue.payloadAll values

end

theorem payloadAll_concat (values : List RespValue) (value : RespValue) :
    RespValue.payloadAll (values ++ [value]) = RespValue.payloadAll values + value.payload := by
  induction values with
  | nil => simp only [List.nil_append, RespValue.payloadAll, Nat.add_zero, Nat.zero_add]
  | cons first values ih =>
    rw [List.cons_append, RespValue.payloadAll, ih, RespValue.payloadAll, Nat.add_assoc]

namespace RespParser

variable (parser : RespParser)

/-- The bytes of the elements in `array_stack_`. -/
def collected : Nat := (parser.arrayStack.map fun ctx => RespValue.payloadAll ctx.elements).sum

/-- What the parser keeps and may still come to keep of the unread bytes. The body counts twice
while it is being read, an integer two bytes before its line is there. -/
def potential (unread : Bytes) : Nat :=
  parser.collected + parser.tempData.length + 2 * unread.length +
    match parser.state with
    | .bulkStringData => parser.tempData.length
    | .integer => 2
    | _ => 0

end RespParser

section Potential

variable {parser : RespParser} {unread rest : Bytes} {bound : Nat}

theorem kept_le_potential (parser : RespParser) (unread : Bytes) :
    parser.collected + parser.tempData.length + 2 * unread.length ≤ parser.potential unread :=
  Nat.le_add_right _ _

/-- Between two values nothing counts twice. -/
theorem potential_of_start (state : parser.state = .start)
    (room : parser.collected + parser.tempData.length + 2 * unread.length ≤ bound) :
    parser.potential unread ≤ bound := by
  rw [RespParser.potential, state]
  exact room

/-- A complete value is at most added to the elements. -/
theorem finish_potential (value : RespValue)
    (room : parser.collected + value.payload + parser.tempData.length + 2 * rest.length ≤ bound) :
    (parser.finish value rest).Leaves fun next rest => next.potential rest ≤ bound := by
  have stack (ctx : ArrayContext) (outer : List ArrayContext)
      (same : parser.arrayStack = ctx :: outer) : parser.collected =
        RespValue.payloadAll ctx.elements +
          (outer.map fun ctx => RespValue.payloadAll ctx.elements).sum := by
    rw [RespParser.collected, same, List.map_cons, List.sum_cons]
  unfold RespParser.finish
  split
  case h_1 =>
    refine potential_of_start rfl ?_
    show parser.collected + parser.tempData.length + 2 * rest.length ≤ bound
    omega
  case h_2 ctx outer same =>
    have whole := stack ctx outer same
    split
    · refine potential_of_start rfl ?_
      show (outer.map fun ctx => RespValue.payloadAll ctx.elements).sum + parser.tempData.length +
        2 * rest.length ≤ bound
      omega
    · refine potential_of_start rfl ?_
      show RespValue.payloadAll (ctx.elements ++ [value]) +
        (outer.map fun ctx => RespValue.payloadAll ctx.elements).sum + parser.tempData.length +
          2 * rest.length ≤ bound
      rw [payloadAll_concat]
      omega

/-- A sub-parser that reads a line has the bytes of the line to spend. -/
theorem withLine_potential {use : Bytes → Bytes → Next}
    (uses : ∀ line rest, unread.length = line.length + 2 + rest.length →
      (use line rest).Leaves fun next rest => next.potential rest ≤ parser.potential unread) :
    (parser.withLine unread use).Leaves
      fun next rest => next.potential rest ≤ parser.potential unread := by
  unfold RespParser.withLine
  split
  case h_1 => exact Nat.le_refl _
  case h_2 line rest split =>
    refine uses line rest ?_
    have total := congrArg List.length (eq_of_splitLine split)
    simpa only [List.length_append, List.length_cons, List.length_nil] using total

/-- The line of a number that is not the sentinel is not empty. -/
theorem withInteger_potential {message : String} {valid : Int → Bool}
    {use : Int → RespParser → Bytes → Next} (sentinel : valid llongMax = false)
    (uses : ∀ size (line : Bytes) rest, line ≠ [] → unread.length = line.length + 2 + rest.length →
      (use size (parser.advance (line.length + 2)) rest).Leaves
        fun next rest => next.potential rest ≤ parser.potential unread) :
    (parser.withInteger unread message valid use).Leaves
      fun next rest => next.potential rest ≤ parser.potential unread := by
  refine withLine_potential fun line rest total => ?_
  split
  case isTrue fine =>
    refine uses _ line rest ?_ total
    rintro rfl
    rw [show parseInteger [] = llongMax from rfl, sentinel] at fine
    cases fine
  case isFalse => exact Nat.le_refl _

theorem parseStart_potential (parser : RespParser) (unread : Bytes) :
    (parser.parseStart unread).Leaves
      fun next rest => next.potential rest ≤ parser.potential unread := by
  have before := kept_le_potential parser unread
  cases unread with
  | nil => exact Nat.le_refl _
  | cons type rest =>
    rw [List.length_cons] at before
    dsimp only [RespParser.parseStart]
    split
    case h_1 state found =>
      -- the two bytes' worth of the type character cover what an integer is given in advance
      have cleared : RespParser.potential
          { parser.advance 1 with state := state, tempData := [] } rest ≤
            parser.collected + 2 * rest.length + 2 := by
        show parser.collected + 0 + 2 * rest.length + _ ≤ _
        cases state <;> simp
      exact Nat.le_trans cleared (by omega)
    case h_2 =>
      show RespParser.potential (parser.advance 1) rest ≤ parser.potential (type :: rest)
      unfold RespParser.potential
      show parser.collected + parser.tempData.length + 2 * rest.length + _ ≤ _
      refine Nat.add_le_add (Nat.add_le_add_left ?_ _) (Nat.le_refl _)
      rw [List.length_cons]
      omega

theorem parseBulkStringData_potential (state : parser.state = .bulkStringData) (unread : Bytes) :
    (parser.parseBulkStringData unread).Leaves
      fun next rest => next.potential rest ≤ parser.potential unread := by
  have before : parser.potential unread =
      parser.collected + parser.tempData.length + 2 * unread.length + parser.tempData.length := by
    rw [RespParser.potential, state]
  have absorbed (taken rest : Bytes) : (parser.absorb taken).potential rest =
      parser.collected + (parser.tempData.length + taken.length) + 2 * rest.length +
        (parser.tempData.length + taken.length) := by
    rw [RespParser.potential, show (parser.absorb taken).state = parser.state from rfl, state,
      ← List.length_append]
    rfl
  unfold RespParser.parseBulkStringData
  split
  case isTrue =>
    show (parser.absorb unread).potential [] ≤ _
    rw [absorbed, before, List.length_nil]
    omega
  case isFalse =>
    have total := congrArg List.length (List.take_append_drop parser.remaining unread)
    rw [List.length_append] at total
    generalize unread.take parser.remaining = taken at total ⊢
    generalize unread.drop parser.remaining = left at total ⊢
    dsimp only
    split
    case h_1 cr lf rest =>
      rw [List.length_cons, List.length_cons] at total
      split
      case isTrue =>
        show (parser.absorb taken).potential _ ≤ _
        rw [absorbed, before, List.length_cons, List.length_cons]
        omega
      case isFalse =>
        refine finish_potential _ ?_
        show parser.collected + (parser.tempData ++ taken).length +
          (parser.tempData ++ taken).length + 2 * rest.length ≤ _
        rw [List.length_append, before]
        omega
    case h_2 =>
      show (parser.absorb taken).potential left ≤ _
      rw [absorbed, before]
      omega

/-- **No iteration raises the potential.** -/
theorem step_potential (parser : RespParser) (unread : Bytes) :
    (parser.step unread).Leaves
      fun next rest => next.potential rest ≤ parser.potential unread := by
  have before := kept_le_potential parser unread
  unfold RespParser.step
  cases state : parser.state with
  | start => exact parseStart_potential parser unread
  | simpleString =>
    refine withLine_potential fun line rest total => finish_potential _ ?_
    show parser.collected + line.length + parser.tempData.length + 2 * rest.length ≤ _
    omega
  | error =>
    refine withLine_potential fun line rest total => finish_potential _ ?_
    show parser.collected + line.length + parser.tempData.length + 2 * rest.length ≤ _
    omega
  | integer =>
    refine withInteger_potential rfl fun value line rest some total => finish_potential _ ?_
    have given : parser.potential unread =
        parser.collected + parser.tempData.length + 2 * unread.length + 2 := by
      rw [RespParser.potential, state]
    have pos := List.length_pos_iff.mpr some
    show parser.collected + 8 + parser.tempData.length + 2 * rest.length ≤ _
    omega
  | bulkStringSize =>
    refine withInteger_potential rfl fun size line rest _ total => ?_
    split
    · refine finish_potential _ ?_
      show parser.collected + 0 + parser.tempData.length + 2 * rest.length ≤ _
      omega
    · show parser.collected + 0 + 2 * rest.length + 0 ≤ _
      omega
  | bulkStringData => exact parseBulkStringData_potential state unread
  | arraySize =>
    refine withInteger_potential rfl fun size line rest _ total => ?_
    have left (next : RespParser) (same : next.state = .arraySize)
        (kept : next.collected = parser.collected) (body : next.tempData = parser.tempData) :
        next.potential rest ≤ parser.potential unread := by
      rw [RespParser.potential, same, kept, body]
      dsimp only
      omega
    split_ifs
    · refine finish_potential _ ?_
      show parser.collected + 0 + parser.tempData.length + 2 * rest.length ≤ _
      omega
    · refine finish_potential _ ?_
      show parser.collected + 0 + parser.tempData.length + 2 * rest.length ≤ _
      omega
    · exact left _ state rfl rfl
    · exact left _ state rfl rfl
    · refine potential_of_start rfl ?_
      show 0 + parser.collected + parser.tempData.length + 2 * rest.length ≤ _
      omega
  | arrayElement => exact potential_of_start rfl before

/-- **No call raises the potential.** -/
theorem returns_potential {ending : Ending RespParser UInt8 Halt}
    (returns : Returns RespParser.step parser unread ending) :
    ending.state.potential ending.unread ≤ parser.potential unread :=
  returns.potential_le step_potential

end Potential

end SunKV.Protocol

namespace SunKV.Server

open SunKV.Lib SunKV.Protocol

/-! ### What the connection keeps -/

/-- **The bytes kept for input that has not formed a complete command**: the unread pending input,
the body the parser is collecting, and the elements collected so far. -/
def Connection.retained (conn : Connection) : Nat :=
  conn.pendingReadableBytes + conn.parser.tempData.length + conn.parser.collected

/-- A call that fails leaves the unread bytes, and what the parser took of them. -/
theorem retained_of_halted {conn : Connection} {parser : RespParser} {outcome : Halt} {rest : Bytes}
    (returns : Returns RespParser.step conn.parser conn.unread (.halted outcome parser rest)) :
    Connection.retained { conn with parser := parser } ≤
      conn.parser.potential conn.unread + conn.unread.length := by
  have kept := kept_le_potential parser rest
  have call : parser.potential rest ≤ conn.parser.potential conn.unread := returns_potential returns
  rw [Connection.retained, ← unread_length]
  show conn.unread.length + parser.tempData.length + parser.collected ≤ _
  omega

/-- The connection when the loop calls the parser for the last time: behind the values that it hands
over before. -/
def Connection.lastCall : Nat → Connection → Connection
  | 0, conn => conn
  | fuel + 1, conn =>
    match conn.parser.parse conn.unread with
    | some (.success _ processed, _) =>
      Connection.lastCall fuel (conn.move (processed - conn.parser.processedBytes) {})
    | _ => conn

/-- What the last call can leave behind: every byte that is there to be read up to three times, and
every byte of the body twice. -/
def Connection.demand (conn : Connection) : Nat :=
  conn.parser.collected + 2 * conn.parser.tempData.length + 3 * conn.unread.length + 2

theorem potential_le_demand (conn : Connection) :
    conn.parser.potential conn.unread + conn.unread.length ≤ conn.demand := by
  unfold RespParser.potential Connection.demand
  split <;> omega

/-- A call that hands over no value is the last one. -/
theorem lastCall_of_returns {conn : Connection} {ending : Ending RespParser UInt8 Halt}
    (some : conn.unread ≠ [])
    (returns : Returns RespParser.step conn.parser conn.unread ending)
    (other : ∀ value parser rest, ending ≠ .halted (.success value) parser rest) (fuel : Nat) :
    conn.lastCall fuel = conn := by
  cases fuel with
  | zero => rfl
  | succ fuel =>
    have called := (parse_eq_some_iff some).mpr ⟨ending, returns, rfl⟩
    rw [Connection.lastCall, called]
    rcases ending with parser | ⟨_ | _ | _, parser, rest⟩
    · rfl
    · exact absurd rfl (other _ _ _)
    · rfl
    · rfl

/-- **What the loop over the pending input leaves behind.** -/
theorem Drains.retained_le {conn last : Connection} {exit : Exit} {events : List Event}
    (drains : Drains conn exit last events) {fuel : Nat} (enough : conn.unread.length < fuel) :
    last.retained ≤ (conn.lastCall fuel).demand := by
  induction drains generalizing fuel with
  | @nothing conn read =>
    have kept := kept_le_potential conn.parser conn.unread
    have demand := potential_le_demand conn
    have here : conn.lastCall fuel = conn := by
      cases fuel with
      | zero => rfl
      | succ fuel =>
        rw [Connection.lastCall, read]
        rfl
    rw [here, Connection.retained, ← unread_length]
    omega
  | @value conn last _ _ _ parser taken rest whole some returns _ ih =>
    have total := congrArg List.length whole
    have pos := List.length_pos_iff.mpr some
    rw [List.length_append] at total
    have more : conn.unread ≠ [] := List.ne_nil_of_length_pos (by omega)
    have called := (parse_eq_some_iff more).mpr ⟨_, returns, rfl⟩
    have counted : parser.processedBytes - conn.parser.processedBytes = taken.length := by
      obtain ⟨taken', split, count⟩ := returns_counts returns
      have same : taken ++ rest = taken' ++ rest := whole.symm.trans split
      rw [List.append_cancel_right same]
      exact Nat.sub_eq_of_eq_add' count
    obtain ⟨fuel, rfl⟩ := Nat.exists_eq_add_one_of_ne_zero (Nat.ne_zero_of_lt enough)
    have onward : conn.lastCall (fuel + 1) = (conn.move taken.length {}).lastCall fuel := by
      rw [Connection.lastCall, called, ← counted]
      rfl
    rw [onward]
    refine ih ?_
    rw [unread_move, List.length_drop]
    omega
  | @incomplete conn parser some returns =>
    have kept := kept_le_potential parser []
    have call : parser.potential [] ≤ conn.parser.potential conn.unread := returns_potential returns
    have demand := potential_le_demand conn
    rw [lastCall_of_returns some returns nofun, Connection.retained, ← unread_length, unread_move,
      List.drop_length, List.length_nil]
    show 0 + parser.tempData.length + parser.collected ≤ _
    omega
  | error some _ returns _ =>
    rw [lastCall_of_returns some returns nofun]
    exact (retained_of_halted returns).trans (potential_le_demand _)
  | exception some returns =>
    rw [lastCall_of_returns some returns nofun]
    exact (retained_of_halted returns).trans (potential_le_demand _)

/-- What a message can leave behind. -/
def Connection.demandOf (conn : Connection) (chunk : Bytes) : Nat :=
  ((conn.receive chunk).lastCall ((conn.receive chunk).unread.length + 1)).demand

/-- **What a message leaves behind** on a connection that stays open. -/
theorem onMessage_retained_le {megabytes : Int32} {conn next : Connection} {chunk : Bytes}
    {events : List Event} (ran : onMessage megabytes conn chunk = some (next, events))
    (opened : next.closed = false) : next.retained ≤ conn.demandOf chunk := by
  cases onMessage_handles ran with
  | closed closed =>
    rw [closed] at opened
    cases opened
  | flooded => cases opened
  | failed _ _ drains => exact drains.retained_le (Nat.lt_succ_self _)
  | @read last _ _ _ drains =>
    have below : last.emptied.retained ≤ last.retained := by
      show 0 + last.parser.tempData.length + last.parser.collected ≤ last.retained
      rw [Connection.retained]
      omega
    exact Nat.le_trans below (drains.retained_le (Nat.lt_succ_self _))

/-! ### Runs -/

/-- **What the run asks of the limit**: at the last call of the parser for each message of an open
connection there is room for the elements, for the body twice, and for the bytes that are left to be
read three times. What has been handed over by then does not count. -/
def Modest (megabytes : Int32) (chunks : List Bytes) : Prop :=
  ∀ done chunk, done ++ [chunk] <+: chunks → ∀ conn events,
    onMessages megabytes done {} = some (conn, events) → conn.closed = false →
      (conn.demandOf chunk : Int) ≤ megabytes.toInt * 2 ^ 20

/-- The last message of a run, and the others. -/
theorem onMessages_concat {megabytes : Int32} {chunks : List Bytes} {chunk : Bytes}
    {conn last : Connection} {events : List Event}
    (ran : onMessages megabytes (chunks ++ [chunk]) conn = some (last, events)) :
    ∃ before earlier later, onMessages megabytes chunks conn = some (before, earlier) ∧
      onMessage megabytes before chunk = some (last, later) := by
  induction chunks generalizing conn events with
  | nil =>
    obtain ⟨next, first, later, message, done, -⟩ := onMessages_cons ran
    cases done
    exact ⟨conn, [], first, rfl, message⟩
  | cons first chunks ih =>
    obtain ⟨next, firsts, later, message, onward, -⟩ := onMessages_cons ran
    obtain ⟨before, earlier, lasts, run, final⟩ := ih onward
    refine ⟨before, firsts ++ earlier, lasts, ?_, final⟩
    rw [onMessages, message, Option.bind_some]
    dsimp only
    rw [run]
    rfl

theorem onMessage_closed {megabytes : Int32} {conn next : Connection} {chunk : Bytes}
    {events : List Event} (ran : onMessage megabytes conn chunk = some (next, events))
    (opened : next.closed = false) : conn.closed = false := by
  cases onMessage_handles ran with
  | closed => exact opened
  | flooded => cases opened
  | failed wasOpen => exact wasOpen
  | read wasOpen => exact wasOpen

/-- **The input memory is bounded in every modest run**: after every message of it that leaves the
connection open, the bytes kept are within the limit. -/
theorem input_bounded (megabytes : Int32) (chunks : List Bytes)
    (modest : Modest megabytes chunks) (done : List Bytes) (chunk : Bytes)
    (reached : done ++ [chunk] <+: chunks) {last : Connection} {events : List Event}
    (ran : onMessages megabytes (done ++ [chunk]) {} = some (last, events))
    (opened : last.closed = false) : (last.retained : Int) ≤ megabytes.toInt * 2 ^ 20 := by
  obtain ⟨before, earlier, later, run, message⟩ := onMessages_concat ran
  have kept := onMessage_retained_le message opened
  have room := modest done chunk reached before earlier run (onMessage_closed message opened)
  exact le_trans (Int.ofNat_le.mpr kept) room

/-- A command and a bulk string whose body is cut: the command goes, two bytes of the body are
kept. -/
theorem input_bounded_cut :
    ∃ last events, onMessages 1 [text "*1\r\n$4\r\nPING\r\n$3\r\n", text "ab"] {} =
        some (last, events) ∧
      last.closed = false ∧ last.retained = 2 ∧
        (last.retained : Int) ≤ (1 : Int32).toInt * 2 ^ 20 := by
  have modest : Modest 1 [text "*1\r\n$4\r\nPING\r\n$3\r\n", text "ab"] := by
    intro done chunk reached conn events ran _
    rcases done with _ | ⟨first, _ | ⟨second, more⟩⟩
    · obtain rfl : chunk = text "*1\r\n$4\r\nPING\r\n$3\r\n" := (List.cons_prefix_cons.mp reached).1
      cases ran
      decide +kernel
    · obtain ⟨rfl, rest⟩ := List.cons_prefix_cons.mp reached
      obtain rfl : chunk = text "ab" := (List.cons_prefix_cons.mp rest).1
      have room : (onMessages 1 [text "*1\r\n$4\r\nPING\r\n$3\r\n"] {}).map
          (fun out => out.1.demandOf (text "ab")) = some 8 := by
        decide +kernel
      rw [ran] at room
      have same : conn.demandOf (text "ab") = 8 := Option.some.inj room
      rw [same]
      decide
    · have short := reached.length_le
      simp at short
  have kept : (onMessages 1 [text "*1\r\n$4\r\nPING\r\n$3\r\n", text "ab"] {}).map
      (fun out => (out.1.closed, out.1.retained)) = some (false, 2) := by
    decide +kernel
  obtain ⟨⟨last, events⟩, ran, same⟩ := Option.map_eq_some_iff.mp kept
  obtain ⟨opened, kept⟩ := Prod.mk.inj same
  exact ⟨last, events, ran, opened, kept, input_bounded 1 _ modest [_] (text "ab")
    (List.prefix_refl _) ran opened⟩

/-! ### A bulk string in pieces -/

/-- **All of a body is kept**, however large it is, as long as it comes in small pieces. -/
theorem bulk_in_pieces (megabytes : Int32) {size : Nat} (fits : size < 2 ^ 62) {pieces : List Bytes}
    (small : ∀ piece ∈ pieces, SmallPiece piece) (room : pieces.flatten.length ≤ size) :
    ∃ last events, onMessages megabytes (sizeLine '$' size :: pieces) {} = some (last, events) ∧
      last.closed = false ∧ last.retained = pieces.flatten.length := by
  have fresh : ({} : RespParser).state = .start := rfl
  obtain ⟨sized, stack, state, empty, whole, header⟩ :=
    returns_bulkSize fresh (fits.trans (by decide))
  have opens : Returns RespParser.step {} (sizeLine '$' size ++ []) (.dry sized) :=
    (header [] (.dry sized)).mpr ⟨1, rfl⟩
  rw [List.append_nil] at opens
  have line := smallPiece_sizeLine '$' fits
  have body := takes_body state (fun piece member => (small piece member).1)
    (fun piece member => (small piece member).fits megabytes) (whole ▸ room)
  obtain ⟨last, events, ran, idle, same⟩ := (takes_chunk line.1 (line.fits megabytes) opens
    (.dry sized)).trans body {} ⟨rfl, rfl, rfl⟩ rfl
  refine ⟨last, events, ran, idle.opened, ?_⟩
  have collected : last.parser.collected = 0 := by
    rw [RespParser.collected, same, show (sized.absorb _).arrayStack = sized.arrayStack from rfl,
      stack]
    rfl
  have temp : last.parser.tempData = pieces.flatten := by
    rw [same]
    show sized.tempData ++ _ = _
    rw [empty, List.nil_append]
  rw [Connection.retained, Connection.pendingReadableBytes, idle.input, idle.offset, collected,
    temp, List.length_nil]
  omega

/-- **A limit of one mebibyte, and more kept**: no chunk is more than the limit allows, and the
parser has taken over each when the next one arrives. -/
theorem input_unbounded :
    ∃ last events, onMessages 1
        (text "$2097152\r\n" :: List.replicate 17 (List.replicate 65536 97)) {} =
          some (last, events) ∧
      last.closed = false ∧ (1 : Int32).toInt * 2 ^ 20 < (last.retained : Int) := by
  have length : (List.replicate 65536 (97 : UInt8)).length = 65536 := List.length_replicate
  have small : ∀ piece ∈ List.replicate 17 (List.replicate 65536 (97 : UInt8)),
      SmallPiece piece := by
    intro piece member
    obtain rfl := List.eq_of_mem_replicate member
    exact ⟨List.ne_nil_of_length_pos (by rw [length]; decide), length.le⟩
  have total : (List.replicate 17 (List.replicate 65536 (97 : UInt8))).flatten.length =
      17 * 65536 := by
    rw [List.length_flatten, List.map_replicate, List.sum_replicate_nat, length]
  obtain ⟨last, events, ran, opened, kept⟩ :=
    bulk_in_pieces 1 (by decide) small (total.trans_le (by decide : 17 * 65536 ≤ 2097152))
  refine ⟨last, events, ran, opened, ?_⟩
  rw [kept, total]
  decide

end SunKV.Server
