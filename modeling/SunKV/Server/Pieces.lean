/-
**Commands in small pieces.**

A message is what one `readFd` brought, and none brings an unbounded number of bytes. `Takes` says
that a connection with nothing pending takes chunks, one after the other, and what they make of its
parser.

* `takes_body` — the body of a bulk string may be cut anywhere.
* `takes_commands` — **every stream of commands can be delivered in small pieces**: the header lines
  and the line ends in one piece each, for a call of the parser on a part of them does not return,
  and the bodies byte by byte.
-/

import SunKV.Server.Framing

namespace SunKV.Server

open SunKV.Lib SunKV.Protocol

/-! ### Chunks that are used up -/

/-- What the loop over the pending input makes of a call that used up its data: the parser goes on
from there, or is fresh behind a value. -/
inductive Leaves : Ending RespParser UInt8 Halt → RespParser → Prop
  | dry (parser : RespParser) : Leaves (.dry parser) parser
  | value (value : RespValue) (parser : RespParser) :
      Leaves (.halted (.success value) parser []) {}

section Chunks

variable {megabytes : Int32} {conn last : Connection} {ending : Ending RespParser UInt8 Halt}
  {before middle after parser : RespParser} {chunk : Bytes} {chunks chunks' : List Bytes}

/-- Behind a value that ends with the data, nothing is unread. -/
theorem unread_moved {taken : Bytes} (whole : conn.unread = taken ++ []) (parser : RespParser) :
    (conn.move taken.length parser).unread = [] := by
  rw [unread_move, whole, List.append_nil, List.drop_length]

theorem Drains.leaves {exit : Exit} {events : List Event} (drains : Drains conn exit last events)
    (some : conn.unread ≠ [])
    (returns : Returns RespParser.step conn.parser conn.unread ending)
    (leaves : Leaves ending parser) :
    exit = .ended ∧ last.parser = parser ∧ last.closed = conn.closed := by
  cases drains with
  | nothing read => exact absurd read some
  | value whole _ returns' onward =>
    cases returns.unique returns'
    cases leaves
    have nothing := unread_moved whole {}
    cases onward with
    | nothing => exact ⟨rfl, rfl, rfl⟩
    | value whole taken =>
      rw [nothing] at whole
      exact absurd (List.append_eq_nil_iff.mp whole.symm).1 taken
    | incomplete more => exact absurd nothing more
    | error more => exact absurd nothing more
    | exception more => exact absurd nothing more
  | incomplete _ returns' =>
    cases returns.unique returns'
    cases leaves
    exact ⟨rfl, rfl, rfl⟩
  | error _ _ returns' =>
    cases returns.unique returns'
    cases leaves
  | exception _ returns' =>
    cases returns.unique returns'
    cases leaves

theorem not_hangs_of_leaves (some : conn.unread ≠ [])
    (returns : Returns RespParser.step conn.parser conn.unread ending)
    (leaves : Leaves ending parser) : ¬ Hangs conn := by
  have called := (parse_eq_some_iff some).mpr ⟨ending, returns, rfl⟩
  intro hangs
  cases hangs with
  | here _ never => cases called.symm.trans never
  | later _ called' hangs =>
    cases parse_call some called' with
    | success whole _ counted returns' =>
      cases returns.unique returns'
      cases leaves
      rw [counted, Nat.add_sub_cancel_left] at hangs
      have nothing := unread_moved whole {}
      cases hangs with
      | here more => exact more nothing
      | later more => exact more nothing

/-- **A message whose bytes the parser uses up.** -/
theorem onMessage_leaves (idle : Idle conn) (some : chunk ≠ [])
    (fits : chunk.length ≤ kMaxConnInbufBytes megabytes)
    (returns : Returns RespParser.step conn.parser chunk ending) (leaves : Leaves ending parser) :
    ∃ next events, onMessage megabytes conn chunk = Option.some (next, events) ∧ Idle next ∧
      next.parser = parser := by
  have arrived := idle.unread_receive chunk
  rw [← arrived] at some returns
  cases message : onMessage megabytes conn chunk with
  | none => exact absurd (onMessage_hangs message).2 (not_hangs_of_leaves some returns leaves)
  | some out =>
    obtain ⟨next, events⟩ := out
    refine ⟨next, events, rfl, ?_⟩
    cases onMessage_handles message with
    | closed closed =>
      rw [idle.opened] at closed
      cases closed
    | flooded _ much =>
      rw [← unread_length, arrived] at much
      omega
    | failed _ _ drains => cases (drains.leaves some returns leaves).1
    | read _ _ drains =>
      obtain ⟨-, same, closed⟩ := drains.leaves some returns leaves
      exact ⟨⟨rfl, rfl, closed.trans idle.opened⟩, same⟩

/-- **A connection with nothing pending takes these chunks**, and they lead from one parser to the
other. -/
def Takes (megabytes : Int32) (chunks : List Bytes) (before after : RespParser) : Prop :=
  ∀ conn, Idle conn → conn.parser = before → ∃ next events,
    onMessages megabytes chunks conn = some (next, events) ∧ Idle next ∧ next.parser = after

theorem Takes.refl (megabytes : Int32) (parser : RespParser) : Takes megabytes [] parser parser :=
  fun conn idle same => ⟨conn, [], rfl, idle, same⟩

theorem onMessages_append {events later : List Event} {next : Connection}
    (first : onMessages megabytes chunks conn = some (next, events))
    (second : onMessages megabytes chunks' next = some (last, later)) :
    onMessages megabytes (chunks ++ chunks') conn = some (last, events ++ later) := by
  induction chunks generalizing conn events with
  | nil =>
    cases first
    exact second
  | cons chunk chunks ih =>
    obtain ⟨middle, now, rest, message, onward, rfl⟩ := onMessages_cons first
    simp only [List.cons_append, onMessages, message, Option.bind_some, ih onward,
      Option.map_some, List.append_assoc]

theorem Takes.trans (first : Takes megabytes chunks before middle)
    (second : Takes megabytes chunks' middle after) :
    Takes megabytes (chunks ++ chunks') before after := by
  intro conn idle same
  obtain ⟨next, events, ran, idle', same'⟩ := first conn idle same
  obtain ⟨last, later, ran', idle'', same''⟩ := second next idle' same'
  exact ⟨last, events ++ later, onMessages_append ran ran', idle'', same''⟩

theorem takes_chunk (some : chunk ≠ []) (fits : chunk.length ≤ kMaxConnInbufBytes megabytes)
    (returns : Returns RespParser.step before chunk ending) (leaves : Leaves ending after) :
    Takes megabytes [chunk] before after := by
  rintro conn idle rfl
  obtain ⟨next, events, message, idle', same⟩ := onMessage_leaves idle some fits returns leaves
  exact ⟨next, events ++ [], by rw [onMessages, message]; rfl, idle', same⟩

/-- **The body of a bulk string may be cut anywhere**: every piece is taken over by the parser. -/
theorem takes_body {pieces : List Bytes} (state : parser.state = .bulkStringData)
    (some : ∀ piece ∈ pieces, piece ≠ [])
    (fits : ∀ piece ∈ pieces, piece.length ≤ kMaxConnInbufBytes megabytes)
    (room : pieces.flatten.length ≤ parser.remaining) :
    Takes megabytes pieces parser (parser.absorb pieces.flatten) := by
  induction pieces generalizing parser with
  | nil =>
    rw [List.flatten_nil, absorb_nil]
    exact .refl megabytes parser
  | cons piece pieces ih =>
    obtain ⟨someFirst, someLater⟩ := List.forall_mem_cons.mp some
    obtain ⟨fitsFirst, fitsLater⟩ := List.forall_mem_cons.mp fits
    rw [List.flatten_cons, List.length_append] at room
    have first : piece.length ≤ parser.remaining := Nat.le_of_add_right_le room
    have left := remaining_absorb first
    have dry : parser.step piece = .more (parser.absorb piece) [] := by
      have whole := parseBulkStringData_append first []
      rw [List.append_nil] at whole
      rw [RespParser.step, state]
      refine whole.trans ?_
      simp [RespParser.parseBulkStringData]
    have returns : Returns RespParser.step parser piece (.dry (parser.absorb piece)) :=
      (returns_of_more someFirst dry).mpr ⟨1, rfl⟩
    have onward := @ih (parser.absorb piece) state someLater fitsLater (by omega)
    rw [absorb_absorb] at onward
    exact (takes_chunk someFirst fitsFirst returns (.dry _)).trans onward

end Chunks

/-! ### The pieces of a command -/

/-- The bytes of the second buffer of `readFd`; a read may bring as many, whatever the state of the
first one. -/
def kExtraBufBytes : Nat := 65536

/-- The pieces of an argument. -/
def bulkPieces (arg : Bytes) : List Bytes :=
  sizeLine '$' arg.length :: (arg.map fun byte => [byte]) ++ [crlf]

/-- The pieces of a command. -/
def commandPieces (args : List Bytes) : List Bytes :=
  sizeLine '*' args.length :: args.flatMap bulkPieces

theorem flatten_singletons (bytes : Bytes) : (bytes.map fun byte => [byte]).flatten = bytes := by
  induction bytes with
  | nil => rfl
  | cons byte bytes ih => rw [List.map_cons, List.flatten_cons, ih, List.singleton_append]

theorem flatten_bulkPieces (arg : Bytes) : (bulkPieces arg).flatten = encodeBulk arg := by
  rw [bulkPieces, List.cons_append, List.flatten_cons, List.flatten_append, flatten_singletons]
  simp [sizeLine, encodeBulk]

theorem flatten_commandPieces (args : List Bytes) :
    (commandPieces args).flatten = encodeRespArrayCommand args := by
  rw [commandPieces, List.flatten_cons, ← List.flatMap_id, List.flatMap_assoc]
  simp only [List.flatMap_id, flatten_bulkPieces]
  rfl

theorem flatten_pieces (commands : List (List Bytes)) :
    (commands.flatMap commandPieces).flatten = commands.flatMap encodeRespArrayCommand := by
  rw [← List.flatMap_id, List.flatMap_assoc]
  simp only [List.flatMap_id, flatten_commandPieces]

/-- A piece is not empty, and small. -/
def SmallPiece (piece : Bytes) : Prop := piece ≠ [] ∧ piece.length ≤ kExtraBufBytes

theorem smallPiece_sizeLine (type : Char) {size : Nat} (fits : size < 2 ^ 62) :
    SmallPiece (sizeLine type size) := by
  have digits := length_decimal_le 18 (fits.trans (by decide))
  refine ⟨by simp [sizeLine], ?_⟩
  simp only [sizeLine, kExtraBufBytes, crlf, List.length_append, List.length_cons, List.length_nil]
  omega

theorem smallPiece_bulkPieces {arg : Bytes} (fits : arg.length < 2 ^ 62) :
    ∀ piece ∈ bulkPieces arg, SmallPiece piece := by
  intro piece member
  rw [bulkPieces, List.cons_append] at member
  rcases List.mem_cons.mp member with rfl | member
  · exact smallPiece_sizeLine '$' fits
  rcases List.mem_append.mp member with inside | last
  · obtain ⟨byte, -, rfl⟩ := List.mem_map.mp inside
    exact ⟨by simp, by simp [kExtraBufBytes]⟩
  · obtain rfl := List.mem_singleton.mp last
    exact ⟨by decide, by decide⟩

theorem smallPiece_commandPieces {args : List Bytes} (few : args.length < 2 ^ 59)
    (fits : ∀ arg ∈ args, arg.length < 2 ^ 62) :
    ∀ piece ∈ commandPieces args, SmallPiece piece := by
  refine List.forall_mem_cons.mpr ⟨smallPiece_sizeLine '*' (few.trans (by decide)), ?_⟩
  intro piece member
  obtain ⟨arg, inside, within⟩ := List.mem_flatMap.mp member
  exact smallPiece_bulkPieces (fits arg inside) piece within

section Commands

variable {megabytes : Int32} {parser : RespParser}

theorem SmallPiece.fits {piece : Bytes} (small : SmallPiece piece) (megabytes : Int32) :
    piece.length ≤ kMaxConnInbufBytes megabytes := by
  have short := small.2
  rw [kExtraBufBytes] at short
  rw [kMaxConnInbufBytes]
  omega

/-- A value that ends with the data is added to an array, or handed over. -/
theorem finish_leaves (parser : RespParser) (value : RespValue) :
    ∃ (ending : Ending RespParser UInt8 Halt) (after : RespParser), after.state = .start ∧
      Leaves ending after ∧ (parser.finish value []).Ends RespParser.step ending := by
  unfold RespParser.finish
  split
  · exact ⟨_, _, rfl, .value _ _, rfl⟩
  · split
    · exact ⟨_, _, rfl, .value _ _, rfl⟩
    · exact ⟨_, _, rfl, .dry _, 1, rfl⟩

/-- **An argument**, read between two values. -/
theorem takes_bulk (start : parser.state = .start) {arg : Bytes} (fits : arg.length < 2 ^ 62) :
    ∃ after : RespParser, after.state = .start ∧ Takes megabytes (bulkPieces arg) parser after := by
  have small := smallPiece_bulkPieces fits
  have first := small (sizeLine '$' arg.length) (by simp [bulkPieces])
  have last : SmallPiece crlf := ⟨by decide, by decide⟩
  obtain ⟨sized, -, state, -, whole, header⟩ :=
    returns_bulkSize start (fits.trans (by decide) : arg.length < 2 ^ 63 - 1)
  have opens : Returns RespParser.step parser (sizeLine '$' arg.length) (.dry sized) := by
    have nothing := (header [] (.dry sized)).mpr ⟨1, rfl⟩
    rwa [List.append_nil] at nothing
  have body : Takes megabytes (arg.map fun byte => [byte]) sized (sized.absorb arg) := by
    have inside (piece : Bytes) (member : piece ∈ arg.map fun byte => [byte]) : SmallPiece piece :=
      small piece (by simp only [bulkPieces, List.mem_append, List.mem_cons, member, or_true,
        true_or])
    have taken := takes_body state (fun piece member => (inside piece member).1)
      (fun piece member => (inside piece member).fits megabytes)
      (by rw [flatten_singletons, whole])
    rwa [flatten_singletons] at taken
  have reading : (sized.absorb arg).state = .bulkStringData := state
  have full : (sized.absorb arg).remaining = 0 := by
    rw [remaining_absorb whole.ge, whole, Nat.sub_self]
  obtain ⟨ending, after, start', leaves, ends⟩ :=
    finish_leaves ((sized.absorb arg).advance 2) (.bulkString (sized.absorb arg).tempData)
  have closes : Returns RespParser.step (sized.absorb arg) (crlf ++ []) ending :=
    (returns_bulkEnd reading full [] ending).mpr ends
  rw [List.append_nil] at closes
  refine ⟨after, start', ?_⟩
  rw [bulkPieces, List.cons_append, ← List.singleton_append]
  exact (takes_chunk first.1 (first.fits megabytes) opens (.dry _)).trans
    (body.trans (takes_chunk last.1 (last.fits megabytes) closes leaves))

theorem takes_args (start : parser.state = .start) {args : List Bytes}
    (fits : ∀ arg ∈ args, arg.length < 2 ^ 62) :
    ∃ after : RespParser, after.state = .start ∧
      Takes megabytes (args.flatMap bulkPieces) parser after := by
  induction args generalizing parser with
  | nil => exact ⟨parser, start, .refl megabytes parser⟩
  | cons arg args ih =>
    obtain ⟨short, others⟩ := List.forall_mem_cons.mp fits
    obtain ⟨middle, start', first⟩ := takes_bulk start short
    obtain ⟨after, start'', later⟩ := ih start' others
    exact ⟨after, start'', first.trans later⟩

/-- **A command** is taken in its pieces, and leaves a fresh parser. -/
theorem takes_command {args : List Bytes} (some : args ≠ [])
    (fits : (encodeRespArrayCommand args).length ≤ kMaxConnInbufBytes megabytes) :
    Takes megabytes (commandPieces args) {} {} := by
  have limit := kMaxConnInbufBytes_lt megabytes
  have within := command_fits (List.mem_singleton_self args)
  rw [List.flatMap_singleton] at within
  have few : args.length < 2 ^ 59 := by omega
  have short : ∀ arg ∈ args, arg.length < 2 ^ 62 := fun arg member => by
    have := within.2 arg member
    omega
  have small := smallPiece_sizeLine '*' (few.trans (by decide))
  have fresh : ({} : RespParser).state = .start := rfl
  obtain ⟨next, -, start, header⟩ :=
    returns_header fresh (List.length_pos_iff.mpr some) few (by decide)
  have opens : Returns RespParser.step {} (sizeLine '*' args.length) (.dry next) := by
    have nothing := (header [] (.dry next)).mpr ⟨1, rfl⟩
    rwa [List.append_nil] at nothing
  obtain ⟨after, -, elements⟩ := takes_args start short
  have whole : Takes megabytes (commandPieces args) {} after :=
    (takes_chunk small.1 (small.fits megabytes) opens (.dry _)).trans elements
  -- which parser this is follows from the stream as a whole
  obtain ⟨last, events, ran, -, same⟩ := whole {} ⟨rfl, rfl, rfl⟩ rfl
  have expects : Expects {} (commandPieces args).flatten [commandValue args] :=
    ⟨_, [], by rw [flatten_commandPieces, List.append_nil], awaits_command some few short, rfl, rfl⟩
  have pieces := smallPiece_commandPieces few short
  have clean := (onMessages_expects ⟨rfl, rfl, rfl⟩
    (fun piece member => (pieces piece member).fits megabytes) ran expects).2.2.2
  rwa [← same, clean] at whole

/-- **Every stream of commands within the limit can be delivered in small pieces.** -/
theorem takes_commands {commands : List (List Bytes)} (filled : ∀ args ∈ commands, args ≠ [])
    (fits : (commands.flatMap encodeRespArrayCommand).length ≤ kMaxConnInbufBytes megabytes) :
    Takes megabytes (commands.flatMap commandPieces) {} {} ∧
      ∀ piece ∈ commands.flatMap commandPieces, SmallPiece piece := by
  have limit := kMaxConnInbufBytes_lt megabytes
  constructor
  · induction commands with
    | nil => exact .refl megabytes {}
    | cons args commands ih =>
      obtain ⟨some, others⟩ := List.forall_mem_cons.mp filled
      rw [List.flatMap_cons, List.length_append] at fits
      exact (takes_command some (by omega)).trans (ih others (by omega))
  · intro piece member
    obtain ⟨args, inside, within⟩ := List.mem_flatMap.mp member
    have sizes := command_fits inside
    refine smallPiece_commandPieces (by omega) (fun arg found => ?_) piece within
    have short := sizes.2 arg found
    omega

end Commands

end SunKV.Server
