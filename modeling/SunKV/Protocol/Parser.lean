/-
**The incremental RESP parser.**

`RespParser` is the parser of a connection. It is given the bytes that have arrived and reads them
in a loop, one iteration per call of a sub-parser; a value or an error ends the call, and running
out of bytes leaves a parser that the next call goes on with. The sub-parsers see the data only
from the current position on, so an iteration is a function of the parser and the unread bytes.

* `step_reads` — what an iteration can do: wait, refuse, or take at least one byte.
* `Stalled` — the configurations in which it waits although bytes are left: a header line whose
  end has not arrived, and a bulk body with only one of its two closing bytes.
* `parse_returns_iff` — the loop of `parse` returns exactly when it never gets into one of these.
-/

import SunKV.Lib.Loop
import SunKV.Lib.Reader

namespace SunKV.Protocol

open SunKV.Lib

/-! ### Values and parser states -/

/-- `class RESPValue` and its subclasses; a null value is one of its own. -/
inductive RespValue
  | simpleString (value : Bytes)
  | error (message : Bytes)
  | integer (value : Int)
  | bulkString (value : Bytes)
  | nullBulkString
  | array (values : List RespValue)
  | nullArray

/-- `enum class ParseState`. -/
inductive ParseState
  | start
  | simpleString
  | error
  | integer
  | bulkStringSize
  | bulkStringData
  | arraySize
  | arrayElement
  deriving DecidableEq

/-- The states that read a line and need its end. -/
def ParseState.isLine : ParseState → Bool
  | .simpleString | .error | .integer | .bulkStringSize | .arraySize => true
  | .start | .bulkStringData | .arrayElement => false

/-- `struct ArrayContext`. -/
structure ArrayContext where
  size : Nat
  count : Nat := 0
  elements : List RespValue := []

/-- `class RESPParser`, the innermost array first. -/
structure RespParser where
  arrayStack : List ArrayContext := []
  state : ParseState := .start
  tempData : Bytes := []
  bulkSize : Int := 0
  processedBytes : Nat := 0

/-- `reset`. -/
def RespParser.reset (_ : RespParser) : RespParser := {}

/-- How an iteration ends the call: a value, an error, or `std::length_error`. -/
inductive Halt
  | success (value : RespValue)
  | error (message : Bytes)
  | thrown

/-- What an iteration of the parser does. -/
abbrev Next := Iteration RespParser UInt8 Halt

/-! ### Lines and numbers -/

/-- `findCRLF`, as the distance from the current position. -/
def findCRLF : Bytes → Option Nat
  | [] => none
  | first :: rest =>
    if first = 13 ∧ rest.head? = some 10 then some 0 else (findCRLF rest).map (· + 1)

/-- The line at the current position without its end, and what follows. -/
def splitLine (unread : Bytes) : Option (Bytes × Bytes) :=
  (findCRLF unread).map fun crlf => (unread.take crlf, unread.drop (crlf + 2))

theorem splitLine_cons {first : UInt8} {rest : Bytes}
    (inside : ¬ (first = 13 ∧ rest.head? = some 10)) :
    splitLine (first :: rest) =
      (splitLine rest).map fun split => (first :: split.1, split.2) := by
  rw [splitLine, splitLine, findCRLF, if_neg inside, Option.map_map, Option.map_map]
  rfl

theorem splitLine_crlf (rest : Bytes) : splitLine (13 :: 10 :: rest) = some ([], rest) := rfl

/-- **A line is what stands before the first line end.** -/
theorem eq_of_splitLine {unread line rest : Bytes} (split : splitLine unread = some (line, rest)) :
    unread = (line ++ [13, 10]) ++ rest := by
  induction unread generalizing line with
  | nil => cases split
  | cons first tail ih =>
    by_cases ends : first = 13 ∧ tail.head? = some 10
    · obtain ⟨rfl, second⟩ := ends
      obtain ⟨tail', rfl⟩ := List.head?_eq_some_iff.mp second
      cases split
      rfl
    · rw [splitLine_cons ends] at split
      obtain ⟨⟨line', rest'⟩, found, same⟩ := Option.map_eq_some_iff.mp split
      cases same
      rw [ih found]
      rfl

/-- Later bytes do not change a complete line. -/
theorem splitLine_append {unread line rest : Bytes} (split : splitLine unread = some (line, rest))
    (later : Bytes) : splitLine (unread ++ later) = some (line, rest ++ later) := by
  induction unread generalizing line with
  | nil => cases split
  | cons first tail ih =>
    by_cases ends : first = 13 ∧ tail.head? = some 10
    · obtain ⟨rfl, second⟩ := ends
      obtain ⟨tail', rfl⟩ := List.head?_eq_some_iff.mp second
      cases split
      rfl
    · rw [splitLine_cons ends] at split
      obtain ⟨⟨line', rest'⟩, found, same⟩ := Option.map_eq_some_iff.mp split
      cases same
      have some : tail ≠ [] := by
        rintro rfl
        cases found
      have inside : ¬ (first = 13 ∧ (tail ++ later).head? = Option.some 10) := by
        rw [List.head?_append_of_ne_nil _ some]
        exact ends
      rw [List.cons_append, splitLine_cons inside, ih found]
      rfl

/-- `LLONG_MAX`. -/
def llongMax : Int := 2 ^ 63 - 1

/-- The digits loop of `parseInteger`; `none` is its early exit. -/
def parseDigits : Bytes → Nat → Option Nat
  | [], value => some value
  | byte :: rest, value =>
    if byte < ascii '0' ∨ ascii '9' < byte then none
    else
      let digit := byte.toNat - 48
      if (2 ^ 63 - 1 - digit) / 10 < value then none else parseDigits rest (value * 10 + digit)

/-- `parseInteger` on the characters of a line. -/
def parseInteger (line : Bytes) : Int :=
  match line with
  | [] => llongMax
  | first :: rest =>
    if first = ascii '-' then
      match parseDigits rest 0 with
      | some value => -value
      | none => llongMax
    else
      match parseDigits line 0 with
      | some value => value
      | none => llongMax

/-! ### Iterations -/

namespace RespParser

variable (parser : RespParser)

/-- `processed_bytes_ += count`. -/
def advance (count : Nat) : RespParser :=
  { parser with processedBytes := parser.processedBytes + count }

/-- A value is complete: it is the result, unless it is an element of an array that expects more.
The array it completes is the result even inside another array. -/
def finish (value : RespValue) (rest : Bytes) : Next :=
  match parser.arrayStack with
  | [] => .halt (.success value) { parser with state := .start } rest
  | ctx :: outer =>
    if ctx.size ≤ ctx.count + 1 then
      .halt (.success (.array (ctx.elements ++ [value])))
        { parser with arrayStack := outer, state := .start } rest
    else
      .more
        { parser with
          arrayStack :=
            { ctx with count := ctx.count + 1, elements := ctx.elements ++ [value] } :: outer
          state := .start }
        rest

/-- A sub-parser that reads a line: nothing happens before the line is complete. -/
def withLine (unread : Bytes) (use : Bytes → Bytes → Next) : Next :=
  match splitLine unread with
  | none => .more parser unread
  | some (line, rest) => use line rest

/-- A sub-parser that reads a number: where `valid` fails, parser and position are left alone. -/
def withInteger (unread : Bytes) (message : String) (valid : Int → Bool)
    (use : Int → RespParser → Bytes → Next) : Next :=
  parser.withLine unread fun line rest =>
    if valid (parseInteger line) then
      use (parseInteger line) (parser.advance (line.length + 2)) rest
    else .halt (.error (text message)) parser unread

/-- The state a type character leads to. -/
def typeState (type : UInt8) : Option ParseState :=
  if type = ascii '+' then some .simpleString
  else if type = ascii '-' then some .error
  else if type = ascii ':' then some .integer
  else if type = ascii '$' then some .bulkStringSize
  else if type = ascii '*' then some .arraySize
  else none

/-- The `START` case of the loop. -/
def parseStart : Bytes → Next
  | [] => .more parser []
  | type :: rest =>
    match typeState type with
    | some state => .more { parser.advance 1 with state := state, tempData := [] } rest
    | none => .halt (.error (text "Invalid RESP type: " ++ [type])) (parser.advance 1) rest

/-- `parseSimpleString`. -/
def parseSimpleString (unread : Bytes) : Next :=
  parser.withLine unread fun line rest =>
    (parser.advance (line.length + 2)).finish (.simpleString line) rest

/-- `parseError`. -/
def parseError (unread : Bytes) : Next :=
  parser.withLine unread fun line rest =>
    (parser.advance (line.length + 2)).finish (.error line) rest

/-- `parseInteger(data, pos)`. -/
def parseIntegerValue (unread : Bytes) : Next :=
  parser.withInteger unread "Invalid integer format" (fun value => value ≠ llongMax)
    fun value parser rest => parser.finish (.integer value) rest

/-- A size is `-1` or not negative, and not the sentinel. -/
def validSize (size : Int) : Bool := size ≠ llongMax ∧ ¬ size < -1

/-- `parseBulkStringSize`. -/
def parseBulkStringSize (unread : Bytes) : Next :=
  parser.withInteger unread "Invalid bulk string size" validSize fun size parser rest =>
    if size = -1 then { parser with bulkSize := size }.finish .nullBulkString rest
    else .more { parser with bulkSize := size, state := .bulkStringData, tempData := [] } rest

/-- `size_t remaining = bulk_size_ - temp_data_.length()`. -/
def remaining : Nat := ((parser.bulkSize - parser.tempData.length) % 2 ^ 64).toNat

/-- `temp_data_ += taken`. -/
def absorb (taken : Bytes) : RespParser :=
  { parser.advance taken.length with tempData := parser.tempData ++ taken }

/-- `parseBulkStringData`. -/
def parseBulkStringData (unread : Bytes) : Next :=
  if unread.length < parser.remaining then .more (parser.absorb unread) []
  else
    let parser' := parser.absorb (unread.take parser.remaining)
    match unread.drop parser.remaining with
    | cr :: lf :: rest =>
      if cr ≠ 13 ∨ lf ≠ 10 then
        .halt (.error (text "Missing CRLF after bulk string data")) parser' (cr :: lf :: rest)
      else (parser'.advance 2).finish (.bulkString parser'.tempData) rest
    | short => .more parser' short

/-- `kMaxNestingDepth_`. -/
def kMaxNestingDepth : Nat := 128

/-- `max_size()` of a vector of shared pointers; `reserve` throws above it. -/
def maxElements : Int := 2 ^ 59 - 1

/-- `parseArraySize`. -/
def parseArraySize (unread : Bytes) : Next :=
  parser.withInteger unread "Invalid array size" validSize fun size parser rest =>
    if size = -1 then parser.finish .nullArray rest
    else if size = 0 then parser.finish (.array []) rest
    else if maxElements < size then .halt .thrown parser rest
    else if kMaxNestingDepth ≤ parser.arrayStack.length then
      .halt (.error (text "RESP nesting too deep")) parser rest
    else
      .more
        { parser with
          arrayStack := { size := size.toNat } :: parser.arrayStack
          state := .start }
        rest

/-- `parseArrayElement`. -/
def parseArrayElement (unread : Bytes) : Next :=
  .more { parser with state := .start } unread

/-- **One iteration of the loop of `parse`.** -/
def step (unread : Bytes) : Next :=
  match parser.state with
  | .start => parser.parseStart unread
  | .simpleString => parser.parseSimpleString unread
  | .error => parser.parseError unread
  | .integer => parser.parseIntegerValue unread
  | .bulkStringSize => parser.parseBulkStringSize unread
  | .bulkStringData => parser.parseBulkStringData unread
  | .arraySize => parser.parseArraySize unread
  | .arrayElement => parser.parseArrayElement unread

end RespParser

/-! ### What an iteration can do -/

/-- **Bytes are left and the iteration waits for more**: the end of a line has not arrived, or a
bulk body is complete and one byte follows it. -/
def Stalled (parser : RespParser) (unread : Bytes) : Prop :=
  (parser.state.isLine = true ∧ unread ≠ [] ∧ findCRLF unread = none) ∨
  (parser.state = .bulkStringData ∧ parser.remaining = 0 ∧ unread.length = 1)

instance (parser : RespParser) (unread : Bytes) : Decidable (Stalled parser unread) := by
  unfold Stalled
  infer_instance

/-- **What an iteration does when it does not wait**: refuse, or take some of the unread bytes off
the front, which it counts. The state `ARRAY_ELEMENT` only leads back to `START`. -/
inductive Acts (parser : RespParser) (unread : Bytes) : Next → Prop
  | refuses (message : Bytes) : Acts parser unread (.halt (.error message) parser unread)
  | takes {taken rest : Bytes} {next : RespParser} (whole : unread = taken ++ rest)
      (some : taken ≠ []) (counted : next.processedBytes = parser.processedBytes + taken.length)
      (state : next.state ≠ .arrayElement) : Acts parser unread (.more next rest)
  | stops {taken rest : Bytes} {next : RespParser} (outcome : Halt) (whole : unread = taken ++ rest)
      (some : taken ≠ []) (counted : next.processedBytes = parser.processedBytes + taken.length) :
      Acts parser unread (.halt outcome next rest)
  | restarts (state : parser.state = .arrayElement) :
      Acts parser unread (.more { parser with state := .start } unread)

section Acts

variable {parser next : RespParser} {unread taken rest : Bytes}

theorem Acts.finish (whole : unread = taken ++ rest) (some : taken ≠ [])
    (counted : next.processedBytes = parser.processedBytes + taken.length) (value : RespValue) :
    Acts parser unread (next.finish value rest) := by
  unfold RespParser.finish
  split
  · exact .stops _ whole some counted
  · split
    · exact .stops _ whole some counted
    · exact .takes whole some counted nofun

theorem Acts.withLine {use : Bytes → Bytes → Next} (complete : findCRLF unread ≠ none)
    (acts : ∀ line rest, unread = (line ++ [13, 10]) ++ rest → Acts parser unread (use line rest)) :
    Acts parser unread (parser.withLine unread use) := by
  unfold RespParser.withLine
  split
  case h_1 nothing => exact absurd (Option.map_eq_none_iff.mp nothing) complete
  case h_2 line rest split => exact acts line rest (eq_of_splitLine split)

theorem Acts.withInteger {message : String} {valid : Int → Bool}
    {use : Int → RespParser → Bytes → Next} (complete : findCRLF unread ≠ none)
    (acts : ∀ size line rest, unread = (line ++ [13, 10]) ++ rest →
      Acts parser unread (use size (parser.advance (line.length + 2)) rest)) :
    Acts parser unread (parser.withInteger unread message valid use) := by
  refine Acts.withLine complete fun line rest whole => ?_
  split
  · exact acts _ line rest whole
  · exact .refuses _

theorem line_ne_nil (line : Bytes) : line ++ [13, 10] ≠ [] :=
  List.append_ne_nil_of_right_ne_nil _ (List.cons_ne_nil _ _)

theorem advance_line (parser : RespParser) (line : Bytes) :
    (parser.advance (line.length + 2)).processedBytes =
      parser.processedBytes + (line ++ [13, 10]).length := by
  rw [List.length_append]
  rfl

theorem typeState_ne_arrayElement (type : UInt8) :
    RespParser.typeState type ≠ some .arrayElement := by
  unfold RespParser.typeState
  split_ifs <;> nofun

@[simp] theorem absorb_nil (parser : RespParser) : parser.absorb [] = parser := by
  simp only [RespParser.absorb, RespParser.advance, List.append_nil, List.length_nil, Nat.add_zero]

theorem Acts.parseBulkStringData (state : parser.state = .bulkStringData) (some : unread ≠ [])
    (moving : ¬ (parser.remaining = 0 ∧ unread.length = 1)) :
    Acts parser unread (parser.parseBulkStringData unread) := by
  have inData (taken : Bytes) : (parser.absorb taken).state ≠ .arrayElement := by
    rw [show (parser.absorb taken).state = parser.state from rfl, state]
    nofun
  unfold RespParser.parseBulkStringData
  split
  case isTrue => exact .takes (List.append_nil unread).symm some rfl (inData unread)
  case isFalse enough =>
    have whole : unread.take parser.remaining ++ unread.drop parser.remaining = unread :=
      List.take_append_drop _ _
    have counted : (unread.take parser.remaining).length = parser.remaining :=
      List.length_take_of_le (Nat.not_lt.mp enough)
    generalize unread.take parser.remaining = taken at whole counted ⊢
    generalize unread.drop parser.remaining = left at whole ⊢
    subst whole
    dsimp only
    split
    case h_1 _ cr lf rest =>
      split
      case isTrue =>
        by_cases nothing : taken = []
        · subst nothing
          rw [absorb_nil]
          exact .refuses _
        · exact .stops _ rfl nothing rfl
      case isFalse =>
        have split : taken ++ cr :: lf :: rest = (taken ++ [cr, lf]) ++ rest := by simp
        refine Acts.finish split (List.append_ne_nil_of_right_ne_nil _ (List.cons_ne_nil _ _)) ?_ _
        rw [List.length_append, ← Nat.add_assoc]
        rfl
    case h_2 short =>
      refine .takes rfl ?_ rfl (inData taken)
      -- with nothing taken, at most one byte would be left
      rintro rfl
      rcases left with _ | ⟨cr, _ | ⟨lf, rest⟩⟩
      · exact some rfl
      · exact moving ⟨counted.symm, rfl⟩
      · exact short cr lf rest rfl

/-- **An iteration that is not stalled acts.** -/
theorem step_acts (some : unread ≠ []) (moving : ¬ Stalled parser unread) :
    Acts parser unread (parser.step unread) := by
  have complete (line : parser.state.isLine = true) : findCRLF unread ≠ none :=
    fun nothing => moving (Or.inl ⟨line, some, nothing⟩)
  unfold RespParser.step
  cases state : parser.state with
  | start =>
    obtain ⟨type, rest, rfl⟩ := List.exists_cons_of_ne_nil some
    have one : type :: rest = [type] ++ rest := rfl
    dsimp only [RespParser.parseStart]
    split
    case h_1 state found =>
      refine .takes one (List.cons_ne_nil _ _) rfl ?_
      rintro rfl
      exact typeState_ne_arrayElement type found
    case h_2 => exact .stops _ one (List.cons_ne_nil _ _) rfl
  | simpleString =>
    exact .withLine (complete (by rw [state]; rfl)) fun line rest whole =>
      .finish whole (line_ne_nil line) (advance_line parser line) _
  | error =>
    exact .withLine (complete (by rw [state]; rfl)) fun line rest whole =>
      .finish whole (line_ne_nil line) (advance_line parser line) _
  | integer =>
    exact .withInteger (complete (by rw [state]; rfl)) fun _ line rest whole =>
      .finish whole (line_ne_nil line) (advance_line parser line) _
  | bulkStringSize =>
    refine .withInteger (complete (by rw [state]; rfl)) fun size line rest whole => ?_
    have counted := advance_line parser line
    split
    · refine .finish whole (line_ne_nil line) ?_ _
      exact counted
    · exact .takes whole (line_ne_nil line) counted nofun
  | bulkStringData =>
    exact .parseBulkStringData state some fun stalled => moving (Or.inr ⟨state, stalled⟩)
  | arraySize =>
    refine .withInteger (complete (by rw [state]; rfl)) fun size line rest whole => ?_
    have counted := advance_line parser line
    split_ifs
    · exact .finish whole (line_ne_nil line) counted _
    · exact .finish whole (line_ne_nil line) counted _
    · exact .stops _ whole (line_ne_nil line) counted
    · exact .stops _ whole (line_ne_nil line) counted
    · exact .takes whole (line_ne_nil line) counted nofun
  | arrayElement => exact .restarts state

/-- A stalled iteration changes nothing. -/
theorem step_of_stalled (stalled : Stalled parser unread) :
    parser.step unread = .more parser unread := by
  rcases stalled with ⟨line, -, nothing⟩ | ⟨state, full, one⟩
  · have noLine : splitLine unread = none := by rw [splitLine, nothing]; rfl
    have waits (use : Bytes → Bytes → Next) : parser.withLine unread use = .more parser unread := by
      rw [RespParser.withLine, noLine]
    unfold RespParser.step
    cases state : parser.state with
    | simpleString => exact waits _
    | error => exact waits _
    | integer => exact waits _
    | bulkStringSize => exact waits _
    | arraySize => exact waits _
    | start => rw [state] at line; cases line
    | bulkStringData => rw [state] at line; cases line
    | arrayElement => rw [state] at line; cases line
  · obtain ⟨byte, rfl⟩ := List.length_eq_one_iff.mp one
    simp only [RespParser.step, state, RespParser.parseBulkStringData, full, List.length_singleton,
      Nat.not_lt_zero, if_false, List.take_zero, List.drop_zero, absorb_nil]

/-! ### Termination -/

/-- Unread bytes, and one more for the state that takes none. -/
def measure (parser : RespParser) (unread : Bytes) : Nat :=
  unread.length + if parser.state = .arrayElement then 1 else 0

theorem Acts.measure_lt (acts : Acts parser unread (.more next rest)) :
    measure next rest < measure parser unread := by
  cases acts with
  | takes whole some _ state =>
    have fewer := List.length_pos_iff.mpr some
    rw [measure, measure, if_neg state, whole, List.length_append]
    omega
  | restarts state =>
    rw [measure, measure, if_pos state, if_neg nofun]
    omega

/-- An iteration that goes on is stalled, or leaves less to do. -/
theorem step_progresses : Progresses RespParser.step measure := by
  intro parser next unread rest some iteration
  by_cases stalled : Stalled parser unread
  · rw [step_of_stalled stalled] at iteration
    cases iteration
    exact Or.inl ⟨rfl, rfl⟩
  · have acts := step_acts some stalled
    rw [iteration] at acts
    exact Or.inr acts.measure_lt

theorem stalls_iff : Stalls RespParser.step parser unread ↔ Stalled parser unread := by
  constructor
  · rintro ⟨some, same⟩
    by_contra moving
    have acts := step_acts some moving
    rw [same] at acts
    exact Nat.lt_irrefl _ acts.measure_lt
  · intro stalled
    refine ⟨?_, step_of_stalled stalled⟩
    rintro rfl
    rcases stalled with ⟨-, some, -⟩ | ⟨-, -, one⟩
    · exact some rfl
    · cases one

end Acts

/-- `struct ParseResult`, and the exception a call may end with instead. -/
inductive ParseResult
  | success (value : RespValue) (processed : Nat)
  | incomplete (processed : Nat)
  | error (message : Bytes)
  | thrown

/-- The result that belongs to an ending of the loop, and the parser it leaves. -/
def conclude : Ending RespParser UInt8 Halt → ParseResult × RespParser
  | .dry parser => (.incomplete parser.processedBytes, parser)
  | .halted (.success value) parser _ => (.success value parser.processedBytes, parser)
  | .halted (.error message) parser _ => (.error message, parser)
  | .halted .thrown parser _ => (.thrown, parser)

/-- **`parse`**: `none` when the loop does not return. -/
def RespParser.parse (parser : RespParser) (data : Bytes) : Option (ParseResult × RespParser) :=
  if data.isEmpty then some (.incomplete 0, parser)
  else (loop RespParser.step (data.length + 2) parser data).map conclude

/-- **The loop of `parse` returns exactly when it never waits with bytes left.** -/
theorem parse_returns_iff (parser : RespParser) (data : Bytes) :
    (∃ fuel, (loop RespParser.step fuel parser data).isSome) ↔
      ∀ last unread, Visits RespParser.step parser data last unread → ¬ Stalled last unread := by
  simp only [← stalls_iff, ← step_progresses.exists_returns_iff, Returns, Option.isSome_iff_exists]
  exact exists_comm

/-- A simple string whose line end has not arrived: after the type character the loop goes round
for ever. -/
theorem parse_line_cut :
    ¬ ∃ fuel, (loop RespParser.step fuel {} (text "+OK")).isSome := by
  have visits : Visits RespParser.step {} (text "+OK")
      { state := .simpleString, processedBytes := 1 } (text "OK") :=
    .onward (by decide) rfl (.here _ _)
  have stalled : Stalled { state := .simpleString, processedBytes := 1 } (text "OK") := by decide
  rintro ⟨fuel, returned⟩
  rw [visits.loop_eq_none (stalls_iff.mpr stalled)] at returned
  cases returned

end SunKV.Protocol
