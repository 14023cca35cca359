/-
**Values on the wire.**

`RespValue.encode` spells a value as the subclasses of `RESPValue` do. `Awaits` says that a parser,
given some bytes and whatever follows them, takes exactly these and returns the value.

* `splitLine_line` — a line without a line end inside is read to its end, also where it ends in a
  carriage return.
* `returns_value` — the iterations of a value that is no array, or an empty one: they come to that
  value, in a parser with the same arrays.
* `returns_bulkSize`, `returns_bulkEnd` — a bulk string, whose body may come in pieces in between.
* `returns_header`, `returns_elements` — the header of an array, and elements of that kind.
* `awaits_array`, `awaits_flat` — so a fresh parser awaits the encoding of every value whose
  elements are of that kind.
-/

import SunKV.Lib.Decimal
import SunKV.Protocol.Resume

namespace SunKV.Protocol

open SunKV.Lib

/-- `"\r\n"`. -/
def crlf : Bytes := [13, 10]

mutual

/-- **`encode`**, of every subclass of `RESPValue`. -/
def RespValue.encode : RespValue → Bytes
  | .simpleString value => [ascii '+'] ++ value ++ crlf
  | .error message => [ascii '-'] ++ message ++ crlf
  | .integer value => [ascii ':'] ++ toDecimal value ++ crlf
  | .bulkString value => [ascii '$'] ++ decimal value.length ++ crlf ++ value ++ crlf
  | .nullBulkString => text "$-1" ++ crlf
  | .array values => [ascii '*'] ++ decimal values.length ++ crlf ++ RespValue.encodeAll values
  | .nullArray => text "*-1" ++ crlf

/-- The loop of `RESPArray::encode` over the elements. -/
def RespValue.encodeAll : List RespValue → Bytes
  | [] => []
  | value :: values => value.encode ++ RespValue.encodeAll values

end

/-- **The value and all values inside it** satisfy a property. -/
inductive RespValue.Every (property : RespValue → Prop) : RespValue → Prop
  | leaf {value : RespValue} (scalar : ∀ values, value ≠ .array values) (here : property value) :
      Every property value
  | array {values : List RespValue} (here : property (.array values))
      (inside : ∀ value ∈ values, Every property value) : Every property (.array values)

/-- The value is an array with elements. -/
def RespValue.filled : RespValue → Bool
  | .array (_ :: _) => true
  | _ => false

/-- No element is an array with elements. -/
def RespValue.Flat : RespValue → Prop
  | .array values => ∀ value ∈ values, value.filled = false
  | _ => True

/-- **A value the parser can take in**: no line end in a simple string or an error, an integer
other than the two extremes, and sizes up to `max_size()` of a string and of a vector of shared
pointers. -/
def RespValue.Readable : RespValue → Prop
  | .simpleString value => ¬ crlf <:+: value
  | .error message => ¬ crlf <:+: message
  | .integer value => -2 ^ 63 < value ∧ value < 2 ^ 63 - 1
  | .bulkString value => value.length < 2 ^ 63 - 1
  | .array values => values.length < 2 ^ 59
  | .nullBulkString | .nullArray => True

instance (value : RespValue) : Decidable value.Readable :=
  match value with
  | .simpleString value => inferInstanceAs (Decidable (¬ crlf <:+: value))
  | .error message => inferInstanceAs (Decidable (¬ crlf <:+: message))
  | .integer value => inferInstanceAs (Decidable (-2 ^ 63 < value ∧ value < 2 ^ 63 - 1))
  | .bulkString value => inferInstanceAs (Decidable (value.length < 2 ^ 63 - 1))
  | .array values => inferInstanceAs (Decidable (values.length < 2 ^ 59))
  | .nullBulkString | .nullArray => isTrue trivial

theorem RespValue.Every.here {property : RespValue → Prop} {value : RespValue}
    (every : value.Every property) : property value := by
  cases every with
  | leaf _ here => exact here
  | array here _ => exact here

theorem RespValue.Every.inside {property : RespValue → Prop} {values : List RespValue}
    (every : (RespValue.array values).Every property) :
    ∀ value ∈ values, value.Every property := by
  cases every with
  | leaf scalar _ => exact absurd rfl (scalar values)
  | array _ inside => exact inside

theorem RespValue.Every.mono {property other : RespValue → Prop} {value : RespValue}
    (every : value.Every property) (implies : ∀ value, property value → other value) :
    value.Every other := by
  induction every with
  | leaf scalar here => exact .leaf scalar (implies _ here)
  | array here _ ih => exact .array (implies _ here) ih

/-! ### Header lines -/

/-- **A line without a line end inside is read to its end.** -/
theorem splitLine_line {line : Bytes} (plain : ¬ crlf <:+: line) (rest : Bytes) :
    splitLine (line ++ crlf ++ rest) = some (line, rest) := by
  induction line with
  | nil => exact splitLine_crlf rest
  | cons first tail ih =>
    have inside : ¬ (first = 13 ∧ (tail ++ crlf ++ rest).head? = some 10) := by
      rintro ⟨rfl, second⟩
      cases tail with
      | nil => cases second
      | cons next others =>
        obtain rfl : next = 10 := Option.some.inj second
        exact plain ⟨[], others, rfl⟩
    have later : ¬ crlf <:+: tail := fun found => plain (found.trans (List.suffix_cons _ _).isInfix)
    rw [List.cons_append, List.cons_append, splitLine_cons inside, ih later]
    rfl

theorem plain_of_no_cr {line : Bytes} (plain : ∀ byte ∈ line, byte ≠ 13) : ¬ crlf <:+: line := by
  intro found
  exact plain 13 (found.subset List.mem_cons_self) rfl

theorem plain_decimal (number : Nat) : ¬ crlf <:+: decimal number := by
  refine plain_of_no_cr ?_
  rintro byte member rfl
  have isNumeral := decimal_digits number 13 member
  revert isNumeral
  decide

theorem plain_toDecimal (value : Int) : ¬ crlf <:+: toDecimal value := by
  cases value with
  | ofNat number => exact plain_decimal number
  | negSucc number =>
    refine plain_of_no_cr ?_
    intro byte member
    rcases List.mem_cons.mp member with rfl | member
    · decide
    · rintro rfl
      have isNumeral := decimal_digits (number + 1) 13 member
      revert isNumeral
      decide

theorem parseDigits_concat {digits : Bytes} {value : Nat} {start last : Nat} (low : last < 10)
    (read : parseDigits digits start = some value) (fits : value * 10 + last < 2 ^ 63) :
    parseDigits (digits ++ [digit last]) start = some (value * 10 + last) := by
  induction digits generalizing start with
  | nil =>
    cases read
    have number := digit_toNat low
    have inRange : ¬ (digit last < ascii '0' ∨ ascii '9' < digit last) := by
      rw [UInt8.lt_iff_toNat_lt, UInt8.lt_iff_toNat_lt, number,
        show (ascii '0').toNat = 48 from rfl, show (ascii '9').toNat = 57 from rfl]
      omega
    have noOverflow : ¬ (2 ^ 63 - 1 - last) / 10 < value := by omega
    have back : 48 + last - 48 = last := by omega
    simp only [List.nil_append, parseDigits, inRange, if_false, number, back, noOverflow]
  | cons first tail ih =>
    rw [List.cons_append, parseDigits]
    rw [parseDigits] at read
    split at read
    · cases read
    · next inRange =>
      rw [if_neg inRange]
      dsimp only at read ⊢
      split at read
      · cases read
      · next noOverflow =>
        rw [if_neg noOverflow]
        exact ih read

theorem parseDigits_decimal {number : Nat} (fits : number < 2 ^ 63) :
    parseDigits (decimal number) 0 = some number := by
  induction number using decimal_induction with
  | small number low =>
    have read : parseDigits ([] ++ [digit number]) 0 = some (0 * 10 + number) :=
      parseDigits_concat low rfl (by omega)
    rw [decimal_of_lt low]
    simpa using read
  | large number high ih =>
    have parts : number / 10 * 10 + number % 10 = number := by omega
    have last : number % 10 < 10 := Nat.mod_lt _ (by omega)
    rw [decimal_of_le high, parseDigits_concat last (ih (by omega)) (by omega), parts]

/-- **A decimal number is read back**, `LLONG_MIN` excepted. -/
theorem parseInteger_toDecimal {value : Int} (low : -2 ^ 63 < value) (high : value < 2 ^ 63) :
    parseInteger (toDecimal value) = value := by
  cases value with
  | ofNat number =>
    have fits : number < 2 ^ 63 := Int.ofNat_lt.mp high
    have read := parseDigits_decimal fits
    obtain ⟨first, rest, shape⟩ := List.exists_cons_of_ne_nil (decimal_ne_nil number)
    have isNumeral : isDigit first = true :=
      decimal_digits number first (by rw [shape]; exact List.mem_cons_self)
    have positive : first ≠ ascii '-' := by
      rintro rfl
      revert isNumeral
      decide
    rw [shape] at read
    rw [toDecimal, shape]
    simp only [parseInteger, positive, if_false, read]
    rfl
  | negSucc number =>
    have read := parseDigits_decimal (show number + 1 < 2 ^ 63 by omega)
    rw [toDecimal]
    simp only [parseInteger, show (45 : UInt8) = ascii '-' from rfl, if_true, read]
    omega

/-- The line of a number is read as the number. -/
theorem withInteger_toDecimal {parser : RespParser} {message : String} {valid : Int → Bool}
    {value : Int} (low : -2 ^ 63 < value) (high : value < 2 ^ 63) (fine : valid value = true)
    (use : Int → RespParser → Bytes → Next) (rest : Bytes) :
    parser.withInteger (toDecimal value ++ crlf ++ rest) message valid use =
      use value (parser.advance ((toDecimal value).length + 2)) rest := by
  simp only [RespParser.withInteger, RespParser.withLine, splitLine_line (plain_toDecimal value),
    parseInteger_toDecimal low high, fine, if_true]

theorem validSize_of_lt {size : Int} (low : -1 ≤ size) (high : size < 2 ^ 63 - 1) :
    RespParser.validSize size = true := by
  have sentinel : llongMax = 9223372036854775807 := rfl
  exact decide_eq_true (by omega)

/-! ### Values -/

section Values

variable {parser : RespParser}

/-- The parser behind a type character. -/
def RespParser.typed (parser : RespParser) (state : ParseState) : RespParser :=
  { parser.advance 1 with state := state, tempData := [] }

/-- **A type character**, and the iteration behind it. -/
theorem returns_typed {type : UInt8} {state : ParseState} (start : parser.state = .start)
    (leads : RespParser.typeState type = some state) {body : Bytes} (some : body ≠ [])
    (ending : Ending RespParser UInt8 Halt) :
    Returns RespParser.step parser (type :: body) ending ↔
      ((parser.typed state).step body).Ends RespParser.step ending := by
  have first : parser.step (type :: body) = .more (parser.typed state) body := by
    simp only [RespParser.step, start, RespParser.parseStart, leads]
    rfl
  rw [returns_of_more (List.cons_ne_nil _ _) first, returns_iff_ends some]

/-- The line before a bulk string, and the one before the elements of an array. -/
def sizeLine (type : Char) (size : Nat) : Bytes := [ascii type] ++ decimal size ++ crlf

/-- **The header of a bulk string** prepares the parser for the body. -/
theorem returns_bulkSize (start : parser.state = .start) {size : Nat} (fits : size < 2 ^ 63 - 1) :
    ∃ sized : RespParser, sized.arrayStack = parser.arrayStack ∧ sized.state = .bulkStringData ∧
      sized.tempData = [] ∧ sized.remaining = size ∧ ∀ rest ending,
        Returns RespParser.step parser (sizeLine '$' size ++ rest) ending ↔
          Returns RespParser.step sized rest ending := by
  let sized : RespParser :=
    { (parser.typed .bulkStringSize).advance ((decimal size).length + 2) with
      bulkSize := size, state := .bulkStringData, tempData := [] }
  have whole : sized.remaining = size := by
    simp only [RespParser.remaining, sized, List.length_nil]
    omega
  refine ⟨sized, rfl, rfl, rfl, whole, fun rest ending => ?_⟩
  have length : (parser.typed .bulkStringSize).step (toDecimal size ++ crlf ++ rest) =
      .more sized rest := by
    show (parser.typed .bulkStringSize).parseBulkStringSize _ = _
    rw [RespParser.parseBulkStringSize, withInteger_toDecimal (by omega) (by omega)
      (validSize_of_lt (by omega) (by omega)), if_neg (by omega)]
    rfl
  have spelled : sizeLine '$' size ++ rest = ascii '$' :: (toDecimal size ++ crlf ++ rest) := by
    simp [sizeLine, toDecimal]
  rw [spelled, returns_typed start rfl (by simp [crlf]), length]
  rfl

/-- **The end of a bulk body.** -/
theorem returns_bulkEnd (state : parser.state = .bulkStringData) (full : parser.remaining = 0)
    (rest : Bytes) (ending : Ending RespParser UInt8 Halt) :
    Returns RespParser.step parser (crlf ++ rest) ending ↔
      ((parser.advance 2).finish (.bulkString parser.tempData) rest).Ends RespParser.step
        ending := by
  have body : parser.step (crlf ++ rest) =
      (parser.advance 2).finish (.bulkString parser.tempData) rest := by
    simp only [RespParser.step, state, RespParser.parseBulkStringData, full, Nat.not_lt_zero,
      if_false, List.take_zero, List.drop_zero, absorb_nil]
    rfl
  rw [returns_iff_ends (by simp [crlf]), body]

/-- A bulk string: its header, and its body. -/
theorem returns_bulkString (start : parser.state = .start) {value : Bytes}
    (fits : value.length < 2 ^ 63 - 1) :
    ∃ last : RespParser, last.arrayStack = parser.arrayStack ∧ ∀ rest ending,
      Returns RespParser.step parser ((RespValue.bulkString value).encode ++ rest) ending ↔
        (last.finish (.bulkString value) rest).Ends RespParser.step ending := by
  obtain ⟨sized, stack, state, empty, whole, header⟩ := returns_bulkSize start fits
  refine ⟨(sized.absorb value).advance 2, stack, fun rest ending => ?_⟩
  have full : (sized.absorb value).remaining = 0 := by
    rw [remaining_absorb whole.ge, whole, Nat.sub_self]
  have reading : (sized.absorb value).state = .bulkStringData := state
  have body : sized.step (value ++ (crlf ++ rest)) = (sized.absorb value).step (crlf ++ rest) := by
    rw [RespParser.step, RespParser.step, reading, state]
    exact parseBulkStringData_append whole.ge _
  have spelled : (RespValue.bulkString value).encode ++ rest =
      sizeLine '$' value.length ++ (value ++ (crlf ++ rest)) := by
    simp [RespValue.encode, sizeLine]
  have taken : (sized.absorb value).tempData = value := by
    show sized.tempData ++ value = value
    rw [empty, List.nil_append]
  rw [spelled, header, returns_iff_ends (by simp [crlf]), body,
    ← returns_iff_ends (by simp [crlf]), returns_bulkEnd reading full, taken]

/-- **The iterations of a value that has no elements** come to that value, in a parser with the
same arrays. -/
theorem returns_value (start : parser.state = .start) {value : RespValue}
    (readable : value.Readable) (unfilled : value.filled = false) :
    ∃ last : RespParser, last.arrayStack = parser.arrayStack ∧ ∀ rest ending,
      Returns RespParser.step parser (value.encode ++ rest) ending ↔
        (last.finish value rest).Ends RespParser.step ending := by
  cases value with
  | simpleString line =>
    refine ⟨(parser.typed .simpleString).advance (line.length + 2), rfl, fun rest ending => ?_⟩
    have spelled : (RespValue.simpleString line).encode ++ rest =
        ascii '+' :: (line ++ crlf ++ rest) := by simp [RespValue.encode]
    rw [spelled, returns_typed start rfl (by simp [crlf])]
    show (RespParser.parseSimpleString _ _).Ends _ _ ↔ _
    rw [RespParser.parseSimpleString, RespParser.withLine, splitLine_line readable]
  | error line =>
    refine ⟨(parser.typed .error).advance (line.length + 2), rfl, fun rest ending => ?_⟩
    have spelled : (RespValue.error line).encode ++ rest =
        ascii '-' :: (line ++ crlf ++ rest) := by simp [RespValue.encode]
    rw [spelled, returns_typed start rfl (by simp [crlf])]
    show (RespParser.parseError _ _).Ends _ _ ↔ _
    rw [RespParser.parseError, RespParser.withLine, splitLine_line readable]
  | integer value =>
    refine ⟨(parser.typed .integer).advance ((toDecimal value).length + 2), rfl,
      fun rest ending => ?_⟩
    have spelled : (RespValue.integer value).encode ++ rest =
        ascii ':' :: (toDecimal value ++ crlf ++ rest) := by simp [RespValue.encode]
    have other : decide (value ≠ llongMax) = true :=
      decide_eq_true (by rw [llongMax]; have := readable.2; omega)
    rw [spelled, returns_typed start rfl (by simp [crlf])]
    show (RespParser.parseIntegerValue _ _).Ends _ _ ↔ _
    rw [RespParser.parseIntegerValue, withInteger_toDecimal readable.1
      (readable.2.trans (by omega)) other]
  | bulkString value => exact returns_bulkString start readable
  | nullBulkString =>
    refine ⟨{ (parser.typed .bulkStringSize).advance 4 with bulkSize := -1 }, rfl,
      fun rest ending => ?_⟩
    have spelled : RespValue.nullBulkString.encode ++ rest =
        ascii '$' :: (toDecimal (-1) ++ crlf ++ rest) := rfl
    rw [spelled, returns_typed start rfl (by simp [crlf])]
    show (RespParser.parseBulkStringSize _ _).Ends _ _ ↔ _
    rw [RespParser.parseBulkStringSize, withInteger_toDecimal (by omega) (by omega) rfl,
      if_pos rfl]
    rfl
  | nullArray =>
    refine ⟨(parser.typed .arraySize).advance 4, rfl, fun rest ending => ?_⟩
    have spelled : RespValue.nullArray.encode ++ rest =
        ascii '*' :: (toDecimal (-1) ++ crlf ++ rest) := rfl
    rw [spelled, returns_typed start rfl (by simp [crlf])]
    show (RespParser.parseArraySize _ _).Ends _ _ ↔ _
    rw [RespParser.parseArraySize, withInteger_toDecimal (by omega) (by omega) rfl, if_pos rfl]
    rfl
  | array values =>
    cases values with
    | cons first rest => cases unfilled
    | nil =>
      refine ⟨(parser.typed .arraySize).advance 3, rfl, fun rest ending => ?_⟩
      have spelled : (RespValue.array []).encode ++ rest =
          ascii '*' :: (toDecimal 0 ++ crlf ++ rest) := rfl
      rw [spelled, returns_typed start rfl (by simp [crlf])]
      show (RespParser.parseArraySize _ _).Ends _ _ ↔ _
      rw [RespParser.parseArraySize, withInteger_toDecimal (by omega) (by omega) rfl,
        if_neg (by omega), if_pos rfl]
      rfl

/-- **The header of an array** opens a context for its elements. -/
theorem returns_header (start : parser.state = .start) {size : Nat} (pos : 0 < size)
    (few : size < 2 ^ 59) (shallow : parser.arrayStack.length < RespParser.kMaxNestingDepth) :
    ∃ next : RespParser,
      next.arrayStack = { size := size } :: parser.arrayStack ∧ next.state = .start ∧
        ∀ rest ending, Returns RespParser.step parser (sizeLine '*' size ++ rest) ending ↔
          Returns RespParser.step next rest ending := by
  refine ⟨{ (parser.typed .arraySize).advance ((toDecimal size).length + 2) with
    arrayStack := { size := size } :: parser.arrayStack, state := .start }, rfl, rfl,
    fun rest ending => ?_⟩
  have spelled : sizeLine '*' size ++ rest = ascii '*' :: (toDecimal size ++ crlf ++ rest) := by
    simp [sizeLine, toDecimal]
  have reserves : ¬ RespParser.maxElements < size := by
    rw [RespParser.maxElements]
    omega
  rw [spelled, returns_typed start rfl (by simp [crlf])]
  show (RespParser.parseArraySize _ _).Ends _ _ ↔ _
  rw [RespParser.parseArraySize, withInteger_toDecimal (by omega) (by omega)
    (validSize_of_lt (by omega) (by omega)), if_neg (by omega), if_neg (by omega),
    if_neg reserves]
  have room : ¬ RespParser.kMaxNestingDepth ≤ ((parser.typed .arraySize).advance
      ((toDecimal size).length + 2)).arrayStack.length := Nat.not_le.mpr shallow
  rw [if_neg room]
  rfl

/-- **Elements that are not the last** are collected in the context. -/
theorem returns_front {front : List RespValue} (readable : ∀ value ∈ front, value.Readable)
    (unfilled : ∀ value ∈ front, value.filled = false) {size count : Nat}
    {elements : List RespValue} {outer : List ArrayContext} (start : parser.state = .start)
    (stack : parser.arrayStack = { size := size, count := count, elements := elements } :: outer)
    (more : count + front.length < size) :
    ∃ next : RespParser,
      next.arrayStack =
        { size := size, count := count + front.length, elements := elements ++ front } :: outer ∧
        next.state = .start ∧ ∀ rest ending,
          Returns RespParser.step parser (RespValue.encodeAll front ++ rest) ending ↔
            Returns RespParser.step next rest ending := by
  induction front generalizing parser count elements with
  | nil => exact ⟨parser, by simpa using stack, start, fun _ _ => Iff.rfl⟩
  | cons value front ih =>
    rw [List.length_cons] at more
    obtain ⟨done, sameStack, returns⟩ := returns_value start (readable value List.mem_cons_self)
      (unfilled value List.mem_cons_self)
    let onward : RespParser := { done with
      arrayStack :=
        { size := size, count := count + 1, elements := elements ++ [value] } :: outer
      state := .start }
    obtain ⟨next, stack', start', later⟩ :=
      ih (fun other member => readable other (List.mem_cons_of_mem _ member))
        (fun other member => unfilled other (List.mem_cons_of_mem _ member))
        (show onward.state = .start from rfl) (show onward.arrayStack = _ from rfl) (by omega)
    refine ⟨next, ?_, start', fun rest ending => ?_⟩
    · rw [stack', List.append_assoc, List.singleton_append, List.length_cons, Nat.add_assoc,
        Nat.add_comm 1]
    · have goes : done.finish value (RespValue.encodeAll front ++ rest) =
          .more onward (RespValue.encodeAll front ++ rest) := by
        rw [RespParser.finish, sameStack, stack]
        exact if_neg (show ¬ size ≤ count + 1 by omega)
      rw [RespValue.encodeAll, List.append_assoc, returns, goes]
      exact later rest ending

theorem encodeAll_append (front back : List RespValue) :
    RespValue.encodeAll (front ++ back) =
      RespValue.encodeAll front ++ RespValue.encodeAll back := by
  induction front with
  | nil => rfl
  | cons value front ih =>
    rw [List.cons_append, RespValue.encodeAll, RespValue.encodeAll, ih, List.append_assoc]

/-- **The elements of an array**, none of them with elements of its own: the last one completes
it. -/
theorem returns_elements {values : List RespValue} (some : values ≠ [])
    (readable : ∀ value ∈ values, value.Readable)
    (unfilled : ∀ value ∈ values, value.filled = false) {outer : List ArrayContext}
    (start : parser.state = .start)
    (stack : parser.arrayStack = { size := values.length } :: outer) (later : Bytes) :
    ∃ last, Returns RespParser.step parser (RespValue.encodeAll values ++ later)
      (.halted (.success (.array values)) last later) := by
  obtain ⟨front, value, rfl⟩ := (List.eq_nil_or_concat values).resolve_left some
  rw [List.concat_eq_append] at *
  have inFront (other : RespValue) (member : other ∈ front) : other ∈ front ++ [value] :=
    List.mem_append_left _ member
  have final : value ∈ front ++ [value] := List.mem_append_right _ List.mem_cons_self
  have size : (front ++ [value]).length = front.length + 1 := by simp
  obtain ⟨next, stack', start', collects⟩ :=
    returns_front (fun other member => readable other (inFront other member))
      (fun other member => unfilled other (inFront other member)) start stack (by omega)
  obtain ⟨done, sameStack, returns⟩ :=
    returns_value start' (readable value final) (unfilled value final)
  have completes : done.finish value later =
      .halt (.success (.array (front ++ [value])))
        { done with arrayStack := outer, state := .start } later := by
    rw [RespParser.finish, sameStack, stack']
    exact if_pos (show (front ++ [value]).length ≤ 0 + front.length + 1 by omega)
  refine ⟨{ done with arrayStack := outer, state := .start }, ?_⟩
  rw [encodeAll_append, List.append_assoc, collects, RespValue.encodeAll, RespValue.encodeAll,
    List.append_nil, returns, completes]
  rfl

end Values

/-! ### Whole values -/

/-- The parser, given these bytes and whatever follows, takes exactly these and returns the
value. -/
def Awaits (parser : RespParser) (bytes : Bytes) (value : RespValue) : Prop :=
  bytes ≠ [] ∧ ∀ later, ∃ last,
    Returns RespParser.step parser (bytes ++ later) (.halted (.success value) last later)

theorem encode_ne_nil (value : RespValue) : value.encode ≠ [] := by
  cases value <;> simp [RespValue.encode, text]

/-- **A fresh parser awaits every array** none of whose elements has elements of its own. -/
theorem awaits_array {values : List RespValue} (some : values ≠ []) (few : values.length < 2 ^ 59)
    (readable : ∀ value ∈ values, value.Readable)
    (unfilled : ∀ value ∈ values, value.filled = false) :
    Awaits {} (RespValue.array values).encode (.array values) := by
  refine ⟨encode_ne_nil _, fun later => ?_⟩
  have fresh : ({} : RespParser).state = .start := rfl
  obtain ⟨next, stack, start, header⟩ :=
    returns_header fresh (List.length_pos_iff.mpr some) few (by decide)
  obtain ⟨last, elements⟩ := returns_elements some readable unfilled start stack later
  refine ⟨last, ?_⟩
  rw [RespValue.encode, List.append_assoc]
  exact (header _ _).mpr elements

theorem RespValue.eq_array_of_filled {value : RespValue} (filled : value.filled = true) :
    ∃ values, values ≠ [] ∧ value = .array values := by
  cases value with
  | array values =>
    refine ⟨values, ?_, rfl⟩
    rintro rfl
    cases filled
  | _ => cases filled

/-- **A fresh parser awaits every flat value.** -/
theorem awaits_flat {value : RespValue} (readable : value.Every RespValue.Readable)
    (flat : value.Flat) : Awaits {} value.encode value := by
  cases filled : value.filled with
  | true =>
    obtain ⟨values, some, rfl⟩ := RespValue.eq_array_of_filled filled
    exact awaits_array some readable.here
      (fun element member => (readable.inside element member).here)
      flat
  | false =>
    refine ⟨encode_ne_nil value, fun later => ?_⟩
    have fresh : ({} : RespParser).state = .start := rfl
    obtain ⟨done, sameStack, returns⟩ := returns_value fresh readable.here filled
    have completes : done.finish value later =
        .halt (.success value) { done with state := .start } later := by
      rw [RespParser.finish, sameStack]
    refine ⟨{ done with state := .start }, ?_⟩
    rw [returns, completes]
    rfl

end SunKV.Protocol
