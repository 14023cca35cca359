/-
**The decoder of the client.**

`parseRespValue` looks at the bytes received so far, from the start each time. The recursion of
`parseOne` over arrays is cut open: `parseStep` is its body with the recursive call as a parameter,
and `parseOne` supplies that call with fuel; the length of the input is always enough, so
`parseRespValue` satisfies the equation of the source (`parseRespValue_eq`).

* `parseRespValue_stable` — a result other than "incomplete" is final, whatever arrives later.
* `reads_encode` — the encoding of a value is decoded to what it means to the client, a value of its
  own or, where there is a null array inside, an error.
-/

import SunKV.Lib.Streaming
import SunKV.Protocol.Encode

namespace SunKV.Client

open SunKV.Lib SunKV.Protocol

/-- `struct RespValue` of the client, one case for each `RespType`. -/
inductive RespValue
  | simpleString (str : Bytes)
  | error (str : Bytes)
  | integer (value : Int)
  | bulkString (str : Bytes)
  | array (elems : List RespValue)
  | nullBulkString

/-- How parsing fails: with an error, or in `std::length_error`. -/
inductive Fault
  | error (message : Bytes)
  | thrown

/-- `struct RespParseResult`, and the exception a call may end with instead. -/
abbrev RespParseResult := Outcome RespValue Fault

/-! ### Parsing -/

/-- The error of a message. -/
def fault (message : String) : Fault := .error (text message)

/-- **`parseInt64`**: `std::from_chars` has to take the whole string. -/
def parseInt64 (s : Bytes) : Option Int :=
  let negative := s.head? = some (ascii '-')
  let digits := if negative then s.tail else s
  let value : Int := if negative then -decimalValue digits else decimalValue digits
  if digits.isEmpty ∨ ¬ digits.all isDigit ∨ value < -2 ^ 63 ∨ 2 ^ 63 ≤ value then none
  else some value

/-- A case that reads a line behind the type character. -/
def withLine (body : Bytes) (use : Bytes → Bytes → RespParseResult) : RespParseResult :=
  match splitLine body with
  | none => .incomplete
  | some (line, rest) => use line rest

/-- The types that are a line. -/
def parseLine (type : UInt8) (payload : Bytes) : RespParseResult :=
  let consumed := payload.length + 3
  if type = ascii '+' then .complete (.simpleString payload) consumed
  else if type = ascii '-' then .complete (.error payload) consumed
  else
    match parseInt64 payload with
    | none => .failed (fault "invalid integer response")
    | some value => .complete (.integer value) consumed

/-- The body of a bulk string of this length, which begins at `dataBegin`. -/
def parseBody (dataBegin len : Nat) (rest : Bytes) : RespParseResult :=
  if rest.length < len + 2 then .incomplete
  else if (rest.drop len).take 2 ≠ crlf then
    .failed (fault "missing CRLF after bulk string body")
  else .complete (.bulkString (rest.take len)) (dataBegin + len + 2)

/-- The type `$`. -/
def parseBulk (line rest : Bytes) : RespParseResult :=
  match parseInt64 line with
  | none => .failed (fault "invalid bulk string length")
  | some len =>
    if len = -1 then .complete .nullBulkString (line.length + 3)
    else if len < -1 then .failed (fault "negative bulk string length")
    else parseBody (line.length + 3) len.toNat rest

/-- `max_size()` of a vector of values, which take 72 bytes each; `reserve` throws above it. -/
def maxElements : Int := (2 ^ 63 - 1) / 72

/-- The type `*`; `sub` is the recursive call. -/
def parseArray (sub : Bytes → RespParseResult) (line rest : Bytes) : RespParseResult :=
  match parseInt64 line with
  | none => .failed (fault "invalid array length")
  | some n =>
    if n < 0 then .failed (fault "negative array length is unsupported")
    else if maxElements < n then .failed .thrown
    else
      (repeated sub (fault "array element consumed 0 bytes") n.toNat rest (line.length + 3) []).map
        .array

/-- The body of `parseOne`. -/
def parseStep (sub : Bytes → RespParseResult) : Bytes → RespParseResult
  | [] => .incomplete
  | type :: body =>
    if type = ascii '+' ∨ type = ascii '-' ∨ type = ascii ':' then
      withLine body fun payload _ => parseLine type payload
    else if type = ascii '$' then withLine body parseBulk
    else if type = ascii '*' then withLine body (parseArray sub)
    else .failed (.error (text "unsupported RESP prefix: " ++ [type]))

/-- **`parseOne`.** -/
def parseOne : Nat → Bytes → RespParseResult
  | 0, _ => .incomplete
  | fuel + 1, input => parseStep (parseOne fuel) input

/-- **`parseRespValue`.** -/
def parseRespValue (input : Bytes) : RespParseResult := parseOne (input.length + 1) input

/-! ### Answers are final -/

section Stable

variable {sub other : Bytes → RespParseResult}

theorem withLine_extends {body : Bytes} {use use' : Bytes → Bytes → RespParseResult}
    (keeps : ∀ line rest later, use line rest ≠ .incomplete →
      use' line (rest ++ later) = use line rest)
    (answered : withLine body use ≠ .incomplete) (later : Bytes) :
    withLine (body ++ later) use' = withLine body use := by
  unfold withLine at answered ⊢
  cases found : splitLine body with
  | none =>
    rw [found] at answered
    exact absurd rfl answered
  | some split =>
    rw [found] at answered
    rw [splitLine_append found]
    exact keeps _ _ _ answered

theorem parseBody_extends {dataBegin len : Nat} {rest : Bytes}
    (answered : parseBody dataBegin len rest ≠ .incomplete) (later : Bytes) :
    parseBody dataBegin len (rest ++ later) = parseBody dataBegin len rest := by
  unfold parseBody at answered ⊢
  by_cases short : rest.length < len + 2
  · rw [if_pos short] at answered
    exact absurd rfl answered
  · have enough : ¬ (rest ++ later).length < len + 2 := by
      rw [List.length_append]
      omega
    have ends : ((rest ++ later).drop len).take 2 = (rest.drop len).take 2 := by
      rw [List.drop_append_of_le_length (by omega),
        List.take_append_of_le_length (by rw [List.length_drop]; omega)]
    have body : (rest ++ later).take len = rest.take len :=
      List.take_append_of_le_length (by omega)
    rw [if_neg short, if_neg enough, ends, body]

theorem parseBulk_extends (line rest later : Bytes) (answered : parseBulk line rest ≠ .incomplete) :
    parseBulk line (rest ++ later) = parseBulk line rest := by
  unfold parseBulk at answered ⊢
  cases found : parseInt64 line with
  | none => rfl
  | some len =>
    rw [found] at answered
    dsimp only at answered ⊢
    split_ifs at answered ⊢
    · rfl
    · rfl
    · exact parseBody_extends answered later

theorem parseArray_extends (keeps : Extends sub other) (bounded : Bounded sub)
    (line rest later : Bytes) (answered : parseArray sub line rest ≠ .incomplete) :
    parseArray other line (rest ++ later) = parseArray sub line rest := by
  unfold parseArray at answered ⊢
  cases found : parseInt64 line with
  | none => rfl
  | some n =>
    rw [found] at answered
    dsimp only at answered ⊢
    split_ifs at answered ⊢
    · rfl
    · rfl
    · rw [ne_eq, Outcome.map_eq_incomplete] at answered
      rw [keeps.repeated bounded answered]

theorem parseStep_extends (keeps : Extends sub other) (bounded : Bounded sub) :
    Extends (parseStep sub) (parseStep other) := by
  intro input later answered
  cases input with
  | nil => exact absurd rfl answered
  | cons type body =>
    rw [List.cons_append]
    dsimp only [parseStep] at answered ⊢
    split_ifs at answered ⊢
    · exact withLine_extends (fun _ _ _ _ => rfl) answered later
    · exact withLine_extends parseBulk_extends answered later
    · exact withLine_extends (parseArray_extends keeps bounded) answered later
    · rfl

theorem withLine_bounded {body : Bytes} {use : Bytes → Bytes → RespParseResult} {value : RespValue}
    {consumed : Nat}
    (bounded : ∀ line rest, use line rest = .complete value consumed →
      consumed ≤ line.length + 3 + rest.length)
    (complete : withLine body use = .complete value consumed) : consumed ≤ body.length + 1 := by
  unfold withLine at complete
  cases found : splitLine body with
  | none =>
    rw [found] at complete
    cases complete
  | some split =>
    rw [found] at complete
    have taken := bounded _ _ complete
    have total := congrArg List.length (eq_of_splitLine found)
    simp only [List.length_append, List.length_cons, List.length_nil] at total
    omega

theorem parseLine_bounded {type : UInt8} {payload : Bytes} {value : RespValue} {consumed : Nat}
    (complete : parseLine type payload = .complete value consumed) :
    consumed = payload.length + 3 := by
  unfold parseLine at complete
  dsimp only at complete
  split_ifs at complete
  · cases complete
    rfl
  · cases complete
    rfl
  · cases found : parseInt64 payload with
    | none =>
      rw [found] at complete
      cases complete
    | some number =>
      rw [found] at complete
      cases complete
      rfl

theorem parseBulk_bounded {line rest : Bytes} {value : RespValue} {consumed : Nat}
    (complete : parseBulk line rest = .complete value consumed) :
    consumed ≤ line.length + 3 + rest.length := by
  unfold parseBulk at complete
  cases found : parseInt64 line with
  | none =>
    rw [found] at complete
    cases complete
  | some len =>
    rw [found] at complete
    dsimp only [parseBody] at complete
    split_ifs at complete
    · cases complete
      omega
    · cases complete
      omega

theorem parseArray_bounded (bounded : Bounded sub) {line rest : Bytes} {value : RespValue}
    {consumed : Nat} (complete : parseArray sub line rest = .complete value consumed) :
    consumed ≤ line.length + 3 + rest.length := by
  unfold parseArray at complete
  cases found : parseInt64 line with
  | none =>
    rw [found] at complete
    cases complete
  | some n =>
    rw [found] at complete
    dsimp only at complete
    split_ifs at complete
    obtain ⟨elements, all⟩ := Outcome.map_eq_complete complete
    exact bounded.repeated all

theorem parseStep_bounded (bounded : Bounded sub) : Bounded (parseStep sub) := by
  intro input value consumed complete
  cases input with
  | nil => cases complete
  | cons type body =>
    rw [List.length_cons]
    dsimp only [parseStep] at complete
    split_ifs at complete
    · refine withLine_bounded (fun line rest line_complete => ?_) complete
      rw [parseLine_bounded line_complete]
      exact Nat.le_add_right _ _
    · exact withLine_bounded (fun _ _ => parseBulk_bounded) complete
    · exact withLine_bounded (fun _ _ => parseArray_bounded bounded) complete

theorem parseOne_bounded (fuel : Nat) : Bounded (parseOne fuel) := by
  induction fuel with
  | zero => exact fun _ _ _ complete => by cases complete
  | succ fuel ih => exact parseStep_bounded ih

theorem parseOne_extends {fuel more : Nat} (enough : fuel ≤ more) :
    Extends (parseOne fuel) (parseOne more) := by
  induction fuel generalizing more with
  | zero => exact fun _ _ answered => absurd rfl answered
  | succ fuel ih =>
    cases more with
    | zero => exact absurd enough (Nat.not_succ_le_zero fuel)
    | succ more =>
      exact parseStep_extends (ih (Nat.succ_le_succ_iff.mp enough)) (parseOne_bounded fuel)

/-- **A result is final.** -/
theorem parseRespValue_stable : Stable parseRespValue where
  keeps input later answered := by
    refine parseOne_extends ?_ input later answered
    rw [List.length_append]
    omega
  bounded input := parseOne_bounded _ input

end Stable

/-! ### The recursion -/

section Recursion

variable {sub other : Bytes → RespParseResult} {input : Bytes}

theorem parseArray_congr {line rest : Bytes}
    (same : ∀ part : Bytes, part.length ≤ rest.length → sub part = other part) :
    parseArray sub line rest = parseArray other line rest := by
  unfold parseArray
  cases parseInt64 line with
  | none => rfl
  | some n =>
    dsimp only
    rw [repeated_congr same]

/-- The recursive calls are on shorter input. -/
theorem parseStep_congr
    (same : ∀ part : Bytes, part.length < input.length → sub part = other part) :
    parseStep sub input = parseStep other input := by
  cases input with
  | nil => rfl
  | cons type body =>
    have elements : withLine body (parseArray sub) = withLine body (parseArray other) := by
      unfold withLine
      cases found : splitLine body with
      | none => rfl
      | some split =>
        refine parseArray_congr fun part short => same part ?_
        have total := congrArg List.length (eq_of_splitLine found)
        rw [List.length_append] at total
        rw [List.length_cons]
        omega
    dsimp only [parseStep]
    rw [elements]

/-- Fuel for every byte is enough. -/
theorem parseOne_eq {fuel more : Nat} (enough : input.length < fuel)
    (enough' : input.length < more) :
    parseOne fuel input = parseOne more input := by
  induction fuel generalizing input more with
  | zero => exact absurd enough (Nat.not_lt_zero _)
  | succ fuel ih =>
    cases more with
    | zero => exact absurd enough' (Nat.not_lt_zero _)
    | succ more => exact parseStep_congr fun part shorter => ih (by omega) (by omega)

/-- **The equation of `parseOne` in the source.** -/
theorem parseRespValue_eq (input : Bytes) : parseRespValue input = parseStep parseRespValue input :=
  parseStep_congr fun part shorter => parseOne_eq shorter (Nat.lt_succ_self part.length)

end Recursion

/-! ### Encodings are decoded -/

/-- **A value as it can be sent**: no line end in a simple string or an error, an integer of 64
bits, a length that one of them can hold, and as many elements as fit a vector of the client. -/
def Sendable : Protocol.RespValue → Prop
  | .simpleString value => ¬ crlf <:+: value
  | .error message => ¬ crlf <:+: message
  | .integer value => -2 ^ 63 ≤ value ∧ value < 2 ^ 63
  | .bulkString value => value.length < 2 ^ 63
  | .array values => values.length ≤ maxElements
  | .nullBulkString | .nullArray => True

instance (value : Protocol.RespValue) : Decidable (Sendable value) :=
  match value with
  | .simpleString value => inferInstanceAs (Decidable (¬ crlf <:+: value))
  | .error message => inferInstanceAs (Decidable (¬ crlf <:+: message))
  | .integer value => inferInstanceAs (Decidable (-2 ^ 63 ≤ value ∧ value < 2 ^ 63))
  | .bulkString value => inferInstanceAs (Decidable (value.length < 2 ^ 63))
  | .array values => inferInstanceAs (Decidable ((values.length : Int) ≤ maxElements))
  | .nullBulkString | .nullArray => isTrue trivial

mutual

/-- **What a value means to the client**, which has no null arrays. -/
def meaning : Protocol.RespValue → Except Fault RespValue
  | .simpleString value => .ok (.simpleString value)
  | .error message => .ok (.error message)
  | .integer value => .ok (.integer value)
  | .bulkString value => .ok (.bulkString value)
  | .nullBulkString => .ok .nullBulkString
  | .array values => (meanings values).map .array
  | .nullArray => .error (fault "negative array length is unsupported")

/-- What elements mean: the first that is refused decides. -/
def meanings : List Protocol.RespValue → Except Fault (List RespValue)
  | [] => .ok []
  | value :: values =>
    match meaning value with
    | .error error => .error error
    | .ok reply => (meanings values).map (reply :: ·)

end

theorem parseInt64_toDecimal {value : Int} (low : -2 ^ 63 ≤ value) (high : value < 2 ^ 63) :
    parseInt64 (toDecimal value) = some value := by
  cases value with
  | ofNat number =>
    obtain ⟨first, rest, shape⟩ := List.exists_cons_of_ne_nil (decimal_ne_nil number)
    have positive : (decimal number).head? ≠ some (ascii '-') := by
      rw [shape, List.head?_cons]
      rintro same
      have isNumeral := decimal_digits number first (by rw [shape]; exact List.mem_cons_self)
      rw [Option.some.inj same] at isNumeral
      revert isNumeral
      decide
    have digits : (decimal number).all isDigit = true :=
      List.all_eq_true.mpr (decimal_digits number)
    have some : (decimal number).isEmpty = false := by simp [decimal_ne_nil]
    have small : number < 2 ^ 63 := Int.ofNat_lt.mp high
    simp only [parseInt64, toDecimal, positive, if_false, digits, some, decimalValue_decimal]
    exact if_neg (by simp; omega)
  | negSucc number =>
    have digits : (decimal (number + 1)).all isDigit = true :=
      List.all_eq_true.mpr (decimal_digits (number + 1))
    have some : (decimal (number + 1)).isEmpty = false := by simp [decimal_ne_nil]
    have minus : (45 : UInt8) = ascii '-' := rfl
    simp only [parseInt64, toDecimal, List.head?_cons, minus, if_true, List.tail_cons, digits, some,
      decimalValue_decimal]
    rw [if_neg (by simp; omega)]
    rfl

theorem withLine_line {line : Bytes} (plain : ¬ crlf <:+: line)
    (use : Bytes → Bytes → RespParseResult) (rest : Bytes) :
    withLine (line ++ crlf ++ rest) use = use line rest := by
  rw [withLine, splitLine_line plain]

/-- A value that is one line. -/
theorem reads_line {type : UInt8} {payload : Bytes}
    (kind : type = ascii '+' ∨ type = ascii '-' ∨ type = ascii ':') (plain : ¬ crlf <:+: payload)
    (rest : Bytes) :
    parseRespValue ([type] ++ payload ++ crlf ++ rest) = parseLine type payload := by
  have spelled : [type] ++ payload ++ crlf ++ rest = type :: (payload ++ crlf ++ rest) := by simp
  rw [spelled, parseRespValue_eq]
  dsimp only [parseStep]
  rw [if_pos kind, withLine_line plain]

/-- The line of a length, behind `$`. -/
theorem reads_length {size : Int} (low : -2 ^ 63 ≤ size) (high : size < 2 ^ 63) (rest : Bytes) :
    parseRespValue ([ascii '$'] ++ toDecimal size ++ crlf ++ rest) =
      if size = -1 then .complete .nullBulkString ((toDecimal size).length + 3)
      else if size < -1 then .failed (fault "negative bulk string length")
      else parseBody ((toDecimal size).length + 3) size.toNat rest := by
  have spelled : [ascii '$'] ++ toDecimal size ++ crlf ++ rest =
      ascii '$' :: (toDecimal size ++ crlf ++ rest) := by simp
  rw [spelled, parseRespValue_eq]
  dsimp only [parseStep]
  rw [if_neg (by decide), if_pos rfl, withLine_line (plain_toDecimal _), parseBulk,
    parseInt64_toDecimal low high]

/-- A bulk string. -/
theorem reads_bulkString {value : Bytes} (fits : value.length < 2 ^ 63) :
    Reads parseRespValue (Protocol.RespValue.bulkString value).encode
      (.ok (.bulkString value)) := by
  intro rest
  have spelled : (Protocol.RespValue.bulkString value).encode ++ rest =
      [ascii '$'] ++ toDecimal value.length ++ crlf ++ (value ++ (crlf ++ rest)) := by
    simp [Protocol.RespValue.encode, toDecimal]
  have size : (Protocol.RespValue.bulkString value).encode.length =
      (toDecimal value.length).length + 3 + value.length + 2 := by
    simp [Protocol.RespValue.encode, toDecimal, crlf]
    omega
  have enough : ¬ (value ++ (crlf ++ rest)).length < value.length + 2 := by
    simp [crlf]
  rw [spelled, reads_length (by omega) (by omega), if_neg (by omega), if_neg (by omega),
    Int.toNat_natCast, parseBody, if_neg enough, List.drop_left, List.take_left,
    if_neg (by simp [crlf]), settled, size]

/-- The header of an array. -/
theorem reads_header {size : Int} (low : -2 ^ 63 ≤ size) (high : size < 2 ^ 63) (rest : Bytes) :
    parseRespValue ([ascii '*'] ++ toDecimal size ++ crlf ++ rest) =
      if size < 0 then .failed (fault "negative array length is unsupported")
      else if maxElements < size then .failed .thrown
      else
        (repeated parseRespValue (fault "array element consumed 0 bytes") size.toNat rest
          ((toDecimal size).length + 3) []).map .array := by
  have spelled : [ascii '*'] ++ toDecimal size ++ crlf ++ rest =
      ascii '*' :: (toDecimal size ++ crlf ++ rest) := by simp
  rw [spelled, parseRespValue_eq]
  dsimp only [parseStep]
  rw [if_neg (by decide), if_neg (by decide), if_pos rfl, withLine_line (plain_toDecimal _),
    parseArray, parseInt64_toDecimal low high]

/-- **The elements of an array** are decoded one after the other. -/
theorem repeated_encodeAll {stuck : Fault} {values : List Protocol.RespValue}
    (reads : ∀ value ∈ values, Reads parseRespValue value.encode (meaning value)) (rest : Bytes)
    (offset : Nat) (replies : List RespValue) :
    repeated parseRespValue stuck values.length (Protocol.RespValue.encodeAll values ++ rest) offset
        replies =
      settled (offset + (Protocol.RespValue.encodeAll values).length)
        ((meanings values).map (replies ++ ·)) := by
  induction values generalizing offset replies with
  | nil => simp [repeated, meanings, settled, Protocol.RespValue.encodeAll, Except.map]
  | cons value values ih =>
    have first := reads value List.mem_cons_self (Protocol.RespValue.encodeAll values ++ rest)
    have later := ih fun other member => reads other (List.mem_cons_of_mem _ member)
    rw [Protocol.RespValue.encodeAll, List.append_assoc, List.length_cons, meanings]
    cases decoded : meaning value with
    | error error =>
      rw [decoded] at first
      exact repeated_failed first
    | ok reply =>
      rw [decoded] at first
      have some : value.encode.length ≠ 0 :=
        fun nothing => encode_ne_nil value (List.length_eq_zero_iff.mp nothing)
      rw [repeated_complete first some, List.drop_left, later, List.length_append, ← Nat.add_assoc]
      cases meanings values with
      | error error => rfl
      | ok others =>
        simp only [Except.map, List.append_assoc, List.singleton_append]

/-- **The encoding of a value is decoded to its meaning.** -/
theorem reads_encode {value : Protocol.RespValue} (sendable : value.Every Sendable) :
    Reads parseRespValue value.encode (meaning value) := by
  induction sendable with
  | @leaf value scalar here =>
    intro rest
    cases value with
    | simpleString line =>
      refine (reads_line (Or.inl rfl) here rest).trans ?_
      simp [parseLine, meaning, settled, Protocol.RespValue.encode, crlf]
    | error line =>
      refine (reads_line (Or.inr (Or.inl rfl)) here rest).trans ?_
      simp [parseLine, meaning, settled, Protocol.RespValue.encode, crlf, ascii]
    | integer number =>
      refine (reads_line (Or.inr (Or.inr rfl)) (plain_toDecimal number) rest).trans ?_
      rw [parseLine, if_neg (by decide), if_neg (by decide), parseInt64_toDecimal here.1 here.2]
      simp [meaning, settled, Protocol.RespValue.encode, crlf]
    | bulkString value => exact reads_bulkString here rest
    | nullBulkString => exact reads_length (by decide : (-2 : Int) ^ 63 ≤ -1) (by decide) rest
    | nullArray =>
      exact (reads_header (by decide : (-2 : Int) ^ 63 ≤ -1) (by decide) rest).trans rfl
    | array values => exact absurd rfl (scalar values)
  | @array values here inside ih =>
    intro rest
    have spelled : (Protocol.RespValue.array values).encode ++ rest =
        [ascii '*'] ++ toDecimal values.length ++ crlf ++
          (Protocol.RespValue.encodeAll values ++ rest) := by
      simp [Protocol.RespValue.encode, toDecimal]
    have size : (Protocol.RespValue.array values).encode.length =
        (toDecimal values.length).length + 3 + (Protocol.RespValue.encodeAll values).length := by
      simp [Protocol.RespValue.encode, toDecimal, crlf]
      omega
    have few : (values.length : Int) ≤ (2 ^ 63 - 1) / 72 := here
    rw [spelled, reads_header (by omega) (by omega), if_neg (by omega),
      if_neg (Int.not_lt.mpr here),
      Int.toNat_natCast, repeated_encodeAll ih, size, meaning]
    cases meanings values with
    | error error => rfl
    | ok replies => rfl

end SunKV.Client
