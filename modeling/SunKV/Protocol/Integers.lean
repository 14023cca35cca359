/-
**Integers on the wire.**

`numeral?` is the grammar of an integer line, an optional minus and at least one digit, with the
number it stands for. The parser reads such a line with a loop that stops at an overflow, applies
the sign at the end, and says with `LLONG_MAX` that something was wrong.

* `parseDigits_eq` — the loop gives the number as long as it is at most `LLONG_MAX`.
* `parseInteger_of_some`, `parseInteger_of_none` — what `parseInteger` returns, from the grammar.
* `integer_grammar_iff` — the parser follows the grammar except on a minus alone and on the two
  ends of the range; so all integers but these two are read back from what the serializer writes.
-/

import SunKV.Protocol.Call
import SunKV.Protocol.Encode
import SunKV.Protocol.Serializer

namespace SunKV.Protocol

open SunKV.Lib

/-! ### The grammar -/

/-- The number of a string of digits, of at least one. -/
def digits? (digits : Bytes) : Option Nat :=
  if digits ≠ [] ∧ digits.all isDigit then some (decimalValue digits) else none

/-- **The number an integer line stands for**: an optional minus, and digits. -/
def numeral? : Bytes → Option Int
  | [] => none
  | first :: rest =>
    if first = ascii '-' then (digits? rest).map fun number : Nat => -(number : Int)
    else (digits? (first :: rest)).map fun number : Nat => (number : Int)

/-- The range of `int64_t`. -/
def InInt64 (value : Int) : Prop := -2 ^ 63 ≤ value ∧ value < 2 ^ 63

/-! ### The digits loop -/

/-- The number read so far, and then some digits. -/
def decimalFrom (start : Nat) (digits : Bytes) : Nat :=
  digits.foldl (fun value byte => value * 10 + digitValue byte) start

theorem le_decimalFrom (start : Nat) (digits : Bytes) : start ≤ decimalFrom start digits := by
  induction digits generalizing start with
  | nil => exact le_rfl
  | cons byte digits ih =>
    have grown : start ≤ start * 10 + digitValue byte := by omega
    exact grown.trans (ih _)

theorem isDigit_iff (byte : UInt8) :
    isDigit byte = true ↔ ¬ (byte < ascii '0' ∨ ascii '9' < byte) := by
  rw [isDigit, Bool.and_eq_true, decide_eq_true_eq, decide_eq_true_eq, not_or, UInt8.not_lt,
    UInt8.not_lt]
  rfl

/-- **The loop reads the number up to `LLONG_MAX`.** -/
theorem parseDigits_eq (digits : Bytes) {start : Nat} (small : start < 2 ^ 63) :
    parseDigits digits start =
      if digits.all isDigit ∧ decimalFrom start digits < 2 ^ 63 then
        some (decimalFrom start digits)
      else none := by
  induction digits generalizing start with
  | nil => exact (if_pos ⟨rfl, small⟩).symm
  | cons byte digits ih =>
    by_cases outside : byte < ascii '0' ∨ ascii '9' < byte
    · have other : isDigit byte = false :=
        Bool.eq_false_iff.mpr fun found => (isDigit_iff byte).mp found outside
      rw [parseDigits, if_pos outside, List.all_cons, other, Bool.false_and]
      simp
    · have found : isDigit byte = true := (isDigit_iff byte).mpr outside
      have low : digitValue byte ≤ 9 := by
        have nine : byte.toNat ≤ 57 :=
          UInt8.le_iff_toNat_le.mp (UInt8.not_lt.mp (not_or.mp outside).2)
        unfold digitValue
        omega
      have next : decimalFrom start (byte :: digits) =
          decimalFrom (start * 10 + digitValue byte) digits := rfl
      rw [parseDigits, if_neg outside, List.all_cons, found, Bool.true_and, next]
      show (if (2 ^ 63 - 1 - digitValue byte) / 10 < start then none
        else parseDigits digits (start * 10 + digitValue byte)) = _
      split
      case isTrue overflow =>
        have grows := le_decimalFrom (start * 10 + digitValue byte) digits
        rw [if_neg]
        omega
      case isFalse fits => exact ih (by omega)

/-! ### What is returned -/

theorem parseDigits_of_some {digits : Bytes} {number : Nat}
    (denotes : digits? digits = some number) :
    parseDigits digits 0 = if number < 2 ^ 63 then some number else none := by
  rw [digits?] at denotes
  split at denotes
  case isTrue wellFormed =>
    obtain rfl := Option.some.inj denotes
    rw [parseDigits_eq digits (Nat.two_pow_pos 63), wellFormed.2]
    simp only [true_and]
    rfl
  case isFalse => cases denotes

theorem parseDigits_of_none {digits : Bytes} (nothing : digits? digits = none)
    (some : digits ≠ []) : parseDigits digits 0 = none := by
  rw [digits?] at nothing
  split at nothing
  case isTrue => cases nothing
  case isFalse malformed =>
    rw [parseDigits_eq digits (Nat.two_pow_pos 63), if_neg]
    exact fun fine => malformed ⟨some, fine.1⟩

/-- **A numeral is read up to `LLONG_MAX`**, in absolute value. -/
theorem parseInteger_of_some {line : Bytes} {value : Int} (denotes : numeral? line = some value) :
    parseInteger line = if -2 ^ 63 < value ∧ value < 2 ^ 63 then value else llongMax := by
  cases line with
  | nil => cases denotes
  | cons first rest =>
    rw [numeral?] at denotes
    rw [parseInteger]
    split at denotes
    case isTrue minus =>
      obtain ⟨number, digits, rfl⟩ := Option.map_eq_some_iff.mp denotes
      rw [if_pos minus, parseDigits_of_some digits]
      by_cases fits : number < 2 ^ 63
      · rw [if_pos fits, if_pos (by omega)]
      · rw [if_neg fits, if_neg (by omega)]
    case isFalse unsigned =>
      obtain ⟨number, digits, rfl⟩ := Option.map_eq_some_iff.mp denotes
      rw [if_neg unsigned, parseDigits_of_some digits]
      by_cases fits : number < 2 ^ 63
      · rw [if_pos fits, if_pos (by omega)]
      · rw [if_neg fits, if_neg (by omega)]

/-- **Anything else is refused**, but for a minus alone. -/
theorem parseInteger_of_none {line : Bytes} (nothing : numeral? line = none)
    (longer : line ≠ [ascii '-']) : parseInteger line = llongMax := by
  cases line with
  | nil => rfl
  | cons first rest =>
    rw [numeral?] at nothing
    rw [parseInteger]
    split at nothing
    case isTrue minus =>
      have some : rest ≠ [] := by
        rintro rfl
        exact longer (by rw [minus])
      rw [if_pos minus, parseDigits_of_none (Option.map_eq_none_iff.mp nothing) some]
    case isFalse unsigned =>
      rw [if_neg unsigned,
        parseDigits_of_none (Option.map_eq_none_iff.mp nothing) (List.cons_ne_nil _ _)]

/-- The line of an integer, on the wire. -/
def integerLine (line : Bytes) : Bytes := [ascii ':'] ++ line ++ crlf

/-- A fresh parser returns a complete integer. -/
def ReadsInteger (data : Bytes) (value : Int) : Prop :=
  ∃ processed last,
    RespParser.parse {} data = some (.success (.integer value) processed, last)

/-- A fresh parser returns an error. -/
def Refuses (data : Bytes) : Prop :=
  ∃ message last, RespParser.parse {} data = some (.error message, last)

/-- **One line, one call**: the integer, or an error for the sentinel. -/
theorem parse_integerLine {line : Bytes} (plain : ¬ crlf <:+: line) :
    ∃ last, RespParser.parse {} (integerLine line) =
      some (if parseInteger line = llongMax then .error (text "Invalid integer format")
        else .success (.integer (parseInteger line)) (line.length + 3), last) := by
  have some : line ++ crlf ≠ [] := List.append_ne_nil_of_right_ne_nil _ (by decide)
  have whole : splitLine (line ++ crlf) = Option.some (line, []) := by
    have split := splitLine_line plain []
    rwa [List.append_nil] at split
  have typed (ending : Ending RespParser UInt8 Halt) :
      Returns RespParser.step {} (integerLine line) ending ↔
        ((RespParser.typed {} .integer).step (line ++ crlf)).Ends RespParser.step ending :=
    returns_typed rfl rfl some ending
  have step : (RespParser.typed {} .integer).step (line ++ crlf) =
      if parseInteger line ≠ llongMax then
        ((RespParser.typed {} .integer).advance (line.length + 2)).finish
          (.integer (parseInteger line)) []
      else .halt (.error (text "Invalid integer format")) (RespParser.typed {} .integer)
        (line ++ crlf) := by
    show RespParser.parseIntegerValue _ _ = _
    simp only [RespParser.parseIntegerValue, RespParser.withInteger, RespParser.withLine, whole,
      decide_eq_true_eq]
  have data : integerLine line ≠ [] := List.cons_ne_nil _ _
  by_cases sentinel : parseInteger line = llongMax
  · rw [if_neg (not_not.mpr sentinel)] at step
    refine ⟨RespParser.typed {} .integer, (parse_eq_some_iff data).mpr
      ⟨.halted (.error (text "Invalid integer format")) (RespParser.typed {} .integer)
        (line ++ crlf), (typed _).mpr ?_, ?_⟩⟩
    · rw [step]
      rfl
    · rw [if_pos sentinel]
      rfl
  · rw [if_pos sentinel] at step
    have processed : 0 + 1 + (line.length + 2) = line.length + 3 := by omega
    refine ⟨{ state := .start, processedBytes := line.length + 3 }, (parse_eq_some_iff data).mpr
      ⟨.halted (.success (.integer (parseInteger line)))
        { state := .start, processedBytes := 0 + 1 + (line.length + 2) } [], (typed _).mpr ?_, ?_⟩⟩
    · rw [step]
      rfl
    · rw [if_neg sentinel, processed]
      rfl

theorem readsInteger_iff {line : Bytes} (plain : ¬ crlf <:+: line) (value : Int) :
    ReadsInteger (integerLine line) value ↔ parseInteger line = value ∧ value ≠ llongMax := by
  obtain ⟨last, parsed⟩ := parse_integerLine plain
  unfold ReadsInteger
  rw [parsed]
  split
  case isTrue sentinel =>
    constructor
    · rintro ⟨_, _, ⟨⟩⟩
    · rintro ⟨rfl, other⟩
      exact absurd sentinel other
  case isFalse other =>
    constructor
    · rintro ⟨_, _, ⟨⟩⟩
      exact ⟨rfl, other⟩
    · rintro ⟨rfl, -⟩
      exact ⟨_, _, rfl⟩

theorem refuses_iff {line : Bytes} (plain : ¬ crlf <:+: line) :
    Refuses (integerLine line) ↔ parseInteger line = llongMax := by
  obtain ⟨last, parsed⟩ := parse_integerLine plain
  unfold Refuses
  rw [parsed]
  split
  case isTrue sentinel => exact ⟨fun _ => sentinel, fun _ => ⟨_, _, rfl⟩⟩
  case isFalse other =>
    constructor
    · rintro ⟨_, _, ⟨⟩⟩
    · exact fun sentinel => absurd sentinel other

/-! ### The grammar and the parser -/

/-- **The parser does on a line what the grammar says**: it returns a complete integer exactly for
a numeral in the range, and that number; anything else is an error. -/
def FollowsGrammar (line : Bytes) : Prop :=
  (∀ value, ReadsInteger (integerLine line) value ↔ numeral? line = some value ∧ InInt64 value) ∧
    ((∀ value, ¬ (numeral? line = some value ∧ InInt64 value)) → Refuses (integerLine line))

/-- The lines on which it does not: a minus alone, and the two ends of the range. -/
def Misread (line : Bytes) : Prop :=
  line = [ascii '-'] ∨ numeral? line = some (2 ^ 63 - 1) ∨ numeral? line = some (-2 ^ 63)

theorem not_misread_of_followsGrammar {line : Bytes} (plain : ¬ crlf <:+: line)
    (follows : FollowsGrammar line) : ¬ Misread line := by
  rintro (rfl | top | bottom)
  · have read := (readsInteger_iff plain 0).mpr ⟨rfl, by decide⟩
    exact absurd ((follows.1 0).mp read).1 (by decide)
  · have read := (follows.1 _).mpr ⟨top, by constructor <;> decide⟩
    exact ((readsInteger_iff plain _).mp read).2 rfl
  · have read := (follows.1 _).mpr ⟨bottom, by constructor <;> decide⟩
    have value := ((readsInteger_iff plain _).mp read).1
    rw [parseInteger_of_some bottom] at value
    exact absurd value (by decide)

theorem followsGrammar_of_not_misread {line : Bytes} (plain : ¬ crlf <:+: line)
    (fine : ¬ Misread line) : FollowsGrammar line := by
  obtain ⟨longer, top, bottom⟩ : line ≠ [ascii '-'] ∧ numeral? line ≠ some (2 ^ 63 - 1) ∧
      numeral? line ≠ some (-2 ^ 63) := by
    simpa only [Misread, not_or] using fine
  unfold FollowsGrammar
  simp only [readsInteger_iff plain, refuses_iff plain]
  cases denotes : numeral? line with
  | none =>
    rw [parseInteger_of_none denotes longer]
    refine ⟨fun value => ⟨?_, nofun⟩, fun _ => rfl⟩
    rintro ⟨rfl, other⟩
    exact absurd rfl other
  | some number =>
    rw [denotes] at top bottom
    have top : number ≠ 2 ^ 63 - 1 := fun same => top (congrArg some same)
    have bottom : number ≠ -2 ^ 63 := fun same => bottom (congrArg some same)
    have sentinel : llongMax = 2 ^ 63 - 1 := rfl
    rw [parseInteger_of_some denotes]
    by_cases inside : -2 ^ 63 < number ∧ number < 2 ^ 63
    · rw [if_pos inside]
      refine ⟨fun value => ⟨?_, ?_⟩, fun outside => ?_⟩
      · rintro ⟨rfl, -⟩
        exact ⟨rfl, by omega, inside.2⟩
      · rintro ⟨same, -⟩
        obtain rfl := Option.some.inj same
        exact ⟨rfl, by omega⟩
      · exact absurd ⟨rfl, by omega, inside.2⟩ (outside number)
    · rw [if_neg inside]
      refine ⟨fun value => ⟨?_, ?_⟩, fun _ => rfl⟩
      · rintro ⟨rfl, other⟩
        exact absurd rfl other
      · rintro ⟨same, low, high⟩
        obtain rfl := Option.some.inj same
        exact absurd ⟨by omega, high⟩ inside

/-- What the serializer writes is read back, the two ends of the range excepted. -/
theorem readsInteger_serializeInteger_iff (value : Int64) :
    ReadsInteger (serializeInteger value.toInt) value.toInt ↔
      value ≠ Int64.maxValue ∧ value ≠ Int64.minValue := by
  have low := value.le_toInt
  have high := value.toInt_lt
  have sentinel : llongMax = 2 ^ 63 - 1 := rfl
  have top : value ≠ Int64.maxValue ↔ value.toInt ≠ 2 ^ 63 - 1 := by
    rw [ne_eq, ← Int64.toInt_inj]
    rfl
  have bottom : value ≠ Int64.minValue ↔ value.toInt ≠ -2 ^ 63 := by
    rw [ne_eq, ← Int64.toInt_inj]
    rfl
  rw [top, bottom]
  refine (readsInteger_iff (plain_toDecimal value.toInt) value.toInt).trans ?_
  by_cases least : value.toInt = -2 ^ 63
  · have refused : parseInteger (toDecimal (-2 ^ 63)) = llongMax := by decide +kernel
    rw [least, refused]
    simp [llongMax]
  · rw [parseInteger_toDecimal (by omega) high]
    omega

/-- **The integer grammar of the parser.** On every line it is followed, unless the line is a minus
alone or stands for one of the two ends of the range; these two are also the only integers that are
not read back from what the serializer writes. -/
theorem integer_grammar_iff (line : Bytes) (plain : ¬ crlf <:+: line) (value : Int64) :
    (FollowsGrammar line ↔ ¬ Misread line) ∧
      (ReadsInteger (serializeInteger value.toInt) value.toInt ↔
        value ≠ Int64.maxValue ∧ value ≠ Int64.minValue) :=
  ⟨⟨not_misread_of_followsGrammar plain, followsGrammar_of_not_misread plain⟩,
    readsInteger_serializeInteger_iff value⟩

/-- A number with leading zeros, one digit below the end of the range. -/
theorem integer_grammar_leading_zeros :
    FollowsGrammar (text "-009223372036854775807") ∧
      ReadsInteger (serializeInteger (-7)) (-7) := by
  have plain : ¬ crlf <:+: text "-009223372036854775807" := plain_of_no_cr (by decide +kernel)
  obtain ⟨grammar, serialized⟩ := integer_grammar_iff (text "-009223372036854775807") plain (-7)
  refine ⟨grammar.mpr ?_, serialized.mpr ?_⟩
  · unfold Misread
    decide +kernel
  · decide

/-- A minus alone is read as `0`, and the greatest and the least integer are refused. -/
theorem integer_misread :
    (numeral? (text "-") = none ∧ ReadsInteger (integerLine (text "-")) 0) ∧
      Refuses (serializeInteger Int64.maxValue.toInt) ∧
      Refuses (serializeInteger Int64.minValue.toInt) := by
  refine ⟨⟨rfl, _, _, rfl⟩, ?_, ?_⟩
  · exact (refuses_iff (plain_toDecimal _)).mpr (by decide +kernel)
  · exact (refuses_iff (plain_toDecimal _)).mpr (by decide +kernel)

end SunKV.Protocol
