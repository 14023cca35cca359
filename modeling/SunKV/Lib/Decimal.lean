/-
**Decimal numerals in ASCII.**

`decimal` writes a number without leading zeros, `decimalValue` reads a string of digits; reading
back what was written gives the number (`decimalValue_decimal`), so numerals of different numbers
differ (`decimal_injective`). `toDecimal` and `stoll` are the conversions of C++ for signed 64-bit
integers (`stoll_toDecimal`).
-/

import SunKV.Lib.Reader

namespace SunKV.Lib

/-- The numeral of a number below ten. -/
def digit (number : Nat) : UInt8 := UInt8.ofNat (48 + number)

/-- The byte is one of `'0'` to `'9'`. -/
def isDigit (byte : UInt8) : Bool := decide (48 ≤ byte) && decide (byte ≤ 57)

/-- The number a digit stands for. -/
def digitValue (byte : UInt8) : Nat := byte.toNat - 48

/-- The digits of a number, at most `fuel` of them. -/
def decimalLoop : Nat → Nat → Bytes
  | 0, _ => []
  | fuel + 1, number =>
    if number < 10 then [digit number]
    else decimalLoop fuel (number / 10) ++ [digit (number % 10)]

/-- **The numeral of a number.** -/
def decimal (number : Nat) : Bytes := decimalLoop (number + 1) number

/-- The number a string of digits stands for. -/
def decimalValue (digits : Bytes) : Nat :=
  digits.foldl (fun value byte => value * 10 + digitValue byte) 0

theorem decimalLoop_of_lt {fuel fuel' number : Nat} (enough : number < fuel)
    (enough' : number < fuel') : decimalLoop fuel number = decimalLoop fuel' number := by
  induction fuel generalizing fuel' number with
  | zero => omega
  | succ fuel ih =>
    cases fuel' with
    | zero => omega
    | succ fuel' =>
      by_cases small : number < 10
      · simp only [decimalLoop, small, if_true]
      · have shorter : number / 10 < number := Nat.div_lt_self (by omega) (by omega)
        have same : decimalLoop fuel (number / 10) = decimalLoop fuel' (number / 10) :=
          ih (by omega) (by omega)
        simp only [decimalLoop, small, if_false, same]

theorem decimal_of_lt {number : Nat} (small : number < 10) : decimal number = [digit number] := by
  simp only [decimal, decimalLoop, small, if_true]

theorem decimal_of_le {number : Nat} (large : 10 ≤ number) :
    decimal number = decimal (number / 10) ++ [digit (number % 10)] := by
  have shorter : number / 10 < number := Nat.div_lt_self (by omega) (by omega)
  have same : decimalLoop number (number / 10) = decimal (number / 10) :=
    decimalLoop_of_lt shorter (Nat.lt_succ_self _)
  rw [decimal, decimalLoop, if_neg (Nat.not_lt.mpr large), same]

/-- Induction along the numeral. -/
theorem decimal_induction {motive : Nat → Prop} (small : ∀ number < 10, motive number)
    (large : ∀ number, 10 ≤ number → motive (number / 10) → motive number) (number : Nat) :
    motive number := by
  induction number using Nat.strong_induction_on with
  | _ number ih =>
    by_cases low : number < 10
    · exact small number low
    · exact large number (by omega) (ih _ (Nat.div_lt_self (by omega) (by omega)))

theorem digit_toNat {number : Nat} (small : number < 10) : (digit number).toNat = 48 + number := by
  rw [digit, UInt8.toNat_ofNat']
  omega

theorem isDigit_digit {number : Nat} (small : number < 10) : isDigit (digit number) = true := by
  have value := digit_toNat small
  simp only [isDigit, Bool.and_eq_true, decide_eq_true_eq, UInt8.le_iff_toNat_le, value]
  constructor
  · show 48 ≤ 48 + number
    omega
  · show 48 + number ≤ 57
    omega

theorem digitValue_digit {number : Nat} (small : number < 10) :
    digitValue (digit number) = number := by
  rw [digitValue, digit_toNat small]
  omega

theorem decimal_ne_nil (number : Nat) : decimal number ≠ [] := by
  by_cases small : number < 10
  · simp [decimal_of_lt small]
  · simp [decimal_of_le (Nat.not_lt.mp small)]

theorem decimal_digits (number : Nat) : ∀ byte ∈ decimal number, isDigit byte = true := by
  induction number using decimal_induction with
  | small number low =>
    intro byte member
    rw [decimal_of_lt low, List.mem_singleton] at member
    rw [member]
    exact isDigit_digit low
  | large number high ih =>
    intro byte member
    rw [decimal_of_le high, List.mem_append, List.mem_singleton] at member
    rcases member with front | rfl
    · exact ih byte front
    · exact isDigit_digit (Nat.mod_lt _ (by omega))

/-- A number below `10 ^ count` has at most `count` digits. -/
theorem length_decimal_le (count : Nat) {number : Nat} (low : number < 10 ^ (count + 1)) :
    (decimal number).length ≤ count + 1 := by
  induction count generalizing number with
  | zero =>
    rw [decimal_of_lt (by omega)]
    exact Nat.le_refl 1
  | succ count ih =>
    by_cases small : number < 10
    · rw [decimal_of_lt small]
      exact Nat.le_add_left 1 _
    · rw [decimal_of_le (Nat.not_lt.mp small), List.length_append]
      rw [Nat.pow_succ] at low
      exact Nat.succ_le_succ (ih (Nat.div_lt_of_lt_mul (by omega)))

theorem decimalValue_concat (digits : Bytes) (byte : UInt8) :
    decimalValue (digits ++ [byte]) = decimalValue digits * 10 + digitValue byte := by
  simp [decimalValue, List.foldl_append]

/-- **Reading back a numeral gives the number.** -/
theorem decimalValue_decimal (number : Nat) : decimalValue (decimal number) = number := by
  induction number using decimal_induction with
  | small number low =>
    rw [decimal_of_lt low]
    show 0 * 10 + digitValue (digit number) = number
    rw [digitValue_digit low]
    omega
  | large number high ih =>
    rw [decimal_of_le high, decimalValue_concat, ih, digitValue_digit (Nat.mod_lt _ (by omega))]
    omega

theorem decimal_injective : Function.Injective decimal :=
  Function.LeftInverse.injective decimalValue_decimal

/-! ### Signed integers -/

/-- `std::to_string`. -/
def toDecimal : Int → Bytes
  | .ofNat number => decimal number
  | .negSucc number => 45 :: decimal (number + 1)

/-- `std::isspace`. -/
def isSpace (byte : UInt8) : Bool := byte = 32 || (decide (9 ≤ byte) && decide (byte ≤ 13))

/-- The sign in front of a numeral, and what follows it. -/
def splitSign : Bytes → Int × Bytes
  | [] => (1, [])
  | first :: rest =>
    if first = 45 then (-1, rest) else if first = 43 then (1, rest) else (1, first :: rest)

/-- `std::stoll`: blanks, a sign and the longest numeral; what follows is not looked at. There is
nothing to return without a digit, or out of range. -/
def stoll (text : Bytes) : Option Int :=
  let (sign, unsigned) := splitSign (text.dropWhile isSpace)
  let digits := unsigned.takeWhile isDigit
  let value := sign * decimalValue digits
  if digits.isEmpty ∨ value < -2 ^ 63 ∨ 2 ^ 63 ≤ value then none else some value

theorem takeWhile_isDigit_decimal (number : Nat) :
    (decimal number).takeWhile isDigit = decimal number :=
  List.takeWhile_eq_self_iff.mpr (decimal_digits number)

/-- A digit is no blank and no sign. -/
theorem splitSign_decimal (number : Nat) :
    splitSign ((decimal number).dropWhile isSpace) = (1, decimal number) := by
  obtain ⟨first, rest, shape⟩ := List.exists_cons_of_ne_nil (decimal_ne_nil number)
  have numeral := decimal_digits number first (by rw [shape]; exact List.mem_cons_self)
  have low : 48 ≤ first.toNat := by
    simp only [isDigit, Bool.and_eq_true, decide_eq_true_eq, UInt8.le_iff_toNat_le] at numeral
    exact numeral.1
  have other {byte : UInt8} (small : byte.toNat < 48) : first ≠ byte := by
    rintro rfl
    omega
  have black : ¬ isSpace first = true := by
    simp only [isSpace, Bool.or_eq_true, Bool.and_eq_true, decide_eq_true_eq, not_or,
      UInt8.le_iff_toNat_le]
    exact ⟨other (by decide), fun blank => by simp at blank; omega⟩
  rw [shape, List.dropWhile_cons_of_neg black, splitSign, if_neg (other (by decide)),
    if_neg (other (by decide))]

/-- **`stoll` reads what `to_string` writes.** -/
theorem stoll_toDecimal {value : Int} (low : -2 ^ 63 ≤ value) (high : value < 2 ^ 63) :
    stoll (toDecimal value) = some value := by
  have some (number : Nat) : (decimal number).isEmpty = false := by simp [decimal_ne_nil]
  cases value with
  | ofNat number =>
    rw [Int.ofNat_eq_natCast] at high
    simp only [stoll, toDecimal, splitSign_decimal, takeWhile_isDigit_decimal, some,
      decimalValue_decimal]
    rw [one_mul, if_neg (by simp; omega)]
    rfl
  | negSucc number =>
    have dash : isSpace 45 = false := by decide
    simp only [stoll, toDecimal, List.dropWhile_cons, dash, splitSign, if_true, Bool.false_eq_true,
      if_false, takeWhile_isDigit_decimal, some, decimalValue_decimal]
    rw [if_neg (by simp; omega)]
    congr 1
    omega

end SunKV.Lib
