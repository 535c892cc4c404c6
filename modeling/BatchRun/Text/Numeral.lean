/-! # Decimal numerals of bounded numbers

A numeral is one or more of the digits `0` to `9`, with at most one `+` before them. Reading goes
from left to right and reports the first fault it meets: a numeral that has outgrown its bound is
too large even if something that is no digit stands further right.
-/

namespace BatchRun.Text

/-- Why a text is no numeral of a number below a bound. -/
inductive NumeralError
  | empty
  | invalidDigit
  | tooLarge
deriving DecidableEq, Repr

def NumeralError.message : NumeralError → String
  | .empty => "cannot parse integer from empty string"
  | .invalidDigit => "invalid digit found in string"
  | .tooLarge => "number too large to fit in target type"

/-- The value of one of the digits `0` to `9`. -/
def digit? (c : Char) : Option Nat :=
  if '0' ≤ c ∧ c ≤ '9' then some (c.toNat - '0'.toNat) else none

/-- Reads further digits of a number that is `value` so far. -/
def readDigits (bound value : Nat) : List Char → Except NumeralError Nat
  | [] => .ok value
  | c :: rest =>
    match digit? c with
    | none => .error .invalidDigit
    | some digit =>
      let next := 10 * value + digit
      if next < bound then readDigits bound next rest else .error .tooLarge

/-- Reads the numeral of a number below `bound`. -/
def readNumeral (bound : Nat) (text : String) : Except NumeralError Nat :=
  match text.toList with
  | [] => .error .empty
  | ['+'] => .error .invalidDigit
  | '+' :: digits => readDigits bound 0 digits
  | digits => readDigits bound 0 digits

def readUInt32 (text : String) : Except NumeralError UInt32 :=
  (readNumeral UInt32.size text).map UInt32.ofNat

def readUInt64 (text : String) : Except NumeralError UInt64 :=
  (readNumeral UInt64.size text).map UInt64.ofNat

end BatchRun.Text
