import BatchRun.Json.Document
import BatchRun.Number.DoubleText

/-! # JSON numbers

A number written without point and exponent is a whole number if it fits into 64 bits, signed or
unsigned; every other number is a double. A double is read in one pass: its digits make a whole
number of at most 64 bits, further digits only move the point, and this number is then multiplied
or divided by a power of ten. The result can be off by a last bit from the nearest double.
-/

namespace BatchRun.Json

open Number

/-- Appends digits as long as the number stays below `2^64`. The result has the number and how
many digits did not fit. -/
def wholePart (value : Nat) : List Nat → Nat × Nat
  | [] => (value, 0)
  | digit :: rest =>
    let next := 10 * value + digit
    if next < UInt64.size then wholePart next rest else (value, rest.length + 1)

/-- Appends digits after the point as long as the number stays below `2^64`, and lowers the power
of ten by one for each. -/
def fractionPart (value : Nat) (exponent : Int) : List Nat → Nat × Int
  | [] => (value, exponent)
  | digit :: rest =>
    let next := 10 * value + digit
    if next < UInt64.size then fractionPart next (exponent - 1) rest else (value, exponent)

def powerOfTen (exponent : Nat) : Float := nearest (tenPow exponent) 1

/-- Divides by a power of ten, in portions of at most `10^308`. -/
def divideByPower (x : Float) (exponent : Nat) : Float :=
  if exponent ≤ 308 then x / powerOfTen exponent
  else if x == 0 then x
  else divideByPower (x / powerOfTen 308) (exponent - 308)
termination_by exponent

/-- A number below `2^64` times a power of ten, unless that is beyond the largest double. -/
def scaled? (value : Nat) (exponent : Int) : Option Float :=
  let x := (UInt64.ofNat value).toFloat
  if exponent < 0 then some (divideByPower x (-exponent).toNat)
  else if 308 < exponent then if value = 0 then some x else none
  else
    let product := x * powerOfTen exponent.toNat
    if product.isInf then none else some product

structure WrittenExponent where
  negative : Bool
  digits : List Nat

structure WrittenNumber where
  negative : Bool
  whole : List Nat
  fraction : List Nat
  exponent : Option WrittenExponent

/-- Reads the exponent of a number, and nothing may follow it. -/
def readExponent? : List Char → Option (Option WrittenExponent)
  | [] => some none
  | marker :: rest =>
    if marker != 'e' && marker != 'E' then none
    else
      let (negative, rest) := match rest with
        | '-' :: rest => (true, rest)
        | '+' :: rest => (false, rest)
        | rest => (false, rest)
      match spanDigits rest with
      | ([], _) => none
      | (digits, []) => some (some ⟨negative, digits⟩)
      | _ => none

/-- Takes a number apart. There are digits before the point, without a zero in front of others,
and after a point as well. -/
def readNumber? (chars : List Char) : Option WrittenNumber := do
  let (negative, rest) := match chars with
    | '-' :: rest => (true, rest)
    | rest => (false, rest)
  let (whole, rest) := spanDigits rest
  guard (!whole.isEmpty && (whole.length = 1 || whole.head? != some 0))
  let (fraction, rest) ← match rest with
    | '.' :: rest =>
      let (fraction, rest) := spanDigits rest
      if fraction.isEmpty then none else some (fraction, rest)
    | rest => some ([], rest)
  let exponent ← readExponent? rest
  return { negative, whole, fraction, exponent }

/-- The double that a number with point or exponent, or with too many digits, stands for. -/
def WrittenNumber.double? (number : WrittenNumber) : Option Float :=
  let (value, dropped) := wholePart 0 number.whole
  let (value, power) := fractionPart value dropped number.fraction
  let size? := match number.exponent with
    | none => scaled? value power
    | some written =>
      let exponent : Int := ofDigits written.digits
      if exponent < 2147483648 then
        scaled? value (if written.negative then power - exponent else power + exponent)
      else if value = 0 ∨ written.negative then some (Float.ofBits 0)
      else none
  size?.map fun size => if number.negative then -size else size

def WrittenNumber.document (number : WrittenNumber) : Document :=
  let value := ofDigits number.whole
  let isWhole := number.fraction.isEmpty && number.exponent.isNone
  if isWhole && !number.negative && value < UInt64.size then .integer value
  else if isWhole && number.negative && 0 < value && value ≤ twoPow 63 then .integer (-value)
  else (number.double?.map .double).getD .unreadable

end BatchRun.Json
