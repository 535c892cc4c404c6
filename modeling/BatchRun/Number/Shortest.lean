import BatchRun.Number.Binary64

/-! # The shortest decimal of a double

Among the decimals that read back as a given double, the ones with the fewest digits are of
interest, and of these the one nearest to the double. Halfway between two of them the larger one
is taken. The search works on the exact value: for 1, 2, … 17 digits it looks at the two decimals
of that many digits on either side of the double, and stops as soon as one of them lies in the
interval of numbers that round to the double.
-/

namespace BatchRun.Number

/-- A nonnegative decimal, `digits` times ten to the power of the exponent. -/
structure Decimal where
  digits : Nat
  exponent : Int
deriving DecidableEq, Repr

namespace Decimal

def significantDigits (decimal : Decimal) : List Char :=
  ((Nat.toDigits 10 decimal.digits).reverse.dropWhile (· == '0')).reverse

/-- The power of ten just above the decimal. -/
def top (decimal : Decimal) : Int :=
  decimal.exponent + (Nat.toDigits 10 decimal.digits).length

end Decimal

/-- The numbers that round to a double: all between two ratios over one denominator, which are
among them or not. -/
structure RoundingInterval where
  below : Nat
  value : Nat
  above : Nat
  denominator : Nat
  closed : Bool

/-- The interval of a positive finite double. Below a power of two doubles lie twice as dense, so
the interval reaches only half as far down. -/
def RoundingInterval.of (significand : Nat) (exponent : Int) : RoundingInterval :=
  let down := if significand = twoPow 52 ∧ -1074 < exponent then 1 else 2
  let scale (quarters : Nat) : Nat := quarters * twoPow (exponent - 2).toNat
  { below := scale (4 * significand - down)
    value := scale (4 * significand)
    above := scale (4 * significand + 2)
    denominator := twoPow (2 - exponent).toNat
    closed := significand % 2 = 0 }

/-- Whether a ratio lies in the interval. -/
def RoundingInterval.holds (interval : RoundingInterval) (numerator denominator : Nat) : Bool :=
  let scaled := numerator * interval.denominator
  let low := interval.below * denominator
  let high := interval.above * denominator
  if interval.closed then low ≤ scaled && scaled ≤ high else low < scaled && scaled < high

/-- Counts how often a ratio below one can be multiplied by ten before it reaches one. -/
def leadingZeros (denominator : Nat) : Nat → Nat → Nat
  | 0, _ => 0
  | fuel + 1, numerator =>
    if denominator ≤ 10 * numerator then 0
    else leadingZeros denominator fuel (10 * numerator) + 1

/-- The power of ten just above a positive ratio. -/
def decimalTop (numerator denominator : Nat) : Int :=
  if denominator ≤ numerator then (Nat.toDigits 10 (numerator / denominator)).length
  else -(leadingZeros denominator 400 numerator : Int)

/-- The decimal with `count` digits that lies in the interval and is nearest to its value. -/
def RoundingInterval.withDigits? (interval : RoundingInterval) (count : Nat) : Option Decimal :=
  let exponent := decimalTop interval.value interval.denominator - count
  let up := tenPow exponent.toNat
  let down := tenPow (-exponent).toNat
  let scaled := interval.value * down
  let unit := interval.denominator * up
  let lower := scaled / unit
  let hits (digits : Nat) : Bool := interval.holds (digits * up) down
  match hits lower, hits (lower + 1) with
  | false, false => none
  | true, false => some ⟨lower, exponent⟩
  | false, true => some ⟨lower + 1, exponent⟩
  | true, true => some ⟨if unit ≤ 2 * (scaled % unit) then lower + 1 else lower, exponent⟩

/-- The shortest decimal of the double that is the significand times a power of two. -/
def shortest (significand : Nat) (exponent : Int) : Decimal :=
  if significand = 0 then ⟨0, 0⟩
  else
    let interval := RoundingInterval.of significand exponent
    let decimal? := (List.range' 1 17).findSome? interval.withDigits?
    decimal?.getD ⟨significand, exponent⟩

end BatchRun.Number
