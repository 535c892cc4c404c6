/-! # Doubles as exact numbers

A finite double is a whole significand times a power of two. This module takes doubles apart into
these two numbers, and finds the double nearest to a ratio of whole numbers. Both ways are exact:
no floating-point operation takes part.
-/

namespace BatchRun.Number

def twoPow (exponent : Nat) : Nat := Nat.pow 2 exponent

def tenPow (exponent : Nat) : Nat := Nat.pow 10 exponent

/-- What a double stands for. -/
inductive Magnitude
  | nan
  | infinite
  /-- The significand times two to the power of the exponent. -/
  | finite (significand : Nat) (exponent : Int)
deriving DecidableEq, Repr

def infinityBits : Nat := 2047 * twoPow 52

/-- The bit that holds the sign of a double, also of a zero. -/
def isNegative (x : Float) : Bool := twoPow 63 ≤ x.toBits.toNat

/-- What a double stands for when its sign is left out. -/
def magnitude (x : Float) : Magnitude :=
  let bits := x.toBits.toNat
  let exponent : Nat := bits / twoPow 52 % twoPow 11
  let fraction := bits % twoPow 52
  if exponent = 2047 then if fraction = 0 then .infinite else .nan
  else if exponent = 0 then .finite fraction (-1074)
  else .finite (twoPow 52 + fraction) (exponent - 1075)

/-- The quotient of two whole numbers, rounded to the nearest whole number and, halfway between
two, to the even one. -/
def roundedQuotient (numerator denominator : Nat) : Nat :=
  let quotient := numerator / denominator
  let remainder := numerator % denominator
  if 2 * remainder < denominator then quotient
  else if denominator < 2 * remainder then quotient + 1
  else quotient + quotient % 2

def scaledDown (numerator denominator : Nat) (exponent : Int) : Nat × Nat :=
  if 0 ≤ exponent then (numerator, denominator * twoPow exponent.toNat)
  else (numerator * twoPow (-exponent).toNat, denominator)

/-- The power of two by which a positive ratio has to be divided so that its whole part has 53
binary digits, or -1074 where that would be too small for a double. -/
def quantum (numerator denominator : Nat) : Int :=
  let guess := (numerator.log2 : Int) - denominator.log2 - 53
  let (scaled, unit) := scaledDown numerator denominator guess
  max (-1074) (if twoPow 53 ≤ scaled / unit then guess + 1 else guess)

/-- The nonnegative double nearest to a ratio. Beyond the largest double it is infinite, and
halfway between two doubles it is the one with the even significand. -/
def nearest (numerator denominator : Nat) : Float :=
  if numerator = 0 then Float.ofBits 0
  else
    let exponent := quantum numerator denominator
    let (scaled, unit) := scaledDown numerator denominator exponent
    let bits := (exponent + 1074).toNat * twoPow 52 + roundedQuotient scaled unit
    Float.ofBits (UInt64.ofNat (min bits infinityBits))

/-- The double nearest to a decimal, `digits` times ten to the power of the exponent. -/
def nearestDecimal (digits : Nat) (exponent : Int) : Float :=
  let places := (Nat.toDigits 10 digits).length
  if digits = 0 ∨ exponent + places < -400 then Float.ofBits 0
  else if 400 < exponent + places then Float.ofBits (UInt64.ofNat infinityBits)
  else if 0 ≤ exponent then nearest (digits * tenPow exponent.toNat) 1
  else nearest digits (tenPow (-exponent).toNat)

end BatchRun.Number
