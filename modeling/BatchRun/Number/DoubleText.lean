import BatchRun.Number.Shortest
import BatchRun.Text.Blank
import BatchRun.Text.Numeral

/-! # Texts of doubles

A double is written with the digits of its shortest decimal. Two styles of writing are in use: the
plain one never has an exponent and writes whole numbers without a point, the other one is for
listings and for JSON and goes over to an exponent for very large and very small numbers.
-/

namespace BatchRun.Number

structure DoubleStyle where
  /-- Positional are the decimals whose top power of ten is above the first and at most the second
  of these; no range means all of them. -/
  positional : Option (Int × Int)
  /-- Whether whole numbers are written with `.0`. -/
  keepPoint : Bool

/-- Digits, point and zeros, without an exponent. -/
def positionalText (digits : List Char) (top : Int) (keepPoint : Bool) : List Char :=
  let count : Int := digits.length
  if top ≤ 0 then
    '0' :: '.' :: List.replicate (-top).toNat '0' ++ digits
  else if count ≤ top then
    digits ++ List.replicate (top - count).toNat '0' ++ (if keepPoint then ['.', '0'] else [])
  else
    digits.take top.toNat ++ '.' :: digits.drop top.toNat

/-- One digit, the others after a point, and the exponent. -/
def exponentText (digits : List Char) (top : Int) : List Char :=
  let point := if digits.length ≤ 1 then [] else ['.']
  digits.take 1 ++ point ++ digits.drop 1 ++ 'e' :: (toString (top - 1)).toList

def DoubleStyle.decimalText (style : DoubleStyle) (decimal : Decimal) : List Char :=
  if decimal.digits = 0 then '0' :: (if style.keepPoint then ['.', '0'] else [])
  else
    let digits := decimal.significantDigits
    let top := decimal.top
    match style.positional with
    | none => positionalText digits top style.keepPoint
    | some (above, atMost) =>
      if above < top ∧ top ≤ atMost then positionalText digits top style.keepPoint
      else exponentText digits top

def DoubleStyle.text (style : DoubleStyle) (x : Float) : String :=
  let sign := if isNegative x then "-" else ""
  match magnitude x with
  | .nan => "NaN"
  | .infinite => sign ++ "inf"
  | .finite significand exponent =>
    sign ++ String.ofList (style.decimalText (shortest significand exponent))

/-- No exponent, and whole numbers without a point. -/
def plain : DoubleStyle := { positional := none, keepPoint := false }

/-- An exponent from `1e16` on and below `1e-4`, and whole numbers with a point. -/
def listing : DoubleStyle := { positional := some (-4, 16), keepPoint := true }

/-- The digits at the head of a text and what follows them. -/
def spanDigits (chars : List Char) : List Nat × List Char :=
  ((chars.takeWhile Char.isDigit).filterMap Text.digit?, chars.dropWhile Char.isDigit)

def ofDigits (digits : List Nat) : Nat := digits.foldl (fun value digit => 10 * value + digit) 0

/-- Reads the exponent of a decimal: nothing at all, or `e`, a sign or none, and digits. -/
def readExponent? : List Char → Option Int
  | [] => some 0
  | marker :: rest =>
    if marker != 'e' && marker != 'E' then none
    else
      let (negative, rest) := match rest with
        | '-' :: rest => (true, rest)
        | '+' :: rest => (false, rest)
        | rest => (false, rest)
      let (digits, rest) := spanDigits rest
      if digits.isEmpty || !rest.isEmpty then none
      else
        let value : Int := ofDigits digits
        some (if negative then -value else value)

/-- Reads a decimal without sign as the nearest double. -/
def readDecimal? (chars : List Char) : Option Float :=
  let (whole, rest) := spanDigits chars
  let (fraction, rest) := match rest with
    | '.' :: rest => spanDigits rest
    | rest => ([], rest)
  if whole.isEmpty && fraction.isEmpty then none
  else
    (readExponent? rest).map fun exponent =>
      nearestDecimal (ofDigits (whole ++ fraction)) (exponent - fraction.length)

/-- Reads a number, infinity or `NaN` without sign. -/
def readMagnitude? (chars : List Char) : Option Float :=
  let word := Text.lowerAscii (String.ofList chars)
  if word = "nan" then some (Float.ofBits (UInt64.ofNat (infinityBits + twoPow 51)))
  else if word = "inf" ∨ word = "infinity" then some (Float.ofBits (UInt64.ofNat infinityBits))
  else readDecimal? chars

/-- Reads a double: a decimal correctly rounded, an infinity or `NaN`, with a sign or without. -/
def readDouble? (text : String) : Option Float :=
  match text.toList with
  | '-' :: rest => (readMagnitude? rest).map fun x => -x
  | '+' :: rest => readMagnitude? rest
  | rest => readMagnitude? rest

end BatchRun.Number
