import BatchRun.Text.Blank
import BatchRun.Text.Numeral
import BatchRun.Time.Calendar
import BatchRun.Time.Timestamp

/-! # Moments as RFC 3339 texts

A moment is written as date, `T`, time of day and offset. The fraction of the second is left out
if it is zero and has 3, 6 or 9 digits otherwise. The leap second has number 60. Reading is more
generous: blanks may stand between the parts, a number may have fewer digits, and any offset of
less than a day is taken into account.
-/

namespace BatchRun.Timestamp

open Text Time

/-- A number with leading zeros up to a length. -/
def padded (length number : Nat) : String :=
  let digits := Nat.toDigits 10 number
  String.ofList (List.replicate (length - digits.length) '0' ++ digits)

/-- A year: four digits from 0 to 9999, and otherwise a sign and at least four digits. -/
def yearText (year : Int) : String :=
  if 0 ≤ year then (if year ≤ 9999 then "" else "+") ++ padded 4 year.toNat
  else "-" ++ padded 4 (-year).toNat

/-- The fraction of a second, in the fewest groups of three digits that are exact. -/
def fractionText (nanos : Nat) : String :=
  if nanos = 0 then ""
  else if nanos % 1000000 = 0 then "." ++ padded 3 (nanos / 1000000)
  else if nanos % 1000 = 0 then "." ++ padded 6 (nanos / 1000)
  else "." ++ padded 9 nanos

/-- The moment with a given spelling of the offset zero. -/
def textWithOffset (offset : String) (moment : Timestamp) : String :=
  let date := Date.ofDays (moment.seconds / 86400)
  let second := (moment.seconds % 86400).toNat
  let leap := moment.nanos / 1000000000
  yearText date.year ++ "-" ++ padded 2 date.month ++ "-" ++ padded 2 date.day ++ "T" ++
    padded 2 (second / 3600) ++ ":" ++ padded 2 (second / 60 % 60) ++ ":" ++
    padded 2 (second % 60 + leap) ++ fractionText (moment.nanos % 1000000000) ++ offset

/-- The moment for people: its offset is written as hours and minutes. -/
def text (moment : Timestamp) : String := textWithOffset "+00:00" moment

/-- The moment for machines: its offset is written as `Z`. -/
def compactText (moment : Timestamp) : String := textWithOffset "Z" moment

/-- Takes a character that has to stand here. -/
def expect? (wanted : Char) : List Char → Option (List Char)
  | c :: rest => if c = wanted then some rest else none
  | [] => none

/-- Takes one digit or more, at most `most`. -/
def number? (most : Nat) (chars : List Char) : Option (Nat × List Char) :=
  let digits := (chars.take most).takeWhile Char.isDigit
  if digits.isEmpty then none
  else some ((digits.filterMap digit?).foldl (fun value digit => 10 * value + digit) 0,
    chars.drop digits.length)

/-- Takes blanks and then a number. -/
def field? (most : Nat) (chars : List Char) : Option (Nat × List Char) :=
  number? most (dropBlank chars)

/-- Takes a year: up to four digits, or a sign and any number of digits. -/
def year? (chars : List Char) : Option (Int × List Char) :=
  match dropBlank chars with
  | '-' :: rest => (number? rest.length rest).map fun (year, rest) => (-year, rest)
  | '+' :: rest => (number? rest.length rest).map fun (year, rest) => (year, rest)
  | rest => (number? 4 rest).map fun (year, rest) => (year, rest)

/-- Takes the fraction of a second, if there is one. Digits after the ninth are left out. -/
def fraction? : List Char → Option (Nat × List Char)
  | '.' :: rest => do
    let (value, after) ← number? 9 rest
    return (value * Nat.pow 10 (9 - (rest.length - after.length)), after.dropWhile Char.isDigit)
  | rest => some (0, rest)

def twoDigits? : List Char → Option (Nat × List Char)
  | tens :: ones :: rest => do
    let tens ← digit? tens
    let ones ← digit? ones
    return (10 * tens + ones, rest)
  | _ => none

/-- Takes an offset from universal time, in seconds: `Z`, `UTC`, or a sign, hours and minutes. -/
def offset? (chars : List Char) : Option (Int × List Char) :=
  match chars with
  | 'Z' :: rest => some (0, rest)
  | 'z' :: rest => some (0, rest)
  | _ =>
    if lowerAscii (String.ofList (chars.take 3)) = "utc" then some (0, chars.drop 3)
    else
      match chars with
      | sign :: rest => do
        guard (sign == '+' || sign == '-' || sign == '−')
        let (hours, rest) ← twoDigits? rest
        let (minutes, rest) ← twoDigits? (rest.dropWhile fun c => c == ':' || isBlank c)
        guard (minutes < 60)
        let seconds : Int := hours * 3600 + minutes * 60
        guard (seconds < 86400)
        return (if sign = '+' then seconds else -seconds, rest)
      | [] => none

/-- The years in which moments lie. -/
def isYear (year : Int) : Bool := -262143 ≤ year && year ≤ 262142

/-- The moment of these parts, if there is one. Only the last second of a minute can be followed by
a leap second. -/
def ofParts? (seconds : Int) (nanos : Nat) : Option Timestamp := do
  guard (isYear (Date.ofDays (seconds / 86400)).year)
  guard (nanos < 1000000000 || (nanos < 2000000000 && seconds % 60 == 59))
  return ⟨seconds, nanos⟩

def read? (text : String) : Option Timestamp := do
  let (year, rest) ← year? text.toList
  let rest ← expect? '-' (dropBlank rest)
  let (month, rest) ← field? 2 rest
  let rest ← expect? '-' (dropBlank rest)
  let (day, rest) ← field? 2 rest
  let rest ← match rest with
    | 'T' :: rest | 't' :: rest | ' ' :: rest => some rest
    | _ => none
  let (hour, rest) ← field? 2 rest
  let rest ← expect? ':' (dropBlank rest)
  let (minute, rest) ← field? 2 rest
  let rest ← expect? ':' (dropBlank rest)
  let (second, rest) ← field? 2 rest
  let (fraction, rest) ← fraction? rest
  let (offset, rest) ← offset? (dropBlank rest)
  guard (dropBlank rest).isEmpty
  let date : Date := ⟨year, month, day⟩
  guard (isYear year && date.isValid && hour < 24 && minute < 60 && second ≤ 60)
  let leap := second / 60
  let seconds : Int :=
    date.toDays * 86400 + hour * 3600 + minute * 60 + (second - leap : Nat) - offset
  guard (isYear (Date.ofDays (seconds / 86400)).year)
  return ⟨seconds, fraction + leap * 1000000000⟩

end BatchRun.Timestamp
