import BatchRun.Json.Basic
import BatchRun.Number.DoubleText

/-! # Writing JSON

A JSON value on one line without blanks. In strings the quote, the backslash and the controls are
escaped. A double always has a point or an exponent, so that it reads back as a double.
-/

namespace BatchRun.Json

/-- A character as it stands in a string. -/
def writtenChar (c : Char) : String :=
  match c with
  | '"' => "\\\""
  | '\\' => "\\\\"
  | '\n' => "\\n"
  | '\r' => "\\r"
  | '\t' => "\\t"
  | c =>
    if c.toNat < 0x20 then
      let digits := Nat.toDigits 16 c.toNat
      "\\u" ++ String.ofList (List.replicate (4 - digits.length) '0' ++ digits)
    else String.singleton c

def writtenText (text : String) : String :=
  "\"" ++ String.join (text.toList.map writtenChar) ++ "\""

mutual

/-- The value on one line. -/
def write : Json → String
  | .null => "null"
  | .bool value => if value then "true" else "false"
  | .integer value => toString value
  | .double value => Number.listing.text value
  | .string text => writtenText text
  | .array items => "[" ++ ",".intercalate (writeItems items) ++ "]"
  | .object members => "\x7b" ++ ",".intercalate (writeMembers members) ++ "\x7d"

def writeItems : List Json → List String
  | [] => []
  | item :: items => write item :: writeItems items

def writeMembers : List (String × Json) → List String
  | [] => []
  | (name, value) :: members => (writtenText name ++ ":" ++ write value) :: writeMembers members

end

end BatchRun.Json
