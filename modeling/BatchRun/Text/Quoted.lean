import BatchRun.Text.Printable

/-! # Quoted texts

A quoted text stands between double quotes. The quote and the backslash get a backslash before
them, four controls have short names, and every other character that would not show on a page is
given by its code point in hexadecimal.
-/

namespace BatchRun.Text

/-- A code point between braces, in lower-case hexadecimal without padding. -/
def escapedCode (c : Char) : String :=
  "\\u\x7b" ++ String.ofList (Nat.toDigits 16 c.toNat) ++ "\x7d"

def quotedChar (c : Char) : String :=
  match c with
  | '\x00' => "\\0"
  | '\t' => "\\t"
  | '\r' => "\\r"
  | '\n' => "\\n"
  | '"' => "\\\""
  | '\\' => "\\\\"
  | c => if isPrintable c then String.singleton c else escapedCode c

def quote (text : String) : String :=
  "\"" ++ String.join (text.toList.map quotedChar) ++ "\""

/-- Quoted texts between square brackets, separated by a comma and a blank. -/
def quoteList (texts : List String) : String :=
  "[" ++ ", ".intercalate (texts.map quote) ++ "]"

end BatchRun.Text
