import BatchRun.Json.Numeral

/-! # JSON tokens

A JSON text is cut into tokens character by character. The scanner is a small automaton: what has
been seen of the current token is its whole state, so every text is scanned in one pass.
-/

namespace BatchRun.Json

inductive Token
  | openBrace
  | closeBrace
  | openBracket
  | closeBracket
  | colon
  | comma
  /-- A string, unless it holds a half of a surrogate pair by itself. -/
  | text (value : Option String)
  /-- A number, `true`, `false` or `null`. -/
  | leaf (value : Document)

/-- A piece of a string: a character, or a code unit given by four hexadecimal digits. -/
inductive Piece
  | char (value : Char)
  | unit (value : Nat)

/-- What has been seen of the current token, the latest first. -/
inductive Scan
  | between
  | word (letters : List Char)
  | number (chars : List Char)
  | text (pieces : List Piece)
  | escape (pieces : List Piece)
  | code (pieces : List Piece) (value missing : Nat)

/-- The characters that the pieces of a string stand for. Two code units that are the halves of a
surrogate pair make one character; a half by itself makes none. -/
def assemble? : List Piece → Option (List Char)
  | [] => some []
  | .char c :: rest => (assemble? rest).map (c :: ·)
  | .unit high :: .unit low :: rest =>
    if 0xD800 ≤ high ∧ high < 0xDC00 then
      if 0xDC00 ≤ low ∧ low < 0xE000 then
        let code := 0x10000 + (high - 0xD800) * 0x400 + (low - 0xDC00)
        (assemble? rest).map (Char.ofNat code :: ·)
      else none
    else if 0xDC00 ≤ high ∧ high < 0xE000 then none
    else (assemble? (.unit low :: rest)).map (Char.ofNat high :: ·)
  | .unit code :: rest =>
    if 0xD800 ≤ code ∧ code < 0xE000 then none
    else (assemble? rest).map (Char.ofNat code :: ·)

/-- The string that pieces stand for, the latest piece first. -/
def pieceText? (pieces : List Piece) : Option String :=
  (assemble? pieces.reverse).map String.ofList

def hexDigit? (c : Char) : Option Nat :=
  if '0' ≤ c ∧ c ≤ '9' then some (c.toNat - '0'.toNat)
  else if 'a' ≤ c ∧ c ≤ 'f' then some (c.toNat - 'a'.toNat + 10)
  else if 'A' ≤ c ∧ c ≤ 'F' then some (c.toNat - 'A'.toNat + 10)
  else none

def escaped? : Char → Option Char
  | '"' => some '"'
  | '\\' => some '\\'
  | '/' => some '/'
  | 'b' => some '\x08'
  | 'f' => some '\x0c'
  | 'n' => some '\n'
  | 'r' => some '\r'
  | 't' => some '\t'
  | _ => none

def wordToken? (letters : List Char) : Option Token :=
  match String.ofList letters.reverse with
  | "true" => some (.leaf (.bool true))
  | "false" => some (.leaf (.bool false))
  | "null" => some (.leaf .null)
  | _ => none

def numberToken? (chars : List Char) : Option Token :=
  (readNumber? chars.reverse).map fun number => .leaf number.document

def isNumberChar (c : Char) : Bool :=
  c.isDigit || c == '-' || c == '+' || c == '.' || c == 'e' || c == 'E'

/-- The first character after the end of a token, or at the beginning of the text. -/
def scanStart (c : Char) : Option (List Token × Scan) :=
  match c with
  | ' ' | '\t' | '\n' | '\r' => some ([], .between)
  | '\x7b' => some ([.openBrace], .between)
  | '\x7d' => some ([.closeBrace], .between)
  | '[' => some ([.openBracket], .between)
  | ']' => some ([.closeBracket], .between)
  | ':' => some ([.colon], .between)
  | ',' => some ([.comma], .between)
  | '"' => some ([], .text [])
  | c =>
    if c.isDigit || c == '-' then some ([], .number [c])
    else if c.isAlpha then some ([], .word [c])
    else none

/-- One more character. The tokens it ends or makes come with the new state. -/
def scanChar (scan : Scan) (c : Char) : Option (List Token × Scan) :=
  match scan with
  | .between => scanStart c
  | .word letters =>
    if c.isAlpha then some ([], .word (c :: letters))
    else do
      let token ← wordToken? letters
      let (tokens, scan) ← scanStart c
      return (token :: tokens, scan)
  | .number chars =>
    if isNumberChar c then some ([], .number (c :: chars))
    else do
      let token ← numberToken? chars
      let (tokens, scan) ← scanStart c
      return (token :: tokens, scan)
  | .text pieces =>
    if c == '"' then some ([.text (pieceText? pieces)], .between)
    else if c == '\\' then some ([], .escape pieces)
    else if c.toNat < 0x20 then none
    else some ([], .text (.char c :: pieces))
  | .escape pieces =>
    if c == 'u' then some ([], .code pieces 0 4)
    else (escaped? c).map fun c => ([], .text (.char c :: pieces))
  | .code pieces value missing =>
    (hexDigit? c).map fun digit =>
      let value := 16 * value + digit
      if missing ≤ 1 then ([], .text (.unit value :: pieces))
      else ([], .code pieces value (missing - 1))

/-- The end of the text: a word or number may end here, a string may not. -/
def scanEnd : Scan → Option (List Token)
  | .between => some []
  | .word letters => (wordToken? letters).map ([·])
  | .number chars => (numberToken? chars).map ([·])
  | _ => none

/-- The tokens of a text, the latest first, with those found before. -/
def scanChars (found : List Token) (scan : Scan) : List Char → Option (List Token)
  | [] => (scanEnd scan).map (·.reverse ++ found)
  | c :: rest =>
    match scanChar scan c with
    | none => none
    | some (tokens, scan) => scanChars (tokens.reverse ++ found) scan rest

def tokens? (text : String) : Option (List Token) :=
  (scanChars [] .between text.toList).map List.reverse

end BatchRun.Json
