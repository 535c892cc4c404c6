import BatchRun.Json.Token

/-! # Reading JSON

The reader goes through the tokens of a text once. It keeps the arrays and objects that are still
open, the innermost first, and what may come next.
-/

namespace BatchRun

namespace Json

/-- An array or object that is still open, the latest item or member first. -/
inductive Open
  | array (items : List Document)
  | object (members : List (Option String × Document))
  | member (name : Option String) (members : List (Option String × Document))

inductive Expecting
  | value
  /-- A value, or the end of an array without items. -/
  | valueOrEnd
  | name
  /-- A name, or the end of an object without members. -/
  | nameOrEnd
  | colon
  /-- A comma or the end of what is open; at the top, nothing. -/
  | separator

structure Reading where
  opened : List Open
  expecting : Expecting
  result : Option Document

/-- A value is complete: it goes into what is open, or it is the result. -/
def Reading.complete (opened : List Open) (value : Document) : Option Reading :=
  match opened with
  | [] => some ⟨[], .separator, some value⟩
  | .array items :: outer => some ⟨.array (value :: items) :: outer, .separator, none⟩
  | .member name members :: outer =>
    some ⟨.object ((name, value) :: members) :: outer, .separator, none⟩
  | .object _ :: _ => none

def textDocument (value : Option String) : Document := (value.map .string).getD .unreadable

def Reading.value (opened : List Open) : Token → Option Reading
  | .leaf value => complete opened value
  | .text value => complete opened (textDocument value)
  | .openBracket => some ⟨.array [] :: opened, .valueOrEnd, none⟩
  | .openBrace => some ⟨.object [] :: opened, .nameOrEnd, none⟩
  | _ => none

def Reading.token (reading : Reading) (token : Token) : Option Reading :=
  match reading.expecting, token, reading.opened with
  | .value, token, opened => value opened token
  | .valueOrEnd, .closeBracket, .array _ :: outer => complete outer (.array [])
  | .valueOrEnd, token, opened => value opened token
  | .name, .text name, .object members :: outer =>
    some ⟨.member name members :: outer, .colon, none⟩
  | .nameOrEnd, .text name, .object members :: outer =>
    some ⟨.member name members :: outer, .colon, none⟩
  | .nameOrEnd, .closeBrace, .object _ :: outer => complete outer (.object [])
  | .colon, .colon, opened => some ⟨opened, .value, none⟩
  | .separator, .comma, .array items :: outer => some ⟨.array items :: outer, .value, none⟩
  | .separator, .comma, .object members :: outer => some ⟨.object members :: outer, .name, none⟩
  | .separator, .closeBracket, .array items :: outer => complete outer (.array items.reverse)
  | .separator, .closeBrace, .object members :: outer => complete outer (.object members.reverse)
  | _, _, _ => none

end Json

/-- How many arrays and objects may stand inside each other. -/
def Document.maxDepth : Nat := 127

/-- Reads a JSON text. What is nested too deeply is unreadable. -/
def Document.read? (text : String) : Option Document := do
  let tokens ← Json.tokens? text
  let reading ← tokens.foldlM Json.Reading.token ⟨[], .value, none⟩
  let document ← reading.result
  return document.limitDepth maxDepth

def Json.read? (text : String) : Option Json := do
  (← Document.read? text).toJson?

end BatchRun
