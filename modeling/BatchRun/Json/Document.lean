import BatchRun.Json.Basic
import BatchRun.SortedMap

/-! # JSON documents

A document is a JSON text as it was written: members stand in the order of the text and a name may
occur twice. Some texts are well formed and yet have no value, such as a number beyond the largest
double or a half of a surrogate pair. Where nobody looks they do no harm, so they are part of the
document as unreadable places.
-/

namespace BatchRun

/-- A JSON text with its structure, before names are looked up or repetitions resolved. -/
inductive Document
  | null
  | bool (value : Bool)
  | integer (value : Int)
  | double (value : Float)
  | string (text : String)
  | array (items : List Document)
  | object (members : List (Option String × Document))
  | unreadable
deriving Inhabited

mutual

/-- A JSON value seen as a document. -/
def Json.toDocument : Json → Document
  | .null => .null
  | .bool value => .bool value
  | .integer value => .integer value
  | .double value => .double value
  | .string text => .string text
  | .array items => .array (Json.toDocuments items)
  | .object members => .object (Json.toMembers members)

def Json.toDocuments : List Json → List Document
  | [] => []
  | item :: items => item.toDocument :: Json.toDocuments items

def Json.toMembers : List (String × Json) → List (Option String × Document)
  | [] => []
  | (name, value) :: members => (some name, value.toDocument) :: Json.toMembers members

end

namespace Document

mutual

/-- The value of a document: the last of several members with one name counts. A document with an
unreadable place has none. -/
def toJson? : Document → Option Json
  | .null => some .null
  | .bool value => some (.bool value)
  | .integer value => some (.integer value)
  | .double value => some (.double value)
  | .string text => some (.string text)
  | .array items => (toItems? items).map .array
  | .object members => (toMembers? members).map fun members =>
      .object (SortedMap.ofList members).toList
  | .unreadable => none

def toItems? : List Document → Option (List Json)
  | [] => some []
  | item :: items => do
    let value ← toJson? item
    let values ← toItems? items
    return value :: values

def toMembers? : List (Option String × Document) → Option (List (String × Json))
  | [] => some []
  | (name?, value) :: members => do
    let name ← name?
    let value ← toJson? value
    let values ← toMembers? members
    return (name, value) :: values

end

mutual

/-- The document with every array and object inside more than `depth` others made unreadable. -/
def limitDepth (depth : Nat) : Document → Document
  | .array items =>
    match depth with
    | 0 => .unreadable
    | depth + 1 => .array (limitItems depth items)
  | .object members =>
    match depth with
    | 0 => .unreadable
    | depth + 1 => .object (limitMembers depth members)
  | leaf => leaf

def limitItems (depth : Nat) : List Document → List Document
  | [] => []
  | item :: items => limitDepth depth item :: limitItems depth items

def limitMembers (depth : Nat) :
    List (Option String × Document) → List (Option String × Document)
  | [] => []
  | (name, value) :: members => (name, limitDepth depth value) :: limitMembers depth members

end

end Document

end BatchRun
