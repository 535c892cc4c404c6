import BatchRun.Json.Document

/-! # JSON forms of types

A type has a JSON form if its values can be encoded and read back from a document. Encoding may
fail, for not every value of every type has a JSON form. Records are read from an object by the
names of their fields, or from an array with all fields in order.
-/

namespace BatchRun

/-- Types with values that have a JSON form. -/
class JsonEncode (α : Type) where
  encode? : α → Option Json

/-- Types with values that can be read from a document. -/
class JsonDecode (α : Type) where
  decode? : Document → Option α

export JsonEncode (encode?)
export JsonDecode (decode?)

namespace Json

/-- An object with the given members. -/
def ofMembers (members : List (String × Json)) : Json := .object (SortedMap.ofList members).toList

end Json

namespace Document

/-- The value of the member with this name, if it occurs exactly once; none at all if it is
missing. A name that occurs twice makes the record unreadable. -/
def member? (members : List (String × Document)) (name : String) : Option (Option Document) :=
  match members.filter (·.1 == name) with
  | [] => some none
  | [member] => some (some member.2)
  | _ => none

/-- The fields of a record, in the order of the given names. A field of an object may be missing,
and members with other names are passed over. An array has to have all the fields and no more. -/
def fields? (names : List String) : Document → Option (List (Option Document))
  | .object members => do
    let members ← members.mapM fun (name?, value) => name?.map fun name => (name, value)
    names.mapM (member? members)
  | .array items => if items.length = names.length then some (items.map some) else none
  | _ => none

/-- A choice between names: a string, or an object with that name as only member and no value. -/
def choice? : Document → Option String
  | .string name => some name
  | .object [(name?, .null)] => name?
  | _ => none

/-- A value together with its kind, in a record of these two fields. In an array the kind has to be
a string. -/
def tagged? (kindName valueName : String) : Document → Option (String × Document)
  | .array [.string kind, value] => some (kind, value)
  | .object members => do
    match ← fields? [kindName, valueName] (.object members) with
    | [kind, value] => return (← choice? (← kind), ← value)
    | _ => none
  | _ => none

def required {α : Type} [JsonDecode α] (field : Option Document) : Option α := field.bind decode?

/-- A field that may be missing or null. -/
def omissible {α : Type} [JsonDecode α] : Option Document → Option (Option α)
  | none => some none
  | some .null => some none
  | some document => (decode? document).map some

end Document

open Document

instance : JsonEncode Json := ⟨some⟩
instance : JsonDecode Json := ⟨toJson?⟩

instance : JsonEncode String := ⟨fun text => some (.string text)⟩
instance : JsonDecode String where
  decode?
    | .string text => some text
    | _ => none

instance : JsonEncode Bool := ⟨fun value => some (.bool value)⟩
instance : JsonDecode Bool where
  decode?
    | .bool value => some value
    | _ => none

def Document.integer? (low high : Int) : Document → Option Int
  | .integer value => if low ≤ value ∧ value ≤ high then some value else none
  | _ => none

instance : JsonEncode Int := ⟨fun value => some (.integer value)⟩
instance : JsonDecode Int where
  decode?
    | .integer value => some value
    | _ => none

instance : JsonEncode Nat := ⟨fun value => some (.integer value)⟩
instance : JsonDecode Nat where
  decode?
    | .integer value => value.toNat?
    | _ => none

instance : JsonEncode UInt64 := ⟨fun value => some (.integer value.toNat)⟩
instance : JsonDecode UInt64 where
  decode? document :=
    (integer? 0 18446744073709551615 document).map fun value => UInt64.ofNat value.toNat

instance : JsonEncode UInt32 := ⟨fun value => some (.integer value.toNat)⟩
instance : JsonDecode UInt32 where
  decode? document := (integer? 0 4294967295 document).map fun value => UInt32.ofNat value.toNat

instance : JsonEncode UInt8 := ⟨fun value => some (.integer value.toNat)⟩
instance : JsonDecode UInt8 where
  decode? document := (integer? 0 255 document).map fun value => UInt8.ofNat value.toNat

instance : JsonEncode Int64 := ⟨fun value => some (.integer value.toInt)⟩
instance : JsonDecode Int64 where
  decode? document :=
    (integer? (-9223372036854775808) 9223372036854775807 document).map Int64.ofInt

/-- A double that is no number has no JSON form of its own and becomes null. -/
instance : JsonEncode Float where
  encode? value := some (if value.isNaN || value.isInf then .null else .double value)

/-- A whole number is read as the nearest double. -/
instance : JsonDecode Float where
  decode?
    | .double value => some value
    | .integer value =>
      let size := (UInt64.ofNat value.natAbs).toFloat
      some (if value < 0 then -size else size)
    | _ => none

instance {α : Type} [JsonEncode α] : JsonEncode (Option α) where
  encode?
    | none => some .null
    | some value => encode? value

instance {α : Type} [JsonDecode α] : JsonDecode (Option α) where
  decode? document := omissible (some document)

instance {α : Type} [JsonEncode α] : JsonEncode (List α) where
  encode? values := (values.mapM encode?).map .array

instance {α : Type} [JsonDecode α] : JsonDecode (List α) where
  decode?
    | .array items => items.mapM decode?
    | _ => none

instance {α β : Type} [JsonEncode α] [JsonEncode β] : JsonEncode (α × β) where
  encode? pair := do return .array [← encode? pair.1, ← encode? pair.2]

instance {α β : Type} [JsonDecode α] [JsonDecode β] : JsonDecode (α × β) where
  decode?
    | .array [first, second] => do return (← decode? first, ← decode? second)
    | _ => none

/-- The JSON form of entries: each key becomes the name of a member, so it needs a text. -/
def encodeMembers? {κ α : Type} [JsonEncode α] (name? : κ → Option String) :
    List (κ × α) → Option (List (String × Json))
  | [] => some []
  | (key, value) :: rest => do
    let name ← name? key
    let json ← encode? value
    let members ← encodeMembers? name? rest
    return (name, json) :: members

def decodeMembers? {α : Type} [JsonDecode α] :
    List (Option String × Document) → Option (List (String × α))
  | [] => some []
  | (name?, document) :: rest => do
    let name ← name?
    let value ← decode? document
    let members ← decodeMembers? rest
    return (name, value) :: members

instance {α : Type} [JsonEncode α] : JsonEncode (SortedMap String α) where
  encode? map := (encodeMembers? some map.toList).map .object

/-- Of several members with the same name the last one counts. -/
instance {α : Type} [JsonDecode α] : JsonDecode (SortedMap String α) where
  decode?
    | .object members => (decodeMembers? members).map SortedMap.ofList
    | _ => none

end BatchRun
