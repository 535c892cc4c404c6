import BatchRun.DomainError
import BatchRun.Json.Codec

/-! # Execution contexts

An execution context holds what a job or step needs in order to go on where it left off: JSON
values by name. It is dirty if its entries have changed since the flag was last cleared. Writing
an equal value and removing what is not there change nothing.
-/

namespace BatchRun

/-- Restart state: JSON values by name, and whether they have changed. -/
structure ExecutionContext where
  entries : SortedMap String Json
  dirty : Bool

namespace ExecutionContext

/-- Two contexts are the same if their entries are; the flag does not matter. -/
instance : BEq ExecutionContext :=
  ⟨fun first second => Json.sameMembers first.entries.toList second.entries.toList⟩

def empty : ExecutionContext := ⟨.empty, false⟩

instance : Inhabited ExecutionContext := ⟨empty⟩

/-- A context with these entries, not dirty. -/
def ofEntries (entries : SortedMap String Json) : ExecutionContext := ⟨entries, false⟩

def value? (context : ExecutionContext) (name : String) : Option Json := context.entries.get? name

def contains (context : ExecutionContext) (name : String) : Bool := context.entries.contains name

def size (context : ExecutionContext) : Nat := context.entries.size

def isEmpty (context : ExecutionContext) : Bool := context.entries.isEmpty

/-- Writes a JSON value. An equal value is left in place. -/
def putValue (context : ExecutionContext) (name : String) (value : Json) : ExecutionContext :=
  match context.value? name with
  | some present =>
    if present == value then context else ⟨context.entries.insert name value, true⟩
  | none => ⟨context.entries.insert name value, true⟩

/-- Writes the JSON form of a value. Without such a form nothing is written. -/
def put {α : Type} [JsonEncode α] (context : ExecutionContext) (name : String) (value : α) :
    Except DomainError ExecutionContext :=
  match encode? value with
  | some json => .ok (context.putValue name json)
  | none => .error (.serialization "context value")

/-- Reads the value under a name as a value of some type, if there is one. -/
def get {α : Type} [JsonDecode α] (context : ExecutionContext) (name : String) :
    Except DomainError (Option α) :=
  match context.value? name with
  | none => .ok none
  | some json =>
    match decode? json.toDocument with
    | some value => .ok (some value)
    | none => .error (.serialization ("context key '" ++ name ++ "'"))

def string? (context : ExecutionContext) (name : String) : Option String :=
  (context.value? name).bind fun json => decode? json.toDocument

/-- The whole number under a name, if one of 64 bits is there. -/
def long? (context : ExecutionContext) (name : String) : Option Int64 :=
  (context.value? name).bind fun json => decode? json.toDocument

def remove (context : ExecutionContext) (name : String) : ExecutionContext :=
  if context.contains name then ⟨context.entries.erase name, true⟩ else context

def clearDirty (context : ExecutionContext) : ExecutionContext := { context with dirty := false }

end ExecutionContext

end BatchRun
