import BatchRun.Json.Codec
import BatchRun.Number.DoubleText
import BatchRun.Time.Rfc3339

/-! # Job parameters

The parameters of a launch are named values of four types. Each is identifying or not: only the
identifying ones decide which job instance is meant.
-/

namespace BatchRun

inductive ParameterValue
  | string (text : String)
  | long (number : Int64)
  | double (number : Float)
  | date (moment : Timestamp)

namespace ParameterValue

def typeName : ParameterValue → String
  | string _ => "string"
  | long _ => "long"
  | double _ => "double"
  | date _ => "date"

def text : ParameterValue → String
  | string text => text
  | long number => toString number
  | double number => Number.plain.text number
  | date moment => moment.text

/-- Values are compared by type and content, doubles as numbers. -/
instance : BEq ParameterValue where
  beq
    | string first, string second => first == second
    | long first, long second => first == second
    | double first, double second => first == second
    | date first, date second => first == second
    | _, _ => false

end ParameterValue

/-- A parameter without its name. -/
structure JobParameter where
  value : ParameterValue
  /-- Whether the parameter takes part in the identity of the job instance. -/
  identifying : Bool
deriving BEq

/-- The parameters of a launch, by name. -/
structure JobParameters where
  entries : SortedMap String JobParameter

namespace JobParameters

instance : BEq JobParameters := ⟨fun first second => first.entries.toList == second.entries.toList⟩

def empty : JobParameters := ⟨.empty⟩

instance : Inhabited JobParameters := ⟨empty⟩

/-- The parameters with one more, in place of an earlier one of the same name. -/
def insert (parameters : JobParameters) (name : String) (parameter : JobParameter) :
    JobParameters :=
  ⟨parameters.entries.insert name parameter⟩

def ofList (entries : List (String × JobParameter)) : JobParameters := ⟨.ofList entries⟩

def size (parameters : JobParameters) : Nat := parameters.entries.size

def names (parameters : JobParameters) : List String := parameters.entries.keys

def contains (parameters : JobParameters) (name : String) : Bool := parameters.entries.contains name

def get? (parameters : JobParameters) (name : String) : Option JobParameter :=
  parameters.entries.get? name

/-- The text under this name, if a text is there. -/
def string? (parameters : JobParameters) (name : String) : Option String :=
  match parameters.get? name with
  | some ⟨.string text, _⟩ => some text
  | _ => none

def long? (parameters : JobParameters) (name : String) : Option Int64 :=
  match parameters.get? name with
  | some ⟨.long number, _⟩ => some number
  | _ => none

def double? (parameters : JobParameters) (name : String) : Option Float :=
  match parameters.get? name with
  | some ⟨.double number, _⟩ => some number
  | _ => none

def date? (parameters : JobParameters) (name : String) : Option Timestamp :=
  match parameters.get? name with
  | some ⟨.date moment, _⟩ => some moment
  | _ => none

def identifying (parameters : JobParameters) : JobParameters :=
  ⟨parameters.entries.filter fun _ parameter => parameter.identifying⟩

end JobParameters

end BatchRun
