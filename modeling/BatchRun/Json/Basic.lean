/-! # JSON values

A JSON value as it is kept and compared: numbers are whole numbers or doubles, which are never
equal to each other, and the members of an object stand in the order of their names.
-/

namespace BatchRun

inductive Json
  | null
  | bool (value : Bool)
  | integer (value : Int)
  | double (value : Float)
  | string (text : String)
  | array (items : List Json)
  | object (members : List (String × Json))
deriving Inhabited

namespace Json

mutual

/-- Whether two values are the same. Doubles are compared as numbers, so both zeros are equal. -/
def same : Json → Json → Bool
  | .null, .null => true
  | .bool first, .bool second => first == second
  | .integer first, .integer second => first == second
  | .double first, .double second => first == second
  | .string first, .string second => first == second
  | .array first, .array second => sameItems first second
  | .object first, .object second => sameMembers first second
  | _, _ => false

def sameItems : List Json → List Json → Bool
  | [], [] => true
  | first :: firsts, second :: seconds => same first second && sameItems firsts seconds
  | _, _ => false

def sameMembers : List (String × Json) → List (String × Json) → Bool
  | [], [] => true
  | (firstName, first) :: firsts, (secondName, second) :: seconds =>
    firstName == secondName && same first second && sameMembers firsts seconds
  | _, _ => false

end

instance : BEq Json := ⟨same⟩

/-- The value of the member with this name, if the value is an object that has it. -/
def member? : Json → String → Option Json
  | .object members, name => members.lookup name
  | _, _ => none

end Json

end BatchRun
