/-! # Domain errors

What can go wrong in the model itself, apart from any store: parameters that are not acceptable, a
value without a JSON form, a text that names no record, an operation out of place.
-/

namespace BatchRun

/-- An error of the model, with its details in words. -/
inductive DomainError
  | invalidParameters (details : String)
  | serialization (details : String)
  | invalidId (details : String)
  | illegalState (details : String)
deriving DecidableEq, Repr

def DomainError.kind : DomainError → String
  | .invalidParameters _ => "InvalidParameters"
  | .serialization _ => "Serialization"
  | .invalidId _ => "InvalidId"
  | .illegalState _ => "IllegalState"

def DomainError.message : DomainError → String
  | .invalidParameters details => "invalid job parameters: " ++ details
  | .serialization details => "serialization failed: " ++ details
  | .invalidId details => "invalid identifier: " ++ details
  | .illegalState details => "illegal state: " ++ details

end BatchRun
