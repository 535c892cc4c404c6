import BatchRun.DomainError
import BatchRun.Parameters.Basic
import BatchRun.Text.Quoted

/-! # Checking parameters

Some names are required, others are optional. As soon as there are optional names, no name may
occur that is neither. A missing name is reported before a name that should not be there.
-/

namespace BatchRun

/-- The names that parameters have to have and those they may have. -/
structure ParametersValidator where
  required : SortedMap String Unit
  optional : SortedMap String Unit
deriving DecidableEq

namespace ParametersValidator

def nameSet (names : List String) : SortedMap String Unit :=
  .ofList (names.map fun name => (name, ()))

/-- A validator for these names. No name can be both required and optional. -/
def ofNames (required optional : List String) : Except DomainError ParametersValidator :=
  let required := nameSet required
  let optional := nameSet optional
  match required.keys.find? optional.contains with
  | some name =>
    .error (.illegalState ("key '" ++ name ++ "' cannot be both required and optional"))
  | none => .ok ⟨required, optional⟩

/-- The required names that the parameters lack. -/
def missing (validator : ParametersValidator) (parameters : JobParameters) : List String :=
  validator.required.keys.filter fun name => !parameters.contains name

/-- The names that are neither required nor optional, if there are optional names. -/
def unexpected (validator : ParametersValidator) (parameters : JobParameters) : List String :=
  if validator.optional.isEmpty then []
  else parameters.names.filter fun name =>
    !validator.required.contains name && !validator.optional.contains name

def validate (validator : ParametersValidator) (parameters : JobParameters) :
    Except DomainError Unit :=
  let missing := validator.missing parameters
  let unexpected := validator.unexpected parameters
  if !missing.isEmpty then
    .error (.invalidParameters ("missing required keys: " ++ Text.quoteList missing))
  else if !unexpected.isEmpty then
    .error (.invalidParameters
      ("keys neither required nor optional: " ++ Text.quoteList unexpected))
  else .ok ()

end ParametersValidator

end BatchRun
