import BatchRun.Parameters.Basic

/-! # The identity key of parameters

The identity key is one text for all identifying parameters: name, type and value of each, in the
order of the names. The characters that separate these parts get a backslash before them where
they stand in a name or value, so different parameters never run into each other.
-/

namespace BatchRun

/-- The characters that separate the parts of an identity key, and the one that guards them. -/
def isKeySeparator (c : Char) : Bool := c == '\\' || c == '=' || c == ':' || c == ';'

/-- The characters of a name or value with the separators guarded. -/
def guarded : List Char → List Char
  | [] => []
  | c :: rest => if isKeySeparator c then '\\' :: c :: guarded rest else c :: guarded rest

def JobParameter.keyPart (name : String) (parameter : JobParameter) : List Char :=
  guarded name.toList ++ '=' :: parameter.value.typeName.toList ++
    ':' :: guarded parameter.value.text.toList ++ [';']

/-- The identity key of the identifying parameters. -/
def JobParameters.identityKey (parameters : JobParameters) : String :=
  String.ofList (parameters.identifying.entries.toList.flatMap fun (name, parameter) =>
    parameter.keyPart name)

end BatchRun
