/-! # Failures

A failure is a message together with its causes, the outermost first. In records it stands with
all its causes in one line.
-/

namespace BatchRun

/-- A failure of a job or of a source of items. -/
structure Failure where
  /-- What went wrong, as seen from outside. -/
  message : String
  /-- What caused it, each entry the cause of the one before. -/
  causes : List String
deriving DecidableEq, Repr

namespace Failure

def ofMessage (message : String) : Failure := ⟨message, []⟩

def ofList : List String → Failure
  | [] => ofMessage ""
  | message :: causes => ⟨message, causes⟩

/-- The message and all causes, separated by colons. -/
def chain (failure : Failure) : String := ": ".intercalate (failure.message :: failure.causes)

end Failure

end BatchRun
