/-! # Exit statuses

An exit status is a code for the outcome together with a description in free text. Codes are
ranked by severity: six codes are well known, and any other code ranks above them.
-/

namespace BatchRun

/-- The outcome of an execution. -/
structure ExitStatus where
  code : String
  description : String
deriving DecidableEq, Repr

namespace ExitStatus

def ofCode (code : String) : ExitStatus := ⟨code, ""⟩

def unknown : ExitStatus := ofCode "UNKNOWN"
def executing : ExitStatus := ofCode "EXECUTING"
def completed : ExitStatus := ofCode "COMPLETED"
def noop : ExitStatus := ofCode "NOOP"
def failed : ExitStatus := ofCode "FAILED"
def stopped : ExitStatus := ofCode "STOPPED"

instance : Inhabited ExitStatus := ⟨unknown⟩

def severity (status : ExitStatus) : Nat :=
  match status.code with
  | "EXECUTING" => 1
  | "COMPLETED" => 2
  | "NOOP" => 3
  | "STOPPED" => 4
  | "FAILED" => 5
  | "UNKNOWN" => 6
  | _ => 7

/-- Whether the code is that of an execution which has not ended. -/
def isRunning (status : ExitStatus) : Bool :=
  status.code == "EXECUTING" || status.code == "UNKNOWN"

def withCode (status : ExitStatus) (code : String) : ExitStatus := { status with code }

/-- The status with a further description after a semicolon. One that is empty, or that is already
the whole description, adds nothing. -/
def describe (status : ExitStatus) (addition : String) : ExitStatus :=
  if addition = "" ∨ status.description = addition then status
  else if status.description = "" then { status with description := addition }
  else { status with description := status.description ++ "; " ++ addition }

/-- Two outcomes as one: the more severe code, the first one if they are equally severe, and both
descriptions. -/
def and (status other : ExitStatus) : ExitStatus :=
  let severe := if status.severity < other.severity then status.withCode other.code else status
  severe.describe other.description

/-- The code, and after a colon the description if there is one. -/
def text (status : ExitStatus) : String :=
  if status.description = "" then status.code else status.code ++ ": " ++ status.description

end ExitStatus

end BatchRun
