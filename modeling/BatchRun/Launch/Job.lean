import BatchRun.Execution.Job
import BatchRun.Failure

/-! # Jobs

A job has a name, may check the parameters it is launched with, and has a body. The body works on
its execution and may make requests to the repository. It ends well, with a failure, or by a
panic; a panic counts as a failure.
-/

namespace BatchRun

/-- How a run of a body ended. -/
inductive BodyEnd
  | finished
  | failed (failure : Failure)
  /-- The body broke off, with a message if there is one in words. -/
  | panicked (message : Option String)
deriving DecidableEq, Repr

def BodyEnd.failure? : BodyEnd → Option Failure
  | finished => none
  | failed failure => some failure
  | panicked message =>
    some (.ofMessage ("job panicked: " ++ message.getD "non-string panic payload"))

/-- A job whose body is a program. -/
structure Job (m : Type → Type) where
  name : String
  /-- Whether an instance may run again after it has run without completing. -/
  restartable : Bool
  /-- The check of the parameters, if there is one. -/
  validator : Option (JobParameters → Except DomainError Unit)
  /-- Works on the execution and gives it back. -/
  body : JobExecution → m (BodyEnd × JobExecution)

end BatchRun
