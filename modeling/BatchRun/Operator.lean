import BatchRun.Repository.Calls

/-! # Operators

An operator can ask a running execution to stop, and can abandon one that has ended. A stop is a
request: the run finds it when it looks at its status, and the running steps are asked to end. An
operator works on copies, so a write that loses a race starts again from a new copy.
-/

namespace BatchRun

inductive OperatorError
  | notFound (id : JobExecutionId)
  | notRunning (id : JobExecutionId) (status : BatchStatus)
  | stillRunning (id : JobExecutionId) (status : BatchStatus)
  | repository (error : RepositoryError)
deriving DecidableEq, Repr

def OperatorError.kind : OperatorError → String
  | notFound _ => "NotFound"
  | notRunning .. => "NotRunning"
  | stillRunning .. => "StillRunning"
  | repository error => "Repository." ++ error.kind

def OperatorError.message : OperatorError → String
  | notFound id => "job execution " ++ toString id ++ " not found"
  | notRunning id status =>
    "job execution " ++ toString id ++ " is not running (status " ++ status.name ++ ")"
  | stillRunning id status =>
    "job execution " ++ toString id ++ " is still running (status " ++ status.name ++ ")"
  | repository error => error.message

namespace Operator

variable {m : Type → Type} [Monad m] [MonadRepository m]

/-- How often a status is written again after a lost race. -/
def moreStatusWrites : Nat := 4

def checkRunning (id : JobExecutionId) (execution : JobExecution) : Except OperatorError Unit :=
  if execution.isRunning then .ok () else .error (.notRunning id execution.status)

def checkEnded (id : JobExecutionId) (execution : JobExecution) : Except OperatorError Unit :=
  if execution.isRunning then .error (.stillRunning id execution.status) else .ok ()

/-- Reads the execution and, if the copy passes the check, writes it with the status moved up. -/
def tryStatus (id : JobExecutionId) (status : BatchStatus)
    (check : JobExecution → Except OperatorError Unit) :
    m (Except OperatorError (Written JobExecution)) := do
  match ← Calls.execution id with
  | .error error => return .error (.repository error)
  | .ok none => return .error (.notFound id)
  | .ok (some execution) =>
    match check execution with
    | .error error => return .error error
    | .ok () => return .ok (← Calls.update (execution.upgradeStatus status))

def statusOutcome (written : Written JobExecution) : Except OperatorError JobExecution :=
  match written.result with
  | .ok () => .ok written.copy
  | .error error => .error (.repository error)

/-- Moves the stored status up, if the current copy passes the check. After each lost race all is
done again from the beginning, as often as `more` says. -/
def writeStatus (id : JobExecutionId) (status : BatchStatus)
    (check : JobExecution → Except OperatorError Unit) :
    (more : Nat) → m (Except OperatorError JobExecution)
  | 0 => do
    match ← tryStatus id status check with
    | .error error => return .error error
    | .ok written => return statusOutcome written
  | more + 1 => do
    match ← tryStatus id status check with
    | .error error => return .error error
    | .ok written =>
      match written.result with
      | .error error =>
        if error.isOptimisticLock then writeStatus id status check more
        else return statusOutcome written
      | .ok () => return statusOutcome written

/-- Asks the running steps among these to end, up to the first one that cannot be written. -/
def askStepsToEnd : List StepExecution → m (Except OperatorError Unit)
  | [] => return .ok ()
  | step :: rest => do
    if !step.status.isRunning || step.terminateOnly then askStepsToEnd rest
    else
      let written ← Calls.updateStep step.askToEnd
      match written.result with
      | .error error => return .error (.repository error)
      | .ok () => askStepsToEnd rest

/-- Asks an execution and its running steps to stop. -/
def stop (id : JobExecutionId) : m (Except OperatorError JobExecution) := do
  match ← writeStatus id .stopping (checkRunning id) moreStatusWrites with
  | .error error => return .error error
  | .ok execution =>
    match ← askStepsToEnd execution.steps with
    | .error error => return .error error
    | .ok () => return .ok execution

/-- Marks an execution that has ended, so that it is never restarted from. -/
def abandon (id : JobExecutionId) : m (Except OperatorError JobExecution) :=
  writeStatus id .abandoned (checkEnded id) moreStatusWrites

end Operator

end BatchRun
