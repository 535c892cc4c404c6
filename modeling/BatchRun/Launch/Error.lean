import BatchRun.DomainError
import BatchRun.Repository.Error
import BatchRun.Retry.Execute

/-! # Launch errors

Why a launch has not led to a completed run: the parameters were not acceptable, the instance could
not be claimed, nobody took over the run, the job failed as often as it was allowed to, or the
books could not be kept.
-/

namespace BatchRun

/-- A task that was not taken over, and why. -/
structure TaskRejected where
  reason : String
deriving DecidableEq, Repr

def TaskRejected.message (rejected : TaskRejected) : String := "task rejected: " ++ rejected.reason

/-- Why a launch has not led to a completed run. -/
inductive LaunchError
  | parametersInvalid (error : DomainError)
  | alreadyRunning (jobName : String) (id : JobExecutionId)
  | restart (reason : RestartReason)
  | instanceComplete (jobName identityKey : String)
  | taskRejected (rejected : TaskRejected)
  | retryExhausted (exhausted : RetryExhausted)
  | repository (error : RepositoryError)
deriving DecidableEq, Repr

namespace LaunchError

/-- The errors that concern the claim of an instance are those of the launch itself. -/
def ofRepository : RepositoryError → LaunchError
  | .alreadyRunning jobName id => alreadyRunning jobName id
  | .restart _ reason => restart reason
  | .instanceComplete jobName identityKey => instanceComplete jobName identityKey
  | error => repository error

def kind : LaunchError → String
  | parametersInvalid error => "ParametersInvalid." ++ error.kind
  | alreadyRunning .. => "AlreadyRunning"
  | restart reason => "Restart." ++ reason.kind
  | instanceComplete .. => "InstanceAlreadyComplete"
  | taskRejected _ => "TaskRejected"
  | retryExhausted _ => "RetryExhausted"
  | repository error => "Repository." ++ error.kind

def causes : LaunchError → List String
  | parametersInvalid error => [error.message]
  | _ => []

def message : LaunchError → String
  | parametersInvalid error => "invalid job parameters: " ++ error.message
  | alreadyRunning jobName id =>
    "job '" ++ jobName ++ "' is already running (execution " ++ toString id ++ ")"
  | restart reason => "restart rejected: " ++ reason.text
  | instanceComplete jobName identityKey =>
    "job instance '" ++ jobName ++ "' is already complete for parameters [" ++ identityKey ++ "]"
  | taskRejected rejected => rejected.message
  | retryExhausted exhausted => exhausted.message
  | repository error => error.message

end LaunchError

end BatchRun
