import BatchRun.Store.Error

/-! # Repository errors

Why the repository refuses a call. Three of the errors concern the claim of an instance: it is
held by a running execution, its last execution forbids a restart, or it is complete.
-/

namespace BatchRun

/-- Why an instance cannot be restarted. -/
inductive RestartReason
  /-- The job may run only once, and the instance has run. -/
  | notRestartable
  /-- It is not known how a step of the last execution ended. -/
  | unknownStepStatus (stepName : String)
  /-- It is not known how the last execution ended. -/
  | unknownStatus (id : JobExecutionId)
deriving DecidableEq, Repr

def RestartReason.kind : RestartReason → String
  | notRestartable => "NotRestartable"
  | unknownStepStatus _ => "UnknownStepStatus"
  | unknownStatus _ => "UnknownStatus"

def RestartReason.text : RestartReason → String
  | notRestartable => "job is not restartable"
  | unknownStepStatus stepName => "step '" ++ stepName ++ "' is in UNKNOWN status"
  | unknownStatus id => "job execution " ++ toString id ++ " is in UNKNOWN status"

/-- Why the repository refuses a call. -/
inductive RepositoryError
  | alreadyRunning (jobName : String) (id : JobExecutionId)
  | restart (jobName : String) (reason : RestartReason)
  | instanceComplete (jobName identityKey : String)
  | notFound (what : String)
  | store (error : StoreError)
deriving DecidableEq, Repr

namespace RepositoryError

def isOptimisticLock : RepositoryError → Bool
  | store error => error.isOptimisticLock
  | _ => false

def kind : RepositoryError → String
  | alreadyRunning .. => "AlreadyRunning"
  | restart _ reason => "Restart." ++ reason.kind
  | instanceComplete .. => "InstanceAlreadyComplete"
  | notFound _ => "NotFound"
  | store error => "Store." ++ error.kind

def message : RepositoryError → String
  | alreadyRunning jobName id =>
    "a job execution for '" ++ jobName ++ "' is already running (id=" ++ toString id ++ ")"
  | restart jobName reason => "cannot restart '" ++ jobName ++ "': " ++ reason.text
  | instanceComplete jobName identityKey =>
    "job instance '" ++ jobName ++ "' already completed for parameters [" ++ identityKey ++ "]"
  | notFound what => "not found: " ++ what
  | store error => error.message

end RepositoryError

end BatchRun
