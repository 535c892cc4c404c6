import BatchRun.Config
import BatchRun.Launch.Executor
import BatchRun.Launch.Run

/-! # Launching jobs

A launch checks the parameters, looks at the last execution of the instance, claims the instance,
and hands the claimed execution over to be run. What the caller gets depends on where it is run:
the outcome if the run takes place at once, and the claimed execution if it takes place elsewhere.
An execution that nobody takes over is written as failed.
-/

namespace BatchRun

/-- What became of a claimed execution. -/
inductive Dispatched
  /-- It has been run at once. -/
  | ran (outcome : LaunchOutcome)
  /-- It has been taken over and is run elsewhere or later. -/
  | detached
  /-- Nobody has taken it over. -/
  | rejected (rejection : TaskRejected)

namespace Launch

variable {m : Type → Type} [Monad m] [MonadRepository m]

open MonadRepository (now)

/-- Whether the steps of the last execution allow a restart. The first step that does not decides
on the error. -/
def checkSteps (jobName : String) : List StepExecution → Except LaunchError Unit
  | [] => .ok ()
  | step :: rest =>
    if step.status.isRunning then .error (.alreadyRunning jobName step.jobExecutionId)
    else if step.status = .unknown then .error (.restart (.unknownStepStatus step.stepName))
    else checkSteps jobName rest

/-- Whether the last execution of the instance, if there is one, allows a launch. -/
def checkLast (job : Job m) (parameters : JobParameters) :
    Option JobExecution → Except LaunchError Unit
  | none => .ok ()
  | some last =>
    if last.status = .completed then
      .error (.instanceComplete job.name parameters.identityKey)
    else if !job.restartable then .error (.restart .notRestartable)
    else checkSteps job.name last.steps

def checkParameters (job : Job m) (parameters : JobParameters) : Except LaunchError Unit :=
  match job.validator with
  | none => .ok ()
  | some validate =>
    match validate parameters with
    | .ok () => .ok ()
    | .error error => .error (.parametersInvalid error)

def claim (job : Job m) (parameters : JobParameters) : m LaunchOutcome := do
  match checkParameters job parameters with
  | .error error => return .error error
  | .ok () =>
    match ← Calls.lastExecution job.name parameters with
    | .error error => return .error (.ofRepository error)
    | .ok last =>
      match checkLast job parameters last with
      | .error error => return .error error
      | .ok () =>
        match ← Calls.createExecution job.name parameters with
        | .error error => return .error (.ofRepository error)
        | .ok execution => return .ok execution

/-- Writes an execution that nobody has taken over as failed. The rejection is given to the caller
unless this write fails; then its error is. -/
def recordRejection (execution : JobExecution) (rejected : TaskRejected) : m LaunchError := do
  let failed := { execution.upgradeStatus .failed with
    exitStatus := ExitStatus.failed.describe rejected.message, endTime := some (← now) }
  let written ← Run.writeTerminal (failed.addFailure rejected.message)
  match written.result with
  | .error error => return .ofRepository error
  | .ok () => return .taskRejected rejected

/-- Launches a job, where `dispatch` hands a claimed execution over to be run. -/
def launch (job : Job m) (parameters : JobParameters) (dispatch : JobExecution → m Dispatched) :
    m LaunchOutcome := do
  match ← claim job parameters with
  | .error error => return .error error
  | .ok execution =>
    match ← dispatch execution with
    | .ran outcome => return outcome
    | .detached => return .ok execution
    | .rejected rejection => return .error (← recordRejection execution rejection)

end Launch

/-- How launched jobs are run. -/
structure Launcher where
  policy : RetryPolicy
  recovery : Option RecoveryHandler

namespace Launcher

variable {m : Type → Type} [Monad m] [MonadRepository m]

def ofConfig (config : LauncherConfig) : Launcher := ⟨config.retryPolicy, none⟩

def run (launcher : Launcher) (job : Job m) (execution : JobExecution) : m LaunchOutcome :=
  Run.run job launcher.policy launcher.recovery execution

def launchInline (launcher : Launcher) (job : Job m) (parameters : JobParameters) :
    m LaunchOutcome :=
  Launch.launch job parameters fun execution => return .ran (← launcher.run job execution)

end Launcher

def LauncherConfig.taskExecutor {τ : Type} (config : LauncherConfig) : TaskExecutor τ :=
  match config.executor with
  | .sync => .inline
  | .thread => .workers (.ofSlots config.maxConcurrent)

end BatchRun
