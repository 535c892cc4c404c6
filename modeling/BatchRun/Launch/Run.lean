import BatchRun.Launch.Error
import BatchRun.Launch.Job
import BatchRun.Repository.Calls

/-! # Runs

A run takes a claimed execution to its end. It is written as started, the body is attempted as
often as the policy allows, and the outcome is written once, with the time of the end. If the books
cannot be kept on the way, the run is broken off and written as failed.
-/

namespace BatchRun

/-- Takes over when all attempts have failed, and decides on the exit status. -/
abbrev RecoveryHandler := JobExecution → Failure → ExitStatus

/-- What a launch gives to its caller. -/
abbrev LaunchOutcome := Except LaunchError JobExecution

namespace Run

variable {m : Type → Type} [Monad m] [MonadRepository m]

open MonadRepository (now pause)

/-- How often the write of the outcome is tried again after a lost race. -/
def moreTerminalWrites : Nat := 2

def writeTerminal (execution : JobExecution) : m (Written JobExecution) :=
  Calls.updatePersistently moreTerminalWrites execution

/-- Breaks off a run whose books could not be kept. The cause is given to the caller unless the
write of the failure fails as well; then that error is. -/
def breakOff (execution : JobExecution) (cause : RepositoryError) : m LaunchOutcome := do
  let failed := { execution.upgradeStatus .failed with
    exitStatus := ExitStatus.failed.describe cause.message, endTime := some (← now) }
  let written ← writeTerminal (failed.addFailure cause.message)
  match written.result with
  | .error error => return .error (.ofRepository error)
  | .ok () => return .error (.ofRepository cause)

/-- One attempt of the body, which begins with a fresh exit status. A failure is noted. -/
def attempt (job : Job m) (number : UInt32) : StateT JobExecution m (Except Failure Unit) :=
  fun execution => do
    let (ending, execution) ← job.body { execution with exitStatus := .executing }
    match ending.failure? with
    | none => return (.ok (), execution)
    | some failure =>
      let note := "attempt " ++ toString number ++ ": " ++ failure.chain
      return (.error failure, execution.addFailure note)

def attempts (job : Job m) (policy : RetryPolicy) (execution : JobExecution) :
    m (Except RetryExhausted Unit × JobExecution) :=
  (Retry.execute (fun delay => StateT.lift (pause delay)) policy (attempt job)).run execution

/-- An execution whose body has ended well: stopped if it was asked to stop, else completed. -/
def succeeded (execution : JobExecution) : JobExecution :=
  if execution.isStopping then
    { execution with
      status := .stopped, exitStatus := execution.exitStatus.and .stopped }
  else
    { execution.upgradeStatus .completed with
      exitStatus := execution.exitStatus.and .completed }

/-- An execution whose attempts have all failed, and the error for the caller: none if there is
somebody to take over. -/
def exhausted (recovery : Option RecoveryHandler) (execution : JobExecution)
    (exhausted : RetryExhausted) : JobExecution × Option LaunchError :=
  let failed := execution.upgradeStatus .failed
  match recovery with
  | some recover =>
    ({ failed with exitStatus := recover failed exhausted.lastFailure }, none)
  | none =>
    ({ failed with exitStatus := ExitStatus.failed.describe exhausted.lastFailure.chain },
      some (.retryExhausted exhausted))

def finish (execution : JobExecution) (error? : Option LaunchError) : m LaunchOutcome := do
  let written ← writeTerminal { execution with endTime := some (← now) }
  match written.result with
  | .error error => return .error (.ofRepository error)
  | .ok () =>
    match ← Calls.updateContext written.copy with
    | .error error => return .error (.ofRepository error)
    | .ok () =>
      match error? with
      | some error => return .error error
      | none => return .ok written.copy

def run (job : Job m) (policy : RetryPolicy) (recovery : Option RecoveryHandler)
    (execution : JobExecution) : m LaunchOutcome := do
  let starting := { execution with startTime := some (← now) }
  let started ← Calls.update (starting.upgradeStatus .started)
  match started.result with
  | .error cause => breakOff started.copy cause
  | .ok () =>
    let (result, execution) ← attempts job policy started.copy
    match result with
    | .ok () =>
      let refreshed ← Calls.synchronize execution
      match refreshed.result with
      | .error cause => breakOff refreshed.copy cause
      | .ok () => finish (succeeded refreshed.copy) none
    | .error failures =>
      let (failed, error?) := exhausted recovery execution failures
      finish failed error?

end Run

end BatchRun
