import BatchRun.Execution.Instance
import BatchRun.Execution.Step

/-! # Job executions

A job execution is one attempt to run a job instance. Copies of it are handed around; a copy that
has been saved carries the number of the record and the version it has last seen.
-/

namespace BatchRun

/-- One attempt to run a job instance. -/
structure JobExecution where
  /-- The number of a saved execution. -/
  id : Option JobExecutionId
  /-- How often the execution has been written, as far as this copy knows. -/
  version : UInt64
  jobInstance : JobInstance
  parameters : JobParameters
  status : BatchStatus
  exitStatus : ExitStatus
  createTime : Timestamp
  startTime : Option Timestamp
  endTime : Option Timestamp
  lastUpdated : Option Timestamp
  context : ExecutionContext
  steps : List StepExecution
  /-- What went wrong, the oldest first. -/
  failures : List String
deriving BEq

namespace JobExecution

def create (now : Timestamp) (jobInstance : JobInstance) (parameters : JobParameters) :
    JobExecution where
  id := none
  version := 0
  jobInstance
  parameters
  status := .starting
  exitStatus := .unknown
  createTime := now
  startTime := none
  endTime := none
  lastUpdated := none
  context := .empty
  steps := []
  failures := []

def jobName (execution : JobExecution) : String := execution.jobInstance.jobName

/-- Whether the execution still holds its instance. -/
def isRunning (execution : JobExecution) : Bool := execution.status.isRunning

/-- Whether the execution has been asked to stop and has not ended. -/
def isStopping (execution : JobExecution) : Bool := execution.status == .stopping

def upgradeStatus (execution : JobExecution) (status : BatchStatus) : JobExecution :=
  { execution with status := execution.status.upgradeTo status }

def addFailure (execution : JobExecution) (failure : String) : JobExecution :=
  { execution with failures := execution.failures ++ [failure] }

/-- Puts a saved step in the place of the first one with its number. -/
def replaceStep (id : StepExecutionId) (step : StepExecution) :
    List StepExecution → Option (List StepExecution)
  | [] => none
  | first :: rest =>
    if first.id = some id then some (step :: rest)
    else (replaceStep id step rest).map (first :: ·)

/-- Adds a step to the history. A saved step takes the place of its earlier copy. -/
def addStep (execution : JobExecution) (step : StepExecution) : JobExecution :=
  let replaced? := step.id.bind fun id => replaceStep id step execution.steps
  { execution with steps := replaced?.getD (execution.steps ++ [step]) }

/-- A new step of this execution, which has to be saved. -/
def startStep (execution : JobExecution) (now : Timestamp) (stepName : String) :
    Except DomainError StepExecution :=
  match execution.id with
  | some id => .ok (.start now stepName id execution.jobInstance.id)
  | none => .error (.illegalState "step execution requires a saved job execution")

end JobExecution

end BatchRun
