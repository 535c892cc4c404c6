import BatchRun.Context.Basic
import BatchRun.ExitStatus
import BatchRun.Id
import BatchRun.Status
import BatchRun.Time.Timestamp

/-! # Step executions

A step execution is one attempt to run a named step within a job execution. It knows the job
execution and the instance it belongs to by number only.
-/

namespace BatchRun

/-- What a step has counted. -/
structure StepCounts where
  read : UInt64 := 0
  write : UInt64 := 0
  commit : UInt64 := 0
  rollback : UInt64 := 0
  filter : UInt64 := 0
  readSkip : UInt64 := 0
  processSkip : UInt64 := 0
  writeSkip : UInt64 := 0
deriving DecidableEq, Repr

/-- The counts in the order of the fields. Missing ones are zero. -/
def StepCounts.ofList (counts : List UInt64) : StepCounts :=
  let count (place : Nat) : UInt64 := counts[place]?.getD 0
  ⟨count 0, count 1, count 2, count 3, count 4, count 5, count 6, count 7⟩

def StepCounts.toList (counts : StepCounts) : List UInt64 :=
  [counts.read, counts.write, counts.commit, counts.rollback, counts.filter, counts.readSkip,
    counts.processSkip, counts.writeSkip]

theorem StepCounts.ofList_toList (counts : StepCounts) : ofList counts.toList = counts := rfl

/-- The number of all skipped items, if it fits into 64 bits. -/
def StepCounts.skips? (counts : StepCounts) : Option UInt64 :=
  let total := counts.readSkip.toNat + counts.processSkip.toNat + counts.writeSkip.toNat
  if total < UInt64.size then some (UInt64.ofNat total) else none

/-- One attempt to run a step. -/
structure StepExecution where
  /-- The number of a saved step. -/
  id : Option StepExecutionId
  /-- How often the step has been written, as far as this copy knows. -/
  version : UInt64
  stepName : String
  jobExecutionId : JobExecutionId
  jobInstanceId : JobInstanceId
  status : BatchStatus
  exitStatus : ExitStatus
  counts : StepCounts
  startTime : Timestamp
  endTime : Option Timestamp
  lastUpdated : Option Timestamp
  context : ExecutionContext
  /-- Whether the step has been asked to end at the next occasion. -/
  terminateOnly : Bool
  failures : List String
deriving BEq

namespace StepExecution

def start (now : Timestamp) (stepName : String) (jobExecutionId : JobExecutionId)
    (jobInstanceId : JobInstanceId) : StepExecution where
  id := none
  version := 0
  stepName
  jobExecutionId
  jobInstanceId
  status := .starting
  exitStatus := .executing
  counts := {}
  startTime := now
  endTime := none
  lastUpdated := none
  context := .empty
  terminateOnly := false
  failures := []

def upgradeStatus (step : StepExecution) (status : BatchStatus) : StepExecution :=
  { step with status := step.status.upgradeTo status }

def askToEnd (step : StepExecution) : StepExecution := { step with terminateOnly := true }

end StepExecution

end BatchRun
