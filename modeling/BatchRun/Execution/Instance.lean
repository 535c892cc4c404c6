import BatchRun.Id
import BatchRun.Parameters.Identity

/-! # Job instances

A job instance is one logical job: a job name together with identifying parameters. It may be
attempted any number of times, and every attempt is an execution of its own.
-/

namespace BatchRun

/-- A job name with identifying parameters, under the number a store has given it. -/
structure JobInstance where
  id : JobInstanceId
  jobName : String
  parameters : JobParameters

namespace JobInstance

/-- The instance of a job for these parameters; only the identifying ones are kept. -/
def of (id : JobInstanceId) (jobName : String) (parameters : JobParameters) : JobInstance :=
  ⟨id, jobName, parameters.identifying⟩

def identityKey (record : JobInstance) : String := record.parameters.identityKey

/-- Whether this is the instance of a job for these parameters. -/
def isFor (record : JobInstance) (jobName : String) (parameters : JobParameters) : Bool :=
  record.jobName == jobName && record.identityKey == parameters.identityKey

/-- Two instances are the same if their names and identity keys are; numbers do not matter. -/
instance : BEq JobInstance where
  beq first second :=
    first.jobName == second.jobName && first.identityKey == second.identityKey

end JobInstance

end BatchRun
