import BatchRun.Repository.Request

/-! # Calls within programs

The requests of the repository as calls of a program, and the two patterns that programs build
from them: writing several steps in a row, and trying a write again after a lost race.
-/

namespace BatchRun

namespace Calls

variable {m : Type → Type} [Monad m] [MonadRepository m]

open MonadRepository (request)

def findInstance (jobName : String) (parameters : JobParameters) : m (Option JobInstance) :=
  request (.findInstance jobName parameters)

def lastExecution (jobName : String) (parameters : JobParameters) :
    m (Except RepositoryError (Option JobExecution)) :=
  request (.lastExecution jobName parameters)

def lastStep (known : JobInstance) (stepName : String) : m (Option StepExecution) :=
  request (.lastStep known stepName)

def executionsOf (known : JobInstance) : m (Except RepositoryError (List JobExecution)) :=
  request (.executionsOf known)

def runningExecutions (jobName : String) : m (Except RepositoryError (List JobExecution)) :=
  request (.runningExecutions jobName)

def execution (id : JobExecutionId) : m (Except RepositoryError (Option JobExecution)) :=
  request (.execution id)

def step (execution : JobExecutionId) (id : StepExecutionId) : m (Option StepExecution) :=
  request (.step execution id)

def context (owner : ContextOwner) : m (Option ExecutionContext) := request (.context owner)

def createExecution (jobName : String) (parameters : JobParameters) :
    m (Except RepositoryError JobExecution) :=
  request (.createExecution jobName parameters)

def update (execution : JobExecution) : m (Written JobExecution) := request (.update execution)

def synchronize (execution : JobExecution) : m (Written JobExecution) :=
  request (.synchronize execution)

def addStep (step : StepExecution) : m (Written StepExecution) := request (.addStep step)

def updateStep (step : StepExecution) : m (Written StepExecution) := request (.updateStep step)

def updateContext (execution : JobExecution) : m (Except RepositoryError Unit) :=
  request (.updateContext execution)

def updateStepContext (step : StepExecution) : m (Except RepositoryError Unit) :=
  request (.updateStepContext step)

/-- Saves new steps one after the other, up to the first one that is refused. -/
def addSteps : List StepExecution → m (Written (List StepExecution))
  | [] => return ⟨.ok (), []⟩
  | step :: rest => do
    let first ← addStep step
    match first.result with
    | .error error => return ⟨.error error, first.copy :: rest⟩
    | .ok () =>
      let others ← addSteps rest
      return ⟨others.result, first.copy :: others.copy⟩

/-- Writes an execution, and again after each lost race as often as `more` says. The copy is
refreshed by every try. -/
def updatePersistently : (more : Nat) → JobExecution → m (Written JobExecution)
  | 0, execution => update execution
  | more + 1, execution => do
    let written ← update execution
    match written.result with
    | .error error =>
      if error.isOptimisticLock then updatePersistently more written.copy else return written
    | .ok () => return written

end Calls

end BatchRun
