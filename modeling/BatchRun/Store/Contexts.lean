import BatchRun.Context.Owner
import BatchRun.Execution.Job
import BatchRun.Store.Error

/-! # The store of contexts

The store keeps the contexts of job executions and of step executions, each with the job execution
and the instance it belongs to. The first write of a context removes those of the same kind that
other executions of the instance have left behind; later writes only replace it.
-/

namespace BatchRun

/-- A context with the execution and the instance it belongs to. -/
structure StoredContext where
  jobInstanceId : JobInstanceId
  jobExecutionId : JobExecutionId
  context : ExecutionContext

/-- The contexts of jobs and of steps by number. -/
structure ContextStore where
  jobs : SortedMap JobExecutionId StoredContext
  steps : SortedMap StepExecutionId StoredContext

namespace ContextStore

def empty : ContextStore := ⟨.empty, .empty⟩

instance : Inhabited ContextStore := ⟨empty⟩

def size (store : ContextStore) : Nat := store.jobs.size + store.steps.size

def get? (store : ContextStore) : ContextOwner → Option ExecutionContext
  | .job id => (store.jobs.get? id).map (·.context)
  | .step id => (store.steps.get? id).map (·.context)

/-- Whether a context belongs to another execution of the same instance. -/
def isSuperseded (written known : StoredContext) : Bool :=
  known.jobInstanceId == written.jobInstanceId && known.jobExecutionId != written.jobExecutionId

/-- The context of an execution as it is stored. -/
def ofExecution (execution : JobExecution) : Except StoreError (JobExecutionId × StoredContext) :=
  match execution.id with
  | none => .error (.missingId .jobExecution)
  | some id => .ok (id, ⟨execution.jobInstance.id, id, execution.context⟩)

def ofStep (step : StepExecution) : Except StoreError (StepExecutionId × StoredContext) :=
  match step.id with
  | none => .error (.missingId .stepExecution)
  | some id => .ok (id, ⟨step.jobInstanceId, step.jobExecutionId, step.context⟩)

/-- First write of the context of an execution. -/
def saveJob (store : ContextStore) (execution : JobExecution) : Except StoreError ContextStore := do
  let (id, written) ← ofExecution execution
  let others := store.jobs.filter fun _ known => !isSuperseded written known
  return { store with jobs := others.insert id written }

def saveStep (store : ContextStore) (step : StepExecution) : Except StoreError ContextStore := do
  let (id, written) ← ofStep step
  let others := store.steps.filter fun _ known => !isSuperseded written known
  return { store with steps := others.insert id written }

/-- First writes of the contexts of steps one after the other, up to the first one that is
refused. -/
def saveSteps (store : ContextStore) : List StepExecution → Except StoreError Unit × ContextStore
  | [] => (.ok (), store)
  | step :: rest =>
    match store.saveStep step with
    | .error error => (.error error, store)
    | .ok store => saveSteps store rest

/-- Later write of the context of an execution. -/
def updateJob (store : ContextStore) (execution : JobExecution) :
    Except StoreError ContextStore := do
  let (id, written) ← ofExecution execution
  return { store with jobs := store.jobs.insert id written }

def updateStep (store : ContextStore) (step : StepExecution) : Except StoreError ContextStore := do
  let (id, written) ← ofStep step
  return { store with steps := store.steps.insert id written }

end ContextStore

end BatchRun
