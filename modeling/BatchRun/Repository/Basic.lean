import BatchRun.Repository.Error
import BatchRun.Store.Contexts
import BatchRun.Store.Executions
import BatchRun.Store.Instances
import BatchRun.Store.Steps

/-! # The job repository

The repository keeps the books of all launches in four stores. Creating an execution claims its
instance or is refused, as one operation. Whatever is read comes as a copy of its own, complete
with the stored steps and contexts. A call that writes a record gives back the caller's copy as it
is afterwards, also if the call fails: the copy may have been stamped or refreshed before.
-/

namespace BatchRun

/-- The four stores. -/
structure Repository where
  instances : InstanceStore
  executions : ExecutionStore
  steps : StepStore
  contexts : ContextStore

/-- The outcome of writing a record: whether it worked, and the caller's copy afterwards. -/
structure Written (α : Type) where
  result : Except RepositoryError Unit
  copy : α

namespace Repository

def empty : Repository := ⟨.empty, .empty, .empty, .empty⟩

instance : Inhabited Repository := ⟨empty⟩

/-- An error of a store as an error of the repository. -/
def ofStore {α : Type} : Except StoreError α → Except RepositoryError α
  | .ok value => .ok value
  | .error error => .error (.store error)

/-! ## Reading -/

/-- The execution with its stored context, if there is one. -/
def withContext (repository : Repository) (execution : JobExecution) : JobExecution :=
  let stored? := execution.id.bind fun id => repository.contexts.get? (.job id)
  { execution with context := stored?.getD execution.context }

def withStepContext (repository : Repository) (step : StepExecution) : StepExecution :=
  let stored? := step.id.bind fun id => repository.contexts.get? (.step id)
  { step with context := stored?.getD step.context }

/-- A stored execution complete with its context, its steps and their contexts. -/
def complete (repository : Repository) (execution : JobExecution) :
    Except RepositoryError JobExecution := do
  let attached ← ofStore (repository.steps.attach (repository.withContext execution))
  return { attached with steps := attached.steps.map repository.withStepContext }

def completeAll (repository : Repository) :
    List JobExecution → Except RepositoryError (List JobExecution)
  | [] => .ok []
  | execution :: rest => do
    let execution ← repository.complete execution
    let rest ← repository.completeAll rest
    return execution :: rest

def completeOption (repository : Repository) :
    Option JobExecution → Except RepositoryError (Option JobExecution)
  | none => .ok none
  | some execution => (repository.complete execution).map some

def instance? (repository : Repository) (jobName : String) (parameters : JobParameters) :
    Option JobInstance :=
  repository.instances.get? jobName parameters

def lastExecution (repository : Repository) (jobName : String) (parameters : JobParameters) :
    Except RepositoryError (Option JobExecution) :=
  match repository.instance? jobName parameters with
  | none => .ok none
  | some known => repository.completeOption (repository.executions.last? known.id)

/-- The step of this name within an instance that was started last. -/
def lastStep (repository : Repository) (known : JobInstance) (stepName : String) :
    Option StepExecution :=
  (repository.steps.last? known.id stepName).map repository.withStepContext

/-- All executions of an instance, the latest number first. -/
def executionsOf (repository : Repository) (known : JobInstance) :
    Except RepositoryError (List JobExecution) :=
  repository.completeAll (repository.executions.ofInstance known.id)

/-- The executions of a job that still hold their instance, the latest number first. -/
def runningExecutions (repository : Repository) (jobName : String) :
    Except RepositoryError (List JobExecution) :=
  repository.completeAll (repository.executions.running jobName)

def execution (repository : Repository) (id : JobExecutionId) :
    Except RepositoryError (Option JobExecution) :=
  repository.completeOption (repository.executions.get? id)

def step? (repository : Repository) (execution : JobExecutionId) (id : StepExecutionId) :
    Option StepExecution :=
  (repository.steps.get? execution id).map repository.withStepContext

/-! ## Creating executions -/

/-- Whether the stored executions of an instance allow a new one. -/
def checkClaim (known : JobInstance) (parameters : JobParameters) :
    List JobExecution → Except RepositoryError Unit
  | [] => .ok ()
  | existing :: rest =>
    match existing.id with
    | none => .error (.store (.missingId .jobExecution))
    | some id =>
      if existing.isRunning then .error (.alreadyRunning known.jobName id)
      else
        match existing.status with
        | .unknown => .error (.restart known.jobName (.unknownStatus id))
        | .completed => .error (.instanceComplete known.jobName parameters.identityKey)
        | _ => checkClaim known parameters rest

/-- The instance to be claimed, the context to start with, and the repository in which the
instance is known. A new instance starts with an empty context, and a known one with the context
of its last execution. -/
def claim (repository : Repository) (jobName : String) (parameters : JobParameters) :
    Except RepositoryError (JobInstance × ExecutionContext × Repository) :=
  match repository.instance? jobName parameters with
  | some known => do
    checkClaim known parameters (repository.executions.ofInstance known.id)
    let last? := (repository.executions.last? known.id).map repository.withContext
    return (known, (last?.map (·.context)).getD .empty, repository)
  | none => do
    let (created, instances) ← ofStore (repository.instances.create jobName parameters)
    return (created, .empty, { repository with instances })

/-- Claims the instance and saves a new execution of it. -/
def createExecution (repository : Repository) (now : Timestamp) (jobName : String)
    (parameters : JobParameters) : Except RepositoryError (JobExecution × Repository) := do
  let (claimed, context, repository) ← repository.claim jobName parameters
  let execution :=
    { JobExecution.create now claimed parameters with context, lastUpdated := some now }
  let (saved, executions) ← ofStore (repository.executions.save execution)
  let contexts ← ofStore (repository.contexts.saveJob saved)
  return ({ saved with context := saved.context.clearDirty },
    { repository with executions, contexts })

/-! ## Writing -/

def synchronize (repository : Repository) (execution : JobExecution) : Written JobExecution :=
  match repository.executions.synchronize execution with
  | .ok refreshed => ⟨.ok (), refreshed⟩
  | .error error => ⟨.error (.store error), execution⟩

/-- Writes an execution after refreshing the copy. -/
def update (repository : Repository) (now : Timestamp) (execution : JobExecution) :
    Written JobExecution × Repository :=
  if execution.id.isNone then (⟨.error (.store (.missingId .jobExecution)), execution⟩, repository)
  else
    let refreshed := repository.synchronize { execution with lastUpdated := some now }
    match refreshed.result with
    | .error _ => (refreshed, repository)
    | .ok () =>
      match repository.executions.update refreshed.copy with
      | .error error => (⟨.error (.store error), refreshed.copy⟩, repository)
      | .ok (written, executions) => (⟨.ok (), written⟩, { repository with executions })

/-- Saves a new step of a stored execution, and its context. -/
def addStep (repository : Repository) (now : Timestamp) (step : StepExecution) :
    Written StepExecution × Repository :=
  if (repository.executions.get? step.jobExecutionId).isNone then
    (⟨.error (.notFound ("job execution " ++ toString step.jobExecutionId ++ " for step '" ++
      step.stepName ++ "'")), step⟩, repository)
  else
    let stamped := { step with lastUpdated := some now }
    match repository.steps.save stamped with
    | .error error => (⟨.error (.store error), stamped⟩, repository)
    | .ok (saved, steps) =>
      match repository.contexts.saveStep saved with
      | .error error => (⟨.error (.store error), saved⟩, { repository with steps })
      | .ok contexts => (⟨.ok (), saved⟩, { repository with steps, contexts })

/-- Writes a step. The caller's copy is asked to end if its execution has been asked to stop. -/
def updateStep (repository : Repository) (now : Timestamp) (step : StepExecution) :
    Written StepExecution × Repository :=
  let stamped := { step with lastUpdated := some now }
  match repository.steps.update stamped with
  | .error error => (⟨.error (.store error), stamped⟩, repository)
  | .ok (written, steps) =>
    let stopping := (repository.executions.get? step.jobExecutionId).any (·.isStopping)
    (⟨.ok (), if stopping then written.askToEnd else written⟩, { repository with steps })

def updateContext (repository : Repository) (execution : JobExecution) :
    Except RepositoryError Repository := do
  let contexts ← ofStore (repository.contexts.updateJob execution)
  return { repository with contexts }

def updateStepContext (repository : Repository) (step : StepExecution) :
    Except RepositoryError Repository := do
  let contexts ← ofStore (repository.contexts.updateStep step)
  return { repository with contexts }

end Repository

end BatchRun
