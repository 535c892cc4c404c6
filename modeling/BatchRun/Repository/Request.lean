import BatchRun.Repository.Basic

/-! # Requests to the repository

Every call of the repository is a request with an answer of its own type, and one function answers
all of them. A request takes effect in one step. Programs that use a repository say which requests
they make and nothing about how these are answered, so the same program runs on its own, on a
repository with planned faults, or step by step among others.
-/

namespace BatchRun

inductive Request
  | findInstance (jobName : String) (parameters : JobParameters)
  | lastExecution (jobName : String) (parameters : JobParameters)
  | lastStep (known : JobInstance) (stepName : String)
  | executionsOf (known : JobInstance)
  | runningExecutions (jobName : String)
  | execution (id : JobExecutionId)
  | step (execution : JobExecutionId) (id : StepExecutionId)
  | context (owner : ContextOwner)
  | createExecution (jobName : String) (parameters : JobParameters)
  | update (execution : JobExecution)
  | synchronize (execution : JobExecution)
  | addStep (step : StepExecution)
  | updateStep (step : StepExecution)
  | updateContext (execution : JobExecution)
  | updateStepContext (step : StepExecution)

/-- What is answered to a request. -/
def Request.Answer : Request → Type
  | findInstance .. => Option JobInstance
  | lastExecution .. => Except RepositoryError (Option JobExecution)
  | lastStep .. => Option StepExecution
  | executionsOf .. => Except RepositoryError (List JobExecution)
  | runningExecutions .. => Except RepositoryError (List JobExecution)
  | execution .. => Except RepositoryError (Option JobExecution)
  | step .. => Option StepExecution
  | context .. => Option ExecutionContext
  | createExecution .. => Except RepositoryError JobExecution
  | update .. => Written JobExecution
  | synchronize .. => Written JobExecution
  | addStep .. => Written StepExecution
  | updateStep .. => Written StepExecution
  | updateContext .. => Except RepositoryError Unit
  | updateStepContext .. => Except RepositoryError Unit

namespace Repository

/-- A result with a new repository; after an error the repository is as before. -/
def orKeep {α : Type} (repository : Repository) :
    Except RepositoryError (α × Repository) → Except RepositoryError α × Repository
  | .ok (value, after) => (.ok value, after)
  | .error error => (.error error, repository)

/-- A new repository; after an error it is as before. -/
def orKeepUnit (repository : Repository) :
    Except RepositoryError Repository → Except RepositoryError Unit × Repository
  | .ok after => (.ok (), after)
  | .error error => (.error error, repository)

/-- Answers a request at a given moment. -/
def answer (repository : Repository) (now : Timestamp) :
    (request : Request) → request.Answer × Repository
  | .findInstance jobName parameters => (repository.instance? jobName parameters, repository)
  | .lastExecution jobName parameters =>
    (repository.lastExecution jobName parameters, repository)
  | .lastStep known stepName => (repository.lastStep known stepName, repository)
  | .executionsOf known => (repository.executionsOf known, repository)
  | .runningExecutions jobName => (repository.runningExecutions jobName, repository)
  | .execution id => (repository.execution id, repository)
  | .step execution id => (repository.step? execution id, repository)
  | .context owner => (repository.contexts.get? owner, repository)
  | .createExecution jobName parameters =>
    repository.orKeep (repository.createExecution now jobName parameters)
  | .update execution => repository.update now execution
  | .synchronize execution => (repository.synchronize execution, repository)
  | .addStep step => repository.addStep now step
  | .updateStep step => repository.updateStep now step
  | .updateContext execution => repository.orKeepUnit (repository.updateContext execution)
  | .updateStepContext step => repository.orKeepUnit (repository.updateStepContext step)

end Repository

/-- Programs that make requests to a repository, look at the clock and pause. -/
class MonadRepository (m : Type → Type) where
  /-- Makes a request and waits for the answer. -/
  request : (request : Request) → m request.Answer
  now : m Timestamp
  /-- Lets some time pass. -/
  pause : Duration → m Unit

end BatchRun
