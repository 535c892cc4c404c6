import BatchRun.Proofs.Numbers
import BatchRun.Proofs.Repository.Requests
import BatchRun.Proofs.Store.Contexts
import BatchRun.Proofs.Store.Steps

/-! # What requests change in the stores

A request changes nothing or it writes one record or context, which its answer tells. Creating an
execution and adding a step also file the context that the new record starts with, and make what
they replace go.
-/

namespace BatchRun

/-- What a request has written, as the answer tells it. -/
inductive Writing
  | created (execution : JobExecution)
  | written (execution : JobExecution)
  | stepAdded (step : StepExecution)
  | stepWritten (step : StepExecution)
  /-- The context of the execution has been filed. -/
  | filed (execution : JobExecution)
  /-- The context of the step has been filed. -/
  | stepFiled (step : StepExecution)

/-- What a request has written, going by its answer. If the copy of a step has been asked to end on
its way back, that is not part of what has been written. -/
def Request.writing? : (request : Request) → request.Answer → Option Writing
  | createExecution .., .ok created => some (.created created)
  | update _, ⟨.ok (), copy⟩ => some (.written copy)
  | addStep _, ⟨.ok (), copy⟩ => some (.stepAdded copy)
  | updateStep given, ⟨.ok (), copy⟩ =>
    some (.stepWritten { copy with terminateOnly := given.terminateOnly })
  | updateContext given, .ok () => some (.filed given)
  | updateStepContext given, .ok () => some (.stepFiled given)
  | _, _ => none

/-- The execution that has been created. -/
def Writing.created? : Writing → Option JobExecution
  | created execution => some execution
  | _ => none

/-- The step that has been added. -/
def Writing.added? : Writing → Option StepExecution
  | stepAdded step => some step
  | _ => none

namespace Repository

variable {repository : Repository} {now : Timestamp}

/-- A new execution as it is handed out. -/
def createdExecution (repository : Repository) (now : Timestamp) (known : JobInstance)
    (parameters : JobParameters) (context : ExecutionContext) : JobExecution :=
  { repository.executions.savedAs (newExecution now known parameters context) with
    context := context.clearDirty }

/-- The repository with a new execution, and these instances. -/
def withExecution (repository : Repository) (now : Timestamp) (instances : InstanceStore)
    (known : JobInstance) (parameters : JobParameters) (context : ExecutionContext) :
    Repository :=
  let id := ⟨repository.executions.lastId + 1⟩
  { repository with
    instances
    executions := repository.executions.afterSave (newExecution now known parameters context)
    contexts :=
      { repository.contexts with
        jobs := ContextStore.file repository.contexts.jobs id ⟨known.id, id, context⟩ } }

/-- The record of a step that is added now. -/
def addedStep (repository : Repository) (now : Timestamp) (given : StepExecution) :
    StepExecution :=
  repository.steps.savedAs { given with lastUpdated := some now }

/-- The repository with a new step. -/
def withAddedStep (repository : Repository) (now : Timestamp) (given : StepExecution) :
    Repository :=
  { repository with
    steps := repository.steps.afterSave { given with lastUpdated := some now }
    contexts :=
      { repository.contexts with
        steps := ContextStore.file repository.contexts.steps ⟨repository.steps.lastId + 1⟩
          (ContextStore.contextOf given) } }

/-- The record of a step that is written now. -/
def writtenStep (now : Timestamp) (given : StepExecution) : StepExecution :=
  StepStore.nextVersion { given with lastUpdated := some now }

/-- The repository with a step as it has been written. -/
def withWrittenStep (repository : Repository) (now : Timestamp) (id : StepExecutionId)
    (given : StepExecution) : Repository :=
  { repository with steps := repository.steps.withStep id (writtenStep now given) }

/-- The repository with the context of an execution filed again. -/
def withFiled (repository : Repository) (id : JobExecutionId) (given : JobExecution) :
    Repository :=
  { repository with
    contexts :=
      { repository.contexts with
        jobs := repository.contexts.jobs.insert id ⟨given.jobInstance.id, id, given.context⟩ } }

/-- The repository with the context of a step filed again. -/
def withFiledStep (repository : Repository) (id : StepExecutionId) (given : StepExecution) :
    Repository :=
  { repository with
    contexts :=
      { repository.contexts with
        steps := repository.contexts.steps.insert id (ContextStore.contextOf given) } }

/-- A new step of a stored execution is added. -/
theorem addStep_of_parent (now : Timestamp) {given : StepExecution} {parent : JobExecution}
    (new : given.id = none)
    (found : repository.executions.get? given.jobExecutionId = some parent) :
    repository.addStep now given =
      (⟨.ok (), repository.addedStep now given⟩, repository.withAddedStep now given) := by
  have saved := @StepStore.save_of_new repository.steps { given with lastUpdated := some now } new
  have filed := @ContextStore.saveStep_of_numbered repository.contexts
    (repository.steps.savedAs { given with lastUpdated := some now }) _ rfl
  unfold addStep
  rw [found, if_neg (by simp)]
  simp only [saved, filed]
  rfl

/-- Every other step comes back as it was except for the stamp. -/
theorem addStep_cases (repository : Repository) (now : Timestamp) (given : StepExecution) :
    (∃ parent, given.id = none ∧
      repository.executions.get? given.jobExecutionId = some parent ∧
      repository.addStep now given =
        (⟨.ok (), repository.addedStep now given⟩, repository.withAddedStep now given)) ∨
    ∃ error lastUpdated,
      repository.addStep now given = (⟨.error error, { given with lastUpdated }⟩, repository) := by
  cases found : repository.executions.get? given.jobExecutionId with
  | none =>
    unfold addStep
    rw [found]
    exact .inr ⟨_, given.lastUpdated, rfl⟩
  | some parent =>
    by_cases new : given.id = none
    · exact .inl ⟨parent, new, rfl, addStep_of_parent now new found⟩
    · obtain ⟨id, numbered⟩ := Option.ne_none_iff_exists'.1 new
      unfold addStep StepStore.save
      simp only [found, numbered]
      exact .inr ⟨.store (.alreadySaved .stepExecution id.value), some now, rfl⟩

/-- A step is written from a copy with the current version. The copy may come back asked to end.
What is refused is not current, and it comes back as it was except for the stamp. -/
theorem updateStep_cases (repository : Repository) (now : Timestamp) (given : StepExecution) :
    (∃ id stored terminateOnly, given.id = some id ∧
      repository.steps.get? given.jobExecutionId id = some stored ∧
      stored.version = given.version ∧
      repository.updateStep now given = (⟨.ok (), { writtenStep now given with terminateOnly }⟩,
        repository.withWrittenStep now id given)) ∨
    ¬ repository.steps.IsCurrent given ∧ ∃ error, repository.updateStep now given =
      (⟨.error error, { given with lastUpdated := some now }⟩, repository) := by
  unfold updateStep
  rcases repository.steps.update_cases { given with lastUpdated := some now } with
    ⟨id, stored, numbered, found, current, updated⟩ | ⟨outdated, error, refused⟩
  · simp only [updated]
    split
    · exact .inl ⟨id, stored, true, numbered, found, current, rfl⟩
    · exact .inl ⟨id, stored, given.terminateOnly, numbered, found, current, rfl⟩
  · simp only [refused]
    exact .inr ⟨outdated, _, rfl⟩

/-- The change of the stores by a request that has written something or nothing. -/
inductive Change (repository : Repository) (now : Timestamp) :
    Request → Option Writing → Repository → Prop
  | none {request : Request} : Change repository now request none repository
  | created {jobName : String} {parameters : JobParameters} {known : JobInstance}
      {context : ExecutionContext} {claimed : Repository}
      (granted : repository.claim jobName parameters = .ok (known, context, claimed)) :
      Change repository now (.createExecution jobName parameters)
        (some (.created (repository.createdExecution now known parameters context)))
        (repository.withExecution now claimed.instances known parameters context)
  | written {given stored : JobExecution} {id : JobExecutionId} (numbered : given.id = some id)
      (found : repository.executions.get? id = some stored) :
      Change repository now (.update given) (some (.written (written now given stored)))
        (repository.withRecord id (written now given stored))
  | stepAdded {given : StepExecution} {parent : JobExecution} (new : given.id = .none)
      (found : repository.executions.get? given.jobExecutionId = some parent) :
      Change repository now (.addStep given) (some (.stepAdded (repository.addedStep now given)))
        (repository.withAddedStep now given)
  | stepWritten {given stored : StepExecution} {id : StepExecutionId}
      (numbered : given.id = some id)
      (found : repository.steps.get? given.jobExecutionId id = some stored)
      (current : stored.version = given.version) :
      Change repository now (.updateStep given) (some (.stepWritten (writtenStep now given)))
        (repository.withWrittenStep now id given)
  | filed {given : JobExecution} {id : JobExecutionId} (numbered : given.id = some id) :
      Change repository now (.updateContext given) (some (.filed given))
        (repository.withFiled id given)
  | stepFiled {given : StepExecution} {id : StepExecutionId} (numbered : given.id = some id) :
      Change repository now (.updateStepContext given) (some (.stepFiled given))
        (repository.withFiledStep id given)

private theorem change_createExecution (repository : Repository) (now : Timestamp)
    (jobName : String) (parameters : JobParameters) :
    Change repository now (.createExecution jobName parameters)
      (Request.writing? _ (repository.answer now (.createExecution jobName parameters)).1)
      (repository.answer now (.createExecution jobName parameters)).2 := by
  cases granted : repository.claim jobName parameters with
  | error error =>
    rw [answer_of_not_created (createExecution_of_refused granted)]
    exact .none
  | ok claimed =>
    obtain ⟨known, context, claimed⟩ := claimed
    rw [answer_of_created (createExecution_eq now granted)]
    rcases claim_cases granted with ⟨-, -, same⟩ | ⟨-, -, extended⟩
    · subst same
      exact .created granted
    · have change : Change repository now _ _ _ := .created granted
      rw [extended] at change ⊢
      exact change

private theorem change_update (repository : Repository) (now : Timestamp) (given : JobExecution) :
    Change repository now (.update given)
      (Request.writing? _ (repository.answer now (.update given)).1)
      (repository.answer now (.update given)).2 := by
  cases record : repository.executions.recordOf? given with
  | none =>
    obtain ⟨error, lastUpdated, refused⟩ := update_of_no_record now record
    simp only [answer, refused]
    exact .none
  | some stored =>
    obtain ⟨id, numbered, found⟩ := ExecutionStore.recordOf?_eq_some_iff.1 record
    simp only [answer, update_of_record now numbered found]
    exact .written numbered found

private theorem change_addStep (repository : Repository) (now : Timestamp)
    (given : StepExecution) :
    Change repository now (.addStep given)
      (Request.writing? _ (repository.answer now (.addStep given)).1)
      (repository.answer now (.addStep given)).2 := by
  simp only [answer]
  rcases repository.addStep_cases now given with
    ⟨parent, new, found, added⟩ | ⟨error, lastUpdated, refused⟩
  · rw [added]
    exact .stepAdded new found
  · rw [refused]
    exact .none

private theorem change_updateStep (repository : Repository) (now : Timestamp)
    (given : StepExecution) :
    Change repository now (.updateStep given)
      (Request.writing? _ (repository.answer now (.updateStep given)).1)
      (repository.answer now (.updateStep given)).2 := by
  simp only [answer]
  rcases repository.updateStep_cases now given with
    ⟨id, stored, terminateOnly, numbered, found, current, updated⟩ | ⟨-, error, refused⟩
  · rw [updated]
    exact .stepWritten numbered found current
  · rw [refused]
    exact .none

/-- Every request changes the stores in this way. -/
theorem change_answer (repository : Repository) (now : Timestamp) (request : Request) :
    Change repository now request (request.writing? (repository.answer now request).1)
      (repository.answer now request).2 := by
  cases request with
  | createExecution jobName parameters => exact change_createExecution ..
  | update given => exact change_update ..
  | addStep given => exact change_addStep ..
  | updateStep given => exact change_updateStep ..
  | updateContext given =>
    simp only [answer, updateContext, ContextStore.updateJob, ContextStore.ofExecution]
    cases numbered : given.id with
    | none => exact .none
    | some id => exact .filed numbered
  | updateStepContext given =>
    simp only [answer, updateStepContext]
    cases numbered : given.id with
    | none =>
      simp only [ContextStore.updateStep, ContextStore.ofStep, numbered]
      exact .none
    | some id =>
      simp only [repository.contexts.updateStep_of_numbered numbered]
      exact .stepFiled numbered
  | _ => exact .none

namespace Change

variable {request : Request} {writing : Option Writing} {after : Repository}
  {id : JobExecutionId} {later : JobExecution}

/-- A number is given only to a new execution. -/
theorem lastId_cases (change : Change repository now request writing after) :
    after.executions.lastId = repository.executions.lastId ∨
    (∃ execution, writing = some (.created execution)) ∧
      after.executions.lastId = repository.executions.lastId + 1 := by
  cases change with
  | created granted => exact .inr ⟨⟨_, rfl⟩, rfl⟩
  | _ => exact .inl rfl

/-- A record that is stored after a request was stored before, or it has just been created or
written. -/
theorem record_cases (change : Change repository now request writing after)
    (found : after.executions.get? id = some later) :
    repository.executions.get? id = some later ∨
    ((∃ execution, writing = some (.created execution)) ∧
      id = ⟨repository.executions.lastId + 1⟩ ∧ later.version = 1 ∧
      after.executions.lastId = repository.executions.lastId + 1) ∨
    ∃ given stored, request = .update given ∧ writing = some (.written later) ∧
      given.id = some id ∧ repository.executions.get? id = some stored ∧
      later = Repository.written now given stored := by
  cases change with
  | created granted =>
    rcases ExecutionStore.get?_afterSave.1 found with ⟨rfl, rfl⟩ | ⟨-, kept, -⟩
    · exact .inr (.inl ⟨⟨_, rfl⟩, rfl, rfl, rfl⟩)
    · exact .inl kept
  | written numbered stored =>
    rw [get?_withRecord] at found
    split at found
    · rename_i same
      obtain rfl := Option.some.inj found
      exact .inr (.inr ⟨_, _, rfl, rfl, same ▸ numbered, same ▸ stored, rfl⟩)
    · exact .inl found
  | _ => exact .inl found

end Change

end Repository

end BatchRun
