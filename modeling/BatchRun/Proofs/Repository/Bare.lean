import BatchRun.Proofs.Repository.Requests
import BatchRun.Proofs.Store.Bare
import BatchRun.Proofs.Store.Instances

/-! # Repositories without notes

Every request does the same to the repository of the bare records as to the repository itself, with
bare records in its answer. So neither notes nor moments that are not seen have any part in what is
claimed, refused, numbered or kept. The one answer that needs the moments is the last step of a
name.
-/

namespace BatchRun

open View (see)

variable [View]

/-- The outcome of a write with a changed copy. -/
def Written.map {α β : Type} (change : α → β) (written : Written α) : Written β :=
  ⟨written.result, change written.copy⟩

namespace Repository

variable {repository : Repository} {now : Timestamp} {execution : JobExecution}
  {step : StepExecution} {jobName : String} {parameters : JobParameters}

/-- The repository of the bare records. -/
def bare (repository : Repository) : Repository :=
  { repository with executions := repository.executions.bare, steps := repository.steps.bare }

private theorem withContext_bare (execution : JobExecution) :
    repository.bare.withContext execution.bare = (repository.withContext execution).bare := rfl

private theorem complete_bare : repository.bare.complete execution.bare =
    (repository.complete execution).map JobExecution.bare := by
  have attached : repository.bare.steps.attach (repository.bare.withContext execution.bare) =
      (repository.steps.attach (repository.withContext execution)).map JobExecution.bare := by
    rw [withContext_bare]
    exact StepStore.attach_bare _
  unfold complete
  rw [attached, ofStore_map]
  cases ofStore (repository.steps.attach (repository.withContext execution)) with
  | error error => rfl
  | ok attached =>
    change Except.ok _ = Except.ok _
    simp only [JobExecution.bare, List.map_map]
    rfl

private theorem completeAll_bare (records : List JobExecution) :
    repository.bare.completeAll (records.map JobExecution.bare) =
      (repository.completeAll records).map (List.map JobExecution.bare) := by
  induction records with
  | nil => rfl
  | cons first rest ih =>
    simp only [List.map_cons, completeAll, complete_bare, ih]
    cases repository.complete first with
    | error error => rfl
    | ok execution => cases repository.completeAll rest <;> rfl

private theorem completeOption_bare (record? : Option JobExecution) :
    repository.bare.completeOption (record?.map JobExecution.bare) =
      (repository.completeOption record?).map (Option.map JobExecution.bare) := by
  cases record? with
  | none => rfl
  | some stored =>
    simp only [Option.map_some, completeOption, complete_bare]
    cases repository.complete stored <;> rfl

private theorem instance?_bare : repository.bare.instance? jobName parameters.identifying =
    repository.instance? jobName parameters := by
  unfold instance? InstanceStore.get?
  simp only [JobInstance.isFor_identifying]
  rfl

private theorem lastExecution_bare (wellFormed : repository.executions.WellFormed) :
    repository.bare.lastExecution jobName parameters.identifying =
      (repository.lastExecution jobName parameters).map (Option.map JobExecution.bare) := by
  unfold lastExecution
  rw [instance?_bare]
  cases repository.instance? jobName parameters with
  | none => rfl
  | some known =>
    have last : repository.bare.executions.last? known.id = _ := wellFormed.last?_bare
    simp only [last]
    exact completeOption_bare _

private theorem checkClaim_bare (known : JobInstance) (records : List JobExecution) :
    checkClaim known parameters.identifying (records.map JobExecution.bare) =
      checkClaim known parameters records := by
  induction records with
  | nil => rfl
  | cons first rest ih =>
    simp only [List.map_cons, checkClaim, ih, parameters.identityKey_identifying]
    rfl

private theorem claim_bare (wellFormed : repository.executions.WellFormed) :
    repository.bare.claim jobName parameters.identifying =
      (repository.claim jobName parameters).map
        fun (known, context, claimed) => (known, context, claimed.bare) := by
  unfold claim
  rw [instance?_bare]
  cases found : repository.instance? jobName parameters with
  | none =>
    have absent : repository.instances.get? jobName parameters = none := found
    have absent' : repository.instances.get? jobName parameters.identifying = none :=
      instance?_bare.trans found
    have create : repository.bare.instances.create jobName parameters.identifying =
        repository.instances.create jobName parameters := by
      change repository.instances.create jobName parameters.identifying = _
      unfold InstanceStore.create JobInstance.of
      rw [absent, absent', parameters.identifying_identifying]
    simp only [create]
    cases ofStore (repository.instances.create jobName parameters) <;> rfl
  | some known =>
    have listed : repository.bare.executions.ofInstance known.id = _ :=
      ExecutionStore.ofInstance_bare
    have last : repository.bare.executions.last? known.id = _ := wellFormed.last?_bare
    simp only [listed, last, checkClaim_bare]
    cases checkClaim known parameters (repository.executions.ofInstance known.id) with
    | error error => rfl
    | ok allowed => cases repository.executions.last? known.id <;> rfl

private theorem createExecution_bare (wellFormed : repository.executions.WellFormed) :
    repository.bare.createExecution (see now) jobName parameters.identifying =
      (repository.createExecution now jobName parameters).map
        (Prod.map JobExecution.bare bare) := by
  have claimed : repository.bare.claim jobName parameters.identifying =
      (repository.claim jobName parameters).map _ := claim_bare wellFormed
  cases granted : repository.claim jobName parameters with
  | error error =>
    rw [granted] at claimed
    rw [createExecution_of_refused granted, createExecution_of_refused claimed]
    rfl
  | ok claim =>
    obtain ⟨known, context, after⟩ := claim
    rw [granted] at claimed
    have new : newExecution (see now) known parameters.identifying context =
        (newExecution now known parameters context).bare := rfl
    rw [createExecution_eq now granted, createExecution_eq (see now) claimed, new]
    simp only [Except.map, Prod.map, bare, ExecutionStore.bare_afterSave]
    rfl

theorem synchronize_bare (repository : Repository) (execution : JobExecution) :
    repository.bare.synchronize execution.bare =
    (repository.synchronize execution).map JobExecution.bare := by
  unfold synchronize
  rw [show repository.bare.executions.synchronize execution.bare = _ from
    ExecutionStore.synchronize_bare]
  cases repository.executions.synchronize execution <;> rfl

/-- Writes a copy as it is after refreshing. -/
def writeRefreshed (repository : Repository) (refreshed : Written JobExecution) :
    Written JobExecution × Repository :=
  match refreshed.result with
  | .error _ => (refreshed, repository)
  | .ok () =>
    match repository.executions.update refreshed.copy with
    | .error error => (⟨.error (.store error), refreshed.copy⟩, repository)
    | .ok (written, executions) => (⟨.ok (), written⟩, { repository with executions })

private theorem writeRefreshed_bare (repository : Repository) (refreshed : Written JobExecution) :
    repository.bare.writeRefreshed (refreshed.map JobExecution.bare) =
      Prod.map (Written.map JobExecution.bare) bare (repository.writeRefreshed refreshed) := by
  obtain ⟨error | _, copy⟩ := refreshed
  · rfl
  · have updated : repository.bare.executions.update copy.bare =
        (repository.executions.update copy).map (Prod.map JobExecution.bare ExecutionStore.bare) :=
      ExecutionStore.update_bare
    simp only [writeRefreshed, Written.map, updated]
    cases repository.executions.update copy <;> rfl

/-- A write does the same to the bare records. -/
theorem update_bare : repository.bare.update (see now) execution.bare =
    Prod.map (Written.map JobExecution.bare) bare (repository.update now execution) := by
  change (if execution.id.isNone then _ else repository.bare.writeRefreshed
      (repository.bare.synchronize { execution with lastUpdated := some now }.bare)) =
    Prod.map _ _ (if execution.id.isNone then _ else repository.writeRefreshed
      (repository.synchronize { execution with lastUpdated := some now }))
  split
  · rfl
  · rw [synchronize_bare, writeRefreshed_bare]

/-- Files the context of a step that has been saved. -/
def fileSaved (repository : Repository) (step : StepExecution) :
    Except StoreError (StepExecution × StepStore) → Written StepExecution × Repository
  | .error error => (⟨.error (.store error), step⟩, repository)
  | .ok (saved, steps) =>
    match repository.contexts.saveStep saved with
    | .error error => (⟨.error (.store error), saved⟩, { repository with steps })
    | .ok contexts => (⟨.ok (), saved⟩, { repository with steps, contexts })

private theorem addStep_bare : repository.bare.addStep (see now) step.bare =
    Prod.map (Written.map StepExecution.bare) bare (repository.addStep now step) := by
  have parent : (repository.executions.bare.get? step.jobExecutionId).isNone =
      (repository.executions.get? step.jobExecutionId).isNone := by
    rw [ExecutionStore.get?_bare, Option.isNone_map]
  let stamped := { step with lastUpdated := some now }
  change (if (repository.executions.bare.get? step.jobExecutionId).isNone then _
      else repository.bare.fileSaved stamped.bare (repository.steps.bare.save stamped.bare)) =
    Prod.map _ _ (if (repository.executions.get? step.jobExecutionId).isNone then _
      else repository.fileSaved stamped (repository.steps.save stamped))
  rw [parent, StepStore.save_bare]
  split
  · rfl
  · rcases repository.steps.save stamped with error | ⟨saved, steps⟩
    · rfl
    · have filed : repository.bare.contexts.saveStep saved.bare =
          repository.contexts.saveStep saved := rfl
      simp only [Except.map, Prod.map, fileSaved, filed]
      cases repository.contexts.saveStep saved <;> rfl

private theorem updateStep_bare : repository.bare.updateStep (see now) step.bare =
    Prod.map (Written.map StepExecution.bare) bare (repository.updateStep now step) := by
  have stopping : (repository.bare.executions.get? step.bare.jobExecutionId).any (·.isStopping) =
      (repository.executions.get? step.jobExecutionId).any (·.isStopping) := by
    change (repository.executions.bare.get? step.jobExecutionId).any _ = _
    rw [ExecutionStore.get?_bare, Option.any_map]
    rfl
  have updated : repository.bare.steps.update { step.bare with lastUpdated := some (see now) } =
      (repository.steps.update { step with lastUpdated := some now }).map
        (Prod.map StepExecution.bare StepStore.bare) :=
    StepStore.update_bare repository.steps { step with lastUpdated := some now }
  unfold updateStep
  simp only [updated, stopping]
  rcases repository.steps.update { step with lastUpdated := some now } with error | ⟨written, steps⟩
  · rfl
  · cases (repository.executions.get? step.jobExecutionId).any (·.isStopping) <;> rfl

end Repository

/-! ## Requests and answers -/

namespace Request

/-- The request without moments and without parameters that do not identify. -/
def bare : Request → Request
  | findInstance jobName parameters => findInstance jobName parameters.identifying
  | lastExecution jobName parameters => lastExecution jobName parameters.identifying
  | lastStep known stepName => lastStep known stepName
  | executionsOf known => executionsOf known
  | runningExecutions jobName => runningExecutions jobName
  | execution id => execution id
  | step id stepId => step id stepId
  | context owner => context owner
  | createExecution jobName parameters => createExecution jobName parameters.identifying
  | update copy => update copy.bare
  | synchronize copy => synchronize copy.bare
  | addStep copy => addStep copy.bare
  | updateStep copy => updateStep copy.bare
  | updateContext copy => updateContext copy.bare
  | updateStepContext copy => updateStepContext copy.bare

/-- The answer with bare records. -/
def bareAnswer : (request : Request) → request.Answer → request.bare.Answer
  | findInstance .., found => found
  | lastExecution .., read => Except.map (Option.map JobExecution.bare) read
  | lastStep .., read => Option.map StepExecution.bare read
  | executionsOf _, read => Except.map (List.map JobExecution.bare) read
  | runningExecutions _, read => Except.map (List.map JobExecution.bare) read
  | execution _, read => Except.map (Option.map JobExecution.bare) read
  | step .., read => Option.map StepExecution.bare read
  | context _, read => read
  | createExecution .., created => Except.map JobExecution.bare created
  | update _, written => Written.map JobExecution.bare written
  | synchronize _, written => Written.map JobExecution.bare written
  | addStep _, written => Written.map StepExecution.bare written
  | updateStep _, written => Written.map StepExecution.bare written
  | updateContext _, result => result
  | updateStepContext _, result => result

/-- Which step of a name was started last is the one answer that moments decide. -/
def TellsByMoments : Request → Prop
  | lastStep .. => True
  | _ => False

omit [View] in
/-- The last step of a name is all that is told by moments. -/
theorem tellsByMoments_iff {request : Request} :
    request.TellsByMoments ↔ ∃ known stepName, request = lastStep known stepName := by
  cases request <;> simp [TellsByMoments]

end Request

namespace Repository

variable {repository : Repository}

/-- A request does the same to the bare repository. -/
theorem answer_bare (wellFormed : repository.executions.WellFormed) (now : Timestamp)
    {request : Request} (other : ¬ request.TellsByMoments) :
    repository.bare.answer (see now) request.bare =
      Prod.map request.bareAnswer bare (repository.answer now request) := by
  cases request with
  | findInstance jobName parameters => exact congrArg (·, repository.bare) instance?_bare
  | lastExecution jobName parameters =>
    exact congrArg (·, repository.bare) (lastExecution_bare wellFormed)
  | lastStep known stepName => exact absurd trivial other
  | executionsOf known =>
    have listed : repository.bare.executions.ofInstance known.id = _ :=
      ExecutionStore.ofInstance_bare
    simp only [Request.bare, answer, executionsOf, listed, completeAll_bare]
    rfl
  | runningExecutions jobName =>
    have listed : repository.bare.executions.running jobName = _ :=
      ExecutionStore.running_bare jobName
    simp only [Request.bare, answer, runningExecutions, listed, completeAll_bare]
    rfl
  | execution id =>
    have found : repository.bare.executions.get? id = _ := ExecutionStore.get?_bare
    simp only [Request.bare, answer, execution, found, completeOption_bare]
    rfl
  | step id stepId =>
    have found : repository.bare.steps.get? id stepId = _ := StepStore.get?_bare
    simp only [Request.bare, answer, step?, found]
    cases repository.steps.get? id stepId <;> rfl
  | context owner => rfl
  | createExecution jobName parameters =>
    have created : repository.bare.createExecution (see now) jobName parameters.identifying =
        (repository.createExecution now jobName parameters).map _ :=
      createExecution_bare wellFormed
    simp only [Request.bare, answer, created]
    cases repository.createExecution now jobName parameters <;> rfl
  | update copy => exact update_bare
  | synchronize copy => exact congrArg (·, repository.bare) (synchronize_bare repository copy)
  | addStep copy => exact addStep_bare
  | updateStep copy => exact updateStep_bare
  | updateContext copy =>
    have filed : repository.bare.contexts.updateJob copy.bare =
        repository.contexts.updateJob copy := rfl
    simp only [Request.bare, answer, updateContext, filed]
    cases repository.contexts.updateJob copy <;> rfl
  | updateStepContext copy =>
    have filed : repository.bare.contexts.updateStep copy.bare =
        repository.contexts.updateStep copy := rfl
    simp only [Request.bare, answer, updateStepContext, filed]
    cases repository.contexts.updateStep copy <;> rfl

/-- The last step of a name is the same in two repositories when it is bare, if their steps were
started in the same order. -/
theorem lastStep_of_sameOrder {other : Repository} (same : repository.bare = other.bare)
    {known : JobInstance} {stepName : String}
    (order : StepStore.SameOrder repository.steps other.steps known.id stepName) :
    (repository.lastStep known stepName).map StepExecution.bare =
      (other.lastStep known stepName).map StepExecution.bare := by
  have sameSteps : repository.steps.bare = other.steps.bare := congrArg Repository.steps same
  have last := StepStore.last?_of_sameOrder sameSteps order
  have shown (repository : Repository) :
      (repository.lastStep known stepName).map StepExecution.bare =
        ((repository.steps.last? known.id stepName).map StepExecution.bare).map
          repository.bare.withStepContext := by
    rw [lastStep, Option.map_map, Option.map_map]
    rfl
  rw [shown, shown, last, same]

/-- In any order, there is such a step in both repositories or in none. -/
theorem isSome_lastStep_of_same {other : Repository} (same : repository.bare = other.bare)
    (known : JobInstance) (stepName : String) :
    (repository.lastStep known stepName).isSome = (other.lastStep known stepName).isSome := by
  have sameSteps : repository.steps.bare = other.steps.bare := congrArg Repository.steps same
  have listed : (repository.steps.ofName known.id stepName).map StepExecution.bare =
      (other.steps.ofName known.id stepName).map StepExecution.bare := by
    rw [← StepStore.ofName_bare, sameSteps, StepStore.ofName_bare]
  have vacant : repository.steps.last? known.id stepName = none ↔
      other.steps.last? known.id stepName = none := by
    rw [StepStore.last?_eq_none_iff, StepStore.last?_eq_none_iff,
      ← List.map_eq_nil_iff (f := StepExecution.bare), listed, List.map_eq_nil_iff]
  unfold lastStep
  rw [Option.isSome_map, Option.isSome_map, Bool.eq_iff_iff, Option.isSome_iff_ne_none,
    Option.isSome_iff_ne_none]
  exact not_congr vacant

/-- What a request makes of a repository is decided by the bare ones. -/
theorem answer_snd_bare (wellFormed : repository.executions.WellFormed) (now : Timestamp)
    (request : Request) :
    (repository.answer now request).2.bare = (repository.bare.answer (see now) request.bare).2 := by
  by_cases told : request.TellsByMoments
  · obtain ⟨known, stepName, rfl⟩ := Request.tellsByMoments_iff.1 told
    rfl
  · exact congrArg Prod.snd (answer_bare wellFormed now told).symm

end Repository

end BatchRun
