import BatchRun.Proofs.Repository.Consistency

/-! # Where the contexts of job executions go

The context of a job execution is filed under its number when the execution is created, and again
when it is written. No other request touches it, and it goes only when another execution of the
instance is created. That execution starts with the context that is filed for the record it takes
the place of, whatever context the record itself has.
-/

namespace BatchRun.Repository

variable {repository after : Repository} {now : Timestamp} {request : Request}
  {copy stored execution : JobExecution} {id : JobExecutionId} {jobName : String}
  {parameters : JobParameters} {known : JobInstance} {context : ExecutionContext}
  {claimed : Repository} {filed : StoredContext}

/-- What is filed as the context of a job execution. -/
def filed? (repository : Repository) (id : JobExecutionId) : Option StoredContext :=
  repository.contexts.jobs.get? id

/-- What is read as context of an execution is what is filed for it. -/
theorem get?_contexts :
    repository.contexts.get? (.job id) = (repository.filed? id).map (·.context) := rfl

private theorem jobs_saveStep {step : StepExecution} {contexts : ContextStore}
    (saved : repository.contexts.saveStep step = .ok contexts) :
    contexts.jobs = repository.contexts.jobs := by
  unfold ContextStore.saveStep at saved
  cases owner : ContextStore.ofStep step with
  | error error => simp [owner, bind, Except.bind] at saved
  | ok filed =>
    simp only [owner, bind, Except.bind, pure, Except.pure, Except.ok.injEq] at saved
    rw [← saved]

private theorem jobs_addStep (step : StepExecution) :
    (repository.addStep now step).2.contexts.jobs = repository.contexts.jobs := by
  unfold addStep
  by_cases absent : (repository.executions.get? step.jobExecutionId).isNone
  · rw [if_pos absent]
  · rw [if_neg absent]
    simp only []
    generalize repository.steps.save _ = result
    rcases result with error | ⟨added, steps⟩
    · rfl
    · simp only []
      cases saved : repository.contexts.saveStep added with
      | error error => rfl
      | ok contexts => exact jobs_saveStep saved

/-- Two requests file contexts of job executions, and all others leave them as they are. -/
theorem jobs_answer_of_other
    (creates : ∀ jobName parameters, request ≠ .createExecution jobName parameters)
    (files : ∀ copy, request ≠ .updateContext copy) :
    (repository.answer now request).2.contexts.jobs = repository.contexts.jobs := by
  cases request with
  | createExecution jobName parameters => exact absurd rfl (creates jobName parameters)
  | updateContext copy => exact absurd rfl (files copy)
  | update copy =>
    simp only [answer, update]
    (repeat' split) <;> rfl
  | addStep step => exact jobs_addStep step
  | updateStep step =>
    simp only [answer, updateStep]
    split <;> rfl
  | updateStepContext step =>
    simp only [answer, updateStepContext, ContextStore.updateStep]
    cases ContextStore.ofStep step <;> rfl
  | _ => rfl

/-- Only the creation of an execution adds or removes records. -/
theorem isSome_get?_answer_of_other
    (creates : ∀ jobName parameters, request ≠ .createExecution jobName parameters)
    (id : JobExecutionId) :
    ((repository.answer now request).2.executions.get? id).isSome =
      (repository.executions.get? id).isSome := by
  have effect := repository.effect_answer now request
  generalize (repository.answer now request).2 = next at effect ⊢
  cases effect with
  | none refused executions instances => rw [executions]
  | @write copy stored key numbered found =>
    rw [get?_withRecord]
    split
    · rename_i same
      rw [same, found]
      rfl
    · rfl
  | create granted executions instances => exact absurd rfl (creates _ _)

/-- A later write files the context of the copy. -/
theorem updateContext_of_numbered (numbered : copy.id = some id) :
    ∃ after, repository.orKeepUnit (repository.updateContext copy) = (.ok (), after) ∧
      after.instances = repository.instances ∧ after.executions = repository.executions ∧
      ∀ key, after.filed? key = if key = id then some ⟨copy.jobInstance.id, id, copy.context⟩
        else repository.filed? key := by
  unfold updateContext ContextStore.updateJob ContextStore.ofExecution
  simp only [numbered]
  exact ⟨_, rfl, rfl, rfl, fun key => SortedMap.get?_insert ..⟩

/-! ## New executions -/

/-- A new execution is filed with the context it starts with, and what other executions of the
instance have left is removed. -/
theorem filed?_of_created
    (created : repository.createExecution now jobName parameters = .ok (execution, after)) :
    ∃ context claimed,
      repository.claim jobName parameters = .ok (execution.jobInstance, context, claimed) ∧
      execution.context = context.clearDirty ∧
      ∀ key filed, after.filed? key = some filed ↔
        (key = ⟨repository.executions.lastId + 1⟩ ∧
          filed = ⟨execution.jobInstance.id, ⟨repository.executions.lastId + 1⟩, context⟩) ∨
        (key ≠ ⟨repository.executions.lastId + 1⟩ ∧ repository.filed? key = some filed ∧
          (filed.jobInstanceId = execution.jobInstance.id →
            filed.jobExecutionId = ⟨repository.executions.lastId + 1⟩)) := by
  cases granted : repository.claim jobName parameters with
  | error error =>
    rw [createExecution_of_refused granted] at created
    contradiction
  | ok claimed =>
    obtain ⟨known, context, claimed⟩ := claimed
    obtain ⟨given, afterwards⟩ :=
      Prod.mk.inj (Except.ok.inj ((createExecution_eq now granted).symm.trans created))
    obtain ⟨sameExecutions, -⟩ := isFor_of_claim granted
    have sameContexts : claimed.contexts = repository.contexts := by
      rcases claim_cases granted with ⟨-, -, same⟩ | ⟨-, -, extended⟩
      · rw [same]
      · rw [extended]
    obtain rfl : known = execution.jobInstance := by
      rw [← given]
      rfl
    refine ⟨context, claimed, rfl, by rw [← given], fun key filed => ?_⟩
    rw [← afterwards, sameExecutions, sameContexts]
    unfold filed? filedAs
    rw [SortedMap.get?_insert]
    by_cases new : key = ⟨repository.executions.lastId + 1⟩
    · simp [new, eq_comm]
    · simp [new, SortedMap.get?_filter_eq_some_iff, ContextStore.isSuperseded,
        Decidable.imp_iff_not_or]

/-- The record of a new execution takes the place of the one that the instance had. -/
theorem get?_of_created
    (created : repository.createExecution now jobName parameters = .ok (execution, after)) :
    ∃ record, execution.SameRecord record ∧
      ∀ id stored, after.executions.get? id = some stored ↔
        (id = ⟨repository.executions.lastId + 1⟩ ∧ stored = record) ∨
        (id ≠ ⟨repository.executions.lastId + 1⟩ ∧
          repository.executions.get? id = some stored ∧
          stored.jobInstance.id ≠ execution.jobInstance.id) := by
  obtain ⟨known, context, claimed, contexts, granted, given, afterwards⟩ :=
    createExecution_cases created
  obtain ⟨same, -⟩ := isFor_of_claim granted
  rw [given, afterwards, same]
  refine ⟨repository.executions.savedAs (newExecution now known parameters context), ⟨rfl, rfl⟩, ?_⟩
  exact fun id stored => ExecutionStore.get?_afterSave

/-- As long as the numbers of the instances have not run out, the number tells whether an instance
is that of a new execution. -/
theorem same_id_iff_of_created (consistent : repository.Consistent)
    (few : after.instances.instances.length < 2 ^ 64)
    (created : repository.createExecution now jobName parameters = .ok (execution, after))
    (inside : known ∈ repository.instances.instances) :
    known.id = execution.jobInstance.id ↔ known.isFor jobName parameters = true := by
  obtain ⟨own, context, claimed, contexts, granted, given, afterwards⟩ :=
    createExecution_cases created
  obtain ⟨wellFormed, member, kept⟩ := consistent.claim granted
  obtain ⟨-, matching⟩ := isFor_of_claim granted
  obtain rfl : execution.jobInstance = own := by
    rw [given]
    rfl
  constructor
  · intro same
    rw [afterwards] at few
    rw [wellFormed.eq_of_same_id few (kept _ inside) member same]
    exact matching
  · intro knownFor
    obtain ⟨sameName, sameKey⟩ := JobInstance.isFor_iff.1 matching
    obtain ⟨knownName, knownKey⟩ := JobInstance.isFor_iff.1 knownFor
    rw [wellFormed.single (kept _ inside) member (knownName.trans sameName.symm)
      (knownKey.trans sameKey.symm)]

/-- What a claim finds as the context to start with. -/
theorem context_of_claim (granted : repository.claim jobName parameters =
      .ok (known, context, claimed)) :
    (repository.instance? jobName parameters = none ∧ context = .empty) ∨
    (repository.instance? jobName parameters = some known ∧
      context = (((repository.executions.last? known.id).map repository.withContext).map
        (·.context)).getD .empty) := by
  unfold claim at granted
  cases present : repository.instance? jobName parameters with
  | some existing =>
    simp only [present] at granted
    cases check : checkClaim existing parameters (repository.executions.ofInstance existing.id) with
    | error error => simp [check, bind, Except.bind] at granted
    | ok =>
      simp only [check, bind, Except.bind, pure, Except.pure, Except.ok.injEq, Prod.mk.injEq]
        at granted
      obtain ⟨rfl, same, -⟩ := granted
      exact .inr ⟨rfl, same.symm⟩
  | none =>
    have absent : repository.instances.get? jobName parameters = none := present
    simp only [present, InstanceStore.create, absent, ofStore, bind, Except.bind, pure,
      Except.pure, Except.ok.injEq, Prod.mk.injEq] at granted
    exact .inl ⟨rfl, granted.2.1.symm⟩

/-- A new execution starts with the context that is filed for the record of its instance. -/
theorem context_of_record (consistent : repository.Consistent)
    (granted : repository.claim jobName parameters = .ok (known, context, claimed))
    (found : repository.executions.get? id = some stored)
    (matching : stored.jobInstance.isFor jobName parameters = true)
    (lookup : repository.filed? id = some filed) :
    known = stored.jobInstance ∧ context = filed.context := by
  have present : repository.instance? jobName parameters = some stored.jobInstance :=
    consistent.instances.get?_of_mem (consistent.belongs found) matching
  rcases context_of_claim granted with ⟨absent, -⟩ | ⟨sameKnown, start⟩
  · rw [present] at absent
    contradiction
  · obtain rfl := Option.some.inj (present.symm.trans sameKnown)
    refine ⟨rfl, start.trans ?_⟩
    rcases repository.executions.last?_cases stored.jobInstance.id with
      ⟨nothing, -⟩ | ⟨last, member, isLast⟩
    · have member := ExecutionStore.mem_ofInstance.2 ⟨⟨id, found⟩, rfl⟩
      rw [nothing] at member
      exact absurd member List.not_mem_nil
    · obtain ⟨⟨lastId, lastFound⟩, belongs⟩ := ExecutionStore.mem_ofInstance.1 member
      obtain rfl := consistent.executions.single lastFound found belongs
      obtain rfl := Option.some.inj (lastFound.symm.trans found)
      have numbered := consistent.executions.numbered found
      simp [isLast, withContext, numbered, get?_contexts, lookup]

/-- The first execution of an instance starts with an empty context. -/
theorem context_of_no_record
    (granted : repository.claim jobName parameters = .ok (known, context, claimed))
    (first : ∀ id stored, repository.executions.get? id = some stored →
      stored.jobInstance.id ≠ known.id) : context = .empty := by
  rcases context_of_claim granted with ⟨-, empty⟩ | ⟨-, start⟩
  · exact empty
  · rcases repository.executions.last?_cases known.id with ⟨-, nothing⟩ | ⟨last, member, -⟩
    · rw [start, nothing]
      rfl
    · obtain ⟨⟨id, found⟩, belongs⟩ := ExecutionStore.mem_ofInstance.1 member
      exact absurd belongs (first id last found)

end BatchRun.Repository
