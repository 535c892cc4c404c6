import BatchRun.Proofs.Repository.Changes
import BatchRun.Proofs.Repository.Consistency
import BatchRun.Proofs.Store.Mapped

/-! # What requests go by

Whether a request is granted and which record it writes depends on the numbers, the versions, the
instances and the statuses of records. All else in a record is stored as it comes, the list of steps
in an execution as well. So repositories that are the same in outline are so after any request, even
if it is made with other copies that are the same in outline, and at another moment.
-/

namespace BatchRun

/-- What requests go by in a step. -/
def StepExecution.outline (step : StepExecution) : StepExecution :=
  { StepExecution.start ⟨0, 0⟩ step.stepName step.jobExecutionId step.jobInstanceId with
    id := step.id, version := step.version, status := step.status }

/-- What requests go by in an execution. The steps that are in it are left out. -/
def JobExecution.outline (execution : JobExecution) : JobExecution :=
  { JobExecution.create ⟨0, 0⟩ execution.jobInstance .empty with
    id := execution.id, version := execution.version, status := execution.status }

/-- Requests of the same kind with the same arguments, but for what is left out of copies. -/
inductive Request.Alike : Request → Request → Prop
  | same (request : Request) : Alike request request
  | update {given other : JobExecution} (copies : given.outline = other.outline) :
      Alike (.update given) (.update other)
  | synchronize {given other : JobExecution} (copies : given.outline = other.outline) :
      Alike (.synchronize given) (.synchronize other)
  | updateContext {given other : JobExecution} (copies : given.outline = other.outline) :
      Alike (.updateContext given) (.updateContext other)
  | addStep {given other : StepExecution} (copies : given.outline = other.outline) :
      Alike (.addStep given) (.addStep other)
  | updateStep {given other : StepExecution} (copies : given.outline = other.outline) :
      Alike (.updateStep given) (.updateStep other)
  | updateStepContext {given other : StepExecution} (copies : given.outline = other.outline) :
      Alike (.updateStepContext given) (.updateStepContext other)

namespace Repository

variable {repository twin : Repository} {now moment : Timestamp} {jobName : String}
  {parameters : JobParameters} {id : JobExecutionId}

/-- What requests go by in a repository. -/
def outline (repository : Repository) : Repository where
  instances := repository.instances
  executions := repository.executions.mapped JobExecution.outline
  steps := repository.steps.mapped StepExecution.outline
  contexts := .empty

/-- The copy comes back the same in outline, with the same result. -/
structure SameWritten (written other : Written JobExecution) : Prop where
  result : written.result = other.result
  copy : written.copy.outline = other.copy.outline

private theorem outline_written {given stored : JobExecution} :
    (written now given stored).outline =
      (written ⟨0, 0⟩ given.outline stored.outline).outline := rfl

private theorem addStep_of_not_added {given : StepExecution}
    (refused : ∀ parent, given.id = none →
      repository.executions.get? given.jobExecutionId = some parent → False) :
    (repository.addStep now given).2 = repository := by
  rcases repository.addStep_cases now given with ⟨parent, new, found, -⟩ | ⟨_, _, unchanged⟩
  · exact (refused parent new found).elim
  · rw [unchanged]

section Same

variable (same : repository.outline = twin.outline)

include same

/-- Instances belong to the outline. -/
theorem instance?_of_outline :
    repository.instance? jobName parameters = twin.instance? jobName parameters :=
  (congrArg (fun outline => outline.instances.get? jobName parameters) same :)

private theorem executions_of_outline :
    repository.executions.mapped JobExecution.outline =
      twin.executions.mapped JobExecution.outline :=
  (congrArg Repository.executions same :)

private theorem steps_of_outline :
    repository.steps.mapped StepExecution.outline = twin.steps.mapped StepExecution.outline :=
  (congrArg Repository.steps same :)

/-- Under each number both have a record with the same outline, or neither has one. -/
theorem records_of_outline (id : JobExecutionId) :
    (repository.executions.get? id = none ∧ twin.executions.get? id = none) ∨
    ∃ stored other, repository.executions.get? id = some stored ∧
      twin.executions.get? id = some other ∧ stored.outline = other.outline := by
  have lookups := congrArg (ExecutionStore.get? · id) (executions_of_outline same)
  simp only [ExecutionStore.get?_mapped] at lookups
  cases found : repository.executions.get? id <;> cases there : twin.executions.get? id <;>
    simp_all

/-- Under each number both have a step with the same outline, or neither has one. -/
theorem storedSteps_of_outline (id : JobExecutionId) (stepId : StepExecutionId) :
    (repository.steps.get? id stepId = none ∧ twin.steps.get? id stepId = none) ∨
    ∃ stored other, repository.steps.get? id stepId = some stored ∧
      twin.steps.get? id stepId = some other ∧ stored.outline = other.outline := by
  have lookups := congrArg (StepStore.get? · id stepId) (steps_of_outline same)
  simp only [StepStore.get?_mapped] at lookups
  cases found : repository.steps.get? id stepId <;> cases there : twin.steps.get? id stepId <;>
    simp_all

/-! ## Executions -/

private theorem outline_withRecord {record other : JobExecution}
    (records : record.outline = other.outline) :
    (repository.withRecord id record).outline = (twin.withRecord id other).outline := by
  have executions (repository : Repository) (record : JobExecution) :
      (repository.withRecord id record).outline = repository.outline.withRecord id record.outline :=
    congrArg (fun executions => { repository.outline with
      executions := ⟨executions, repository.executions.lastId⟩ })
      (SortedMap.mapValues_insert _ repository.executions.executions id record)
  rw [executions, executions, same, records]

private theorem outline_withAddedStep {given copy : StepExecution}
    (copies : given.outline = copy.outline) :
    (repository.withAddedStep now given).outline = (twin.withAddedStep moment copy).outline := by
  have steps (repository : Repository) (now : Timestamp) (given : StepExecution) :
      (repository.withAddedStep now given).outline =
        { repository.outline with steps := repository.outline.steps.afterSave given.outline } := by
    have saved : (repository.steps.afterSave { given with lastUpdated := some now }).mapped
        StepExecution.outline = _ :=
      StepStore.mapped_afterSave (fun _ => rfl) (fun _ => rfl) rfl
    exact congrArg (fun steps => { repository.outline with steps }) saved
  rw [steps, steps, same, copies]

private theorem outline_withWrittenStep {stepId : StepExecutionId} {given copy : StepExecution}
    (copies : given.outline = copy.outline) :
    (repository.withWrittenStep now stepId given).outline =
      (twin.withWrittenStep moment stepId copy).outline := by
  have steps (repository : Repository) (now : Timestamp) (given : StepExecution) :
      (repository.withWrittenStep now stepId given).outline =
        { repository.outline with
          steps := repository.outline.steps.withStep stepId
            (writtenStep ⟨0, 0⟩ given.outline).outline } := by
    have stored : (repository.steps.withStep stepId (writtenStep now given)).mapped
        StepExecution.outline = _ := StepStore.mapped_withStep rfl
    exact congrArg (fun steps => { repository.outline with steps }) stored
  rw [steps, steps, same, copies]

theorem synchronize_of_outline {given copy : JobExecution} (copies : given.outline = copy.outline) :
    SameWritten (repository.synchronize given) (twin.synchronize copy) := by
  have numbers : given.id = copy.id := (congrArg JobExecution.id copies :)
  by_cases new : given.id = none
  · rw [synchronize_of_new new, synchronize_of_new (numbers ▸ new)]
    exact ⟨rfl, copies⟩
  · obtain ⟨id, numbered⟩ := Option.ne_none_iff_exists'.1 new
    have copyNumbered : copy.id = some id := numbers ▸ numbered
    rcases records_of_outline same id with
      ⟨missing, absent⟩ | ⟨stored, other, found, there, records⟩
    · rw [synchronize_of_missing numbered missing, synchronize_of_missing copyNumbered absent]
      exact ⟨rfl, copies⟩
    · rw [synchronize_of_record numbered found, synchronize_of_record copyNumbered there]
      refine ⟨rfl, ?_⟩
      change (given.outline.refreshedFrom stored.outline).outline =
        (copy.outline.refreshedFrom other.outline).outline
      rw [copies, records]

/-- Writes are answered alike in outline. -/
theorem update_of_outline {given copy : JobExecution} (copies : given.outline = copy.outline) :
    SameWritten (repository.update now given).1 (twin.update moment copy).1 ∧
      (repository.update now given).2.outline = (twin.update moment copy).2.outline := by
  have numbers : given.id = copy.id := (congrArg JobExecution.id copies :)
  by_cases new : given.id = none
  · rw [update_of_new now new, update_of_new moment (numbers ▸ new)]
    exact ⟨⟨rfl, copies⟩, same⟩
  · obtain ⟨id, numbered⟩ := Option.ne_none_iff_exists'.1 new
    have copyNumbered : copy.id = some id := numbers ▸ numbered
    rcases records_of_outline same id with
      ⟨missing, absent⟩ | ⟨stored, other, found, there, records⟩
    · rw [update_of_missing now numbered missing, update_of_missing moment copyNumbered absent]
      exact ⟨⟨rfl, copies⟩, same⟩
    · have outlines : (written now given stored).outline =
          (written moment copy other).outline := by
        rw [outline_written, copies, records]
        rfl
      rw [update_of_record now numbered found, update_of_record moment copyNumbered there]
      exact ⟨⟨rfl, outlines⟩, outline_withRecord same outlines⟩

/-! ## Steps -/

private theorem addStep_of_outline {given copy : StepExecution}
    (copies : given.outline = copy.outline) :
    (repository.addStep now given).2.outline = (twin.addStep moment copy).2.outline := by
  have numbers : given.id = copy.id := (congrArg StepExecution.id copies :)
  have parents : given.jobExecutionId = copy.jobExecutionId :=
    (congrArg StepExecution.jobExecutionId copies :)
  by_cases new : given.id = none
  · rcases records_of_outline same given.jobExecutionId with
      ⟨missing, absent⟩ | ⟨stored, other, found, there, -⟩
    · rw [parents] at absent
      have refused : (repository.addStep now given).2 = repository :=
        addStep_of_not_added fun _ _ found => nomatch missing.symm.trans found
      have alsoRefused : (twin.addStep moment copy).2 = twin :=
        addStep_of_not_added fun _ _ there => nomatch absent.symm.trans there
      rw [refused, alsoRefused, same]
    · rw [addStep_of_parent now new found, addStep_of_parent moment (numbers ▸ new)
        (parents ▸ there)]
      exact outline_withAddedStep same copies
  · have refused : (repository.addStep now given).2 = repository :=
      addStep_of_not_added fun _ noNumber _ => new noNumber
    have alsoRefused : (twin.addStep moment copy).2 = twin :=
      addStep_of_not_added fun _ noNumber _ => new (numbers.trans noNumber)
    rw [refused, alsoRefused, same]

private theorem isCurrent_of_outline {given copy : StepExecution}
    (copies : given.outline = copy.outline) (current : repository.steps.IsCurrent given) :
    twin.steps.IsCurrent copy := by
  have numbers : given.id = copy.id := (congrArg StepExecution.id copies :)
  have parents : given.jobExecutionId = copy.jobExecutionId :=
    (congrArg StepExecution.jobExecutionId copies :)
  have versions : given.version = copy.version := (congrArg StepExecution.version copies :)
  obtain ⟨id, stored, numbered, found, sameVersion⟩ := current
  rcases storedSteps_of_outline same given.jobExecutionId id with
    ⟨missing, -⟩ | ⟨record, other, lookup, there, records⟩
  · exact nomatch missing.symm.trans found
  · obtain rfl := Option.some.inj (lookup.symm.trans found)
    have sameRecord : record.version = other.version := (congrArg StepExecution.version records :)
    exact ⟨id, other, numbers.symm.trans numbered, parents ▸ there,
      sameRecord.symm.trans (sameVersion.trans versions)⟩

private theorem updateStep_of_outline {given copy : StepExecution}
    (copies : given.outline = copy.outline) :
    (repository.updateStep now given).2.outline = (twin.updateStep moment copy).2.outline := by
  have numbers : given.id = copy.id := (congrArg StepExecution.id copies :)
  rcases repository.updateStep_cases now given with
      ⟨id, stored, _, numbered, found, current, updated⟩ | ⟨outdated, _, refused⟩ <;>
    rcases twin.updateStep_cases moment copy with
      ⟨otherId, other, _, otherNumbered, there, otherCurrent, alsoUpdated⟩ |
        ⟨alsoOutdated, _, alsoRefused⟩
  · obtain rfl : id = otherId :=
      Option.some.inj (numbered.symm.trans (numbers.trans otherNumbered))
    rw [updated, alsoUpdated]
    exact outline_withWrittenStep same copies
  · exact absurd (isCurrent_of_outline same copies ⟨id, stored, numbered, found, current⟩)
      alsoOutdated
  · exact absurd (isCurrent_of_outline same.symm copies.symm
      ⟨otherId, other, otherNumbered, there, otherCurrent⟩) outdated
  · rw [refused, alsoRefused, same]

/-! ## Claims -/

omit same in
private theorem checkClaim_outline (known : JobInstance) (records : List JobExecution) :
    checkClaim known parameters (records.map JobExecution.outline) =
      checkClaim known parameters records := by
  induction records with
  | nil => rfl
  | cons first rest ih =>
    simp only [List.map_cons, checkClaim, ih]
    rfl

/-- Both refuse a claim with the same error, or both grant it for the same instance. -/
theorem claim_of_outline (jobName : String) (parameters : JobParameters) :
    (∃ error, repository.claim jobName parameters = .error error ∧
      twin.claim jobName parameters = .error error) ∨
    ∃ known context otherContext claimed other,
      repository.claim jobName parameters = .ok (known, context, claimed) ∧
      twin.claim jobName parameters = .ok (known, otherContext, other) ∧
      claimed.outline = other.outline := by
  have found := @instance?_of_outline _ _ jobName parameters same
  unfold claim
  rw [found]
  cases present : twin.instance? jobName parameters with
  | none =>
    have instances : repository.instances = twin.instances := (congrArg Repository.instances same :)
    simp only [instances]
    cases twin.instances.create jobName parameters with
    | error error => exact .inl ⟨_, rfl, rfl⟩
    | ok created =>
      refine .inr ⟨_, _, _, _, _, rfl, rfl, ?_⟩
      exact congrArg (fun outline => { outline with instances := created.2 }) same
  | some known =>
    have listed (repository : Repository) : checkClaim known parameters
        ((repository.executions.mapped JobExecution.outline).ofInstance known.id) =
          checkClaim known parameters (repository.executions.ofInstance known.id) := by
      have records : (repository.executions.mapped JobExecution.outline).ofInstance known.id = _ :=
        ExecutionStore.ofInstance_mapped fun _ => rfl
      rw [records, checkClaim_outline]
    have checked : checkClaim known parameters (repository.executions.ofInstance known.id) =
        checkClaim known parameters (twin.executions.ofInstance known.id) := by
      rw [← listed, executions_of_outline same, listed]
    simp only [checked]
    cases checkClaim known parameters (twin.executions.ofInstance known.id) with
    | error error => exact .inl ⟨error, rfl, rfl⟩
    | ok => exact .inr ⟨_, _, _, _, _, rfl, rfl, same⟩

/-- The new executions have the same outline. -/
theorem createExecution_of_outline (now moment : Timestamp) (jobName : String)
    (parameters : JobParameters) :
    (∃ error, repository.createExecution now jobName parameters = .error error ∧
      twin.createExecution moment jobName parameters = .error error) ∨
    ∃ created after other otherAfter,
      repository.createExecution now jobName parameters = .ok (created, after) ∧
      twin.createExecution moment jobName parameters = .ok (other, otherAfter) ∧
      created.outline = other.outline ∧ after.outline = otherAfter.outline := by
  rcases claim_of_outline same jobName parameters with
    ⟨error, refused, alsoRefused⟩ | ⟨known, context, otherContext, claimed, other, granted,
      alsoGranted, claims⟩
  · exact .inl ⟨error, createExecution_of_refused refused, createExecution_of_refused alsoRefused⟩
  · have lastIds : claimed.executions.lastId = other.executions.lastId :=
      (congrArg (fun outline => outline.executions.lastId) claims :)
    refine .inr ⟨_, _, _, _, createExecution_eq now granted, createExecution_eq moment alsoGranted,
      ?_, ?_⟩
    · unfold ExecutionStore.savedAs
      rw [lastIds]
      rfl
    · have after (repository : Repository) (now : Timestamp) (context : ExecutionContext)
          (contexts : ContextStore) :
          { repository with
            executions :=
              repository.executions.afterSave (newExecution now known parameters context)
            contexts }.outline =
          { repository.outline with
            executions := repository.outline.executions.afterSave
              (newExecution ⟨0, 0⟩ known parameters .empty).outline } := by
        have saved : (repository.executions.afterSave
            (newExecution now known parameters context)).mapped JobExecution.outline = _ :=
          ExecutionStore.mapped_afterSave (fun _ => rfl) rfl
        exact congrArg (fun executions => { repository.outline with executions }) saved
      rw [after, after, claims]

/-- Requests that are alike leave repositories that are the same in outline. -/
theorem answer_of_outline {request other : Request} (now moment : Timestamp)
    (alike : request.Alike other) :
    (repository.answer now request).2.outline = (twin.answer moment other).2.outline := by
  have filed (repository : Repository) (result : Except StoreError ContextStore) :
      (repository.orKeepUnit (do
        let contexts ← ofStore result
        return { repository with contexts })).2.outline = repository.outline := by
    cases result <;> rfl
  cases alike with
  | same =>
    cases request with
    | createExecution jobName parameters =>
      rcases createExecution_of_outline same now moment jobName parameters with
        ⟨error, refused, alsoRefused⟩ | ⟨_, _, _, _, created, alsoCreated, -, after⟩
      · rw [answer_of_not_created refused, answer_of_not_created alsoRefused, same]
      · rw [answer_of_created created, answer_of_created alsoCreated, after]
    | update given => exact (update_of_outline same rfl).2
    | addStep given => exact addStep_of_outline same rfl
    | updateStep given => exact updateStep_of_outline same rfl
    | updateContext given | updateStepContext given =>
      exact (filed _ _).trans (same.trans (filed _ _).symm)
    | _ => exact same
  | update copies => exact (update_of_outline same copies).2
  | addStep copies => exact addStep_of_outline same copies
  | updateStep copies => exact updateStep_of_outline same copies
  | updateContext copies | updateStepContext copies =>
    exact (filed _ _).trans (same.trans (filed _ _).symm)
  | synchronize copies => exact same

end Same

end Repository

end BatchRun
