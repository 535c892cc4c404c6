import BatchRun.Proofs.Repository.Reading
import BatchRun.Proofs.Store.Mapped

/-! # Reads of a repository with other values in its records

Where the stores of executions and steps hold what is told of the records of other stores, the reads
give what is told of what is read there.
-/

namespace BatchRun.Repository

/-- Every read gives afterwards what is told of the records that it gave before. -/
structure ReadsAs (tell : JobExecution → JobExecution) (tellStep : StepExecution → StepExecution)
    (before after : Repository) : Prop where
  found : ∀ jobName parameters,
    after.instance? jobName parameters = before.instance? jobName parameters
  last : ∀ jobName parameters, after.lastExecution jobName parameters =
    (before.lastExecution jobName parameters).map (Option.map tell)
  ofInstance : ∀ known, after.executionsOf known = (before.executionsOf known).map (List.map tell)
  running : ∀ jobName, after.runningExecutions jobName =
    (before.runningExecutions jobName).map (List.map tell)
  execution : ∀ id, after.execution id = (before.execution id).map (Option.map tell)
  step : ∀ id stepId, after.step? id stepId = (before.step? id stepId).map tellStep
  lastStep : ∀ known stepName,
    after.lastStep known stepName = (before.lastStep known stepName).map tellStep
  context : ∀ owner, after.contexts.get? owner = before.contexts.get? owner

variable {before after : Repository} {id : JobExecutionId} {stored record : JobExecution}
  {tell keep : JobExecution → JobExecution} {tellStep keepStep : StepExecution → StepExecution}

/-- What the stores hold is told record by record, and so is what is read of them. -/
theorem readsAs_of_mapped (wellNumbered : before.executions.Numbered)
    (instances : after.instances = before.instances) (contexts : after.contexts = before.contexts)
    (executions : after.executions = before.executions.mapped keep)
    (steps : after.steps = before.steps.mapped keepStep)
    (listed : before.executions.Listed keep) (listedStep : before.steps.Listed keepStep)
    (shown : ∀ {id stored}, before.executions.get? id = some stored →
      after.assembled (keep stored) = tell (before.assembled stored))
    (shownStep : ∀ {id stepId step}, before.steps.get? id stepId = some step →
      after.withStepContext (keepStep step) = tellStep (before.withStepContext step)) :
    ReadsAs tell tellStep before after := by
  have numberedAfter : after.executions.Numbered := by
    constructor
    intro id stored found
    rw [executions, ExecutionStore.get?_mapped] at found
    obtain ⟨former, lookup, rfl⟩ := Option.map_eq_some_iff.1 found
    exact (listed.id lookup).trans (wellNumbered.numbered lookup)
  have found (jobName : String) (parameters : JobParameters) :
      after.instance? jobName parameters = before.instance? jobName parameters := by
    unfold instance?
    rw [instances]
  have shownList {records : List JobExecution}
      (inside : ∀ stored ∈ records, ∃ id, before.executions.get? id = some stored) :
      (records.map keep).map after.assembled = (records.map before.assembled).map tell := by
    rw [List.map_map, List.map_map]
    refine List.map_congr_left fun stored member => ?_
    obtain ⟨id, there⟩ := inside stored member
    exact shown there
  constructor
  case found => exact found
  case last =>
    intro jobName parameters
    rw [lastExecution_eq numberedAfter, lastExecution_eq wellNumbered, found, executions]
    cases before.instance? jobName parameters with
    | none => rfl
    | some known =>
      rw [Option.bind_some, Option.bind_some, listed.last?_mapped]
      rcases before.executions.last?_cases known.id with ⟨-, nothing⟩ | ⟨stored, member, isLast⟩
      · rw [nothing]
        rfl
      · obtain ⟨⟨id, there⟩, -⟩ := ExecutionStore.mem_ofInstance.1 member
        rw [isLast]
        exact congrArg (Except.ok ∘ some) (shown there)
  case ofInstance =>
    intro known
    rw [executionsOf_eq numberedAfter, executionsOf_eq wellNumbered, executions,
      listed.ofInstance_mapped,
      shownList fun stored member => (ExecutionStore.mem_ofInstance.1 member).1]
    rfl
  case running =>
    intro jobName
    rw [runningExecutions_eq numberedAfter, runningExecutions_eq wellNumbered, executions,
      listed.running_mapped, shownList fun stored member => (ExecutionStore.mem_running.1 member).1]
    rfl
  case execution =>
    intro id
    rw [execution_eq numberedAfter, execution_eq wellNumbered, executions,
      ExecutionStore.get?_mapped]
    cases there : before.executions.get? id with
    | none => rfl
    | some stored => exact congrArg (Except.ok ∘ some) (shown there)
  case step =>
    intro id stepId
    unfold step?
    rw [steps, StepStore.get?_mapped]
    cases there : before.steps.get? id stepId with
    | none => rfl
    | some step => exact congrArg some (shownStep there)
  case lastStep =>
    intro known stepName
    unfold Repository.lastStep
    rw [steps, listedStep.last?_mapped]
    cases last : before.steps.last? known.id stepName with
    | none => rfl
    | some step =>
      obtain ⟨⟨id, stepId, there⟩, -⟩ := StepStore.mem_ofName.1 (StepStore.mem_of_last? last)
      exact congrArg some (shownStep there)
  case context => exact fun owner => congrArg (ContextStore.get? · owner) contexts

/-- A record is shown with what is told of the steps of its group, and without a group with its own
steps. -/
theorem listedSteps_mapped (steps : after.steps = before.steps.mapped keepStep)
    (numbered : stored.id = some id) (same : record.id = some id) :
    ((∀ step ∈ before.listedSteps stored, ∃ stepId, before.steps.get? id stepId = some step) ∧
      after.listedSteps record = (before.listedSteps stored).map keepStep) ∨
    (∀ stepId, before.steps.get? id stepId = none) ∧
      before.listedSteps stored = stored.steps ∧ after.listedSteps record = record.steps := by
  rcases before.listedSteps_cases numbered with
    ⟨group, stepId, step, found, here, listed⟩ | ⟨unsaved, listed⟩
  · have lookup : after.steps.groups.get? id = some (group.mapValues keepStep) := by
      rw [steps, StepStore.groups_mapped, found]
      rfl
    have inhabited : (group.mapValues keepStep).isEmpty = false := by
      rw [SortedMap.isEmpty_mapValues, Bool.eq_false_iff]
      intro vacant
      rw [SortedMap.isEmpty_iff.1 vacant] at here
      contradiction
    rw [listed]
    refine .inl ⟨fun step member => ?_, ?_⟩
    · obtain ⟨stepId, here⟩ := SortedMap.mem_values.1 (List.mem_reverse.1 member)
      exact ⟨stepId, StepStore.get?_eq_some_iff.2 ⟨group, found, here⟩⟩
    · rw [List.map_reverse, ← SortedMap.values_mapValues]
      unfold listedSteps
      rw [same, Option.bind_some, lookup]
      simp only [inhabited]
      rfl
  · refine .inr ⟨unsaved, listed, ?_⟩
    refine listedSteps_of_unsaved same fun stepId => ?_
    rw [steps, StepStore.get?_mapped, unsaved]
    rfl

end BatchRun.Repository
