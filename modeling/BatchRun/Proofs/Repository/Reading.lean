import BatchRun.Proofs.Repository.Requests
import BatchRun.Proofs.Store.Steps

/-! # Reading puts a record together

What is read is a stored record with its filed context and with the steps of its group, each of them
with its own filed context. A record without a group keeps the steps it was written with. Reading
never fails as long as every record stands under its own number, whichever way the record is found.
-/

namespace BatchRun.Repository

variable {repository : Repository} {id : JobExecutionId} {stored read : JobExecution}

/-- The steps that are shown for a record: those of its group or else its own. -/
def listedSteps (repository : Repository) (stored : JobExecution) : List StepExecution :=
  match stored.id.bind repository.steps.groups.get? with
  | none => stored.steps
  | some group => if group.isEmpty then stored.steps else group.values.reverse

/-- A record with steps in its group is shown with these, and any other one with its own. -/
theorem listedSteps_cases (repository : Repository) (numbered : stored.id = some id) :
    (∃ group stepId step, repository.steps.groups.get? id = some group ∧
      group.get? stepId = some step ∧ repository.listedSteps stored = group.values.reverse) ∨
    (∀ stepId, repository.steps.get? id stepId = none) ∧
      repository.listedSteps stored = stored.steps := by
  unfold listedSteps StepStore.get?
  rw [numbered, Option.bind_some]
  cases lookup : repository.steps.groups.get? id with
  | none => exact .inr ⟨fun _ => rfl, rfl⟩
  | some group =>
    by_cases vacant : group.isEmpty = true
    · exact .inr ⟨SortedMap.isEmpty_iff.1 vacant, if_pos vacant⟩
    · obtain ⟨stepId, present⟩ := not_forall.1 (mt SortedMap.isEmpty_iff.2 vacant)
      obtain ⟨step, here⟩ := Option.ne_none_iff_exists'.1 present
      exact .inl ⟨group, stepId, step, rfl, here, if_neg vacant⟩

/-- A record under which no step is saved is shown with its own ones. -/
theorem listedSteps_of_unsaved (numbered : stored.id = some id)
    (unsaved : ∀ stepId, repository.steps.get? id stepId = none) :
    repository.listedSteps stored = stored.steps := by
  rcases repository.listedSteps_cases numbered with
    ⟨group, stepId, step, found, here, -⟩ | ⟨-, own⟩
  · have saved := StepStore.get?_eq_some_iff.2 ⟨group, found, here⟩
    rw [unsaved stepId] at saved
    contradiction
  · exact own

/-- The steps that are shown for a record are those that are saved under it, and its own ones if
there are none. -/
theorem mem_listedSteps {step : StepExecution} (numbered : stored.id = some id) :
    step ∈ repository.listedSteps stored ↔
      (∃ stepId, repository.steps.get? id stepId = some step) ∨
      (∀ stepId, repository.steps.get? id stepId = none) ∧ step ∈ stored.steps := by
  rcases repository.listedSteps_cases numbered with
    ⟨group, stepId, saved, lookup, inside, listed⟩ | ⟨unsaved, own⟩
  · have found := StepStore.get?_eq_some_iff.2 ⟨group, lookup, inside⟩
    rw [listed, List.mem_reverse, SortedMap.mem_values]
    constructor
    · rintro ⟨key, here⟩
      exact .inl ⟨key, StepStore.get?_eq_some_iff.2 ⟨group, lookup, here⟩⟩
    · rintro (⟨key, present⟩ | ⟨unsaved, -⟩)
      · obtain ⟨_, same, here⟩ := StepStore.get?_eq_some_iff.1 present
        obtain rfl := Option.some.inj (lookup.symm.trans same)
        exact ⟨key, here⟩
      · exact nomatch found.symm.trans (unsaved stepId)
  · simp [own, unsaved]

/-- A record as it is read. -/
def assembled (repository : Repository) (stored : JobExecution) : JobExecution :=
  { repository.withContext stored with
    steps := (repository.listedSteps stored).map repository.withStepContext }

/-- A stored record is read as it is put together. -/
theorem complete_eq (numbered : stored.id = some id) :
    repository.complete stored = .ok (repository.assembled stored) := by
  unfold complete assembled listedSteps StepStore.attach withContext
  simp only [numbered, Option.bind_some]
  cases repository.steps.groups.get? id with
  | none => rfl
  | some group =>
    by_cases vacant : group.isEmpty
    · simp only [vacant, if_true]
      rfl
    · simp only [vacant]
      rfl

private theorem completeAll_eq {records : List JobExecution}
    (numbered : ∀ stored ∈ records, stored.id ≠ none) :
    repository.completeAll records = .ok (records.map repository.assembled) := by
  induction records with
  | nil => rfl
  | cons first rest ih =>
    obtain ⟨firstNumbered, restNumbered⟩ := List.forall_mem_cons.1 numbered
    obtain ⟨id, firstId⟩ := Option.ne_none_iff_exists'.1 firstNumbered
    simp only [completeAll, complete_eq firstId, ih restNumbered]
    rfl

private theorem completeOption_eq {record? : Option JobExecution}
    (numbered : ∀ stored ∈ record?, stored.id ≠ none) :
    repository.completeOption record? = .ok (record?.map repository.assembled) := by
  cases record? with
  | none => rfl
  | some stored =>
    obtain ⟨id, numbered⟩ := Option.ne_none_iff_exists'.1 (numbered stored rfl)
    simp only [completeOption, complete_eq numbered]
    rfl

/-! ## The ways to find a record -/

section Numbered

variable (wellNumbered : repository.executions.Numbered)

include wellNumbered

/-- An execution is read by its number. -/
theorem execution_eq (id : JobExecutionId) :
    repository.execution id =
      .ok ((repository.executions.get? id).map repository.assembled) := by
  refine completeOption_eq fun stored found => ?_
  simp [wellNumbered.numbered found]

private theorem last?_numbered (known : JobInstanceId) :
    ∀ stored ∈ repository.executions.last? known, stored.id ≠ none := by
  intro stored found
  rcases repository.executions.last?_cases known with ⟨-, nothing⟩ | ⟨last, member, isLast⟩
  · rw [nothing] at found
    contradiction
  · obtain rfl := Option.some.inj (isLast.symm.trans found)
    exact wellNumbered.id_ne_none_of_mem last member

/-- The last execution of an instance is read as it is put together. -/
theorem lastExecution_eq (jobName : String) (parameters : JobParameters) :
    repository.lastExecution jobName parameters =
      .ok (((repository.instance? jobName parameters).bind fun known =>
        repository.executions.last? known.id).map repository.assembled) := by
  unfold lastExecution
  cases repository.instance? jobName parameters with
  | none => rfl
  | some known => exact completeOption_eq (last?_numbered wellNumbered known.id)

theorem executionsOf_eq (known : JobInstance) :
    repository.executionsOf known =
      .ok ((repository.executions.ofInstance known.id).map repository.assembled) :=
  completeAll_eq wellNumbered.id_ne_none_of_mem

theorem runningExecutions_eq (jobName : String) :
    repository.runningExecutions jobName =
      .ok ((repository.executions.running jobName).map repository.assembled) := by
  refine completeAll_eq fun stored member => ?_
  obtain ⟨⟨id, found⟩, -⟩ := ExecutionStore.mem_running.1 member
  simp [wellNumbered.numbered found]

end Numbered

end BatchRun.Repository
