import BatchRun.Proofs.Store.Contexts
import BatchRun.Proofs.Store.StepLog

/-! # What first saves make go

The first step that is saved for an execution, and every first write of a context, makes room among
the records of its instance. It keeps those of its own execution and no others: whether an execution
was created earlier or later does not matter. So a late first save of an earlier execution removes
what a later one has left, and it does so whenever there is any of that.
-/

namespace BatchRun

/-- The instance and the execution that a record belongs to. -/
structure Lineage where
  jobInstanceId : JobInstanceId
  jobExecutionId : JobExecutionId

namespace Lineage

/-- A record of the second lineage was left by a later execution of the same instance. -/
def IsLater (saved known : Lineage) : Prop :=
  known.jobInstanceId = saved.jobInstanceId ∧
    saved.jobExecutionId.value < known.jobExecutionId.value

private theorem IsLater.ne {saved known : Lineage} (later : saved.IsLater known) :
    known.jobExecutionId ≠ saved.jobExecutionId := by
  intro same
  have below := later.2
  rw [same] at below
  exact UInt64.lt_irrefl _ below

end Lineage

section

variable {κ ρ : Type} {lineage : ρ → Lineage} {key : κ} {saved : ρ} {before after : κ → Option ρ}

/-- What a first save does to the records that can be looked up. -/
structure Evicts (lineage : ρ → Lineage) (key : κ) (saved : ρ) (before after : κ → Option ρ) :
    Prop where
  /-- The new record can be looked up. -/
  placed : after key = some saved
  /-- Of the others, exactly those of other executions of the instance are gone. -/
  others : ∀ other ≠ key, ∀ known, after other = some known ↔ before other = some known ∧
    ((lineage known).jobInstanceId = (lineage saved).jobInstanceId →
      (lineage known).jobExecutionId = (lineage saved).jobExecutionId)
  /-- The records of later executions are all kept exactly if there are none. -/
  later : (∀ other ≠ key, ∀ known, before other = some known →
      (lineage saved).IsLater (lineage known) → after other = some known) ↔
    ∀ other ≠ key, ∀ known, before other = some known → ¬ (lineage saved).IsLater (lineage known)

private theorem Evicts.of_others (placed : after key = some saved)
    (others : ∀ other ≠ key, ∀ known, after other = some known ↔ before other = some known ∧
      ((lineage known).jobInstanceId = (lineage saved).jobInstanceId →
        (lineage known).jobExecutionId = (lineage saved).jobExecutionId)) :
    Evicts lineage key saved before after := by
  refine ⟨placed, others, fun kept other apart known found later => ?_,
    fun none other apart known found later => absurd later (none other apart known found)⟩
  have stayed := ((others other apart known).1 (kept other apart known found later)).2
  exact later.ne (stayed later.1)

end

/-! ## Contexts -/

namespace ContextStore

/-- The lineage of a stored context. -/
def lineageOf (stored : StoredContext) : Lineage := ⟨stored.jobInstanceId, stored.jobExecutionId⟩

private theorem evicts_file {κ : Type} [Ord κ] [Std.TransOrd κ] [Std.LawfulEqOrd κ] [DecidableEq κ]
    (contexts : SortedMap κ StoredContext) (id : κ) (written : StoredContext) :
    Evicts lineageOf id written contexts.get? (file contexts id written).get? := by
  refine .of_others (get?_file.2 (.inl ⟨rfl, rfl⟩)) fun other apart known => ?_
  rw [get?_file]
  simp [apart, lineageOf]

private theorem saveJob_of_numbered (store : ContextStore) {execution : JobExecution}
    {id : JobExecutionId} (numbered : execution.id = some id) :
    store.saveJob execution = .ok { store with
      jobs := file store.jobs id ⟨execution.jobInstance.id, id, execution.context⟩ } := by
  unfold saveJob ofExecution
  simp only [numbered]
  rfl

end ContextStore

/-! ## Steps -/

namespace StepStore

/-- The lineage of a step. -/
def lineageOf (step : StepExecution) : Lineage := ⟨step.jobInstanceId, step.jobExecutionId⟩

/-- The stored step with these numbers. -/
def lookup (store : StepStore) (key : JobExecutionId × StepExecutionId) : Option StepExecution :=
  store.get? key.1 key.2

variable {executions : Set JobExecution} {store : StepStore} {numbers : List StepExecutionId}
  {count : Nat} {given known : StepExecution} {execution : JobExecutionId} {id : StepExecutionId}

/-- The number that a save assigns next has not been used. -/
theorem Grouped.lookup_next (grouped : Grouped executions numbers count store)
    (few : count + 1 < 2 ^ 64) : store.lookup (execution, ⟨store.lastId + 1⟩) = none := by
  have room : store.lastId.toNat + 1 < 2 ^ 64 := by
    have := grouped.counted
    omega
  refine Option.eq_none_iff_forall_ne_some.2 fun step found => ?_
  exact RecordId.ne_next (grouped.reached _ (grouped.given found)) room rfl

/-- A step stays in its group if it is of the execution that a step is saved for, or of another
instance. -/
theorem Grouped.get?_retained_iff (grouped : Grouped executions numbers count store)
    (identified : Identified executions) (own : given.StartedIn executions) :
    (∃ group, (store.retained given).get? execution = some group ∧ group.get? id = some known) ↔
      store.get? execution id = some known ∧
        (known.jobInstanceId = given.jobInstanceId → execution = given.jobExecutionId) := by
  constructor
  · rintro ⟨group, stayed, inside⟩
    exact ⟨get?_eq_some_iff.2 ⟨group, (get?_retained.1 stayed).1, inside⟩,
      grouped.eq_of_retained identified own stayed inside⟩
  · rintro ⟨found, spared⟩
    obtain ⟨group, here, inside⟩ := get?_eq_some_iff.1 found
    refine ⟨group, ?_, inside⟩
    cases present : store.groups.get? given.jobExecutionId with
    | some ownGroup => rwa [retained_of_present present]
    | none =>
      refine (grouped.retained_of_absent identified present).2 ⟨here, fun step member same => ?_⟩
      obtain ⟨belongs, alike⟩ := grouped.exists_instance identified here
      have member' := SortedMap.mem_values.2 ⟨id, inside⟩
      rw [spared ((alike known member').trans ((alike step member).symm.trans same)),
        present] at here
      contradiction

private theorem Grouped.evicts (grouped : Grouped executions numbers count store)
    (identified : Identified executions) (own : given.StartedIn executions) :
    Evicts lineageOf (given.jobExecutionId, ⟨store.lastId + 1⟩) (store.savedAs given) store.lookup
      (store.afterSave given).lookup := by
  have lookups (execution : JobExecutionId) (id : StepExecutionId) :
      (store.afterSave given).get? execution id =
        if execution = given.jobExecutionId ∧ id = ⟨store.lastId + 1⟩
        then some (store.savedAs given)
        else get? ⟨store.retained given, store.lastId + 1⟩ execution id := get?_withStep
  refine .of_others ((lookups ..).trans (if_pos ⟨rfl, rfl⟩)) ?_
  rintro ⟨execution, id⟩ apart known
  have other : ¬ (execution = given.jobExecutionId ∧ id = ⟨store.lastId + 1⟩) := by
    rintro ⟨rfl, rfl⟩
    exact apart rfl
  change (store.afterSave given).get? execution id = some known ↔
    store.get? execution id = some known ∧
      (known.jobInstanceId = given.jobInstanceId → known.jobExecutionId = given.jobExecutionId)
  rw [lookups, if_neg other, get?_eq_some_iff, grouped.get?_retained_iff identified own]
  refine and_congr_right fun found => ?_
  rw [(grouped.placed found).1]

/-- What first saves for some executions do to a store of steps and a store of contexts. -/
structure FirstSaves (executions : Set JobExecution) (store : StepStore)
    (contexts : ContextStore) : Prop where
  /-- A new step is saved under a number that has not been used. -/
  step : ∀ given : StepExecution, given.id = none → given.StartedIn executions →
    ∃ key saved after, store.save given = .ok (saved, after) ∧ store.lookup key = none ∧
      lineageOf saved = lineageOf given ∧
      Evicts lineageOf key saved store.lookup after.lookup
  /-- A step is saved only once. -/
  saved : ∀ (given : StepExecution) id, given.id = some id →
    store.save given = .error (.alreadySaved .stepExecution id.value)
  /-- A context of a step is filed under its number. -/
  stepContext : ∀ (given : StepExecution) id, given.id = some id →
    ∃ after, contexts.saveStep given = .ok after ∧ after.jobs = contexts.jobs ∧
      Evicts ContextStore.lineageOf id (ContextStore.contextOf given) contexts.steps.get?
        after.steps.get?
  /-- A context of an execution is filed under its number. -/
  jobContext : ∀ (given : JobExecution) id, given.id = some id →
    ∃ after, contexts.saveJob given = .ok after ∧ after.steps = contexts.steps ∧
      Evicts ContextStore.lineageOf id ⟨given.jobInstance.id, id, given.context⟩
        contexts.jobs.get? after.jobs.get?

/-- Whatever has been saved and written before, a first save for an execution spares the records of
this execution and of other instances, and makes those of all other executions of its instance go:
of steps, of contexts of steps and of contexts of executions. So records of later executions are
lost whenever there are any. -/
theorem first_saves_keep_own_execution_only (executions : Set JobExecution)
    (identified : Identified executions) (operations : List Operation)
    (started : ∀ operation ∈ operations, operation.given.StartedIn executions)
    (few : operations.length + 1 < 2 ^ 64) (contexts : ContextStore) :
    FirstSaves executions (serving.afterAll .empty operations) contexts := by
  have grouped := grouped_afterAll identified started (by omega)
  constructor
  case step =>
    intro given new own
    exact ⟨_, _, _, save_of_new new, grouped.lookup_next few, rfl, grouped.evicts identified own⟩
  case saved =>
    intro given id numbered
    unfold save
    simp only [numbered]
  case stepContext =>
    intro given id numbered
    exact ⟨_, contexts.saveStep_of_numbered numbered, rfl, ContextStore.evicts_file ..⟩
  case jobContext =>
    intro given id numbered
    exact ⟨_, contexts.saveJob_of_numbered numbered, rfl, ContextStore.evicts_file ..⟩

/-- The second execution of an instance has a step and contexts, and so has another instance. -/
def resumed : List Operation :=
  [.save (.start ⟨1, 0⟩ "load" ⟨3⟩ ⟨1⟩), .save (.start ⟨2, 0⟩ "check" ⟨2⟩ ⟨2⟩)]

def resumedContexts : ContextStore where
  jobs := (SortedMap.empty.insert ⟨3⟩ ⟨⟨1⟩, ⟨3⟩, .empty⟩).insert ⟨2⟩ ⟨⟨2⟩, ⟨2⟩, .empty⟩
  steps := (SortedMap.empty.insert ⟨1⟩ ⟨⟨1⟩, ⟨3⟩, .empty⟩).insert ⟨2⟩ ⟨⟨2⟩, ⟨2⟩, .empty⟩

/-- A step of the first execution that is saved late. -/
def belated : StepExecution := .start ⟨3, 0⟩ "load" ⟨1⟩ ⟨1⟩

/-- A step of an earlier execution is saved late, and drops those of the later one. -/
theorem first_saves_keep_own_execution_only_belated :
    Identified {execution | execution ∈ restarted} ∧
      (∀ operation ∈ resumed, operation.given.StartedIn {execution | execution ∈ restarted}) ∧
      resumed.length + 1 < 2 ^ 64 ∧
      FirstSaves {execution | execution ∈ restarted} (serving.afterAll .empty resumed)
        resumedContexts ∧
      (serving.afterAll .empty resumed).groups.keys = [⟨2⟩, ⟨3⟩] ∧
      ((serving.afterAll .empty resumed).save belated).map (·.2.groups.keys) = .ok [⟨1⟩, ⟨2⟩] ∧
      (resumedContexts.saveStep { belated with id := some ⟨3⟩ }).map (·.steps.keys) =
        .ok [⟨2⟩, ⟨3⟩] := by
  have identified : Identified {execution | execution ∈ restarted} := by
    simp [Identified, restarted, JobInstance.of, JobExecution.create]
  have started : ∀ operation ∈ resumed,
      operation.given.StartedIn {execution | execution ∈ restarted} := by
    have : Nonempty Timestamp := ⟨⟨0, 0⟩⟩
    simp [resumed, Operation.given, StepExecution.StartedIn, restarted, JobExecution.startStep,
      StepExecution.start, JobExecution.create, JobInstance.of]
  exact ⟨identified, started, by decide, first_saves_keep_own_execution_only _ identified resumed
    started (by decide) resumedContexts, by decide, by decide, by decide⟩

end StepStore

end BatchRun
