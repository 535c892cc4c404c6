import BatchRun.Proofs.Store.Mapped

/-! # Records without notes

Parameters that do not identify an instance are notes. A record is bare if it is without notes and,
instead of a moment, has what is seen of it: all of it, nothing, or anything between. The stores of
executions and steps do the same to bare records as to the records themselves. Only which step of a
name was started last is told by the moments: this is the same for any two stores that are the same
when bare, if their steps were started in the same order.
-/

namespace BatchRun

/-- What is seen of the moments in a record. -/
class View where
  see : Timestamp → Timestamp

open View (see)

variable [View]

/-- A step with what is seen of its moments. -/
def StepExecution.bare (step : StepExecution) : StepExecution :=
  { step with
    startTime := see step.startTime
    endTime := step.endTime.map see
    lastUpdated := step.lastUpdated.map see }

/-- An execution with the identifying parameters only, and with what is seen of its moments. -/
def JobExecution.bare (execution : JobExecution) : JobExecution :=
  { execution with
    parameters := execution.parameters.identifying
    createTime := see execution.createTime
    startTime := execution.startTime.map see
    endTime := execution.endTime.map see
    lastUpdated := execution.lastUpdated.map see
    steps := execution.steps.map StepExecution.bare }

/-! ## The store of executions -/

namespace ExecutionStore

variable {store : ExecutionStore} {id : JobExecutionId} {known : JobInstanceId}
  {execution : JobExecution}

/-- The store of the bare executions. -/
def bare (store : ExecutionStore) : ExecutionStore :=
  { store with executions := store.executions.mapValues JobExecution.bare }

@[simp] theorem get?_bare : store.bare.get? id = (store.get? id).map JobExecution.bare :=
  SortedMap.get?_mapValues ..

theorem ofInstance_bare :
    store.bare.ofInstance known = (store.ofInstance known).map JobExecution.bare :=
  ofInstance_mapped fun _ => rfl

theorem running_bare (jobName : String) :
    store.bare.running jobName = (store.running jobName).map JobExecution.bare :=
  running_mapped jobName (fun _ => rfl) fun _ => rfl

/-- An instance has at most one record, so its last record does not depend on moments. -/
theorem WellFormed.last?_bare (wellFormed : store.WellFormed) :
    store.bare.last? known = (store.last? known).map JobExecution.bare := by
  unfold last?
  rw [ofInstance_bare]
  rcases wellFormed.ofInstance_cases known with vacant | ⟨stored, single⟩
  · rw [vacant]
    rfl
  · rw [single]
    rfl

/-- A save does the same to bare records. -/
theorem bare_afterSave :
    (store.afterSave execution).bare = store.bare.afterSave execution.bare :=
  mapped_afterSave (fun _ => rfl) rfl

private theorem stored_bare : store.bare.stored execution.bare =
    (store.stored execution).map (Prod.map (fun id => id) JobExecution.bare) := by
  unfold stored
  rw [show execution.bare.id = execution.id from rfl]
  cases execution.id with
  | none => rfl
  | some id =>
    simp only [get?_bare]
    cases store.get? id <;> rfl

/-- A write does the same to bare records. -/
theorem update_bare : store.bare.update execution.bare =
    (store.update execution).map (Prod.map JobExecution.bare bare) := by
  unfold update
  rw [stored_bare]
  rcases store.stored execution with error | ⟨id, stored⟩
  · rfl
  · change (if stored.version = execution.version then _ else _) = Except.map _
      (if stored.version = execution.version then _ else _)
    split
    · simp only [bare, Prod.map, SortedMap.mapValues_insert, pure, Except.pure, Except.map]
      rfl
    · rfl

theorem synchronize_bare : store.bare.synchronize execution.bare =
    (store.synchronize execution).map JobExecution.bare := by
  unfold synchronize
  rw [stored_bare]
  rcases store.stored execution with error | ⟨id, stored⟩
  · rfl
  · change (if stored.version = execution.version then _ else _) = Except.map _
      (if stored.version = execution.version then _ else _)
    split <;> rfl

end ExecutionStore

/-! ## The store of steps -/

namespace StepStore

open StepExecution (startOrder)

variable {store : StepStore} {execution : JobExecutionId} {id : StepExecutionId}
  {step : StepExecution} {known : JobInstanceId} {stepName : String}

/-- The group of the bare steps. -/
def bareGroup (group : StepGroup) : StepGroup := group.mapValues StepExecution.bare

/-- The store of the bare steps. -/
def bare (store : StepStore) : StepStore :=
  { store with groups := store.groups.mapValues bareGroup }

@[simp] theorem get?_bare : store.bare.get? execution id =
    (store.get? execution id).map StepExecution.bare := by
  unfold get? bare
  rw [SortedMap.get?_mapValues]
  cases store.groups.get? execution with
  | none => rfl
  | some group => exact SortedMap.get?_mapValues ..

private theorem bare_withStep : (store.withStep id step).bare = store.bare.withStep id step.bare :=
  mapped_withStep rfl

/-- A new step is saved the same when it is bare. -/
theorem save_bare (store : StepStore) (step : StepExecution) : store.bare.save step.bare =
    (store.save step).map (Prod.map StepExecution.bare bare) := by
  cases numbered : step.id with
  | some id =>
    have same : step.bare.id = some id := numbered
    simp only [save, numbered, same]
    rfl
  | none =>
    have after : (store.afterSave step).mapped StepExecution.bare = _ :=
      mapped_afterSave (fun _ => rfl) (fun _ => rfl) rfl
    rw [save_of_new numbered, save_of_new (show step.bare.id = none from numbered)]
    exact congrArg Except.ok (Prod.ext rfl after.symm)

theorem update_bare (store : StepStore) (step : StepExecution) : store.bare.update step.bare =
    (store.update step).map (Prod.map StepExecution.bare bare) := by
  have numbered : step.bare.id = step.id := rfl
  have parent : step.bare.jobExecutionId = step.jobExecutionId := rfl
  rw [update_eq, update_eq, numbered, parent]
  cases step.id with
  | none => rfl
  | some id =>
    simp only [get?_bare]
    cases store.get? step.jobExecutionId id with
    | none => rfl
    | some stored =>
      change (if stored.version = step.version then _ else _) = Except.map _
        (if stored.version = step.version then _ else _)
      split
      · simp only [Except.map, Prod.map, bare_withStep]
        rfl
      · rfl

/-- An execution gets the bare steps of its group. -/
theorem attach_bare (execution : JobExecution) : store.bare.attach execution.bare =
    (store.attach execution).map JobExecution.bare := by
  have numbered : execution.bare.id = execution.id := rfl
  unfold attach
  rw [numbered]
  cases execution.id with
  | none => rfl
  | some id =>
    have group : store.bare.groups.get? id = (store.groups.get? id).map bareGroup :=
      SortedMap.get?_mapValues ..
    simp only [group]
    cases store.groups.get? id with
    | none => rfl
    | some group =>
      have vacant : (bareGroup group).isEmpty = group.isEmpty := SortedMap.isEmpty_mapValues ..
      simp only [Option.map_some, vacant]
      split
      · rfl
      · simp only [Except.map, bareGroup, SortedMap.values_mapValues, JobExecution.bare,
          List.map_reverse]

/-- The steps of a name are the same when they are bare. -/
theorem ofName_bare (stepName : String) : store.bare.ofName known stepName =
    (store.ofName known stepName).map StepExecution.bare := by
  have steps : store.bare.groups.values.flatMap SortedMap.values =
      (store.groups.values.flatMap SortedMap.values).map StepExecution.bare := by
    simp only [bare, SortedMap.values_mapValues, List.flatMap_map, List.map_flatMap, bareGroup]
  unfold ofName
  rw [steps, List.filter_map]
  rfl

/-- Two steps under the same numbers, one among the steps of an instance and a name in each
store. -/
structure Counterparts (first second : StepStore) (known : JobInstanceId) (stepName : String)
    (one other : StepExecution) : Prop where
  listed : one ∈ first.ofName known stepName
  otherListed : other ∈ second.ofName known stepName
  execution : one.jobExecutionId = other.jobExecutionId
  id : one.id = other.id

/-- The steps of an instance and a name come in the same order by start in both stores. -/
def SameOrder (first second : StepStore) (known : JobInstanceId) (stepName : String) : Prop :=
  ∀ one other next another, Counterparts first second known stepName one other →
    Counterparts first second known stepName next another →
    startOrder one next = startOrder other another

/-- Steps that are the same when they are bare are listed at the same places. -/
theorem forall₂_ofName {first second : StepStore} (same : first.bare = second.bare)
    (known : JobInstanceId) (stepName : String) :
    List.Forall₂ (fun one other => one.bare = other.bare ∧
      Counterparts first second known stepName one other)
      (first.ofName known stepName) (second.ofName known stepName) := by
  have listed : (first.ofName known stepName).map StepExecution.bare =
      (second.ofName known stepName).map StepExecution.bare := by
    rw [← ofName_bare, same, ofName_bare]
  have alike : List.Forall₂ (fun one other => one.bare = other.bare)
      (first.ofName known stepName) (second.ofName known stepName) := by
    rw [← List.forall₂_map_right_iff, ← List.forall₂_map_left_iff, List.forall₂_eq_eq_eq]
    exact listed
  obtain ⟨lengths, pairs⟩ := List.forall₂_iff_zip.1 alike
  refine List.forall₂_iff_zip.2 ⟨lengths, fun {one other} pair => ⟨pairs pair, ?_⟩⟩
  obtain ⟨member, otherMember⟩ := List.of_mem_zip pair
  exact ⟨member, otherMember, congrArg (·.jobExecutionId) (pairs pair),
    congrArg (·.id) (pairs pair)⟩

/-- If the steps of a name come in the same order by start, the last one of them is the same in both
stores when it is bare. -/
theorem last?_of_sameOrder {first second : StepStore} (same : first.bare = second.bare)
    (order : SameOrder first second known stepName) :
    (first.last? known stepName).map StepExecution.bare =
      (second.last? known stepName).map StepExecution.bare := by
  have paired := forall₂_ofName same known stepName
  rcases first.last?_cases known stepName with ⟨vacant, last⟩ | ⟨one, rest, listed, last⟩ <;>
    rcases second.last?_cases known stepName with ⟨vacant', last'⟩ | ⟨other, others, listed', last'⟩
  · rw [last, last']
  · rw [vacant, listed'] at paired
    contradiction
  · rw [listed, vacant'] at paired
    contradiction
  · rw [listed, listed'] at paired
    obtain ⟨heads, tails⟩ := List.forall₂_cons.1 paired
    have greatest := related_foldl_later
      (fun here there => order _ _ _ _ here.2 there.2) heads tails
    rw [last, last']
    exact congrArg some greatest.1

/-- If all of the moments is seen, steps that are the same when bare come in the same order by
start. -/
theorem sameOrder_of_injective {first second : StepStore} (sharp : Function.Injective see)
    (same : first.bare = second.bare) (placed : first.Placed) (otherPlaced : second.Placed) :
    SameOrder first second known stepName := by
  have alike {one other} (pair : Counterparts first second known stepName one other) :
      one.startTime = other.startTime := by
    obtain ⟨⟨execution, id, here⟩, -⟩ := mem_ofName.1 pair.listed
    obtain ⟨⟨execution', id', there⟩, -⟩ := mem_ofName.1 pair.otherListed
    have sameId := pair.id
    have sameExecution := pair.execution
    rw [(placed here).1, (otherPlaced there).1] at sameId
    rw [(placed here).2, (otherPlaced there).2] at sameExecution
    obtain rfl := Option.some.inj sameId
    obtain rfl := sameExecution
    have found : first.bare.get? execution id = some one.bare := by rw [get?_bare, here]; rfl
    rw [same, get?_bare, there] at found
    exact sharp (congrArg (·.startTime) (Option.some.inj found)).symm
  intro one other next another here there
  rw [startOrder_eq, startOrder_eq, alike here, here.id, alike there, there.id]

end StepStore

end BatchRun
