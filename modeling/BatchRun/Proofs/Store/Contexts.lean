import BatchRun.Proofs.SortedMap
import BatchRun.Store.Contexts

/-! # The store of contexts by its lookups

The first write of a context makes the contexts of the same kind go that other executions of the
instance have left. This is the same for jobs and for steps.
-/

namespace BatchRun.ContextStore

variable {κ : Type} [Ord κ] [Std.TransOrd κ] [Std.LawfulEqOrd κ] [DecidableEq κ]

/-- The contexts of one kind after the first write of one of them. -/
def file (contexts : SortedMap κ StoredContext) (id : κ) (written : StoredContext) :
    SortedMap κ StoredContext :=
  (contexts.filter fun _ known => !isSuperseded written known).insert id written

/-- A context is filed for one execution, and those of earlier ones of its instance go. -/
theorem get?_file {contexts : SortedMap κ StoredContext} {id other : κ}
    {written filed : StoredContext} :
    (file contexts id written).get? other = some filed ↔
      (other = id ∧ filed = written) ∨
      (other ≠ id ∧ contexts.get? other = some filed ∧
        (filed.jobInstanceId = written.jobInstanceId →
          filed.jobExecutionId = written.jobExecutionId)) := by
  unfold file
  rw [SortedMap.get?_insert]
  by_cases same : other = id
  · simp [same, eq_comm]
  · simp [same, SortedMap.get?_filter_eq_some_iff, isSuperseded, Decidable.imp_iff_not_or]

/-- The context of a step as it is filed. -/
def contextOf (step : StepExecution) : StoredContext :=
  ⟨step.jobInstanceId, step.jobExecutionId, step.context⟩

theorem saveStep_of_numbered (store : ContextStore) {step : StepExecution} {id : StepExecutionId}
    (numbered : step.id = some id) :
    store.saveStep step = .ok { store with steps := file store.steps id (contextOf step) } := by
  unfold saveStep ofStep
  simp only [numbered]
  rfl

theorem updateStep_of_numbered (store : ContextStore) {step : StepExecution} {id : StepExecutionId}
    (numbered : step.id = some id) :
    store.updateStep step = .ok { store with steps := store.steps.insert id (contextOf step) } := by
  unfold updateStep ofStep
  simp only [numbered]
  rfl

end BatchRun.ContextStore
