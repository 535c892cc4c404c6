import BatchRun.Proofs.Operator.Failures
import BatchRun.Proofs.Repository.Mapped

/-! # The full effect of a stop

What is read after a stop is what was read before, except that the execution is asked to stop and
those of its steps are asked to end that were due. This needs that the execution is shown with
nothing but steps that are saved under it: their copies come with current versions, so every write
of the stop succeeds. A second stop finds no step that is due.
-/

namespace BatchRun

/-- A step of the execution as it is shown after it has been asked to end, if it was due. -/
def StepExecution.asked (id : JobExecutionId) (stamp : Option StepExecutionId → Timestamp)
    (step : StepExecution) : StepExecution :=
  if step.jobExecutionId = id ∧ step.isDue = true then
    { step.askToEnd with version := step.version + 1, lastUpdated := some (stamp step.id) }
  else step

/-- A step that has been asked to end is not due any more. -/
theorem StepExecution.isDue_asked {id : JobExecutionId}
    {stamp : Option StepExecutionId → Timestamp} {step : StepExecution}
    (own : step.jobExecutionId = id) : (step.asked id stamp).isDue = false := by
  unfold asked
  split
  · simp [isDue, askToEnd]
  · rename_i settled
    exact Bool.eq_false_of_not_eq_true fun due => settled ⟨own, due⟩

/-- The execution as it is shown after it has been asked to stop, and any other one as it was. -/
def JobExecution.asked (id : JobExecutionId) (now : Timestamp)
    (stamp : Option StepExecutionId → Timestamp) (execution : JobExecution) : JobExecution :=
  if execution.id = some id then
    { execution with
      status := .stopping
      version := execution.version + 1
      lastUpdated := some now
      steps := execution.steps.map (StepExecution.asked id stamp) }
  else execution

namespace Repository

variable {before after : Repository} {id : JobExecutionId} {stored record : JobExecution}

/-! ## The steps of a stopped execution -/

/-- If no step is saved under the execution, its own list is empty. -/
def Unlisted (repository : Repository) (id : JobExecutionId) (stored : JobExecution) : Prop :=
  (∀ stepId, repository.steps.get? id stepId = none) → stored.steps = []

/-- The record of a step after it has been asked to end, if it is of the execution and was due. It
is written from the copy that has been read. -/
def askedRecord (repository : Repository) (id : JobExecutionId)
    (stamp : Option StepExecutionId → Timestamp) (step : StepExecution) : StepExecution :=
  if step.jobExecutionId = id ∧ step.isDue = true then
    writtenStep (stamp step.id) (repository.withStepContext step).askToEnd
  else step

variable {step : StepExecution} {stepId : StepExecutionId} {now : Timestamp}
  {stamp : Option StepExecutionId → Timestamp}

/-- The execution is shown with the steps that are saved under it, and with nothing else. -/
theorem Unlisted.mem_steps (unlisted : before.Unlisted id stored) (numbered : stored.id = some id) :
    step ∈ (before.assembled stored).steps ↔
      ∃ stepId record, before.steps.get? id stepId = some record ∧
        step = before.withStepContext record := by
  change step ∈ (before.listedSteps stored).map before.withStepContext ↔ _
  rw [List.mem_map]
  constructor
  · rintro ⟨record, listed, rfl⟩
    rcases (mem_listedSteps numbered).1 listed with ⟨stepId, saved⟩ | ⟨unsaved, own⟩
    · exact ⟨stepId, record, saved, rfl⟩
    · rw [unlisted unsaved] at own
      exact absurd own List.not_mem_nil
  · rintro ⟨stepId, record, saved, rfl⟩
    exact ⟨record, (mem_listedSteps numbered).2 (.inl ⟨stepId, saved⟩), rfl⟩

/-- The copies of the steps are current, and no two are of the same step. -/
theorem Unlisted.current (unlisted : before.Unlisted id stored) (numbered : stored.id = some id)
    (placed : before.steps.Placed) :
    (∀ step ∈ (before.assembled stored).steps, before.steps.IsCurrent step) ∧
      (before.assembled stored).steps.Pairwise fun one other => ¬ one.SameStep other := by
  change (∀ step ∈ (before.listedSteps stored).map before.withStepContext, _) ∧
    ((before.listedSteps stored).map before.withStepContext).Pairwise _
  rcases before.listedSteps_cases numbered with
    ⟨group, -, -, found, -, listed⟩ | ⟨unsaved, listed⟩
  · rw [listed]
    exact current_of_group placed found
  · rw [listed, unlisted unsaved]
    exact ⟨fun _ member => absurd member List.not_mem_nil, .nil⟩

/-- Of the steps that are stored, those of the execution are asked to end that were due. -/
theorem Asks.steps_eq (unlisted : before.Unlisted id stored) (numbered : stored.id = some id)
    (placed : before.steps.Placed)
    (asks : Asks (before.withRecord id record) (before.assembled stored).steps after) :
    ∃ stamp, after.steps = before.steps.mapped (before.askedRecord id stamp) := by
  obtain ⟨-, apart⟩ := unlisted.current numbered placed
  -- the moment at which a step has been written stands in its record
  let stamp (stepId? : Option StepExecutionId) : Timestamp :=
    ((stepId?.bind (after.steps.get? id)).bind (·.lastUpdated)).getD ⟨0, 0⟩
  refine ⟨stamp, StepStore.eq_mapped asks.frame.2.2.2 (fun _ => asks.isSome_group) ?_⟩
  intro execution stepId
  have untouched (others : ∀ step ∈ (before.assembled stored).steps,
      step.jobExecutionId = execution → step.id ≠ some stepId) :
      after.steps.get? execution stepId = before.steps.get? execution stepId :=
    asks.get?_of_other others
  cases found : before.steps.get? execution stepId with
  | none =>
    refine (untouched fun step member same numberedStep => ?_).trans found
    obtain ⟨key, shown, present, rfl⟩ := (unlisted.mem_steps numbered).1 member
    obtain ⟨numberedShown, owner⟩ := placed present
    obtain rfl := Option.some.inj (numberedShown.symm.trans numberedStep)
    obtain rfl : id = execution := owner.symm.trans same
    rw [found] at present
    contradiction
  | some step =>
    obtain ⟨numberedStep, owner⟩ := placed found
    rw [Option.map_some]
    by_cases own : execution = id
    · subst own
      have member := (unlisted.mem_steps numbered).2 ⟨stepId, step, found, rfl⟩
      have sameOwner : (before.withStepContext step).jobExecutionId = execution := owner
      unfold askedRecord
      cases due : step.isDue with
      | true =>
        obtain ⟨moment, written⟩ := asks.get?_of_due member apart numberedStep due
        rw [sameOwner] at written
        have stamped : stamp step.id = moment := by
          simp only [stamp, numberedStep, Option.bind_some, written]
          rfl
        rw [if_pos ⟨owner, rfl⟩, stamped]
        exact written
      | false =>
        have kept := asks.get?_of_settled member apart numberedStep due
        rw [sameOwner] at kept
        rw [if_neg (by simp)]
        exact kept.trans found
    · rw [askedRecord, if_neg fun asked => own (owner.symm.trans asked.1)]
      refine (untouched fun other member same _ => ?_).trans found
      obtain ⟨key, shown, present, rfl⟩ := (unlisted.mem_steps numbered).1 member
      exact own (same.symm.trans (placed present).2)

/-! ## What is read after the stop -/

/-- A record after an operator has asked it to stop, by the copy that has been read. -/
theorem movedUp_stopping (running : stored.isRunning = true) :
    before.movedUp now .stopping stored =
      { before.assembled stored with
        status := .stopping
        version := stored.version + 1
        lastUpdated := some now } := by
  have status : (before.movedUp now .stopping stored).status = .stopping :=
    status_movedUp.trans (BatchStatus.upgradeTo_stopping running)
  unfold movedUp written JobExecution.refreshedFrom at *
  dsimp only at status
  rw [status]
  rfl

private theorem withStepContext_askedRecord (contexts : after.contexts = before.contexts) :
    after.withStepContext (before.askedRecord id stamp step) =
      (before.withStepContext step).asked id stamp := by
  have own : (before.withStepContext step).jobExecutionId = step.jobExecutionId ∧
      (before.withStepContext step).isDue = step.isDue := ⟨rfl, rfl⟩
  unfold askedRecord StepExecution.asked
  rw [own.1, own.2]
  split
  · unfold withStepContext
    rw [contexts]
    simp only [writtenStep, StepStore.nextVersion, StepExecution.askToEnd]
    cases step.id.bind fun id => before.contexts.get? (.step id) <;> rfl
  · unfold withStepContext
    rw [contexts]

private theorem listedStep_askedRecord (stamp : Option StepExecutionId → Timestamp) :
    before.steps.Listed (before.askedRecord id stamp) := by
  constructor <;>
  · intros
    unfold askedRecord
    split <;> rfl

/-- The record after it has been asked to stop, in the place of the stored one. -/
def stoppedRecord (repository : Repository) (id : JobExecutionId) (now : Timestamp)
    (stored other : JobExecution) : JobExecution :=
  if other.id = some id then repository.movedUp now .stopping stored else other

/-- A stop has gone through all steps of an execution that is shown with saved steps only. -/
structure Stopped (id : JobExecutionId) (now : Timestamp) (stored : JobExecution)
    (before after : Repository) : Prop where
  wellNumbered : before.executions.Numbered
  placed : before.steps.Placed
  found : before.executions.get? id = some stored
  running : stored.isRunning = true
  unlisted : before.Unlisted id stored
  asks : Asks (before.withRecord id (before.movedUp now .stopping stored))
    (before.assembled stored).steps after

namespace Stopped

variable (stopped : Stopped id now stored before after)

include stopped

private theorem contexts_eq : after.contexts = before.contexts := stopped.asks.frame.2.2.1

private theorem executions_eq :
    after.executions = before.executions.mapped (before.stoppedRecord id now stored) :=
  stopped.asks.frame.2.1.trans
    (ExecutionStore.insert_eq_mapped stopped.wellNumbered stopped.found _)

private theorem eq_stored {key : JobExecutionId} {other : JobExecution}
    (lookup : before.executions.get? key = some other) (same : other.id = some id) :
    other = stored := by
  obtain rfl := Option.some.inj ((stopped.wellNumbered.numbered lookup).symm.trans same)
  exact Option.some.inj (lookup.symm.trans stopped.found)

private theorem listed : before.executions.Listed (before.stoppedRecord id now stored) := by
  constructor <;>
  · intro key other lookup
    unfold stoppedRecord
    split
    · rename_i same
      obtain rfl := stopped.eq_stored lookup same
      first
      | rfl
      | rw [movedUp_stopping stopped.running, stopped.running]
        rfl
    · rfl

private theorem assembled_stored (steps : after.steps = before.steps.mapped
    (before.askedRecord id stamp)) :
    after.assembled (before.movedUp now .stopping stored) =
      (before.assembled stored).asked id now stamp := by
  have numbered := stopped.wellNumbered.numbered stopped.found
  have told : after.withStepContext ∘ before.askedRecord id stamp =
      StepExecution.asked id stamp ∘ before.withStepContext :=
    funext fun step => withStepContext_askedRecord stopped.contexts_eq
  have own : (before.assembled stored).steps =
    (before.listedSteps stored).map before.withStepContext := rfl
  have shown : (after.assembled (before.movedUp now .stopping stored)).steps =
      (before.assembled stored).steps.map (StepExecution.asked id stamp) := by
    change (after.listedSteps _).map _ = _
    rw [own, List.map_map, ← told]
    rcases @listedSteps_mapped _ _ id stored (before.movedUp now .stopping stored) _ steps numbered
      numbered with ⟨-, mapped⟩ | ⟨unsaved, kept, listed⟩
    · rw [mapped, List.map_map]
    · have nothing : before.listedSteps stored = [] := kept.trans (stopped.unlisted unsaved)
      have none : (before.movedUp now .stopping stored).steps = [] :=
        own.trans (congrArg (List.map before.withStepContext) nothing)
      rw [listed, none, nothing]
      rfl
  have context : (after.assembled (before.movedUp now .stopping stored)).context =
      (before.assembled stored).context := by
    rw [movedUp_stopping stopped.running]
    simp only [assembled, withContext, stopped.contexts_eq]
    cases stored.id.bind fun id => before.contexts.get? (.job id) <;> rfl
  unfold JobExecution.asked
  rw [if_pos (show (before.assembled stored).id = some id from numbered), ← shown, ← context,
    movedUp_stopping stopped.running]
  rfl

private theorem assembled_other {key : JobExecutionId} {other : JobExecution}
    (steps : after.steps = before.steps.mapped (before.askedRecord id stamp))
    (lookup : before.executions.get? key = some other) (differs : other.id ≠ some id) :
    after.assembled other = before.assembled other := by
  have numbered := stopped.wellNumbered.numbered lookup
  have contexts : after.withStepContext = before.withStepContext := by
    funext step
    unfold withStepContext
    rw [stopped.contexts_eq]
  have listed : after.listedSteps other = before.listedSteps other := by
    rcases listedSteps_mapped steps numbered numbered with ⟨inside, mapped⟩ | ⟨-, kept, own⟩
    · rw [mapped]
      refine (List.map_congr_left fun step member => ?_).trans (List.map_id _)
      obtain ⟨stepId, present⟩ := inside step member
      refine if_neg fun asked => differs (numbered.trans ?_)
      exact congrArg some ((stopped.placed present).2.symm.trans asked.1)
    · rw [kept, own]
  unfold assembled withContext
  rw [listed, contexts, stopped.contexts_eq]

/-- Afterwards the execution is read as asked to stop, its steps that were due as asked to end, and
everything else as before. -/
theorem readsAs :
    ∃ stamp, after.steps = before.steps.mapped (before.askedRecord id stamp) ∧
      ReadsAs (JobExecution.asked id now stamp) (StepExecution.asked id stamp) before after := by
  obtain ⟨stamp, steps⟩ := stopped.asks.steps_eq stopped.unlisted
    (stopped.wellNumbered.numbered stopped.found) stopped.placed
  refine ⟨stamp, steps, readsAs_of_mapped stopped.wellNumbered stopped.asks.frame.1
    stopped.contexts_eq stopped.executions_eq steps stopped.listed (listedStep_askedRecord _) ?_
    fun _ => withStepContext_askedRecord stopped.contexts_eq⟩
  intro key other lookup
  unfold stoppedRecord
  split
  · rename_i same
    obtain rfl := stopped.eq_stored lookup same
    exact stopped.assembled_stored steps
  · rename_i differs
    rw [stopped.assembled_other steps lookup differs]
    exact (if_neg differs).symm

/-! ## The second stop -/

/-- The record is stored as it has been moved up. -/
theorem found_after :
    after.executions.get? id = some (before.movedUp now .stopping stored) := by
  rw [stopped.asks.frame.2.1, get?_withRecord, if_pos rfl]

private theorem numbered_after : after.executions.Numbered := by
  have numbered : (before.movedUp now .stopping stored).id = some id :=
    (stopped.wellNumbered.numbered stopped.found :)
  rw [stopped.asks.frame.2.1]
  exact stopped.wellNumbered.insert numbered

private theorem placed_after : after.steps.Placed := by
  obtain ⟨stamp, steps, -⟩ := stopped.readsAs
  intro execution stepId step present
  rw [steps, StepStore.get?_mapped] at present
  obtain ⟨former, found, rfl⟩ := Option.map_eq_some_iff.1 present
  obtain ⟨numbered, owner⟩ := stopped.placed found
  unfold askedRecord
  split <;> exact ⟨numbered, owner⟩

private theorem unlisted_after : after.Unlisted id (before.movedUp now .stopping stored) := by
  obtain ⟨stamp, steps, -⟩ := stopped.readsAs
  intro unsaved
  have before_unsaved (stepId : StepExecutionId) : before.steps.get? id stepId = none := by
    have nothing := unsaved stepId
    rw [steps, StepStore.get?_mapped] at nothing
    exact Option.map_eq_none_iff.1 nothing
  change (before.listedSteps stored).map _ = []
  rw [listedSteps_of_unsaved (stopped.wellNumbered.numbered stopped.found) before_unsaved,
    stopped.unlisted before_unsaved]
  rfl

/-- No step of the execution is due any more. -/
theorem settled_after :
    ∀ step ∈ (after.assembled (before.movedUp now .stopping stored)).steps,
      step.isDue = false := by
  obtain ⟨stamp, steps, -⟩ := stopped.readsAs
  have numbered := stopped.wellNumbered.numbered stopped.found
  intro step member
  rw [stopped.assembled_stored steps, JobExecution.asked,
    if_pos (show (before.assembled stored).id = some id from numbered)] at member
  obtain ⟨former, inside, rfl⟩ := List.mem_map.1 member
  obtain ⟨stepId, record, present, rfl⟩ := (stopped.unlisted.mem_steps numbered).1 inside
  exact StepExecution.isDue_asked (stopped.placed present).2

end Stopped

end Repository

namespace Operator

open Repository (Stopped)

variable {world : World} {id : JobExecutionId} {stored : JobExecution}

/-- A stop goes through all steps if the execution is shown with saved steps only. -/
theorem run_stop_of_unlisted (behaviour : Behaviour)
    (wellNumbered : world.repository.executions.Numbered) (placed : world.repository.steps.Placed)
    (found : world.repository.executions.get? id = some stored) (running : stored.isRunning = true)
    (unlisted : world.repository.Unlisted id stored) :
    ∃ now after, (stop id : Program _).run behaviour world =
        (.ok (world.repository.movedUp now .stopping stored), after) ∧
      Stopped id now stored world.repository after.repository := by
  rcases @run_stop_cases behaviour world id wellNumbered with
    ⟨refused, -⟩ | ⟨record, now, there, -, stops⟩
  · rw [refused stored found] at running
    contradiction
  · obtain rfl := Option.some.inj (found.symm.trans there)
    rcases stops with ⟨after, ran, asks⟩ | ⟨error, after, -, broken⟩
    · exact ⟨now, after, ran, wellNumbered, placed, found, running, unlisted, asks⟩
    · obtain ⟨current, apart⟩ := unlisted.current (wellNumbered.numbered found) placed
      exact absurd broken (Repository.not_breaksOff current apart)

/-- A second stop succeeds and finds no step to be asked. -/
theorem run_stop_of_stopped (behaviour : Behaviour) {before : Repository} {now : Timestamp}
    (stopped : Stopped id now stored before world.repository) :
    ∃ written after, (stop id : Program _).run behaviour world = (.ok written, after) ∧
      after.repository.steps = world.repository.steps := by
  have running : (before.movedUp now .stopping stored).isRunning = true := by
    rw [Repository.movedUp_stopping stopped.running]
    rfl
  obtain ⟨later, after, ran, again⟩ := run_stop_of_unlisted behaviour stopped.numbered_after
    stopped.placed_after stopped.found_after running stopped.unlisted_after
  refine ⟨_, after, ran, ?_⟩
  rw [again.asks.eq_of_settled stopped.settled_after]
  rfl

end Operator

end BatchRun
