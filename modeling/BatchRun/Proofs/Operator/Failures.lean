import BatchRun.Proofs.Operator.Asking
import BatchRun.Proofs.Operator.Course
import BatchRun.Proofs.Repository.Consistency

/-! # What operators leave behind when they fail

An abandonment that fails has changed nothing. So has a stop that is refused. But a stop writes the
request before it asks the steps to end, and it can break off on the way: then the request stays
written, and so do the steps that have been asked. This happens only to an execution under which no
step has been saved. Its list is the one that it was written with, where a client can have put
copies that cannot be written.
-/

namespace BatchRun

namespace Repository

variable {repository before after : Repository} {now : Timestamp} {request : Request}
  {id : JobExecutionId} {stored : JobExecution}

/-- A request leaves every step under its own numbers. -/
theorem Change.placed {writing? : Option Writing}
    (change : Change repository now request writing? after) (placed : repository.steps.Placed) :
    after.steps.Placed := by
  cases change with
  | stepAdded new found => exact placed.afterSave
  | @stepWritten given stored id numbered found current =>
    have same : (writtenStep now given).id = some id := numbered
    exact @StepStore.Placed.withStep _ _ _ placed same
  | _ => exact placed

/-- Whatever has been requested, every step stands under its own numbers. -/
theorem Reachable.placed (reachable : repository.Reachable) : repository.steps.Placed := by
  induction reachable with
  | empty => exact fun found => nomatch found
  | answer _ now request placed => exact (change_answer _ now request).placed placed

/-- A stop has written its request to a running execution under which no step has been saved, and
has broken off on the way through the list that this was written with. -/
structure HalfStopped (id : JobExecutionId) (stored : JobExecution) (before after : Repository) :
    Prop where
  found : before.executions.get? id = some stored
  running : stored.isRunning = true
  unsaved : ∀ stepId, before.steps.get? id stepId = none
  requested : ∃ later, after.executions.get? id = some later ∧ later.status = .stopping ∧
    later.version = stored.version + 1
  brokenOff : ∃ now, BreaksOff (before.withRecord id (before.movedUp now .stopping stored))
    (stored.steps.map before.withStepContext) after

/-- What a stop comes to that breaks off. -/
theorem HalfStopped.of_breaksOff (placed : before.steps.Placed) (numbered : stored.id = some id)
    (found : before.executions.get? id = some stored) (running : stored.isRunning = true)
    (now : Timestamp)
    (broken : BreaksOff (before.withRecord id (before.movedUp now .stopping stored))
      (before.assembled stored).steps after) : HalfStopped id stored before after := by
  have shown : (before.assembled stored).steps =
      (before.listedSteps stored).map before.withStepContext := rfl
  rcases before.listedSteps_cases numbered with
    ⟨group, -, -, lookup, -, listed⟩ | ⟨unsaved, listed⟩
  · rw [shown, listed] at broken
    obtain ⟨current, apart⟩ := current_of_group placed lookup
    exact absurd broken (not_breaksOff current apart)
  · rw [shown, listed] at broken
    refine ⟨found, running, unsaved, ?_, now, broken⟩
    obtain ⟨settled, step, rest, -, asks, -⟩ := broken
    refine ⟨before.movedUp now .stopping stored, ?_, ?_, rfl⟩
    · rw [asks.frame.2.1, get?_withRecord, if_pos rfl]
    · rw [status_movedUp]
      exact BatchStatus.upgradeTo_stopping running

end Repository

namespace Operator

open Repository (Asks BreaksOff HalfStopped)

variable {behaviour : Behaviour} {world : World} {id : JobExecutionId}

private theorem run_stop_of_written {written : JobExecution} {between : World}
    (wrote : (writeStatus id .stopping (checkRunning id) moreStatusWrites : Program _).run
      behaviour world = (.ok written, between)) :
    (stop id : Program _).run behaviour world =
      (((askStepsToEnd written.steps : Program _).run behaviour between).1.map fun _ => written,
        ((askStepsToEnd written.steps : Program _).run behaviour between).2) := by
  unfold stop
  rw [Program.run_bind, wrote]
  simp only [Program.run_bind]
  cases ((askStepsToEnd written.steps : Program _).run behaviour between).1 <;> rfl

/-- A stop is refused and changes nothing, or it writes its request and goes through the steps that
it has read. -/
theorem run_stop_cases (wellNumbered : world.repository.executions.Numbered) :
    ((∀ stored, world.repository.executions.get? id = some stored → stored.isRunning = false) ∧
      ∃ error after, (stop id : Program _).run behaviour world = (.error error, after) ∧
        after.repository = world.repository) ∨
    ∃ stored now, world.repository.executions.get? id = some stored ∧ stored.isRunning = true ∧
      ((∃ after, (stop id : Program _).run behaviour world =
          (.ok (world.repository.movedUp now .stopping stored), after) ∧
        Asks (world.repository.withRecord id (world.repository.movedUp now .stopping stored))
          (world.repository.assembled stored).steps after.repository) ∨
      ∃ error after, (stop id : Program _).run behaviour world = (.error error, after) ∧
        BreaksOff (world.repository.withRecord id (world.repository.movedUp now .stopping stored))
          (world.repository.assembled stored).steps after.repository) := by
  rcases @run_writeStatus_cases id .stopping behaviour world (checkRunning id) wellNumbered
    moreStatusWrites with ⟨refused, error, wrote⟩ | ⟨stored, found, passes, wrote⟩
  · refine .inl ⟨fun stored found => ?_, error, world.tick world.repository, ?_, rfl⟩
    · have idle := refused stored found
      unfold checkRunning at idle
      split at idle
      · exact absurd rfl idle
      · rename_i notRunning
        exact Bool.eq_false_of_not_eq_true notRunning
    · unfold stop
      rw [Program.run_bind, wrote]
      rfl
  · obtain ⟨now, between, written, wrote⟩ : ∃ now between,
        between.repository = world.repository.withRecord id
          (world.repository.movedUp now .stopping stored) ∧
        (writeStatus id .stopping (checkRunning id) moreStatusWrites : Program _).run behaviour
          world = (.ok (world.repository.movedUp now .stopping stored), between) :=
      ⟨_, _, rfl, wrote⟩
    refine .inr ⟨stored, now, found, isRunning_of_check passes, ?_⟩
    rw [run_stop_of_written wrote, ← written]
    rcases @run_askStepsToEnd_cases behaviour between
        (world.repository.movedUp now .stopping stored).steps with
      ⟨after, ran, asks⟩ | ⟨error, after, ran, broken⟩
    · exact .inl ⟨after, by rw [ran]; rfl, asks⟩
    · exact .inr ⟨error, after, by rw [ran]; rfl, broken⟩

/-- An operator's call that fails changes nothing, or it is a stop that has broken off. A stop of a
running execution breaks off exactly if among the steps that are read with it there is one that is
due and that does not come in its turn: it is not stored, or its version is not that of the record
with the writes of the stop itself. -/
theorem failed_calls_change_nothing_or_break_off (reachable : world.repository.Reachable)
    (behaviour : Behaviour) (id : JobExecutionId) :
    (∀ error after, (abandon id : Program _).run behaviour world = (.error error, after) →
      after.repository = world.repository) ∧
    (∀ error after, (stop id : Program _).run behaviour world = (.error error, after) →
      after.repository = world.repository ∨
        ∃ stored, HalfStopped id stored world.repository after.repository) ∧
    ∀ stored, world.repository.executions.get? id = some stored → stored.isRunning = true →
      ((∃ error after, (stop id : Program _).run behaviour world = (.error error, after) ∧
        HalfStopped id stored world.repository after.repository) ↔
      ∃ settled step rest,
        (world.repository.assembled stored).steps = settled ++ step :: rest ∧
        step.isDue = true ∧ ¬ world.repository.steps.InTurn settled step) := by
  have wellNumbered := reachable.numbered
  refine ⟨fun error after ran => ?_, fun error after ran => ?_, ?_⟩
  · rcases @run_writeStatus_cases id .abandoned behaviour world (checkEnded id) wellNumbered
      moreStatusWrites with ⟨-, cause, wrote⟩ | ⟨stored, -, -, wrote⟩
    · obtain ⟨-, rfl⟩ := Prod.mk.inj (wrote.symm.trans ran)
      rfl
    · obtain ⟨same, -⟩ := Prod.mk.inj (wrote.symm.trans ran)
      contradiction
  · rcases @run_stop_cases behaviour world id wellNumbered with
      ⟨-, cause, left, stopped, unchanged⟩ | ⟨stored, now, found, running,
        ⟨left, stopped, -⟩ | ⟨cause, left, stopped, broken⟩⟩
    · obtain ⟨-, rfl⟩ := Prod.mk.inj (stopped.symm.trans ran)
      exact .inl unchanged
    · obtain ⟨same, -⟩ := Prod.mk.inj (stopped.symm.trans ran)
      contradiction
    · obtain ⟨-, rfl⟩ := Prod.mk.inj (stopped.symm.trans ran)
      exact .inr ⟨stored, .of_breaksOff reachable.placed (wellNumbered.numbered found) found running
        now broken⟩
  · intro stored found running
    rcases @run_stop_cases behaviour world id wellNumbered with
      ⟨refused, -⟩ | ⟨record, now, there, -, ⟨left, stopped, asks⟩ | ⟨cause, left, stopped, broken⟩⟩
    · rw [refused stored found] at running
      contradiction
    · obtain rfl := Option.some.inj (found.symm.trans there)
      refine ⟨fun ⟨_, _, ran, _⟩ => ?_, fun ⟨settled, step, rest, listed, due, late⟩ => ?_⟩
      · obtain ⟨same, -⟩ := Prod.mk.inj (stopped.symm.trans ran)
        contradiction
      · rw [listed] at asks
        exact absurd (asks.inTurn due) late
    · obtain rfl := Option.some.inj (found.symm.trans there)
      refine ⟨fun _ => ?_, fun _ => ⟨cause, left, stopped, .of_breaksOff reachable.placed
        (wellNumbered.numbered found) found running now broken⟩⟩
      obtain ⟨settled, step, rest, listed, asks, due, outdated⟩ := broken
      exact ⟨settled, step, rest, listed, due, fun turn => outdated (asks.isCurrent_iff.2 turn)⟩

/-- A new execution has been written with a step in its list that has never been saved. -/
def withUnsavedStep : Repository :=
  let created := (Repository.empty.answer ⟨0, 0⟩ (.createExecution "import" .empty)).2
  let listing := { JobExecution.create ⟨0, 0⟩ (.of ⟨1⟩ "import" .empty) .empty with
    id := some ⟨1⟩, version := 1, steps := [.start ⟨0, 0⟩ "load" ⟨1⟩ ⟨1⟩] }
  (created.answer ⟨1, 0⟩ (.update listing)).2

/-- A stop breaks off at a step that has never been saved, and leaves its request behind. -/
theorem failed_calls_change_nothing_or_break_off_unsavedStep :
    withUnsavedStep.Reachable ∧ ∃ stored error after,
      withUnsavedStep.executions.get? ⟨1⟩ = some stored ∧ stored.status = .starting ∧
      (stop ⟨1⟩ : Program _).run .idle ⟨withUnsavedStep, fun _ => ⟨2, 0⟩, 0, []⟩ =
        (.error error, after) ∧
      HalfStopped ⟨1⟩ stored withUnsavedStep after.repository ∧
      ∃ later, after.repository.executions.get? ⟨1⟩ = some later ∧ later.status = .stopping := by
  have reachable : withUnsavedStep.Reachable := .answer (.answer .empty _ _) _ _
  let world : World := ⟨withUnsavedStep, fun _ => ⟨2, 0⟩, 0, []⟩
  have breaksOff := (@failed_calls_change_nothing_or_break_off world reachable .idle ⟨1⟩).2.2
  obtain ⟨error, after, ran, stopped⟩ := (breaksOff _ rfl rfl).2
    ⟨[], .start ⟨0, 0⟩ "load" ⟨1⟩ ⟨1⟩, [], rfl, rfl, fun ⟨_, _, numbered, _⟩ => nomatch numbered⟩
  obtain ⟨later, there, stopping, -⟩ := stopped.requested
  exact ⟨reachable, _, error, after, rfl, rfl, ran, stopped, later, there, stopping⟩

end Operator

end BatchRun
