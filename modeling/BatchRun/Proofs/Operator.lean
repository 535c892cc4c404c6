import BatchRun.Proofs.Repository.Reading
import BatchRun.Proofs.Sequential

/-! # Operators on their own

An operator that nobody interferes with reads the stored record, and if the copy passes the check,
the first write succeeds; otherwise nothing is written. For an abandonment every record passes that
is not running any more, a completed one as well.
-/

namespace BatchRun

/-- A record after an operator has moved its status up: it is written from the copy that has been
read. -/
def Repository.movedUp (repository : Repository) (now : Timestamp) (status : BatchStatus)
    (stored : JobExecution) : JobExecution :=
  written now ((repository.assembled stored).upgradeStatus status) stored

/-- The record that is written has the higher status. -/
theorem Repository.status_movedUp {repository : Repository} {now : Timestamp}
    {status : BatchStatus} {stored : JobExecution} :
    (repository.movedUp now status stored).status = stored.status.upgradeTo status := by
  simp [movedUp, written, JobExecution.refreshedFrom, JobExecution.upgradeStatus, assembled,
    withContext]

theorem BatchStatus.upgradeTo_stopping {status : BatchStatus} (running : status.isRunning = true) :
    status.upgradeTo .stopping = .stopping := by
  revert running
  cases status <;> decide

namespace Operator

variable {id : JobExecutionId} {status : BatchStatus} {behaviour : Behaviour} {world : World}
  {check : JobExecution → Except OperatorError Unit} {stored : JobExecution}

private theorem run_tryStatus (numbered : stored.id = some id)
    (found : world.repository.executions.get? id = some stored)
    (passes : check (world.repository.assembled stored) = .ok ()) :
    (tryStatus id status check : Program _).run behaviour world =
      let written := world.repository.movedUp (world.clock (world.ticks + 1)) status stored
      (.ok ⟨.ok (), written⟩,
        (world.tick world.repository).tick (world.repository.withRecord id written)) := by
  have read : world.repository.execution id = .ok (some (world.repository.assembled stored)) := by
    unfold Repository.execution Repository.completeOption
    simp only [found, Repository.complete_eq numbered]
    rfl
  have there : (world.tick world.repository).repository.executions.get? id = some stored := found
  have sameId : ((world.repository.assembled stored).upgradeStatus status).id = some id := numbered
  unfold tryStatus
  rw [Program.run_bind, Program.run_execution, read]
  simp only [passes]
  rw [Program.run_bind, Program.run_update, Repository.update_of_record _ sameId there]
  rfl

/-- The stored status is moved up by the first try. -/
theorem run_writeStatus (more : Nat) (numbered : stored.id = some id)
    (found : world.repository.executions.get? id = some stored)
    (passes : check (world.repository.assembled stored) = .ok ()) :
    (writeStatus id status check more : Program _).run behaviour world =
      let written := world.repository.movedUp (world.clock (world.ticks + 1)) status stored
      (.ok written,
        (world.tick world.repository).tick (world.repository.withRecord id written)) := by
  have tried := @run_tryStatus id status behaviour world check stored numbered found passes
  cases more with
  | zero =>
    unfold writeStatus
    rw [Program.run_bind, tried]
    rfl
  | succ more =>
    unfold writeStatus
    rw [Program.run_bind, tried]
    rfl

private theorem run_tryStatus_of_refused (wellNumbered : world.repository.executions.Numbered)
    (refused : ∀ stored, world.repository.executions.get? id = some stored →
      check (world.repository.assembled stored) ≠ .ok ()) :
    ∃ error, (tryStatus id status check : Program _).run behaviour world =
      (.error error, world.tick world.repository) := by
  unfold tryStatus
  rw [Program.run_bind, Program.run_execution, Repository.execution_eq wellNumbered]
  cases found : world.repository.executions.get? id with
  | none => exact ⟨_, rfl⟩
  | some stored =>
    cases checked : check (world.repository.assembled stored) with
    | ok => exact absurd checked (refused stored found)
    | error error =>
      simp only [Option.map_some, checked]
      exact ⟨error, rfl⟩

/-- The stored status is moved up, or nothing is written. -/
theorem run_writeStatus_cases (wellNumbered : world.repository.executions.Numbered) (more : Nat) :
    ((∀ stored, world.repository.executions.get? id = some stored →
        check (world.repository.assembled stored) ≠ .ok ()) ∧
      ∃ error, (writeStatus id status check more : Program _).run behaviour world =
        (.error error, world.tick world.repository)) ∨
    ∃ stored, world.repository.executions.get? id = some stored ∧
      check (world.repository.assembled stored) = .ok () ∧
      (writeStatus id status check more : Program _).run behaviour world =
        let written := world.repository.movedUp (world.clock (world.ticks + 1)) status stored
        (.ok written,
          (world.tick world.repository).tick (world.repository.withRecord id written)) := by
  by_cases passes : ∃ stored, world.repository.executions.get? id = some stored ∧
    check (world.repository.assembled stored) = .ok ()
  · obtain ⟨stored, found, passes⟩ := passes
    exact .inr ⟨stored, found, passes,
      run_writeStatus more (wellNumbered.numbered found) found passes⟩
  · have refused (stored : JobExecution)
        (found : world.repository.executions.get? id = some stored) :
        check (world.repository.assembled stored) ≠ .ok () :=
      fun passed => passes ⟨stored, found, passed⟩
    obtain ⟨error, tried⟩ := @run_tryStatus_of_refused id status behaviour world check
      wellNumbered refused
    refine .inl ⟨refused, error, ?_⟩
    cases more with
    | zero =>
      unfold writeStatus
      rw [Program.run_bind, tried]
      rfl
    | succ more =>
      unfold writeStatus
      rw [Program.run_bind, tried]
      rfl

/-- A record that is not running any more can be abandoned, also a completed one. -/
theorem run_abandon (behaviour : Behaviour) (numbered : stored.id = some id)
    (found : world.repository.executions.get? id = some stored)
    (ended : stored.isRunning = false) :
    ∃ now copy after, copy.SameRecord stored ∧
      copy.status = stored.status.upgradeTo .abandoned ∧
      (abandon id : Program _).run behaviour world =
        (.ok (Repository.written now copy stored), after) ∧
      after.repository = world.repository.withRecord id (Repository.written now copy stored) ∧
      (Repository.written now copy stored).status = stored.status.upgradeTo .abandoned := by
  have passes : checkEnded id (world.repository.assembled stored) = .ok () := by
    have same : (world.repository.assembled stored).isRunning = false := ended
    unfold checkEnded
    rw [same]
    rfl
  refine ⟨_, (world.repository.assembled stored).upgradeStatus .abandoned, _, ⟨rfl, rfl⟩, rfl,
    run_writeStatus moreStatusWrites numbered found passes, rfl, Repository.status_movedUp⟩

end Operator

end BatchRun
