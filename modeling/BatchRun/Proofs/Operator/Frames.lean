import BatchRun.Proofs.Operator
import BatchRun.Proofs.Repository.Frames

/-! # What operators leave alone

An operator writes the record of one execution, and a stop writes the steps that are read with it.
The contexts are left alone, and so is what the stores hold of every instance that neither the
execution nor one of these steps belongs to.
-/

namespace BatchRun

namespace Repository

variable {created : List JobExecution} {added : List StepExecution} {other : String × String}
  {before between : Repository}

/-- An operator has left alone what the stores hold of an instance, and all contexts. -/
structure Spares (created : List JobExecution) (added : List StepExecution)
    (other : String × String) (before after : Repository) : Prop where
  traced : Traced created added after
  keeps : Keeps created added other before after
  contexts : after.contexts = before.contexts

namespace Spares

/-- What is spared is read the same. -/
theorem sameReads (spares : Spares created added other before between)
    (traced : Traced created added before) (few : created.length < 2 ^ 64) :
    SameReads created added other before between := by
  have keeps : Keeps (created ++ []) (added ++ []) other before between := by
    simpa using spares.keeps
  refine keeps.sameReads traced (by simpa using spares.traced) (by simpa using few) ?_
  intro _ _ _ _ step _
  unfold withStepContext
  rw [spares.contexts]

/-- A record of another instance is written. -/
theorem withRecord {given stored : JobExecution} {id : JobExecutionId} (now : Timestamp)
    (spares : Spares created added other before between) (numbered : given.id = some id)
    (found : between.executions.get? id = some stored)
    (same : given.jobInstance = stored.jobInstance)
    (steps : ∀ step ∈ given.steps, step.Traced created added)
    (apart : stored.jobInstance.target ≠ other) :
    Spares created added other before (between.withRecord id (written now given stored)) := by
  have own : CreatedFor created id given.jobInstance :=
    same ▸ spares.traced.executions.stored found
  refine ⟨spares.traced.withRecord numbered found ?_ steps
    (spares.traced.consistent.withRecord now numbered found same),
    spares.keeps.trans (.withRecord spares.traced own (same ▸ apart)), spares.contexts⟩
  intro key numberedKey
  obtain rfl := Option.some.inj (numbered.symm.trans numberedKey)
  exact own

/-- A step of another instance is written, or the write is refused. -/
theorem updateStep {given : StepExecution} (now : Timestamp)
    (spares : Spares created added other before between) (own : given.Traced created added)
    (apart : ¬ CreatedUnder created given.jobExecutionId other) :
    Spares created added other before (between.updateStep now given).2 := by
  rcases between.updateStep_cases now given with
    ⟨id, stored, terminateOnly, numbered, found, -, written⟩ | ⟨-, error, refused⟩
  · obtain ⟨owner, owns, -⟩ := own.parent
    rw [written]
    refine ⟨spares.traced.withWrittenStep now numbered found own,
      spares.keeps.trans (.withWrittenStep spares.traced ⟨owner, owns, rfl⟩ ?_), spares.contexts⟩
    rintro rfl
    exact apart ⟨owner, owns, rfl⟩
  · rw [refused]
    exact spares

end Spares

end Repository

namespace Operator

variable {created : List JobExecution} {added : List StepExecution} {other : String × String}
  {before : Repository} {behaviour : Behaviour} {world : World} {id : JobExecutionId}
  {status : BatchStatus} {check : JobExecution → Except OperatorError Unit}

/-- Asking steps of other instances to end leaves alone what the stores hold of this one. -/
theorem spares_askStepsToEnd (steps : List StepExecution)
    (own : ∀ step ∈ steps, step.Traced created added ∧
      ¬ CreatedUnder created step.jobExecutionId other)
    (spares : Repository.Spares created added other before world.repository) :
    Repository.Spares created added other before
      ((askStepsToEnd steps : Program _).run behaviour world).2.repository := by
  induction steps generalizing world with
  | nil => exact spares
  | cons step rest ih =>
    obtain ⟨⟨traced, apart⟩, own⟩ := List.forall_mem_cons.1 own
    unfold askStepsToEnd
    split
    · exact ih own spares
    · have asked : step.askToEnd.Traced created added := ⟨traced.parent, traced.numbered⟩
      have after := spares.updateStep world.moment asked apart
      rw [Program.run_bind, Program.run_updateStep]
      cases (world.repository.updateStep world.moment step.askToEnd).1.result with
      | error error => exact after
      | ok => exact ih own after

/-- Moving up the status of another instance leaves alone what the stores hold of this one. What is
written comes with the steps that have been read. -/
theorem spares_writeStatus (more : Nat) (traced : Repository.Traced created added world.repository)
    (apart : ¬ CreatedUnder created id other) :
    Repository.Spares created added other world.repository
      ((writeStatus id status check more : Program _).run behaviour world).2.repository ∧
    ∀ written, ((writeStatus id status check more : Program _).run behaviour world).1 =
        .ok written →
      ∃ stored, world.repository.executions.get? id = some stored ∧
        written.steps = (world.repository.assembled stored).steps := by
  have unchanged : Repository.Spares created added other world.repository world.repository :=
    ⟨traced, .refl _, rfl⟩
  rcases @run_writeStatus_cases id status behaviour world check
    traced.consistent.executions.toNumbered more with ⟨-, error, ran⟩ | ⟨stored, found, -, ran⟩
  · rw [ran]
    refine ⟨unchanged, fun written (same : Except.error error = .ok written) => ?_⟩
    contradiction
  · have numbered := traced.consistent.executions.numbered found
    have sameId : ((world.repository.assembled stored).upgradeStatus status).id = some id :=
      numbered
    rw [ran]
    refine ⟨unchanged.withRecord _ sameId found rfl (traced.assembled found)
      fun under => apart ⟨_, traced.executions.stored found, under⟩, fun written same => ?_⟩
    obtain rfl := Except.ok.inj same
    exact ⟨stored, found, rfl⟩

/-- A stop asks the steps to end that are read with the execution. -/
theorem spares_stop (traced : Repository.Traced created added world.repository)
    (apart : ¬ CreatedUnder created id other)
    (own : ∀ stored, world.repository.executions.get? id = some stored →
      ∀ step ∈ (world.repository.assembled stored).steps,
        ¬ CreatedUnder created step.jobExecutionId other) :
    Repository.Spares created added other world.repository
      ((stop id : Program _).run behaviour world).2.repository := by
  obtain ⟨spares, copy⟩ := @spares_writeStatus _ _ _ behaviour _ _ .stopping (checkRunning id)
    moreStatusWrites traced apart
  unfold stop
  rw [Program.run_bind]
  -- How the write went does not matter from here on.
  generalize (writeStatus id .stopping (checkRunning id) moreStatusWrites :
    Program _).run behaviour world = wrote at spares copy ⊢
  obtain ⟨result, after⟩ := wrote
  cases result with
  | error error => exact spares
  | ok written =>
    obtain ⟨stored, found, same⟩ := copy written rfl
    have apart : ∀ step ∈ written.steps, step.Traced created added ∧
        ¬ CreatedUnder created step.jobExecutionId other := by
      intro step member
      rw [same] at member
      exact ⟨traced.assembled found step member, own stored found step member⟩
    have asked := @spares_askStepsToEnd _ _ _ _ behaviour _ written.steps apart spares
    simp only [Program.run_bind]
    split <;> exact asked

end Operator

end BatchRun
