import BatchRun.Proofs.Program

/-! # Programs run from start to end

Nothing else happens between two actions of the program. The clock is arbitrary: one moment for
every look at it, in no particular order. A body is what it does to the execution and the
repository, and it may behave differently each time; what it was invoked with is noted.
-/

namespace BatchRun

/-- A repository, the moments the clock will show, and what the body has been invoked with. -/
structure World where
  repository : Repository
  clock : Nat → Timestamp
  /-- How often the clock has been looked at. -/
  ticks : Nat
  /-- The executions that the body was invoked with, the first one first. -/
  invoked : List JobExecution

/-- The run of the body that an answer stands for. -/
def Action.bodyRuns : (action : Action) → action.Answer → List BodyRun
  | .invoke execution, (_, left) => [⟨execution, left⟩]
  | _, _ => []

/-- What a body does, by the number of its earlier invocations. -/
abbrev Behaviour := Nat → JobExecution → Repository → (BodyEnd × JobExecution) × Repository

/-- A body that ends well at once. -/
def Behaviour.idle : Behaviour := fun _ execution repository =>
  ((.finished, execution), repository)

namespace World

/-- Nothing has happened yet, and the clock stands still. -/
def initial : World := ⟨.empty, fun _ => ⟨0, 0⟩, 0, []⟩

/-- The moment that the clock shows next. -/
def moment (world : World) : Timestamp := world.clock world.ticks

/-- The world after a look at the clock, with this repository. -/
def tick (world : World) (repository : Repository) : World :=
  { world with repository, ticks := world.ticks + 1 }

/-- Answers an action. -/
def answer (behaviour : Behaviour) (world : World) : (action : Action) → action.Answer × World
  | .request request =>
    let (answer, repository) := world.repository.answer world.moment request
    (answer, world.tick repository)
  | .now => (world.moment, world.tick world.repository)
  | .pause _ => ((), world)
  | .invoke execution =>
    let (left, repository) := behaviour world.invoked.length execution world.repository
    (left, { world with repository, invoked := world.invoked ++ [execution] })

end World

namespace Program

variable {α β : Type} {behaviour : Behaviour} {world : World}

/-- What a program gives, and the world afterwards. -/
def run (behaviour : Behaviour) : Program α → World → α × World
  | done value, world => (value, world)
  | act action next, world =>
    let (answer, after) := world.answer behaviour action
    (next answer).run behaviour after

/-- The runs of the body while a program is run, the first one first. -/
def bodyRuns (behaviour : Behaviour) : Program α → World → List BodyRun
  | done _, _ => []
  | act action next, world =>
    let (answer, after) := world.answer behaviour action
    action.bodyRuns answer ++ (next answer).bodyRuns behaviour after

/-- Programs run one after the other. -/
theorem run_bind (program : Program α) (rest : α → Program β) :
    (program >>= rest).run behaviour world =
      (rest (program.run behaviour world).1).run behaviour (program.run behaviour world).2 := by
  induction program generalizing world with
  | done value => rfl
  | act action next ih => exact ih _

theorem run_now : (MonadRepository.now : Program _).run behaviour world =
    (world.moment, world.tick world.repository) := rfl

/-- A body is run once and noted. -/
theorem run_invoke (execution : JobExecution) :
    (invoke execution).run behaviour world =
      ((behaviour world.invoked.length execution world.repository).1,
        { world with
          repository := (behaviour world.invoked.length execution world.repository).2
          invoked := world.invoked ++ [execution] }) := rfl

theorem run_lastExecution (jobName : String) (parameters : JobParameters) :
    (Calls.lastExecution jobName parameters : Program _).run behaviour world =
      (world.repository.lastExecution jobName parameters, world.tick world.repository) := rfl

theorem run_execution (id : JobExecutionId) :
    (Calls.execution id : Program _).run behaviour world =
      (world.repository.execution id, world.tick world.repository) := rfl

theorem run_createExecution (jobName : String) (parameters : JobParameters) :
    (Calls.createExecution jobName parameters : Program _).run behaviour world =
      ((world.repository.orKeep
          (world.repository.createExecution world.moment jobName parameters)).1,
        world.tick (world.repository.orKeep
          (world.repository.createExecution world.moment jobName parameters)).2) := rfl

theorem run_update (copy : JobExecution) :
    (Calls.update copy : Program _).run behaviour world =
      ((world.repository.update world.moment copy).1,
        world.tick (world.repository.update world.moment copy).2) := rfl

theorem run_synchronize (copy : JobExecution) :
    (Calls.synchronize copy : Program _).run behaviour world =
      (world.repository.synchronize copy, world.tick world.repository) := rfl

theorem run_updateStep (step : StepExecution) :
    (Calls.updateStep step : Program _).run behaviour world =
      ((world.repository.updateStep world.moment step).1,
        world.tick (world.repository.updateStep world.moment step).2) := rfl

theorem run_updateContext (execution : JobExecution) :
    (Calls.updateContext execution : Program _).run behaviour world =
      ((world.repository.orKeepUnit (world.repository.updateContext execution)).1,
        world.tick (world.repository.orKeepUnit
          (world.repository.updateContext execution)).2) := rfl

end Program

end BatchRun
