import BatchRun.Proofs.Clients.Underway
import BatchRun.Proofs.Launch.Admission

/-! # Launches during outages

A launch runs on the repository of a session. According to a plan some of its writes and
refreshments of executions fail: the launch gets an error and the same copy back, and nothing else
happens. Everything else is answered by the repository. The body works as a client of the session
and is not affected by the plan.
-/

namespace BatchRun

/-- What a launch meets with. -/
structure Circumstances where
  /-- What the clock shows, by the number of earlier looks. -/
  clock : Nat → Timestamp
  /-- The error that a write or refreshment of the launch fails with, by the number of earlier
  ones. -/
  outage? : Nat → Option RepositoryError
  /-- What a run of the body makes of an execution in a session, by the number of earlier runs. -/
  body : Nat → JobExecution → Session → (BodyEnd × JobExecution) × Session

/-- The body works as a client. It may do whatever clients do, but it does not end the execution
that it is given: a copy of it that is running stays so. A body that never sets the status is such
a body. -/
structure Circumstances.LeavesRunning (around : Circumstances) : Prop where
  /-- What has been written stays written. -/
  writings (number : Nat) (execution : JobExecution) (session : Session) :
    session.writings <+: (around.body number execution session).2.writings
  /-- The body makes requests and edits copies in hand. -/
  reaches (number : Nat) {execution : JobExecution} {session : Session} (sound : session.Sound)
    (inHand : execution ∈ session.executions) :
    Session.Reaches (Session.KeepsRunning execution.id) session
      (around.body number execution session).2
  /-- It leaves a copy of its execution that it has in hand. -/
  left (number : Nat) {execution : JobExecution} {session : Session} (sound : session.Sound)
    (inHand : execution ∈ session.executions) :
    (around.body number execution session).1.2 ∈
        (around.body number execution session).2.executions ∧
      (around.body number execution session).1.2.id = execution.id

/-- Something that a launch has done. -/
inductive Deed
  | wrote (copy : JobExecution) (result : Except RepositoryError Unit)
  | refreshed (result : Except RepositoryError Unit)
  | ranBody

/-- Whether it is a run of the body. -/
def Deed.isRun : Deed → Bool
  | ranBody => true
  | _ => false

/-- How far a launch has come. -/
structure Trial where
  session : Session
  /-- How often the clock has been looked at. -/
  ticks : Nat
  /-- The writes, the refreshments and the runs of the body, the first one first. -/
  deeds : List Deed

namespace Trial

/-- The trial with another deed. -/
def note (trial : Trial) (deed : Deed) : Trial := { trial with deeds := trial.deeds ++ [deed] }

/-- How often the launch has written or refreshed an execution. -/
def calls (trial : Trial) : Nat := trial.deeds.countP (!·.isRun)

/-- How often the body has been run. -/
def runs (trial : Trial) : Nat := trial.deeds.countP (·.isRun)

/-- The repository answers a request. -/
def call (around : Circumstances) (trial : Trial) (request : Request) : request.Answer × Trial :=
  let moment := around.clock trial.ticks
  ((trial.session.repository.answer moment request).1,
    { trial with
      session := (trial.session.handing request).call moment request
      ticks := trial.ticks + 1 })

/-- Answers an action of the launch. -/
def answer (around : Circumstances) (trial : Trial) : (action : Action) → action.Answer × Trial
  | .request (.update copy) =>
    match around.outage? trial.calls with
    | some error => (⟨.error error, copy⟩, trial.note (.wrote copy (.error error)))
    | none =>
      let (written, after) := trial.call around (.update copy)
      (written, after.note (.wrote copy written.result))
  | .request (.synchronize copy) =>
    match around.outage? trial.calls with
    | some error => (⟨.error error, copy⟩, trial.note (.refreshed (.error error)))
    | none =>
      let (refreshed, after) := trial.call around (.synchronize copy)
      (refreshed, after.note (.refreshed refreshed.result))
  | .request request => trial.call around request
  | .now => (around.clock trial.ticks, { trial with ticks := trial.ticks + 1 })
  | .pause _ => ((), trial)
  | .invoke execution =>
    let (left, session) := around.body trial.runs execution (trial.session.hold execution)
    (left, { trial with session }.note .ranBody)

end Trial

namespace Program

variable {α β : Type} {around : Circumstances} {trial : Trial}

/-- What a program gives under these circumstances, and how far it has come then. -/
def runAmid (around : Circumstances) : Program α → Trial → α × Trial
  | done value, trial => (value, trial)
  | act action next, trial =>
    let (answer, after) := trial.answer around action
    (next answer).runAmid around after

/-- Programs run one after the other. -/
theorem runAmid_bind (program : Program α) (rest : α → Program β) :
    (program >>= rest).runAmid around trial =
      (rest (program.runAmid around trial).1).runAmid around
        (program.runAmid around trial).2 := by
  induction program generalizing trial with
  | done value => rfl
  | act action next ih => exact ih _

theorem runAmid_now : (MonadRepository.now : Program _).runAmid around trial =
    (around.clock trial.ticks, { trial with ticks := trial.ticks + 1 }) := rfl

theorem runAmid_lastExecution (jobName : String) (parameters : JobParameters) :
    (Calls.lastExecution jobName parameters : Program _).runAmid around trial =
      trial.call around (.lastExecution jobName parameters) := rfl

theorem runAmid_createExecution (jobName : String) (parameters : JobParameters) :
    (Calls.createExecution jobName parameters : Program _).runAmid around trial =
      trial.call around (.createExecution jobName parameters) := rfl

theorem runAmid_update (copy : JobExecution) :
    (Calls.update copy : Program _).runAmid around trial =
      trial.answer around (.request (.update copy)) := rfl

theorem runAmid_synchronize (copy : JobExecution) :
    (Calls.synchronize copy : Program _).runAmid around trial =
      trial.answer around (.request (.synchronize copy)) := rfl

theorem runAmid_updateContext (copy : JobExecution) :
    (Calls.updateContext copy : Program _).runAmid around trial =
      trial.call around (.updateContext copy) := rfl

theorem runAmid_invoke (execution : JobExecution) :
    (invoke execution).runAmid around trial = trial.answer around (.invoke execution) := rfl

end Program

namespace Trial

variable {around : Circumstances} {trial : Trial}

theorem few_of_call (request : Request) (few : (trial.call around request).2.session.Few) :
    trial.session.Few :=
  Session.few_of_handing few

theorem few_of_answer (leaves : around.LeavesRunning) {action : Action}
    (few : (trial.answer around action).2.session.Few) : trial.session.Few := by
  cases action with
  | request request =>
    cases request with
    | update copy =>
      simp only [answer] at few
      split at few
      · exact few
      · exact few_of_call (.update copy) few
    | synchronize copy =>
      simp only [answer] at few
      split at few
      · exact few
      · exact few_of_call (.synchronize copy) few
    | _ => exact few_of_call _ few
  | now => exact few
  | pause => exact few
  | invoke execution =>
    have kept := leaves.writings trial.runs execution (trial.session.hold execution)
    exact Nat.lt_of_le_of_lt kept.length_le few

end Trial

namespace Program

variable {α : Type} {around : Circumstances} {trial : Trial}

/-- If the numbers last up to the end of a program, they last before it. -/
theorem few_of_runAmid (leaves : around.LeavesRunning) (program : Program α)
    (few : (program.runAmid around trial).2.session.Few) : trial.session.Few := by
  induction program generalizing trial with
  | done value => exact few
  | act action next ih => exact Trial.few_of_answer leaves (ih _ few)

theorem few_of_ran (leaves : around.LeavesRunning) {program : Program α} {value : α}
    {after : Trial} (ran : program.runAmid around trial = (value, after))
    (few : after.session.Few) : trial.session.Few := by
  apply few_of_runAmid leaves program
  rw [ran]
  exact few

end Program

end BatchRun
