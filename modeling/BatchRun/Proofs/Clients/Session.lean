import BatchRun.Proofs.Repository.Changes
import BatchRun.Proofs.Repository.Copies
import Mathlib.Logic.Relation

/-! # Clients of a repository

Clients make requests in any order. A request that needs a copy of a record is made with one that
some client has in hand: an answer has handed it out, or it comes from such a copy by editing, and
new steps are started from executions in hand. Copies are values, so whatever has been in hand once
can be used again at any time. An edit leaves the number, the version and the owner of a copy as
they are, and the steps that it puts into an execution are in hand themselves.
-/

namespace BatchRun

/-- What clients can make of a copy of a job execution. -/
structure JobExecution.EditOf (edited original : JobExecution) : Prop where
  id : edited.id = original.id
  version : edited.version = original.version
  jobInstance : edited.jobInstance = original.jobInstance
  parameters : edited.parameters = original.parameters

/-- What clients can make of a copy of a step. -/
structure StepExecution.EditOf (edited original : StepExecution) : Prop where
  id : edited.id = original.id
  version : edited.version = original.version
  stepName : edited.stepName = original.stepName
  jobExecutionId : edited.jobExecutionId = original.jobExecutionId
  jobInstanceId : edited.jobInstanceId = original.jobInstanceId

/-- A repository, what has been written so far, and all copies that clients have had in hand. -/
structure Session where
  repository : Repository
  /-- What has been written, the first one first. -/
  writings : List Writing
  executions : List JobExecution
  steps : List StepExecution

namespace Session

/-- The session of an empty repository. -/
def start : Session := ⟨.empty, [], [], []⟩

/-- The copy that goes with a request is in hand. -/
def Holds (session : Session) : Request → Prop
  | .update copy | .synchronize copy | .updateContext copy => copy ∈ session.executions
  | .addStep step | .updateStep step | .updateStepContext step => step ∈ session.steps
  | _ => True

/-- The session after a request has been answered. -/
def call (session : Session) (now : Timestamp) (request : Request) : Session :=
  let answered := session.repository.answer now request
  { repository := answered.2
    writings := session.writings ++ (request.writing? answered.1).toList
    executions := session.executions ++ request.copies answered.1
    steps := session.steps ++ request.stepCopies answered.1 }

/-- The session with one more copy of an execution in hand. -/
def hold (session : Session) (copy : JobExecution) : Session :=
  { session with executions := session.executions ++ [copy] }

/-- The session with one more copy of a step in hand. -/
def holdStep (session : Session) (step : StepExecution) : Session :=
  { session with steps := session.steps ++ [step] }

/-- The session with the copy in hand that goes with a request. -/
def handing (session : Session) : Request → Session
  | .update copy | .synchronize copy | .updateContext copy => session.hold copy
  | .addStep step | .updateStep step | .updateStepContext step => session.holdStep step
  | _ => session

/-- What goes with a request can be made of what is in hand. -/
def Prepares (Permitted : JobExecution → JobExecution → Prop) (session : Session) :
    Request → Prop
  | .update given | .synchronize given | .updateContext given =>
    ∃ original ∈ session.executions, given.EditOf original ∧
      (∀ step ∈ given.steps, step ∈ session.steps) ∧ Permitted original given
  | .addStep given | .updateStep given | .updateStepContext given =>
    ∃ original ∈ session.steps, given.EditOf original
  | _ => True

/-- What clients can do next, if this is what they may make of a copy of an execution. -/
inductive Step (Permitted : JobExecution → JobExecution → Prop) (session : Session) :
    Session → Prop
  | call (now : Timestamp) {request : Request} (inHand : session.Holds request) :
      Step Permitted session (session.call now request)
  | draft (now : Timestamp) (known : JobInstance) (parameters : JobParameters) :
      Step Permitted session (session.hold (.create now known parameters))
  | edit {edited original : JobExecution} (inHand : original ∈ session.executions)
      (same : edited.EditOf original) (steps : ∀ step ∈ edited.steps, step ∈ session.steps)
      (permitted : Permitted original edited) :
      Step Permitted session (session.hold edited)
  | startStep (now : Timestamp) {execution : JobExecution} {stepName : String}
      {step : StepExecution} (inHand : execution ∈ session.executions)
      (started : execution.startStep now stepName = .ok step) :
      Step Permitted session (session.holdStep step)
  | editStep {edited original : StepExecution} (inHand : original ∈ session.steps)
      (same : edited.EditOf original) :
      Step Permitted session (session.holdStep edited)

/-- What clients can do in any number of steps. -/
abbrev Reaches (Permitted : JobExecution → JobExecution → Prop) : Session → Session → Prop :=
  Relation.ReflTransGen (Step Permitted)

/-- Any edit of an execution. -/
def AnyEdit : JobExecution → JobExecution → Prop := fun _ _ => True

/-- As many writings as there are numbers and versions. -/
def Few (session : Session) : Prop := session.writings.length < 2 ^ 64

variable {Permitted : JobExecution → JobExecution → Prop} {session after : Session}

/-- What can be done with fewer edits can be done with more. -/
theorem Step.imp {Wider : JobExecution → JobExecution → Prop}
    (step : Step Permitted session after)
    (wider : ∀ original edited, Permitted original edited → Wider original edited) :
    Step Wider session after := by
  cases step with
  | call now inHand => exact .call now inHand
  | draft now known parameters => exact .draft now known parameters
  | edit inHand same steps permitted => exact .edit inHand same steps (wider _ _ permitted)
  | startStep now inHand started => exact .startStep now inHand started
  | editStep inHand same => exact .editStep inHand same

/-- A request after other steps. -/
theorem Reaches.call (reaches : Reaches Permitted session after) (now : Timestamp)
    (request : Request) (inHand : after.Holds request) :
    Reaches Permitted session (after.call now request) :=
  reaches.tail (.call now inHand)

/-- An edit after other steps. -/
theorem Reaches.edit (reaches : Reaches Permitted session after) (edited : JobExecution)
    {original : JobExecution} (inHand : original ∈ after.executions) (same : edited.EditOf original)
    (steps : ∀ step ∈ edited.steps, step ∈ after.steps) (permitted : Permitted original edited) :
    Reaches Permitted session (after.hold edited) :=
  reaches.tail (.edit inHand same steps permitted)

theorem Reaches.startStep (reaches : Reaches Permitted session after) (now : Timestamp)
    {execution : JobExecution} {stepName : String} {step : StepExecution}
    (inHand : execution ∈ after.executions)
    (started : execution.startStep now stepName = .ok step) :
    Reaches Permitted session (after.holdStep step) :=
  reaches.tail (.startStep now inHand started)

theorem Step.few (step : Step Permitted session after) (few : after.Few) : session.Few := by
  unfold Few at few ⊢
  cases step with
  | call now inHand =>
    simp only [Session.call, List.length_append] at few
    exact Nat.lt_of_le_of_lt (Nat.le_add_right ..) few
  | _ => exact few

theorem Reaches.few (reaches : Reaches Permitted session after) (few : after.Few) :
    session.Few := by
  induction reaches with
  | refl => exact few
  | tail _ step ih => exact ih (step.few few)

/-- What holds at the beginning and is kept by every step holds as long as the numbers last. -/
theorem Reaches.invariant {Inv : Session → Prop} (reaches : Reaches Permitted session after)
    (few : after.Few) (holds : Inv session)
    (keeps : ∀ {before next}, Step Permitted before next → next.Few → Inv before → Inv next) :
    Inv after := by
  induction reaches with
  | refl => exact holds
  | tail _ step ih => exact keeps step few (ih (step.few few))

/-! ## Requests with what goes with them -/

variable {request : Request} {now : Timestamp}

/-- A request is made by first putting in hand what goes with it. -/
theorem Prepares.reaches (prepares : session.Prepares Permitted request) (now : Timestamp) :
    Reaches Permitted session ((session.handing request).call now request) := by
  have inHand {copy : JobExecution} : copy ∈ (session.hold copy).executions :=
    List.mem_append_right _ (List.mem_singleton.2 rfl)
  have stepInHand {step : StepExecution} : step ∈ (session.holdStep step).steps :=
    List.mem_append_right _ (List.mem_singleton.2 rfl)
  cases request with
  | update copy | synchronize copy | updateContext copy =>
    obtain ⟨original, member, same, steps, permitted⟩ := prepares
    exact (Reaches.edit .refl copy member same steps permitted).call now _ inHand
  | addStep step | updateStep step | updateStepContext step =>
    obtain ⟨original, member, same⟩ := prepares
    have edited : Reaches Permitted session (session.holdStep step) :=
      .single (.editStep member same)
    exact edited.call now _ stepInHand
  | _ => exact Reaches.call .refl now _ trivial

private theorem handing_repository : (session.handing request).repository = session.repository := by
  cases request <;> rfl

/-- The copies that an answer hands out are in hand afterwards. -/
theorem mem_of_handed {copy : JobExecution}
    (member : copy ∈ request.copies (session.repository.answer now request).1) :
    copy ∈ ((session.handing request).call now request).executions := by
  refine List.mem_append_right _ ?_
  rw [handing_repository]
  exact member

theorem few_of_handing (few : ((session.handing request).call now request).Few) : session.Few := by
  have same : (session.handing request).writings = session.writings := by
    cases request <;> rfl
  change List.length ((session.handing request).writings ++ _) < 2 ^ 64 at few
  rw [same, List.length_append] at few
  unfold Session.Few
  omega

/-! ## The first execution of all -/

/-- A client has created an execution. -/
def opened : Session := start.call ⟨0, 0⟩ (.createExecution "import" .empty)

/-- The copy that the client gets. -/
def firstCopy : JobExecution :=
  { JobExecution.create ⟨0, 0⟩ (.of ⟨1⟩ "import" .empty) .empty with
    id := some ⟨1⟩, version := 1, lastUpdated := some ⟨0, 0⟩ }

theorem firstCopy_mem : firstCopy ∈ opened.executions := List.mem_singleton.2 rfl

theorem reaches_opened : Reaches Permitted .start opened := Reaches.call .refl ⟨0, 0⟩ _ trivial

end Session

end BatchRun
