import BatchRun.Proofs.Operator.Course
import BatchRun.Proofs.Repository.Copies

/-! # What operators make of their copies

An operator's call writes nothing but copies that it has been given. It writes an execution that it
has read and that has passed the check with the status moved up, and a stop writes steps within its
copies so that they are asked to end.
-/

namespace BatchRun.Operator

/-- What a call that moves a status up asks for that has been given these copies. -/
def AllowsOf (status : BatchStatus) (Fit : JobExecution → Prop) (copies : List JobExecution) :
    Action → Prop
  | .request (.execution _) => True
  | .request (.update given) => ∃ read ∈ copies, Fit read ∧ given = read.upgradeStatus status
  | .request (.updateStep given) =>
    ∃ execution ∈ copies, ∃ step ∈ execution.steps, given = step.askToEnd
  | _ => False

/-- The copies that a call has been given after an answer. -/
def given (copies : List JobExecution) : (action : Action) → action.Answer → List JobExecution
  | .request request, answer => copies ++ request.copies answer
  | _, _ => copies

/-- How operators go that move a status up, whatever they are answered. -/
def custodyOf (status : BatchStatus) (Fit : JobExecution → Prop) :
    Protocol (List JobExecution) :=
  ⟨AllowsOf status Fit, fun _ _ _ => True, given⟩

/-- How stops go. -/
def custody : Protocol (List JobExecution) :=
  custodyOf .stopping fun execution => execution.isRunning = true

variable {id : JobExecutionId} {copies : List JobExecution} {status : BatchStatus}
  {Fit : JobExecution → Prop} {check : JobExecution → Except OperatorError Unit}

/-- What a call goes on with has been given to it. -/
private def Given (copies : List JobExecution) (result : Except OperatorError JobExecution) :
    Prop :=
  ∀ execution, result = .ok execution → execution ∈ copies

private theorem follows_tryStatus_custody
    (fit : ∀ execution, check execution = .ok () → Fit execution) :
    (tryStatus id status check : Program _).Follows (custodyOf status Fit)
      (fun copies result => ∀ written, result = .ok written → written.copy ∈ copies) copies := by
  refine ⟨trivial, fun read _ => ?_⟩
  match read with
  | .error error => exact fun _ same => nomatch same
  | .ok none => exact fun _ same => nomatch same
  | .ok (some execution) =>
    change (match check execution with | .error error => _ | .ok _ => _ : Program _).Follows _ _ _
    cases checked : check execution with
    | error error => exact fun _ same => nomatch same
    | ok =>
      have inHand : execution ∈ copies ++ [execution] :=
        List.mem_append_right _ (List.mem_singleton.2 rfl)
      refine ⟨⟨execution, inHand, fit execution checked, rfl⟩, fun written _ => ?_⟩
      rintro _ ⟨⟩
      exact List.mem_append_right _ (List.mem_singleton.2 rfl)

private theorem given_statusOutcome {written : Written JobExecution}
    (inHand : written.copy ∈ copies) : Given copies (statusOutcome written) := by
  rintro execution same
  unfold statusOutcome at same
  split at same
  · exact Except.ok.inj same ▸ inHand
  · contradiction

private theorem follows_writeStatus_custody (more : Nat)
    (fit : ∀ execution, check execution = .ok () → Fit execution) :
    (writeStatus id status check more : Program _).Follows (custodyOf status Fit) Given
      copies := by
  induction more generalizing copies with
  | zero =>
    apply Program.Follows.bind
    apply (follows_tryStatus_custody fit).imp
    rintro copies (error | written) inHand
    · exact fun _ same => nomatch same
    · exact given_statusOutcome (inHand written rfl)
  | succ more ih =>
    apply Program.Follows.bind
    apply (follows_tryStatus_custody fit).imp
    rintro copies (error | written) inHand
    · exact fun _ same => nomatch same
    · have isGiven := given_statusOutcome (inHand written rfl)
      cases failed : written.result with
      | ok =>
        simp only [failed]
        exact isGiven
      | error error =>
        simp only [failed]
        split
        · exact ih
        · exact isGiven

private theorem follows_askWithin {execution : JobExecution} (steps : List StepExecution)
    (within : ∀ step ∈ steps, step ∈ execution.steps) (inHand : execution ∈ copies) :
    (askStepsToEnd steps : Program _).Follows (custodyOf status Fit) (fun _ _ => True)
      copies := by
  induction steps generalizing copies with
  | nil => exact trivial
  | cons step rest ih =>
    obtain ⟨first, within⟩ := List.forall_mem_cons.1 within
    unfold askStepsToEnd
    split
    · exact ih within inHand
    · refine ⟨⟨execution, inHand, step, first, rfl⟩, fun written _ => ?_⟩
      obtain ⟨result, left⟩ := written
      cases result with
      | error error => exact trivial
      | ok => exact ih within (List.mem_append_left _ inHand)

/-- A stop writes nothing but what it has read. -/
theorem custody_stop : (stop id : Program _).Follows custody (fun _ _ => True) copies := by
  apply Program.Follows.bind
  apply (follows_writeStatus_custody moreStatusWrites fun _ => isRunning_of_check).imp
  rintro copies (error | execution) inHand
  · exact trivial
  · apply Program.Follows.bind
    apply (follows_askWithin _ (fun _ member => member) (inHand execution rfl)).imp
    rintro _ (error | _) _ <;> exact trivial

/-- An abandonment writes nothing but what it has read. -/
theorem custody_abandon :
    (abandon id : Program _).Follows
      (custodyOf .abandoned fun execution => execution.isRunning = false) (fun _ _ => True)
      copies :=
  (follows_writeStatus_custody moreStatusWrites fun _ => isRunning_of_checkEnded).imp
    fun _ _ _ => trivial

end BatchRun.Operator
