import BatchRun.Proofs.Program

/-! # The course of an operator's call

An operator reads an execution, and if the copy passes the check, the very next thing it does is to
write this copy with the status moved up. Whatever else it does, the copy is out of its hands. It
cannot tell how long ago it has read the copy, since others may have come in between.
-/

namespace BatchRun.Operator

/-- The copy that an operator has in hand after an answer: what it has just read. -/
def inHand : (action : Action) → action.Answer → Option JobExecution
  | .request (.execution _), .ok read => read
  | _, _ => none

/-- What an operator asks for that moves a status up, with this copy in hand. -/
def AllowsInHand (status : BatchStatus) (Fit : JobExecution → Prop) (hand : Option JobExecution) :
    Action → Prop
  | .request (.execution _) | .request (.updateStep _) => True
  | .request (.update copy) =>
    ∃ read, hand = some read ∧ Fit read ∧ copy = read.upgradeStatus status
  | _ => False

/-- How operators go that move a status up, whatever they are answered. -/
def course (status : BatchStatus) (Fit : JobExecution → Prop) : Protocol (Option JobExecution) :=
  ⟨AllowsInHand status Fit, fun _ _ _ => True, fun _ => inHand⟩

variable {id : JobExecutionId} {status : BatchStatus} {Fit : JobExecution → Prop}
  {check : JobExecution → Except OperatorError Unit} {hand : Option JobExecution}

private theorem follows_tryStatus (fit : ∀ execution, check execution = .ok () → Fit execution) :
    (tryStatus id status check : Program _).Follows (course status Fit) (fun _ _ => True)
      hand := by
  refine ⟨trivial, fun read _ => ?_⟩
  match read with
  | .error error => exact trivial
  | .ok none => exact trivial
  | .ok (some execution) =>
    change (match check execution with | .error error => _ | .ok _ => _ : Program _).Follows _ _ _
    cases checked : check execution with
    | error error => exact trivial
    | ok => exact ⟨⟨execution, rfl, fit execution checked, rfl⟩, fun written _ => trivial⟩

private theorem follows_writeStatus (more : Nat)
    (fit : ∀ execution, check execution = .ok () → Fit execution) :
    (writeStatus id status check more : Program _).Follows (course status Fit) (fun _ _ => True)
      hand := by
  induction more generalizing hand with
  | zero =>
    apply Program.Follows.bind
    apply (follows_tryStatus fit).imp
    intro _ result _
    cases result <;> exact trivial
  | succ more ih =>
    apply Program.Follows.bind
    apply (follows_tryStatus fit).imp
    intro _ result _
    cases result with
    | error error => exact trivial
    | ok written =>
      simp only []
      cases written.result with
      | ok => exact trivial
      | error error =>
        simp only []
        split
        · exact ih
        · exact trivial

private theorem follows_askStepsToEnd (steps : List StepExecution) :
    (askStepsToEnd steps : Program _).Follows (course status Fit) (fun _ _ => True) hand := by
  induction steps generalizing hand with
  | nil => exact trivial
  | cons step rest ih =>
    unfold askStepsToEnd
    split
    · exact ih
    · refine ⟨trivial, fun written _ => ?_⟩
      obtain ⟨result, left⟩ := written
      cases result with
      | error error => exact trivial
      | ok => exact ih

/-- What passes the check of a stop runs. -/
theorem isRunning_of_check {execution : JobExecution}
    (checked : checkRunning id execution = .ok ()) : execution.isRunning = true := by
  unfold checkRunning at checked
  split at checked
  · assumption
  · contradiction

/-- A stop writes copies that are running. -/
theorem course_stop :
    (stop id : Program _).Follows (course .stopping fun execution => execution.isRunning = true)
      (fun _ _ => True) hand := by
  apply Program.Follows.bind
  apply (follows_writeStatus moreStatusWrites fun _ => isRunning_of_check).imp
  intro _ result _
  cases result with
  | error error => exact trivial
  | ok execution =>
    apply Program.Follows.bind
    apply (follows_askStepsToEnd _).imp
    intro _ asked _
    cases asked <;> exact trivial

/-- What passes the check of an abandonment has ended. -/
theorem isRunning_of_checkEnded {execution : JobExecution}
    (checked : checkEnded id execution = .ok ()) : execution.isRunning = false := by
  unfold checkEnded at checked
  split at checked
  · contradiction
  · rename_i ended
    simpa using ended

/-- An abandonment writes copies that are not running. -/
theorem course_abandon :
    (abandon id : Program _).Follows
      (course .abandoned fun execution => execution.isRunning = false) (fun _ _ => True)
      hand :=
  follows_writeStatus moreStatusWrites fun _ => isRunning_of_checkEnded

end BatchRun.Operator
