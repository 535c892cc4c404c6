import BatchRun.Proofs.Launch.Custody
import BatchRun.Proofs.Operator.Custody

/-! # Calls work with the copies that they have been given

Whatever a launch or an operator's call writes, it writes a copy that it has been given, and if it
has worked on that copy then the status is no lower. An answer gives it copies, and a body leaves
one. So a call can do nothing that a client could not do that only raises statuses.
-/

namespace BatchRun

open Run

/-- The copies of executions that a call has been given. -/
abbrev Hand := List JobExecution

namespace Hand

/-- A copy that has been given, or has been made of one with a status that is no lower. -/
def Makes (hand : Hand) (copy : JobExecution) : Prop := ∃ original ∈ hand, copy.Onward original

/-- What a call asks for that has been given these copies. -/
def Allows (hand : Hand) : Action → Prop
  | .request (.update given) | .request (.synchronize given) | .request (.updateContext given)
  | .invoke given => hand.Makes given
  | .request (.updateStep given) => ∃ execution ∈ hand, ∃ step ∈ execution.steps, given.EditOf step
  | .request (.addStep _) | .request (.updateStepContext _) => False
  | _ => True

/-- What a call has been given after an answer. -/
def after (hand : Hand) : (action : Action) → action.Answer → Hand
  | .request request, answer => hand ++ request.copies answer
  | .invoke _, (_, left) => hand ++ [left]
  | _, _ => hand

/-- How calls go, whatever they are answered. -/
def protocol : Protocol Hand := ⟨Allows, fun _ _ _ => True, after⟩

variable {hand : Hand} {copy later : JobExecution}

theorem Makes.of_mem (member : copy ∈ hand) : hand.Makes copy := ⟨copy, member, .refl copy⟩

/-- What is made of something in hand can be moved on. -/
theorem Makes.onward (makes : hand.Makes copy) (onward : later.Onward copy) : hand.Makes later := by
  obtain ⟨original, member, before⟩ := makes
  exact ⟨original, member, onward.trans before⟩

/-- The copy that comes last has just been given. -/
theorem makes_last {values : List JobExecution} : Makes (values ++ [copy]) copy :=
  .of_mem (List.mem_append_right _ (List.mem_singleton.2 rfl))

end Hand

namespace Launch

variable {hand : Hand} {given : JobExecution} {settings : JobSettings}

/-- What a part of a launch goes on with can be made of what has been given. -/
private def Left {ε : Type} (hand : Hand) (result : ε × JobExecution) : Prop := hand.Makes result.2

private theorem hand_now {α : Type} {Final : Hand → α → Prop} {rest : Timestamp → Program α}
    (next : ∀ moment, (rest moment).Follows Hand.protocol Final hand) :
    (MonadRepository.now >>= rest).Follows Hand.protocol Final hand :=
  ⟨trivial, fun moment _ => next moment⟩

private theorem hand_update (makes : hand.Makes given) :
    (Calls.update given : Program _).Follows Hand.protocol
      (fun hand written => hand.Makes written.copy) hand :=
  ⟨makes, fun _ _ => Hand.makes_last⟩

private theorem hand_updatePersistently (more : Nat) (makes : hand.Makes given) :
    (Calls.updatePersistently more given : Program _).Follows Hand.protocol
      (fun hand written => hand.Makes written.copy) hand := by
  induction more generalizing given hand with
  | zero => exact hand_update makes
  | succ more ih =>
    apply Program.Follows.bind
    apply (hand_update makes).imp
    rintro hand ⟨result, copy⟩ left
    cases result with
    | ok => exact left
    | error error =>
      dsimp only
      split
      · exact ih left
      · exact left

private theorem hand_writeTerminal {copy : JobExecution} (makes : hand.Makes given)
    (onward : copy.Onward given) : (writeTerminal copy : Program _).Follows Hand.protocol
      (fun hand written => hand.Makes written.copy) hand :=
  hand_updatePersistently _ (makes.onward onward)

private theorem hand_finish (error? : Option LaunchError) (makes : hand.Makes given) :
    (finish given error? : Program LaunchOutcome).Follows Hand.protocol (fun _ _ => True) hand := by
  apply hand_now
  intro moment
  refine Program.Follows.bind ((hand_writeTerminal makes ?_).imp ?_)
  · exact ⟨⟨rfl, rfl, rfl, rfl⟩, rfl, BatchStatus.le_refl _⟩
  rintro hand ⟨result, left⟩ makes
  cases result with
  | error error => exact trivial
  | ok =>
    refine ⟨makes, fun filed _ => ?_⟩
    cases filed with
    | error error => exact trivial
    | ok => cases error? <;> exact trivial

private theorem hand_writeFailed {α : Type} {rest : Written JobExecution → Program α}
    (text : String) (makes : hand.Makes given)
    (ends : ∀ hand written, (rest written).Follows Hand.protocol (fun _ _ => True) hand) :
    (MonadRepository.now >>= fun moment => writeTerminal ({ given.upgradeStatus .failed with
        exitStatus := ExitStatus.failed.describe text, endTime := some moment }.addFailure text) >>=
      rest : Program α).Follows Hand.protocol (fun _ _ => True) hand := by
  apply hand_now
  intro moment
  refine Program.Follows.bind ((hand_writeTerminal makes ?_).imp ?_)
  · exact ⟨⟨rfl, rfl, rfl, rfl⟩, rfl, (BatchStatus.le_upgradeTo given.status .failed).1⟩
  · exact fun hand written _ => ends hand written

private theorem hand_breakOff (cause : RepositoryError) (makes : hand.Makes given) :
    (breakOff given cause : Program LaunchOutcome).Follows Hand.protocol (fun _ _ => True)
      hand := by
  refine hand_writeFailed _ makes fun hand written => ?_
  obtain ⟨result, left⟩ := written
  cases result <;> exact trivial

private theorem hand_recordRejection (rejected : TaskRejected) (makes : hand.Makes given) :
    (recordRejection given rejected >>= fun error => pure (.error error) :
      Program LaunchOutcome).Follows Hand.protocol (fun _ _ => True) hand := by
  unfold recordRejection
  simp only [bind_assoc]
  refine hand_writeFailed _ makes fun hand written => ?_
  obtain ⟨result, left⟩ := written
  cases result <;> exact trivial

private theorem hand_attempt (number : UInt32) (makes : hand.Makes given) :
    ((attempt settings.job number).run given : Program _).Follows Hand.protocol Left hand := by
  have starts : hand.Makes { given with exitStatus := .executing } :=
    makes.onward ⟨⟨rfl, rfl, rfl, rfl⟩, rfl, BatchStatus.le_refl _⟩
  refine ⟨starts, fun (ending, left) _ => ?_⟩
  have ends : Hand.Makes (hand ++ [left]) left := Hand.makes_last
  cases ending with
  | finished => exact ends
  | failed failure => exact ends.onward ⟨⟨rfl, rfl, rfl, rfl⟩, rfl, BatchStatus.le_refl _⟩
  | panicked message => exact ends.onward ⟨⟨rfl, rfl, rfl, rfl⟩, rfl, BatchStatus.le_refl _⟩

private theorem hand_attemptFrom (policy : RetryPolicy) (number : UInt32)
    (makes : hand.Makes given) :
    ((Retry.attemptFrom (fun delay => StateT.lift (MonadRepository.pause delay)) policy
        (attempt settings.job) number).run given : Program _).Follows Hand.protocol Left hand := by
  induction number using Retry.attemptFrom.induct policy generalizing given hand with
  | case1 number ih =>
    rw [Retry.attemptFrom, StateT.run_bind]
    apply Program.Follows.bind
    apply (hand_attempt number makes).imp
    rintro hand ⟨result, left⟩ makes
    cases result with
    | ok value => exact makes
    | error failure =>
      by_cases allowed : policy.allowsAfter number = true
      · simp only [allowed, dite_true]
        exact ⟨trivial, fun _ _ => ih allowed makes⟩
      · simp only [allowed]
        exact makes

private theorem onward_succeeded (copy : JobExecution) : (succeeded copy).Onward copy := by
  unfold succeeded
  split
  · rename_i stopping
    refine ⟨⟨rfl, rfl, rfl, rfl⟩, rfl, ?_⟩
    have status : copy.status = .stopping := by simpa [JobExecution.isStopping] using stopping
    change copy.status ≤ .stopped
    rw [status]
    decide
  · exact ⟨⟨rfl, rfl, rfl, rfl⟩, rfl, (BatchStatus.le_upgradeTo copy.status .completed).1⟩

private theorem onward_exhausted (recovery : Option RecoveryHandler) (copy : JobExecution)
    (failures : RetryExhausted) : (exhausted recovery copy failures).1.Onward copy := by
  have status := (BatchStatus.le_upgradeTo copy.status .failed).1
  unfold exhausted
  cases recovery <;> exact ⟨⟨rfl, rfl, rfl, rfl⟩, rfl, status⟩

private theorem hand_run (launcher : Launcher) (makes : hand.Makes given) :
    (launcher.run settings.job given).Follows Hand.protocol (fun _ _ => True) hand := by
  apply hand_now
  intro moment
  have started : hand.Makes (JobExecution.upgradeStatus
      { given with startTime := some moment } .started) :=
    makes.onward ⟨⟨rfl, rfl, rfl, rfl⟩, rfl, (BatchStatus.le_upgradeTo given.status .started).1⟩
  apply Program.Follows.bind
  apply (hand_update started).imp
  rintro hand ⟨result, begun⟩ begins
  cases result with
  | error cause => exact hand_breakOff cause begins
  | ok =>
    apply Program.Follows.bind
    apply (hand_attemptFrom launcher.policy 1 begins).imp
    rintro hand ⟨result, left⟩ makes
    cases result with
    | error failures =>
      exact hand_finish _ (makes.onward (onward_exhausted launcher.recovery left failures))
    | ok =>
      refine ⟨makes, fun refreshed _ => ?_⟩
      have fresh : Hand.Makes (hand ++ [refreshed.copy]) refreshed.copy := Hand.makes_last
      obtain ⟨result, copy⟩ := refreshed
      cases result with
      | error cause => exact hand_breakOff cause fresh
      | ok => exact hand_finish none (fresh.onward (onward_succeeded copy))

private theorem hand_claim (parameters : JobParameters) :
    (claim settings.job parameters : Program LaunchOutcome).Follows Hand.protocol
      (fun hand outcome => ∀ execution, outcome = .ok execution → hand.Makes execution) hand := by
  unfold claim
  cases checkParameters settings.job parameters with
  | error error => exact fun _ same => nomatch same
  | ok =>
    refine ⟨trivial, fun last _ => ?_⟩
    match last with
    | .error error => exact fun _ same => nomatch same
    | .ok last =>
      change (match checkLast settings.job parameters last with
        | .error error => _ | .ok _ => _ : Program _).Follows _ _ _
      cases checkLast settings.job parameters last with
      | error error => exact fun _ same => nomatch same
      | ok =>
        refine ⟨trivial, fun created _ => ?_⟩
        cases created with
        | error error => exact fun _ same => nomatch same
        | ok execution =>
          rintro _ ⟨⟩
          exact Hand.makes_last

/-- A launch works with the copies that it has been given. -/
theorem follows_hand (launcher : Launcher) (settings : JobSettings) (parameters : JobParameters)
    (rejection : Option TaskRejected) :
    (launch settings.job parameters fun execution => match rejection with
        | some rejected => return .rejected rejected
        | none => return .ran (← launcher.run settings.job execution)).Follows
      Hand.protocol (fun _ _ => True) hand := by
  apply Program.Follows.bind
  apply (hand_claim parameters).imp
  intro hand outcome claimed
  cases outcome with
  | error error => exact trivial
  | ok execution =>
    have makes := claimed execution rfl
    cases rejection with
    | some rejected => exact hand_recordRejection rejected makes
    | none =>
      refine Program.Follows.bind (Program.Follows.bind ((hand_run launcher makes).imp ?_))
      exact fun _ _ _ => trivial

end Launch

namespace Operator

/-- An operator's call works with the copies that it has been given. -/
theorem Follows.hand {α : Type} {program : Program α} {status : BatchStatus}
    {Fit : JobExecution → Prop} {hand : Hand}
    (follows : program.Follows (custodyOf status Fit) (fun _ _ => True) hand) :
    program.Follows Hand.protocol (fun _ _ => True) hand := by
  refine follows.simulate Eq rfl ?_ ?_ fun _ _ => trivial
  · rintro copies _ action rfl allowed
    cases action with
    | request request =>
      cases request with
      | update given =>
        obtain ⟨read, member, -, rfl⟩ := allowed
        exact ⟨read, member, ⟨rfl, rfl, rfl, rfl⟩, rfl,
          (BatchStatus.le_upgradeTo read.status status).1⟩
      | updateStep given =>
        obtain ⟨execution, member, step, within, rfl⟩ := allowed
        exact ⟨execution, member, step, within, rfl, rfl, rfl, rfl, rfl⟩
      | execution id => exact trivial
      | _ => exact False.elim allowed
    | _ => exact False.elim allowed
  · rintro copies _ action answer rfl allowed -
    cases action with
    | request request => exact ⟨trivial, rfl⟩
    | _ => exact False.elim allowed

end Operator

end BatchRun
