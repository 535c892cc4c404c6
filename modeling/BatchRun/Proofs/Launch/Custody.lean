import BatchRun.Proofs.Clients.Status
import BatchRun.Proofs.Launch.Course

/-! # What a launch makes of its copy

However its calls go, a launch passes its copy on with a status that is no lower, up to the write of
one that is not running any more. If the body ends well, the copy that it has left is refreshed
next. If that works, the only thing the launch goes on to write is what the refreshed copy says:
that the execution has been stopped, or that it is complete.
-/

namespace BatchRun

open Run

/-- A copy has been worked on, and its status is no lower. -/
structure JobExecution.Onward (later copy : JobExecution) : Prop extends later.EditOf copy where
  steps : later.steps = copy.steps
  status : copy.status ≤ later.status

theorem JobExecution.Onward.refl (copy : JobExecution) : copy.Onward copy :=
  ⟨⟨rfl, rfl, rfl, rfl⟩, rfl, BatchStatus.le_refl _⟩

theorem JobExecution.Onward.trans {last later copy : JobExecution} (second : last.Onward later)
    (first : later.Onward copy) : last.Onward copy where
  id := second.id.trans first.id
  version := second.version.trans first.version
  jobInstance := second.jobInstance.trans first.jobInstance
  parameters := second.parameters.trans first.parameters
  steps := second.steps.trans first.steps
  status := BatchStatus.le_trans first.status second.status

/-- A copy has been worked on, and its status is the same. -/
structure JobExecution.Noted (later copy : JobExecution) : Prop extends later.EditOf copy where
  steps : later.steps = copy.steps
  status : later.status = copy.status

theorem JobExecution.Noted.refl (copy : JobExecution) : copy.Noted copy :=
  ⟨⟨rfl, rfl, rfl, rfl⟩, rfl, rfl⟩

theorem JobExecution.Noted.onward {later copy : JobExecution} (noted : later.Noted copy) :
    later.Onward copy :=
  ⟨noted.toEditOf, noted.steps, noted.status ▸ BatchStatus.le_refl _⟩

/-- What a launch has in hand. -/
inductive Custody
  /-- Nothing has been claimed. -/
  | waiting
  | carrying (copy : JobExecution)
  /-- The body has ended well, and it has left this copy. -/
  | ended (copy : JobExecution)
  /-- The copy that the body has left has been refreshed. -/
  | refreshed (copy : JobExecution)
  /-- The outcome of a body that has ended well is written. -/
  | written
  /-- The launch has tried to end its execution otherwise. -/
  | closed

namespace Custody

/-- What a launch asks for. -/
def Allows : Custody → Action → Prop
  | _, .now | _, .pause _ => True
  | waiting, .request (.lastExecution ..) | waiting, .request (.createExecution ..) => True
  | carrying copy, .request (.update given) => given.Onward copy
  | carrying copy, .invoke given => given.Noted copy
  | ended copy, .request (.synchronize given) => given = copy
  | refreshed copy, .request (.update given) =>
    ∃ moment, given = { succeeded copy with endTime := some moment }
  | written, .request (.updateContext _) => True
  | closed, .request (.update _) | closed, .request (.updateContext _) => True
  | _, _ => False

/-- What a launch has in hand after an answer. -/
def after : Custody → (action : Action) → action.Answer → Custody
  | waiting, .request (.createExecution ..), .ok execution => carrying execution
  | carrying _, .request (.update given), answer =>
    if given.isRunning then carrying answer.copy else closed
  | carrying _, .invoke _, (.finished, left) => ended left
  | carrying _, .invoke _, (_, left) => carrying left
  | ended _, .request (.synchronize _), ⟨.ok (), copy⟩ => refreshed copy
  | ended _, .request (.synchronize _), ⟨.error _, copy⟩ => carrying copy
  | refreshed _, .request (.update _), ⟨.ok (), _⟩ => written
  | refreshed _, .request (.update _), ⟨.error _, _⟩ => closed
  | custody, _, _ => custody

/-- The copy of a claimed execution that a launch goes on with. -/
def hand : Custody → Option JobExecution
  | carrying copy | ended copy | refreshed copy => some copy
  | _ => none

/-- The launch has tried to end its execution. -/
def IsLate (custody : Custody) : Prop := custody = written ∨ custody = closed

theorem IsLate.ne_refreshed {custody : Custody} (late : custody.IsLate) (copy : JobExecution) :
    custody ≠ refreshed copy := by
  rcases late with rfl | rfl <;> simp

/-- What is late stays late. -/
theorem IsLate.after {custody : Custody} (late : custody.IsLate) (action : Action)
    (answer : action.Answer) : (custody.after action answer).IsLate := by
  rcases late with rfl | rfl
  · exact .inl rfl
  · exact .inr rfl

/-- The answers to be relied on: a new execution is starting. -/
def Expects (_ : Custody) : (action : Action) → action.Answer → Prop
  | .request (.createExecution ..), .ok execution => execution.status = .starting
  | _, _ => True

/-- How launches go. -/
def protocol : Protocol Custody := ⟨Allows, Expects, after⟩

/-- A launch does not end between the refreshment and the write of the outcome. -/
def IsDone {α : Type} (custody : Custody) (_ : α) : Prop := ∀ copy, custody ≠ refreshed copy

end Custody

namespace Launch

variable {copy given : JobExecution}

private theorem custody_now {α : Type} {Final : Custody → α → Prop} {custody : Custody}
    {rest : Timestamp → Program α}
    (next : ∀ moment, (rest moment).Follows Custody.protocol Final custody) :
    (MonadRepository.now >>= rest).Follows Custody.protocol Final custody := by
  cases custody <;> exact ⟨trivial, fun moment _ => next moment⟩

private theorem custody_update {custody : Custody}
    (allowed : custody.Allows (.request (.update given))) :
    (Calls.update given : Program _).Follows Custody.protocol
      (fun later written => later = custody.after (.request (.update given)) written) custody :=
  ⟨allowed, fun _ _ => rfl⟩

private theorem custody_updatePersistently_closed (more : Nat) (given : JobExecution) :
    (Calls.updatePersistently more given : Program _).Follows Custody.protocol
      (fun custody _ => custody = .closed) .closed := by
  induction more generalizing given with
  | zero => exact ⟨trivial, fun _ _ => rfl⟩
  | succ more ih =>
    have allowed : Custody.closed.Allows (.request (.update given)) := trivial
    apply Program.Follows.bind
    apply (custody_update allowed).imp
    rintro _ ⟨result, left⟩ rfl
    cases result with
    | ok => exact rfl
    | error error =>
      dsimp only
      split
      · exact ih left
      · exact rfl

private theorem custody_writeTerminal {custody : Custody}
    (allowed : custody.Allows (.request (.update given)))
    (succeeds : ∀ left, (custody.after (.request (.update given)) ⟨.ok (), left⟩).IsLate)
    (fails : ∀ error left,
      custody.after (.request (.update given)) ⟨.error error, left⟩ = .closed) :
    (writeTerminal given : Program _).Follows Custody.protocol
      (fun later _ => later.IsLate) custody := by
  apply Program.Follows.bind
  apply (custody_update allowed).imp
  rintro _ ⟨result, left⟩ rfl
  cases result with
  | ok => exact succeeds left
  | error error =>
    rw [fails]
    dsimp only
    split
    · exact (custody_updatePersistently_closed _ left).imp fun _ _ same => .inr same
    · exact .inr rfl

private theorem custody_writeTerminal_carrying (onward : given.Onward copy)
    (terminal : given.isRunning = false) :
    (writeTerminal given : Program _).Follows Custody.protocol
      (fun later _ => later.IsLate) (.carrying copy) := by
  have isOver (written : Written JobExecution) :
      (Custody.carrying copy).after (.request (.update given)) written = .closed := by
    simp [Custody.after, terminal]
  exact custody_writeTerminal onward (fun _ => .inr (isOver _)) fun _ _ => isOver _

private theorem custody_writeTerminal_refreshed (moment : Timestamp) :
    (writeTerminal { succeeded copy with endTime := some moment } : Program _).Follows
      Custody.protocol (fun later _ => later.IsLate) (.refreshed copy) :=
  custody_writeTerminal ⟨moment, rfl⟩ (fun _ => .inl rfl) fun _ _ => rfl

private theorem custody_updateContext {custody : Custody} (isEnd : custody.IsLate) :
    (Calls.updateContext given : Program _).Follows Custody.protocol
      (fun later _ => later.IsLate) custody := by
  rcases isEnd with rfl | rfl
  · exact ⟨trivial, fun _ _ => .inl rfl⟩
  · exact ⟨trivial, fun _ _ => .inr rfl⟩

private theorem custody_finish {custody : Custody} (error? : Option LaunchError)
    (writes : ∀ moment, (writeTerminal { given with endTime := some moment } : Program _).Follows
      Custody.protocol (fun later _ => later.IsLate) custody) :
    (finish given error? : Program LaunchOutcome).Follows Custody.protocol Custody.IsDone
      custody := by
  apply custody_now
  intro moment
  apply Program.Follows.bind
  apply (writes moment).imp
  rintro later ⟨result, left⟩ isEnd
  cases result with
  | error error => exact isEnd.ne_refreshed
  | ok =>
    apply Program.Follows.bind
    apply (custody_updateContext isEnd).imp
    rintro last (error | value) isEnd
    · exact isEnd.ne_refreshed
    · cases error? with
      | some error => exact isEnd.ne_refreshed
      | none => exact isEnd.ne_refreshed

private theorem onward_failed (text : String) (moment : Timestamp) :
    JobExecution.Onward ({ copy.upgradeStatus .failed with
      exitStatus := ExitStatus.failed.describe text, endTime := some moment }.addFailure text)
      copy :=
  ⟨⟨rfl, rfl, rfl, rfl⟩, rfl, (BatchStatus.le_upgradeTo copy.status .failed).1⟩

private theorem custody_writeFailed {α : Type} {rest : Written JobExecution → Program α}
    (text : String) (ends : ∀ later written, later.IsLate →
      (rest written).Follows Custody.protocol Custody.IsDone later) :
    (MonadRepository.now >>= fun moment => writeTerminal ({ copy.upgradeStatus .failed with
        exitStatus := ExitStatus.failed.describe text, endTime := some moment }.addFailure text) >>=
      rest : Program α).Follows Custody.protocol Custody.IsDone (.carrying copy) := by
  apply custody_now
  intro moment
  apply Program.Follows.bind
  apply (custody_writeTerminal_carrying (onward_failed text moment)
    (terminal_of_failed copy.status)).imp
  exact fun later written isEnd => ends later written isEnd

private theorem custody_breakOff (cause : RepositoryError) :
    (breakOff copy cause : Program LaunchOutcome).Follows Custody.protocol Custody.IsDone
      (.carrying copy) := by
  apply custody_writeFailed
  rintro later ⟨result, left⟩ isEnd
  cases result with
  | error error => exact isEnd.ne_refreshed
  | ok => exact isEnd.ne_refreshed

private theorem custody_recordRejection (rejected : TaskRejected) :
    (recordRejection copy rejected >>= fun error => pure (.error error) :
      Program LaunchOutcome).Follows Custody.protocol Custody.IsDone (.carrying copy) := by
  unfold recordRejection
  simp only [bind_assoc]
  apply custody_writeFailed
  rintro later ⟨result, left⟩ isEnd
  cases result with
  | error error => exact isEnd.ne_refreshed
  | ok => exact isEnd.ne_refreshed

/-- What the attempts end with: the copy of a body that has ended well, or one to go on with. -/
private def Attempted {ε : Type} (custody : Custody) (result : Except ε Unit × JobExecution) :
    Prop :=
  match result.1 with
  | .ok () => custody = .ended result.2
  | .error _ => ∃ hand, custody = .carrying hand ∧ result.2.Noted hand

variable {settings : JobSettings}

private theorem custody_attempt (number : UInt32) (noted : given.Noted copy) :
    ((attempt settings.job number).run given : Program _).Follows Custody.protocol Attempted
      (.carrying copy) := by
  have isGiven : JobExecution.Noted { given with exitStatus := .executing } copy :=
    ⟨⟨noted.id, noted.version, noted.jobInstance, noted.parameters⟩, noted.steps, noted.status⟩
  refine ⟨isGiven, fun (ending, left) _ => ?_⟩
  have failed (note : String) : (left.addFailure note).Noted left :=
    ⟨⟨rfl, rfl, rfl, rfl⟩, rfl, rfl⟩
  cases ending with
  | finished => exact rfl
  | failed failure => exact ⟨left, rfl, failed _⟩
  | panicked message => exact ⟨left, rfl, failed _⟩

private theorem custody_attemptFrom (policy : RetryPolicy) (number : UInt32)
    (noted : given.Noted copy) :
    ((Retry.attemptFrom (fun delay => StateT.lift (MonadRepository.pause delay)) policy
        (attempt settings.job) number).run given : Program _).Follows Custody.protocol Attempted
      (.carrying copy) := by
  induction number using Retry.attemptFrom.induct policy generalizing given copy with
  | case1 number ih =>
    rw [Retry.attemptFrom, StateT.run_bind]
    apply Program.Follows.bind
    apply (custody_attempt number noted).imp
    rintro custody ⟨result, left⟩ attempted
    cases result with
    | ok value => exact attempted
    | error failure =>
      obtain ⟨hand, rfl, noted⟩ := attempted
      by_cases allowed : policy.allowsAfter number = true
      · simp only [allowed, dite_true]
        exact ⟨trivial, fun _ _ => ih allowed noted⟩
      · simp only [allowed]
        exact ⟨hand, rfl, noted⟩

private theorem exhausted_onward (recovery : Option RecoveryHandler) (failures : RetryExhausted)
    (moment : Timestamp) :
    JobExecution.Onward { (exhausted recovery copy failures).1 with endTime := some moment } copy ∧
      (exhausted recovery copy failures).1.isRunning = false := by
  have status := (BatchStatus.le_upgradeTo copy.status .failed).1
  unfold exhausted
  cases recovery <;>
    exact ⟨⟨⟨rfl, rfl, rfl, rfl⟩, rfl, status⟩, terminal_of_failed copy.status⟩

private theorem custody_run (launcher : Launcher) (starting : copy.status = .starting) :
    (launcher.run settings.job copy).Follows Custody.protocol Custody.IsDone
      (.carrying copy) := by
  apply custody_now
  intro moment
  have started : JobExecution.Onward (JobExecution.upgradeStatus
      { copy with startTime := some moment } .started) copy :=
    ⟨⟨rfl, rfl, rfl, rfl⟩, rfl, (BatchStatus.le_upgradeTo copy.status .started).1⟩
  have running : (JobExecution.upgradeStatus { copy with startTime := some moment }
      .started).isRunning = true := by
    change (copy.status.upgradeTo .started).isRunning = true
    rw [starting]
    decide
  have allowed : (Custody.carrying copy).Allows (.request (.update _)) := started
  apply Program.Follows.bind
  apply (custody_update allowed).imp
  rintro custody ⟨result, begun⟩ same
  obtain rfl : custody = .carrying begun := same.trans (if_pos running)
  cases result with
  | error cause => exact custody_breakOff cause
  | ok =>
    apply Program.Follows.bind
    apply (custody_attemptFrom launcher.policy 1 (.refl begun)).imp
    rintro custody ⟨result, left⟩ attempted
    cases result with
    | error failures =>
      obtain ⟨hand, rfl, noted⟩ := attempted
      apply custody_finish
      intro moment
      obtain ⟨further, terminal⟩ := exhausted_onward launcher.recovery failures moment
      exact custody_writeTerminal_carrying (further.trans noted.onward) terminal
    | ok =>
      obtain rfl : custody = .ended left := attempted
      apply Program.Follows.bind
      refine ⟨rfl, fun refreshed _ => ?_⟩
      obtain ⟨result, refreshed⟩ := refreshed
      cases result with
      | error cause => exact custody_breakOff cause
      | ok => exact custody_finish none custody_writeTerminal_refreshed

/-- What a launch has in hand after its claim. -/
private def Claimed (custody : Custody) : LaunchOutcome → Prop
  | .ok execution => custody = .carrying execution ∧ execution.status = .starting
  | .error _ => custody = .waiting

private theorem custody_claim (settings : JobSettings) (parameters : JobParameters) :
    (claim settings.job parameters : Program LaunchOutcome).Follows Custody.protocol Claimed
      .waiting := by
  have looks : (Calls.lastExecution settings.job.name parameters : Program _).Follows
      Custody.protocol (fun custody _ => custody = .waiting) .waiting := ⟨trivial, fun _ _ => rfl⟩
  unfold claim
  cases checkParameters settings.job parameters with
  | error error => exact rfl
  | ok =>
    apply Program.Follows.bind
    apply looks.imp
    rintro _ (error | last) rfl
    · exact rfl
    · dsimp only
      cases checkLast settings.job parameters last with
      | error error => exact rfl
      | ok =>
        refine ⟨trivial, fun created starting => ?_⟩
        cases created with
        | error error => exact rfl
        | ok execution => exact ⟨rfl, starting⟩

/-- A launch, whose run takes place unless it is rejected. -/
theorem follows_custody (launcher : Launcher) (settings : JobSettings)
    (parameters : JobParameters) (rejection : Option TaskRejected) :
    (launch settings.job parameters fun execution => match rejection with
        | some rejected => return .rejected rejected
        | none => return .ran (← launcher.run settings.job execution)).Follows
      Custody.protocol Custody.IsDone .waiting := by
  have isDone : ∀ copy, Custody.waiting ≠ .refreshed copy := by simp
  apply Program.Follows.bind
  apply (custody_claim settings parameters).imp
  intro custody outcome claimed
  cases outcome with
  | error error =>
    obtain rfl : custody = .waiting := claimed
    exact isDone
  | ok execution =>
    obtain ⟨rfl, starting⟩ := claimed
    cases rejection with
    | some rejected => exact custody_recordRejection rejected
    | none =>
      refine Program.Follows.bind (Program.Follows.bind
        ((custody_run launcher starting).imp ?_))
      exact fun custody _ isDone => isDone

end Launch

end BatchRun
