import BatchRun.Proofs.Program
import BatchRun.Proofs.Store.Executions

/-! # The course of a launch

A launch claims at most one execution and works on one copy of it. From copy to copy it passes on
what a write, a refreshment or the body has left, and it never touches the context itself. When the
outcome has been written, the context of that last copy is written too, unless no body has run.
-/

namespace BatchRun

/-- How far a claimed execution has been taken. -/
inductive Stage
  /-- Its outcome has not been written. -/
  | running
  /-- Its outcome has been written, and its context has not. -/
  | ended
  | over
deriving DecidableEq

/-- What a launch has done with the execution that it has claimed. -/
structure Course where
  /-- The execution as it was claimed. -/
  claimed : JobExecution
  /-- The copy that the launch has in hand. -/
  copy : JobExecution
  /-- The runs of the body, the first one first. -/
  bodyRuns : List BodyRun
  stage : Stage

namespace Course

/-- A launch that has just claimed an execution. -/
def claim (execution : JobExecution) : Course := ⟨execution, execution, [], .running⟩

/-- The context in which the last run of the body has left the execution, or the one to start
with. -/
def context (course : Course) : ExecutionContext :=
  (course.bodyRuns.getLast?.map (·.left.context)).getD course.claimed.context

/-- With another copy in hand. -/
def withCopy (course : Course) (copy : JobExecution) : Course := { course with copy }

/-- Where a launch is when the outcome has been written. -/
def outcomeWritten (course : Course) : Course :=
  { course with stage := if course.bodyRuns.isEmpty then .over else .ended }

/-- After a run of the body. -/
def ran (course : Course) (given left : JobExecution) : Course :=
  { course with copy := left, bodyRuns := course.bodyRuns ++ [⟨given, left⟩] }

/-- The course after an answer. -/
def after (course : Option Course) : (action : Action) → action.Answer → Option Course
  | .request (.createExecution ..), .ok execution => some (claim execution)
  | .request (.update copy), ⟨.ok (), written⟩ => course.map fun course =>
    if copy.isRunning then course.withCopy written else (course.withCopy written).outcomeWritten
  | .request (.synchronize _), refreshed => course.map (·.withCopy refreshed.copy)
  | .request (.updateContext _), _ => course.map fun course => { course with stage := .over }
  | .invoke execution, (_, left) => course.map (·.ran execution left)
  | _, _ => course

/-- The copy of the execution that a launch has in hand at this stage, with its context. -/
def Holds (course : Option Course) (stage : Stage) (copy : JobExecution) : Prop :=
  ∃ known, course = some known ∧ known.stage = stage ∧ copy.SameRecord known.copy ∧
    copy.context = known.copy.context

theorem not_holds_none {stage : Stage} {copy : JobExecution} : ¬ Holds none stage copy := by
  rintro ⟨known, absent, -⟩
  contradiction

/-- The same while the execution runs, with its status as well. -/
def Carries (course : Option Course) (copy : JobExecution) : Prop :=
  Holds course .running copy ∧ ∀ known, course = some known → copy.status = known.copy.status

/-- What a launch of this job asks for. -/
def Allows (jobName : String) (parameters : JobParameters) (course : Option Course) :
    Action → Prop
  | .request (.lastExecution ..) | .now | .pause _ => True
  | .request (.createExecution name given) => course = none ∧ name = jobName ∧ given = parameters
  | .request (.update copy) => Holds course .running copy
  | .request (.synchronize copy) | .invoke copy => Carries course copy
  | .request (.updateContext copy) => Holds course .ended copy
  | .request _ => False

/-- The answers to be relied on: a new execution is numbered and starting, it can be written and
refreshed up to its end, and a body does not replace it by another one. -/
def Expects (_ : Option Course) : (action : Action) → action.Answer → Prop
  | .request (.createExecution ..), .ok execution =>
    execution.status = .starting ∧ execution.id ≠ none
  | .request (.update copy), written | .request (.synchronize copy), written =>
    written.result = .ok () ∧ written.copy.SameRecord copy
  | .invoke execution, (_, left) => left.SameRecord execution
  | _, _ => True

/-- How launches of this job go. -/
def protocol (jobName : String) (parameters : JobParameters) : Protocol (Option Course) :=
  ⟨Allows jobName parameters, Expects, after⟩

/-- Nothing has been claimed, or all has been written. -/
def IsOver (course : Option Course) : Prop := ∀ known, course = some known → known.stage = .over

/-! ## What belongs together in a course -/

variable {known later : Course}

/-- The context that is filed for the execution, by what has been done with it. -/
def filed (known : Course) : ExecutionContext :=
  if known.stage = .over then known.context else known.claimed.context

/-- The copy in hand belongs to what has been claimed, and it has the context that the body has left
last, as the body got the one to start with first. -/
structure Orderly (known : Course) : Prop where
  sameRecord : known.copy.SameRecord known.claimed
  context : known.copy.context = known.context
  first : ∀ run, known.bodyRuns.head? = some run → run.given.context = known.claimed.context

theorem Orderly.claim (execution : JobExecution) : (Course.claim execution).Orderly :=
  ⟨.refl execution, rfl, fun _ absent => nomatch absent⟩

/-- What belongs together goes on to do so. -/
structure Keeps (known later : Course) : Prop where
  claimed : later.claimed = known.claimed
  orderly : known.Orderly → later.Orderly

theorem Keeps.refl (known : Course) : known.Keeps known := ⟨rfl, id⟩

/-- What is over keeps its claim. -/
theorem Keeps.over (known : Course) : known.Keeps { known with stage := .over } :=
  ⟨rfl, fun orderly => ⟨orderly.sameRecord, orderly.context, orderly.first⟩⟩

/-- What a launch makes of its course as long as it does not write the context. -/
structure Works (known later : Course) : Prop extends Keeps known later where
  filed : later.filed = known.filed
  settled : known.stage ≠ .running → later = known

namespace Works

theorem refl (known : Course) : known.Works known := ⟨.refl known, rfl, fun _ => rfl⟩

variable {copy written : JobExecution} (running : known.stage = .running)
  (same : written.SameRecord known.copy)

include running same

/-- To go on with another copy is to work on the execution. -/
theorem withCopy (context : written.context = known.copy.context) :
    known.Works (known.withCopy written) where
  claimed := rfl
  orderly orderly :=
    ⟨same.trans orderly.sameRecord, context.trans orderly.context, orderly.first⟩
  filed := rfl
  settled ended := absurd running ended

/-- If no body has run, the context to start with is still the right one. -/
theorem outcomeWritten (context : written.context = known.copy.context) :
    known.Works (known.withCopy written).outcomeWritten where
  claimed := rfl
  orderly orderly :=
    ⟨same.trans orderly.sameRecord, context.trans orderly.context, orderly.first⟩
  filed := by
    unfold Course.filed Course.outcomeWritten Course.withCopy
    rw [running]
    cases runs : known.bodyRuns with
    | nil => simp [Course.context]
    | cons first rest => rfl
  settled ended := absurd running ended

/-- So is to run its body. -/
theorem ran {given : JobExecution} (context : given.context = known.copy.context) :
    known.Works (known.ran given written) where
  claimed := rfl
  orderly orderly := by
    refine ⟨same.trans orderly.sameRecord, by simp [Course.context, Course.ran], ?_⟩
    intro run isFirst
    unfold Course.ran at isFirst
    cases runs : known.bodyRuns with
    | nil =>
      rw [runs] at isFirst
      obtain rfl := Option.some.inj isFirst
      have inHand := orderly.context
      simp only [Course.context, runs] at inHand
      exact context.trans inHand
    | cons first rest =>
      rw [runs] at isFirst
      exact orderly.first run (by rw [runs]; exact isFirst)
  filed := by
    unfold Course.filed Course.ran
    simp [running]
  settled ended := absurd running ended

end Works

end Course

/-- What a program within a launch does can be looked at on its own. -/
theorem inside_launch {α β γ δ ε : Type} {first second : Program α} {run : α → Program β}
    {dispatch : β → Program γ} {launch : γ → Program δ} {call : δ → Program ε}
    (same : first = second) :
    (((first.andThen run).andThen dispatch).andThen launch).andThen call =
      (((second.andThen run).andThen dispatch).andThen launch).andThen call := by
  rw [same]

namespace Launch

open Run

variable {jobName : String} {parameters : JobParameters} {copy : JobExecution} {known : Course}

private theorem follows_now {α : Type} {Final : Option Course → α → Prop} {course : Option Course}
    {rest : Timestamp → Program α}
    (next : ∀ moment, (rest moment).Follows (Course.protocol jobName parameters) Final course) :
    (MonadRepository.now >>= rest).Follows (Course.protocol jobName parameters) Final course :=
  ⟨trivial, fun moment _ => next moment⟩

/-- Up to the end every write succeeds, and a terminal one is the end. -/
theorem follows_update (running : known.stage = .running) (same : copy.SameRecord known.copy)
    (context : copy.context = known.copy.context) :
    (Calls.update copy : Program _).Follows (Course.protocol jobName parameters)
      (fun course written => written.result = .ok () ∧ written.copy.SameRecord copy ∧
        course = some (if copy.isRunning then known.withCopy written.copy
          else (known.withCopy written.copy).outcomeWritten))
      (some known) := by
  refine ⟨⟨known, rfl, running, same, context⟩, fun written expected => ?_⟩
  obtain ⟨result, left⟩ := written
  obtain ⟨rfl, sameLeft⟩ := expected
  exact ⟨rfl, sameLeft, rfl⟩

private theorem follows_writeTerminal (running : known.stage = .running)
    (same : copy.SameRecord known.copy) (context : copy.context = known.copy.context)
    (terminal : copy.isRunning = false) :
    (writeTerminal copy : Program _).Follows (Course.protocol jobName parameters)
      (fun course written => written.result = .ok () ∧
        course = some (known.withCopy written.copy).outcomeWritten) (some known) := by
  apply Program.Follows.bind
  apply (follows_update running same context).imp
  rintro course written ⟨result, sameCopy, ends⟩
  simp only [result]
  refine ⟨result, ?_⟩
  rw [ends, terminal]
  rfl

/-- A run writes the outcome and then the context of the same copy. -/
theorem follows_finish (error? : Option LaunchError) (running : known.stage = .running)
    (bodyRuns : known.bodyRuns ≠ []) (same : copy.SameRecord known.copy)
    (context : copy.context = known.copy.context) (terminal : copy.isRunning = false) :
    (finish copy error? : Program LaunchOutcome).Follows (Course.protocol jobName parameters)
      (fun course _ => Course.IsOver course) (some known) := by
  apply follows_now
  intro moment
  apply Program.Follows.bind
  have stamped : JobExecution.SameRecord { copy with endTime := some moment } known.copy := same
  apply (follows_writeTerminal running stamped context terminal).imp
  rintro _ written ⟨result, rfl⟩
  simp only [result]
  have ended : (known.withCopy written.copy).outcomeWritten.stage = .ended := by
    simp [Course.outcomeWritten, Course.withCopy, bodyRuns]
  refine ⟨⟨_, rfl, ended, .refl _, rfl⟩, fun answer _ => ?_⟩
  have isOver : Course.IsOver
      (some { (known.withCopy written.copy).outcomeWritten with stage := .over }) := by
    rintro other same
    rw [← Option.some.inj same]
  cases answer with
  | error error => exact isOver
  | ok =>
    cases error? with
    | none => exact isOver
    | some error => exact isOver

/-- What fails has ended. -/
theorem terminal_of_failed (status : BatchStatus) :
    (status.upgradeTo .failed).isRunning = false := by
  cases status <;> decide

private theorem terminal_of_completed (status : BatchStatus) :
    (status.upgradeTo .completed).isRunning = false := by
  cases status <;> decide

/-- What is rejected has no other context than the one it was to start with. -/
theorem follows_recordRejection (rejected : TaskRejected) (running : known.stage = .running)
    (bodyRuns : known.bodyRuns = []) (same : copy.SameRecord known.copy)
    (context : copy.context = known.copy.context) :
    (recordRejection copy rejected : Program LaunchError).Follows
      (Course.protocol jobName parameters) (fun course _ => Course.IsOver course)
      (some known) := by
  apply follows_now
  intro moment
  apply Program.Follows.bind
  have described : ({ copy.upgradeStatus .failed with
      exitStatus := ExitStatus.failed.describe rejected.message, endTime := some moment }
        |>.addFailure rejected.message).SameRecord known.copy := same
  apply (follows_writeTerminal running described context (terminal_of_failed copy.status)).imp
  rintro _ written ⟨result, rfl⟩
  simp only [result]
  intro other same
  rw [← Option.some.inj same]
  simp [Course.outcomeWritten, Course.withCopy, bodyRuns]

variable {settings : JobSettings} {execution : JobExecution}

private theorem carries (running : known.stage = .running) (same : copy.SameRecord known.copy)
    (context : copy.context = known.copy.context) (status : copy.status = known.copy.status) :
    Course.Carries (some known) copy := by
  refine ⟨⟨known, rfl, running, same, context⟩, ?_⟩
  rintro _ ⟨⟩
  exact status

private theorem follows_attempt (number : UInt32) (running : known.stage = .running)
    (same : execution.SameRecord known.copy) (context : execution.context = known.copy.context)
    (status : execution.status = known.copy.status) :
    ((attempt settings.job number).run execution : Program _).Follows
      (Course.protocol jobName parameters)
      (fun course result => ∃ later, course = some later ∧ later.stage = .running ∧
        later.bodyRuns ≠ [] ∧ result.2.SameRecord later.copy ∧
        result.2.context = later.copy.context ∧ result.2.status = later.copy.status)
      (some known) := by
  refine ⟨carries running same context status, fun (ending, left) _ => ?_⟩
  have went (result : JobExecution) (kept : result.SameRecord left)
      (sameContext : result.context = left.context) (sameStatus : result.status = left.status) :
      ∃ later, some (known.ran { execution with exitStatus := .executing } left) = some later ∧
        later.stage = .running ∧ later.bodyRuns ≠ [] ∧ result.SameRecord later.copy ∧
        result.context = later.copy.context ∧ result.status = later.copy.status :=
    ⟨_, rfl, running, by simp [Course.ran], kept, sameContext, sameStatus⟩
  cases failed : ending.failure? with
  | none =>
    simp only [Program.andThen, failed]
    exact went _ (.refl _) rfl rfl
  | some failure =>
    simp only [Program.andThen, failed]
    exact went _ (.refl _) rfl rfl

private theorem follows_attemptFrom (policy : RetryPolicy) (number : UInt32)
    (running : known.stage = .running) (same : execution.SameRecord known.copy)
    (context : execution.context = known.copy.context)
    (status : execution.status = known.copy.status) :
    ((Retry.attemptFrom (fun delay => StateT.lift (MonadRepository.pause delay)) policy
        (attempt settings.job) number).run execution : Program _).Follows
      (Course.protocol jobName parameters)
      (fun course result => ∃ later, course = some later ∧ later.stage = .running ∧
        later.bodyRuns ≠ [] ∧ result.2.SameRecord later.copy ∧
        result.2.context = later.copy.context ∧ result.2.status = later.copy.status)
      (some known) := by
  induction number using Retry.attemptFrom.induct policy generalizing execution known with
  | case1 number ih =>
    rw [Retry.attemptFrom, StateT.run_bind]
    apply Program.Follows.bind
    apply (follows_attempt number running same context status).imp
    rintro _ ⟨result, left⟩ ⟨later, rfl, still, bodyRuns, kept, sameContext, sameStatus⟩
    cases result with
    | ok value => exact ⟨later, rfl, still, bodyRuns, kept, sameContext, sameStatus⟩
    | error failure =>
      by_cases allowed : policy.allowsAfter number = true
      · simp only [allowed, dite_true]
        exact ⟨trivial, fun _ _ => ih allowed still kept sameContext sameStatus⟩
      · simp only [allowed]
        exact ⟨later, rfl, still, bodyRuns, kept, sameContext, sameStatus⟩

private theorem follows_synchronize (running : known.stage = .running)
    (same : copy.SameRecord known.copy) (context : copy.context = known.copy.context)
    (status : copy.status = known.copy.status) :
    (Calls.synchronize copy : Program _).Follows (Course.protocol jobName parameters)
      (fun course refreshed => refreshed.result = .ok () ∧
        course = some (known.withCopy refreshed.copy)) (some known) := by
  refine ⟨carries running same context status, fun refreshed expected => ?_⟩
  exact ⟨expected.1, rfl⟩

/-- The attempts begin with a run of the body. If it ends well they are over, and if it fails and
the policy allows no other they are over as well. -/
theorem attempts_first (settings : JobSettings) (policy : RetryPolicy) (execution : JobExecution) :
    ∃ next, (attempts settings.job policy execution : Program _) =
        .act (.invoke { execution with exitStatus := .executing }) next ∧
      (∀ left, next (.finished, left) = .done (.ok (), left)) ∧
      ∀ failure left, policy.allowsAfter 1 = false → next (.failed failure, left) =
        .done (.error ⟨1, failure⟩, left.addFailure
          ("attempt " ++ toString (1 : UInt32) ++ ": " ++ failure.chain)) := by
  unfold attempts Retry.execute
  rw [Retry.attemptFrom]
  refine ⟨_, rfl, fun left => rfl, fun failure left once => ?_⟩
  simp only [Program.andThen, BodyEnd.failure?, once]
  rfl

private theorem succeeded_ends (copy : JobExecution) :
    (succeeded copy).SameRecord copy ∧ (succeeded copy).context = copy.context ∧
      (succeeded copy).isRunning = false := by
  unfold succeeded
  split
  · exact ⟨.refl _, rfl, rfl⟩
  · exact ⟨.refl _, rfl, terminal_of_completed copy.status⟩

private theorem exhausted_ends (recovery : Option RecoveryHandler) (copy : JobExecution)
    (failures : RetryExhausted) :
    (exhausted recovery copy failures).1.SameRecord copy ∧
      (exhausted recovery copy failures).1.context = copy.context ∧
      (exhausted recovery copy failures).1.isRunning = false := by
  unfold exhausted
  cases recovery <;> exact ⟨.refl _, rfl, terminal_of_failed copy.status⟩

/-- A run takes its execution to the end. -/
theorem follows_run (launcher : Launcher) (running : known.stage = .running)
    (same : execution.SameRecord known.copy) (context : execution.context = known.copy.context)
    (starting : execution.status = .starting) :
    (launcher.run settings.job execution).Follows (Course.protocol jobName parameters)
      (fun course _ => Course.IsOver course) (some known) := by
  apply follows_now
  intro moment
  apply Program.Follows.bind
  have started : (JobExecution.upgradeStatus { execution with startTime := some moment }
      .started).SameRecord known.copy := same
  have isRunning : (JobExecution.upgradeStatus { execution with startTime := some moment }
      .started).isRunning = true := by
    change (execution.status.upgradeTo .started).isRunning = true
    rw [starting]
    decide
  apply (follows_update running started context).imp
  rintro course written ⟨result, -, goesOn⟩
  rw [if_pos isRunning] at goesOn
  rw [goesOn]
  simp only [result]
  apply Program.Follows.bind
  have begun : (known.withCopy written.copy).stage = .running := running
  apply (follows_attemptFrom launcher.policy 1 begun (.refl _) rfl rfl).imp
  rintro _ ⟨attempted, left⟩ ⟨later, rfl, still, bodyRuns, sameLeft, sameContext, sameStatus⟩
  cases attempted with
  | ok =>
    apply Program.Follows.bind
    apply (follows_synchronize still sameLeft sameContext sameStatus).imp
    rintro _ refreshed ⟨refreshedResult, rfl⟩
    simp only [refreshedResult]
    obtain ⟨sameEnd, contextEnd, terminal⟩ := succeeded_ends refreshed.copy
    have stillRefreshed : (later.withCopy refreshed.copy).stage = .running := still
    exact follows_finish none stillRefreshed bodyRuns sameEnd contextEnd terminal
  | error failures =>
    obtain ⟨sameEnd, contextEnd, terminal⟩ := exhausted_ends launcher.recovery left failures
    exact follows_finish _ still bodyRuns (sameEnd.trans sameLeft)
      (contextEnd.trans sameContext) terminal

/-- A claim leads to a course of its own, or there is none. -/
theorem follows_claim :
    (claim settings.job parameters : Program LaunchOutcome).Follows
      (Course.protocol settings.name parameters)
      (fun course outcome => match outcome with
        | .ok execution => course = some (.claim execution) ∧ execution.status = .starting
        | .error _ => course = none) none := by
  unfold claim
  cases checkParameters settings.job parameters with
  | error error => exact rfl
  | ok =>
    refine ⟨trivial, fun last _ => ?_⟩
    cases last with
    | error error => exact rfl
    | ok last =>
      change (match checkLast settings.job parameters last with
        | .error error => _ | .ok _ => _ : Program _).Follows _ _ _
      cases checkLast settings.job parameters last with
      | error error => exact rfl
      | ok =>
        refine ⟨⟨rfl, rfl, rfl⟩, fun created starting => ?_⟩
        cases created with
        | error error => exact rfl
        | ok execution => exact ⟨rfl, starting.1⟩

/-- A launch, whose run takes place unless it is rejected. -/
theorem follows_course (launcher : Launcher) (settings : JobSettings) (parameters : JobParameters)
    (rejection : Option TaskRejected) :
    (launch settings.job parameters fun execution => match rejection with
        | some rejected => return .rejected rejected
        | none => return .ran (← launcher.run settings.job execution)).Follows
      (Course.protocol settings.name parameters) (fun course _ => Course.IsOver course) none := by
  apply Program.Follows.bind
  apply follows_claim.imp
  intro course outcome claimed
  cases outcome with
  | error error =>
    subst claimed
    exact fun _ same => nomatch same
  | ok execution =>
    obtain ⟨rfl, starting⟩ := claimed
    have begun : (Course.claim execution).stage = .running := rfl
    cases rejection with
    | some rejected =>
      change (recordRejection execution rejected >>= fun error => pure (.error error) :
        Program LaunchOutcome).Follows _ _ _
      apply Program.Follows.bind
      apply (follows_recordRejection rejected begun rfl (.refl _) rfl).imp
      exact fun course _ isOver => isOver
    | none =>
      refine Program.Follows.bind (Program.Follows.bind
        ((follows_run launcher begun (.refl _) rfl starting).imp ?_))
      exact fun course _ isOver => isOver

end Launch

end BatchRun
