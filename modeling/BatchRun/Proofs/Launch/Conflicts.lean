import BatchRun.Proofs.Clients.Stores
import BatchRun.Proofs.Repository.Claims

/-! # Which conflict a launch reports

A launch that meets an unfinished execution of its instance is refused, and what it is refused with
depends on what is looked at first. A job that may not run again is told only that. Otherwise the
steps are looked at in the order in which they are listed, up to the first one that has not ended in
a known way. The status of the execution itself comes last, and so a running execution is reported
as such only if no step in front of it in that order has an unknown end.
-/

namespace BatchRun

/-- The first listed step that has not ended in a known way. -/
def JobExecution.openStep? (execution : JobExecution) : Option StepExecution :=
  execution.steps.find? fun step => !step.status.isTerminal

namespace JobExecution

variable {execution : JobExecution} {step : StepExecution}

/-- No step is open if all have ended. -/
theorem openStep?_eq_none_iff :
    execution.openStep? = none ↔ ∀ step ∈ execution.steps, step.status.isTerminal = true := by
  simp [openStep?]

/-- The first open step comes after steps that have ended. -/
theorem openStep?_eq_some_iff :
    execution.openStep? = some step ↔ step.status.isTerminal = false ∧
      ∃ before rest, execution.steps = before ++ step :: rest ∧
        ∀ earlier ∈ before, earlier.status.isTerminal = true := by
  simp [openStep?, List.find?_eq_some_iff_append]

end JobExecution

namespace Launch

variable {repository : Repository} {settings : JobSettings} {parameters : JobParameters}
  {last : JobExecution} {error : LaunchError}

/-- What a launch is refused with because of the last execution of its instance. -/
inductive Reported (settings : JobSettings) (last : JobExecution) : LaunchError → Prop
  | once (once : settings.restartable = false) : Reported settings last (.restart .notRestartable)
  | runningStep {step : StepExecution} (again : settings.restartable = true)
      (first : last.openStep? = some step) (running : step.status.isRunning = true) :
      Reported settings last (.alreadyRunning settings.name step.jobExecutionId)
  | unknownStep {step : StepExecution} (again : settings.restartable = true)
      (first : last.openStep? = some step) (unknown : step.status = .unknown) :
      Reported settings last (.restart (.unknownStepStatus step.stepName))
  | running {id : JobExecutionId} (again : settings.restartable = true)
      (settled : last.openStep? = none) (numbered : last.id = some id)
      (running : last.isRunning = true) :
      Reported settings last (.alreadyRunning settings.name id)
  | unknown {id : JobExecutionId} (again : settings.restartable = true)
      (settled : last.openStep? = none) (numbered : last.id = some id)
      (unknown : last.status = .unknown) :
      Reported settings last (.restart (.unknownStatus id))

namespace Reported

variable (reported : Reported settings last error)

include reported

private theorem notRestartable_iff :
    error = .restart .notRestartable ↔ settings.restartable = false := by
  cases reported with
  | once once => simp [once]
  | runningStep again | unknownStep again | running again | unknown again => simp [again]

private theorem alreadyRunning_iff : (∃ id, error = .alreadyRunning settings.name id) ↔
    settings.restartable = true ∧
      ((∃ step, last.openStep? = some step ∧ step.status.isRunning = true) ∨
        last.openStep? = none ∧ last.isRunning = true) := by
  cases reported with
  | once once => simp [once]
  | runningStep again first running => simp [again, first, running]
  | unknownStep again first unknown => simp [again, first, unknown, BatchStatus.isRunning]
  | running again settled numbered running => simp [again, settled, running]
  | unknown again settled numbered unknown =>
    simp [again, settled, unknown, JobExecution.isRunning, BatchStatus.isRunning]

private theorem unknownStepStatus_iff :
    (∃ stepName, error = .restart (.unknownStepStatus stepName)) ↔
    settings.restartable = true ∧
      ∃ step, last.openStep? = some step ∧ step.status = .unknown := by
  cases reported with
  | once once => simp [once]
  | runningStep again first running =>
    simp only [again, first, true_and, Option.some.injEq, exists_eq_left']
    simpa using fun unknown => by simp [unknown, BatchStatus.isRunning] at running
  | unknownStep again first unknown => simp [again, first, unknown]
  | running again settled | unknown again settled => simp [again, settled]

end Reported

/-! ## The order of the checks -/

/-- Steps that have ended are passed over. -/
theorem checkSteps_of_settled (jobName : String) {before : List StepExecution}
    (settled : ∀ step ∈ before, step.status.isTerminal = true) (rest : List StepExecution) :
    checkSteps jobName (before ++ rest) = checkSteps jobName rest := by
  induction before with
  | nil => rfl
  | cons step before ih =>
    obtain ⟨ended, others⟩ := List.forall_mem_cons.1 settled
    have idle := BatchStatus.isTerminal_eq_true_iff.1 ended
    rw [List.cons_append, checkSteps, idle.1, if_neg Bool.false_ne_true, if_neg idle.2, ih others]

private theorem checkSteps_reported (again : settings.restartable = true) (last : JobExecution) :
    (last.openStep? = none ∧ checkSteps settings.name last.steps = .ok ()) ∨
    ∃ error, checkSteps settings.name last.steps = .error error ∧ Reported settings last error := by
  cases first : last.openStep? with
  | none =>
    have passed := checkSteps_of_settled settings.name
      (JobExecution.openStep?_eq_none_iff.1 first) []
    rw [List.append_nil] at passed
    exact .inl ⟨rfl, passed⟩
  | some step =>
    obtain ⟨isOpen, before, rest, listed, settled⟩ := JobExecution.openStep?_eq_some_iff.1 first
    rw [listed, checkSteps_of_settled _ settled, checkSteps]
    rcases BatchStatus.isTerminal_eq_false_iff.1 isOpen with running | unknown
    · rw [if_pos running]
      exact .inr ⟨_, rfl, .runningStep again first running⟩
    · rw [if_neg (by simp [unknown, BatchStatus.isRunning]), if_pos unknown]
      exact .inr ⟨_, rfl, .unknownStep again first unknown⟩

private theorem checkLast_reported (settings : JobSettings) (parameters : JobParameters)
    (last : JobExecution) (incomplete : last.status ≠ .completed) :
    (settings.restartable = true ∧ last.openStep? = none ∧
      checkLast settings.job parameters (some last) = .ok ()) ∨
    ∃ error, checkLast settings.job parameters (some last) = .error error ∧
      Reported settings last error := by
  rw [checkLast, if_neg incomplete]
  by_cases again : settings.restartable = true
  · rw [if_neg (by simp [JobSettings.job, again])]
    rcases checkSteps_reported again last with ⟨settled, passed⟩ | ⟨error, refused, reported⟩
    · exact .inl ⟨again, settled, passed⟩
    · exact .inr ⟨error, refused, reported⟩
  · have once : settings.restartable = false := by simpa using again
    exact .inr ⟨_, if_pos (by simp [JobSettings.job, once]), .once once⟩

private theorem checkParameters_of_accepts (accepts : settings.Accepts parameters) :
    checkParameters settings.job parameters = .ok () := by
  rcases checkParameters_cases settings parameters with ⟨accepted, -⟩ | ⟨error, -, rejects⟩
  · exact accepted
  · exact absurd accepts rejects

/-! ## The launch -/

section Claim

variable {world : World} {stored : JobExecution}

/-- The stored execution admits the launch, or it decides on the error. -/
theorem run_claim_reported (behaviour : Behaviour)
    (consistent : world.repository.Consistent) (accepts : settings.Accepts parameters)
    (holds : world.repository.Holds settings.name parameters stored)
    (incomplete : stored.status ≠ .completed) :
    Admits world.repository settings parameters ∨
    ∃ error after, (claim settings.job parameters).run behaviour world = (.error error, after) ∧
      after.repository = world.repository ∧ after.invoked = world.invoked ∧
      Reported settings (world.repository.assembled stored) error := by
  have read := consistent.lastExecution_of_holds holds
  have accepted := checkParameters_of_accepts accepts
  rcases checkLast_reported settings parameters (world.repository.assembled stored)
    incomplete with ⟨again, settled, allowed⟩ | ⟨error, refused, reported⟩
  · rcases consistent.claim_of_holds holds with ⟨claimable, -⟩ | ⟨error, bars, refused⟩
    · refine .inl ((admits_iff_of_holds holds read).2 ⟨accepts, ?_, again, fun step member => ?_⟩)
      · exact fun other otherHolds => consistent.eq_of_holds holds otherHolds ▸ claimable
      · exact BatchStatus.isTerminal_eq_true_iff.1
          (JobExecution.openStep?_eq_none_iff.1 settled step member)
    · refine .inr ⟨_, _, run_claim_of_checks accepted read allowed
        (Repository.createExecution_of_refused refused), rfl, rfl, ?_⟩
      cases bars with
      | running numbered running => exact .running again settled numbered running
      | unknown numbered unknown => exact .unknown again settled numbered unknown
      | completed completed => exact absurd completed incomplete
  · exact .inr ⟨error, _, run_claim_of_last accepted read refused, rfl, rfl, reported⟩

end Claim

/-- A launch that meets an execution that has not completed is admitted or refused with the error
that the job and the first open step decide on, and only without such a step the execution itself.
So a running execution or step is reported as such if the job may run again and every step listed
before it has ended in a known way, and otherwise the launch is refused for another reason. -/
theorem refused_for_first_open_step {session : Session} {settings : JobSettings}
    {parameters : JobParameters} {stored : JobExecution} {world : World}
    (reaches : Session.Reaches Session.AnyEdit .start session) (few : session.Few)
    (same : world.repository = session.repository) (accepts : settings.Accepts parameters)
    (holds : world.repository.Holds settings.name parameters stored)
    (incomplete : stored.status ≠ .completed) (behaviour : Behaviour)
    (dispatch : JobExecution → Program Dispatched) :
    let last := world.repository.assembled stored
    world.repository.lastExecution settings.name parameters = .ok (some last) ∧
    (Admits world.repository settings parameters ↔ settings.restartable = true ∧
      last.openStep? = none ∧ stored.status ∈ BatchStatus.claimable) ∧
    (¬ Admits world.repository settings parameters → ∃ error after,
      (launch settings.job parameters dispatch).run behaviour world = (.error error, after) ∧
      after.repository = world.repository ∧ after.invoked = world.invoked ∧
      Reported settings last error ∧
      (error = .restart .notRestartable ↔ settings.restartable = false) ∧
      ((∃ id, error = .alreadyRunning settings.name id) ↔ settings.restartable = true ∧
        ((∃ step, last.openStep? = some step ∧ step.status.isRunning = true) ∨
          last.openStep? = none ∧ stored.isRunning = true)) ∧
      ((∃ stepName, error = .restart (.unknownStepStatus stepName)) ↔
        settings.restartable = true ∧
          ∃ step, last.openStep? = some step ∧ step.status = .unknown)) := by
  have consistent : world.repository.Consistent := same ▸ (reaches.sound few).traced.consistent
  have read := consistent.lastExecution_of_holds holds
  refine ⟨read, ?_, fun rejected => ?_⟩
  · rw [admits_iff_of_holds holds read, JobExecution.openStep?_eq_none_iff]
    simp only [BatchStatus.isTerminal_eq_true_iff]
    constructor
    · rintro ⟨-, claimable, again, settled⟩
      exact ⟨again, settled, claimable stored holds⟩
    · rintro ⟨again, settled, claimable⟩
      refine ⟨accepts, fun other otherHolds => ?_, again, settled⟩
      exact consistent.eq_of_holds holds otherHolds ▸ claimable
  · rcases run_claim_reported behaviour consistent accepts holds incomplete with
      admits | ⟨error, after, ran, kept, unused, reported⟩
    · exact absurd admits rejected
    · rw [run_launch, ran]
      exact ⟨error, after, rfl, kept, unused, reported, reported.notRestartable_iff,
        reported.alreadyRunning_iff, reported.unknownStepStatus_iff⟩

/-- The second step of the first execution as a client leaves it when it has lost sight of it. -/
def lostStep : StepExecution :=
  { StepExecution.start ⟨0, 0⟩ "store" ⟨1⟩ ⟨1⟩ with
    id := some ⟨2⟩, version := 1, lastUpdated := some ⟨0, 0⟩, status := .unknown }

/-- An execution has failed while its first step is running, and its second step is lost. -/
def lostBehindRunning : Session :=
  let second := StepExecution.start ⟨0, 0⟩ "store" ⟨1⟩ ⟨1⟩
  (Session.opened.holdStep Session.firstStep).call ⟨0, 0⟩ (.addStep Session.firstStep)
    |>.holdStep second
    |>.call ⟨0, 0⟩ (.addStep second)
    |>.holdStep lostStep
    |>.call ⟨0, 0⟩ (.updateStep lostStep)
    |>.hold (Session.firstCopy.upgradeStatus .failed)
    |>.call ⟨0, 0⟩ (.update (Session.firstCopy.upgradeStatus .failed))

private theorem reaches_lostBehindRunning :
    Session.Reaches Session.AnyEdit .start lostBehindRunning := by
  have held : Session.firstCopy ∈ ((Session.opened.holdStep Session.firstStep).call ⟨0, 0⟩
      (.addStep Session.firstStep)).executions := List.mem_append_left _ Session.firstCopy_mem
  have last {α : Type} {values : List α} {value : α} : value ∈ values ++ [value] :=
    List.mem_append_right _ (List.mem_singleton.2 rfl)
  have first : Session.Reaches Session.AnyEdit .start _ := Session.reaches_firstStep
  have second := (first.startStep ⟨0, 0⟩ held rfl).call ⟨0, 0⟩
    (.addStep (StepExecution.start ⟨0, 0⟩ "store" ⟨1⟩ ⟨1⟩)) last
  have same : lostStep.EditOf { lostStep with status := .starting } := ⟨rfl, rfl, rfl, rfl, rfl⟩
  have lost : Session.Reaches Session.AnyEdit .start _ := second.tail (.editStep last same)
  have written := lost.call ⟨0, 0⟩ (.updateStep lostStep) last
  have failed := written.edit (Session.firstCopy.upgradeStatus .failed)
    (List.mem_append_left _ (List.mem_append_left _ held)) ⟨rfl, rfl, rfl, rfl⟩
    (fun _ member => absurd member List.not_mem_nil) trivial
  exact failed.call ⟨0, 0⟩ (.update (Session.firstCopy.upgradeStatus .failed)) last

private theorem few_lostBehindRunning : lostBehindRunning.Few := (by decide : 5 < 2 ^ 64)

/-- The launch is told of the lost step although the other one is running. -/
theorem refused_for_first_open_step_lostStep :
    ∃ stored, lostBehindRunning.repository.Holds "import" .empty stored ∧
      stored.status ≠ .completed ∧
      (∃ step ∈ (lostBehindRunning.repository.assembled stored).steps,
        step.status.isRunning = true) ∧
      ∃ stepName after,
        (launch (JobSettings.job ⟨"import", true, none⟩) .empty fun _ => return .detached).run .idle
          ⟨lostBehindRunning.repository, fun _ => ⟨0, 0⟩, 0, []⟩ =
        (.error (.restart (.unknownStepStatus stepName)), after) := by
  let stored : JobExecution := { Session.firstCopy.upgradeStatus .failed with version := 2 }
  have holds : lostBehindRunning.repository.Holds "import" .empty stored := ⟨_, ⟨1⟩, rfl, rfl, rfl⟩
  have listed : (lostBehindRunning.repository.assembled stored).steps =
    [{ lostStep with version := 2 }, Session.firstStepCopy] := rfl
  have first : (lostBehindRunning.repository.assembled stored).openStep? =
    some { lostStep with version := 2 } := rfl
  let settings : JobSettings := ⟨"import", true, none⟩
  let world : World := ⟨lostBehindRunning.repository, fun _ => ⟨0, 0⟩, 0, []⟩
  have same : world.repository = lostBehindRunning.repository := rfl
  have accepts : settings.Accepts .empty := nofun
  obtain ⟨-, admits, refused⟩ := refused_for_first_open_step reaches_lostBehindRunning
    few_lostBehindRunning same accepts holds (by decide) .idle fun _ => return .detached
  have rejected := mt admits.1 fun allowed => nomatch first.symm.trans allowed.2.1
  obtain ⟨error, after, ran, -, -, -, -, -, unknown⟩ := refused rejected
  obtain ⟨stepName, rfl⟩ := unknown.2 ⟨rfl, _, first, rfl⟩
  exact ⟨stored, holds, by decide, ⟨Session.firstStepCopy, by simp [listed], rfl⟩, stepName, after,
    ran⟩

end Launch

end BatchRun
