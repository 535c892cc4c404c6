import BatchRun.Proofs.Launch.Alongside
import BatchRun.Proofs.Launch.Conflicts
import BatchRun.Proofs.Repository.Mapped

/-! # Steps that are never saved

A body can put steps into its execution that it never saves. They are stored with the execution, but
nothing goes by them while it runs. The next launch looks at them only if no step has been saved
under the last execution of the instance, and then the first one counts that has not ended in a
known way. So two bodies that make the same requests leave an instance that is launched again in the
same way, as long as they leave the same first open step or a step has been saved.
-/

namespace BatchRun

/-- What a body does when it is run: the requests that it makes, each at its moment, how it ends,
and the copy that it leaves. -/
structure Activity where
  requests : List (Timestamp × Request)
  ending : BodyEnd
  left : JobExecution

namespace Activity

variable {activity other : Activity} {repository twin : Repository}

/-- The repository after the requests. -/
def play (activity : Activity) (repository : Repository) : Repository :=
  activity.requests.foldl (fun repository made => (repository.answer made.1 made.2).2) repository

/-- The same requests but for what is left out of copies in outline, such as the steps in an
execution, with the same ending. -/
structure Alike (activity other : Activity) : Prop where
  requests : List.Forall₂ (fun made another => made.2.Alike another.2) activity.requests
    other.requests
  ending : activity.ending = other.ending
  left : activity.left.outline = other.left.outline

/-- The same requests leave repositories that are the same in outline. -/
theorem Alike.play (alike : activity.Alike other) (same : repository.outline = twin.outline) :
    (activity.play repository).outline = (other.play twin).outline := by
  obtain ⟨requests, -, -⟩ := alike
  unfold Activity.play
  generalize activity.requests = made, other.requests = others at requests
  induction requests generalizing repository twin with
  | nil => exact same
  | cons first _ ih => exact ih (Repository.answer_of_outline same _ _ first)

end Activity

/-- The body that does this in the run with each number, counted from 0. -/
def Behaviour.performing (activities : Nat → Activity) : Behaviour := fun number _ repository =>
  (((activities number).ending, (activities number).left), (activities number).play repository)

private theorem Behaviour.alongside_performing {activities others : Nat → Activity}
    (alike : ∀ number, (activities number).Alike (others number)) :
    (Behaviour.performing activities).Alongside (.performing others) := by
  intro given copy _ world other same
  have numbers := alike world.invoked.length
  rw [Program.run_invoke, Program.run_invoke, ← same.invoked]
  refine ⟨⟨numbers.ending, numbers.left⟩, numbers.play same.repository, ?_⟩
  simp [same.invoked]

/-! ## The first open step -/

namespace JobExecution

variable {execution other : JobExecution}

/-- The first listed step that has not ended in a known way, in outline. -/
def openOutline? (execution : JobExecution) : Option StepExecution :=
  execution.openStep?.map StepExecution.outline

/-- The outlines of the steps decide which one is open. -/
theorem openOutline?_of_outline
    (same : execution.steps.map StepExecution.outline = other.steps.map StepExecution.outline) :
    execution.openOutline? = other.openOutline? := by
  have outlined (execution : JobExecution) : execution.openOutline? =
      (execution.steps.map StepExecution.outline).find? fun step => !step.status.isTerminal := by
    rw [List.find?_map]
    rfl
  rw [outlined, same, ← outlined]

end JobExecution

namespace Repository

variable {repository twin : Repository} {id : JobExecutionId} {stored other : JobExecution}
  {step : StepExecution} {jobName : String} {parameters : JobParameters}

/-- The step has been saved under the execution. -/
def IsSavedUnder (repository : Repository) (stored : JobExecution) (step : StepExecution) : Prop :=
  ∃ id stepId, stored.id = some id ∧ repository.steps.get? id stepId = some step

/-- Some step has been saved under the execution. -/
def HasSaved (repository : Repository) (stored : JobExecution) : Prop :=
  ∃ step, repository.IsSavedUnder stored step

/-- If steps have been saved under an execution, these are the ones that are listed. -/
theorem isSavedUnder_of_listed (saved : repository.HasSaved stored)
    (listed : step ∈ repository.listedSteps stored) : repository.IsSavedUnder stored step := by
  obtain ⟨_, id, stepId, numbered, found⟩ := saved
  rcases (mem_listedSteps numbered).1 listed with ⟨key, here⟩ | ⟨unsaved, -⟩
  · exact ⟨id, key, numbered, here⟩
  · exact nomatch (unsaved stepId).symm.trans found

private theorem listedSteps_of_not_hasSaved (unsaved : ¬ repository.HasSaved stored) :
    repository.listedSteps stored = stored.steps := by
  cases numbered : stored.id with
  | none =>
    unfold listedSteps
    rw [numbered]
    rfl
  | some id =>
    refine listedSteps_of_unsaved numbered fun stepId => ?_
    exact Option.eq_none_iff_forall_ne_some.2 fun step found =>
      unsaved ⟨step, id, stepId, numbered, found⟩

private theorem openOutline?_assembled : (repository.assembled stored).openOutline? =
    { stored with steps := repository.listedSteps stored }.openOutline? := by
  refine JobExecution.openOutline?_of_outline ?_
  change ((repository.listedSteps stored).map repository.withStepContext).map _ = _
  rw [List.map_map]
  rfl

section Same

variable (same : repository.outline = twin.outline)

include same

private theorem holds_of_outline (holds : repository.Holds jobName parameters stored) :
    ∃ other, twin.Holds jobName parameters other ∧ stored.outline = other.outline := by
  obtain ⟨known, id, found, lookup, belongs⟩ := holds
  rcases records_of_outline same id with ⟨missing, -⟩ | ⟨record, other, here, there, records⟩
  · exact nomatch missing.symm.trans lookup
  · obtain rfl := Option.some.inj (here.symm.trans lookup)
    have instances : record.jobInstance = other.jobInstance :=
      (congrArg JobExecution.jobInstance records :)
    exact ⟨other, ⟨known, id, (instance?_of_outline same).symm.trans found, there,
      instances ▸ belongs⟩, records⟩

private theorem hasSaved_of_outline (numbers : stored.id = other.id)
    (saved : repository.HasSaved stored) : twin.HasSaved other := by
  obtain ⟨step, id, stepId, numbered, found⟩ := saved
  rcases storedSteps_of_outline same id stepId with ⟨missing, -⟩ | ⟨_, another, -, there, -⟩
  · exact nomatch missing.symm.trans found
  · exact ⟨another, id, stepId, numbers ▸ numbered, there⟩

private theorem listedSteps_of_outline (numbers : stored.id = other.id)
    (saved : repository.HasSaved stored) :
    (repository.listedSteps stored).map StepExecution.outline =
      (twin.listedSteps other).map StepExecution.outline := by
  have outlined {repository : Repository} {stored : JobExecution}
      (saved : repository.HasSaved stored) : repository.outline.listedSteps stored.outline =
        (repository.listedSteps stored).map StepExecution.outline := by
    obtain ⟨step, id, stepId, numbered, found⟩ := saved
    rcases @listedSteps_mapped repository repository.outline id stored stored.outline
      StepExecution.outline rfl numbered numbered with ⟨-, listed⟩ | ⟨unsaved, -⟩
    · exact listed
    · exact nomatch (unsaved stepId).symm.trans found
  have outlines : stored.outline.id = other.outline.id := numbers
  rw [← outlined saved, ← outlined (hasSaved_of_outline same numbers saved), same]
  unfold listedSteps
  rw [outlines]
  rfl

-- The executions are read with the same first open step if a step has been saved under them or they
-- have been written with the same first open step.
private theorem openOutline?_assembled_of_outline (numbers : stored.id = other.id)
    (agree : repository.HasSaved stored ∨ stored.openOutline? = other.openOutline?) :
    (repository.assembled stored).openOutline? = (twin.assembled other).openOutline? := by
  rw [openOutline?_assembled, openOutline?_assembled]
  by_cases saved : repository.HasSaved stored
  · exact JobExecution.openOutline?_of_outline (listedSteps_of_outline same numbers saved)
  · have alsoUnsaved : ¬ twin.HasSaved other := fun there =>
      saved (hasSaved_of_outline same.symm numbers.symm there)
    rw [listedSteps_of_not_hasSaved saved, listedSteps_of_not_hasSaved alsoUnsaved]
    exact agree.resolve_left saved

end Same

end Repository

namespace Launch

variable {repository twin : Repository} {settings : JobSettings} {parameters : JobParameters}
  {error : LaunchError}

/-! ## What a launch makes of the last execution -/

private theorem checkSteps_of_openOutline {last other : JobExecution} (jobName : String)
    (opens : last.openOutline? = other.openOutline?) :
    checkSteps jobName last.steps = checkSteps jobName other.steps := by
  have outlined (last : JobExecution) :
      checkSteps jobName last.steps = checkSteps jobName last.openOutline?.toList := by
    unfold JobExecution.openOutline?
    cases first : last.openStep? with
    | none =>
      have settled := JobExecution.openStep?_eq_none_iff.1 first
      rw [← List.append_nil last.steps, checkSteps_of_settled jobName settled]
      rfl
    | some step =>
      obtain ⟨isOpen, before, rest, listed, settled⟩ := JobExecution.openStep?_eq_some_iff.1 first
      rw [listed, checkSteps_of_settled jobName settled]
      rcases BatchStatus.isTerminal_eq_false_iff.1 isOpen with running | unknown
      · exact (if_pos running).trans (if_pos running).symm
      · have idle : ¬ step.status.isRunning = true := by simp [unknown, BatchStatus.isRunning]
        rw [checkSteps, if_neg idle, if_pos unknown]
        exact ((if_neg idle).trans (if_pos unknown)).symm
  rw [outlined, opens, ← outlined]

/-- A launch that finds these executions looks at no steps, at saved ones, or at lists with the same
first open step. -/
def StepsAgree (repository : Repository) (settings : JobSettings) (stored other : JobExecution) :
    Prop :=
  stored.status = .completed ∨ settings.restartable = false ∨ repository.HasSaved stored ∨
    stored.openOutline? = other.openOutline?

private theorem checkLast_of_outline {stored other : JobExecution}
    (same : repository.outline = twin.outline) (records : stored.outline = other.outline)
    (agree : StepsAgree repository settings stored other) :
    checkLast settings.job parameters (some (repository.assembled stored)) =
      checkLast settings.job parameters (some (twin.assembled other)) := by
  have statuses : (repository.assembled stored).status = (twin.assembled other).status :=
    (congrArg JobExecution.status records :)
  have numbers : stored.id = other.id := (congrArg JobExecution.id records :)
  simp only [checkLast]
  rw [statuses]
  rcases agree with complete | once | steps
  · have completed : (twin.assembled other).status = .completed := statuses.symm.trans complete
    rw [if_pos completed, if_pos completed]
  · have single : (!settings.job.restartable) = true := by simp [JobSettings.job, once]
    rw [if_pos single, if_pos single]
  · have opens := Repository.openOutline?_assembled_of_outline same numbers steps
    rw [checkSteps_of_openOutline _ opens]

-- Two consistent repositories with the same outline and steps that agree refuse a launch for the
-- same reason, or neither refuses it.
private theorem refusal?_of_stepsAgree (consistent : repository.Consistent)
    (twinConsistent : twin.Consistent) (same : repository.outline = twin.outline)
    (agree : ∀ stored other, repository.Holds settings.name parameters stored →
      twin.Holds settings.name parameters other → StepsAgree repository settings stored other) :
    refusal? repository settings parameters = refusal? twin settings parameters := by
  refine refusal?_of_outline same ?_
  unfold look
  rcases Repository.lastExecution_cases consistent.executions.toNumbered settings.name parameters
    with ⟨read, nothing⟩ | ⟨stored, -, -, holds, -⟩
  · rcases Repository.lastExecution_cases twinConsistent.executions.toNumbered settings.name
      parameters with ⟨alsoRead, -⟩ | ⟨other, -, -, holds, -⟩
    · rw [read, alsoRead]
    · obtain ⟨stored, alsoHolds, -⟩ := Repository.holds_of_outline same.symm holds
      exact absurd alsoHolds (nothing stored)
  · obtain ⟨other, alsoHolds, records⟩ := Repository.holds_of_outline same holds
    rw [consistent.lastExecution_of_holds holds, twinConsistent.lastExecution_of_holds alsoHolds]
    exact checkLast_of_outline same records (agree stored other holds alsoHolds)

/-! ## The next launch -/

/-- Whenever and by whomever it is made, a launch gets a new execution for its instance and hands it
over. -/
def Grants (repository : Repository) (settings : JobSettings) (parameters : JobParameters) : Prop :=
  ∀ (dispatch : JobExecution → Program Dispatched) (behaviour : Behaviour) (world : World),
    world.repository = repository → ∃ now execution created,
      repository.createExecution now settings.name parameters =
        .ok (execution, created.repository) ∧
      created.invoked = world.invoked ∧
      (launch settings.job parameters dispatch).run behaviour world =
        (handOver dispatch execution).run behaviour created

/-- Whenever and by whomever it is made, a launch fails with this error. It leaves the repository as
it is, and the body is not invoked. -/
def Refuses (repository : Repository) (settings : JobSettings) (parameters : JobParameters)
    (error : LaunchError) : Prop :=
  ∀ (dispatch : JobExecution → Program Dispatched) (behaviour : Behaviour) (world : World),
    world.repository = repository → ∃ after,
      (launch settings.job parameters dispatch).run behaviour world = (.error error, after) ∧
      after.repository = repository ∧ after.invoked = world.invoked

private theorem grants_of_refusal? (granted : refusal? repository settings parameters = none) :
    Grants repository settings parameters := by
  rintro dispatch behaviour world rfl
  rcases run_claim_of_refusal behaviour settings parameters world with
    ⟨error, _, refused, -⟩ | ⟨now, execution, created, -, ran, made, unused⟩
  · exact nomatch refused.symm.trans granted
  · refine ⟨now, execution, created, made, unused, ?_⟩
    rw [run_launch, ran]

private theorem refuses_of_refusal?
    (refused : refusal? repository settings parameters = some error) :
    Refuses repository settings parameters error := by
  rintro dispatch behaviour world rfl
  rcases run_claim_of_refusal behaviour settings parameters world with
    ⟨other, after, alsoRefused, ran, kept, unused⟩ | ⟨_, _, _, granted, -⟩
  · obtain rfl : error = other := Option.some.inj (refused.symm.trans alsoRefused)
    refine ⟨after, ?_, kept, unused⟩
    rw [run_launch, ran]
  · exact nomatch refused.symm.trans granted

private theorem not_grants_of_refuses (refuses : Refuses repository settings parameters error) :
    ¬ Grants repository settings parameters := by
  intro grants
  let world : World := ⟨repository, fun _ => ⟨0, 0⟩, 0, []⟩
  obtain ⟨_, execution, created, -, -, granted⟩ :=
    grants (fun _ => return .detached) .idle world rfl
  obtain ⟨after, refused, -⟩ := refuses (fun _ => return .detached) .idle world rfl
  exact nomatch congrArg Prod.fst (granted.symm.trans refused)

-- A launch is refused for its parameters, because the instance is complete, or for what is reported
-- of the last execution.
private theorem reported_of_refuses {stored : JobExecution} (consistent : repository.Consistent)
    (holds : repository.Holds settings.name parameters stored)
    (refuses : Refuses repository settings parameters error) :
    (∃ cause, error = .parametersInvalid cause) ∨
    (∃ key, error = .instanceComplete settings.name key) ∨
    Reported settings (repository.assembled stored) error := by
  let world : World := ⟨repository, fun _ => ⟨0, 0⟩, 0, []⟩
  obtain ⟨after, launched, -⟩ := refuses (fun _ => return .detached) .idle world rfl
  rw [run_launch] at launched
  rcases @run_claim_cases world .idle settings parameters consistent.executions.toNumbered with
    ⟨-, execution, created, -, ran⟩ | ⟨rejected, other, last, ran, -⟩
  · rw [ran] at launched
    exact nomatch congrArg Prod.fst launched
  · rw [ran] at launched
    obtain rfl : other = error := Except.error.inj (congrArg Prod.fst launched)
    have isError {cause : LaunchError} {last : World}
        (alsoRan : (claim settings.job parameters).run .idle world = (.error cause, last)) :
        other = cause := Except.error.inj (congrArg Prod.fst (ran.symm.trans alsoRan))
    rcases checkParameters_cases settings parameters with
      ⟨accepted, accepts⟩ | ⟨cause, invalid, -⟩
    · by_cases complete : stored.status = .completed
      · have checked : checkLast settings.job parameters (some (repository.assembled stored)) =
            .error (.instanceComplete settings.name parameters.identityKey) := if_pos complete
        have read : world.repository.lastExecution settings.name parameters = _ :=
          consistent.lastExecution_of_holds holds
        exact .inr (.inl ⟨_, isError (run_claim_of_last accepted read checked)⟩)
      · rcases @run_claim_reported settings parameters world stored .idle consistent accepts holds
          complete with admits | ⟨cause, _, alsoRan, -, -, reported⟩
        · exact absurd admits rejected
        · exact .inr (.inr (isError alsoRan ▸ reported))
    · exact .inl ⟨cause, isError (run_claim_of_parameters invalid)⟩

private theorem saved_of_reported {stored : JobExecution} (saved : repository.HasSaved stored)
    (reported : Reported settings (repository.assembled stored) error) :
    (∀ jobName id, error = .alreadyRunning jobName id → stored.isRunning = true ∨
      ∃ step, repository.IsSavedUnder stored step ∧ step.status.isRunning = true) ∧
    ∀ stepName, error = .restart (.unknownStepStatus stepName) →
      ∃ step, repository.IsSavedUnder stored step ∧ step.stepName = stepName ∧
        step.status = .unknown := by
  have isSaved {step : StepExecution}
      (first : (repository.assembled stored).openStep? = some step) :
      ∃ record, repository.IsSavedUnder stored record ∧
        repository.withStepContext record = step := by
    obtain ⟨record, listed, rfl⟩ := List.mem_map.1 (List.mem_of_find?_eq_some first)
    exact ⟨record, Repository.isSavedUnder_of_listed saved listed, rfl⟩
  cases reported with
  | once => exact ⟨nofun, nofun⟩
  | runningStep _ first running =>
    obtain ⟨record, under, rfl⟩ := isSaved first
    exact ⟨fun _ _ _ => .inr ⟨record, under, running⟩, nofun⟩
  | unknownStep _ first unknown =>
    obtain ⟨record, under, rfl⟩ := isSaved first
    refine ⟨nofun, fun stepName same => ⟨record, under, ?_, unknown⟩⟩
    injection same with reason
    injection reason
  | running _ _ _ running => exact ⟨fun _ _ _ => .inl running, nofun⟩
  | unknown => exact ⟨nofun, nofun⟩

/-- After two launches whose bodies have made the same requests, but for the steps in executions,
the next launch is granted or refused in the same way, if the steps agree that it looks at. Once a
step has been saved under the last execution, only saved steps make it fail. -/
theorem unsaved_steps_bar_only_if_none_saved {activities others : Nat → Activity}
    (alike : ∀ number, (activities number).Alike (others number)) (launcher : Launcher)
    (settings : JobSettings) (parameters : JobParameters) (rejection : Option TaskRejected)
    (repository : Repository) (clock otherClock : Nat → Timestamp) {first second : Session}
    (ended : ((Call.launch launcher settings parameters rejection).program.run
      (.performing activities) ⟨repository, clock, 0, []⟩).2.repository = first.repository)
    (alsoEnded : ((Call.launch launcher settings parameters rejection).program.run
      (.performing others) ⟨repository, otherClock, 0, []⟩).2.repository = second.repository)
    (reaches : Session.Reaches Session.AnyEdit .start first) (few : first.Few)
    (alsoReaches : Session.Reaches Session.AnyEdit .start second) (alsoFew : second.Few)
    (next : JobSettings) (given : JobParameters) :
    ((∀ stored other, first.repository.Holds next.name given stored →
        second.repository.Holds next.name given other →
        StepsAgree first.repository next stored other) →
      (Grants first.repository next given ∧ Grants second.repository next given) ∨
      ∃ error, Refuses first.repository next given error ∧
        Refuses second.repository next given error) ∧
    ∀ stored error, first.repository.Holds next.name given stored →
      first.repository.HasSaved stored → Refuses first.repository next given error →
      (∀ jobName id, error = .alreadyRunning jobName id → stored.isRunning = true ∨
        ∃ step, first.repository.IsSavedUnder stored step ∧ step.status.isRunning = true) ∧
      ∀ stepName, error = .restart (.unknownStepStatus stepName) →
        ∃ step, first.repository.IsSavedUnder stored step ∧ step.stepName = stepName ∧
          step.status = .unknown := by
  have consistent := (reaches.sound few).traced.consistent
  have alsoConsistent := (alsoReaches.sound alsoFew).traced.consistent
  have same : first.repository.outline = second.repository.outline := by
    rw [← ended, ← alsoEnded]
    exact (launch_of_outline (Behaviour.alongside_performing alike) launcher settings parameters
      rejection ⟨repository, clock, 0, []⟩ ⟨repository, otherClock, 0, []⟩ rfl rfl).repository
  refine ⟨fun agree => ?_, fun stored error holds saved refuses => ?_⟩
  · have decided := refusal?_of_stepsAgree consistent alsoConsistent same agree
    cases refused : refusal? first.repository next given with
    | none => exact .inl ⟨grants_of_refusal? refused, grants_of_refusal? (decided ▸ refused)⟩
    | some error =>
      exact .inr ⟨error, refuses_of_refusal? refused, refuses_of_refusal? (decided ▸ refused)⟩
  · rcases reported_of_refuses consistent holds refuses with
      ⟨cause, rfl⟩ | ⟨key, rfl⟩ | reported
    · exact ⟨nofun, nofun⟩
    · exact ⟨nofun, nofun⟩
    · exact saved_of_reported saved reported

/-! ## A body that fails -/

section Failing

open Session (Reaches AnyEdit opened firstCopy firstStep)

/-- A step that no client saves. -/
private def strayStep : StepExecution := .start ⟨0, 0⟩ "store" ⟨1⟩ ⟨1⟩

private def startedCopy : JobExecution :=
  { firstCopy with startTime := some ⟨0, 0⟩, status := .started }

/-- The execution as the body leaves it, with these steps. -/
private def leftWith (steps : List StepExecution) : JobExecution :=
  { startedCopy with version := 2, exitStatus := .executing, steps }

/-- The body saves its step or does not, puts steps into its execution, and fails. -/
private def failingWith (saves : Bool) (steps : List StepExecution) : Nat → Activity := fun _ =>
  ⟨if saves then [(⟨0, 0⟩, .addStep firstStep)] else [], .failed ⟨"lost", []⟩, leftWith steps⟩

private def failedCopy (steps : List StepExecution) : JobExecution :=
  { (leftWith steps).addFailure "attempt 1: lost" with
    status := .failed, exitStatus := .failed, endTime := some ⟨0, 0⟩ }

/-- The books when the body has made its requests. -/
private def worked (saves : Bool) : Session :=
  let begun := ((opened.holdStep firstStep).holdStep strayStep).hold startedCopy
    |>.call ⟨0, 0⟩ (.update startedCopy)
  if saves then begun.call ⟨0, 0⟩ (.addStep firstStep) else begun

/-- The books as the launch leaves them. -/
private def failedWith (saves : Bool) (steps : List StepExecution) : Session :=
  let failed := failedCopy steps
  (((worked saves).hold failed).call ⟨0, 0⟩ (.update failed)).call ⟨0, 0⟩
    (.updateContext { failed with version := 3, lastUpdated := some ⟨0, 0⟩ })

private theorem alike_failingWith (saves : Bool) (steps others : List StepExecution)
    (number : Nat) : (failingWith saves steps number).Alike (failingWith saves others number) :=
  ⟨List.forall₂_same.2 fun made _ => .same made.2, rfl, rfl⟩

private theorem attempts_once (settings : JobSettings) (execution : JobExecution) :
    (Run.attempts settings.job .once execution : Program _) =
      Run.attempt settings.job 1 execution >>= fun tried =>
        Program.done (tried.1.mapError (RetryExhausted.mk 1), tried.2) := by
  unfold Run.attempts Retry.execute
  rw [Retry.attemptFrom, StateT.run_bind]
  refine congrArg (Run.attempt settings.job 1 execution >>= ·) (funext fun tried => ?_)
  obtain ⟨result, left⟩ := tried
  cases result <;> rfl

private theorem run_failingWith (saves : Bool) (steps : List StepExecution) :
    ((Call.launch ⟨.once, some fun _ _ => .failed⟩ ⟨"import", true, none⟩ .empty none).program.run
      (.performing (failingWith saves steps)) ⟨.empty, fun _ => ⟨0, 0⟩, 0, []⟩).2.repository =
      (failedWith saves steps).repository := by
  simp only [Call.program, Launch.launch, Launcher.run, Run.run, attempts_once]
  cases saves <;> rfl

private theorem reaches_worked (saves : Bool) : Reaches AnyEdit .start (worked saves) := by
  have drafts : Reaches AnyEdit .start ((opened.holdStep firstStep).holdStep strayStep) :=
    (Session.reaches_opened.startStep ⟨0, 0⟩ Session.firstCopy_mem rfl).startStep ⟨0, 0⟩
      Session.firstCopy_mem rfl
  have begun := (drafts.edit startedCopy Session.firstCopy_mem ⟨rfl, rfl, rfl, rfl⟩
    (fun _ member => absurd member List.not_mem_nil) trivial).call ⟨0, 0⟩ (.update startedCopy)
    (List.mem_of_getElem? (i := 1) rfl)
  cases saves with
  | false => exact begun
  | true => exact begun.call ⟨0, 0⟩ (.addStep firstStep) (List.mem_of_getElem? (i := 0) rfl)

private theorem reaches_failedWith (saves : Bool) {steps : List StepExecution}
    (inHand : ∀ step ∈ steps, step = strayStep) :
    Reaches AnyEdit .start (failedWith saves steps) := by
  have last {copies : List JobExecution} {copy : JobExecution} : copy ∈ copies ++ [copy] :=
    List.mem_append_right _ (List.mem_singleton.2 rfl)
  have written : { startedCopy with version := 2, lastUpdated := some ⟨0, 0⟩ } ∈
      (worked saves).executions := by
    cases saves <;> exact List.mem_of_getElem? (i := 2) rfl
  have stray : strayStep ∈ (worked saves).steps := by
    cases saves <;> exact List.mem_of_getElem? (i := 1) rfl
  have failed := ((reaches_worked saves).edit (failedCopy steps) written ⟨rfl, rfl, rfl, rfl⟩
    (fun step member => inHand step member ▸ stray) trivial).call ⟨0, 0⟩ (.update _) last
  refine failed.call ⟨0, 0⟩ (.updateContext _) ?_
  cases saves <;> exact last

private theorem few_failedWith (saves : Bool) (steps : List StepExecution) :
    (failedWith saves steps).Few := by
  cases saves with
  | false => exact (by decide : 4 < 2 ^ 64)
  | true => exact (by decide : 5 < 2 ^ 64)

/-- The saved step bars the next launch, with or without another one that is not saved. -/
theorem unsaved_steps_bar_only_if_none_saved_strayStep :
    ∃ stored error step,
      Refuses (failedWith true []).repository ⟨"import", true, none⟩ .empty error ∧
      Refuses (failedWith true [strayStep]).repository ⟨"import", true, none⟩ .empty error ∧
      (failedWith true []).repository.Holds "import" .empty stored ∧
      (failedWith true []).repository.IsSavedUnder stored step ∧ step.status.isRunning = true := by
  have reaches := @reaches_failedWith true [] fun _ member => nomatch member
  have alsoReaches := @reaches_failedWith true [strayStep] fun _ => List.mem_singleton.1
  have few := few_failedWith true []
  obtain ⟨same, blamed⟩ := unsaved_steps_bar_only_if_none_saved
    (alike_failingWith true [] [strayStep]) ⟨.once, some fun _ _ => .failed⟩ ⟨"import", true, none⟩
    .empty none .empty (fun _ => ⟨0, 0⟩) (fun _ => ⟨0, 0⟩) (run_failingWith true [])
    (run_failingWith true [strayStep]) reaches few alsoReaches (few_failedWith true [strayStep])
    ⟨"import", true, none⟩ .empty
  let stored : JobExecution :=
    { failedCopy [] with version := 3, lastUpdated := some ⟨0, 0⟩ }
  have holds : (failedWith true []).repository.Holds "import" .empty stored :=
    ⟨_, ⟨1⟩, rfl, rfl, rfl⟩
  have saved : (failedWith true []).repository.HasSaved stored :=
    ⟨Session.firstStepCopy, ⟨1⟩, ⟨1⟩, rfl, rfl⟩
  have running : Refuses (failedWith true []).repository ⟨"import", true, none⟩ .empty
      (.alreadyRunning "import" ⟨1⟩) := refuses_of_refusal? rfl
  obtain ended | ⟨step, under, stillRunning⟩ := (blamed stored _ holds saved running).1 _ _ rfl
  · contradiction
  have agree (record other : JobExecution)
      (recorded : (failedWith true []).repository.Holds "import" .empty record)
      (_ : (failedWith true [strayStep]).repository.Holds "import" .empty other) :
      StepsAgree (failedWith true []).repository ⟨"import", true, none⟩ record other := by
    obtain rfl := (reaches.sound few).traced.consistent.eq_of_holds holds recorded
    exact .inr (.inr (.inl saved))
  rcases same agree with ⟨grants, -⟩ | ⟨error, refuses, alsoRefuses⟩
  · exact absurd grants (not_grants_of_refuses running)
  · exact ⟨stored, error, step, refuses, alsoRefuses, holds, under, stillRunning⟩

/-- Without a saved step, one that was never saved can make the next launch fail. -/
theorem unsaved_step_bars :
    ∃ (activities others : Nat → Activity) (step : StepExecution) (first second : Session),
      step.id = none ∧
      (∀ number, (activities number).requests = [] ∧ (activities number).left.steps = [] ∧
        others number = { activities number with
          left := { (activities number).left with steps := [step] } }) ∧
      Reaches AnyEdit .start first ∧ first.Few ∧ Reaches AnyEdit .start second ∧ second.Few ∧
      ((Call.launch ⟨.once, some fun _ _ => .failed⟩ ⟨"import", true, none⟩ .empty none).program.run
        (.performing activities) ⟨.empty, fun _ => ⟨0, 0⟩, 0, []⟩).2.repository =
          first.repository ∧
      ((Call.launch ⟨.once, some fun _ _ => .failed⟩ ⟨"import", true, none⟩ .empty none).program.run
        (.performing others) ⟨.empty, fun _ => ⟨0, 0⟩, 0, []⟩).2.repository =
          second.repository ∧
      (∀ stored saved, ¬ second.repository.IsSavedUnder stored saved) ∧
      Grants first.repository ⟨"import", true, none⟩ .empty ∧
      Refuses second.repository ⟨"import", true, none⟩ .empty (.alreadyRunning "import" ⟨1⟩) := by
  refine ⟨failingWith false [], failingWith false [strayStep], strayStep, failedWith false [],
    failedWith false [strayStep], rfl, fun _ => ⟨rfl, rfl, rfl⟩,
    reaches_failedWith false (fun _ member => nomatch member), few_failedWith ..,
    reaches_failedWith false (fun _ => List.mem_singleton.1), few_failedWith ..,
    run_failingWith .., run_failingWith .., ?_, grants_of_refusal? rfl, refuses_of_refusal? rfl⟩
  rintro stored saved ⟨id, stepId, -, found⟩
  exact nomatch found

end Failing

end Launch

end BatchRun
