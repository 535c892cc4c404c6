import BatchRun.Proofs.Repository.Consistency
import BatchRun.Proofs.Sequential

/-! # Admission of launches

Whether a launch gives its instance a new execution depends on the parameters, the stored execution
of the instance and its steps. The launch looks at the steps and the repository at the execution;
together they let through exactly what `Launch.Admits` describes. A launch that is not let through
leaves the repository as it was, and the body is not invoked.
-/

namespace BatchRun

/-- The errors by which a launch is refused. -/
def LaunchError.IsRefusal : LaunchError → Prop
  | parametersInvalid _ | alreadyRunning .. | restart _ | instanceComplete .. => True
  | _ => False

theorem BatchStatus.isTerminal_eq_false_iff {status : BatchStatus} :
    status.isTerminal = false ↔ status.isRunning = true ∨ status = .unknown := by
  cases status <;> decide

theorem BatchStatus.isTerminal_eq_true_iff {status : BatchStatus} :
    status.isTerminal = true ↔ status.isRunning = false ∧ status ≠ .unknown := by
  cases status <;> decide

namespace Repository

variable {repository : Repository} {jobName : String} {parameters : JobParameters}
  {stored : JobExecution}

/-- A record that is stored for a job and its parameters. -/
def Holds (repository : Repository) (jobName : String) (parameters : JobParameters)
    (stored : JobExecution) : Prop :=
  ∃ known id, repository.instance? jobName parameters = some known ∧
    repository.executions.get? id = some stored ∧ stored.jobInstance.id = known.id

private theorem claim_of_unknown (absent : repository.instance? jobName parameters = none) :
    ∃ claimed, repository.claim jobName parameters = .ok claimed := by
  have unknown : repository.instances.get? jobName parameters = none := absent
  unfold claim InstanceStore.create
  rw [absent, unknown]
  exact ⟨_, rfl⟩

private theorem claim_of_check {known : JobInstance} {result : Except RepositoryError Unit}
    (found : repository.instance? jobName parameters = some known)
    (checked : checkClaim known parameters (repository.executions.ofInstance known.id) = result) :
    (result = .ok () ∧ ∃ claimed, repository.claim jobName parameters = .ok claimed) ∨
    ∃ error, result = .error error ∧ repository.claim jobName parameters = .error error := by
  unfold claim
  simp only [found, checked]
  cases result with
  | error error => exact .inr ⟨error, rfl, rfl⟩
  | ok => exact .inl ⟨rfl, _, rfl⟩

/-- The last execution is read with its context and steps, if a record is stored. -/
theorem lastExecution_cases (wellNumbered : repository.executions.Numbered) (jobName : String)
    (parameters : JobParameters) :
    (repository.lastExecution jobName parameters = .ok none ∧
      ∀ stored, ¬ repository.Holds jobName parameters stored) ∨
    ∃ stored context steps, repository.Holds jobName parameters stored ∧
      repository.lastExecution jobName parameters = .ok (some { stored with context, steps }) := by
  unfold lastExecution
  cases found : repository.instance? jobName parameters with
  | none =>
    refine .inl ⟨rfl, ?_⟩
    rintro stored ⟨known, id, present, -⟩
    rw [found] at present
    contradiction
  | some known =>
    rcases repository.executions.last?_cases known.id with ⟨none, last⟩ | ⟨stored, member, last⟩
    · refine .inl ⟨by simp only [last]; rfl, ?_⟩
      rintro stored ⟨sameKnown, id, present, lookup, belongs⟩
      obtain rfl := Option.some.inj (found.symm.trans present)
      have member := ExecutionStore.mem_ofInstance.2 ⟨⟨id, lookup⟩, belongs⟩
      rw [none] at member
      exact absurd member List.not_mem_nil
    · obtain ⟨⟨id, lookup⟩, belongs⟩ := ExecutionStore.mem_ofInstance.1 member
      obtain ⟨context, steps, completed⟩ :=
        repository.complete_of_numbered (wellNumbered.numbered lookup)
      refine .inr ⟨stored, context, steps, ⟨known, id, found, lookup, belongs⟩, ?_⟩
      simp only [last, completeOption, completed]
      rfl

/-- The statuses of the stored records decide on the claim. -/
theorem claim_decided (wellNumbered : repository.executions.Numbered) (jobName : String)
    (parameters : JobParameters) :
    ((∀ stored, repository.Holds jobName parameters stored →
        stored.status ∈ BatchStatus.claimable) ∧
      ∃ claimed, repository.claim jobName parameters = .ok claimed) ∨
    ((∃ stored, repository.Holds jobName parameters stored ∧
        stored.status ∉ BatchStatus.claimable) ∧
      ∃ error, repository.claim jobName parameters = .error error ∧
        (LaunchError.ofRepository error).IsRefusal) := by
  cases found : repository.instance? jobName parameters with
  | none =>
    refine .inl ⟨?_, claim_of_unknown found⟩
    rintro stored ⟨known, id, present, -⟩
    rw [found] at present
    contradiction
  | some known =>
    rcases checkClaim_cases known parameters wellNumbered.id_ne_none_of_mem with
      ⟨checked, claimable⟩ | ⟨error, checked, ⟨stored, member, unclaimable⟩, kind⟩
    · rcases claim_of_check found checked with ⟨-, granted⟩ | ⟨error, refused, -⟩
      · refine .inl ⟨?_, granted⟩
        rintro stored ⟨sameKnown, id, present, lookup, belongs⟩
        obtain rfl := Option.some.inj (found.symm.trans present)
        exact claimable stored (ExecutionStore.mem_ofInstance.2 ⟨⟨id, lookup⟩, belongs⟩)
      · contradiction
    · obtain ⟨⟨id, lookup⟩, belongs⟩ := ExecutionStore.mem_ofInstance.1 member
      rcases claim_of_check found checked with ⟨granted, -⟩ | ⟨other, refused, claimed⟩
      · contradiction
      · obtain rfl := Except.error.inj refused
        refine .inr ⟨⟨stored, ⟨known, id, found, lookup, belongs⟩, unclaimable⟩, error, claimed, ?_⟩
        rcases kind with ⟨number, rfl | rfl⟩ | rfl <;> exact trivial

/-- A consistent repository holds one record for a job and its parameters at most. -/
theorem Consistent.eq_of_holds {other : JobExecution} (consistent : repository.Consistent)
    (holds : repository.Holds jobName parameters stored)
    (otherHolds : repository.Holds jobName parameters other) : other = stored := by
  obtain ⟨known, id, found, lookup, belongs⟩ := holds
  obtain ⟨sameKnown, otherId, sameFound, otherLookup, otherBelongs⟩ := otherHolds
  obtain rfl := Option.some.inj (found.symm.trans sameFound)
  obtain rfl := consistent.executions.single lookup otherLookup (belongs.trans otherBelongs.symm)
  exact Option.some.inj (otherLookup.symm.trans lookup)

end Repository

/-- The job takes these parameters. -/
def JobSettings.Accepts (settings : JobSettings) (parameters : JobParameters) : Prop :=
  ∀ validate, settings.validator = some validate → validate parameters = .ok ()

namespace Launch

variable {repository : Repository} {settings : JobSettings} {parameters : JobParameters}
  {behaviour : Behaviour} {world : World}

/-- What a launch takes to give its instance a new execution: parameters that the job accepts, and
either no stored execution or only such as may be followed by another, of a job that may run again,
and no step of the last one that is running or whose end is unknown. -/
def Admits (repository : Repository) (settings : JobSettings) (parameters : JobParameters) : Prop :=
  settings.Accepts parameters ∧
    ((∀ stored, ¬ repository.Holds settings.name parameters stored) ∨
      ∃ last, repository.lastExecution settings.name parameters = .ok (some last) ∧
        (∀ stored, repository.Holds settings.name parameters stored →
          stored.status ∈ BatchStatus.claimable) ∧
        settings.restartable = true ∧
        ∀ step ∈ last.steps, step.status.isRunning = false ∧ step.status ≠ .unknown)

/-! ## The checks of the launch -/

/-- Parameters are accepted or refused with the reason of the validator. -/
theorem checkParameters_cases (settings : JobSettings) (parameters : JobParameters) :
    (checkParameters settings.job parameters = .ok () ∧ settings.Accepts parameters) ∨
    ∃ error, checkParameters settings.job parameters = .error (.parametersInvalid error) ∧
      ¬ settings.Accepts parameters := by
  unfold checkParameters JobSettings.Accepts JobSettings.job
  cases settings.validator with
  | none => exact .inl ⟨rfl, fun _ absent => nomatch absent⟩
  | some validate =>
    cases result : validate parameters with
    | ok => exact .inl ⟨by simp [result], fun _ same => Option.some.inj same ▸ result⟩
    | error error =>
      refine .inr ⟨error, by simp [result], fun accepts => ?_⟩
      have accepted := accepts validate rfl
      rw [result] at accepted
      contradiction

private theorem checkSteps_cases (jobName : String) (steps : List StepExecution) :
    (checkSteps jobName steps = .ok () ∧
      ∀ step ∈ steps, step.status.isRunning = false ∧ step.status ≠ .unknown) ∨
    ∃ error, checkSteps jobName steps = .error error ∧ error.IsRefusal ∧
      ¬ ∀ step ∈ steps, step.status.isRunning = false ∧ step.status ≠ .unknown := by
  induction steps with
  | nil => exact .inl ⟨rfl, fun _ member => nomatch member⟩
  | cons step rest ih =>
    unfold checkSteps
    by_cases running : step.status.isRunning = true
    · refine .inr ⟨_, if_pos running, trivial, fun settled => ?_⟩
      rw [(settled step (List.mem_cons_self ..)).1] at running
      contradiction
    · rw [if_neg running]
      by_cases unknown : step.status = .unknown
      · refine .inr ⟨_, if_pos unknown, trivial, fun settled => ?_⟩
        exact (settled step (List.mem_cons_self ..)).2 unknown
      · rw [if_neg unknown]
        rcases ih with ⟨checked, settled⟩ | ⟨error, refused, kind, unsettled⟩
        · refine .inl ⟨checked, List.forall_mem_cons.2 ⟨⟨?_, unknown⟩, settled⟩⟩
          simpa using running
        · exact .inr ⟨error, refused, kind, fun settled =>
            unsettled (List.forall_mem_cons.1 settled).2⟩

/-- The last execution lets the launch through, or it tells why not. -/
theorem checkLast_cases (settings : JobSettings) (parameters : JobParameters)
    (last : JobExecution) :
    (checkLast settings.job parameters (some last) = .ok () ∧ last.status ≠ .completed ∧
      settings.restartable = true ∧
      ∀ step ∈ last.steps, step.status.isRunning = false ∧ step.status ≠ .unknown) ∨
    ∃ error, checkLast settings.job parameters (some last) = .error error ∧ error.IsRefusal ∧
      ¬ (last.status ≠ .completed ∧ settings.restartable = true ∧
        ∀ step ∈ last.steps, step.status.isRunning = false ∧ step.status ≠ .unknown) := by
  simp only [checkLast]
  by_cases complete : last.status = .completed
  · exact .inr ⟨_, if_pos complete, trivial, fun allowed => allowed.1 complete⟩
  · rw [if_neg complete]
    by_cases again : settings.restartable = true
    · rw [if_neg (by simp [JobSettings.job, again])]
      rcases checkSteps_cases settings.job.name last.steps with
        ⟨checked, settled⟩ | ⟨error, refused, kind, unsettled⟩
      · exact .inl ⟨checked, complete, again, settled⟩
      · exact .inr ⟨error, refused, kind, fun allowed => unsettled allowed.2.2⟩
    · refine .inr ⟨_, if_pos (by simpa [JobSettings.job] using again), trivial, ?_⟩
      exact fun allowed => again allowed.2.1

/-! ## The claim of the launch -/

theorem run_claim_of_parameters {error : LaunchError}
    (refused : checkParameters settings.job parameters = .error error) :
    (claim settings.job parameters).run behaviour world = (.error error, world) := by
  unfold claim
  rw [refused]
  rfl

theorem run_claim_of_last {last : Option JobExecution} {error : LaunchError}
    (accepted : checkParameters settings.job parameters = .ok ())
    (read : world.repository.lastExecution settings.name parameters = .ok last)
    (refused : checkLast settings.job parameters last = .error error) :
    (claim settings.job parameters).run behaviour world =
      (.error error, world.tick world.repository) := by
  have last : world.repository.lastExecution settings.job.name parameters = .ok last := read
  unfold claim
  rw [accepted, Program.run_bind, Program.run_lastExecution]
  simp only [last, refused]
  rfl

/-- When both checks are passed, the repository decides. -/
theorem run_claim_of_checks {last : Option JobExecution}
    {result : Except RepositoryError (JobExecution × Repository)}
    (accepted : checkParameters settings.job parameters = .ok ())
    (read : world.repository.lastExecution settings.name parameters = .ok last)
    (allowed : checkLast settings.job parameters last = .ok ())
    (created : world.repository.createExecution (world.clock (world.ticks + 1)) settings.name
      parameters = result) :
    (claim settings.job parameters).run behaviour world =
      match result with
      | .ok (execution, repository) =>
        (.ok execution, (world.tick world.repository).tick repository)
      | .error error =>
        (.error (.ofRepository error), (world.tick world.repository).tick world.repository) := by
  have last : world.repository.lastExecution settings.job.name parameters = .ok last := read
  have made : (world.tick world.repository).repository.createExecution
      (world.tick world.repository).moment settings.job.name parameters = result := created
  unfold claim
  rw [accepted, Program.run_bind, Program.run_lastExecution]
  simp only [last, allowed]
  rw [Program.run_bind, Program.run_createExecution, made]
  cases result with
  | error error => rfl
  | ok result => rfl

/-- With a stored record, admission depends on its status and on its steps as they are read. -/
theorem admits_iff_of_holds {stored last : JobExecution}
    (holds : repository.Holds settings.name parameters stored)
    (read : repository.lastExecution settings.name parameters = .ok (some last)) :
    Admits repository settings parameters ↔ settings.Accepts parameters ∧
      (∀ stored, repository.Holds settings.name parameters stored →
        stored.status ∈ BatchStatus.claimable) ∧ settings.restartable = true ∧
      ∀ step ∈ last.steps, step.status.isRunning = false ∧ step.status ≠ .unknown := by
  constructor
  · rintro ⟨accepts, nothing | ⟨other, otherRead, claimable, again, settled⟩⟩
    · exact absurd holds (nothing stored)
    · obtain rfl := Option.some.inj (Except.ok.inj (otherRead.symm.trans read))
      exact ⟨accepts, claimable, again, settled⟩
  · rintro ⟨accepts, claimable, again, settled⟩
    exact ⟨accepts, .inr ⟨last, read, claimable, again, settled⟩⟩

/-- The two layers of checks together let through what `Admits` describes. -/
theorem run_claim_cases (behaviour : Behaviour) (settings : JobSettings)
    (parameters : JobParameters) (wellNumbered : world.repository.executions.Numbered) :
    (Admits world.repository settings parameters ∧ ∃ execution created,
      world.repository.createExecution (world.clock (world.ticks + 1)) settings.name parameters =
        .ok (execution, created) ∧
      (claim settings.job parameters).run behaviour world =
        (.ok execution, (world.tick world.repository).tick created)) ∨
    (¬ Admits world.repository settings parameters ∧ ∃ error after,
      (claim settings.job parameters).run behaviour world = (.error error, after) ∧
      error.IsRefusal ∧ after.repository = world.repository ∧ after.invoked = world.invoked) := by
  rcases checkParameters_cases settings parameters with
    ⟨accepted, accepts⟩ | ⟨error, refused, rejects⟩
  · have decided := Repository.claim_decided wellNumbered settings.name parameters
    rcases Repository.lastExecution_cases wellNumbered settings.name parameters with
      ⟨read, nothing⟩ | ⟨stored, context, steps, holds, read⟩
    · rcases decided with ⟨-, ⟨known, start, claimed⟩, granted⟩ | ⟨⟨stored, holds, -⟩, -⟩
      · obtain ⟨contexts, created⟩ :=
          Repository.createExecution_of_claim (world.clock (world.ticks + 1)) granted
        exact .inl ⟨⟨accepts, .inl nothing⟩, _, _, created,
          run_claim_of_checks accepted read rfl created⟩
      · exact absurd holds (nothing stored)
    · rw [admits_iff_of_holds holds read]
      rcases checkLast_cases settings parameters { stored with context, steps } with
        ⟨allowed, incomplete, again, settled⟩ | ⟨error, refused, kind, forbids⟩
      · rcases decided with
          ⟨claimable, ⟨known, start, claimed⟩, granted⟩ |
            ⟨⟨other, otherHolds, unclaimable⟩, error, refused, kind⟩
        · obtain ⟨contexts, created⟩ :=
            Repository.createExecution_of_claim (world.clock (world.ticks + 1)) granted
          exact .inl ⟨⟨accepts, claimable, again, settled⟩, _, _, created,
            run_claim_of_checks accepted read allowed created⟩
        · refine .inr ⟨fun admits => unclaimable (admits.2.1 other otherHolds), _, _,
            run_claim_of_checks accepted read allowed
              (Repository.createExecution_of_refused refused), kind, rfl, rfl⟩
      · refine .inr ⟨fun admits => forbids ⟨?_, admits.2.2⟩, _, _,
          run_claim_of_last accepted read refused, kind, rfl, rfl⟩
        intro complete
        have claimable : BatchStatus.completed ∈ BatchStatus.claimable :=
          complete ▸ admits.2.1 stored holds
        exact absurd claimable (by decide)
  · exact .inr ⟨fun admits => rejects admits.1, _, _, run_claim_of_parameters refused, trivial,
      rfl, rfl⟩

/-! ## The launch -/

/-- What a launch does with an execution it has claimed. -/
def handOver (dispatch : JobExecution → Program Dispatched) (execution : JobExecution) :
    Program LaunchOutcome := do
  match ← dispatch execution with
  | .ran outcome => return outcome
  | .detached => return .ok execution
  | .rejected rejection => return .error (← recordRejection execution rejection)

/-- A launch claims its instance and hands the execution over. -/
theorem run_launch (dispatch : JobExecution → Program Dispatched) :
    (launch settings.job parameters dispatch).run behaviour world =
      match (claim settings.job parameters).run behaviour world with
      | (.error error, after) => (.error error, after)
      | (.ok execution, after) => (handOver dispatch execution).run behaviour after := by
  unfold launch
  rw [Program.run_bind]
  rcases (claim settings.job parameters).run behaviour world with ⟨error | execution, after⟩
  · rfl
  · rfl

/-- A launch that is admitted gives its instance a new execution and hands it over, and every other
launch is refused: the repository stays as it was, and the body is not invoked. -/
theorem launch_admission (settings : JobSettings) (parameters : JobParameters)
    (dispatch : JobExecution → Program Dispatched) (behaviour : Behaviour) (world : World)
    (reachable : world.repository.Reachable) :
    (Admits world.repository settings parameters →
      ∃ stored created,
        (launch settings.job parameters dispatch).run behaviour world =
          (handOver dispatch { stored with context := stored.context.clearDirty }).run behaviour
            created ∧
        created.invoked = world.invoked ∧
        created.repository.executions.lastId = world.repository.executions.lastId + 1 ∧
        created.repository.executions.get? ⟨world.repository.executions.lastId + 1⟩ =
          some stored ∧
        stored.id = some ⟨world.repository.executions.lastId + 1⟩ ∧
        stored.jobInstance.isFor settings.name parameters = true ∧
        stored.parameters = parameters ∧ stored.status = .starting) ∧
    (¬ Admits world.repository settings parameters →
      ∃ error after,
        (launch settings.job parameters dispatch).run behaviour world = (.error error, after) ∧
        error.IsRefusal ∧ after.repository = world.repository ∧
        after.invoked = world.invoked) := by
  rw [run_launch]
  rcases run_claim_cases behaviour settings parameters reachable.numbered with
    ⟨admits, execution, created, made, ran⟩ | ⟨rejected, error, after, ran, kind, kept, unused⟩
  · refine ⟨fun _ => ?_, fun rejected => absurd admits rejected⟩
    obtain ⟨counted, stored, lookup, given, numbered, matching, sameParameters, starting, -⟩ :=
      Repository.record_of_created made
    rw [ran, given]
    exact ⟨stored, _, rfl, rfl, counted, lookup, numbered, matching, sameParameters, starting⟩
  · refine ⟨fun admits => absurd admits rejected, fun _ => ?_⟩
    rw [ran]
    exact ⟨error, after, rfl, kind, kept, unused⟩

/-- An import has failed, and this is the status of its loading step. -/
def failedWithStep (status : BatchStatus) : Repository :=
  let created := (Repository.empty.answer ⟨0, 0⟩ (.createExecution "import" .empty)).2
  let loading := { StepExecution.start ⟨1, 0⟩ "load" ⟨1⟩ ⟨1⟩ with status }
  let failed := { JobExecution.create ⟨0, 0⟩ (.of ⟨1⟩ "import" .empty) .empty with
    id := some ⟨1⟩, version := 1, status := .failed }
  ((created.answer ⟨1, 0⟩ (.addStep loading)).2.answer ⟨2, 0⟩ (.update failed)).2

/-- The import can be launched again, if its step has failed as well, and not if the end of the step
is unknown. -/
theorem admits_failedWithStep : Admits (failedWithStep .failed) ⟨"import", true, none⟩ .empty ∧
    ¬ Admits (failedWithStep .unknown) ⟨"import", true, none⟩ .empty := by
  constructor
  · refine ⟨fun _ absent => absurd absent (by simp), .inr ⟨_, rfl, ?_, rfl, ?_⟩⟩
    · rintro stored ⟨_, id, -, found, -⟩
      obtain rfl := List.mem_singleton.1 (SortedMap.mem_values.2 ⟨id, found⟩)
      decide
    · intro step member
      obtain rfl := List.mem_singleton.1 member
      decide
  · have holds : (failedWithStep .unknown).Holds "import" .empty _ := ⟨_, ⟨1⟩, rfl, rfl, rfl⟩
    rw [admits_iff_of_holds holds rfl]
    rintro ⟨-, -, -, settled⟩
    exact absurd rfl (settled _ (List.mem_singleton.2 rfl)).2

/-- The first launch of all is admitted and gets the number 1. After it has failed with its step, so
is the next one; but if the end of the step is unknown, the next one is refused. -/
theorem launch_admission_first :
    World.initial.repository.Reachable ∧ (failedWithStep .failed).Reachable ∧
    (failedWithStep .unknown).Reachable ∧
    (∃ execution after,
      (launch (JobSettings.job ⟨"import", false, none⟩) .empty fun _ => return .detached).run
        .idle .initial = (.ok execution, after) ∧
      execution.id = some ⟨1⟩ ∧ after.repository.executions.lastId = 1) ∧
    (∃ execution after,
      (launch (JobSettings.job ⟨"import", true, none⟩) .empty fun _ => return .detached).run
        .idle { World.initial with repository := failedWithStep .failed } = (.ok execution, after) ∧
      execution.id = some ⟨2⟩ ∧ after.repository.executions.lastId = 2) ∧
    ∃ error after,
      (launch (JobSettings.job ⟨"import", true, none⟩) .empty fun _ => return .detached).run
        .idle { World.initial with repository := failedWithStep .unknown } = (.error error, after) ∧
      error.IsRefusal ∧ after.repository = failedWithStep .unknown := by
  have nothing (stored : JobExecution) : ¬ Repository.empty.Holds "import" .empty stored := by
    rintro ⟨known, id, found, -⟩
    simp [Repository.instance?, Repository.empty, InstanceStore.get?, InstanceStore.empty] at found
  have admits : Admits .empty ⟨"import", false, none⟩ .empty :=
    ⟨fun _ absent => absurd absent (by simp), .inl nothing⟩
  obtain ⟨stored, created, ran, -, counted, -, numbered, -⟩ :=
    (launch_admission ⟨"import", false, none⟩ .empty (fun _ => return .detached) .idle
      .initial .empty).1 admits
  have reachable (status : BatchStatus) : (failedWithStep status).Reachable :=
    .answer (.answer (.answer .empty _ _) _ _) _ _
  obtain ⟨next, again, ranAgain, -, nextCounted, -, nextNumbered, -⟩ :=
    (launch_admission ⟨"import", true, none⟩ .empty (fun _ => return .detached) .idle
      { World.initial with repository := failedWithStep .failed } (reachable _)).1
        admits_failedWithStep.1
  obtain ⟨error, after, refused, kind, kept, -⟩ :=
    (launch_admission ⟨"import", true, none⟩ .empty (fun _ => return .detached) .idle
      { World.initial with repository := failedWithStep .unknown } (reachable _)).2
        admits_failedWithStep.2
  exact ⟨.empty, reachable _, reachable _, ⟨_, _, ran, numbered, counted⟩,
    ⟨_, _, ranAgain, nextNumbered, nextCounted⟩, error, after, refused, kind, kept⟩

end Launch

end BatchRun
