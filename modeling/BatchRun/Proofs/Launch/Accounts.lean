import BatchRun.Proofs.Launch.Carrying

/-! # Every launch accounts for its execution

Before it ends its execution, a launch has written the start and run the body, or it has stopped at
the first of its writes and refreshments that has failed. It ends the execution by one write, which
it tries again after a lost race. If that works, the record has a terminal status and tells what has
gone wrong before. If not, the execution stays as it was, and the caller gets the error.
-/

namespace BatchRun

open Run

variable {around : Circumstances} {trial : Trial} {id : JobExecutionId}
  {copy stored : JobExecution}

/-! ## The write that ends the execution -/

/-- The result of a write that ends the execution. -/
def Deed.terminal? : Deed → Option (Except RepositoryError Unit)
  | wrote copy result => if copy.isRunning then none else some result
  | _ => none

/-- The failure of a refreshment or of a write that does not end the execution. -/
def Deed.trouble? : Deed → Option RepositoryError
  | wrote copy (.error cause) => if copy.isRunning then some cause else none
  | refreshed (.error cause) => some cause
  | _ => none

/-- The results of the writes that end the execution, the first one first. -/
def terminalWrites (deeds : List Deed) : List (Except RepositoryError Unit) :=
  deeds.filterMap Deed.terminal?

/-- The failures of everything else, the first one first. -/
def troubles (deeds : List Deed) : List RepositoryError := deeds.filterMap Deed.trouble?

/-- What a launch does before it ends the execution, and what has gone wrong until then. -/
inductive Opening : List Deed → Option RepositoryError → Prop
  | rejected : Opening [] none
  | notStarted {copy : JobExecution} {cause : RepositoryError} (started : copy.status = .started) :
      Opening [.wrote copy (.error cause)] (some cause)
  | exhausted {copy : JobExecution} (started : copy.status = .started) (count : Nat) :
      Opening (.wrote copy (.ok ()) :: List.replicate count .ranBody) none
  | succeeded {copy : JobExecution} (started : copy.status = .started) (count : Nat) :
      Opening (.wrote copy (.ok ()) :: List.replicate count .ranBody ++ [.refreshed (.ok ())]) none
  | notRefreshed {copy : JobExecution} {cause : RepositoryError} (started : copy.status = .started)
      (count : Nat) :
      Opening (.wrote copy (.ok ()) :: List.replicate count .ranBody ++
        [.refreshed (.error cause)]) (some cause)

/-- Tries of a write, each one after a lost race. -/
structure Tries (most : Nat) (results : List (Except RepositoryError Unit)) : Prop where
  bounded : results.length ≤ most
  again : ∀ result ∈ results.dropLast,
    ∃ error, result = .error error ∧ error.isOptimisticLock = true

/-- A try that has lost a race comes before others. -/
theorem Tries.cons {most : Nat} {results : List (Except RepositoryError Unit)}
    {error : RepositoryError} (tries : Tries most results) (more : results ≠ [])
    (lost : error.isOptimisticLock = true) : Tries (most + 1) (.error error :: results) where
  bounded := Nat.succ_le_succ tries.bounded
  again := by
    rw [List.dropLast_cons_of_ne_nil more]
    exact List.forall_mem_cons.2 ⟨⟨error, rfl, lost⟩, tries.again⟩

namespace Launch

private theorem answer_update_cases (own : copy.id = some id)
    (found : trial.session.repository.executions.get? id = some stored) :
    (∃ error, trial.answer around (.request (.update copy)) =
      (⟨.error error, copy⟩, trial.note (.wrote copy (.error error)))) ∨
    ∃ now after, trial.answer around (.request (.update copy)) =
        (⟨.ok (), Repository.written now copy stored⟩, after) ∧
      after.deeds = trial.deeds ++ [.wrote copy (.ok ())] ∧
      after.session.repository.executions.get? id = some (Repository.written now copy stored) := by
  simp only [Trial.answer]
  cases planned : around.outage? trial.calls with
  | some error => exact .inl ⟨error, rfl⟩
  | none =>
    have updated := Repository.update_of_record (around.clock trial.ticks) own found
    have answered : trial.session.repository.answer (around.clock trial.ticks) (.update copy) =
      _ := updated
    have written : (trial.call around (.update copy)).1 =
        ⟨.ok (), Repository.written (around.clock trial.ticks) copy stored⟩ :=
      (congrArg Prod.fst answered :)
    refine .inr ⟨around.clock trial.ticks,
      (trial.call around (.update copy)).2.note (.wrote copy (.ok ())), ?_, rfl, ?_⟩
    · simp only [written]
    · change (trial.session.repository.answer _ (.update copy)).2.executions.get? id = _
      rw [answered, Repository.get?_withRecord, if_pos rfl]

-- The write is tried until it works, or fails for another reason than a lost race, or has been
-- tried often enough. A failure leaves everything as it is.
private theorem runAmid_updatePersistently (more : Nat) (own : copy.id = some id)
    (found : trial.session.repository.executions.get? id = some stored) :
    ∃ written after results,
      (Calls.updatePersistently more copy : Program _).runAmid around trial = (written, after) ∧
      after.deeds = trial.deeds ++ results.map (.wrote copy) ∧ Tries (more + 1) results ∧
      results.getLast? = some written.result ∧
      match written.result with
      | .ok () => ∃ now, written.copy = Repository.written now copy stored ∧
          after.session.repository.executions.get? id = some written.copy
      | .error error => (error.isOptimisticLock = true → results.length = more + 1) ∧
          after.session = trial.session := by
  induction more generalizing trial with
  | zero =>
    change ∃ written after results, trial.answer around (.request (.update copy)) = _ ∧ _
    rcases answer_update_cases own found with
      ⟨error, answered⟩ | ⟨now, after, answered, deeds, last⟩
    · exact ⟨_, _, [.error error], answered, rfl, ⟨Nat.le_refl _, nofun⟩, rfl, fun _ => rfl, rfl⟩
    · exact ⟨_, _, [.ok ()], answered, deeds, ⟨Nat.le_refl _, nofun⟩, rfl, now, rfl, last⟩
  | succ more ih =>
    unfold Calls.updatePersistently
    rw [Program.runAmid_bind, Program.runAmid_update]
    rcases answer_update_cases own found with
      ⟨error, answered⟩ | ⟨now, after, answered, deeds, last⟩
    · rw [answered]
      by_cases lost : error.isOptimisticLock = true
      · have still : (trial.note (.wrote copy (.error error))).session.repository.executions.get?
            id = some stored := found
        obtain ⟨written, after, results, ran, deeds, tries, isLast, outcome⟩ := ih still
        simp only [lost, if_true]
        have some : results ≠ [] := by
          rintro rfl
          simp at isLast
        refine ⟨written, after, .error error :: results, ran, ?_, tries.cons some lost, ?_, ?_⟩
        · simp [deeds, Trial.note]
        · rw [List.getLast?_cons, isLast]
          rfl
        · split at outcome
          · exact outcome
          · exact ⟨fun lostRace => congrArg (· + 1) (outcome.1 lostRace), outcome.2⟩
      · simp only [lost]
        refine ⟨_, _, [.error error], rfl, rfl, ⟨Nat.le_add_left 1 _, nofun⟩, rfl, ?_, rfl⟩
        exact fun lostRace => absurd lostRace lost
    · rw [answered]
      exact ⟨_, _, [.ok ()], rfl, deeds, ⟨Nat.le_add_left 1 _, nofun⟩, rfl, now, rfl, last⟩

end Launch

/-! ## The account of a launch -/

/-- The execution has failed because of an error of the repository. -/
structure JobExecution.FailedBy (cause : RepositoryError) (record : JobExecution) : Prop where
  status : record.status = .failed
  endTime : record.endTime.isSome = true
  exitStatus : record.exitStatus = ⟨"FAILED", cause.message⟩
  failures : record.failures.getLast? = some cause.message

/-- What a launch has done tells of its execution and its outcome. -/
structure Accounted (deeds : List Deed) (record : JobExecution) (outcome : LaunchOutcome) :
    Prop where
  /-- The body is run only after the start has been written. -/
  started {before after : List Deed} (ran : deeds = before ++ .ranBody :: after) :
    ∃ copy rest, before = .wrote copy (.ok ()) :: rest ∧ copy.status = .started
  tries : Tries 3 (terminalWrites deeds)
  returned {execution : JobExecution} (given : outcome = .ok execution) :
    record.status = execution.status ∧ record.status.isTerminal = true
  /-- An execution is left open only with an error. -/
  leftOpen (running : record.isRunning = true) :
    ∃ error, (terminalWrites deeds).getLast? = some (.error error) ∧
      (error.isOptimisticLock = true → (terminalWrites deeds).length = 3) ∧
      outcome = .error (.ofRepository error)
  /-- What has gone wrong before is written. -/
  brokenOff {cause : RepositoryError} (trouble : cause ∈ troubles deeds)
    (written : (terminalWrites deeds).getLast? = some (.ok ())) :
    record.FailedBy cause ∧ outcome = .error (.ofRepository cause)

namespace Opening

variable {deeds : List Deed} {cause? : Option RepositoryError}

private theorem terminalWrites_eq (opening : Opening deeds cause?) : terminalWrites deeds = [] := by
  cases opening <;>
    simp [terminalWrites, List.filterMap_cons, List.filterMap_append, List.filterMap_replicate,
      Deed.terminal?, JobExecution.isRunning, BatchStatus.isRunning, *]

private theorem troubles_eq (opening : Opening deeds cause?) : troubles deeds = cause?.toList := by
  cases opening <;>
    simp [troubles, List.filterMap_cons, List.filterMap_append, List.filterMap_replicate,
      Deed.trouble?, JobExecution.isRunning, BatchStatus.isRunning, *]

/-- The body is run only after the start has been written. -/
theorem started {before after : List Deed} (opening : Opening deeds cause?)
    (ran : deeds = before ++ .ranBody :: after) :
    ∃ copy rest, before = .wrote copy (.ok ()) :: rest ∧ copy.status = .started := by
  cases before with
  | nil => cases opening <;> simp at ran
  | cons first rest =>
    cases opening with
    | rejected => simp at ran
    | notStarted => simp at ran
    | exhausted started count
    | succeeded started count
    | notRefreshed started count =>
      obtain ⟨rfl, -⟩ := List.cons.inj ran
      exact ⟨_, rest, rfl, started⟩

end Opening

/-- The account of what a launch does before it ends the execution and of the tries to end it. -/
theorem Opening.accounted {deeds : List Deed} {cause? : Option RepositoryError}
    {results : List (Except RepositoryError Unit)} {result : Except RepositoryError Unit}
    {record : JobExecution} {outcome : LaunchOutcome} (opening : Opening deeds cause?)
    (terminal : copy.isRunning = false) (tries : Tries 3 results)
    (last : results.getLast? = some result)
    (told : match result with
      | .ok () => record.status.isTerminal = true ∧
          (∀ execution, outcome = .ok execution → record.status = execution.status) ∧
          ∀ cause ∈ cause?, record.FailedBy cause ∧ outcome = .error (.ofRepository cause)
      | .error error => (error.isOptimisticLock = true → results.length = 3) ∧
          outcome = .error (.ofRepository error)) :
    Accounted (deeds ++ results.map (.wrote copy)) record outcome := by
  have writes : terminalWrites (deeds ++ results.map (.wrote copy)) = results := by
    have own : terminalWrites (results.map (.wrote copy)) = results := by
      simp [terminalWrites, List.filterMap_map, Function.comp_def, Deed.terminal?, terminal]
    rw [terminalWrites, List.filterMap_append]
    exact congrArg₂ (· ++ ·) opening.terminalWrites_eq own
  have quiet : troubles (deeds ++ results.map (.wrote copy)) = cause?.toList := by
    have own : troubles (results.map (.wrote copy)) = [] := by
      simp only [troubles, List.filterMap_map, List.filterMap_eq_nil_iff]
      rintro (error | value) -
      · simp [Deed.trouble?, terminal]
      · rfl
    rw [troubles, List.filterMap_append]
    exact (congrArg₂ (· ++ ·) opening.troubles_eq own).trans (List.append_nil _)
  constructor
  case started =>
    intro before after ran
    have other : .ranBody ∉ results.map (Deed.wrote copy) := by simp
    rcases List.append_eq_append_iff.1 ran with ⟨more, -, tail⟩ | ⟨more, head, tail⟩
    · exact absurd (tail ▸ List.mem_append_right _ List.mem_cons_self) other
    · cases more with
      | nil =>
        rw [List.nil_append] at tail
        exact absurd (tail ▸ List.mem_cons_self) other
      | cons first more =>
        obtain ⟨rfl, -⟩ := List.cons.inj tail
        exact opening.started head
  case tries =>
    rw [writes]
    exact tries
  case returned =>
    intro execution given
    cases result with
    | error error => exact absurd (told.2.symm.trans given) (by simp)
    | ok => exact ⟨told.2.1 execution given, told.1⟩
  case leftOpen =>
    intro running
    rw [writes]
    cases result with
    | error error => exact ⟨error, last, told⟩
    | ok =>
      have ended := (BatchStatus.isTerminal_eq_true_iff.1 told.1).1
      exact absurd (running.symm.trans ended) (by simp)
  case brokenOff =>
    intro cause trouble written
    rw [writes, last] at written
    rw [quiet] at trouble
    obtain rfl := Option.some.inj written
    exact told.2.2 cause (Option.mem_toList.1 trouble)

namespace Launch

variable {cause? : Option RepositoryError}

-- A launch ends its execution: it writes the copy, and gives up with the error if that fails.
private theorem accounted_of_writeTerminal {rest : Written JobExecution → Program LaunchOutcome}
    (opening : Opening trial.deeds cause?) (own : copy.id = some id)
    (underway : trial.session.Underway id) (terminal : copy.status.isTerminal = true)
    (told : ∀ cause ∈ cause?, copy.FailedBy cause)
    (failed : ∀ error given, rest ⟨.error error, given⟩ = pure (.error (.ofRepository error)))
    (goesOn : ∀ (given : JobExecution) (reached : Trial), given.id = some id → ∃ outcome after,
      (rest ⟨.ok (), given⟩).runAmid around reached = (outcome, after) ∧
        after.deeds = reached.deeds ∧
        after.session.repository.executions = reached.session.repository.executions ∧
        (∀ execution, outcome = .ok execution → execution = given) ∧
        ∀ cause ∈ cause?, outcome = .error (.ofRepository cause)) :
    ∃ record outcome after,
      (writeTerminal copy >>= rest : Program LaunchOutcome).runAmid around trial =
        (outcome, after) ∧
      after.session.repository.executions.get? id = some record ∧
      Accounted after.deeds record outcome := by
  obtain ⟨stored, found, running⟩ := underway.stored
  have ended := (BatchStatus.isTerminal_eq_true_iff.1 terminal).1
  obtain ⟨⟨result, given⟩, reached, results, ran, deeds, tries, last, came⟩ :
      ∃ written reached results, (writeTerminal copy : Program _).runAmid around trial =
        (written, reached) ∧ _ := runAmid_updatePersistently moreTerminalWrites own found
  rw [Program.runAmid_bind, ran]
  cases result with
  | error error =>
    obtain ⟨often, same⟩ := came
    refine ⟨stored, .error (.ofRepository error), reached, ?_, same ▸ found, ?_⟩
    · rw [failed]
      rfl
    · exact deeds ▸ opening.accounted ended tries last ⟨often, rfl⟩
  | ok =>
    obtain ⟨now, rfl, lookup⟩ := came
    obtain ⟨outcome, after, went, quiet, same, isGiven, isTold⟩ :=
      goesOn (Repository.written now copy stored) reached own
    have status : (Repository.written now copy stored).status = copy.status :=
      Repository.status_written_of_terminal ended running
    refine ⟨Repository.written now copy stored, outcome, after, went, same ▸ lookup, ?_⟩
    rw [quiet, deeds]
    refine opening.accounted ended tries last ⟨?_, ?_, ?_⟩
    · exact status ▸ terminal
    · exact fun execution given => (congrArg JobExecution.status (isGiven execution given)).symm
    · intro cause member
      have facts := told cause member
      exact ⟨⟨status.trans facts.status, facts.endTime, facts.exitStatus, facts.failures⟩,
        isTold cause member⟩

private theorem executions_updateContext (around : Circumstances) (reached : Trial)
    (given : JobExecution) :
    (reached.call around (.updateContext given)).2.session.repository.executions =
      reached.session.repository.executions := by
  have effect := Repository.effect_answer reached.session.repository (around.clock reached.ticks)
    (.updateContext given)
  change (reached.session.repository.answer _ (.updateContext given)).2.executions = _
  generalize (reached.session.repository.answer _ (.updateContext given)).2 = after at effect ⊢
  cases effect with
  | none refused executions instances => exact executions

private theorem accounted_of_finish (error? : Option LaunchError)
    (opening : Opening trial.deeds none) (own : copy.id = some id)
    (underway : trial.session.Underway id) (terminal : copy.status.isTerminal = true) :
    ∃ record outcome after,
      (finish copy error? : Program LaunchOutcome).runAmid around trial = (outcome, after) ∧
      after.session.repository.executions.get? id = some record ∧
      Accounted after.deeds record outcome := by
  unfold finish
  rw [Program.runAmid_bind, Program.runAmid_now]
  refine accounted_of_writeTerminal opening own underway terminal nofun (fun _ _ => rfl) ?_
  intro given reached numbered
  have same := executions_updateContext around reached given
  simp only []
  rw [Program.runAmid_bind, Program.runAmid_updateContext]
  generalize filed : reached.call around (.updateContext given) = call at same ⊢
  have quiet : call.2.deeds = reached.deeds := filed ▸ rfl
  obtain ⟨result, after⟩ := call
  cases result with
  | error error => exact ⟨_, _, rfl, quiet, same, by simp, by simp⟩
  | ok =>
    cases error? with
    | some error => exact ⟨_, _, rfl, quiet, same, by simp, by simp⟩
    | none => exact ⟨_, _, rfl, quiet, same, fun _ equal => (Except.ok.inj equal).symm, by simp⟩

private theorem upgradeTo_failed (running : copy.isRunning = true) :
    copy.status.upgradeTo .failed = .failed := by
  unfold JobExecution.isRunning at running
  revert running
  cases copy.status <;> decide

private theorem describe_failed (text : String) :
    ExitStatus.failed.describe text = ⟨"FAILED", text⟩ := by
  by_cases empty : text = ""
  · subst empty
    rfl
  · simp [ExitStatus.describe, ExitStatus.failed, ExitStatus.ofCode, empty, Ne.symm empty]

private theorem accounted_of_breakOff {cause : RepositoryError}
    (opening : Opening trial.deeds (some cause)) (carries : trial.Carries id copy) :
    ∃ record outcome after,
      (breakOff copy cause : Program LaunchOutcome).runAmid around trial = (outcome, after) ∧
      after.session.repository.executions.get? id = some record ∧
      Accounted after.deeds record outcome := by
  have failed := upgradeTo_failed carries.running
  unfold breakOff
  rw [Program.runAmid_bind, Program.runAmid_now]
  refine accounted_of_writeTerminal opening carries.own carries.underway ?_ ?_ (fun _ _ => rfl) ?_
  · exact (congrArg BatchStatus.isTerminal failed).trans rfl
  · rintro _ ⟨⟩
    exact ⟨failed, rfl, describe_failed _, List.getLast?_concat⟩
  · intro given reached numbered
    refine ⟨_, _, rfl, rfl, rfl, by simp, ?_⟩
    rintro _ ⟨⟩
    rfl

private theorem terminal_succeeded (running : copy.isRunning = true) :
    (succeeded copy).id = copy.id ∧ (succeeded copy).status.isTerminal = true := by
  unfold succeeded
  split
  · exact ⟨rfl, rfl⟩
  · refine ⟨rfl, ?_⟩
    change (copy.status.upgradeTo .completed).isTerminal = true
    unfold JobExecution.isRunning at running
    revert running
    cases copy.status <;> decide

private theorem terminal_exhausted (recovery : Option RecoveryHandler) (failures : RetryExhausted)
    (running : copy.isRunning = true) :
    (exhausted recovery copy failures).1.id = copy.id ∧
      (exhausted recovery copy failures).1.status.isTerminal = true := by
  have failed := upgradeTo_failed running
  unfold exhausted
  cases recovery <;> exact ⟨rfl, (congrArg BatchStatus.isTerminal failed).trans rfl⟩

private theorem accounted_of_run (launcher : Launcher) (settings : JobSettings)
    (fresh : trial.deeds = []) (carries : trial.Carries id copy)
    (starting : copy.status = .starting) (leaves : around.LeavesRunning)
    (few : ((launcher.run settings.job copy).runAmid around trial).2.session.Few) :
    ∃ record outcome after,
      (launcher.run settings.job copy).runAmid around trial = (outcome, after) ∧
      after.session.repository.executions.get? id = some record ∧
      Accounted after.deeds record outcome := by
  unfold Launcher.run run at few ⊢
  rw [Program.runAmid_bind, Program.runAmid_now] at few ⊢
  dsimp only at few ⊢
  have begun : JobExecution.status (JobExecution.upgradeStatus { copy with
      startTime := some (around.clock trial.ticks) } .started) = .started := by
    change copy.status.upgradeTo .started = .started
    rw [starting]
    decide
  generalize made : JobExecution.upgradeStatus { copy with
    startTime := some (around.clock trial.ticks) } .started = given at few begun ⊢
  have ready : Trial.Carries { trial with ticks := trial.ticks + 1 } id given :=
    (carries.edit (by subst made; exact ⟨rfl, rfl, rfl, rfl⟩) (by subst made; rfl)
      (by rw [JobExecution.isRunning, begun]; rfl)).tick _
  rw [Program.runAmid_bind, Program.runAmid_update] at few ⊢
  obtain ⟨started, after, answered, deeds, going⟩ :=
    ready.update leaves (Program.few_of_runAmid leaves _ few)
  rw [answered] at few ⊢
  obtain ⟨result, started⟩ := started
  rw [fresh] at deeds
  cases result with
  | error cause =>
    exact accounted_of_breakOff (deeds ▸ .notStarted begun) going
  | ok =>
    dsimp only at few deeds ⊢
    rw [Program.runAmid_bind] at few ⊢
    obtain ⟨result, left, reached, count, ran, ranBodies, still⟩ :=
      runAmid_attempts settings launcher.policy going leaves (Program.few_of_runAmid leaves _ few)
    rw [ran] at few ⊢
    rw [deeds] at ranBodies
    cases result with
    | error failures =>
      obtain ⟨own, terminal⟩ := terminal_exhausted launcher.recovery failures still.running
      exact accounted_of_finish _ (ranBodies ▸ .exhausted begun count) (own.trans still.own)
        still.underway terminal
    | ok =>
      dsimp only at few ⊢
      rw [Program.runAmid_bind, Program.runAmid_synchronize] at few ⊢
      obtain ⟨refreshed, last, answered, deeds, carries⟩ :=
        still.synchronize leaves (Program.few_of_runAmid leaves _ few)
      rw [answered] at few ⊢
      obtain ⟨result, refreshed⟩ := refreshed
      rw [ranBodies] at deeds
      cases result with
      | error cause => exact accounted_of_breakOff (deeds ▸ .notRefreshed begun count) carries
      | ok =>
        obtain ⟨own, terminal⟩ := terminal_succeeded carries.running
        exact accounted_of_finish none (deeds ▸ .succeeded begun count) (own.trans carries.own)
          carries.underway terminal

private theorem accounted_of_rejection (around : Circumstances) (rejected : TaskRejected)
    (fresh : trial.deeds = []) (carries : trial.Carries id copy) :
    ∃ record outcome after,
      (recordRejection copy rejected >>= fun error => pure (.error error) :
        Program LaunchOutcome).runAmid around trial = (outcome, after) ∧
      after.session.repository.executions.get? id = some record ∧
      Accounted after.deeds record outcome := by
  have failed := upgradeTo_failed carries.running
  have opening : Opening trial.deeds none := by
    rw [fresh]
    exact .rejected
  unfold recordRejection
  simp only [bind_assoc]
  rw [Program.runAmid_bind, Program.runAmid_now]
  refine accounted_of_writeTerminal opening carries.own carries.underway ?_ nofun
    (fun _ _ => rfl) ?_
  · exact (congrArg BatchStatus.isTerminal failed).trans rfl
  · intro given reached numbered
    exact ⟨_, _, rfl, rfl, rfl, by simp, by simp⟩

/-- Whichever of its writes and refreshments fail, a launch that gets past its claim accounts for
the execution, whether it runs the body or nobody takes the execution over. -/
theorem launch_accounted {around : Circumstances} (leaves : around.LeavesRunning)
    (launcher : Launcher) (settings : JobSettings) (parameters : JobParameters)
    (rejection : Option TaskRejected) (ticks : Nat) {session : Session} {claimed after : Trial}
    {execution : JobExecution} {outcome : LaunchOutcome}
    (reaches : Session.Reaches Session.AnyEdit .start session)
    (granted : (claim settings.job parameters : Program _).runAmid around ⟨session, ticks, []⟩ =
      (.ok execution, claimed))
    (ended : (launch settings.job parameters fun execution => match rejection with
        | some rejected => return .rejected rejected
        | none => return .ran (← launcher.run settings.job execution)).runAmid around
          ⟨session, ticks, []⟩ = (outcome, after))
    (few : after.session.Few) :
    ∃ id record, execution.id = some id ∧
      after.session.repository.executions.get? id = some record ∧
      Accounted after.deeds record outcome := by
  unfold launch at ended
  rw [Program.runAmid_bind, granted] at ended
  dsimp only at ended
  have fewClaimed : claimed.session.Few := Program.few_of_ran leaves ended few
  have sound := reaches.sound (Program.few_of_ran leaves granted fewClaimed)
  obtain ⟨fresh, starting, id, carries⟩ := carries_of_claim sound fewClaimed granted
  refine ⟨id, ?_⟩
  cases rejection with
  | some rejected =>
    obtain ⟨record, outcome, reached, ran, found, accounted⟩ :=
      accounted_of_rejection around rejected fresh carries
    obtain ⟨rfl, rfl⟩ := Prod.mk.inj (ended.symm.trans ran)
    exact ⟨record, carries.own, found, accounted⟩
  | none =>
    dsimp only at ended
    rw [Program.runAmid_bind, Program.runAmid_bind] at ended
    have same : (launcher.run settings.job execution).runAmid around claimed = (outcome, after) :=
      ended
    have fewRun : ((launcher.run settings.job execution).runAmid around claimed).2.session.Few := by
      rw [same]
      exact few
    obtain ⟨record, outcome, reached, ran, found, accounted⟩ :=
      accounted_of_run launcher settings fresh carries starting leaves fewRun
    obtain ⟨rfl, rfl⟩ := Prod.mk.inj (same.symm.trans ran)
    exact ⟨record, carries.own, found, accounted⟩

end Launch

/-- The refreshment of the first launch fails, and the next write loses a race. -/
def Circumstances.troubled : Circumstances where
  clock _ := ⟨0, 0⟩
  outage?
    | 1 => some (.store .poisoned)
    | 2 => some (.store (.optimisticLock .jobExecution 1 2 3))
    | _ => none
  body _ execution session := ((.finished, execution), session)

private theorem Circumstances.leavesRunning_troubled : troubled.LeavesRunning where
  writings _ _ _ := List.prefix_refl _
  reaches _ _ _ _ _ := .refl
  left _ _ _ _ inHand := ⟨inHand, rfl⟩

namespace Launch

/-- The first launch of all, with these troubles. -/
def troubledLaunch : LaunchOutcome × Trial :=
  (launch (JobSettings.job ⟨"import", false, none⟩) .empty fun execution => match none with
    | some rejected => return .rejected rejected
    | none => return .ran (← Launcher.run ⟨.usual, none⟩ (JobSettings.job ⟨"import", false, none⟩)
        execution)).runAmid .troubled ⟨.start, 0, []⟩

/-- The second try of the last write works. -/
theorem launch_accounted_troubled :
    Circumstances.troubled.LeavesRunning ∧ Session.Reaches Session.AnyEdit .start .start ∧
    troubledLaunch.2.session.Few ∧ (terminalWrites troubledLaunch.2.deeds).length = 2 ∧
    ∃ record, troubledLaunch.2.session.repository.executions.get? ⟨1⟩ = some record ∧
      record.FailedBy (.store .poisoned) ∧
      troubledLaunch.1 = .error (.repository (.store .poisoned)) := by
  have few : troubledLaunch.2.session.Few :=
    (by decide +kernel : troubledLaunch.2.session.writings.length < 2 ^ 64)
  have ended : troubledLaunch = (troubledLaunch.1, troubledLaunch.2) := rfl
  obtain ⟨id, record, own, found, accounted⟩ := launch_accounted
    Circumstances.leavesRunning_troubled ⟨.usual, none⟩ ⟨"import", false, none⟩ .empty none 0
    .refl rfl ended few
  obtain rfl := Option.some.inj own
  have trouble : troubles troubledLaunch.2.deeds = [.store .poisoned] := by decide +kernel
  have written : (terminalWrites troubledLaunch.2.deeds).getLast? = some (.ok ()) := by
    decide +kernel
  have facts := accounted.brokenOff (trouble ▸ List.mem_singleton.2 rfl) written
  exact ⟨Circumstances.leavesRunning_troubled, .refl, few, by decide +kernel, record, found, facts⟩

end Launch

end BatchRun
