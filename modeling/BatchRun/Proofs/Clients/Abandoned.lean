import BatchRun.Proofs.Clients.Calls
import BatchRun.Proofs.Clients.Reads
import BatchRun.Proofs.Interleaving.Overtaking
import BatchRun.Proofs.Operator
import BatchRun.Proofs.Repository.Claims

/-! # Executions that have been abandoned

An abandonment moves the status of an ended execution up. So a status that is unknown stays as it
is, and any other one becomes that of an abandoned execution. The write leaves all earlier copies
behind, so as long as nobody lowers the status of a copy, whatever calls come later, the stored
status is never lower than that. An execution whose status is unknown bars its instance for ever;
one that has been abandoned bars it to launches of jobs that are not restartable.
-/

namespace BatchRun

namespace BatchStatus

variable {status : BatchStatus}

private theorem upgradeTo_abandoned (ended : status.isRunning = false) :
    status.upgradeTo .abandoned = if status = .unknown then .unknown else .abandoned := by
  revert ended
  cases status <;> decide

private theorem eq_of_abandoned_le (ended : .abandoned ≤ status) :
    status = .abandoned ∨ status = .unknown := by
  revert ended
  cases status <;> decide

private theorem eq_unknown_of_le (highest : .unknown ≤ status) : status = .unknown := by
  revert highest
  cases status <;> decide

end BatchStatus

namespace Session

variable {Permitted : JobExecution → JobExecution → Prop} {session after next : Session}
  {id : JobExecutionId} {status : BatchStatus} {stored : JobExecution}
  {check : JobExecution → Except OperatorError Unit}

/-- The session after an operator has read this record and has moved its status up. -/
def movingUp (session : Session) (first second : Timestamp) (id : JobExecutionId)
    (status : BatchStatus) (stored : JobExecution) : Session :=
  let copy := (session.repository.assembled stored).upgradeStatus status
  ((session.call first (.execution id)).hold copy).call second (.update copy)

namespace Runs

private theorem execution_eq {read : Except RepositoryError (Option JobExecution)}
    (runs : Runs Permitted session (Calls.execution id : Program _) read after) :
    ∃ now, read = session.repository.execution id ∧ after = session.call now (.execution id) := by
  cases runs with
  | request now rest =>
    cases rest
    exact ⟨now, rfl, rfl⟩

private theorem update_eq {given : JobExecution} {written : Written JobExecution}
    (runs : Runs Permitted session (Calls.update given : Program _) written after) :
    ∃ now, written = (session.repository.update now given).1 ∧
      after = (session.hold given).call now (.update given) := by
  cases runs with
  | request now rest =>
    cases rest
    exact ⟨now, rfl, rfl⟩

private theorem tryStatus_cases {result : Except OperatorError (Written JobExecution)}
    (wellNumbered : session.repository.executions.Numbered)
    (runs : Runs Permitted session (Operator.tryStatus id status check : Program _) result after) :
    (∃ error, result = .error error) ∨
    ∃ stored first second, session.repository.executions.get? id = some stored ∧
      check (session.repository.assembled stored) = .ok () ∧
      result = .ok ⟨.ok (), session.repository.movedUp second status stored⟩ ∧
      after = session.movingUp first second id status stored := by
  unfold Operator.tryStatus at runs
  obtain ⟨read, middle, looks, rest⟩ := runs.bind_cases
  obtain ⟨first, rfl, rfl⟩ := looks.execution_eq
  rw [Repository.execution_eq wellNumbered] at rest
  cases found : session.repository.executions.get? id with
  | none =>
    rw [found] at rest
    cases rest
    exact .inl ⟨_, rfl⟩
  | some stored =>
    rw [found, Option.map_some] at rest
    cases checked : check (session.repository.assembled stored) with
    | error error =>
      simp only [checked] at rest
      cases rest
      exact .inl ⟨error, rfl⟩
    | ok =>
      simp only [checked] at rest
      obtain ⟨written, last, writes, ends⟩ := rest.bind_cases
      obtain ⟨second, rfl, rfl⟩ := writes.update_eq
      cases ends
      have numbered : ((session.repository.assembled stored).upgradeStatus status).id = some id :=
        (wellNumbered.numbered found :)
      have wrote := Repository.update_of_record second numbered found
      refine .inr ⟨stored, first, second, rfl, checked, ?_, rfl⟩
      exact congrArg (fun written => Except.ok written.1) wrote

/-- An operator moves the status up of the record that it finds, if this passes the check. -/
theorem writeStatus_cases {written : JobExecution} {more : Nat}
    (wellNumbered : session.repository.executions.Numbered)
    (runs : Runs Permitted session (Operator.writeStatus id status check more : Program _)
      (.ok written) after) :
    ∃ stored first second, session.repository.executions.get? id = some stored ∧
      check (session.repository.assembled stored) = .ok () ∧
      after = session.movingUp first second id status stored := by
  cases more <;>
  · obtain ⟨result, middle, tries, rest⟩ := runs.bind_cases
    rcases tries.tryStatus_cases wellNumbered with
      ⟨error, rfl⟩ | ⟨stored, first, second, found, passes, rfl, rfl⟩
    · cases rest
    · cases rest
      exact ⟨stored, first, second, found, passes, rfl⟩

/-- A record that has ended can be abandoned. -/
theorem abandon (first second : Timestamp) (wellNumbered : session.repository.executions.Numbered)
    (found : session.repository.executions.get? id = some stored)
    (ended : stored.isRunning = false) :
    Runs Permitted session (Operator.abandon id : Program _)
      (.ok (session.repository.movedUp second .abandoned stored))
      (session.movingUp first second id .abandoned stored) := by
  have passes : Operator.checkEnded id (session.repository.assembled stored) = .ok () := by
    have same : (session.repository.assembled stored).isRunning = false := ended
    unfold Operator.checkEnded
    rw [same]
    rfl
  have numbered : ((session.repository.assembled stored).upgradeStatus .abandoned).id = some id :=
    (wellNumbered.numbered found :)
  have wrote : (session.repository.update second
      ((session.repository.assembled stored).upgradeStatus .abandoned)).1 =
        ⟨.ok (), session.repository.movedUp second .abandoned stored⟩ :=
    congrArg Prod.fst (Repository.update_of_record second numbered found)
  have looks : Runs Permitted session (Calls.execution id : Program _)
      (.ok (some (session.repository.assembled stored))) (session.call first (.execution id)) := by
    have read := Repository.execution_eq wellNumbered id
    rw [found] at read
    exact read ▸ .request first (.done ..)
  have writes : Runs Permitted (session.call first (.execution id))
      (Calls.update ((session.repository.assembled stored).upgradeStatus .abandoned) : Program _)
      ⟨.ok (), session.repository.movedUp second .abandoned stored⟩
      (session.movingUp first second id .abandoned stored) :=
    wrote ▸ .request second (.done ..)
  have tries : Runs Permitted session
      (Operator.tryStatus id .abandoned (Operator.checkEnded id) : Program _)
      (.ok ⟨.ok (), session.repository.movedUp second .abandoned stored⟩)
      (session.movingUp first second id .abandoned stored) := by
    refine looks.bind ?_
    simp only [passes]
    exact writes.bind (.done ..)
  exact tries.bind (.done ..)

end Runs

/-! ## After the write -/

section Write

variable {first second : Timestamp} (sound : session.Sound)
  (found : session.repository.executions.get? id = some stored)

include sound found

private theorem found_movingUp :
    (session.movingUp first second id status stored).repository.executions.get? id =
      some (session.repository.movedUp second status stored) := by
  have numbered : ((session.repository.assembled stored).upgradeStatus status).id = some id :=
    (sound.traced.consistent.executions.numbered found :)
  have wrote := Repository.update_of_record second numbered found
  change (session.repository.update second _).2.executions.get? id = _
  rw [wrote]
  exact Repository.get?_withRecord.trans (if_pos rfl)

-- Whatever clients have done before, all copies of the execution keep up with its record after the
-- status has been moved up.
private theorem ranked_movingUp (ranked : RankedOf (fun _ => False) session)
    (few : (session.movingUp first second id status stored).Few) :
    RankedOf (· = id) (session.movingUp first second id status stored) := by
  have wellNumbered := sound.traced.consistent.executions.toNumbered
  have numbered : ((session.repository.assembled stored).upgradeStatus status).id = some id :=
    (wellNumbered.numbered found :)
  have looks : Step (RaisesOf fun _ => False) session (session.call first (.execution id)) :=
    .call first trivial
  have inHand : session.repository.assembled stored ∈
      (session.call first (.execution id)).executions := by
    refine List.mem_append_right _ ?_
    simp [Request.copies, Repository.answer, Repository.execution_eq wellNumbered, found]
  have written {values : List JobExecution} {copy : JobExecution} : copy ∈ values ++ [copy] :=
    List.mem_append_right _ (List.mem_singleton.2 rfl)
  have writes : Step (RaisesOf fun _ => False)
      ((session.call first (.execution id)).hold
        ((session.repository.assembled stored).upgradeStatus status))
      (session.movingUp first second id status stored) := .call second written
  have fewHeld := writes.few few
  have edits : Step (RaisesOf fun _ => False) (session.call first (.execution id))
      ((session.call first (.execution id)).hold
        ((session.repository.assembled stored).upgradeStatus status)) :=
    .edit inHand ⟨rfl, rfl, rfl, rfl⟩
      (fun step member => (sound.step looks fewHeld).inside _ inHand step member)
      fun _ _ concerns => concerns.elim
  have held := (ranked.step looks fewHeld).step edits fewHeld
  have after := held.update written numbered found few
  exact ⟨after.numbered, after.counted, after.stored, after.held, after.behind,
    fun same => after.keepsUp (.inr same)⟩

end Write

/-! ## What comes later -/

/-- The execution is stored, and its status is unknown. -/
private structure Stuck (id : JobExecutionId) (session : Session) : Prop where
  sound : session.Sound
  ranked : RankedOf (· = id) session
  stored : ∃ stored, session.repository.executions.get? id = some stored ∧
    stored.status = .unknown

private theorem Stuck.step (stuck : session.Stuck id)
    (step : Step (RaisesOf (· = id)) session next) (few : next.Few) : next.Stuck id := by
  have sound := stuck.sound.step step few
  have ranked := stuck.ranked.step step few
  obtain ⟨stored, found, unknown⟩ := stuck.stored
  refine ⟨sound, ranked, ?_⟩
  cases step with
  | call now inHand =>
    have unclaimable : stored.status ∉ BatchStatus.claimable := by
      rw [unknown]
      decide
    obtain ⟨later, lookup, rfl | ⟨copy, rfl, numbered, rfl⟩⟩ :=
      stuck.sound.kept_call few found unclaimable
    · exact ⟨later, lookup, unknown⟩
    · refine ⟨_, lookup, BatchStatus.eq_unknown_of_le ?_⟩
      exact unknown ▸ (stuck.ranked.keepsUp rfl inHand numbered found).refreshed
  | _ => exact ⟨stored, found, unknown⟩

private theorem Sound.jobInstance_eq {later : JobExecution} (sound : session.Sound)
    (after : next.Sound) (reaches : Reaches Permitted session next)
    (found : session.repository.executions.get? id = some stored)
    (there : next.repository.executions.get? id = some later) :
    later.jobInstance = stored.jobInstance := by
  obtain ⟨more, created⟩ := reaches.created
  have own := (sound.traced.executions.stored found).append more
  rw [← created] at own
  exact after.traced.numbers.owner (after.traced.executions.stored there) own

private theorem runs_launch_of_holds {launcher : Launcher} {settings : JobSettings}
    {parameters : JobParameters} {rejection : Option TaskRejected} {result : Call.Result}
    (consistent : session.repository.Consistent) (unrestartable : settings.restartable = false)
    (holds : session.repository.Holds settings.name parameters stored)
    (runs : Runs Permitted session (Call.launch launcher settings parameters rejection).program
      result after) :
    (∃ error, result = .launched (.error error)) ∧ after.repository = session.repository := by
  obtain ⟨outcome, middle, launches, ends⟩ := runs.bind_cases
  cases ends
  obtain ⟨claimed, between, claims, goesOn⟩ := launches.bind_cases
  suffices refused : (∃ error, claimed = .error error) ∧ between.repository = session.repository by
    obtain ⟨⟨error, rfl⟩, same⟩ := refused
    cases goesOn
    exact ⟨⟨error, rfl⟩, same⟩
  rcases Launch.claim_looksFirst settings parameters with
    ⟨error, isRefused⟩ | ⟨-, next, looks, goesOn⟩
  · rw [isRefused] at claims
    cases claims
    exact ⟨⟨error, rfl⟩, rfl⟩
  · rw [looks] at claims
    cases claims with
    | request now rest =>
      rcases goesOn (session.repository.lastExecution settings.name parameters) with
        ⟨value, isOver, error, rfl⟩ | ⟨last, same, passes, -⟩
      · change Runs Permitted _ (next (session.repository.lastExecution _ _)) claimed between
          at rest
        rw [isOver] at rest
        cases rest
        exact ⟨⟨error, rfl⟩, rfl⟩
      · rw [consistent.lastExecution_of_holds holds] at same
        have again := (passes _ (Except.ok.inj same).symm).2.1
        rw [unrestartable] at again
        contradiction

/-- What holds of an abandoned execution at any later time, if nobody lowers its status. -/
structure StaysAbandoned (id : JobExecutionId) (stored : JobExecution) (session : Session) :
    Prop where
  ended : ∀ last, session.repository.executions.get? id = some last →
    last.status = .abandoned ∨ last.status = .unknown
  /-- While it is stored, no launch of a job that is not restartable is admitted. -/
  refuses : ∀ last, session.repository.executions.get? id = some last →
    ∀ launcher settings parameters rejection result after, settings.restartable = false →
      stored.jobInstance.isFor settings.name parameters = true →
      Runs AnyEdit session (Call.launch launcher settings parameters rejection).program result
        after →
      (∃ error, result = .launched (.error error)) ∧ after.repository = session.repository
  /-- If its status was unknown, that bars the instance. -/
  bars : stored.status = .unknown →
    (∃ last, session.repository.executions.get? id = some last ∧ last.status = .unknown) ∧
    ∀ now jobName parameters, stored.jobInstance.isFor jobName parameters = true →
      session.repository.createExecution now jobName parameters =
        .error (.restart jobName (.unknownStatus id))
  /-- If its status is that of an abandoned execution, it bars nobody who does not ask whether the
  job is restartable: the next execution of the instance goes on with its context. -/
  resumes : ∀ last, session.repository.executions.get? id = some last → last.status = .abandoned →
    ∀ now jobName parameters, stored.jobInstance.isFor jobName parameters = true →
      ∃ execution after,
        session.repository.createExecution now jobName parameters = .ok (execution, after) ∧
        execution.context.entries = (session.repository.withContext last).context.entries

/-- The status of an execution that has been abandoned is that of an abandoned one, or it is still
unknown. Whatever calls come later whose bodies do not lower it, it is never another one. If it is
unknown, the instance is barred; otherwise it is barred to jobs that are not restartable only, and
any other claim goes on from the execution that was abandoned. -/
theorem abandoned_stays_ended {written : JobExecution} {abandoned : Session}
    (start : Reaches AnyEdit .start session)
    (abandons : Runs AnyEdit session (Operator.abandon id : Program _) (.ok written) abandoned)
    (later : Later (RaisesOf (· = id)) abandoned next) (few : next.Few) :
    ∃ stored record, session.repository.executions.get? id = some stored ∧
      stored.isRunning = false ∧ abandoned.repository.executions.get? id = some record ∧
      record.status = (if stored.status = .unknown then .unknown else .abandoned) ∧
      StaysAbandoned id stored next := by
  have permits (original given : JobExecution) (raises : original.status ≤ given.status) :
      RaisesOf (· = id) original given := fun _ _ _ => raises
  have fewAfter : abandoned.Few := later.few few
  have sound := start.sound (abandons.few fewAfter)
  obtain ⟨stored, first, second, found, passes, rfl⟩ :=
    abandons.writeStatus_cases sound.traced.consistent.executions.toNumbered
  have ended : stored.isRunning = false := Operator.isRunning_of_checkEnded passes
  have ranked : RankedOf (fun _ => False) session := start.invariant (abandons.few fewAfter) .start
    fun step few ranked => ranked.step (step.imp fun _ _ _ _ _ concerns => concerns.elim) few
  have rankedAfter := ranked_movingUp sound found ranked fewAfter
  have foundAfter := @found_movingUp session id .abandoned stored first second sound found
  have made : Reaches AnyEdit session (session.movingUp first second id .abandoned stored) :=
    abandons.reaches (fun _ _ _ => trivial) (Operator.Follows.hand Operator.custody_abandon)
      (fun _ member => absurd member List.not_mem_nil) sound fewAfter
  have soundAfter := sound.reaches made fewAfter
  have status : (session.repository.movedUp second .abandoned stored).status =
      if stored.status = .unknown then .unknown else .abandoned :=
    Repository.status_movedUp.trans (BatchStatus.upgradeTo_abandoned ended)
  refine ⟨stored, _, found, ended, foundAfter, status, ?_⟩
  have onward := later.reaches permits soundAfter few
  have holds {last : JobExecution} {jobName : String} {parameters : JobParameters}
      (there : next.repository.executions.get? id = some last)
      (isFor : stored.jobInstance.isFor jobName parameters = true) :
      next.repository.Holds jobName parameters last := by
    have soundNext := soundAfter.reaches onward few
    have bound := Nat.lt_of_le_of_lt soundNext.traced.numbers.instances few.registers.1
    refine (soundNext.traced.consistent.holds_iff bound).2 ⟨id, there, ?_⟩
    rw [soundAfter.jobInstance_eq soundNext onward foundAfter there]
    exact JobInstance.isFor_iff_target.1 isFor
  have consistent := (soundAfter.reaches onward few).traced.consistent
  constructor
  case ended =>
    intro last there
    obtain ⟨-, rises⟩ := rankedAfter.reaches onward few
    obtain ⟨former, lookup, above⟩ := rises.origin rfl (rankedAfter.stored foundAfter).1 there
    obtain rfl := Option.some.inj (lookup.symm.trans foundAfter)
    refine BatchStatus.eq_of_abandoned_le (BatchStatus.le_trans ?_ above)
    rw [status]
    split <;> decide
  case refuses =>
    intro last there launcher settings parameters rejection result after unrestartable isFor runs
    exact runs_launch_of_holds consistent unrestartable (holds there isFor) runs
  case bars =>
    intro unknown
    have stuck : next.Stuck id := onward.invariant few
      ⟨soundAfter, rankedAfter, _, foundAfter, status.trans (if_pos unknown)⟩
      fun step few stuck => stuck.step step few
    obtain ⟨last, there, stillUnknown⟩ := stuck.stored
    refine ⟨⟨last, there, stillUnknown⟩, fun now jobName parameters isFor => ?_⟩
    exact (consistent.createExecution_eq_error_iff now).2 ⟨last, holds there isFor,
      .unknown (consistent.executions.numbered there) stillUnknown⟩
  case resumes =>
    intro last there isAbandoned now jobName parameters isFor
    rcases consistent.claim_of_holds (holds there isFor) with
      ⟨-, known, -, granted⟩ | ⟨error, bars, -⟩
    · exact ⟨_, _, Repository.createExecution_of_granted now granted, rfl⟩
    · refine absurd ?_ bars.unclaimable
      rw [isAbandoned]
      decide

/-! ## An execution that is abandoned -/

/-- The first execution has been stored with a status. -/
private def firstAs (status : BatchStatus) : JobExecution :=
  { firstCopy with status, version := 2, lastUpdated := some ⟨1, 0⟩ }

/-- A client has stored its execution with a status. -/
private def storedAs (status : BatchStatus) : Session :=
  (opened.hold { firstCopy with status }).call ⟨1, 0⟩ (.update { firstCopy with status })

private theorem reaches_storedAs (status : BatchStatus) :
    Reaches AnyEdit .start (storedAs status) :=
  (reaches_opened.edit { firstCopy with status } firstCopy_mem ⟨rfl, rfl, rfl, rfl⟩
    (fun _ member => absurd member List.not_mem_nil) trivial).call ⟨1, 0⟩ _
    (List.mem_append_right _ (List.mem_singleton.2 rfl))

/-- An operator has abandoned it. -/
private def abandonedAs (status : BatchStatus) : Session :=
  (storedAs status).movingUp ⟨2, 0⟩ ⟨3, 0⟩ ⟨1⟩ .abandoned (firstAs status)

private theorem runs_abandon {status : BatchStatus} (ended : status.isRunning = false) :
    Runs AnyEdit (storedAs status) (Operator.abandon ⟨1⟩ : Program _)
      (.ok ((storedAs status).repository.movedUp ⟨3, 0⟩ .abandoned (firstAs status)))
      (abandonedAs status) :=
  Runs.abandon _ _
    ((reaches_storedAs status).sound
      (by decide : 2 < 2 ^ 64)).traced.consistent.executions.toNumbered
    rfl ended

/-- The first execution of all is abandoned, once when its status is unknown and once when it has
failed. -/
theorem abandoned_stays_ended_unknown :
    StaysAbandoned ⟨1⟩ (firstAs .unknown)
      ((abandonedAs .unknown).call ⟨4, 0⟩ (.createExecution "import" .empty)) ∧
    StaysAbandoned ⟨1⟩ (firstAs .failed) (abandonedAs .failed) ∧
    ((abandonedAs .failed).repository.executions.get? ⟨1⟩).map (·.status) = some .abandoned := by
  have claims : Later (RaisesOf (· = (⟨1⟩ : JobExecutionId))) (abandonedAs .unknown)
      ((abandonedAs .unknown).call ⟨4, 0⟩ (.createExecution "import" .empty)) :=
    .single (.claim ..)
  obtain ⟨stored, record, found, -, -, -, stays⟩ := abandoned_stays_ended
    (reaches_storedAs .unknown) (runs_abandon rfl) claims (by decide : 3 < 2 ^ 64)
  obtain rfl : firstAs .unknown = stored := Option.some.inj found
  obtain ⟨failed, record, found, -, -, -, goesOn⟩ := abandoned_stays_ended
    (reaches_storedAs .failed) (runs_abandon rfl) .refl (by decide : 3 < 2 ^ 64)
  obtain rfl : firstAs .failed = failed := Option.some.inj found
  exact ⟨stays, goesOn, rfl⟩

/-! A job body can store the execution with a lower status. -/

private def exporting : JobSettings := ⟨"export", false, none⟩

private def secondCopy : JobExecution :=
  { JobExecution.create ⟨5, 0⟩ (.of ⟨2⟩ "export" .empty) .empty with
    id := some ⟨2⟩, version := 1, lastUpdated := some ⟨5, 0⟩ }

private def claimed : Session :=
  ((abandonedAs .unknown).call ⟨4, 0⟩ (.lastExecution "export" .empty)).call ⟨5, 0⟩
    (.createExecution "export" .empty)

private def startedCopy : JobExecution :=
  { secondCopy with startTime := some ⟨6, 0⟩, status := .started }

private def begun : Session := (claimed.hold startedCopy).call ⟨7, 0⟩ (.update startedCopy)

private def executing : JobExecution :=
  { startedCopy with version := 2, lastUpdated := some ⟨7, 0⟩, exitStatus := .executing }

private def loweredCopy : JobExecution :=
  { firstAs .failed with version := 3, lastUpdated := some ⟨3, 0⟩ }

private def lowered : Session :=
  ((begun.hold executing).hold loweredCopy).call ⟨8, 0⟩ (.update loweredCopy)

private theorem works : Reaches AnyEdit (begun.hold executing) lowered := by
  have inHand : { firstAs .unknown with version := 3, lastUpdated := some ⟨3, 0⟩ } ∈
      (begun.hold executing).executions :=
    List.mem_of_getElem? (i := 5) rfl
  exact (Reaches.edit .refl loweredCopy inHand ⟨rfl, rfl, rfl, rfl⟩
    (fun _ member => absurd member List.not_mem_nil) trivial).call ⟨8, 0⟩ _
    (List.mem_append_right _ (List.mem_singleton.2 rfl))

private theorem runs_attempts :
    Runs AnyEdit begun (Run.attempts exporting.job .once { executing with exitStatus := .unknown } :
      Program _) (.ok (), executing) lowered := by
  unfold Run.attempts Retry.execute
  rw [Retry.attemptFrom, StateT.run_bind]
  have inHand : executing ∈ lowered.executions := List.mem_of_getElem? (i := 9) rfl
  have ran : Runs AnyEdit begun _ _ lowered :=
    @Runs.body AnyEdit _ begun lowered lowered executing executing .finished _ _ works inHand
      (.done ..)
  exact ran.bind (.done ..)

private def completedCopy : JobExecution :=
  { executing with
    status := .completed, exitStatus := ExitStatus.executing.and .completed,
    endTime := some ⟨10, 0⟩ }

private def writtenCopy : JobExecution :=
  { completedCopy with version := 3, lastUpdated := some ⟨11, 0⟩ }

private def restored : Session :=
  let filed := (lowered.hold executing).call ⟨9, 0⟩ (.synchronize executing)
  (((filed.hold completedCopy).call ⟨11, 0⟩ (.update completedCopy)).hold writtenCopy).call ⟨12, 0⟩
    (.updateContext writtenCopy)

private theorem later_restored : Later AnyEdit (abandonedAs .unknown) restored := by
  have claims : Runs AnyEdit (abandonedAs .unknown)
      (Launch.claim exporting.job .empty : Program _) (.ok secondCopy) claimed :=
    .request ⟨4, 0⟩ (.request ⟨5, 0⟩ (.done ..))
  have runs : Runs AnyEdit claimed (Launcher.run ⟨.once, none⟩ exporting.job secondCopy : Program _)
      (.ok writtenCopy) restored := by
    refine .now ⟨6, 0⟩ (.request ⟨7, 0⟩ (runs_attempts.bind ?_))
    exact .request ⟨9, 0⟩ (.now ⟨10, 0⟩ (.request ⟨11, 0⟩ (.request ⟨12, 0⟩ (.done ..))))
  have launches : Runs AnyEdit (abandonedAs .unknown)
      (Call.launch ⟨.once, none⟩ exporting .empty none).program (.launched (.ok writtenCopy))
      restored := by
    refine (claims.bind ?_).bind (.done ..)
    refine Runs.bind (runs.bind (.done restored (Dispatched.ran (.ok writtenCopy)))) ?_
    exact .done restored (Except.ok writtenCopy : LaunchOutcome)
  exact .single (.call _ launches)

/-- The status of an execution that has been abandoned need not be that of an abandoned one, the
next claim of the instance can go through, and a body can lower a status that is unknown. -/
theorem abandonment_not_final :
    ¬ (∀ session id written abandoned, Reaches AnyEdit .start session →
      Runs AnyEdit session (Operator.abandon id : Program _) (.ok written) abandoned →
      abandoned.Few →
      ∃ record, abandoned.repository.executions.get? id = some record ∧
        record.status = .abandoned) ∧
    ¬ (∀ session id written abandoned next, Reaches AnyEdit .start session →
      Runs AnyEdit session (Operator.abandon id : Program _) (.ok written) abandoned →
      Later AnyEdit abandoned next → next.Few →
      ∀ stored jobName parameters now, session.repository.executions.get? id = some stored →
        stored.jobInstance.isFor jobName parameters = true →
        ∃ error, next.repository.createExecution now jobName parameters = .error error) ∧
    ¬ (∀ session id written abandoned next, Reaches AnyEdit .start session →
      Runs AnyEdit session (Operator.abandon id : Program _) (.ok written) abandoned →
      Later AnyEdit abandoned next → next.Few →
      ∀ record, next.repository.executions.get? id = some record →
        record.status = .abandoned ∨ record.status = .unknown) := by
  refine ⟨fun abandons => ?_, fun final => ?_, fun stays => ?_⟩
  · obtain ⟨record, found, abandoned⟩ := abandons _ _ _ _ (reaches_storedAs .unknown)
      (runs_abandon rfl) (by decide : 3 < 2 ^ 64)
    obtain rfl := Option.some.inj found
    contradiction
  · obtain ⟨error, refused⟩ := final _ _ _ _ _ (reaches_storedAs .failed) (runs_abandon rfl) .refl
      (by decide : 3 < 2 ^ 64) (firstAs .failed) "import" .empty ⟨4, 0⟩ rfl (by decide)
    contradiction
  · have lowered := stays _ _ _ _ _ (reaches_storedAs .unknown) (runs_abandon rfl) later_restored
      (by decide : 8 < 2 ^ 64) _ rfl
    contradiction

end Session

end BatchRun
