import BatchRun.Proofs.Interleaving.SingleFlight
import BatchRun.Proofs.Launch.Admission
import BatchRun.Proofs.Operator
import Mathlib.Tactic.Choose

/-! # When a completed instance can run again

An execution that has been stored as completed keeps its instance from being claimed, as long as
it has not been abandoned: stops, late writes of old copies and other launches never move it to a
status that another execution may follow. An operator may abandon a completed execution, though,
and then its instance can be launched again.
-/

namespace BatchRun

/-- The statuses of an execution that holds its instance or has completed it. -/
def BatchStatus.closed : List BatchStatus := [starting, started, stopping, completed]

private theorem BatchStatus.unclaimable_of_closed :
    ∀ status ∈ closed, status ∉ claimable := by
  decide

private theorem BatchStatus.closed_of_running : ∀ status ∈ running, status ∈ closed := by decide

private theorem BatchStatus.abandoned_of_closed : ∀ status ∈ closed,
    status.upgradeTo .abandoned = .abandoned ∧ abandoned.upgradeTo status = .abandoned := by decide

/-- No step of the last execution is running, and the end of none is unknown. -/
def Repository.Settled (repository : Repository) (jobName : String) (parameters : JobParameters) :
    Prop :=
  ∀ last, repository.lastExecution jobName parameters = .ok (some last) →
    ∀ step ∈ last.steps, step.status.isRunning = false ∧ step.status ≠ .unknown

namespace System

variable {ι : Type} {calls : ι → Call} {s t u : System ι} {i j : ι}
  {held stored copy : JobExecution} {id : JobExecutionId} {moment : Timestamp} {request : Request}
  {next : request.Answer → Program Call.Result}

/-- The record of this copy has been completed, and it never had a status that another execution
may follow. -/
structure Completed (s : System ι) (copy : JobExecution) : Prop where
  pinned : s.books.Pinned BatchStatus.closed copy
  reached : ∃ record ∈ s.books.past, record.id = copy.id ∧ record.status = .completed

namespace Completed

/-- Nobody holds a completed execution. -/
theorem not_held (completed : s.Completed copy) (sound : Sound calls s)
    (holding : (s.threads i).held = some held) : held.id ≠ copy.id := by
  intro same
  obtain ⟨record, member, sameId, status⟩ := completed.reached
  have running := (sound.holds holding).1.always record member (sameId.trans same.symm)
  rw [status] at running
  exact absurd running (by decide)

/-- Only an abandonment writes a completed record with another status than the closed ones. -/
theorem write_cases {next : _ → Program Call.Result} (completed : s.Completed copy)
    (sound : Sound calls s) {write : JobExecution}
    (ready : (s.threads i).program = .act (.request (.update write)) next)
    (same : write.id = copy.id) :
    write.status ∈ BatchStatus.closed ∨ write.status = .abandoned := by
  rcases sound.write_cases ready with
    ⟨mine, holding, sameRecord⟩ | ⟨read, record, past, copyOf, raised⟩
  · exact absurd (sameRecord.1.symm.trans same) (completed.not_held sound holding)
  · have sameId : read.id = copy.id := by
      rcases raised with ⟨-, rfl⟩ | ⟨-, rfl⟩ <;> exact same
    have status : read.status ∈ BatchStatus.closed := by
      rw [copyOf.2]
      exact completed.pinned.always record past (copyOf.1.1.symm.trans sameId)
    rcases raised with ⟨running, rfl⟩ | ⟨-, rfl⟩
    · exact .inl (BatchStatus.closed_of_running _ (BatchStatus.stopping_of_running running))
    · exact .inr (BatchStatus.abandoned_of_closed _ status).1

/-- A write that would abandon a completed record does so. -/
theorem abandoned_of_write (completed : s.Completed copy) (sound : Sound calls s)
    {write : JobExecution} (same : write.id = copy.id) (status : write.status = .abandoned) :
    ∃ record ∈ (s.books.after moment (.update write)).past,
      record.id = copy.id ∧ record.status = .abandoned := by
  obtain ⟨id, stored, numbered, found, -⟩ := completed.pinned.stored
  have closed := completed.pinned.always stored (sound.books.remembered found)
    ((sound.books.consistent.executions.numbered found).trans numbered.symm)
  refine ⟨Repository.written moment write stored, ?_, same, ?_⟩
  · apply Books.mem_past_after.2
    refine .inl ⟨id, ?_⟩
    rw [Books.repository_after, Repository.answer,
      Repository.update_of_record moment (same.trans numbered) found]
    exact (Repository.get?_withRecord ..).trans (if_pos rfl)
  · rw [← status]
    apply Repository.status_written_of_highest
    rw [status]
    exact (BatchStatus.abandoned_of_closed _ closed).2

/-- As long as a record is completed, nobody else holds its instance. -/
theorem not_held_of_isFor (completed : s.Completed copy) (sound : Sound calls s)
    (isFor : (calls j).IsFor copy) : (s.threads j).held = none := by
  by_contra holding
  obtain ⟨held, holding⟩ := Option.ne_none_iff_exists'.1 holding
  obtain ⟨pinned, heldFor⟩ := sound.holds holding
  have targets := Option.some.inj (heldFor.symm.trans isFor)
  exact completed.not_held sound holding (sound.books.id_eq_of_pinned pinned completed.pinned
    (congrArg Prod.fst targets) (congrArg Prod.snd targets))

/-- A completed record refuses every claim of its instance. -/
theorem refused (completed : s.Completed copy) (sound : Sound calls s) {jobName : String}
    {parameters : JobParameters} (matching : copy.jobInstance.isFor jobName parameters = true)
    (moment : Timestamp) :
    ∃ error, s.books.repository.createExecution moment jobName parameters = .error error := by
  obtain ⟨id, stored, numbered, found, same⟩ := completed.pinned.stored
  have consistent := sound.books.consistent
  have known := consistent.instances.get?_of_mem (consistent.belongs found) (same.2 ▸ matching)
  have closed := completed.pinned.always stored (sound.books.remembered found)
    ((consistent.executions.numbered found).trans numbered.symm)
  rcases Repository.claim_decided consistent.executions.toNumbered jobName parameters with
    ⟨claimable, -⟩ | ⟨-, error, rejected, -⟩
  · exact absurd (claimable stored ⟨stored.jobInstance, id, known, found, rfl⟩)
      (BatchStatus.unclaimable_of_closed _ closed)
  · exact ⟨error, Repository.createExecution_of_refused rejected⟩

/-- A launch that stores its execution as completed. -/
theorem of_step [DecidableEq ι] (sound : Sound calls s) (afterwards : Sound calls t)
    (step : Step s t) (holding : (s.threads i).held = some held) (numbered : held.id = some id)
    (found : t.books.repository.executions.get? id = some stored)
    (status : stored.status = .completed) : t.Completed held := by
  obtain ⟨pinned, -⟩ := sound.holds holding
  obtain ⟨first, record, -, lookup, same⟩ := pinned.stored
  have consistent := afterwards.books.consistent
  have storedId := consistent.executions.numbered found
  have past := step.past_le record (sound.books.remembered lookup)
  have member := afterwards.books.remembered found
  have sameInstance := afterwards.books.belongs past member
    (same.1.symm.trans (numbered.trans storedId.symm))
  refine ⟨⟨⟨id, stored, numbered, found, numbered.trans storedId.symm, same.2.trans sameInstance⟩,
    fun other inside otherId => ?_⟩, stored, member, storedId.trans numbered.symm, status⟩
  rcases step.past_cases inside with before | ⟨key, now⟩
  · exact BatchStatus.closed_of_running _ (pinned.always other before otherId)
  · have keys : key = id := Option.some.inj
      ((consistent.executions.numbered now).symm.trans (otherId.trans numbered))
    rw [keys, found] at now
    rw [← Option.some.inj now, status]
    decide

private theorem after (completed : s.Completed copy) (sound : Sound calls s)
    (genuine : s.books.Genuine request)
    (bound : (s.books.after moment request).created < 2 ^ 64)
    (quiet : ∀ write, request = .update write → write.id = copy.id →
      write.status ∈ BatchStatus.closed) {threads : ι → Thread} :
    Completed ⟨s.books.after moment request, threads⟩ copy := by
  constructor
  · exact completed.pinned.after sound.books genuine bound BatchStatus.unclaimable_of_closed quiet
  · obtain ⟨record, member, sameId, status⟩ := completed.reached
    exact ⟨record, Books.mem_past_after.2 (.inr member), sameId, status⟩

variable [DecidableEq ι]

/-- A completed record stays completed by every step that does not abandon it. -/
theorem step (completed : s.Completed copy) (sound : Sound calls s) (step : Step s t)
    (bound : t.books.created < 2 ^ 64)
    (never : ∀ record ∈ t.books.past, record.id = copy.id → record.status ≠ .abandoned) :
    t.Completed copy := by
  cases step with
  | request i moment ready =>
    apply completed.after sound (sound.genuine_of_ready ready) bound
    rintro write rfl same
    rcases completed.write_cases sound ready same with closed | abandoned
    · exact closed
    · obtain ⟨record, member, sameId, status⟩ :=
        completed.abandoned_of_write sound same abandoned
      exact absurd status (never record member sameId)
  | other i ready answer admitted => exact ⟨completed.pinned, completed.reached⟩
  | client moment request honest =>
    apply completed.after sound honest.genuine bound
    intro write write_eq same
    obtain ⟨id, -, numbered, -⟩ := completed.pinned.stored
    obtain ⟨record, inside, copyOf⟩ := honest write write_eq (by rw [same, numbered]; simp)
    rw [copyOf.2]
    exact completed.pinned.always record inside (copyOf.1.1.symm.trans same)

/-- An execution stays completed until it is abandoned. -/
theorem reaches (completed : s.Completed copy) (sound : Sound calls s) (reaches : Reaches s t)
    (bound : t.books.created < 2 ^ 64)
    (never : ∀ record ∈ t.books.past, record.id = copy.id → record.status ≠ .abandoned) :
    t.Completed copy := by
  induction reaches with
  | refl => exact completed
  | @tail middle last path final ih =>
    have before := Nat.lt_of_le_of_lt final.created_le bound
    have earlier : middle.Completed copy := ih before fun record member =>
      never record (final.past_le record member)
    exact earlier.step (sound.reaches path before) final bound never

end Completed

/-- What a launch holds is for its job and for all parameters with the same identity. -/
theorem isFor_of_held {launcher : Launcher} {settings : JobSettings} {parameters : JobParameters}
    {rejection : Option TaskRejected} (sound : Sound calls s)
    (call : calls i = .launch launcher settings parameters rejection)
    (holding : (s.threads i).held = some held) {others : JobParameters}
    (same : others.identityKey = parameters.identityKey) :
    held.jobInstance.isFor settings.name others = true := by
  obtain ⟨-, isFor⟩ := sound.holds holding
  unfold Call.IsFor at isFor
  rw [call] at isFor
  have targets := Option.some.inj isFor
  have sameName := congrArg Prod.fst targets
  have sameKey := congrArg Prod.snd targets
  exact JobInstance.isFor_iff.2 ⟨sameName.symm, sameKey.symm.trans same.symm⟩

/-- A record never changes to another instance. -/
theorem jobInstance_of_held [DecidableEq ι] (before : Sound calls s) (sound : Sound calls u)
    (path : Reaches s u) (holding : (s.threads i).held = some held) (numbered : held.id = some id)
    (found : u.books.repository.executions.get? id = some stored) :
    held.jobInstance = stored.jobInstance := by
  obtain ⟨pinned, -⟩ := before.holds holding
  obtain ⟨first, record, -, lookup, same⟩ := pinned.stored
  have past := Reaches.past_le path record (before.books.remembered lookup)
  have storedId := sound.books.consistent.executions.numbered found
  rw [same.2]
  exact sound.books.belongs past (sound.books.remembered found)
    (same.1.symm.trans (numbered.trans storedId.symm))

/-- A completed execution can be abandoned. Then a launch of its instance is admitted just as after
a failure. -/
theorem admits_of_abandon (behaviour : Behaviour) {world : World}
    (consistent : world.repository.Consistent)
    (found : world.repository.executions.get? id = some stored)
    (completed : stored.status = .completed) :
    ∃ abandoned after, (Operator.abandon id : Program _).run behaviour world =
        (.ok abandoned, after) ∧ abandoned.status = .abandoned ∧
      ∀ (again : JobSettings) (parameters : JobParameters),
        stored.jobInstance.isFor again.name parameters = true →
        (Launch.Admits after.repository again parameters ↔ again.Accepts parameters ∧
          again.restartable = true ∧ after.repository.Settled again.name parameters) := by
  have numbered := consistent.executions.numbered found
  have ended : stored.isRunning = false := by
    unfold JobExecution.isRunning
    rw [completed]
    rfl
  obtain ⟨now, copy, after, same, -, ran, next, status⟩ :=
    Operator.run_abandon behaviour numbered found ended
  have afterwards : after.repository.Consistent := by
    rw [next]
    exact consistent.withRecord now (same.1.trans numbered) found same.2
  have lookup : after.repository.executions.get? id =
      some (Repository.written now copy stored) := by
    rw [next]
    exact (Repository.get?_withRecord ..).trans (if_pos rfl)
  have abandoned : (Repository.written now copy stored).status = .abandoned := by
    rw [status, completed]
    rfl
  refine ⟨_, after, ran, abandoned, fun again parameters matching => ?_⟩
  have known := afterwards.instances.get?_of_mem (afterwards.belongs lookup)
    (same.2 ▸ matching : copy.jobInstance.isFor again.name parameters = true)
  have holds : after.repository.Holds again.name parameters
      (Repository.written now copy stored) := ⟨_, id, known, lookup, rfl⟩
  rcases Repository.lastExecution_cases afterwards.executions.toNumbered again.name parameters with
    ⟨-, nothing⟩ | ⟨last, context, steps, -, read⟩
  · exact absurd holds (nothing _)
  rw [Launch.admits_iff_of_holds holds read]
  constructor
  · rintro ⟨accepts, -, restartable, settled⟩
    refine ⟨accepts, restartable, fun last sameRead => ?_⟩
    rw [← Option.some.inj (Except.ok.inj (read.symm.trans sameRead))]
    exact settled
  · rintro ⟨accepts, restartable, settled⟩
    refine ⟨accepts, fun other otherHolds => ?_, restartable, settled _ read⟩
    rw [afterwards.eq_of_holds holds otherHolds, abandoned]
    decide

/-- Once a launch has stored its execution as completed, and as long as the record has not been
abandoned, no launch of the instance creates another execution or runs its body, whatever is
requested meanwhile. But a record that is still completed can be abandoned, and from then on the
instance is launched again, if the job may run again and accepts the parameters and the steps of
the record have ended. -/
theorem completed_until_abandoned [DecidableEq ι] (calls : ι → Call) {launcher : Launcher}
    {settings : JobSettings} {parameters : JobParameters} {rejection : Option TaskRejected}
    (call : calls i = .launch launcher settings parameters rejection)
    (reached : Reaches (start calls) s) (write : Step s t) (later : Reaches t u)
    (bound : u.books.created < 2 ^ 64) (holding : (s.threads i).held = some held)
    (numbered : held.id = some id) (found : t.books.repository.executions.get? id = some stored)
    (completed : stored.status = .completed) :
    ((∀ record ∈ u.books.past, record.id = some id → record.status ≠ .abandoned) →
      (∀ j, (calls j).target? = (calls i).target? →
        (u.threads j).held = none ∧ ¬ (u.threads j).InBody) ∧
      ∀ others : JobParameters, others.identityKey = parameters.identityKey →
        ∀ moment, ∃ error,
          u.books.repository.createExecution moment settings.name others = .error error) ∧
    (∀ current, u.books.repository.executions.get? id = some current →
      current.status = .completed →
      ∀ behaviour world, world.repository = u.books.repository →
        ∃ abandoned after, (Operator.abandon id : Program _).run behaviour world =
            (.ok abandoned, after) ∧ abandoned.status = .abandoned ∧
          ∀ (again : JobSettings) (others : JobParameters), again.name = settings.name →
            others.identityKey = parameters.identityKey →
            (Launch.Admits after.repository again others ↔ again.Accepts others ∧
              again.restartable = true ∧ after.repository.Settled again.name others)) := by
  have boundAtWrite := Nat.lt_of_le_of_lt (Reaches.created_le later) bound
  have before := (Sound.start calls).reaches reached
    (Nat.lt_of_le_of_lt write.created_le boundAtWrite)
  have afterWrite := before.step write boundAtWrite
  have sound := afterWrite.reaches later bound
  constructor
  · intro never
    have atWrite := Completed.of_step before afterWrite write holding numbered found completed
    have still := atWrite.reaches afterWrite later bound
      fun record member sameId => never record member (sameId.trans numbered)
    constructor
    · intro j sameTarget
      obtain ⟨-, isFor⟩ := before.holds holding
      have free := still.not_held_of_isFor sound (sameTarget.trans isFor : (calls j).IsFor held)
      refine ⟨free, fun inBody => ?_⟩
      obtain ⟨other, otherHolding⟩ := sound.held_of_inBody inBody
      exact absurd (free.symm.trans otherHolding) (by simp)
    · intro others sameKey
      exact still.refused sound (isFor_of_held before call holding sameKey)
  · intro current foundNow completedNow behaviour world same
    have sameInstance :=
      jobInstance_of_held before sound (later.head write) holding numbered foundNow
    obtain ⟨abandoned, after, ran, status, admits⟩ := admits_of_abandon behaviour
      (same ▸ sound.books.consistent) (same ▸ foundNow) completedNow
    refine ⟨abandoned, after, ran, status, fun again others sameName sameKey => ?_⟩
    apply admits again others
    rw [sameName, ← sameInstance]
    exact isFor_of_held before call holding sameKey

private theorem attempts_of_finished (settings : JobSettings) (policy : RetryPolicy)
    (execution : JobExecution) : ∃ next,
    (Run.attempts settings.job policy execution : Program _) =
      .act (.invoke { execution with exitStatus := .executing }) next ∧
    ∀ left, next (.finished, left) = .done (.ok (), left) := by
  obtain ⟨next, invokes, ends, -⟩ := Launch.attempts_first settings policy execution
  exact ⟨next, invokes, ends⟩

/-- The first launch of a job completes, its execution is abandoned, and the job can be launched
again. -/
theorem completed_until_abandoned_first :
    ∃ (s t : System Unit) (stored abandoned : JobExecution) (after : World),
      Reaches (start fun _ => .launch ⟨.usual, none⟩ ⟨"import", true, none⟩ .empty none) s ∧
      Step s t ∧ t.books.repository.executions.get? ⟨1⟩ = some stored ∧
      stored.status = .completed ∧
      (Operator.abandon ⟨1⟩ : Program _).run .idle ⟨t.books.repository, fun _ => ⟨0, 0⟩, 0, []⟩ =
        (.ok abandoned, after) ∧
      abandoned.status = .abandoned ∧
      Launch.Admits after.repository ⟨"import", true, none⟩ .empty := by
  choose next invokes ends using attempts_of_finished ⟨"import", true, none⟩ .usual
  have claimed := ((Relation.ReflTransGen.refl (r := Step) (a := start fun _ : Unit =>
    .launch ⟨.usual, none⟩ ⟨"import", true, none⟩ .empty none)).tail
      (.request () ⟨0, 0⟩ rfl)).tail (.request () ⟨0, 0⟩ rfl)
  have started := (claimed.tail (@Step.other _ _ _ () .now _ rfl ⟨0, 0⟩ trivial)).tail
    (.request () ⟨0, 0⟩ rfl)
  have ended := started.tail (@Step.other _ _ _ () (.invoke _) _ (inside_launch (invokes _))
    (.finished, _) (.refl _))
  have refreshed := (ended.tail (.request () ⟨0, 0⟩ (inside_launch (ends _ _)))).tail
    (@Step.other _ _ _ () .now _ rfl ⟨0, 0⟩ trivial)
  obtain ⟨-, again⟩ := completed_until_abandoned (i := ())
    (fun _ => .launch ⟨.usual, none⟩ ⟨"import", true, none⟩ .empty none) rfl refreshed
    (.request () ⟨0, 0⟩ rfl) .refl (by decide : 1 < 2 ^ 64) rfl rfl rfl rfl
  obtain ⟨abandoned, after, ran, status, admits⟩ := again _ rfl rfl .idle
    ⟨_, fun _ => ⟨0, 0⟩, 0, []⟩ rfl
  have settled : after.repository.Settled "import" .empty := by
    have vacant : (after.repository.lastExecution "import" .empty).toOption.join.all
        (·.steps.isEmpty) = true := by
      have isAfter : _ = after := congrArg Prod.snd ran
      rw [← isAfter]
      -- What is left of the launch drops out, and only the repository is evaluated.
      dsimp only
      decide +kernel
    intro last read step member
    rw [read] at vacant
    exact absurd (List.isEmpty_iff.1 vacant ▸ member) List.not_mem_nil
  exact ⟨_, _, _, abandoned, after, refreshed, .request () ⟨0, 0⟩ rfl, rfl, rfl, ran, status,
    (admits ⟨"import", true, none⟩ .empty rfl rfl).2
      ⟨fun _ absent => (nomatch absent), rfl, settled⟩⟩

end System

end BatchRun
