import BatchRun.Proofs.Launch.Admission
import BatchRun.Proofs.Repository.Changes
import BatchRun.Proofs.Repository.Reading

/-! # What a stored execution does to a claim

In a consistent repository at most one execution is stored for a job and its parameters. It alone
decides whether the instance can be claimed. While it bars the instance, there is exactly one error
that tells why.
-/

namespace BatchRun.Repository

variable {repository : Repository} {jobName : String} {parameters : JobParameters}
  {stored : JobExecution} {error : RepositoryError}

/-- The errors by which a stored execution keeps its instance from being claimed. -/
inductive Bars (jobName : String) (parameters : JobParameters) (stored : JobExecution) :
    RepositoryError → Prop
  | running {id : JobExecutionId} (numbered : stored.id = some id)
      (running : stored.isRunning = true) :
      Bars jobName parameters stored (.alreadyRunning jobName id)
  | unknown {id : JobExecutionId} (numbered : stored.id = some id)
      (unknown : stored.status = .unknown) :
      Bars jobName parameters stored (.restart jobName (.unknownStatus id))
  | completed (completed : stored.status = .completed) :
      Bars jobName parameters stored (.instanceComplete jobName parameters.identityKey)

/-- An execution that bars its instance is not one that may be followed by another. -/
theorem Bars.unclaimable (bars : Bars jobName parameters stored error) :
    stored.status ∉ BatchStatus.claimable := by
  cases bars with
  | running numbered running => exact JobExecution.unclaimable_of_running running
  | unknown numbered unknown =>
    rw [unknown]
    decide
  | completed completed =>
    rw [completed]
    decide

/-- The execution tells for what reason it bars its instance. -/
theorem Bars.unique {other : RepositoryError} (bars : Bars jobName parameters stored error)
    (otherwise : Bars jobName parameters stored other) : error = other := by
  cases bars with
  | running numbered running =>
    cases otherwise with
    | running sameNumber => rw [Option.some.inj (numbered.symm.trans sameNumber)]
    | unknown _ status | completed status =>
      simp [JobExecution.isRunning, status, BatchStatus.isRunning] at running
  | unknown numbered unknown =>
    cases otherwise with
    | unknown sameNumber => rw [Option.some.inj (numbered.symm.trans sameNumber)]
    | running _ running => simp [JobExecution.isRunning, unknown, BatchStatus.isRunning] at running
    | completed completed => exact absurd (unknown.symm.trans completed) nofun
  | completed completed =>
    cases otherwise with
    | completed => rfl
    | running _ running =>
      simp [JobExecution.isRunning, completed, BatchStatus.isRunning] at running
    | unknown _ unknown => exact absurd (unknown.symm.trans completed) nofun

private theorem checkClaim_singleton {id : JobExecutionId} (known : JobInstance)
    (parameters : JobParameters) (numbered : stored.id = some id) :
    (stored.status ∈ BatchStatus.claimable ∧ checkClaim known parameters [stored] = .ok ()) ∨
    ∃ error, Bars known.jobName parameters stored error ∧
      checkClaim known parameters [stored] = .error error := by
  unfold checkClaim
  simp only [numbered]
  by_cases running : stored.isRunning = true
  · exact .inr ⟨_, .running numbered running, if_pos running⟩
  · rw [if_neg running]
    unfold JobExecution.isRunning at running
    cases status : stored.status with
    | starting | started | stopping => simp [status, BatchStatus.isRunning] at running
    | stopped | failed | abandoned => exact .inl ⟨by decide, rfl⟩
    | unknown => exact .inr ⟨_, .unknown numbered status, rfl⟩
    | completed => exact .inr ⟨_, .completed status, rfl⟩

/-- The stored execution decides on the claim. If it is granted, the new execution starts with the
context that is read with the stored one. -/
theorem Consistent.claim_of_holds (consistent : repository.Consistent)
    (holds : repository.Holds jobName parameters stored) :
    (stored.status ∈ BatchStatus.claimable ∧
      ∃ known, repository.instance? jobName parameters = some known ∧
        repository.claim jobName parameters =
          .ok (known, (repository.withContext stored).context, repository)) ∨
    ∃ error, Bars jobName parameters stored error ∧
      repository.claim jobName parameters = .error error := by
  obtain ⟨known, id, found, lookup, belongs⟩ := holds
  obtain ⟨-, matching⟩ := InstanceStore.mem_of_get? found
  obtain rfl : known.jobName = jobName := (JobInstance.isFor_iff.1 matching).1
  have single := consistent.executions.ofInstance_eq_singleton lookup belongs
  have last := consistent.executions.last?_eq_some lookup belongs
  unfold Repository.claim
  rw [found]
  simp only [single, last]
  rcases checkClaim_singleton known parameters (consistent.executions.numbered lookup) with
    ⟨claimable, granted⟩ | ⟨error, bars, refused⟩
  · rw [granted]
    exact .inl ⟨claimable, known, rfl, rfl⟩
  · rw [refused]
    exact .inr ⟨error, bars, rfl⟩

/-- The stored execution is the one that is read as the last one. -/
theorem Consistent.lastExecution_of_holds (consistent : repository.Consistent)
    (holds : repository.Holds jobName parameters stored) :
    repository.lastExecution jobName parameters = .ok (some (repository.assembled stored)) := by
  obtain ⟨known, id, found, lookup, belongs⟩ := holds
  rw [lastExecution_eq consistent.executions.toNumbered, found, Option.bind_some,
    consistent.executions.last?_eq_some lookup belongs]
  rfl

/-- As long as the numbers of the instances have not run out, the record that is held for a job and
its parameters is the one of their instance. -/
theorem Consistent.holds_iff (consistent : repository.Consistent)
    (few : repository.instances.instances.length < 2 ^ 64) :
    repository.Holds jobName parameters stored ↔
      ∃ id, repository.executions.get? id = some stored ∧
        stored.jobInstance.target = (jobName, parameters.identityKey) := by
  constructor
  · rintro ⟨known, id, found, lookup, belongs⟩
    obtain ⟨member, matching⟩ := InstanceStore.mem_of_get? found
    have same := consistent.instances.eq_of_same_id few (consistent.belongs lookup) member belongs
    exact ⟨id, lookup, same ▸ JobInstance.isFor_iff_target.1 matching⟩
  · rintro ⟨id, lookup, own⟩
    exact ⟨_, id, consistent.instances.get?_of_mem (consistent.belongs lookup)
      (JobInstance.isFor_iff_target.2 own), lookup, rfl⟩

/-! ## Creating executions -/

/-- A granted claim is followed by a new execution. -/
theorem createExecution_of_granted {known : JobInstance} {context : ExecutionContext}
    {claimed : Repository} (now : Timestamp)
    (granted : repository.claim jobName parameters = .ok (known, context, claimed)) :
    repository.createExecution now jobName parameters =
      .ok (repository.createdExecution now known parameters context,
        repository.withExecution now claimed.instances known parameters context) := by
  rw [createExecution_eq now granted]
  rcases claim_cases granted with ⟨-, -, same⟩ | ⟨-, -, extended⟩
  · rw [same]
    rfl
  · rw [extended]
    rfl

/-- Creating an execution fails for the reason for which a stored one bars the instance, and for
no other. -/
theorem Consistent.createExecution_eq_error_iff (consistent : repository.Consistent)
    (now : Timestamp) :
    repository.createExecution now jobName parameters = .error error ↔
      ∃ stored, repository.Holds jobName parameters stored ∧
        Bars jobName parameters stored error := by
  constructor
  · intro failed
    rcases claim_decided consistent.executions.toNumbered jobName parameters with
      ⟨-, ⟨known, context, claimed⟩, granted⟩ | ⟨⟨stored, holds, unclaimable⟩, -⟩
    · rw [createExecution_of_granted now granted] at failed
      contradiction
    · rcases consistent.claim_of_holds holds with ⟨claimable, -⟩ | ⟨reason, bars, refused⟩
      · exact absurd claimable unclaimable
      · rw [createExecution_of_refused refused] at failed
        exact ⟨stored, holds, Except.error.inj failed ▸ bars⟩
  · rintro ⟨stored, holds, bars⟩
    rcases consistent.claim_of_holds holds with ⟨claimable, -⟩ | ⟨reason, otherwise, refused⟩
    · exact absurd claimable bars.unclaimable
    · rw [createExecution_of_refused refused, bars.unique otherwise]

end BatchRun.Repository
