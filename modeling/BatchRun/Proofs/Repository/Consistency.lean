import BatchRun.Proofs.Repository.Requests
import BatchRun.Proofs.Store.Instances

/-! # Consistent repositories

Of all requests only two touch the instances and executions: a write replaces one record, and a
granted claim puts a new record in the place of the one that its instance had. Whatever is
requested, every record stands under its own number. A repository stays consistent besides, as long
as a copy that is written belongs to the instance of its record.
-/

namespace BatchRun.Repository

variable {repository after : Repository} {now : Timestamp} {request : Request}

/-- The effect of a request on the instances and executions. -/
inductive Effect (repository : Repository) (now : Timestamp) : Request → Repository → Prop
  | none {request : Request} {after : Repository}
      (refused : ∀ jobName parameters, request = .createExecution jobName parameters →
        ∃ error, repository.claim jobName parameters = .error error)
      (executions : after.executions = repository.executions)
      (instances : after.instances = repository.instances) : Effect repository now request after
  | write {copy stored : JobExecution} {id : JobExecutionId} (numbered : copy.id = some id)
      (found : repository.executions.get? id = some stored) :
      Effect repository now (.update copy) (repository.withRecord id (written now copy stored))
  | create {jobName : String} {parameters : JobParameters} {known : JobInstance}
      {context : ExecutionContext} {claimed after : Repository}
      (granted : repository.claim jobName parameters = .ok (known, context, claimed))
      (executions : after.executions =
        claimed.executions.afterSave (newExecution now known parameters context))
      (instances : after.instances = claimed.instances) :
      Effect repository now (.createExecution jobName parameters) after

private theorem effect_none {after : Repository}
    (other : ∀ jobName parameters, request ≠ .createExecution jobName parameters)
    (executions : after.executions = repository.executions)
    (instances : after.instances = repository.instances) : Effect repository now request after :=
  .none (fun jobName parameters same => absurd same (other jobName parameters)) executions instances

private theorem effect_orKeepUnit {result : Except StoreError ContextStore}
    (other : ∀ jobName parameters, request ≠ .createExecution jobName parameters) :
    Effect repository now request (repository.orKeepUnit (do
      let contexts ← ofStore result
      return { repository with contexts })).2 := by
  cases result with
  | error error => exact effect_none other rfl rfl
  | ok contexts => exact effect_none other rfl rfl

/-- Every answer has one of these effects. -/
theorem effect_answer (repository : Repository) (now : Timestamp) (request : Request) :
    Effect repository now request (repository.answer now request).2 := by
  cases request with
  | createExecution jobName parameters =>
    cases granted : repository.claim jobName parameters with
    | error error =>
      simp only [answer, createExecution_of_refused granted]
      refine .none (fun otherName otherParameters same => ?_) rfl rfl
      obtain ⟨rfl, rfl⟩ := Request.createExecution.inj same
      exact ⟨error, granted⟩
    | ok claimed =>
      obtain ⟨known, context, claimed⟩ := claimed
      obtain ⟨contexts, created⟩ := createExecution_of_claim now granted
      simp only [answer, created]
      exact .create granted rfl rfl
  | update copy =>
    cases record : repository.executions.recordOf? copy with
    | none =>
      obtain ⟨error, lastUpdated, refused⟩ := update_of_no_record now record
      simp only [answer, refused]
      exact effect_none nofun rfl rfl
    | some stored =>
      obtain ⟨id, numbered, found⟩ := ExecutionStore.recordOf?_eq_some_iff.1 record
      simp only [answer, update_of_record now numbered found]
      exact .write numbered found
  | addStep step =>
    simp only [answer, addStep]
    (repeat' split) <;> exact effect_none nofun rfl rfl
  | updateStep step =>
    simp only [answer, updateStep]
    split <;> exact effect_none nofun rfl rfl
  | updateContext execution => exact effect_orKeepUnit (by nofun)
  | updateStepContext step => exact effect_orKeepUnit (by nofun)
  | _ => exact effect_none nofun rfl rfl

/-! ## Claims -/

section Claims

variable {jobName : String} {parameters : JobParameters} {known : JobInstance}
  {context : ExecutionContext} {claimed : Repository} {execution : JobExecution}

/-- A granted claim does not touch the executions, and it is for the job and its parameters. -/
theorem isFor_of_claim
    (granted : repository.claim jobName parameters = .ok (known, context, claimed)) :
    claimed.executions = repository.executions ∧ known.isFor jobName parameters = true := by
  rcases claim_cases granted with ⟨found, -, same⟩ | ⟨-, created, extended⟩
  · obtain ⟨-, matching⟩ := InstanceStore.mem_of_get? found
    rw [same]
    exact ⟨rfl, matching⟩
  · rw [extended, created]
    exact ⟨rfl, JobInstance.isFor_of ..⟩

/-- A granted claim gives the next number to a new record for the job and its parameters, which the
caller gets with a context that is not dirty. -/
theorem record_of_created
    (created : repository.createExecution now jobName parameters = .ok (execution, after)) :
    after.executions.lastId = repository.executions.lastId + 1 ∧
    ∃ stored, after.executions.get? ⟨repository.executions.lastId + 1⟩ = some stored ∧
      execution = { stored with context := stored.context.clearDirty } ∧
      stored.id = some ⟨repository.executions.lastId + 1⟩ ∧
      stored.jobInstance.isFor jobName parameters = true ∧
      stored.parameters = parameters ∧ stored.status = .starting ∧ stored.version = 1 ∧
      stored.failures = [] := by
  obtain ⟨known, context, claimed, contexts, granted, given, afterwards⟩ :=
    createExecution_cases created
  obtain ⟨same, matching⟩ := isFor_of_claim granted
  rw [given, afterwards, same]
  refine ⟨rfl, repository.executions.savedAs (newExecution now known parameters context), ?_⟩
  exact ⟨ExecutionStore.get?_afterSave.2 (.inl ⟨rfl, rfl⟩), rfl, rfl, matching, rfl, rfl, rfl, rfl⟩

end Claims

/-! ## Reachable repositories -/

/-- The repositories that requests lead to, at whatever moments they are answered. -/
inductive Reachable : Repository → Prop
  | empty : Reachable .empty
  | answer {repository : Repository} (reachable : Reachable repository) (now : Timestamp)
      (request : Request) : Reachable (repository.answer now request).2

/-- Executions keep standing under their own numbers. -/
theorem Effect.numbered (effect : Effect repository now request after)
    (wellNumbered : repository.executions.Numbered) : after.executions.Numbered := by
  cases effect with
  | none _ executions instances =>
    rw [executions]
    exact wellNumbered
  | write numbered found => exact wellNumbered.insert numbered
  | create granted executions instances =>
    obtain ⟨same, -⟩ := isFor_of_claim granted
    rw [executions, same]
    exact wellNumbered.afterSave

/-- Whatever has been requested, every record stands under its own number. -/
theorem Reachable.numbered (reachable : repository.Reachable) : repository.executions.Numbered := by
  induction reachable with
  | empty => exact .empty
  | answer _ now request ih => exact (effect_answer _ now request).numbered ih

/-! ## Consistency -/

/-- Instances and executions are well-formed, and every execution belongs to a known instance. -/
structure Consistent (repository : Repository) : Prop where
  instances : repository.instances.WellFormed
  executions : repository.executions.WellFormed
  belongs : ∀ {id : JobExecutionId} {stored : JobExecution},
    repository.executions.get? id = some stored →
      stored.jobInstance ∈ repository.instances.instances

theorem Consistent.congr (consistent : repository.Consistent)
    (executions : after.executions = repository.executions)
    (instances : after.instances = repository.instances) : after.Consistent where
  instances := instances ▸ consistent.instances
  executions := executions ▸ consistent.executions
  belongs found := instances ▸ consistent.belongs (executions ▸ found)

/-- A copy of a stored execution belongs to the instance of its record. -/
def Genuine (repository : Repository) (copy : JobExecution) : Prop :=
  ∀ stored, repository.executions.recordOf? copy = some stored →
    copy.jobInstance = stored.jobInstance

/-- What a granted claim gives is an instance of a consistent repository. -/
theorem Consistent.claim {jobName : String} {parameters : JobParameters} {known : JobInstance}
    {context : ExecutionContext} {claimed : Repository} (consistent : repository.Consistent)
    (granted : repository.claim jobName parameters = .ok (known, context, claimed)) :
    claimed.instances.WellFormed ∧ known ∈ claimed.instances.instances ∧
      ∀ other ∈ repository.instances.instances, other ∈ claimed.instances.instances := by
  rcases claim_cases granted with ⟨found, -, same⟩ | ⟨absent, created, extended⟩
  · obtain ⟨member, -⟩ := InstanceStore.mem_of_get? found
    rw [same]
    exact ⟨consistent.instances, member, fun _ inside => inside⟩
  · rw [extended, created]
    refine ⟨consistent.instances.create absent, by simp, ?_⟩
    intro other inside
    exact List.mem_append_left _ inside

/-- A record is written over by a copy that belongs to its instance. -/
theorem Consistent.withRecord {copy stored : JobExecution} {id : JobExecutionId}
    (consistent : repository.Consistent) (now : Timestamp) (numbered : copy.id = some id)
    (found : repository.executions.get? id = some stored)
    (same : copy.jobInstance = stored.jobInstance) :
    (repository.withRecord id (written now copy stored)).Consistent where
  instances := consistent.instances
  executions := consistent.executions.insert found numbered (congrArg JobInstance.id same)
  belongs := by
    intro other record lookup
    rw [get?_withRecord] at lookup
    split at lookup
    · rw [← Option.some.inj lookup]
      change copy.jobInstance ∈ _
      exact same ▸ consistent.belongs found
    · exact consistent.belongs lookup

/-- Answers keep the repository consistent, if what is written comes from the record. -/
theorem Effect.consistent (effect : Effect repository now request after)
    (consistent : repository.Consistent)
    (genuine : ∀ copy, request = .update copy → repository.Genuine copy) : after.Consistent := by
  cases effect with
  | none _ executions instances => exact consistent.congr executions instances
  | @write copy stored id numbered found =>
    exact consistent.withRecord now numbered found (genuine copy rfl stored
      (ExecutionStore.recordOf?_eq_some_iff.2 ⟨id, numbered, found⟩))
  | create granted executions instances =>
    obtain ⟨wellFormed, member, kept⟩ := consistent.claim granted
    obtain ⟨same, -⟩ := isFor_of_claim granted
    refine ⟨instances ▸ wellFormed, ?_, ?_⟩
    · rw [executions, same]
      exact consistent.executions.afterSave
    · intro id stored found
      rw [executions, same] at found
      rw [instances]
      rcases ExecutionStore.get?_afterSave.1 found with ⟨-, saved⟩ | ⟨-, old, -⟩
      · rw [saved]
        exact member
      · exact kept _ (consistent.belongs old)

/-- A granted claim does not touch a record that no other execution may follow. -/
theorem Consistent.apart_of_claim {jobName : String} {parameters : JobParameters}
    {known : JobInstance} {context : ExecutionContext} {claimed : Repository} {id : JobExecutionId}
    {stored : JobExecution} (consistent : repository.Consistent)
    (few : repository.instances.instances.length + 1 < 2 ^ 64)
    (granted : repository.claim jobName parameters = .ok (known, context, claimed))
    (found : repository.executions.get? id = some stored)
    (unclaimable : stored.status ∉ BatchStatus.claimable) : stored.jobInstance.id ≠ known.id := by
  intro same
  rcases claim_cases granted with ⟨-, check, -⟩ | ⟨absent, created, extended⟩
  · have member := ExecutionStore.mem_ofInstance.2 ⟨⟨id, found⟩, same⟩
    rcases checkClaim_cases known parameters consistent.executions.id_ne_none_of_mem with
      ⟨-, claimable⟩ | ⟨error, refused, -⟩
    · exact unclaimable (claimable stored member)
    · rw [check] at refused
      contradiction
  · obtain ⟨wellFormed, member, kept⟩ := consistent.claim granted
    obtain ⟨-, matching⟩ := isFor_of_claim granted
    have size : claimed.instances.instances.length < 2 ^ 64 := by
      rw [extended]
      simpa using few
    have equal := wellFormed.eq_of_same_id size (kept _ (consistent.belongs found)) member same
    exact InstanceStore.not_isFor_of_get?_eq_none absent (consistent.belongs found)
      (equal ▸ matching)

theorem Consistent.empty : Repository.empty.Consistent where
  instances := .empty
  executions := .empty
  belongs found := by simp [Repository.empty, ExecutionStore.empty, ExecutionStore.get?] at found

end BatchRun.Repository
