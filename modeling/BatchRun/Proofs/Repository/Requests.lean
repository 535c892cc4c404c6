import BatchRun.Proofs.Store.Executions
import BatchRun.Repository.Request

/-! # What the requests of the repository do

Reading gives a stored record back with nothing but its context and steps replaced. Writing puts
the refreshed copy in the place of the record and fails only if there is none. Creating an
execution either leaves the repository alone or gives the claimed instance a new record, in place
of the one it had.
-/

namespace BatchRun

/-- The statuses of an execution that another one of its instance may follow. -/
def BatchStatus.claimable : List BatchStatus := [stopped, failed, abandoned]

theorem JobExecution.unclaimable_of_running {execution : JobExecution}
    (running : execution.isRunning = true) : execution.status ∉ BatchStatus.claimable := by
  unfold isRunning at running
  revert running
  cases execution.status <;> decide

namespace Repository

variable {repository after : Repository} {now : Timestamp} {id : JobExecutionId}
  {copy stored execution : JobExecution} {jobName : String} {parameters : JobParameters}

theorem ofStore_map {α β : Type} (change : α → β) (result : Except StoreError α) :
    ofStore (result.map change) = (ofStore result).map change := by
  cases result <;> rfl

/-! ## Reading -/

theorem complete_of_numbered (repository : Repository) (numbered : stored.id = some id) :
    ∃ context steps, repository.complete stored = .ok { stored with context, steps } := by
  unfold complete StepStore.attach withContext
  simp only [numbered]
  cases repository.steps.groups.get? id with
  | none => exact ⟨_, _, rfl⟩
  | some group =>
    by_cases vacant : group.isEmpty
    · simp only [vacant, if_true]
      exact ⟨_, _, rfl⟩
    · simp only [vacant]
      exact ⟨_, _, rfl⟩

private theorem eq_of_complete (completed : repository.complete stored = .ok execution) :
    ∃ context steps, execution = { stored with context, steps } := by
  by_cases numbered : ∃ id, stored.id = some id
  · obtain ⟨id, numbered⟩ := numbered
    obtain ⟨context, steps, read⟩ := repository.complete_of_numbered numbered
    rw [read] at completed
    exact ⟨context, steps, (Except.ok.inj completed).symm⟩
  · have new : stored.id = none := by simpa [Option.eq_none_iff_forall_ne_some] using numbered
    unfold complete StepStore.attach withContext at completed
    simp only [new] at completed
    exact absurd completed (by simp [ofStore, bind, Except.bind])

/-- What is read by its number is the record with its context and steps replaced. -/
theorem record_of_read (answered : repository.execution id = .ok (some execution)) :
    ∃ stored context steps, repository.executions.get? id = some stored ∧
      execution = { stored with context, steps } := by
  unfold Repository.execution at answered
  cases found : repository.executions.get? id with
  | none =>
    rw [found] at answered
    exact absurd answered (by simp [completeOption])
  | some stored =>
    rw [found] at answered
    cases completed : repository.complete stored with
    | error error => simp [completeOption, completed, Except.map] at answered
    | ok read =>
      obtain ⟨context, steps, shape⟩ := eq_of_complete completed
      have same : read = execution := by
        simpa [completeOption, completed, Except.map] using answered
      exact ⟨stored, context, steps, rfl, same ▸ shape⟩

/-! ## Refreshing and writing -/

/-- The record after a copy has been written over it. -/
def written (now : Timestamp) (copy stored : JobExecution) : JobExecution :=
  { copy.refreshedFrom stored with lastUpdated := some now, version := stored.version + 1 }

/-- A write raises the status to that of the record or leaves it. -/
theorem status_written {allowed : List BatchStatus} (first : copy.status ∈ allowed)
    (second : stored.status ∈ allowed) : (written now copy stored).status ∈ allowed := by
  unfold written JobExecution.refreshedFrom BatchStatus.upgradeTo
  split
  · exact first
  · change (if copy.status < stored.status then stored.status else copy.status) ∈ allowed
    split
    · exact second
    · exact first

/-- A write from a copy with a status at least as high as that of the record stores its status. -/
theorem status_written_of_highest (highest : copy.status.upgradeTo stored.status = copy.status) :
    (written now copy stored).status = copy.status := by
  change (if stored.version = copy.version then copy.status
    else copy.status.upgradeTo stored.status) = copy.status
  rw [highest, ite_self]

/-- A terminal status is not taken back by a record that is still running. -/
theorem status_written_of_terminal (terminal : copy.isRunning = false)
    (running : stored.status.isRunning = true) :
    (written now copy stored).status = copy.status := by
  apply status_written_of_highest
  unfold JobExecution.isRunning at terminal
  revert terminal running
  cases copy.status <;> cases stored.status <;> decide

/-- The repository with this record under its number. -/
def withRecord (repository : Repository) (id : JobExecutionId) (record : JobExecution) :
    Repository :=
  { repository with
    executions :=
      { repository.executions with
        executions := repository.executions.executions.insert id record } }

/-- One record is written, and the others stay. -/
theorem get?_withRecord {other : JobExecutionId} :
    (repository.withRecord id stored).executions.get? other =
      if other = id then some stored else repository.executions.get? other :=
  SortedMap.get?_insert id other stored

/-- A copy of a stored record is refreshed. -/
theorem synchronize_of_record (numbered : copy.id = some id)
    (found : repository.executions.get? id = some stored) :
    repository.synchronize copy = ⟨.ok (), copy.refreshedFrom stored⟩ := by
  unfold synchronize
  rw [ExecutionStore.synchronize_of_record numbered found]

theorem synchronize_of_no_record (missing : repository.executions.recordOf? copy = none) :
    ∃ error, repository.synchronize copy = ⟨.error error, copy⟩ := by
  obtain ⟨error, refused⟩ := ExecutionStore.synchronize_of_no_record missing
  exact ⟨_, by unfold synchronize; rw [refused]⟩

/-- A copy of a stored record is refreshed and written. -/
theorem update_of_record (now : Timestamp) (numbered : copy.id = some id)
    (found : repository.executions.get? id = some stored) :
    repository.update now copy =
      (⟨.ok (), written now copy stored⟩, repository.withRecord id (written now copy stored)) := by
  have refreshed : repository.synchronize { copy with lastUpdated := some now } =
      ⟨.ok (), JobExecution.refreshedFrom { copy with lastUpdated := some now } stored⟩ :=
    synchronize_of_record numbered found
  have result : repository.executions.update
      (JobExecution.refreshedFrom { copy with lastUpdated := some now } stored) = .ok (_, _) :=
    ExecutionStore.update_of_record numbered found rfl
  unfold update
  rw [if_neg (by simp [numbered])]
  simp only [refreshed, result]
  rfl

theorem update_of_new (now : Timestamp) (new : copy.id = none) :
    repository.update now copy =
      (⟨.error (.store (.missingId .jobExecution)), copy⟩, repository) := by
  unfold update
  rw [if_pos (by simp [new])]

theorem synchronize_of_new (new : copy.id = none) :
    repository.synchronize copy = ⟨.error (.store (.missingId .jobExecution)), copy⟩ := by
  unfold synchronize ExecutionStore.synchronize ExecutionStore.stored
  rw [new]
  rfl

theorem synchronize_of_missing (numbered : copy.id = some id)
    (missing : repository.executions.get? id = none) :
    repository.synchronize copy = ⟨.error (.store (.notSaved .jobExecution id.value)), copy⟩ := by
  unfold synchronize ExecutionStore.synchronize ExecutionStore.stored
  rw [numbered]
  simp only [missing]
  rfl

theorem update_of_missing (now : Timestamp) (numbered : copy.id = some id)
    (missing : repository.executions.get? id = none) :
    repository.update now copy =
      (⟨.error (.store (.notSaved .jobExecution id.value)),
        { copy with lastUpdated := some now }⟩, repository) := by
  have refused : repository.synchronize { copy with lastUpdated := some now } = ⟨_, _⟩ :=
    synchronize_of_missing numbered missing
  unfold update
  rw [if_neg (by simp [numbered])]
  simp only [refused]

/-- A copy without a record is not written, and it comes back as it was except for the stamp. -/
theorem update_of_no_record (now : Timestamp)
    (missing : repository.executions.recordOf? copy = none) :
    ∃ error lastUpdated, repository.update now copy =
      (⟨.error error, { copy with lastUpdated }⟩, repository) := by
  by_cases new : copy.id = none
  · exact ⟨_, copy.lastUpdated, update_of_new now new⟩
  · obtain ⟨id, numbered⟩ := Option.ne_none_iff_exists'.1 new
    rw [ExecutionStore.recordOf?, numbered] at missing
    exact ⟨_, some now, update_of_missing now numbered missing⟩

theorem id_synchronize (repository : Repository) (copy : JobExecution) :
    (repository.synchronize copy).copy.id = copy.id := by
  cases record : repository.executions.recordOf? copy with
  | none =>
    obtain ⟨error, refused⟩ := synchronize_of_no_record record
    rw [refused]
  | some stored =>
    obtain ⟨id, numbered, found⟩ := ExecutionStore.recordOf?_eq_some_iff.1 record
    rw [synchronize_of_record numbered found]
    rfl

/-- A write leaves the number of the copy. -/
theorem id_update (repository : Repository) (now : Timestamp) (copy : JobExecution) :
    (repository.update now copy).1.copy.id = copy.id := by
  cases record : repository.executions.recordOf? copy with
  | none =>
    obtain ⟨error, lastUpdated, refused⟩ := update_of_no_record now record
    rw [refused]
  | some stored =>
    obtain ⟨id, numbered, found⟩ := ExecutionStore.recordOf?_eq_some_iff.1 record
    rw [update_of_record now numbered found]
    rfl

/-! ## Claiming -/

/-- A claim that is granted is of the known instance, and then nothing changes, or of a new one. -/
theorem claim_cases {known : JobInstance} {context : ExecutionContext}
    (claimed : repository.claim jobName parameters = .ok (known, context, after)) :
    (repository.instance? jobName parameters = some known ∧
      checkClaim known parameters (repository.executions.ofInstance known.id) = .ok () ∧
      after = repository) ∨
    (repository.instance? jobName parameters = none ∧
      known = JobInstance.of repository.instances.nextId jobName parameters ∧
      after = { repository with instances := ⟨repository.instances.instances ++ [known]⟩ }) := by
  unfold claim at claimed
  cases present : repository.instance? jobName parameters with
  | some existing =>
    simp only [present] at claimed
    cases check : checkClaim existing parameters (repository.executions.ofInstance existing.id) with
    | error error => simp [check, bind, Except.bind] at claimed
    | ok =>
      simp only [check, bind, Except.bind, pure, Except.pure, Except.ok.injEq, Prod.mk.injEq]
        at claimed
      obtain ⟨rfl, -, rfl⟩ := claimed
      exact .inl ⟨rfl, check, rfl⟩
  | none =>
    have absent : repository.instances.get? jobName parameters = none := present
    simp only [present, InstanceStore.create, absent, ofStore, bind, Except.bind, pure,
      Except.pure, Except.ok.injEq, Prod.mk.injEq] at claimed
    obtain ⟨rfl, -, rfl⟩ := claimed
    exact .inr ⟨rfl, rfl, rfl⟩

/-- The new execution of a claimed instance as it is saved. -/
def newExecution (now : Timestamp) (known : JobInstance) (parameters : JobParameters)
    (context : ExecutionContext) : JobExecution :=
  { JobExecution.create now known parameters with context, lastUpdated := some now }

/-- The contexts when a new execution of an instance has been filed. -/
def filedAs (contexts : ContextStore) (id : JobExecutionId) (known : JobInstance)
    (context : ExecutionContext) : ContextStore :=
  let written : StoredContext := ⟨known.id, id, context⟩
  { contexts with
    jobs := (contexts.jobs.filter fun _ other =>
      !ContextStore.isSuperseded written other).insert id written }

/-- Every granted claim leads to a new record and to a context filed for it. -/
theorem createExecution_eq (now : Timestamp) {known : JobInstance} {context : ExecutionContext}
    (claimed : repository.claim jobName parameters = .ok (known, context, after)) :
    repository.createExecution now jobName parameters =
      .ok ({ after.executions.savedAs (newExecution now known parameters context) with
          context := context.clearDirty },
        { after with
          executions := after.executions.afterSave (newExecution now known parameters context)
          contexts := filedAs after.contexts ⟨after.executions.lastId + 1⟩ known context }) := by
  have saved : after.executions.save (newExecution now known parameters context) = .ok (_, _) :=
    ExecutionStore.save_of_new rfl
  unfold createExecution
  rw [claimed]
  unfold newExecution at saved ⊢
  simp only [bind, Except.bind, saved, ofStore]
  rfl

/-- Every granted claim leads to a new record. -/
theorem createExecution_of_claim (now : Timestamp) {known : JobInstance}
    {context : ExecutionContext}
    (claimed : repository.claim jobName parameters = .ok (known, context, after)) :
    ∃ contexts, repository.createExecution now jobName parameters =
      .ok ({ after.executions.savedAs (newExecution now known parameters context) with
          context := context.clearDirty },
        { after with
          executions := after.executions.afterSave (newExecution now known parameters context)
          contexts }) :=
  ⟨_, createExecution_eq now claimed⟩

/-- A refused claim creates nothing. -/
theorem createExecution_of_refused {error : RepositoryError}
    (refused : repository.claim jobName parameters = .error error) :
    repository.createExecution now jobName parameters = .error error := by
  unfold createExecution
  rw [refused]
  rfl

/-- What is created follows from the claim. -/
theorem createExecution_cases
    (created : repository.createExecution now jobName parameters = .ok (execution, after)) :
    ∃ known context claimed contexts,
      repository.claim jobName parameters = .ok (known, context, claimed) ∧
      execution = { claimed.executions.savedAs (newExecution now known parameters context) with
        context := context.clearDirty } ∧
      after = { claimed with
        executions := claimed.executions.afterSave (newExecution now known parameters context)
        contexts } := by
  cases granted : repository.claim jobName parameters with
  | error error =>
    rw [createExecution_of_refused granted] at created
    contradiction
  | ok claimed =>
    obtain ⟨known, context, claimed⟩ := claimed
    obtain ⟨contexts, made⟩ := createExecution_of_claim now granted
    rw [made] at created
    obtain ⟨same, afterwards⟩ := Prod.mk.inj (Except.ok.inj created)
    exact ⟨known, context, claimed, contexts, rfl, same.symm, afterwards.symm⟩

theorem answer_of_created
    (created : repository.createExecution now jobName parameters = .ok (execution, after)) :
    repository.answer now (.createExecution jobName parameters) = (.ok execution, after) :=
  congrArg repository.orKeep created

theorem answer_of_not_created {error : RepositoryError}
    (refused : repository.createExecution now jobName parameters = .error error) :
    repository.answer now (.createExecution jobName parameters) = (.error error, repository) :=
  congrArg repository.orKeep refused

/-- The check lets through what may be followed by another execution, and nothing else. -/
theorem checkClaim_cases (known : JobInstance) (parameters : JobParameters)
    {records : List JobExecution} (numbered : ∀ record ∈ records, record.id ≠ none) :
    (checkClaim known parameters records = .ok () ∧
      ∀ record ∈ records, record.status ∈ BatchStatus.claimable) ∨
    ∃ error, checkClaim known parameters records = .error error ∧
      (∃ record ∈ records, record.status ∉ BatchStatus.claimable) ∧
      ((∃ id, error = .alreadyRunning known.jobName id ∨
          error = .restart known.jobName (.unknownStatus id)) ∨
        error = .instanceComplete known.jobName parameters.identityKey) := by
  induction records with
  | nil => exact .inl ⟨rfl, by simp⟩
  | cons first rest ih =>
    obtain ⟨firstNumbered, restNumbered⟩ := List.forall_mem_cons.1 numbered
    obtain ⟨id, firstId⟩ := Option.ne_none_iff_exists'.1 firstNumbered
    unfold checkClaim JobExecution.isRunning
    simp only [firstId]
    cases status : first.status
    case stopped | failed | abandoned =>
      rcases ih restNumbered with ⟨checked, claimable⟩ | ⟨error, refused, unclaimable, kind⟩
      · refine .inl ⟨checked, List.forall_mem_cons.2 ⟨?_, claimable⟩⟩
        rw [status]
        decide
      · obtain ⟨record, member, other⟩ := unclaimable
        exact .inr ⟨error, refused, ⟨record, List.mem_cons_of_mem _ member, other⟩, kind⟩
    case starting | started | stopping =>
      refine .inr ⟨_, rfl, ⟨first, List.mem_cons_self .., ?_⟩, .inl ⟨id, .inl rfl⟩⟩
      rw [status]
      decide
    case unknown =>
      refine .inr ⟨_, rfl, ⟨first, List.mem_cons_self .., ?_⟩, .inl ⟨id, .inr rfl⟩⟩
      rw [status]
      decide
    case completed =>
      refine .inr ⟨_, rfl, ⟨first, List.mem_cons_self .., ?_⟩, .inr rfl⟩
      rw [status]
      decide

end Repository

end BatchRun
