import BatchRun.Proofs.Clients.Stores
import BatchRun.Proofs.Repository.Claims
import BatchRun.Proofs.Repository.Contexts

/-! # A claim is granted or refused as one operation

A client that creates an execution claims the instance. The claim is refused while an execution of
the instance is running, has an unknown end or has completed, and then everything stays as it is.
Otherwise the new execution takes the place of the one that the instance had. It goes on from the
context of that one, which itself can no longer be read. What its steps have left stays.
-/

namespace BatchRun

namespace Repository

/-- What is left when a new execution has taken the place of the one that its instance had. -/
structure Replaced (created : List JobExecution) (before : Repository) (jobName : String)
    (parameters : JobParameters) (id : JobExecutionId) (execution : JobExecution)
    (after : Repository) : Prop where
  numbered : execution.id = some id
  /-- The number is above all numbers that have been given before. -/
  above : ∀ earlier ∈ created, ∀ given, earlier.id = some given → given.value < id.value
  starting : execution.status = .starting
  version : execution.version = 1
  sameParameters : execution.parameters = parameters
  /-- The instance is registered, and it is a new one only if none was known. -/
  known : after.instance? jobName parameters = some execution.jobInstance
  instances : after.instances.instances = before.instances.instances ++
    if (before.instance? jobName parameters).isNone then [execution.jobInstance] else []
  /-- The execution starts with the context that is stored for the one whose place it takes. -/
  carried : ∀ old stored, before.executions.get? old = some stored →
    stored.jobInstance.isFor jobName parameters = true →
      stored.jobInstance = execution.jobInstance ∧ ∃ context,
        before.contexts.get? (.job old) = some context ∧ execution.context = context.clearDirty
  first : (∀ old stored, before.executions.get? old = some stored →
    stored.jobInstance.isFor jobName parameters = false) → execution.context = .empty
  /-- Of the instance, the new execution is the only one that is read. -/
  alone : ∃ read, after.executionsOf execution.jobInstance = .ok [read] ∧
    { read with context := read.context.clearDirty } = execution
  filed : ∃ context, after.contexts.get? (.job id) = some context ∧
    context.clearDirty = execution.context
  /-- The earlier executions of the instance cannot be read any more, nor can their contexts. -/
  gone : ∀ old, CreatedFor created old execution.jobInstance →
    after.execution old = .ok none ∧ after.contexts.get? (.job old) = none
  /-- Nothing happens to executions of other instances. -/
  others : ∀ other, other ≠ id → ¬ CreatedFor created other execution.jobInstance →
    after.executions.get? other = before.executions.get? other ∧
      after.contexts.get? (.job other) = before.contexts.get? (.job other)
  /-- All steps are read as before, and so are their contexts. -/
  step? : ∀ parent stepId, after.step? parent stepId = before.step? parent stepId
  lastStep : ∀ known stepName, after.lastStep known stepName = before.lastStep known stepName
  stepContexts : ∀ stepId, after.contexts.get? (.step stepId) = before.contexts.get? (.step stepId)

private theorem wellFormed_withExecution {repository : Repository} {now : Timestamp}
    {instances : InstanceStore} {known : JobInstance} {parameters : JobParameters}
    {context : ExecutionContext} (consistent : repository.Consistent) :
    (repository.withExecution now instances known parameters context).executions.WellFormed :=
  consistent.executions.afterSave

section Granted

variable {repository claimed : Repository} {created : List JobExecution}
  {added : List StepExecution} {jobName : String} {parameters : JobParameters}
  {known : JobInstance} {context : ExecutionContext} (now : Timestamp)
  (traced : Traced created added repository) (few : created.length + 1 < 2 ^ 64)
  (granted : repository.claim jobName parameters = .ok (known, context, claimed))

include traced few granted

private theorem gone_of_granted {old : JobExecutionId} (own : CreatedFor created old known) :
    (repository.withExecution now claimed.instances known parameters context).executions.get? old =
        none ∧
    (repository.withExecution now claimed.instances known parameters context).filed? old =
        none := by
  have counted := traced.numbers.executions
  have older : old ≠ ⟨repository.executions.lastId + 1⟩ :=
    RecordId.ne_next (traced.numbers.ofCreated own).1 (by omega)
  constructor
  · refine Option.eq_none_iff_forall_ne_some.2 fun stored found => ?_
    rcases ExecutionStore.get?_afterSave.1 found with ⟨same, -⟩ | ⟨-, before, apart⟩
    · exact older same
    · exact apart (congrArg _ (traced.numbers.owner (traced.executions.stored before) own))
  · refine Option.eq_none_iff_forall_ne_some.2 fun filed found => ?_
    rcases ContextStore.get?_file.1 found with ⟨same, -⟩ | ⟨-, before, kept⟩
    · exact older same
    · obtain ⟨sameId, owner, owns, belongs⟩ := traced.contexts.filed before
      obtain rfl := traced.numbers.owner owns own
      exact older (sameId.symm.trans (kept belongs.symm))

private theorem others_of_granted {other : JobExecutionId}
    (differs : other ≠ ⟨repository.executions.lastId + 1⟩)
    (foreign : ¬ CreatedFor created other known) :
    (repository.withExecution now claimed.instances known parameters context).executions.get?
        other = repository.executions.get? other ∧
    (repository.withExecution now claimed.instances known parameters context).filed? other =
        repository.filed? other := by
  have apart {owner : JobInstance} (own : CreatedFor created other owner) :
      owner.id ≠ known.id := fun same => by
    have inside := (traced.consistent.claim granted).2.2 _ (traced.numbers.ofCreated own).2
    exact foreign (owner_eq_of_same_id traced few granted inside same ▸ own)
  constructor
  · refine Option.ext fun stored => ExecutionStore.get?_afterSave.trans ?_
    constructor
    · rintro (⟨same, -⟩ | ⟨-, found, -⟩)
      · exact absurd same differs
      · exact found
    · exact fun found => .inr ⟨differs, found, apart (traced.executions.stored found)⟩
  · refine Option.ext fun filed => ContextStore.get?_file.trans ?_
    constructor
    · rintro (⟨same, -⟩ | ⟨-, found, -⟩)
      · exact absurd same differs
      · exact found
    · intro found
      obtain ⟨-, owner, own, belongs⟩ := traced.contexts.filed found
      exact .inr ⟨differs, found, fun same => absurd (belongs.trans same) (apart own)⟩

omit granted in
private theorem alone_of_granted :
    ∃ read, (repository.withExecution now claimed.instances known parameters
        context).executionsOf known = .ok [read] ∧
      { read with context := read.context.clearDirty } =
        repository.createdExecution now known parameters context := by
  have counted := traced.numbers.executions
  let id : JobExecutionId := ⟨repository.executions.lastId + 1⟩
  let record := repository.executions.savedAs (newExecution now known parameters context)
  let after := repository.withExecution now claimed.instances known parameters context
  have wellFormed : after.executions.WellFormed :=
    wellFormed_withExecution traced.consistent
  have found : after.executions.get? id = some record :=
    ExecutionStore.get?_afterSave.2 (.inl ⟨rfl, rfl⟩)
  have filed : after.contexts.get? (.job id) = some context :=
    congrArg (Option.map StoredContext.context) (ContextStore.get?_file.2 (.inl ⟨rfl, rfl⟩))
  have read := executionsOf_eq wellFormed.toNumbered known
  have single : after.executions.ofInstance known.id = [record] :=
    wellFormed.ofInstance_eq_singleton found rfl
  rw [single] at read
  refine ⟨after.assembled record, read, ?_⟩
  have context_eq : (after.withContext record).context = context :=
    congrArg (Option.getD · record.context) filed
  have steps : after.listedSteps record = [] := by
    refine listedSteps_of_unsaved (wellFormed.numbered found) fun stepId => ?_
    refine Option.eq_none_iff_forall_ne_some.2 fun step saved => ?_
    obtain ⟨owner, own, -⟩ := traced.createdIn_of_step saved
    exact absurd rfl (RecordId.ne_next (traced.numbers.ofCreated own).1 (by omega))
  unfold assembled
  rw [steps, context_eq]
  rfl

private theorem replaced_of_granted :
    Replaced created repository jobName parameters ⟨repository.executions.lastId + 1⟩
      (repository.createdExecution now known parameters context)
      (repository.withExecution now claimed.instances known parameters context) := by
  have counted := traced.numbers.executions
  obtain ⟨-, matching⟩ := isFor_of_claim granted
  obtain ⟨wellFormed, member, kept⟩ := traced.consistent.claim granted
  constructor
  case numbered | starting | version | sameParameters => rfl
  case above =>
    intro earlier inside given numbered
    have reached := (traced.numbers.ofCreated ⟨earlier, inside, numbered, rfl⟩).1
    exact UInt64.lt_of_le_of_lt reached (lt_add_one (by omega))
  case known => exact wellFormed.get?_of_mem member matching
  case instances =>
    rcases claim_cases granted with ⟨found, -, same⟩ | ⟨absent, -, extended⟩
    · rw [found, same]
      exact (List.append_nil _).symm
    · rw [absent, extended]
      rfl
  case carried =>
    intro old stored found isFor
    obtain ⟨filed, lookup⟩ := traced.contexts.present found
    obtain ⟨same, start⟩ := context_of_record traced.consistent granted found isFor lookup
    exact ⟨same.symm, filed.context, congrArg (Option.map StoredContext.context) lookup,
      congrArg ExecutionContext.clearDirty start⟩
  case first =>
    intro none
    refine congrArg ExecutionContext.clearDirty (context_of_no_record granted ?_)
    intro old stored found same
    have owner := owner_eq_of_same_id traced few granted (kept _ (traced.consistent.belongs found))
      same
    rw [← owner, none old stored found] at matching
    contradiction
  case alone => exact alone_of_granted now traced few
  case filed =>
    exact ⟨context, congrArg (Option.map StoredContext.context)
      (ContextStore.get?_file.2 (.inl ⟨rfl, rfl⟩)), rfl⟩
  case gone =>
    intro old own
    obtain ⟨removed, purged⟩ := gone_of_granted now traced few granted own
    rw [execution_eq (wellFormed_withExecution traced.consistent).toNumbered, removed]
    exact ⟨rfl, congrArg (Option.map StoredContext.context) purged⟩
  case others =>
    intro other differs foreign
    obtain ⟨same, sameContext⟩ := others_of_granted now traced few granted differs foreign
    exact ⟨same, congrArg (Option.map StoredContext.context) sameContext⟩
  case step? | lastStep => exact fun _ _ => rfl
  case stepContexts => exact fun _ => rfl

end Granted

end Repository

namespace Session

variable {session : Session}

/-- Creating an execution is refused for the reason for which the stored execution of the instance
bars it, and without such an execution it is never refused. Either nothing changes, or the new
execution takes the place of the one that the instance had. -/
theorem claim_granted_or_refused (reaches : Reaches AnyEdit .start session) (now : Timestamp)
    (jobName : String) (parameters : JobParameters)
    (few : (session.call now (.createExecution jobName parameters)).Few) :
    let answered := session.repository.answer now (.createExecution jobName parameters)
    (∀ error, answered.1 = .error error ↔
      ∃ id stored, session.repository.executions.get? id = some stored ∧
        stored.jobInstance.isFor jobName parameters = true ∧
        Repository.Bars jobName parameters stored error) ∧
    ((∃ error, answered = (.error error, session.repository)) ∨
      ∃ id execution after, answered = (.ok execution, after) ∧
        session.repository.Replaced session.created jobName parameters id execution after) := by
  have step : Step AnyEdit session (session.call now (.createExecution jobName parameters)) :=
    .call now trivial
  have fewBefore := step.few few
  have traced := (reaches.sound fewBefore).traced
  have fewInstances := Nat.lt_of_le_of_lt traced.numbers.instances fewBefore.registers.1
  have refusedIff (error : RepositoryError) :
      session.repository.createExecution now jobName parameters = .error error ↔
        ∃ id stored, session.repository.executions.get? id = some stored ∧
          stored.jobInstance.isFor jobName parameters = true ∧
          Repository.Bars jobName parameters stored error := by
    simp only [traced.consistent.createExecution_eq_error_iff,
      traced.consistent.holds_iff fewInstances, JobInstance.isFor_iff_target]
    constructor
    · rintro ⟨stored, ⟨id, found, matching⟩, bars⟩
      exact ⟨id, stored, found, matching, bars⟩
    · rintro ⟨id, stored, found, matching, bars⟩
      exact ⟨stored, ⟨id, found, matching⟩, bars⟩
  cases granted : session.repository.claim jobName parameters with
  | error reason =>
    have refused : session.repository.createExecution now jobName parameters = .error reason :=
      Repository.createExecution_of_refused granted
    dsimp only
    rw [Repository.answer_of_not_created refused]
    rw [refused] at refusedIff
    refine ⟨fun error => ?_, .inl ⟨reason, rfl⟩⟩
    rw [← refusedIff error]
    exact ⟨fun same => congrArg _ (Except.error.inj same),
      fun same => congrArg _ (Except.error.inj same)⟩
  | ok claimed =>
    obtain ⟨known, context, claimed⟩ := claimed
    have made := Repository.createExecution_of_granted now granted
    have counted := few.registers.1
    rw [created_call, Repository.answer_of_created made, List.length_append] at counted
    dsimp only
    rw [Repository.answer_of_created made]
    rw [made] at refusedIff
    refine ⟨fun error => ?_,
      .inr ⟨⟨session.repository.executions.lastId + 1⟩, _, _, rfl, ?_⟩⟩
    · rw [← refusedIff error]
      exact ⟨nofun, nofun⟩
    · exact Repository.replaced_of_granted now traced counted granted

/-- The copy of the first execution as a client leaves it that has got as far as the third item. -/
def checkpointed : JobExecution :=
  { firstCopy.upgradeStatus .failed with
    context := firstCopy.context.putValue "names.item.current" (.integer 3) }

/-- The first execution has a step. Its client has filed how far it has got, and has failed. -/
def failedAmid : Session :=
  (opened.holdStep firstStep).call ⟨0, 0⟩ (.addStep firstStep)
    |>.hold checkpointed
    |>.call ⟨0, 0⟩ (.updateContext checkpointed)
    |>.call ⟨0, 0⟩ (.update checkpointed)

private theorem reaches_failedAmid : Reaches AnyEdit .start failedAmid := by
  have inHand : firstCopy ∈
      ((opened.holdStep firstStep).call ⟨0, 0⟩ (.addStep firstStep)).executions :=
    List.mem_append_left _ firstCopy_mem
  have started : Reaches AnyEdit .start _ := reaches_firstStep
  have edited := started.edit checkpointed inHand ⟨rfl, rfl, rfl, rfl⟩
    (fun _ member => absurd member List.not_mem_nil) trivial
  have member {values : List JobExecution} : checkpointed ∈ values ++ [checkpointed] :=
    List.mem_append_right _ (List.mem_singleton.2 rfl)
  exact (edited.call ⟨0, 0⟩ (.updateContext checkpointed) member).call ⟨0, 0⟩
    (.update checkpointed) (List.mem_append_left _ member)

/-- The second execution goes on from the checkpoint of the first one, whose step can still be
read. -/
theorem claim_granted_or_refused_failedAmid :
    ∃ execution after,
      failedAmid.repository.answer ⟨0, 0⟩ (.createExecution "import" .empty) =
        (.ok execution, after) ∧
      execution.context = checkpointed.context.clearDirty ∧
      after.execution ⟨1⟩ = .ok none ∧ (after.step? ⟨1⟩ ⟨1⟩).isSome = true := by
  let stored : JobExecution := { checkpointed with version := 2 }
  have found : failedAmid.repository.executions.get? ⟨1⟩ = some stored := rfl
  obtain ⟨refused, ⟨error, failed⟩ | ⟨id, execution, after, made, replaced⟩⟩ :=
    claim_granted_or_refused reaches_failedAmid ⟨0, 0⟩ "import" .empty (by decide : 5 < 2 ^ 64)
  · have granted : (failedAmid.repository.answer ⟨0, 0⟩
      (.createExecution "import" .empty)).1 = .ok _ := rfl
    rw [failed] at granted
    contradiction
  · obtain ⟨same, context, filed, carried⟩ := replaced.carried ⟨1⟩ stored found rfl
    obtain rfl := Option.some.inj (filed.symm.trans (rfl : _ = some checkpointed.context))
    have own : CreatedFor failedAmid.created ⟨1⟩ execution.jobInstance :=
      same ▸ ⟨firstCopy, List.mem_singleton.2 rfl, rfl, rfl⟩
    refine ⟨execution, after, made, carried, (replaced.gone ⟨1⟩ own).1, ?_⟩
    rw [replaced.step?]
    rfl

end Session

end BatchRun
