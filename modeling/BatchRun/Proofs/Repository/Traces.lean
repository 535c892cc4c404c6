import BatchRun.Proofs.Repository.Changes
import BatchRun.Proofs.Repository.Consistency
import BatchRun.Proofs.Repository.Reading

/-! # Where the contents of the stores come from

Every record and every context in the stores goes back to an execution that has been created and,
if it is one of a step, to a step that has been added under it. These tell for good which instance
a number of an execution stands for and which execution a number of a step, whatever has been
removed from the stores since. The four stores remove old contents by different rules; each of them
keeps its part as long as the copies that are written are traced in this way themselves.
-/

namespace BatchRun

/-- Among the executions created, the one with this number is for this instance. -/
def CreatedFor (created : List JobExecution) (id : JobExecutionId) (known : JobInstance) : Prop :=
  ∃ execution ∈ created, execution.id = some id ∧ execution.jobInstance = known

/-- The execution with this number has been created for the instance with that number. -/
def CreatedIn (created : List JobExecution) (id : JobExecutionId) (instanceId : JobInstanceId) :
    Prop :=
  ∃ known, CreatedFor created id known ∧ known.id = instanceId

/-- Among the steps added, the one with this number is of this execution. -/
def AddedTo (added : List StepExecution) (step : StepExecutionId) (id : JobExecutionId) : Prop :=
  ∃ record ∈ added, record.id = some step ∧ record.jobExecutionId = id

/-- A copy with a number is of the execution that has been created with it. -/
def JobExecution.Traced (created : List JobExecution) (copy : JobExecution) : Prop :=
  ∀ id, copy.id = some id → CreatedFor created id copy.jobInstance

/-- A step is of an execution that has been created and, if it has a number, of the one that it has
been added to. -/
structure StepExecution.Traced (created : List JobExecution) (added : List StepExecution)
    (step : StepExecution) : Prop where
  parent : CreatedIn created step.jobExecutionId step.jobInstanceId
  numbered : ∀ id, step.id = some id → AddedTo added id step.jobExecutionId

section Registers

variable {created : List JobExecution} {added : List StepExecution} {id : JobExecutionId}
  {known : JobInstance} {instanceId : JobInstanceId} {stepId : StepExecutionId}
  {execution copy : JobExecution} {step record : StepExecution}

theorem createdFor_append :
    CreatedFor (created ++ [execution]) id known ↔
      CreatedFor created id known ∨ execution.id = some id ∧ execution.jobInstance = known := by
  simp [CreatedFor, or_and_right, exists_or]

theorem addedTo_append :
    AddedTo (added ++ [record]) stepId id ↔
      AddedTo added stepId id ∨ record.id = some stepId ∧ record.jobExecutionId = id := by
  simp [AddedTo, or_and_right, exists_or]

/-- What has been created stays so. -/
theorem CreatedFor.append (more : List JobExecution) (own : CreatedFor created id known) :
    CreatedFor (created ++ more) id known := by
  obtain ⟨execution, member, same⟩ := own
  exact ⟨execution, List.mem_append_left _ member, same⟩

theorem CreatedIn.append (more : List JobExecution) (own : CreatedIn created id instanceId) :
    CreatedIn (created ++ more) id instanceId := by
  obtain ⟨known, own, same⟩ := own
  exact ⟨known, own.append more, same⟩

theorem AddedTo.append (more : List StepExecution) (own : AddedTo added stepId id) :
    AddedTo (added ++ more) stepId id := by
  obtain ⟨record, member, same⟩ := own
  exact ⟨record, List.mem_append_left _ member, same⟩

/-- A copy stays traced, whatever is created after it. -/
theorem JobExecution.Traced.append (more : List JobExecution) (traced : copy.Traced created) :
    copy.Traced (created ++ more) := fun id numbered => (traced id numbered).append more

theorem StepExecution.Traced.append (more : List JobExecution) (others : List StepExecution)
    (traced : step.Traced created added) : step.Traced (created ++ more) (added ++ others) where
  parent := traced.parent.append more
  numbered id own := (traced.numbered id own).append others

end Registers

namespace Repository

/-- The numbers in use have been given, each of them once. -/
structure NumbersKept (created : List JobExecution) (added : List StepExecution)
    (known : InstanceStore) (lastExecution lastStep : UInt64) : Prop where
  instances : known.instances.length ≤ created.length
  executions : lastExecution.toNat ≤ created.length
  steps : lastStep.toNat ≤ added.length
  ofCreated {id : JobExecutionId} {owner : JobInstance} (own : CreatedFor created id owner) :
    id.value ≤ lastExecution ∧ owner ∈ known.instances
  owner {id : JobExecutionId} {one other : JobInstance} (own : CreatedFor created id one)
    (same : CreatedFor created id other) : one = other
  ofAdded {step : StepExecutionId} {id : JobExecutionId} (own : AddedTo added step id) :
    step.value ≤ lastStep ∧ ∃ owner, CreatedFor created id owner
  parent {step : StepExecutionId} {id other : JobExecutionId} (own : AddedTo added step id)
    (same : AddedTo added step other) : id = other

/-- The records of executions are traced, and each instance that an execution has been created for
has one. -/
structure ExecutionsKept (created : List JobExecution) (added : List StepExecution)
    (executions : ExecutionStore) : Prop where
  stored {id : JobExecutionId} {stored : JobExecution} (found : executions.get? id = some stored) :
    CreatedFor created id stored.jobInstance
  steps {id : JobExecutionId} {stored : JobExecution} (found : executions.get? id = some stored) :
    ∀ step ∈ stored.steps, step.Traced created added
  current {id : JobExecutionId} {known : JobInstance} (own : CreatedFor created id known) :
    ∃ latest stored, executions.get? latest = some stored ∧ stored.jobInstance = known

/-- The contexts of executions are traced, and none is missing for a stored execution. -/
structure ContextsKept (created : List JobExecution) (executions : ExecutionStore)
    (contexts : SortedMap JobExecutionId StoredContext) : Prop where
  filed {id : JobExecutionId} {filed : StoredContext} (found : contexts.get? id = some filed) :
    filed.jobExecutionId = id ∧ CreatedIn created id filed.jobInstanceId
  present {id : JobExecutionId} {stored : JobExecution}
    (found : executions.get? id = some stored) : ∃ filed, contexts.get? id = some filed

/-- The steps are traced and stand where they belong, and of all executions of an instance at most
one has steps. -/
structure StepsKept (created : List JobExecution) (added : List StepExecution)
    (steps : StepStore) : Prop where
  group {id : JobExecutionId} {group : StepGroup} (found : steps.groups.get? id = some group) :
    ∃ stepId step, group.get? stepId = some step
  numbered {id : JobExecutionId} {stepId : StepExecutionId} {step : StepExecution}
    (found : steps.get? id stepId = some step) : step.id = some stepId ∧ step.jobExecutionId = id
  stored {id : JobExecutionId} {stepId : StepExecutionId} {step : StepExecution}
    (found : steps.get? id stepId = some step) : step.Traced created added
  single {id other : JobExecutionId} {one another : StepGroup} {known : JobInstance}
    (here : steps.groups.get? id = some one) (there : steps.groups.get? other = some another)
    (own : CreatedFor created id known) (same : CreatedFor created other known) : id = other

/-- The contexts of steps are traced, and none is missing for a stored step. -/
structure StepContextsKept (created : List JobExecution) (added : List StepExecution)
    (steps : StepStore) (contexts : SortedMap StepExecutionId StoredContext) : Prop where
  filed {stepId : StepExecutionId} {filed : StoredContext}
    (found : contexts.get? stepId = some filed) :
    AddedTo added stepId filed.jobExecutionId ∧
      CreatedIn created filed.jobExecutionId filed.jobInstanceId
  present {id : JobExecutionId} {stepId : StepExecutionId} {step : StepExecution}
    (found : steps.get? id stepId = some step) : ∃ filed, contexts.get? stepId = some filed

/-- Everything in the stores goes back to the executions created and the steps added. -/
structure Traced (created : List JobExecution) (added : List StepExecution)
    (repository : Repository) : Prop where
  consistent : repository.Consistent
  numbers : NumbersKept created added repository.instances repository.executions.lastId
    repository.steps.lastId
  executions : ExecutionsKept created added repository.executions
  contexts : ContextsKept created repository.executions repository.contexts.jobs
  steps : StepsKept created added repository.steps
  stepContexts : StepContextsKept created added repository.steps repository.contexts.steps

variable {repository : Repository} {now : Timestamp} {created : List JobExecution}
  {added : List StepExecution} {id other : JobExecutionId} {known : JobInstance}
  {instanceId : JobInstanceId} {execution given stored : JobExecution} {step : StepExecution}
  {stepId : StepExecutionId} {group : StepGroup}

/-! ## What the registers tell -/

namespace Traced

theorem empty : Traced [] [] Repository.empty where
  consistent := .empty
  numbers := by
    refine ⟨Nat.le_refl 0, Nat.le_refl 0, Nat.le_refl 0, ?_, ?_, ?_, ?_⟩ <;>
      simp [CreatedFor, AddedTo]
  executions := by
    refine ⟨?_, ?_, ?_⟩ <;>
      simp [CreatedFor, Repository.empty, ExecutionStore.empty, ExecutionStore.get?]
  contexts := by
    refine ⟨?_, ?_⟩ <;>
      simp [Repository.empty, ExecutionStore.empty, ExecutionStore.get?, ContextStore.empty]
  steps := by
    refine ⟨?_, ?_, ?_, ?_⟩ <;> simp [Repository.empty, StepStore.empty, StepStore.get?]
  stepContexts := by
    refine ⟨?_, ?_⟩ <;>
      simp [Repository.empty, StepStore.empty, StepStore.get?, ContextStore.empty]

/-- Different instances have different numbers. -/
theorem eq_of_same_id (traced : Traced created added repository) (few : created.length < 2 ^ 64)
    {first second : JobInstance} (own : CreatedFor created id first)
    (others : CreatedFor created other second) (same : first.id = second.id) : first = second := by
  have bound := Nat.lt_of_le_of_lt traced.numbers.instances few
  exact traced.consistent.instances.eq_of_same_id bound (traced.numbers.ofCreated own).2
    (traced.numbers.ofCreated others).2 same

theorem createdIn_of_step (traced : Traced created added repository)
    (found : repository.steps.get? id stepId = some step) :
    CreatedIn created id step.jobInstanceId := by
  obtain ⟨-, rfl⟩ := traced.steps.numbered found
  exact (traced.steps.stored found).parent

theorem addedTo_of_step (traced : Traced created added repository)
    (found : repository.steps.get? id stepId = some step) : AddedTo added stepId id := by
  obtain ⟨numbered, rfl⟩ := traced.steps.numbered found
  exact (traced.steps.stored found).numbered stepId numbered

/-- Steps of one instance are all of one execution. -/
theorem same_execution {another : StepExecution} {anotherId : StepExecutionId}
    (traced : Traced created added repository) (few : created.length < 2 ^ 64)
    (here : repository.steps.get? id stepId = some step)
    (there : repository.steps.get? other anotherId = some another)
    (same : step.jobInstanceId = another.jobInstanceId) : id = other := by
  obtain ⟨known, own, lies⟩ := traced.createdIn_of_step here
  obtain ⟨owner, owns, belongs⟩ := traced.createdIn_of_step there
  obtain rfl := traced.eq_of_same_id few own owns (lies.trans (same.trans belongs.symm))
  obtain ⟨_, group, -⟩ := StepStore.get?_eq_some_iff.1 here
  obtain ⟨_, otherGroup, -⟩ := StepStore.get?_eq_some_iff.1 there
  exact traced.steps.single group otherGroup own owns

/-- A copy belongs to the instance of its record. -/
theorem genuine {copy : JobExecution} (traced : Traced created added repository)
    (own : copy.Traced created) : repository.Genuine copy := by
  intro stored record
  obtain ⟨id, numbered, found⟩ := ExecutionStore.recordOf?_eq_some_iff.1 record
  exact traced.numbers.owner (own id numbered) (traced.executions.stored found)

/-- A step is read as it is stored, except for its context. -/
theorem withStepContext {step : StepExecution} (own : step.Traced created added) :
    (repository.withStepContext step).Traced created added := ⟨own.parent, own.numbered⟩

/-- The steps that are shown for a record are traced, be they its own ones or those of its group. -/
theorem listedSteps (traced : Traced created added repository)
    (found : repository.executions.get? id = some stored) :
    ∀ step ∈ repository.listedSteps stored, step.Traced created added := by
  intro step member
  rcases (mem_listedSteps (traced.consistent.executions.numbered found)).1 member with
    ⟨stepId, saved⟩ | ⟨-, own⟩
  · exact traced.steps.stored saved
  · exact traced.executions.steps found step own

/-- The steps with which an execution is read are traced. -/
theorem assembled (traced : Traced created added repository)
    (found : repository.executions.get? id = some stored) :
    ∀ step ∈ (repository.assembled stored).steps, step.Traced created added := by
  intro step member
  obtain ⟨listed, inside, rfl⟩ := List.mem_map.1 member
  exact withStepContext (traced.listedSteps found listed inside)

/-- The first step of a group tells the instance of the execution. -/
theorem isGroupOf_iff (traced : Traced created added repository)
    (found : repository.steps.groups.get? id = some group) (own : CreatedFor created id known) :
    StepStore.isGroupOf instanceId group = true ↔ known.id = instanceId := by
  have member : ∀ first ∈ group.values, first.jobInstanceId = known.id := by
    intro first inside
    obtain ⟨key, here⟩ := SortedMap.mem_values.1 inside
    obtain ⟨owner, owns, same⟩ :=
      traced.createdIn_of_step (StepStore.get?_eq_some_iff.2 ⟨group, found, here⟩)
    rw [← same, traced.numbers.owner own owns]
  exact StepStore.isGroupOf_iff_of_same (traced.steps.group found) member

end Traced

/-! ## The changes of the stores -/

/-- The steps and their contexts do not depend on which executions are created. -/
theorem StepsKept.append (steps : StepsKept created added repository.steps)
    (numbers : NumbersKept created added repository.instances repository.executions.lastId
      repository.steps.lastId)
    (new : execution.id = some ⟨repository.executions.lastId + 1⟩)
    (room : repository.executions.lastId.toNat + 1 < 2 ^ 64) :
    StepsKept (created ++ [execution]) added repository.steps where
  group := steps.group
  numbered := steps.numbered
  stored found := by
    have traced := (steps.stored found).append [execution] []
    rwa [List.append_nil] at traced
  single := by
    have old {id : JobExecutionId} {group : StepGroup} {known : JobInstance}
        (found : repository.steps.groups.get? id = some group)
        (own : CreatedFor (created ++ [execution]) id known) : CreatedFor created id known := by
      rcases createdFor_append.1 own with before | ⟨numbered, -⟩
      · exact before
      · obtain ⟨key, step, here⟩ := steps.group found
        have found := StepStore.get?_eq_some_iff.2 ⟨group, found, here⟩
        obtain ⟨known, own, -⟩ := (steps.stored found).parent
        rw [(steps.numbered found).2] at own
        obtain rfl := Option.some.inj (new.symm.trans numbered)
        exact absurd rfl (RecordId.ne_next (numbers.ofCreated own).1 room)
    intro id other one another known here there own same
    exact steps.single here there (old here own) (old there same)

section Creation

variable {jobName : String} {parameters : JobParameters} {context : ExecutionContext}
  {claimed : Repository} {instances : InstanceStore}

private theorem numbers_created (now : Timestamp) (traced : Traced created added repository)
    (few : created.length + 1 < 2 ^ 64)
    (granted : repository.claim jobName parameters = .ok (known, context, claimed)) :
    NumbersKept
      (created ++ [repository.createdExecution now known parameters context]) added
      claimed.instances (repository.executions.lastId + 1) repository.steps.lastId := by
  have counted := traced.numbers.executions
  have room : repository.executions.lastId.toNat + 1 < 2 ^ 64 := by omega
  obtain ⟨-, member, kept⟩ := traced.consistent.claim granted
  refine ⟨?_, ?_, traced.numbers.steps, ?_, ?_, ?_, traced.numbers.parent⟩
  · have grown : claimed.instances.instances.length ≤
        repository.instances.instances.length + 1 := by
      rcases claim_cases granted with ⟨-, -, same⟩ | ⟨-, -, extended⟩
      · rw [same]
        exact Nat.le_succ _
      · rw [extended]
        simp
    rw [List.length_append]
    exact Nat.le_trans grown (Nat.succ_le_succ traced.numbers.instances)
  · rw [List.length_append]
    rw [toNat_add_one room]
    exact Nat.succ_le_succ counted
  · intro id owner own
    rcases createdFor_append.1 own with old | ⟨numbered, rfl⟩
    · obtain ⟨given, inside⟩ := traced.numbers.ofCreated old
      exact ⟨UInt64.le_trans given (le_add_one room), kept _ inside⟩
    · obtain rfl := Option.some.inj numbered
      exact ⟨UInt64.le_refl _, member⟩
  · have fresh {id : JobExecutionId} {owner : JobInstance} (own : CreatedFor created id owner)
        (numbered : some ⟨repository.executions.lastId + 1⟩ = some id) : False :=
      RecordId.ne_next (traced.numbers.ofCreated own).1 room (Option.some.inj numbered).symm
    intro id one another own same
    rcases createdFor_append.1 own with old | ⟨numbered, rfl⟩ <;>
      rcases createdFor_append.1 same with other | ⟨otherNumbered, rfl⟩
    · exact traced.numbers.owner old other
    · exact (fresh old otherNumbered).elim
    · exact (fresh other numbered).elim
    · rfl
  · intro step id own
    obtain ⟨given, owner, owns⟩ := traced.numbers.ofAdded own
    exact ⟨given, owner, owns.append _⟩

/-- Of the known instances only the claimed one has its number. -/
theorem owner_eq_of_same_id (traced : Traced created added repository)
    (few : created.length + 1 < 2 ^ 64)
    (granted : repository.claim jobName parameters = .ok (known, context, claimed))
    {owner : JobInstance} (inside : owner ∈ claimed.instances.instances)
    (same : owner.id = known.id) : owner = known := by
  obtain ⟨wellFormed, member, -⟩ := traced.consistent.claim granted
  have bound := (numbers_created ⟨0, 0⟩ traced few granted).instances
  rw [List.length_append] at bound
  exact wellFormed.eq_of_same_id (Nat.lt_of_le_of_lt bound few) inside member same

private theorem executions_created (traced : Traced created added repository)
    (few : created.length + 1 < 2 ^ 64)
    (granted : repository.claim jobName parameters = .ok (known, context, claimed)) :
    ExecutionsKept (created ++ [repository.createdExecution now known parameters context]) added
      (repository.withExecution now claimed.instances known parameters context).executions := by
  have counted := traced.numbers.executions
  have room : repository.executions.lastId.toNat + 1 < 2 ^ 64 := by omega
  have new : CreatedFor (created ++ [repository.createdExecution now known parameters context])
      ⟨repository.executions.lastId + 1⟩ known := createdFor_append.2 (.inr ⟨rfl, rfl⟩)
  have steps {step : StepExecution} (old : step.Traced created added) :
      step.Traced (created ++ [repository.createdExecution now known parameters context])
        added := List.append_nil added ▸ old.append _ []
  refine ⟨fun found => ?_, fun found => ?_, fun {id owner} own => ?_⟩
  · rcases ExecutionStore.get?_afterSave.1 found with ⟨rfl, rfl⟩ | ⟨-, old, -⟩
    · exact new
    · exact (traced.executions.stored old).append _
  · rcases ExecutionStore.get?_afterSave.1 found with ⟨-, rfl⟩ | ⟨-, old, -⟩
    · exact fun step member => absurd member List.not_mem_nil
    · exact fun step member => steps (traced.executions.steps old step member)
  · have numbers := numbers_created now traced few granted
    have known_eq := owner_eq_of_same_id traced few granted (numbers.ofCreated own).2
    by_cases same : owner.id = known.id
    · refine ⟨_, _, ExecutionStore.get?_afterSave.2 (.inl ⟨rfl, rfl⟩), ?_⟩
      exact (known_eq same).symm
    · rcases createdFor_append.1 own with old | ⟨-, rfl⟩
      · obtain ⟨latest, stored, found, rfl⟩ := traced.executions.current old
        have given := (traced.numbers.ofCreated (traced.executions.stored found)).1
        exact ⟨latest, stored,
          ExecutionStore.get?_afterSave.2 (.inr ⟨RecordId.ne_next given room, found, same⟩), rfl⟩
      · exact absurd rfl same

private theorem contexts_created (traced : Traced created added repository)
    (few : created.length + 1 < 2 ^ 64) :
    ContextsKept (created ++ [repository.createdExecution now known parameters context])
      (repository.withExecution now instances known parameters context).executions
      (repository.withExecution now instances known parameters context).contexts.jobs := by
  have counted := traced.numbers.executions
  have room : repository.executions.lastId.toNat + 1 < 2 ^ 64 := by omega
  have new : CreatedFor (created ++ [repository.createdExecution now known parameters context])
      ⟨repository.executions.lastId + 1⟩ known := createdFor_append.2 (.inr ⟨rfl, rfl⟩)
  constructor
  · intro id filed found
    rcases ContextStore.get?_file.1 found with ⟨rfl, rfl⟩ | ⟨-, old, -⟩
    · exact ⟨rfl, known, new, rfl⟩
    · obtain ⟨same, lies⟩ := traced.contexts.filed old
      exact ⟨same, lies.append _⟩
  · intro id stored found
    rcases ExecutionStore.get?_afterSave.1 found with ⟨rfl, rfl⟩ | ⟨differs, old, apart⟩
    · exact ⟨_, ContextStore.get?_file.2 (.inl ⟨rfl, rfl⟩)⟩
    · obtain ⟨filed, lookup⟩ := traced.contexts.present old
      obtain ⟨-, owner, own, same⟩ := traced.contexts.filed lookup
      obtain rfl := traced.numbers.owner own (traced.executions.stored old)
      refine ⟨filed, ContextStore.get?_file.2 (.inr ⟨differs, lookup, fun superseded => ?_⟩)⟩
      exact absurd (same.trans superseded) apart

/-- A repository stays traced with the new execution of a granted claim. -/
theorem Traced.withExecution (traced : Traced created added repository)
    (few : created.length + 1 < 2 ^ 64)
    (granted : repository.claim jobName parameters = .ok (known, context, claimed))
    (consistent : (repository.withExecution now claimed.instances known parameters
      context).Consistent) :
    Traced (created ++ [repository.createdExecution now known parameters context]) added
      (repository.withExecution now claimed.instances known parameters context) where
  consistent := consistent
  numbers := by
    have numbers := numbers_created now traced few granted
    exact numbers
  executions := executions_created traced few granted
  contexts := contexts_created traced few
  steps := by
    have counted := traced.numbers.executions
    exact traced.steps.append traced.numbers rfl (by omega)
  stepContexts := by
    refine ⟨fun found => ?_, traced.stepContexts.present⟩
    obtain ⟨own, lies⟩ := traced.stepContexts.filed found
    exact ⟨own, lies.append _⟩

end Creation

/-- A record is written over by a copy that is traced, and that has traced steps. -/
theorem Traced.withRecord (traced : Traced created added repository) (numbered : given.id = some id)
    (found : repository.executions.get? id = some stored) (own : given.Traced created)
    (steps : ∀ step ∈ given.steps, step.Traced created added)
    (consistent : (repository.withRecord id (written now given stored)).Consistent) :
    Traced created added (repository.withRecord id (written now given stored)) where
  consistent := consistent
  numbers := traced.numbers
  executions := by
    refine ⟨fun {other record} lookup => ?_, fun {other record} lookup => ?_,
      fun {other known} created => ?_⟩
    · rw [get?_withRecord] at lookup
      split at lookup
      · rename_i same
        rw [← Option.some.inj lookup, same]
        exact own id numbered
      · exact traced.executions.stored lookup
    · rw [get?_withRecord] at lookup
      split at lookup
      · rw [← Option.some.inj lookup]
        exact steps
      · exact traced.executions.steps lookup
    · obtain ⟨latest, record, lookup, rfl⟩ := traced.executions.current created
      by_cases same : latest = id
      · refine ⟨latest, _, get?_withRecord.trans (if_pos same), ?_⟩
        rw [same] at lookup
        exact traced.numbers.owner (own id numbered) (traced.executions.stored lookup)
      · exact ⟨latest, record, get?_withRecord.trans ((if_neg same).trans lookup), rfl⟩
  contexts := by
    refine ⟨traced.contexts.filed, fun {other record} lookup => ?_⟩
    rw [get?_withRecord] at lookup
    split at lookup
    · rename_i same
      exact traced.contexts.present (same ▸ found)
    · exact traced.contexts.present lookup
  steps := traced.steps
  stepContexts := traced.stepContexts

/-- The context of an execution is filed again from a copy that is traced. -/
theorem Traced.withFiled (traced : Traced created added repository) (numbered : given.id = some id)
    (own : given.Traced created) : Traced created added (repository.withFiled id given) where
  consistent := traced.consistent.congr rfl rfl
  numbers := traced.numbers
  executions := traced.executions
  contexts := by
    refine ⟨fun {other filed} found => ?_, fun {other record} found => ?_⟩
    · replace found := (SortedMap.get?_insert ..).symm.trans found
      split at found
      · rename_i same
        rw [← Option.some.inj found, same]
        exact ⟨rfl, _, own id numbered, rfl⟩
      · exact traced.contexts.filed found
    · obtain ⟨filed, lookup⟩ := traced.contexts.present found
      by_cases same : other = id
      · exact ⟨_, (SortedMap.get?_insert ..).trans (if_pos same)⟩
      · exact ⟨filed, (SortedMap.get?_insert ..).trans ((if_neg same).trans lookup)⟩
  steps := traced.steps
  stepContexts := traced.stepContexts

/-- The context of a step is filed again from a copy that is traced. -/
theorem Traced.withFiledStep (traced : Traced created added repository)
    (numbered : step.id = some stepId) (own : step.Traced created added) :
    Traced created added (repository.withFiledStep stepId step) where
  consistent := traced.consistent.congr rfl rfl
  numbers := traced.numbers
  executions := traced.executions
  contexts := traced.contexts
  steps := traced.steps
  stepContexts := by
    refine ⟨fun {other filed} found => ?_, fun {parent other record} found => ?_⟩
    · replace found := (SortedMap.get?_insert ..).symm.trans found
      split at found
      · rename_i same
        rw [← Option.some.inj found, same]
        exact ⟨own.numbered stepId numbered, own.parent⟩
      · exact traced.stepContexts.filed found
    · obtain ⟨filed, lookup⟩ := traced.stepContexts.present found
      by_cases same : other = stepId
      · exact ⟨_, (SortedMap.get?_insert ..).trans (if_pos same)⟩
      · exact ⟨filed, (SortedMap.get?_insert ..).trans ((if_neg same).trans lookup)⟩

/-- A step is written from a copy that is traced. -/
theorem Traced.withWrittenStep {record : StepExecution} (now : Timestamp)
    (traced : Traced created added repository)
    (numbered : step.id = some stepId)
    (found : repository.steps.get? step.jobExecutionId stepId = some record)
    (own : step.Traced created added) :
    Traced created added (repository.withWrittenStep now stepId step) where
  consistent := traced.consistent.congr rfl rfl
  numbers := traced.numbers
  executions := traced.executions
  contexts := traced.contexts
  steps := by
    have before {id : JobExecutionId} {group : StepGroup}
        (lookup : (repository.withWrittenStep now stepId step).steps.groups.get? id =
          some group) : ∃ group, repository.steps.groups.get? id = some group := by
      replace lookup := StepStore.groups_withStep.symm.trans lookup
      split at lookup
      · rename_i same
        obtain ⟨group, here, -⟩ := StepStore.get?_eq_some_iff.1 found
        exact ⟨group, same ▸ here⟩
      · exact ⟨group, lookup⟩
    constructor
    case group =>
      intro id group lookup
      replace lookup := StepStore.groups_withStep.symm.trans lookup
      split at lookup
      · rw [← Option.some.inj lookup]
        exact ⟨stepId, _, SortedMap.get?_insert_self ..⟩
      · exact traced.steps.group lookup
    case numbered =>
      intro id other record lookup
      replace lookup := StepStore.get?_withStep.symm.trans lookup
      split at lookup
      · rename_i same
        rw [← Option.some.inj lookup, same.1, same.2]
        exact ⟨numbered, rfl⟩
      · exact traced.steps.numbered lookup
    case stored =>
      intro id other record lookup
      replace lookup := StepStore.get?_withStep.symm.trans lookup
      split at lookup
      · rw [← Option.some.inj lookup]
        exact ⟨own.parent, own.numbered⟩
      · exact traced.steps.stored lookup
    case single =>
      intro id other one another known here there created same
      obtain ⟨_, here⟩ := before here
      obtain ⟨_, there⟩ := before there
      exact traced.steps.single here there created same
  stepContexts := by
    refine ⟨traced.stepContexts.filed, fun {id other record} lookup => ?_⟩
    replace lookup := StepStore.get?_withStep.symm.trans lookup
    split at lookup
    · rename_i same
      rw [same.2]
      exact traced.stepContexts.present found
    · exact traced.stepContexts.present lookup

section Adding

-- A new step is put into a group of its execution; the groups that go are those of other executions
-- of the instance.
private theorem groups_added (traced : Traced created added repository)
    (found : (repository.withAddedStep now step).steps.groups.get? id = some group) :
    id = step.jobExecutionId ∨ repository.steps.groups.get? id = some group ∧
      ((∃ own, repository.steps.groups.get? step.jobExecutionId = some own) ∨
        ∀ known, CreatedFor created id known → known.id ≠ step.jobInstanceId) := by
  replace found := StepStore.groups_withStep.symm.trans found
  split at found
  · exact .inl (by assumption)
  · obtain ⟨kept, reason⟩ := StepStore.get?_retained.1 found
    refine .inr ⟨kept, reason.imp (fun present => ?_) fun apart known own same => ?_⟩
    · exact Option.isSome_iff_exists.1 present
    · have belongs := (traced.isGroupOf_iff kept own).2 same
      rw [apart] at belongs
      contradiction

/-- A step that is stored after another one has been added is that one or was stored before. -/
theorem get?_withAddedStep {record : StepExecution}
    (found : (repository.withAddedStep now step).steps.get? id stepId = some record) :
    (id = step.jobExecutionId ∧ stepId = ⟨repository.steps.lastId + 1⟩ ∧
      record = repository.addedStep now step) ∨
    repository.steps.get? id stepId = some record :=
  StepStore.stored_of_afterSave found

private theorem steps_added (traced : Traced created added repository)
    (own : step.Traced created added) :
    StepsKept created (added ++ [repository.addedStep now step])
      (repository.withAddedStep now step).steps := by
  have new : AddedTo (added ++ [repository.addedStep now step])
      ⟨repository.steps.lastId + 1⟩ step.jobExecutionId := addedTo_append.2 (.inr ⟨rfl, rfl⟩)
  constructor
  case group =>
    intro id group found
    replace found := StepStore.groups_withStep.symm.trans found
    split at found
    · rw [← Option.some.inj found]
      exact ⟨_, _, SortedMap.get?_insert_self ..⟩
    · exact traced.steps.group (StepStore.get?_retained.1 found).1
  case numbered =>
    intro id stepId record found
    rcases get?_withAddedStep found with ⟨rfl, rfl, rfl⟩ | old
    · exact ⟨rfl, rfl⟩
    · exact traced.steps.numbered old
  case stored =>
    intro id stepId record found
    rcases get?_withAddedStep found with ⟨rfl, rfl, rfl⟩ | old
    · exact ⟨own.parent, fun id numbered => Option.some.inj numbered ▸ new⟩
    · exact List.append_nil created ▸ (traced.steps.stored old).append [] _
  case single =>
    intro id other one another known here there owns same
    have alone {id : JobExecutionId} {group : StepGroup}
        (found : (repository.withAddedStep now step).steps.groups.get? id = some group)
        (owns : CreatedFor created id known)
        (parent : CreatedFor created step.jobExecutionId known) : id = step.jobExecutionId := by
      rcases groups_added traced found with equal | ⟨old, ⟨own, present⟩ | apart⟩
      · exact equal
      · exact traced.steps.single old present owns parent
      · obtain ⟨owner, owned, lies⟩ := own.parent
        exact absurd (traced.numbers.owner owned parent ▸ lies) (apart known owns)
    rcases groups_added traced here with rfl | ⟨old, -⟩
    · exact (alone there same owns).symm
    · rcases groups_added traced there with rfl | ⟨otherOld, -⟩
      · exact alone here owns same
      · exact traced.steps.single old otherOld owns same

-- The context of a new step takes the place of those that steps of other executions of the instance
-- have left, and these steps go themselves.
private theorem stepContexts_added (traced : Traced created added repository)
    (few : created.length < 2 ^ 64) (room : repository.steps.lastId.toNat + 1 < 2 ^ 64)
    (own : step.Traced created added) :
    StepContextsKept created (added ++ [repository.addedStep now step])
      (repository.withAddedStep now step).steps
      (repository.withAddedStep now step).contexts.steps := by
  have new : AddedTo (added ++ [repository.addedStep now step])
      ⟨repository.steps.lastId + 1⟩ step.jobExecutionId := addedTo_append.2 (.inr ⟨rfl, rfl⟩)
  constructor
  · intro stepId filed found
    rcases ContextStore.get?_file.1 found with ⟨rfl, rfl⟩ | ⟨-, old, -⟩
    · exact ⟨new, own.parent⟩
    · obtain ⟨belongs, lies⟩ := traced.stepContexts.filed old
      exact ⟨belongs.append _, lies⟩
  · intro id stepId record found
    rcases get?_withAddedStep found with ⟨rfl, rfl, rfl⟩ | old
    · exact ⟨_, ContextStore.get?_file.2 (.inl ⟨rfl, rfl⟩)⟩
    · obtain ⟨numbered, rfl⟩ := traced.steps.numbered old
      have belongs := (traced.steps.stored old).numbered stepId numbered
      have differs := RecordId.ne_next (traced.numbers.ofAdded belongs).1 room
      obtain ⟨filed, lookup⟩ := traced.stepContexts.present old
      obtain ⟨filedUnder, known, owns, lies⟩ := traced.stepContexts.filed lookup
      rw [traced.numbers.parent filedUnder belongs] at owns
      refine ⟨filed, ContextStore.get?_file.2 (.inr ⟨differs, lookup, fun superseded => ?_⟩)⟩
      refine (traced.numbers.parent filedUnder belongs).trans ?_
      obtain ⟨group, here, -⟩ := StepStore.get?_eq_some_iff.1 found
      rcases groups_added traced here with same | ⟨old, ⟨_, present⟩ | apart⟩
      · exact same
      · obtain ⟨owner, owned, same⟩ := own.parent
        obtain rfl := traced.eq_of_same_id few owns owned (lies.trans (superseded.trans same.symm))
        exact traced.steps.single old present owns owned
      · exact absurd (lies.trans superseded) (apart known owns)

/-- A repository stays traced with a new step. -/
theorem Traced.withAddedStep (now : Timestamp) (traced : Traced created added repository)
    (few : created.length < 2 ^ 64) (fewSteps : added.length + 1 < 2 ^ 64)
    (own : step.Traced created added) :
    Traced created (added ++ [repository.addedStep now step])
      (repository.withAddedStep now step) where
  consistent := traced.consistent.congr rfl rfl
  numbers := by
    have counted := traced.numbers.steps
    have room : repository.steps.lastId.toNat + 1 < 2 ^ 64 := by omega
    refine ⟨traced.numbers.instances, traced.numbers.executions, ?_, traced.numbers.ofCreated,
      traced.numbers.owner, ?_, ?_⟩
    · change (repository.steps.lastId + 1).toNat ≤ _
      rw [toNat_add_one room, List.length_append]
      exact Nat.succ_le_succ counted
    · intro stepId id belongs
      rcases addedTo_append.1 belongs with old | ⟨numbered, rfl⟩
      · obtain ⟨given, owner⟩ := traced.numbers.ofAdded old
        exact ⟨UInt64.le_trans given (le_add_one room), owner⟩
      · obtain rfl := Option.some.inj numbered
        obtain ⟨owner, owns, -⟩ := own.parent
        exact ⟨UInt64.le_refl _, owner, owns⟩
    · have fresh {stepId : StepExecutionId} {id : JobExecutionId}
          (belongs : AddedTo added stepId id)
          (numbered : some ⟨repository.steps.lastId + 1⟩ = some stepId) : False :=
        RecordId.ne_next (traced.numbers.ofAdded belongs).1 room (Option.some.inj numbered).symm
      intro stepId id other belongs same
      rcases addedTo_append.1 belongs with old | ⟨numbered, rfl⟩ <;>
        rcases addedTo_append.1 same with otherOld | ⟨otherNumbered, rfl⟩
      · exact traced.numbers.parent old otherOld
      · exact (fresh old otherNumbered).elim
      · exact (fresh otherOld numbered).elim
      · rfl
  executions := by
    refine ⟨traced.executions.stored, fun found step member => ?_, traced.executions.current⟩
    exact List.append_nil created ▸ (traced.executions.steps found step member).append [] _
  contexts := traced.contexts
  steps := steps_added traced own
  stepContexts := by
    have counted := traced.numbers.steps
    exact stepContexts_added traced few (by omega) own

end Adding

/-- The copies that a request is made with are traced, and so are the steps of an execution. -/
def GivenTraced (created : List JobExecution) (added : List StepExecution) : Request → Prop
  | .update copy => copy.Traced created ∧ ∀ step ∈ copy.steps, step.Traced created added
  | .updateContext copy => copy.Traced created
  | .addStep step | .updateStep step | .updateStepContext step => step.Traced created added
  | _ => True

/-- Every request keeps the stores traced that is made with traced copies. -/
theorem Traced.change {request : Request} {writing? : Option Writing} {after : Repository}
    (traced : Traced created added repository)
    (few : (created ++ (writing?.bind Writing.created?).toList).length < 2 ^ 64)
    (fewSteps : (added ++ (writing?.bind Writing.added?).toList).length < 2 ^ 64)
    (own : GivenTraced created added request)
    (change : Change repository now request writing? after) (consistent : after.Consistent) :
    Traced (created ++ (writing?.bind Writing.created?).toList)
      (added ++ (writing?.bind Writing.added?).toList) after := by
  have sameCreated : created ++ [] = created := List.append_nil created
  have sameAdded : added ++ [] = added := List.append_nil added
  cases change with
  | none =>
    change Traced (created ++ []) (added ++ []) _
    rw [sameCreated, sameAdded]
    exact traced
  | created granted =>
    change Traced (created ++ [_]) (added ++ []) _
    rw [sameAdded]
    exact traced.withExecution (by rwa [List.length_append] at few) granted consistent
  | written numbered found =>
    change Traced (created ++ []) (added ++ []) _
    rw [sameCreated, sameAdded]
    exact traced.withRecord numbered found own.1 own.2 consistent
  | stepAdded new found =>
    change (created ++ []).length < _ at few
    rw [sameCreated] at few
    change Traced (created ++ []) (added ++ [_]) _
    rw [sameCreated]
    exact traced.withAddedStep now few (by rwa [List.length_append] at fewSteps) own
  | stepWritten numbered found current =>
    change Traced (created ++ []) (added ++ []) _
    rw [sameCreated, sameAdded]
    exact traced.withWrittenStep now numbered found own
  | filed numbered =>
    change Traced (created ++ []) (added ++ []) _
    rw [sameCreated, sameAdded]
    exact traced.withFiled numbered own
  | stepFiled numbered =>
    change Traced (created ++ []) (added ++ []) _
    rw [sameCreated, sameAdded]
    exact traced.withFiledStep numbered own

/-- The stores are traced after every request that is made with traced copies. -/
theorem Traced.answer {request : Request} (traced : Traced created added repository)
    (few : (created ++ ((request.writing? (repository.answer now request).1).bind
      Writing.created?).toList).length < 2 ^ 64)
    (fewSteps : (added ++ ((request.writing? (repository.answer now request).1).bind
      Writing.added?).toList).length < 2 ^ 64)
    (own : GivenTraced created added request) :
    Traced
      (created ++ ((request.writing? (repository.answer now request).1).bind
        Writing.created?).toList)
      (added ++ ((request.writing? (repository.answer now request).1).bind Writing.added?).toList)
      (repository.answer now request).2 := by
  refine traced.change few fewSteps own (change_answer repository now request)
    ((effect_answer repository now request).consistent traced.consistent ?_)
  rintro copy rfl
  exact traced.genuine own.1

end Repository

end BatchRun
