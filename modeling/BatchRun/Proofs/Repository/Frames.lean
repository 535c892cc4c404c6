import BatchRun.Proofs.Repository.Reading
import BatchRun.Proofs.Repository.Traces

/-! # What a request leaves alone

A request that concerns one instance leaves alone what the stores hold of every other one: its
entry, the records of its executions, the groups of their steps and the contexts filed for them.
Removals go by the numbers of instances and executions, which stand for the same ones in all
records. What is read of an instance is put together from what is held of it, and from the contexts
of the steps that are shown with its executions.
-/

namespace BatchRun

/-- The execution with this number has been created for the instance with this name and identity
key. -/
def CreatedUnder (created : List JobExecution) (id : JobExecutionId) (target : String × String) :
    Prop :=
  ∃ known, CreatedFor created id known ∧ known.target = target

theorem CreatedUnder.append {created : List JobExecution} {id : JobExecutionId}
    {target : String × String} (more : List JobExecution) (own : CreatedUnder created id target) :
    CreatedUnder (created ++ more) id target := by
  obtain ⟨known, own, same⟩ := own
  exact ⟨known, own.append more, same⟩

namespace Repository

/-- What the stores hold of an instance is the same before and after. -/
structure Keeps (created : List JobExecution) (added : List StepExecution)
    (other : String × String) (before after : Repository) : Prop where
  registered : ∀ known ∈ before.instances.instances, known ∈ after.instances.instances
  named (jobName : String) (parameters : JobParameters)
    (own : (jobName, parameters.identityKey) = other) :
    after.instance? jobName parameters = before.instance? jobName parameters
  record {id : JobExecutionId} {stored : JobExecution} (own : stored.jobInstance.target = other) :
    after.executions.get? id = some stored ↔ before.executions.get? id = some stored
  group {id : JobExecutionId} (own : CreatedUnder created id other) :
    after.steps.groups.get? id = before.steps.groups.get? id
  context {id : JobExecutionId} (own : CreatedUnder created id other) :
    after.contexts.jobs.get? id = before.contexts.jobs.get? id
  stepContext {id : JobExecutionId} {stepId : StepExecutionId}
    (own : CreatedUnder created id other) (belongs : AddedTo added stepId id) :
    after.contexts.steps.get? stepId = before.contexts.steps.get? stepId

variable {repository before between after : Repository} {now : Timestamp}
  {created : List JobExecution} {added : List StepExecution} {target other : String × String}
  {id : JobExecutionId} {stepId : StepExecutionId} {known : JobInstance}
  {given stored record : JobExecution} {step : StepExecution}

/-- A number is that of executions of one instance only. -/
theorem NumbersKept.target_eq {instances : InstanceStore} {lastExecution lastStep : UInt64}
    (numbers : NumbersKept created added instances lastExecution lastStep)
    (own : CreatedUnder created id target) (same : CreatedUnder created id other) :
    target = other := by
  obtain ⟨known, own, rfl⟩ := own
  obtain ⟨owner, owns, rfl⟩ := same
  rw [numbers.owner own owns]

namespace Keeps

theorem refl (repository : Repository) : Keeps created added other repository repository where
  registered _ inside := inside
  named _ _ _ := rfl
  record _ := Iff.rfl
  group _ := rfl
  context _ := rfl
  stepContext _ _ := rfl

theorem trans (first : Keeps created added other before between)
    (second : Keeps created added other between after) :
    Keeps created added other before after where
  registered known inside := second.registered known (first.registered known inside)
  named jobName parameters own :=
    (second.named jobName parameters own).trans (first.named jobName parameters own)
  record own := (second.record own).trans (first.record own)
  group own := (second.group own).trans (first.group own)
  context own := (second.context own).trans (first.context own)
  stepContext own belongs := (second.stepContext own belongs).trans (first.stepContext own belongs)

/-- It does not matter what is created or added for other instances. -/
theorem grow (keeps : Keeps created added other before after) {more : List JobExecution}
    {others : List StepExecution}
    (older : ∀ {id}, CreatedUnder (created ++ more) id other → CreatedUnder created id other)
    (olderSteps : ∀ {id stepId}, CreatedUnder created id other →
      AddedTo (added ++ others) stepId id → AddedTo added stepId id) :
    Keeps (created ++ more) (added ++ others) other before after where
  registered := keeps.registered
  named := keeps.named
  record := keeps.record
  group own := keeps.group (older own)
  context own := keeps.context (older own)
  stepContext own belongs := keeps.stepContext (older own) (olderSteps (older own) belongs)

variable (traced : Traced created added repository)

include traced

/-! ## The changes of the stores -/

/-- A record is written over by one of the same instance. -/
theorem withRecord
    (own : CreatedFor created id record.jobInstance) (apart : record.jobInstance.target ≠ other) :
    Keeps created added other repository (repository.withRecord id record) where
  registered _ inside := inside
  named _ _ _ := rfl
  record {key later} under := by
    rw [get?_withRecord]
    split
    · rename_i same
      constructor
      · rintro rewritten
        obtain rfl := Option.some.inj rewritten
        exact absurd under apart
      · intro before
        rw [same] at before
        have owner := traced.numbers.owner own (traced.executions.stored before)
        exact absurd ((congrArg JobInstance.target owner).trans under) apart
    · rfl
  group _ := rfl
  context _ := rfl
  stepContext _ _ := rfl

/-- The context of an execution is filed again. -/
theorem withFiled (own : CreatedUnder created id target) (apart : target ≠ other) :
    Keeps created added other repository (repository.withFiled id given) where
  registered _ inside := inside
  named _ _ _ := rfl
  record _ := Iff.rfl
  group _ := rfl
  context under := by
    refine (SortedMap.get?_insert ..).trans (if_neg ?_)
    rintro rfl
    exact apart (traced.numbers.target_eq own under)
  stepContext _ _ := rfl

/-- The context of a step is filed again. -/
theorem withFiledStep (belongs : AddedTo added stepId step.jobExecutionId)
    (own : CreatedUnder created step.jobExecutionId target) (apart : target ≠ other) :
    Keeps created added other repository (repository.withFiledStep stepId step) where
  registered _ inside := inside
  named _ _ _ := rfl
  record _ := Iff.rfl
  group _ := rfl
  context _ := rfl
  stepContext under belongsTo := by
    refine (SortedMap.get?_insert ..).trans (if_neg fun same => apart ?_)
    rw [traced.numbers.parent belongs (same ▸ belongsTo)] at own
    exact traced.numbers.target_eq own under

/-- A step is written. -/
theorem withWrittenStep (own : CreatedUnder created step.jobExecutionId target)
    (apart : target ≠ other) :
    Keeps created added other repository (repository.withWrittenStep now stepId step) where
  registered _ inside := inside
  named _ _ _ := rfl
  record _ := Iff.rfl
  group under := by
    refine StepStore.groups_withStep.trans (if_neg ?_)
    rintro rfl
    exact apart (traced.numbers.target_eq own under)
  context _ := rfl
  stepContext _ _ := rfl

end Keeps

section Adding

variable (traced : Traced created added repository) (few : created.length < 2 ^ 64)
  (ofStep : step.Traced created added)
  (own : CreatedUnder created step.jobExecutionId target) (apart : target ≠ other)

include traced few ofStep own apart

private theorem instance_ne (known : JobInstance) (foreign : CreatedFor created id known)
    (under : known.target = other) : known.id ≠ step.jobInstanceId := by
  intro same
  obtain ⟨owner, owns, lies⟩ := ofStep.parent
  have equal := traced.eq_of_same_id few foreign owns (same.trans lies.symm)
  exact apart (traced.numbers.target_eq own ⟨owner, owns, equal ▸ under⟩)

/-- A new step takes the place of steps and contexts of its own instance. -/
theorem Keeps.withAddedStep (now : Timestamp)
    (room : repository.steps.lastId.toNat + 1 < 2 ^ 64) :
    Keeps created (added ++ [repository.addedStep now step]) other repository
      (repository.withAddedStep now step) where
  registered _ inside := inside
  named _ _ _ := rfl
  record _ := Iff.rfl
  group {id} under := by
    refine (StepStore.groups_withStep.trans (if_neg ?_)).trans ?_
    · rintro rfl
      exact apart (traced.numbers.target_eq own under)
    refine Option.ext fun group => ?_
    refine StepStore.get?_retained.trans (and_iff_left_of_imp fun found => .inr ?_)
    obtain ⟨known, foreign, under⟩ := under
    have differs := instance_ne traced few ofStep own apart known foreign under
    exact Bool.eq_false_iff.2 (mt (traced.isGroupOf_iff found foreign).1 differs)
  context _ := rfl
  stepContext {id stepId} under belongs := by
    rcases addedTo_append.1 belongs with old | ⟨-, rfl⟩
    · refine Option.ext fun filed => ?_
      refine ContextStore.get?_file.trans ⟨?_, fun found => .inr ⟨?_, found, fun same => ?_⟩⟩
      · rintro (⟨rfl, -⟩ | ⟨-, found, -⟩)
        · exact absurd rfl (RecordId.ne_next (traced.numbers.ofAdded old).1 room)
        · exact found
      · exact RecordId.ne_next (traced.numbers.ofAdded old).1 room
      · obtain ⟨filedUnder, known, foreign, lies⟩ := traced.stepContexts.filed found
        rw [traced.numbers.parent filedUnder old] at foreign
        obtain ⟨owner, owns, under⟩ := under
        have differs := instance_ne traced few ofStep own apart owner owns under
        rw [traced.numbers.owner owns foreign] at differs
        exact absurd (lies.trans same) differs
    · exact absurd (traced.numbers.target_eq own under) apart

end Adding

section Creating

variable {jobName : String} {parameters : JobParameters} {context : ExecutionContext}
  {claimed : Repository} (traced : Traced created added repository)
  (few : created.length + 1 < 2 ^ 64)
  (granted : repository.claim jobName parameters = .ok (known, context, claimed))
  (apart : (jobName, parameters.identityKey) ≠ other)

include granted in
private theorem target_of_claim : known.target = (jobName, parameters.identityKey) :=
  JobInstance.isFor_iff_target.1 (isFor_of_claim granted).2

include granted apart in
private theorem named_created (name : String) (others : JobParameters)
    (own : (name, others.identityKey) = other) :
    (repository.withExecution now claimed.instances known parameters context).instance? name
      others = repository.instance? name others := by
  rcases claim_cases granted with ⟨-, -, same⟩ | ⟨-, -, extended⟩
  · rw [same]
    rfl
  · rw [extended]
    refine InstanceStore.get?_append_of_not_isFor (Bool.eq_false_iff.2 fun matching => apart ?_)
    rw [← target_of_claim granted, ← own]
    exact JobInstance.isFor_iff_target.1 matching

include traced few granted apart in
-- An execution of another instance is an older one, and the number of the instance is another one.
private theorem older_of_created (now : Timestamp)
    (own : CreatedUnder (created ++ [repository.createdExecution now known parameters context]) id
      other) :
    id ≠ ⟨repository.executions.lastId + 1⟩ ∧
      ∃ owner, CreatedFor created id owner ∧ owner.id ≠ known.id := by
  have counted := traced.numbers.executions
  obtain ⟨owner, own, rfl⟩ := own
  rcases createdFor_append.1 own with old | ⟨-, same⟩
  · obtain ⟨given, inside⟩ := traced.numbers.ofCreated old
    obtain ⟨-, -, kept⟩ := traced.consistent.claim granted
    refine ⟨RecordId.ne_next given (by omega), owner, old, fun same => apart ?_⟩
    rw [owner_eq_of_same_id traced few granted (kept _ inside) same]
    exact (target_of_claim granted).symm
  · change known = owner at same
    exact absurd (same ▸ (target_of_claim granted).symm) apart

include traced few granted apart in
/-- A new execution takes the place of records and contexts of its own instance. -/
theorem Keeps.withExecution (now : Timestamp) :
    Keeps (created ++ [repository.createdExecution now known parameters context]) added other
      repository (repository.withExecution now claimed.instances known parameters context) where
  registered := (traced.consistent.claim granted).2.2
  named := named_created granted apart
  record {id stored} under := by
    refine ExecutionStore.get?_afterSave.trans ⟨?_, fun found => .inr ?_⟩
    · rintro (⟨-, rfl⟩ | ⟨-, found, -⟩)
      · exact absurd ((target_of_claim granted).symm.trans under) apart
      · exact found
    · have stored := traced.executions.stored found
      obtain ⟨differs, owner, own, other⟩ := older_of_created traced few granted apart now
        ⟨_, stored.append _, under⟩
      exact ⟨differs, found, traced.numbers.owner stored own ▸ other⟩
  group _ := rfl
  context {id} under := by
    obtain ⟨differs, owner, own, other⟩ := older_of_created traced few granted apart now under
    refine Option.ext fun filed => ContextStore.get?_file.trans ⟨?_, fun found => .inr ?_⟩
    · rintro (⟨same, -⟩ | ⟨-, found, -⟩)
      · exact absurd same differs
      · exact found
    · obtain ⟨-, filedFor, owns, lies⟩ := traced.contexts.filed found
      rw [traced.numbers.owner owns own] at lies
      exact ⟨differs, found, fun same => absurd (lies.trans same) other⟩
  stepContext _ _ := rfl

end Creating

/-- The request concerns the instance with this name and identity key: it goes by these, by a copy
that belongs to the instance, or by the number of one of its records. -/
def Concerns (created : List JobExecution) (added : List StepExecution)
    (target : String × String) : Request → Prop
  | .findInstance jobName parameters | .lastExecution jobName parameters
  | .createExecution jobName parameters => (jobName, parameters.identityKey) = target
  | .lastStep known _ | .executionsOf known => known.target = target
  | .runningExecutions jobName => jobName = target.1
  | .execution id | .step id _ | .context (.job id) => CreatedUnder created id target
  | .context (.step stepId) => ∃ id, AddedTo added stepId id ∧ CreatedUnder created id target
  | .update copy | .synchronize copy | .updateContext copy => copy.jobInstance.target = target
  | .addStep step | .updateStep step | .updateStepContext step =>
    CreatedUnder created step.jobExecutionId target

section Requests

variable {request : Request} {writing? : Option Writing}

/-- A request that concerns one instance creates no execution of another one, and adds no step to
one. -/
theorem Change.older (traced : Traced created added repository)
    (concerns : Concerns created added target request) (apart : target ≠ other)
    (change : Change repository now request writing? after) :
    (∀ {id}, CreatedUnder (created ++ (writing?.bind Writing.created?).toList) id other →
      CreatedUnder created id other) ∧
    ∀ {id stepId}, CreatedUnder created id other →
      AddedTo (added ++ (writing?.bind Writing.added?).toList) stepId id →
      AddedTo added stepId id := by
  have sameCreated : created ++ [] = created := List.append_nil created
  have sameAdded : added ++ [] = added := List.append_nil added
  cases change with
  | created granted =>
    refine ⟨fun {id} own => ?_, fun _ belongs => sameAdded ▸ belongs⟩
    obtain ⟨owner, own, rfl⟩ := own
    rcases createdFor_append.1 own with old | ⟨-, same⟩
    · exact ⟨owner, old, rfl⟩
    · obtain rfl := same
      exact absurd (concerns.symm.trans (target_of_claim granted).symm) apart
  | stepAdded new found =>
    refine ⟨fun own => sameCreated ▸ own, fun {id stepId} under belongs => ?_⟩
    rcases addedTo_append.1 belongs with old | ⟨-, rfl⟩
    · exact old
    · exact absurd (traced.numbers.target_eq concerns under) apart
  | _ => exact ⟨fun own => sameCreated ▸ own, fun _ belongs => sameAdded ▸ belongs⟩

/-- A request that concerns one instance keeps what the stores hold of another one. -/
theorem Keeps.change
    (traced : Traced created added repository)
    (few : (created ++ (writing?.bind Writing.created?).toList).length < 2 ^ 64)
    (fewSteps : (added ++ (writing?.bind Writing.added?).toList).length < 2 ^ 64)
    (own : GivenTraced created added request) (concerns : Concerns created added target request)
    (apart : target ≠ other) (change : Change repository now request writing? after) :
    Keeps (created ++ (writing?.bind Writing.created?).toList)
      (added ++ (writing?.bind Writing.added?).toList) other repository after := by
  have sameCreated : created ++ [] = created := List.append_nil created
  have sameAdded : added ++ [] = added := List.append_nil added
  cases change with
  | none => exact .refl repository
  | created granted =>
    change Keeps (created ++ [_]) (added ++ []) _ _ _
    rw [sameAdded]
    exact .withExecution traced (by rwa [List.length_append] at few) granted
      (fun same => apart (concerns.symm.trans same)) now
  | @written given stored id numbered found =>
    change Keeps (created ++ []) (added ++ []) _ _ _
    rw [sameCreated, sameAdded]
    exact .withRecord traced (own.1 id numbered) fun same => apart (concerns.symm.trans same)
  | @stepAdded given parent new found =>
    change Keeps (created ++ []) (added ++ [_]) _ _ _
    have counted := traced.numbers.steps
    change (created ++ []).length < _ at few
    rw [sameCreated] at few ⊢
    rw [List.length_append] at fewSteps
    exact .withAddedStep traced few own concerns apart now
      (Nat.lt_of_le_of_lt (Nat.add_le_add_right counted 1) fewSteps)
  | stepWritten numbered found current =>
    change Keeps (created ++ []) (added ++ []) _ _ _
    rw [sameCreated, sameAdded]
    exact .withWrittenStep traced concerns apart
  | @filed given id numbered =>
    change Keeps (created ++ []) (added ++ []) _ _ _
    rw [sameCreated, sameAdded]
    exact .withFiled traced ⟨_, own id numbered, concerns⟩ apart
  | @stepFiled given id numbered =>
    change Keeps (created ++ []) (added ++ []) _ _ _
    rw [sameCreated, sameAdded]
    exact .withFiledStep traced (own.numbered id numbered) concerns apart

end Requests

/-! ## What is read of an instance -/

/-- What is read of an instance is the same before and after. -/
structure SameReads (created : List JobExecution) (added : List StepExecution)
    (other : String × String) (before after : Repository) : Prop where
  found : ∀ jobName parameters, (jobName, parameters.identityKey) = other →
    after.instance? jobName parameters = before.instance? jobName parameters
  last : ∀ jobName parameters, (jobName, parameters.identityKey) = other →
    after.lastExecution jobName parameters = before.lastExecution jobName parameters
  ofInstance : ∀ known ∈ before.instances.instances, known.target = other →
    after.executionsOf known = before.executionsOf known
  lastStep : ∀ known ∈ before.instances.instances, known.target = other →
    ∀ stepName, after.lastStep known stepName = before.lastStep known stepName
  execution : ∀ id, CreatedUnder created id other → after.execution id = before.execution id
  step : ∀ id, CreatedUnder created id other →
    ∀ stepId, after.step? id stepId = before.step? id stepId
  context : ∀ id, CreatedUnder created id other →
    after.contexts.get? (.job id) = before.contexts.get? (.job id)
  stepContext : ∀ id stepId, CreatedUnder created id other → AddedTo added stepId id →
    after.contexts.get? (.step stepId) = before.contexts.get? (.step stepId)
  running : ∀ jobName, ∃ reads later, before.runningExecutions jobName = .ok reads ∧
    after.runningExecutions jobName = .ok later ∧
    later.filter (fun read => read.jobInstance.target = other) =
      reads.filter fun read => read.jobInstance.target = other

namespace Keeps

section Reads

variable {more : List JobExecution} {others : List StepExecution} {keep : JobExecution → Bool}
  (keeps : Keeps (created ++ more) (added ++ others) other before after)
  (traced : Traced created added before)
  (tracedAfter : Traced (created ++ more) (added ++ others) after)
  (few : (created ++ more).length < 2 ^ 64)

include keeps

/-- The context of a step of the instance is read as before. -/
theorem withStepContext_eq (own : step.Traced created added)
    (under : CreatedUnder (created ++ more) step.jobExecutionId other) :
    after.withStepContext step = before.withStepContext step := by
  unfold withStepContext ContextStore.get?
  cases numbered : step.id with
  | none => rfl
  | some stepId =>
    have belongs := (own.numbered stepId numbered).append others
    simp only [Option.bind_some, keeps.stepContext under belongs]

private theorem records_eq (ofOther : ∀ {id stored},
      before.executions.get? id = some stored ∨ after.executions.get? id = some stored →
      keep stored = true → stored.jobInstance.target = other) :
    after.executions.executions.values.filter keep =
      before.executions.executions.values.filter keep :=
  SortedMap.filter_values_congr fun _ _ kept =>
    ⟨fun found => (keeps.record (ofOther (.inr found) kept)).1 found,
      fun found => (keeps.record (ofOther (.inl found) kept)).2 found⟩

include traced

/-- A record of the instance is read as before if the steps that are shown with it are. -/
theorem assembled_eq (found : before.executions.get? id = some stored)
    (under : stored.jobInstance.target = other)
    (shown : ∀ step ∈ before.listedSteps stored,
      after.withStepContext step = before.withStepContext step) :
    after.assembled stored = before.assembled stored := by
  have numbered := traced.consistent.executions.numbered found
  have own : CreatedUnder (created ++ more) id other :=
    ⟨_, (traced.executions.stored found).append more, under⟩
  have context : after.withContext stored = before.withContext stored := by
    unfold withContext ContextStore.get?
    simp only [numbered, Option.bind_some, keeps.context own]
  have listed : after.listedSteps stored = before.listedSteps stored := by
    unfold listedSteps
    rw [numbered, Option.bind_some, Option.bind_some, keeps.group own]
  unfold assembled
  rw [context, listed, List.map_congr_left shown]

include tracedAfter few

private theorem jobInstance_eq (inside : known ∈ before.instances.instances)
    (found : before.executions.get? id = some stored ∨ after.executions.get? id = some stored)
    (same : stored.jobInstance.id = known.id) : stored.jobInstance = known := by
  have bound := Nat.lt_of_le_of_lt tracedAfter.numbers.instances few
  have registered : stored.jobInstance ∈ after.instances.instances :=
    found.elim (fun found => keeps.registered _ (traced.consistent.belongs found))
      tracedAfter.consistent.belongs
  exact tracedAfter.consistent.instances.eq_of_same_id bound registered
    (keeps.registered known inside) same

private theorem ofInstance_eq (inside : known ∈ before.instances.instances)
    (under : known.target = other) :
    after.executions.ofInstance known.id = before.executions.ofInstance known.id := by
  refine congrArg List.reverse (keeps.records_eq fun found same => ?_)
  rw [keeps.jobInstance_eq traced tracedAfter few inside found (eq_of_beq same)]
  exact under

omit keeps traced in
private theorem under_of_step (inside : known ∈ after.instances.instances)
    (under : known.target = other)
    (own : CreatedIn (created ++ more) id known.id) : CreatedUnder (created ++ more) id other := by
  have bound := Nat.lt_of_le_of_lt tracedAfter.numbers.instances few
  obtain ⟨owner, owns, same⟩ := own
  obtain rfl := tracedAfter.consistent.instances.eq_of_same_id bound
    (tracedAfter.numbers.ofCreated owns).2 inside same
  exact ⟨owner, owns, under⟩

private theorem ofName_eq (inside : known ∈ before.instances.instances)
    (under : known.target = other) (stepName : String) :
    after.steps.ofName known.id stepName = before.steps.ofName known.id stepName := by
  refine StepStore.ofName_congr (fun execution group ⟨step, member, lies⟩ => ?_) stepName
  obtain ⟨stepId, here⟩ := SortedMap.mem_values.1 member
  have own (belongs : CreatedIn (created ++ more) execution step.jobInstanceId) :
      CreatedUnder (created ++ more) execution other :=
    under_of_step tracedAfter few (keeps.registered known inside) under (lies ▸ belongs)
  constructor
  · intro found
    have stored := StepStore.get?_eq_some_iff.2 ⟨group, found, here⟩
    rw [← keeps.group (own (tracedAfter.createdIn_of_step stored))]
    exact found
  · intro found
    have stored := StepStore.get?_eq_some_iff.2 ⟨group, found, here⟩
    rw [keeps.group (own ((traced.createdIn_of_step stored).append more))]
    exact found

/-- What is held of an instance is what is read of it, as long as the steps that are shown with its
executions are read as before. -/
theorem sameReads (shown : ∀ id stored, before.executions.get? id = some stored →
      stored.jobInstance.target = other → ∀ step ∈ before.listedSteps stored,
        after.withStepContext step = before.withStepContext step) :
    SameReads created added other before after := by
  have wellNumbered := traced.consistent.executions.toNumbered
  have numberedAfter := tracedAfter.consistent.executions.toNumbered
  have read {id : JobExecutionId} {stored : JobExecution}
      (found : before.executions.get? id = some stored)
      (under : stored.jobInstance.target = other) :
      after.assembled stored = before.assembled stored :=
    keeps.assembled_eq traced found under (shown id stored found under)
  constructor
  case found => exact keeps.named
  case last =>
    intro jobName parameters own
    rw [lastExecution_eq numberedAfter, lastExecution_eq wellNumbered, keeps.named _ _ own]
    cases isKnown : before.instance? jobName parameters with
    | none => rfl
    | some known =>
      obtain ⟨inside, matching⟩ := InstanceStore.mem_of_get? isKnown
      have under := (JobInstance.isFor_iff_target.1 matching).trans own
      have records := keeps.ofInstance_eq traced tracedAfter few inside under
      have same : after.executions.last? known.id = before.executions.last? known.id := by
        unfold ExecutionStore.last?
        rw [records]
      simp only [Option.bind_some, same]
      rcases before.executions.last?_cases known.id with ⟨-, nothing⟩ | ⟨stored, member, isLast⟩
      · rw [nothing]
        rfl
      · obtain ⟨⟨id, found⟩, lies⟩ := ExecutionStore.mem_ofInstance.1 member
        have owner := keeps.jobInstance_eq traced tracedAfter few inside (.inl found) lies
        rw [isLast, Option.map_some, Option.map_some, read found (owner ▸ under)]
  case ofInstance =>
    intro known inside under
    rw [executionsOf_eq numberedAfter, executionsOf_eq wellNumbered,
      keeps.ofInstance_eq traced tracedAfter few inside under]
    refine congrArg Except.ok (List.map_congr_left fun stored member => ?_)
    obtain ⟨⟨id, found⟩, lies⟩ := ExecutionStore.mem_ofInstance.1 member
    have owner := keeps.jobInstance_eq traced tracedAfter few inside (.inl found) lies
    exact read found (owner ▸ under)
  case lastStep =>
    intro known inside under stepName
    have same := keeps.ofName_eq traced tracedAfter few inside under stepName
    unfold lastStep
    rw [StepStore.last?_congr same]
    cases last : before.steps.last? known.id stepName with
    | none => rfl
    | some step =>
      obtain ⟨⟨id, stepId, found⟩, lies, -⟩ := StepStore.mem_ofName.1 (StepStore.mem_of_last? last)
      have own := (traced.createdIn_of_step found).append more
      rw [lies] at own
      obtain ⟨-, rfl⟩ := traced.steps.numbered found
      rw [Option.map_some, Option.map_some, keeps.withStepContext_eq (traced.steps.stored found)
        (under_of_step tracedAfter few (keeps.registered known inside) under own)]
  case execution =>
    intro id under
    have same : after.executions.get? id = before.executions.get? id := by
      have target {stored : JobExecution}
          (own : CreatedFor (created ++ more) id stored.jobInstance) :
          stored.jobInstance.target = other :=
        tracedAfter.numbers.target_eq ⟨_, own, rfl⟩ (under.append more)
      refine Option.ext fun stored => ⟨fun found => ?_, fun found => ?_⟩
      · exact (keeps.record (target (tracedAfter.executions.stored found))).1 found
      · exact (keeps.record (target ((traced.executions.stored found).append more))).2 found
    rw [execution_eq numberedAfter, execution_eq wellNumbered, same]
    cases found : before.executions.get? id with
    | none => rfl
    | some stored =>
      have stays := traced.executions.stored found
      rw [Option.map_some, Option.map_some, read found]
      exact traced.numbers.target_eq ⟨_, stays, rfl⟩ under
  case step =>
    intro id under stepId
    have same : after.steps.get? id stepId = before.steps.get? id stepId := by
      unfold StepStore.get?
      rw [keeps.group (under.append more)]
    unfold step?
    rw [same]
    cases found : before.steps.get? id stepId with
    | none => rfl
    | some step =>
      obtain ⟨-, rfl⟩ := traced.steps.numbered found
      rw [Option.map_some, Option.map_some,
        keeps.withStepContext_eq (traced.steps.stored found) (under.append more)]
  case context =>
    intro id under
    exact congrArg (Option.map _) (keeps.context (under.append more))
  case stepContext =>
    intro id stepId under belongs
    exact congrArg (Option.map _) (keeps.stepContext (under.append more) (belongs.append others))
  case running =>
    intro jobName
    refine ⟨_, _, runningExecutions_eq wellNumbered jobName,
      runningExecutions_eq numberedAfter jobName, ?_⟩
    have same : (after.executions.running jobName).filter
          (fun stored => stored.jobInstance.target = other) =
        (before.executions.running jobName).filter
          fun stored => stored.jobInstance.target = other := by
      unfold ExecutionStore.running
      rw [List.filter_reverse, List.filter_reverse, List.filter_filter, List.filter_filter]
      refine congrArg List.reverse (keeps.records_eq fun found kept => ?_)
      exact of_decide_eq_true (Bool.and_eq_true_iff.1 kept).1
    rw [List.filter_map, List.filter_map]
    refine (congrArg _ same).trans (List.map_congr_left fun stored member => ?_)
    obtain ⟨running, under⟩ := List.mem_filter.1 member
    obtain ⟨⟨id, found⟩, -⟩ := ExecutionStore.mem_running.1 running
    exact read found (of_decide_eq_true under)

end Reads

end Keeps

end Repository

end BatchRun
