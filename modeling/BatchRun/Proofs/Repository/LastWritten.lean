import BatchRun.Proofs.Repository.Traces

/-! # The stores hold what was written last

Of each execution, of each step and of each context the writings tell what was written last. What
the stores hold is that and nothing else: a record is never mixed up with the copies of the same
step or context in other stores. What has been removed from a store is not written to it again
except for the contexts, which can be filed at any time.
-/

namespace BatchRun

/-- The last value that is selected among the writings. -/
def latest? {α : Type} (select : Writing → Option α) (writings : List Writing) : Option α :=
  (writings.filterMap select).getLast?

private theorem latest?_append {α : Type} (select : Writing → Option α) (writings : List Writing)
    (writing : Writing) :
    latest? select (writings ++ [writing]) = (select writing).or (latest? select writings) := by
  unfold latest?
  cases chosen : select writing <;> simp [chosen]

/-- The execution with this number, as it has been written. -/
def Writing.record? (id : JobExecutionId) : Writing → Option JobExecution
  | created execution | written execution => if execution.id = some id then some execution else none
  | _ => none

/-- The context of the execution with this number, as it has been filed. -/
def Writing.context? (id : JobExecutionId) : Writing → Option ExecutionContext
  | created execution | filed execution =>
    if execution.id = some id then some execution.context else none
  | _ => none

/-- The step with this number, as it has been written. -/
def Writing.step? (id : StepExecutionId) : Writing → Option StepExecution
  | stepAdded step | stepWritten step => if step.id = some id then some step else none
  | _ => none

/-- The context of the step with this number, as it has been filed. -/
def Writing.stepContext? (id : StepExecutionId) : Writing → Option ExecutionContext
  | stepAdded step | stepFiled step => if step.id = some id then some step.context else none
  | _ => none

/-- Another execution of the instance has been created later than the one with this number. -/
def Evicted (created : List JobExecution) (id : JobExecutionId) : Prop :=
  ∃ earlier execution later, created = earlier ++ execution :: later ∧ execution.id = some id ∧
    ∃ other ∈ later, other.jobInstance = execution.jobInstance

private theorem evicted_append {created : List JobExecution} {id : JobExecutionId}
    {execution : JobExecution} :
    Evicted (created ++ [execution]) id ↔
      Evicted created id ∨ CreatedFor created id execution.jobInstance := by
  constructor
  · rintro ⟨earlier, evicted, later, split, numbered, other, member, same⟩
    rcases List.eq_nil_or_concat later with rfl | ⟨between, last, rfl⟩
    · exact absurd member List.not_mem_nil
    · rw [List.concat_eq_append, ← List.cons_append, ← List.append_assoc] at split
      obtain ⟨rfl, last⟩ := List.append_inj' split rfl
      obtain rfl := List.singleton_inj.1 last
      rw [List.concat_eq_append] at member
      rcases List.mem_append.1 member with inside | isLast
      · exact .inl ⟨earlier, evicted, between, rfl, numbered, other, inside, same⟩
      · obtain rfl := List.mem_singleton.1 isLast
        exact .inr ⟨evicted, by simp, numbered, same.symm⟩
  · rintro (⟨earlier, evicted, later, rfl, numbered, other, member, same⟩ |
      ⟨evicted, member, numbered, same⟩)
    · exact ⟨earlier, evicted, later ++ [execution], by simp, numbered, other,
        List.mem_append_left _ member, same⟩
    · obtain ⟨earlier, later, rfl⟩ := List.append_of_mem member
      exact ⟨earlier, evicted, later ++ [execution], by simp, numbered, execution, by simp,
        same.symm⟩

private theorem Evicted.createdFor {created : List JobExecution} {id : JobExecutionId}
    (evicted : Evicted created id) : ∃ known, CreatedFor created id known := by
  obtain ⟨earlier, execution, later, rfl, numbered, -⟩ := evicted
  exact ⟨_, execution, by simp, numbered, rfl⟩

namespace Repository

/-- What the stores hold is what was written last. -/
structure UpToDate (writings : List Writing) (repository : Repository) : Prop where
  record {id : JobExecutionId} {stored : JobExecution}
    (found : repository.executions.get? id = some stored) :
    ∃ record, latest? (Writing.record? id) writings = some record ∧
      stored = { record with context := stored.context }
  context {id : JobExecutionId} {filed : StoredContext}
    (found : repository.contexts.jobs.get? id = some filed) :
    ∃ context, latest? (Writing.context? id) writings = some context ∧
      filed.context.entries = context.entries
  step {id : JobExecutionId} {stepId : StepExecutionId} {step : StepExecution}
    (found : repository.steps.get? id stepId = some step) :
    latest? (Writing.step? stepId) writings = some step
  stepContext {stepId : StepExecutionId} {filed : StoredContext}
    (found : repository.contexts.steps.get? stepId = some filed) :
    latest? (Writing.stepContext? stepId) writings = some filed.context

/-- An execution is stored with all steps that have been added to it until another one of its
instance is created. -/
structure Lasting (created : List JobExecution) (added : List StepExecution)
    (executions : ExecutionStore) (steps : StepStore) : Prop where
  steps {id : JobExecutionId} {stepId : StepExecutionId} {stored : JobExecution}
    (found : executions.get? id = some stored) (belongs : AddedTo added stepId id) :
    ∃ step, steps.get? id stepId = some step
  evicted {id : JobExecutionId} (evicted : Evicted created id) : executions.get? id = none
  current {id : JobExecutionId} {known : JobInstance} (own : CreatedFor created id known)
    (still : ¬ Evicted created id) : ∃ stored, executions.get? id = some stored

variable {repository after : Repository} {now : Timestamp} {request : Request}
  {writings : List Writing} {writing : Writing} {writing? : Option Writing}
  {created : List JobExecution} {added : List StepExecution}

theorem UpToDate.empty : UpToDate [] Repository.empty := by
  constructor <;>
    simp [Repository.empty, ExecutionStore.empty, ExecutionStore.get?, ContextStore.empty,
      StepStore.empty, StepStore.get?]

theorem Lasting.empty : Lasting [] [] ExecutionStore.empty StepStore.empty := by
  constructor <;> simp [ExecutionStore.empty, ExecutionStore.get?, AddedTo, CreatedFor]

private theorem latest?_of_some {α : Type} {select : Writing → Option α} {value : α}
    (chosen : select writing = some value) :
    latest? select (writings ++ [writing]) = some value := by
  rw [latest?_append, chosen, Option.some_or]

private theorem latest?_of_none {α : Type} {select : Writing → Option α}
    (other : select writing = none) :
    latest? select (writings ++ [writing]) = latest? select writings := by
  rw [latest?_append, other, Option.none_or]

/-! ## Records and contexts -/

namespace UpToDate

variable (latest : UpToDate writings repository) {id : JobExecutionId} {stepId : StepExecutionId}

include latest

private theorem record_kept {stored : JobExecution} (other : Writing.record? id writing = none)
    (found : repository.executions.get? id = some stored) :
    ∃ record, latest? (Writing.record? id) (writings ++ [writing]) = some record ∧
      stored = { record with context := stored.context } := by
  rw [latest?_of_none other]
  exact latest.record found

private theorem context_kept {filed : StoredContext}
    (other : Writing.context? id writing = none)
    (found : repository.contexts.jobs.get? id = some filed) :
    ∃ context, latest? (Writing.context? id) (writings ++ [writing]) = some context ∧
      filed.context.entries = context.entries := by
  rw [latest?_of_none other]
  exact latest.context found

private theorem step_kept {step : StepExecution} (other : Writing.step? stepId writing = none)
    (found : repository.steps.get? id stepId = some step) :
    latest? (Writing.step? stepId) (writings ++ [writing]) = some step :=
  (latest?_of_none other).trans (latest.step found)

private theorem stepContext_kept {filed : StoredContext}
    (other : Writing.stepContext? stepId writing = none)
    (found : repository.contexts.steps.get? stepId = some filed) :
    latest? (Writing.stepContext? stepId) (writings ++ [writing]) = some filed.context :=
  (latest?_of_none other).trans (latest.stepContext found)

/-- What a request writes is what the stores hold afterwards. -/
theorem change (traced : Traced created added repository)
    (few : (added ++ (writing?.bind Writing.added?).toList).length < 2 ^ 64)
    (change : Change repository now request writing? after) :
    UpToDate (writings ++ writing?.toList) after := by
  cases change with
  | none => simpa using latest
  | created granted =>
    refine ⟨?_, ?_, latest.step_kept rfl, latest.stepContext_kept rfl⟩
    · intro id stored found
      rcases ExecutionStore.get?_afterSave.1 found with ⟨rfl, rfl⟩ | ⟨differs, old, -⟩
      · exact ⟨_, latest?_of_some (if_pos rfl), rfl⟩
      · exact latest.record_kept (if_neg fun same => differs (Option.some.inj same).symm) old
    · intro id filed found
      rcases ContextStore.get?_file.1 found with ⟨rfl, rfl⟩ | ⟨differs, old, -⟩
      · exact ⟨_, latest?_of_some (if_pos rfl), rfl⟩
      · exact latest.context_kept (if_neg fun same => differs (Option.some.inj same).symm) old
  | @written given record key numbered found =>
    refine ⟨?_, latest.context_kept rfl, latest.step_kept rfl, latest.stepContext_kept rfl⟩
    intro id stored lookup
    rw [get?_withRecord] at lookup
    split at lookup
    · rename_i same
      exact ⟨_, latest?_of_some (if_pos (same ▸ numbered)), Option.some.inj lookup ▸ rfl⟩
    · rename_i differs
      refine latest.record_kept (if_neg fun same => differs ?_) lookup
      exact (Option.some.inj (numbered.symm.trans same)).symm
  | @stepAdded given parent new found =>
    have counted := traced.numbers.steps
    rw [List.length_append] at few
    have room : repository.steps.lastId.toNat + 1 < 2 ^ 64 :=
      Nat.lt_of_le_of_lt (Nat.add_le_add_right counted 1) few
    refine ⟨latest.record_kept rfl, latest.context_kept rfl, ?_, ?_⟩
    · intro id stepId step lookup
      rcases get?_withAddedStep lookup with ⟨rfl, rfl, rfl⟩ | old
      · exact latest?_of_some (if_pos rfl)
      · have given := (traced.numbers.ofAdded (traced.addedTo_of_step old)).1
        refine latest.step_kept (if_neg fun same => RecordId.ne_next given room ?_) old
        exact (Option.some.inj same).symm
    · intro stepId filed lookup
      rcases ContextStore.get?_file.1 lookup with ⟨rfl, rfl⟩ | ⟨differs, old, -⟩
      · exact latest?_of_some (if_pos rfl)
      · exact latest.stepContext_kept (if_neg fun same => differs (Option.some.inj same).symm) old
  | @stepWritten given record key numbered found current =>
    refine ⟨latest.record_kept rfl, latest.context_kept rfl, ?_, latest.stepContext_kept rfl⟩
    intro id stepId step lookup
    replace lookup := StepStore.get?_withStep.symm.trans lookup
    split at lookup
    · rename_i same
      rw [← Option.some.inj lookup]
      exact latest?_of_some (if_pos (same.2 ▸ numbered))
    · rename_i differs
      refine latest.step_kept (if_neg fun same => differs ?_) lookup
      obtain rfl := Option.some.inj (numbered.symm.trans same)
      exact ⟨traced.numbers.parent (traced.addedTo_of_step lookup) (traced.addedTo_of_step found),
        rfl⟩
  | @filed given key numbered =>
    refine ⟨latest.record_kept rfl, ?_, latest.step_kept rfl, latest.stepContext_kept rfl⟩
    intro id filed found
    replace found := (SortedMap.get?_insert ..).symm.trans found
    split at found
    · rename_i same
      rw [← Option.some.inj found]
      exact ⟨_, latest?_of_some (if_pos (same ▸ numbered)), rfl⟩
    · rename_i differs
      refine latest.context_kept (if_neg fun same => differs ?_) found
      exact (Option.some.inj (numbered.symm.trans same)).symm
  | @stepFiled given key numbered =>
    refine ⟨latest.record_kept rfl, latest.context_kept rfl, latest.step_kept rfl, ?_⟩
    intro stepId filed found
    replace found := (SortedMap.get?_insert ..).symm.trans found
    split at found
    · rename_i same
      rw [← Option.some.inj found]
      exact latest?_of_some (if_pos (same ▸ numbered))
    · rename_i differs
      refine latest.stepContext_kept (if_neg fun same => differs ?_) found
      exact (Option.some.inj (numbered.symm.trans same)).symm

end UpToDate

/-! ## How long records are stored -/

namespace Lasting

variable {id : JobExecutionId} {stepId : StepExecutionId} {known : JobInstance}
  {given stored parent : JobExecution} {step record : StepExecution}
  (lasting : Lasting created added repository.executions repository.steps)
  (traced : Traced created added repository)

include lasting

theorem withExecution {jobName : String} {parameters : JobParameters}
    {context : ExecutionContext} {claimed : Repository}
    (traced : Traced created added repository) (few : created.length + 1 < 2 ^ 64)
    (granted : repository.claim jobName parameters = .ok (known, context, claimed)) :
    Lasting (created ++ [repository.createdExecution now known parameters context]) added
      (repository.withExecution now claimed.instances known parameters context).executions
      repository.steps := by
  have counted := traced.numbers.executions
  have fresh {id : JobExecutionId} {owner : JobInstance} (own : CreatedFor created id owner) :
      id ≠ ⟨repository.executions.lastId + 1⟩ :=
    RecordId.ne_next (traced.numbers.ofCreated own).1 (by omega)
  constructor
  case steps =>
    intro id stepId stored found belongs
    rcases ExecutionStore.get?_afterSave.1 found with ⟨rfl, -⟩ | ⟨-, old, -⟩
    · obtain ⟨-, owner, own⟩ := traced.numbers.ofAdded belongs
      exact absurd rfl (fresh own)
    · exact lasting.steps old belongs
  case evicted =>
    intro id evicted
    refine Option.eq_none_iff_forall_ne_some.2 fun stored found => ?_
    have own : ∃ owner, CreatedFor created id owner :=
      (evicted_append.1 evicted).elim Evicted.createdFor fun own => ⟨_, own⟩
    obtain ⟨owner, own⟩ := own
    rcases ExecutionStore.get?_afterSave.1 found with ⟨new, -⟩ | ⟨-, old, apart⟩
    · exact fresh own new
    · rcases evicted_append.1 evicted with before | now
      · rw [lasting.evicted before] at old
        contradiction
      · exact apart (congrArg JobInstance.id
          (traced.numbers.owner (traced.executions.stored old) now))
  case current =>
    intro id owner own still
    rcases createdFor_append.1 own with before | ⟨new, -⟩
    · obtain ⟨stored, found⟩ := lasting.current before fun evicted =>
        still (evicted_append.2 (.inl evicted))
      refine ⟨stored, ExecutionStore.get?_afterSave.2 (.inr ⟨fresh before, found, fun same => ?_⟩)⟩
      have stored := traced.executions.stored found
      obtain ⟨-, -, kept⟩ := traced.consistent.claim granted
      have equal := owner_eq_of_same_id traced few granted
        (kept _ (traced.numbers.ofCreated stored).2) same
      exact still (evicted_append.2 (.inr (equal ▸ stored)))
    · obtain rfl := Option.some.inj new
      exact ⟨_, ExecutionStore.get?_afterSave.2 (.inl ⟨rfl, rfl⟩)⟩

theorem withRecord (found : repository.executions.get? id = some stored) (record : JobExecution) :
    Lasting created added (repository.withRecord id record).executions repository.steps := by
  constructor
  case steps =>
    intro other stepId later lookup belongs
    rw [get?_withRecord] at lookup
    split at lookup
    · rename_i same
      exact lasting.steps (same ▸ found) belongs
    · exact lasting.steps lookup belongs
  case evicted =>
    intro other evicted
    have absent := lasting.evicted evicted
    rw [get?_withRecord, if_neg fun same => ?_]
    · exact absent
    · rw [same, found] at absent
      contradiction
  case current =>
    intro other owner own still
    obtain ⟨before, lookup⟩ := lasting.current own still
    by_cases same : other = id
    · exact ⟨record, get?_withRecord.trans (if_pos same)⟩
    · exact ⟨before, get?_withRecord.trans ((if_neg same).trans lookup)⟩

/-- The first step of a new execution does not make the steps of another stored execution go, since
that is of another instance. -/
theorem withAddedStep (traced : Traced created added repository) (own : step.Traced created added)
    (found : repository.executions.get? step.jobExecutionId = some parent) :
    Lasting created (added ++ [repository.addedStep now step]) repository.executions
      (repository.withAddedStep now step).steps := by
  refine ⟨fun {id stepId stored} lookup belongs => ?_, lasting.evicted, lasting.current⟩
  rcases addedTo_append.1 belongs with before | ⟨new, rfl⟩
  · obtain ⟨record, here⟩ := lasting.steps lookup before
    obtain ⟨group, here, inside⟩ := StepStore.get?_eq_some_iff.1 here
    have kept : (repository.steps.retained { step with lastUpdated := some now }).get? id =
        some group := by
      refine StepStore.get?_retained.2 ⟨here, ?_⟩
      by_cases same : id = step.jobExecutionId
      · exact .inl (Option.isSome_iff_exists.2 ⟨group, same ▸ here⟩)
      · refine .inr (Bool.eq_false_iff.2 fun belongs => same ?_)
        have sameInstance := (traced.isGroupOf_iff here (traced.executions.stored lookup)).1 belongs
        obtain ⟨owner, owns, lies⟩ := own.parent
        obtain rfl := traced.numbers.owner owns (traced.executions.stored found)
        exact traced.consistent.executions.single lookup found (sameInstance.trans lies.symm)
    by_cases new : id = step.jobExecutionId ∧ stepId = ⟨repository.steps.lastId + 1⟩
    · exact ⟨_, StepStore.get?_withStep.trans (if_pos new)⟩
    · exact ⟨record, StepStore.get?_withStep.trans ((if_neg new).trans
        (StepStore.get?_eq_some_iff.2 ⟨group, kept, inside⟩))⟩
  · obtain rfl := Option.some.inj new
    exact ⟨_, StepStore.get?_withStep.trans (if_pos ⟨rfl, rfl⟩)⟩

theorem withWrittenStep :
    Lasting created added repository.executions
      (repository.withWrittenStep now stepId step).steps := by
  refine ⟨fun {id other stored} lookup belongs => ?_, lasting.evicted, lasting.current⟩
  obtain ⟨before, found⟩ := lasting.steps lookup belongs
  by_cases same : id = step.jobExecutionId ∧ other = stepId
  · exact ⟨_, StepStore.get?_withStep.trans (if_pos same)⟩
  · exact ⟨before, StepStore.get?_withStep.trans ((if_neg same).trans found)⟩

/-- A change keeps what was written last of all other records. -/
theorem change (traced : Traced created added repository)
    (few : (created ++ (writing?.bind Writing.created?).toList).length < 2 ^ 64)
    (own : ∀ given, request = .addStep given → given.Traced created added)
    (change : Change repository now request writing? after) :
    Lasting (created ++ (writing?.bind Writing.created?).toList)
      (added ++ (writing?.bind Writing.added?).toList) after.executions after.steps := by
  have sameCreated : created ++ [] = created := List.append_nil created
  have sameAdded : added ++ [] = added := List.append_nil added
  cases change with
  | created granted =>
    change Lasting (created ++ [_]) (added ++ []) _ _
    rw [sameAdded]
    exact lasting.withExecution traced (by rwa [List.length_append] at few) granted
  | stepAdded new found =>
    change Lasting (created ++ []) (added ++ [_]) _ _
    rw [sameCreated]
    exact lasting.withAddedStep traced (own _ rfl) found
  | written numbered found =>
    change Lasting (created ++ []) (added ++ []) _ _
    rw [sameCreated, sameAdded]
    exact lasting.withRecord found _
  | stepWritten numbered found current =>
    change Lasting (created ++ []) (added ++ []) _ _
    rw [sameCreated, sameAdded]
    exact lasting.withWrittenStep
  | none | filed numbered | stepFiled numbered =>
    change Lasting (created ++ []) (added ++ []) _ _
    rw [sameCreated, sameAdded]
    exact lasting

end Lasting

end Repository

end BatchRun
