import BatchRun.Proofs.Numbers
import BatchRun.Proofs.Repository.Contexts
import Mathlib.Logic.Function.Basic

/-! # What the next execution of each instance starts with

For every instance that has a record there is a context on file, and the next execution of the
instance starts with the entries of it; an instance without a record starts with none. So the
repository goes by one table of entries for all instances. New executions and writes of records
leave this table as it is, and only a write of a context changes it, for one instance.
-/

namespace BatchRun.Repository

variable {repository after : Repository} {now : Timestamp} {request : Request}
  {entries : String × String → SortedMap String Json} {copy own stored execution : JobExecution}
  {id other : JobExecutionId} {jobName : String} {parameters : JobParameters}

/-- There is another number for an execution. -/
def HasNumber (repository : Repository) : Prop :=
  repository.executions.lastId.toNat + 1 < 2 ^ 64

instance : Decidable repository.HasNumber := inferInstanceAs (Decidable (_ < _))

/-- The next execution of every instance starts with these entries. -/
structure Resumable (entries : String × String → SortedMap String Json) (repository : Repository) :
    Prop where
  consistent : repository.Consistent
  numbered : ∀ {id stored}, repository.executions.get? id = some stored →
    id.value ≤ repository.executions.lastId
  few : repository.instances.instances.length ≤ repository.executions.lastId.toNat
  filed : ∀ {id stored}, repository.executions.get? id = some stored →
    ∃ context, repository.filed? id = some ⟨stored.jobInstance.id, id, context⟩ ∧
      context.entries = entries stored.jobInstance.target
  unstored : ∀ target, (∀ id stored, repository.executions.get? id = some stored →
    stored.jobInstance.target ≠ target) → entries target = .empty

/-- The execution is stored, and it is running. -/
def Runs (repository : Repository) (execution : JobExecution) : Prop :=
  ∃ id stored, execution.id = some id ∧ repository.executions.get? id = some stored ∧
    execution.SameRecord stored ∧ stored.isRunning = true

/-- An instance has one record. -/
theorem Consistent.eq_of_same_target {record : JobExecution} (consistent : repository.Consistent)
    (found : repository.executions.get? id = some stored)
    (otherFound : repository.executions.get? other = some record)
    (same : stored.jobInstance.target = record.jobInstance.target) : id = other := by
  obtain ⟨name, key⟩ := Prod.mk.inj same
  have instances := consistent.instances.single (consistent.belongs found)
    (consistent.belongs otherFound) name key
  exact consistent.executions.single found otherFound (congrArg JobInstance.id instances)

/-- Requests other than for a new execution leave the numbering and the instances as they are, and
write over records with copies of their instances. -/
theorem instances_answer_of_other (now : Timestamp)
    (creates : ∀ jobName parameters, request ≠ .createExecution jobName parameters)
    (genuine : ∀ copy, request = .update copy → repository.Genuine copy) :
    (repository.answer now request).2.executions.lastId = repository.executions.lastId ∧
    (repository.answer now request).2.instances = repository.instances ∧
    ∀ id, ((repository.answer now request).2.executions.get? id).map (·.jobInstance) =
      (repository.executions.get? id).map (·.jobInstance) := by
  have effect := repository.effect_answer now request
  generalize (repository.answer now request).2 = next at effect ⊢
  cases effect with
  | none refused executions instances => exact ⟨by rw [executions], instances, by simp [executions]⟩
  | @write copy stored id numbered found =>
    refine ⟨rfl, rfl, fun key => ?_⟩
    have same := genuine copy rfl stored
      (ExecutionStore.recordOf?_eq_some_iff.2 ⟨id, numbered, found⟩)
    rw [get?_withRecord]
    split
    · rename_i equal
      rw [equal, found]
      exact congrArg some same
    · rfl
  | create granted executions instances => exact absurd rfl (creates _ _)

namespace Resumable

/-- A new repository has no entries for any instance. -/
theorem empty : Resumable (fun _ => .empty) .empty where
  consistent := .empty
  numbered found := by simp [Repository.empty, ExecutionStore.empty, ExecutionStore.get?] at found
  few := Nat.le_refl 0
  filed found := by simp [Repository.empty, ExecutionStore.empty, ExecutionStore.get?] at found
  unstored _ _ := rfl

/-- Only new executions and writes of contexts touch the files of executions. -/
theorem answer_of_other (resumable : Resumable entries repository) (now : Timestamp)
    (creates : ∀ jobName parameters, request ≠ .createExecution jobName parameters)
    (files : ∀ copy, request ≠ .updateContext copy)
    (genuine : ∀ copy, request = .update copy → repository.Genuine copy) :
    Resumable entries (repository.answer now request).2 := by
  obtain ⟨lastId, instances, records⟩ :=
    instances_answer_of_other now creates genuine
  have jobs : (repository.answer now request).2.contexts.jobs = repository.contexts.jobs :=
    jobs_answer_of_other creates files
  have origin {id stored} (found : (repository.answer now request).2.executions.get? id =
      some stored) : ∃ record, repository.executions.get? id = some record ∧
        stored.jobInstance = record.jobInstance := by
    have same := records id
    rw [found] at same
    obtain ⟨record, kept, equal⟩ := Option.map_eq_some_iff.1 same.symm
    exact ⟨record, kept, equal.symm⟩
  constructor
  case consistent =>
    exact (repository.effect_answer now request).consistent resumable.consistent genuine
  case numbered =>
    intro id stored found
    obtain ⟨record, kept, -⟩ := origin found
    rw [lastId]
    exact resumable.numbered kept
  case few =>
    rw [lastId, instances]
    exact resumable.few
  case filed =>
    intro id stored found
    obtain ⟨record, kept, same⟩ := origin found
    rw [same]
    unfold filed?
    rw [jobs]
    exact resumable.filed kept
  case unstored =>
    intro target absent
    refine resumable.unstored target fun id stored found => ?_
    have same := records id
    rw [found] at same
    obtain ⟨record, kept, equal⟩ := Option.map_eq_some_iff.1 same
    exact fun wanted => absent id record kept (equal ▸ wanted)

/-- A write of a context changes the entries of one instance. -/
theorem answer_updateContext (resumable : Resumable entries repository) (now : Timestamp)
    (found : repository.executions.get? id = some stored) (same : copy.SameRecord stored) :
    Resumable (Function.update entries stored.jobInstance.target copy.context.entries)
      (repository.answer now (.updateContext copy)).2 := by
  have numbered : copy.id = some id :=
    same.1.trans (resumable.consistent.executions.numbered found)
  obtain ⟨after, written, instances, executions, filed⟩ :=
    repository.updateContext_of_numbered numbered
  have answered : (repository.answer now (.updateContext copy)).2 = after :=
    congrArg Prod.snd written
  rw [answered]
  constructor
  case consistent => exact resumable.consistent.congr executions instances
  case numbered =>
    intro key record lookup
    rw [executions] at lookup ⊢
    exact resumable.numbered lookup
  case few =>
    rw [executions, instances]
    exact resumable.few
  case filed =>
    intro key record lookup
    rw [executions] at lookup
    rw [filed]
    by_cases own : key = id
    · subst own
      obtain rfl := Option.some.inj (found.symm.trans lookup)
      rw [if_pos rfl, same.2, Function.update_self]
      exact ⟨copy.context, rfl, rfl⟩
    · have apart : record.jobInstance.target ≠ stored.jobInstance.target := fun equal =>
        own (resumable.consistent.eq_of_same_target lookup found equal)
      rw [if_neg own, Function.update_of_ne apart]
      exact resumable.filed lookup
  case unstored =>
    intro target absent
    rw [executions] at absent
    rw [Function.update_of_ne (absent id stored found).symm]
    exact resumable.unstored target absent

/-! ## New executions -/

/-- There are numbers for all instances as well. -/
theorem few_after (resumable : Resumable entries repository)
    (created : repository.createExecution now jobName parameters = .ok (execution, after)) :
    after.instances.instances.length ≤ repository.executions.lastId.toNat + 1 := by
  obtain ⟨known, context, claimed, contexts, granted, -, rfl⟩ := createExecution_cases created
  have before := resumable.few
  rcases claim_cases granted with ⟨-, -, rfl⟩ | ⟨-, -, rfl⟩
  · exact Nat.le_succ_of_le before
  · simpa using before

/-- Records of the instance of a new execution are those for its job and parameters. -/
theorem target_eq_iff (resumable : Resumable entries repository) (number : repository.HasNumber)
    (created : repository.createExecution now jobName parameters = .ok (execution, after))
    (found : repository.executions.get? id = some stored) :
    stored.jobInstance.id = execution.jobInstance.id ↔
      stored.jobInstance.target = (jobName, parameters.identityKey) := by
  have few := resumable.few_after created
  rw [same_id_iff_of_created resumable.consistent (Nat.lt_of_le_of_lt few number) created
    (resumable.consistent.belongs found), JobInstance.isFor_iff_target]
  rfl

/-- A new execution starts with the entries for its instance. -/
theorem entries_of_created (resumable : Resumable entries repository)
    (number : repository.HasNumber)
    (created : repository.createExecution now jobName parameters = .ok (execution, after)) :
    execution.context.entries = entries (jobName, parameters.identityKey) := by
  obtain ⟨context, claimed, granted, start, -⟩ := filed?_of_created created
  rw [start]
  change context.entries = _
  by_cases known : ∃ id stored, repository.executions.get? id = some stored ∧
      stored.jobInstance.target = (jobName, parameters.identityKey)
  · obtain ⟨id, stored, found, target⟩ := known
    obtain ⟨left, lookup, leftEntries⟩ := resumable.filed found
    obtain ⟨-, same⟩ := context_of_record resumable.consistent granted found
      (JobInstance.isFor_iff_target.2 target) lookup
    rw [same, ← target]
    exact leftEntries
  · have absent (id stored) (found : repository.executions.get? id = some stored) :
        stored.jobInstance.target ≠ (jobName, parameters.identityKey) :=
      fun target => known ⟨id, stored, found, target⟩
    rw [resumable.unstored _ absent, context_of_no_record granted fun id stored found same =>
      absent id stored found ((resumable.target_eq_iff number created found).1 same)]
    rfl

/-- A new execution leaves all entries as they are, those of its own instance among them. -/
theorem created (resumable : Resumable entries repository) (number : repository.HasNumber)
    (created : repository.createExecution now jobName parameters = .ok (execution, after)) :
    Resumable entries after := by
  obtain ⟨record, sameRecord, records⟩ := get?_of_created created
  obtain ⟨context, claimed, granted, start, filed⟩ := filed?_of_created created
  obtain ⟨lastId, stored, -, given, -, isFor, -⟩ := record_of_created created
  have answered := answer_of_created created
  have target : execution.jobInstance.target = (jobName, parameters.identityKey) := by
    rw [given]
    exact JobInstance.isFor_iff_target.1 isFor
  constructor
  case consistent =>
    have effect := repository.effect_answer now (.createExecution jobName parameters)
    rw [answered] at effect
    exact effect.consistent resumable.consistent fun copy same => nomatch same
  case numbered =>
    intro id stored found
    rw [lastId]
    rcases (records id stored).1 found with ⟨rfl, -⟩ | ⟨-, kept, -⟩
    · exact UInt64.le_refl _
    · exact UInt64.le_trans (resumable.numbered kept) (le_add_one number)
  case few =>
    rw [lastId, toNat_add_one number]
    exact resumable.few_after created
  case filed =>
    intro id stored found
    rcases (records id stored).1 found with ⟨rfl, rfl⟩ | ⟨other, kept, apart⟩
    · refine ⟨context, ?_, ?_⟩
      · rw [← sameRecord.2]
        exact (filed _ _).2 (.inl ⟨rfl, rfl⟩)
      · rw [← sameRecord.2, target, ← resumable.entries_of_created number created, start]
        rfl
    · obtain ⟨left, lookup, leftEntries⟩ := resumable.filed kept
      exact ⟨left, (filed _ _).2 (.inr ⟨other, lookup, fun same => absurd same apart⟩),
        leftEntries⟩
  case unstored =>
    intro wanted absent
    have others : (jobName, parameters.identityKey) ≠ wanted := by
      rw [← target, sameRecord.2]
      exact absent _ record ((records _ _).2 (.inl ⟨rfl, rfl⟩))
    refine resumable.unstored wanted fun id stored found same => ?_
    refine absent id stored ((records id stored).2 (.inr ⟨?_, found, fun own => ?_⟩)) same
    · exact RecordId.ne_next (resumable.numbered found) number
    · exact others (((resumable.target_eq_iff number created found).1 own).symm.trans same)

/-- A request for a new execution leaves all entries as they are, whether it is granted or not. -/
theorem answer_create (resumable : Resumable entries repository) (number : repository.HasNumber) :
    Resumable entries (repository.answer now (.createExecution jobName parameters)).2 := by
  cases created : repository.createExecution now jobName parameters with
  | error error =>
    rw [answer_of_not_created created]
    exact resumable
  | ok result =>
    rw [answer_of_created created]
    exact resumable.created number created

/-! ## Executions under way -/

/-- An execution that has been created is under way. -/
theorem runs_of_created
    (created : repository.createExecution now jobName parameters = .ok (execution, after)) :
    after.Runs execution := by
  obtain ⟨-, stored, found, rfl, numbered, -, -, starting, -⟩ := record_of_created created
  exact ⟨_, stored, numbered, found, ⟨rfl, rfl⟩, by rw [JobExecution.isRunning, starting]; rfl⟩

/-- An execution under way is not replaced by another one. -/
theorem runs_answer_create (resumable : Resumable entries repository)
    (number : repository.HasNumber) (runs : repository.Runs own) :
    (repository.answer now (.createExecution jobName parameters)).2.Runs own := by
  cases created : repository.createExecution now jobName parameters with
  | error error =>
    rw [answer_of_not_created created]
    exact runs
  | ok result =>
    obtain ⟨execution, after⟩ := result
    rw [answer_of_created created]
    obtain ⟨id, stored, numbered, found, same, running⟩ := runs
    obtain ⟨record, -, records⟩ := get?_of_created created
    obtain ⟨context, claimed, granted, -⟩ := filed?_of_created created
    have room : repository.executions.lastId.toNat + 1 < 2 ^ 64 := number
    have few : repository.instances.instances.length + 1 < 2 ^ 64 := by
      have counted := resumable.few
      omega
    have apart := resumable.consistent.apart_of_claim few granted found
      (JobExecution.unclaimable_of_running running)
    refine ⟨id, stored, numbered, (records id stored).2 (.inr ⟨?_, found, apart⟩), same, running⟩
    exact RecordId.ne_next (resumable.numbered found) number

end Resumable

/-- Copies of one record run together. -/
theorem Runs.congr (runs : repository.Runs own) (same : copy.SameRecord own) :
    repository.Runs copy := by
  obtain ⟨id, stored, numbered, found, sameRecord, running⟩ := runs
  exact ⟨id, stored, same.1.trans numbered, found, same.trans sameRecord, running⟩

/-- Copies of an execution under way can be written. -/
theorem Runs.genuine (runs : repository.Runs own) : repository.Genuine own := by
  intro stored record
  obtain ⟨id, numbered, found⟩ := ExecutionStore.recordOf?_eq_some_iff.1 record
  obtain ⟨other, known, otherNumbered, otherFound, same, -⟩ := runs
  obtain rfl := Option.some.inj (numbered.symm.trans otherNumbered)
  obtain rfl := Option.some.inj (found.symm.trans otherFound)
  exact same.2

/-- A copy of an execution under way is written, whatever has been done to it. -/
theorem Runs.update (runs : repository.Runs own) (same : copy.SameRecord own)
    (now : Timestamp) : ∃ id stored, stored.isRunning = true ∧
      (repository.answer now (.update copy)).1 = ⟨.ok (), written now copy stored⟩ ∧
      (repository.answer now (.update copy)).2.executions.get? id =
        some (written now copy stored) := by
  obtain ⟨id, stored, numbered, found, -, running⟩ := runs
  have answered : repository.answer now (.update copy) = _ :=
    update_of_record now (same.1.trans numbered) found
  rw [answered]
  refine ⟨id, stored, running, rfl, ?_⟩
  rw [get?_withRecord, if_pos rfl]

/-- An execution under way can be refreshed. -/
theorem Runs.synchronize (runs : repository.Runs own) (same : copy.SameRecord own) :
    ∃ stored, stored.isRunning = true ∧
      repository.synchronize copy = ⟨.ok (), copy.refreshedFrom stored⟩ := by
  obtain ⟨id, stored, numbered, found, -, running⟩ := runs
  exact ⟨stored, running, synchronize_of_record (same.1.trans numbered) found⟩

/-- Requests other than for a new execution end an execution only by a write of a copy of it that
has ended. -/
theorem Runs.answer (runs : repository.Runs own)
    (creates : ∀ jobName parameters, request ≠ .createExecution jobName parameters)
    (genuine : ∀ copy, request = .update copy →
      repository.Genuine copy ∧ (copy.id = own.id → copy.isRunning = true)) :
    (repository.answer now request).2.Runs own := by
  obtain ⟨id, stored, numbered, found, same, running⟩ := runs
  have effect := repository.effect_answer now request
  generalize (repository.answer now request).2 = next at effect ⊢
  cases effect with
  | none refused executions instances =>
    exact ⟨id, stored, numbered, executions ▸ found, same, running⟩
  | @write copy record key keyed recorded =>
    obtain ⟨belongs, going⟩ := genuine copy rfl
    by_cases own : id = key
    · subst own
      obtain rfl := Option.some.inj (found.symm.trans recorded)
      refine ⟨id, written now copy stored, numbered, ?_, ⟨?_, ?_⟩, ?_⟩
      · rw [get?_withRecord, if_pos rfl]
      · exact numbered.trans keyed.symm
      · exact same.2.trans (belongs stored
          (ExecutionStore.recordOf?_eq_some_iff.2 ⟨id, keyed, found⟩)).symm
      · exact JobExecution.isRunning_refreshedFrom (going (keyed.trans numbered.symm)) running
    · refine ⟨id, stored, numbered, ?_, same, running⟩
      rw [get?_withRecord, if_neg own]
      exact found
  | create granted executions instances => exact absurd rfl (creates _ _)

end BatchRun.Repository
