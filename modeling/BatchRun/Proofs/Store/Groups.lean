import BatchRun.Proofs.Log
import BatchRun.Proofs.Numbers
import BatchRun.Proofs.Store.Latest
import Mathlib.Data.Set.Defs

/-! # One group of steps for each instance

Clients save steps of job executions and write copies of them, in any order and with whatever
changes, as long as the copies keep the numbers of the execution and the instance they were started
with. All groups are then groups of steps of one execution and one instance, and no two are of the
same instance. So the first step of a group speaks for all of them when a save makes room, and what
is found does not depend on the order in which groups are gone through.
-/

namespace BatchRun

namespace StepExecution

/-- The step was started in one of these executions. Anything else about it may have been changed,
its number and version among it. -/
def StartedIn (executions : Set JobExecution) (step : StepExecution) : Prop :=
  ∃ execution ∈ executions, ∃ now stepName started,
    execution.startStep now stepName = .ok started ∧
      step.jobExecutionId = started.jobExecutionId ∧ step.jobInstanceId = started.jobInstanceId

private theorem StartedIn.exists_execution {executions : Set JobExecution} {step : StepExecution}
    (started : step.StartedIn executions) :
    ∃ execution ∈ executions, execution.id = some step.jobExecutionId ∧
      execution.jobInstance.id = step.jobInstanceId := by
  obtain ⟨execution, member, now, stepName, fresh, made, sameExecution, sameInstance⟩ := started
  refine ⟨execution, member, ?_⟩
  unfold JobExecution.startStep at made
  cases saved : execution.id with
  | none => simp [saved] at made
  | some id =>
    simp only [saved, Except.ok.injEq] at made
    subst made
    exact ⟨congrArg some sameExecution.symm, sameInstance.symm⟩

end StepExecution

/-- The number of a saved execution determines its instance. -/
def Identified (executions : Set JobExecution) : Prop :=
  ∀ one ∈ executions, ∀ other ∈ executions, ∀ id, one.id = some id → other.id = some id →
    one.jobInstance.id = other.jobInstance.id

private theorem Identified.eq_instance {executions : Set JobExecution} {one other : StepExecution}
    (identified : Identified executions) (oneStarted : one.StartedIn executions)
    (otherStarted : other.StartedIn executions)
    (same : one.jobExecutionId = other.jobExecutionId) :
    one.jobInstanceId = other.jobInstanceId := by
  obtain ⟨first, firstMember, firstId, firstInstance⟩ := oneStarted.exists_execution
  obtain ⟨second, secondMember, secondId, secondInstance⟩ := otherStarted.exists_execution
  rw [← firstInstance, ← secondInstance]
  exact identified first firstMember second secondMember _ firstId (same ▸ secondId)

namespace StepStore

open StepExecution (startOrder)

/-- What clients do with a step: they save a new one or write a copy of a saved one. -/
inductive Operation
  | save (given : StepExecution)
  | update (given : StepExecution)

/-- The step that is handed in. -/
def Operation.given : Operation → StepExecution
  | save given => given
  | update given => given

/-- What a client has in hand afterwards. -/
structure Served where
  result : Except StoreError Unit
  copy : StepExecution

/-- The store of steps at work: what it refuses leaves the step and the store as they are. -/
def serving : Service StepStore Operation Served := fun store operation =>
  let outcome := match operation with
    | .save given => store.save given
    | .update given => store.update given
  match outcome with
  | .ok (written, after) => (⟨.ok (), written⟩, after)
  | .error error => (⟨.error error, operation.given⟩, store)

/-- A save or write that has been answered. -/
abbrev Entry := LogEntry StepStore Operation Served

/-- The number that a step has been given, if it was saved. -/
def Entry.assigned? (entry : Entry) : Option StepExecutionId :=
  match entry.operation, entry.answer.result with
  | .save _, .ok () => entry.answer.copy.id
  | _, _ => none

/-- The numbers that steps have been given, the first one first. -/
def assigned (entries : List Entry) : List StepExecutionId := entries.filterMap Entry.assigned?

/-- The store takes new steps and current copies. -/
def Operation.IsDue (store : StepStore) : Operation → Prop
  | save given => given.id = none
  | update given => store.IsCurrent given

variable {executions : Set JobExecution} {store : StepStore} {numbers : List StepExecutionId}
  {count : Nat} {given step stored : StepExecution} {execution : JobExecutionId}
  {id : StepExecutionId} {group : StepGroup} {operations : List Operation}

/-- A new step is saved, a copy with the current version is written, and everything else is
refused. -/
theorem serving_cases (store : StepStore) (operation : Operation) :
    (∃ given, operation = .save given ∧ given.id = none ∧
      serving store operation = (⟨.ok (), store.savedAs given⟩, store.afterSave given)) ∨
    (∃ given id stored, operation = .update given ∧ given.id = some id ∧
      store.get? given.jobExecutionId id = some stored ∧ stored.version = given.version ∧
      serving store operation =
        (⟨.ok (), nextVersion given⟩, store.withStep id (nextVersion given))) ∨
    ¬ operation.IsDue store ∧
      ∃ error, serving store operation = (⟨.error error, operation.given⟩, store) := by
  unfold serving
  cases operation with
  | save given =>
    cases numbered : given.id with
    | none => exact .inl ⟨given, rfl, numbered, by simp only [save_of_new numbered]⟩
    | some id =>
      refine .inr (.inr ⟨by simp [Operation.IsDue, numbered],
        .alreadySaved .stepExecution id.value, ?_⟩)
      simp only [save, numbered]
  | update given =>
    rcases store.update_cases given with
      ⟨id, stored, numbered, found, current, written⟩ | ⟨outdated, error, refused⟩
    · exact .inr (.inl ⟨given, id, stored, rfl, numbered, found, current, by simp only [written]⟩)
    · exact .inr (.inr ⟨outdated, error, by simp only [refused]⟩)

/-! ## The groups of the store -/

/-- What holds of the store when steps have been given these numbers, and no more than so many
operations have been carried out. -/
structure Grouped (executions : Set JobExecution) (numbers : List StepExecutionId) (count : Nat)
    (store : StepStore) : Prop where
  inhabited : ∀ {execution group}, store.groups.get? execution = some group →
    ∃ id step, group.get? id = some step
  /-- A step stands under its own numbers. -/
  placed : ∀ {execution id step}, store.get? execution id = some step →
    step.jobExecutionId = execution ∧ step.id = some id
  started : ∀ {execution id step}, store.get? execution id = some step → step.StartedIn executions
  /-- An instance has steps in one group. -/
  single : ∀ {first second id other one another}, store.get? first id = some one →
    store.get? second other = some another → one.jobInstanceId = another.jobInstanceId →
    first = second
  /-- A number stands in one group. -/
  apart : ∀ {first second id one other}, store.get? first id = some one →
    store.get? second id = some other → first = second
  increasing : numbers.Pairwise (·.value < ·.value)
  given : ∀ {execution id step}, store.get? execution id = some step → id ∈ numbers
  reached : ∀ id ∈ numbers, id.value ≤ store.lastId
  counted : store.lastId.toNat ≤ count
  versions : ∀ {execution id step}, store.get? execution id = some step →
    step.version.toNat ≤ count

namespace Grouped

theorem empty : Grouped executions [] 0 .empty := by
  have vacant (execution : JobExecutionId) : StepStore.empty.groups.get? execution = none := rfl
  constructor <;> simp [get?, vacant]
  rfl

theorem mono (grouped : Grouped executions numbers count store) :
    Grouped executions numbers (count + 1) store :=
  { grouped with
    counted := Nat.le_succ_of_le grouped.counted
    versions := fun found => Nat.le_succ_of_le (grouped.versions found) }

/-- The steps of a group belong to the instance of any step of its execution. -/
theorem eq_instance (grouped : Grouped executions numbers count store)
    (identified : Identified executions) (own : given.StartedIn executions)
    (found : store.get? given.jobExecutionId id = some stored) :
    stored.jobInstanceId = given.jobInstanceId :=
  identified.eq_instance (grouped.started found) own (grouped.placed found).1

/-- All steps of a group belong to one instance. -/
theorem exists_instance (grouped : Grouped executions numbers count store)
    (identified : Identified executions) (found : store.groups.get? execution = some group) :
    ∃ known, ∀ step ∈ group.values, step.jobInstanceId = known := by
  obtain ⟨id, first, inside⟩ := grouped.inhabited found
  have here : store.get? execution id = some first := get?_eq_some_iff.2 ⟨group, found, inside⟩
  refine ⟨first.jobInstanceId, fun step member => ?_⟩
  obtain ⟨other, there⟩ := SortedMap.mem_values.1 member
  have lies : store.get? first.jobExecutionId other = some step := by
    rw [(grouped.placed here).1]
    exact get?_eq_some_iff.2 ⟨group, found, there⟩
  exact grouped.eq_instance identified (grouped.started here) lies

/-- The first save for an execution keeps exactly the groups without steps of its instance. -/
theorem retained_of_absent (grouped : Grouped executions numbers count store)
    (identified : Identified executions)
    (absent : store.groups.get? given.jobExecutionId = none) :
    (store.retained given).get? execution = some group ↔
      store.groups.get? execution = some group ∧
        ∀ step ∈ group.values, step.jobInstanceId ≠ given.jobInstanceId := by
  rw [get?_retained]
  refine and_congr_right fun found => ?_
  obtain ⟨known, same⟩ := grouped.exists_instance identified found
  obtain ⟨id, first, inside⟩ := grouped.inhabited found
  have own := same first (SortedMap.mem_values.2 ⟨id, inside⟩)
  have first? : isGroupOf given.jobInstanceId group = true ↔ known = given.jobInstanceId :=
    isGroupOf_iff_of_same (grouped.inhabited found) same
  simp only [SortedMap.contains, absent, Option.isSome_none, Bool.false_eq_true, false_or]
  constructor
  · intro other step member belongs
    rw [first?.2 ((same step member).symm.trans belongs)] at other
    contradiction
  · intro others
    by_contra belongs
    exact others first (SortedMap.mem_values.2 ⟨id, inside⟩)
      (own.trans (first?.1 (Bool.eq_true_of_not_eq_false belongs)))

end Grouped

/-- A later save for an execution keeps all groups. -/
theorem retained_of_present (present : store.groups.get? given.jobExecutionId = some group) :
    store.retained given = store.groups := by
  simp [retained, SortedMap.contains, present]

namespace Grouped

/-- Where steps of the same instance have stayed, the new step is placed. -/
theorem eq_of_retained (grouped : Grouped executions numbers count store)
    (identified : Identified executions) (own : given.StartedIn executions)
    (stayed : (store.retained given).get? execution = some group)
    (inside : group.get? id = some stored) (same : stored.jobInstanceId = given.jobInstanceId) :
    execution = given.jobExecutionId := by
  cases present : store.groups.get? given.jobExecutionId with
  | none =>
    have others := ((grouped.retained_of_absent identified present).1 stayed).2
    exact absurd same (others stored (SortedMap.mem_values.2 ⟨id, inside⟩))
  | some ownGroup =>
    obtain ⟨other, sibling, within⟩ := grouped.inhabited present
    have here : store.get? given.jobExecutionId other = some sibling :=
      get?_eq_some_iff.2 ⟨ownGroup, present, within⟩
    rw [retained_of_present present] at stayed
    have there : store.get? execution id = some stored :=
      get?_eq_some_iff.2 ⟨group, stayed, inside⟩
    exact grouped.single there here (same.trans (grouped.eq_instance identified own here).symm)

/-- Groups stay together when a step is saved. -/
theorem afterSave (grouped : Grouped executions numbers count store)
    (identified : Identified executions) (own : given.StartedIn executions)
    (few : count + 1 < 2 ^ 64) :
    Grouped executions (numbers ++ [⟨store.lastId + 1⟩]) (count + 1) (store.afterSave given) := by
  have room : store.lastId.toNat + 1 < 2 ^ 64 := by have := grouped.counted; omega
  have old {first second : JobExecutionId} {id : StepExecutionId} {record : StepExecution}
      (found : store.get? first id = some record) : id ≠ ⟨store.lastId + 1⟩ :=
    RecordId.ne_next (grouped.reached id (grouped.given found)) room
  constructor
  case inhabited =>
    intro execution group found
    replace found := groups_withStep.symm.trans found
    split at found
    · rw [← Option.some.inj found]
      exact ⟨_, _, SortedMap.get?_insert_self ..⟩
    · exact grouped.inhabited (get?_retained.1 found).1
  case placed =>
    intro execution id step found
    rcases stored_of_afterSave found with ⟨rfl, rfl, rfl⟩ | before
    · exact ⟨rfl, rfl⟩
    · exact grouped.placed before
  case started =>
    intro execution id step found
    rcases stored_of_afterSave found with ⟨rfl, rfl, rfl⟩ | before
    · exact own
    · exact grouped.started before
  case single =>
    intro first second id other one another here there same
    rcases retained_of_afterSave here with ⟨rfl, rfl, rfl⟩ | ⟨group, stayed, inside⟩ <;>
      rcases retained_of_afterSave there with ⟨rfl, rfl, rfl⟩ | ⟨group', stayed', inside'⟩
    · rfl
    · exact (grouped.eq_of_retained identified own stayed' inside' same.symm).symm
    · exact grouped.eq_of_retained identified own stayed inside same
    · exact grouped.single (get?_eq_some_iff.2 ⟨group, (get?_retained.1 stayed).1, inside⟩)
        (get?_eq_some_iff.2 ⟨group', (get?_retained.1 stayed').1, inside'⟩) same
  case apart =>
    intro first second id one other here there
    rcases stored_of_afterSave here with ⟨rfl, new, -⟩ | before <;>
      rcases stored_of_afterSave there with ⟨rfl, new', -⟩ | before'
    · rfl
    · exact absurd new (RecordId.ne_next (grouped.reached _ (grouped.given before')) room)
    · exact absurd new' (RecordId.ne_next (grouped.reached _ (grouped.given before)) room)
    · exact grouped.apart before before'
  case increasing =>
    refine List.pairwise_append.2 ⟨grouped.increasing, List.pairwise_singleton .., ?_⟩
    intro id member new inside
    rw [List.mem_singleton.1 inside]
    exact UInt64.lt_of_le_of_lt (grouped.reached id member) (lt_add_one room)
  case given =>
    intro execution id step found
    rcases stored_of_afterSave found with ⟨-, rfl, -⟩ | before
    · exact List.mem_append_right _ (List.mem_singleton_self _)
    · exact List.mem_append_left _ (grouped.given before)
  case reached =>
    intro id member
    rcases List.mem_append.1 member with earlier | new
    · exact UInt64.le_trans (grouped.reached id earlier) (le_add_one room)
    · rw [List.mem_singleton.1 new]
      exact UInt64.le_refl _
  case counted =>
    change (store.lastId + 1).toNat ≤ count + 1
    rw [toNat_add_one room]
    exact Nat.succ_le_succ grouped.counted
  case versions =>
    intro execution id step found
    rcases stored_of_afterSave found with ⟨-, -, rfl⟩ | before
    · exact Nat.le_add_left 1 count
    · exact Nat.le_succ_of_le (grouped.versions before)

/-- The version of a current copy has a successor. -/
theorem toNat_nextVersion (grouped : Grouped executions numbers count store)
    (few : count + 1 < 2 ^ 64) (found : store.get? given.jobExecutionId id = some stored)
    (current : stored.version = given.version) :
    (nextVersion given).version.toNat = given.version.toNat + 1 := by
  refine toNat_add_one ?_
  have := current ▸ grouped.versions found
  omega

/-- Groups stay together when a step is written. -/
theorem afterUpdate (grouped : Grouped executions numbers count store)
    (own : given.StartedIn executions) (few : count + 1 < 2 ^ 64)
    (numbered : given.id = some id) (found : store.get? given.jobExecutionId id = some stored)
    (current : stored.version = given.version)
    (identified : Identified executions) :
    Grouped executions numbers (count + 1) (store.withStep id (nextVersion given)) := by
  -- what is stored now was stored before, or replaces a step of the same place and instance
  have source {execution other : _} {step : StepExecution}
      (here : (store.withStep id (nextVersion given)).get? execution other = some step) :
      (execution = given.jobExecutionId ∧ other = id ∧ step = nextVersion given) ∨
        store.get? execution other = some step := by
    rw [get?_withStep] at here
    split at here
    · rename_i same
      exact .inl ⟨same.1, same.2, (Option.some.inj here).symm⟩
    · exact .inr here
  have before {execution other : _} {step : StepExecution}
      (here : (store.withStep id (nextVersion given)).get? execution other = some step) :
      ∃ former, store.get? execution other = some former ∧
        former.jobInstanceId = step.jobInstanceId := by
    rcases source here with ⟨rfl, rfl, rfl⟩ | kept
    · exact ⟨stored, found, grouped.eq_instance identified own found⟩
    · exact ⟨step, kept, rfl⟩
  constructor
  case inhabited =>
    intro execution group here
    rw [groups_withStep] at here
    split at here
    · rw [← Option.some.inj here]
      exact ⟨_, _, SortedMap.get?_insert_self ..⟩
    · exact grouped.inhabited here
  case placed =>
    intro execution other step here
    rcases source here with ⟨rfl, rfl, rfl⟩ | kept
    · exact ⟨rfl, numbered⟩
    · exact grouped.placed kept
  case started =>
    intro execution other step here
    rcases source here with ⟨rfl, rfl, rfl⟩ | kept
    · exact own
    · exact grouped.started kept
  case single =>
    intro first second one other record another here there same
    obtain ⟨former, kept, alike⟩ := before here
    obtain ⟨former', kept', alike'⟩ := before there
    exact grouped.single kept kept' (alike.trans (same.trans alike'.symm))
  case apart =>
    intro first second other one another here there
    obtain ⟨former, kept, -⟩ := before here
    obtain ⟨former', kept', -⟩ := before there
    exact grouped.apart kept kept'
  case increasing => exact grouped.increasing
  case given =>
    intro execution other step here
    obtain ⟨former, kept, -⟩ := before here
    exact grouped.given kept
  case reached => exact grouped.reached
  case counted => exact Nat.le_succ_of_le grouped.counted
  case versions =>
    intro execution other step here
    rcases source here with ⟨rfl, rfl, rfl⟩ | kept
    · rw [grouped.toNat_nextVersion few found current, ← current]
      exact Nat.succ_le_succ (grouped.versions found)
    · exact Nat.le_succ_of_le (grouped.versions kept)

end Grouped

end StepStore

end BatchRun
