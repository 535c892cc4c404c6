import BatchRun.Proofs.Store.Groups

/-! # What saves and writes of steps come to

The log of saves and writes shows what each of them has done to the store of steps, and the store
that they have led to shows what can be found there: one group for each instance, with the steps
under their numbers, the latest number first, and the step that was started last for each name.
-/

namespace BatchRun.StepStore

open StepExecution (startOrder)

variable {executions : Set JobExecution} {store : StepStore} {numbers : List StepExecutionId}
  {count : Nat} {given step : StepExecution} {id : StepExecutionId} {group : StepGroup}
  {operations : List Operation} {entry : Entry}

/-! ## One entry of the log -/

/-- A step that is saved gets the next number, and comes back as it is stored. -/
structure Entry.Saves (entry : Entry) (given : StepExecution) (id : StepExecutionId) : Prop where
  new : given.id = none
  answer : entry.answer = ⟨.ok (), { given with id := some id, version := 1 }⟩
  /-- It is placed in the group of its execution. Then nothing is removed. -/
  joins : ∀ group, entry.before.groups.get? given.jobExecutionId = some group →
    ∀ execution, entry.after.groups.get? execution =
      if execution = given.jobExecutionId then some (group.insert id entry.answer.copy)
      else entry.before.groups.get? execution
  /-- If there is no such group, it is the first step of a new one. Of the other groups, exactly
  those of the same instance are removed. -/
  begins : entry.before.groups.get? given.jobExecutionId = none →
    entry.after.groups.get? given.jobExecutionId =
      some (SortedMap.empty.insert id entry.answer.copy) ∧
    ∀ execution, execution ≠ given.jobExecutionId → ∀ group,
      entry.after.groups.get? execution = some group ↔
        entry.before.groups.get? execution = some group ∧
          ∀ step ∈ group.values, step.jobInstanceId ≠ given.jobInstanceId

/-- A step that is written from a current copy has the next version, in the store and in hand. -/
structure Entry.Writes (entry : Entry) (given : StepExecution) : Prop where
  current : entry.before.IsCurrent given
  answer : entry.answer = ⟨.ok (), { given with version := given.version + 1 }⟩
  next : entry.answer.copy.version.toNat = given.version.toNat + 1
  stored : ∀ execution id, entry.after.get? execution id =
    if execution = given.jobExecutionId ∧ given.id = some id then some entry.answer.copy
    else entry.before.get? execution id

/-- What is refused leaves the step and the store as they are. -/
def Entry.Refuses (entry : Entry) (given : StepExecution) : Prop :=
  (∃ error, entry.answer = ⟨.error error, given⟩) ∧ entry.after = entry.before

/-- A save is noted with the number that it gives. -/
theorem Grouped.saves (grouped : Grouped executions numbers count store)
    (identified : Identified executions) (new : given.id = none) :
    Entry.Saves (serving.entryOf store (.save given)) given ⟨store.lastId + 1⟩ := by
  have served : serving store (.save given) =
      (⟨.ok (), store.savedAs given⟩, store.afterSave given) := by
    simp only [serving, save_of_new new]
  have groups (execution : JobExecutionId) :
      (store.afterSave given).groups.get? execution =
        if execution = given.jobExecutionId
        then some ((((store.retained given).get? execution).getD .empty).insert
          ⟨store.lastId + 1⟩ (store.savedAs given))
        else (store.retained given).get? execution := groups_withStep
  simp only [Service.entryOf, served]
  constructor
  case new => exact new
  case answer => rfl
  case joins =>
    intro group present execution
    rw [groups, retained_of_present present]
    split
    · rename_i same
      rw [same, present, Option.getD_some]
    · rfl
  case begins =>
    intro absent
    refine ⟨?_, fun execution other group => ?_⟩
    · have gone : (store.retained given).get? given.jobExecutionId = none := by
        refine Option.eq_none_iff_forall_ne_some.2 fun group stayed => ?_
        rw [(get?_retained.1 stayed).1] at absent
        contradiction
      rw [groups, if_pos rfl, gone, Option.getD_none]
    · rw [groups, if_neg other]
      exact grouped.retained_of_absent identified absent

/-- A write is noted with its version. -/
theorem Grouped.writes (grouped : Grouped executions numbers count store)
    (few : count + 1 < 2 ^ 64) (current : store.IsCurrent given) :
    Entry.Writes (serving.entryOf store (.update given)) given := by
  rcases store.update_cases given with
    ⟨id, stored, numbered, found, same, written⟩ | ⟨outdated, -⟩
  case inr => exact absurd current outdated
  have served : serving store (.update given) =
      (⟨.ok (), nextVersion given⟩, store.withStep id (nextVersion given)) := by
    simp only [serving, written]
  simp only [Service.entryOf, served]
  constructor
  case current => exact current
  case answer => rfl
  case next => exact grouped.toNat_nextVersion few found same
  case stored =>
    intro execution other
    rw [get?_withStep, numbered]
    simp only [nextVersion, Option.some.injEq, eq_comm]

/-! ## What can be found in a grouped store -/

namespace Grouped

variable {execution : JobExecution} {owner : JobExecutionId} {known : JobInstanceId}
  {stepName : String}

/-- A group has steps, all of its execution and of one instance. -/
theorem homogeneous (grouped : Grouped executions numbers count store)
    (identified : Identified executions) (found : store.groups.get? owner = some group) :
    group.values ≠ [] ∧ ∃ known, ∀ step ∈ group.values,
      step.jobExecutionId = owner ∧ step.jobInstanceId = known := by
  obtain ⟨known, same⟩ := grouped.exists_instance identified found
  obtain ⟨id, first, inside⟩ := grouped.inhabited found
  refine ⟨List.ne_nil_of_mem (SortedMap.mem_values.2 ⟨id, inside⟩), known, ?_⟩
  intro step member
  obtain ⟨other, there⟩ := SortedMap.mem_values.1 member
  exact ⟨(grouped.placed (get?_eq_some_iff.2 ⟨group, found, there⟩)).1, same step member⟩

/-- An execution with a group gets its steps, the latest number first. -/
theorem attach_eq (grouped : Grouped executions numbers count store)
    (saved : execution.id = some owner) (present : store.groups.get? owner = some group) :
    store.attach execution = .ok { execution with steps := group.values.reverse } ∧
      Descending (group.values.reverse.map (·.id)) ∧
      ∀ step, step ∈ group.values.reverse ↔ ∃ number, store.get? owner number = some step := by
  obtain ⟨number, step, inside⟩ := grouped.inhabited present
  have listed : group.isEmpty = false := by
    by_contra vacant
    rw [SortedMap.isEmpty_iff.1 (Bool.eq_true_of_not_eq_false vacant)] at inside
    contradiction
  refine ⟨?_, ?_, fun step => ?_⟩
  · simp only [attach, saved, present, listed, Bool.false_eq_true, if_false]
  · exact descending_values (·.id) fun found =>
      (grouped.placed (get?_eq_some_iff.2 ⟨group, present, found⟩)).2
  · simp [SortedMap.mem_values, get?_eq_some_iff, present]

/-- Steps are told apart by their numbers, so the last one of a name is above all other ones. -/
theorem last?_eq_some_iff (grouped : Grouped executions numbers count store) :
    store.last? known stepName = some step ↔ step ∈ store.ofName known stepName ∧
      ∀ other ∈ store.ofName known stepName, other ≠ step → startOrder other step = .lt := by
  refine StepStore.last?_eq_some_iff fun one member other member' same => ?_
  obtain ⟨⟨execution, id, found⟩, -⟩ := mem_ofName.1 member
  obtain ⟨⟨execution', id', found'⟩, -⟩ := mem_ofName.1 member'
  have sameId : id = id' := by
    rw [(grouped.placed found).2, (grouped.placed found').2] at same
    exact Option.some.inj same
  subst sameId
  obtain rfl := grouped.apart found found'
  exact Option.some.inj (found.symm.trans found')

end Grouped

/-! ## Many operations -/

/-- Whatever is saved and written, the steps are grouped. -/
theorem grouped_afterAll (identified : Identified executions)
    (started : ∀ operation ∈ operations, operation.given.StartedIn executions)
    (few : operations.length < 2 ^ 64) :
    Grouped executions (assigned (serving.log .empty operations)) operations.length
      (serving.afterAll .empty operations) := by
  induction operations using List.reverseRecOn with
  | nil => exact .empty
  | append_singleton earlier operation ih =>
    have room : earlier.length + 1 < 2 ^ 64 := by simpa using few
    have own := started operation (by simp)
    have grouped := ih (fun other member => started other (by simp [member])) (by omega)
    rw [Service.afterAll_append, assigned, Service.filterMap_log_concat, ← assigned,
      List.length_append, Service.entryOf]
    rcases serving_cases (serving.afterAll .empty earlier) operation with
      ⟨given, rfl, new, served⟩ | ⟨given, id, stored, rfl, numbered, found, current, served⟩ |
      ⟨-, error, refused⟩
    · simp only [served]
      exact grouped.afterSave identified own room
    · simp only [served, Entry.assigned?, Option.toList_none, List.append_nil]
      exact grouped.afterUpdate own room numbered found current identified
    · have none : Entry.assigned? ⟨serving.afterAll .empty earlier, operation,
          ⟨.error error, operation.given⟩, serving.afterAll .empty earlier⟩ = none := by
        cases operation <;> rfl
      simp only [refused, none, Option.toList_none, List.append_nil]
      exact grouped.mono

/-- What holds of saves and writes in a log and of the store that they have led to. -/
structure Represented (entries : List Entry) (store : StepStore) : Prop where
  /-- A new step is saved, and any other one is refused. -/
  saves : ∀ entry ∈ entries, ∀ given, entry.operation = .save given →
    (∃ id, entry.Saves given id) ∨ given.id ≠ none ∧ entry.Refuses given
  /-- A current copy is written, and any other one is refused. -/
  writes : ∀ entry ∈ entries, ∀ given, entry.operation = .update given →
    entry.Writes given ∨ ¬ entry.before.IsCurrent given ∧ entry.Refuses given
  /-- The numbers of steps increase, so none is given twice. -/
  numbers : (assigned entries).Pairwise fun first second => first.value < second.value
  /-- A group has steps, all of its execution and of one instance. -/
  groups : ∀ execution group, store.groups.get? execution = some group → group.values ≠ [] ∧
    ∃ known, ∀ step ∈ group.values,
      step.jobExecutionId = execution ∧ step.jobInstanceId = known
  /-- No two groups are of the same instance. -/
  single : ∀ first second one other, store.groups.get? first = some one →
    store.groups.get? second = some other →
    (∃ step ∈ one.values, ∃ another ∈ other.values,
      step.jobInstanceId = another.jobInstanceId) → first = second
  /-- A stored step stands under its own number, which has been given, and in no other group. -/
  placed : ∀ execution id step, store.get? execution id = some step →
    step.id = some id ∧ id ∈ assigned entries ∧
      ∀ other another, store.get? other id = some another → other = execution
  /-- An execution gets the steps of its group, the latest number first. -/
  attached : ∀ execution id group, execution.id = some id → store.groups.get? id = some group →
    ∃ steps, store.attach execution = .ok { execution with steps } ∧
      Descending (steps.map (·.id)) ∧
      ∀ step, step ∈ steps ↔ ∃ number, store.get? id number = some step
  /-- Without a group it keeps the steps that it has. -/
  unattached : ∀ execution id, execution.id = some id → store.groups.get? id = none →
    store.attach execution = .ok execution
  /-- The last step of a name within an instance is the one that was started last, the number
  deciding between steps of the same moment. -/
  last : ∀ known stepName step, store.last? known stepName = some step ↔
    step ∈ store.ofName known stepName ∧
      ∀ other ∈ store.ofName known stepName, other ≠ step → startOrder other step = .lt
  /-- There is one as long as there are steps of this name. -/
  noLast : ∀ known stepName,
    store.last? known stepName = none ↔ store.ofName known stepName = []

/-- Whatever is saved and written of steps of some executions, they are represented by one group
for each instance, as long as there are numbers for them. -/
theorem steps_are_grouped (executions : Set JobExecution) (identified : Identified executions)
    (operations : List Operation)
    (started : ∀ operation ∈ operations, operation.given.StartedIn executions)
    (few : operations.length < 2 ^ 64) :
    Represented (serving.log .empty operations) (serving.afterAll .empty operations) := by
  have grouped := grouped_afterAll identified started few
  -- the store was grouped as well before each of the operations
  have former {entry : Entry} (member : entry ∈ serving.log .empty operations) :
      ∃ earlier operation, earlier.length + 1 < 2 ^ 64 ∧
        Grouped executions (assigned (serving.log .empty earlier)) earlier.length
          (serving.afterAll .empty earlier) ∧
        entry = serving.entryOf (serving.afterAll .empty earlier) operation := by
    obtain ⟨earlier, operation, others, rfl, logged⟩ := Service.exists_of_mem_log member
    have room : earlier.length + 1 < 2 ^ 64 := by
      simp only [List.length_append, List.length_cons] at few
      omega
    exact ⟨earlier, operation, room, grouped_afterAll identified
      (fun other inside => started other (by simp [inside])) (by omega), logged⟩
  constructor
  case saves =>
    intro entry member given saves
    obtain ⟨earlier, operation, -, before, rfl⟩ := former member
    obtain rfl : operation = .save given := saves
    rcases serving_cases (serving.afterAll .empty earlier) (.save given) with
      ⟨_, same, new, -⟩ | ⟨_, _, _, other, -⟩ | ⟨due, error, refused⟩
    · cases same
      exact .inl ⟨_, before.saves identified new⟩
    · contradiction
    · refine .inr ⟨due, ⟨error, ?_⟩, ?_⟩ <;> rw [Service.entryOf, refused]
      rfl
  case writes =>
    intro entry member given writes
    obtain ⟨earlier, operation, room, before, rfl⟩ := former member
    obtain rfl : operation = .update given := writes
    rcases serving_cases (serving.afterAll .empty earlier) (.update given) with
      ⟨_, other, -⟩ | ⟨_, id, stored, same, numbered, found, current, -⟩ | ⟨due, error, refused⟩
    · contradiction
    · cases same
      exact .inl (before.writes room ⟨id, stored, numbered, found, current⟩)
    · refine .inr ⟨due, ⟨error, ?_⟩, ?_⟩ <;> rw [Service.entryOf, refused]
      rfl
  case numbers => exact grouped.increasing
  case groups => exact fun execution group found => grouped.homogeneous identified found
  case single =>
    rintro first second one other here there ⟨step, member, another, member', same⟩
    obtain ⟨id, inside⟩ := SortedMap.mem_values.1 member
    obtain ⟨id', inside'⟩ := SortedMap.mem_values.1 member'
    exact grouped.single (get?_eq_some_iff.2 ⟨one, here, inside⟩)
      (get?_eq_some_iff.2 ⟨other, there, inside'⟩) same
  case placed =>
    intro execution id step found
    exact ⟨(grouped.placed found).2, grouped.given found,
      fun other another there => grouped.apart there found⟩
  case attached =>
    exact fun execution id group saved present => ⟨_, grouped.attach_eq saved present⟩
  case unattached =>
    intro execution id saved absent
    simp only [attach, saved, absent]
  case last => exact fun known stepName step => grouped.last?_eq_some_iff
  case noLast => exact fun known stepName => last?_eq_none_iff

/-- Two instances, of which the first one has a second execution. -/
def restarted : List JobExecution :=
  let saved (id : UInt64) (known : UInt64) : JobExecution :=
    { JobExecution.create ⟨0, 0⟩ (.of ⟨known⟩ "import" .empty) .empty with id := some ⟨id⟩ }
  [saved 1 1, saved 2 2, saved 3 1]

/-- Two steps of the first execution are saved and one of another instance. The first one is written
twice from the same copy. Then the second execution has its first step. -/
def restart : List Operation :=
  let load := StepExecution.start ⟨1, 0⟩ "load" ⟨1⟩ ⟨1⟩
  let saved := { load with id := some ⟨1⟩, version := 1 }
  [.save load, .save (.start ⟨2, 0⟩ "check" ⟨1⟩ ⟨1⟩), .save (.start ⟨3, 0⟩ "load" ⟨2⟩ ⟨2⟩),
    .update saved, .update saved, .save (.start ⟨4, 0⟩ "load" ⟨3⟩ ⟨1⟩)]

/-- After a restart, only the steps of the second execution are stored for the instance. -/
theorem steps_are_grouped_restart :
    Identified {execution | execution ∈ restarted} ∧
      (∀ operation ∈ restart, operation.given.StartedIn {execution | execution ∈ restarted}) ∧
      restart.length < 2 ^ 64 ∧
      Represented (serving.log .empty restart) (serving.afterAll .empty restart) ∧
      (serving.log .empty restart).map (·.answer.result.isOk) =
        [true, true, true, true, false, true] ∧
      (serving.afterAll .empty restart).groups.keys = [⟨2⟩, ⟨3⟩] := by
  have identified : Identified {execution | execution ∈ restarted} := by
    simp [Identified, restarted, JobInstance.of, JobExecution.create]
  have started : ∀ operation ∈ restart,
      operation.given.StartedIn {execution | execution ∈ restarted} := by
    have : Nonempty Timestamp := ⟨⟨0, 0⟩⟩
    simp [restart, Operation.given, StepExecution.StartedIn, restarted, JobExecution.startStep,
      StepExecution.start, JobExecution.create, JobInstance.of]
  exact ⟨identified, started, by decide, steps_are_grouped _ identified restart started (by decide),
    by decide, by decide⟩

end BatchRun.StepStore
