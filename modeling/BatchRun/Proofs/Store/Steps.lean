import BatchRun.Proofs.Store.Executions
import BatchRun.Store.Steps

/-! # The store of steps by its lookups

A step is placed in the group of its job execution, by the first save as well as by later writes.
Only a save can make groups go, and only the first one for its job execution does: the groups that
go are those whose first step is of the same instance.
-/

namespace BatchRun.StepStore

variable {store : StepStore} {step given stored : StepExecution} {id other : StepExecutionId}
  {execution : JobExecutionId} {group : StepGroup}

/-- The store with this step under its number in the group of its job execution. -/
def withStep (store : StepStore) (id : StepExecutionId) (step : StepExecution) : StepStore :=
  let group := (store.groups.get? step.jobExecutionId).getD .empty
  { store with groups := store.groups.insert step.jobExecutionId (group.insert id step) }

/-- A step is written into the group of its execution. -/
theorem groups_withStep :
    (store.withStep id step).groups.get? execution =
      if execution = step.jobExecutionId
      then some (((store.groups.get? execution).getD .empty).insert id step)
      else store.groups.get? execution := by
  unfold withStep
  simp only [SortedMap.get?_insert]
  split
  · rename_i same
    rw [same]
  · rfl

/-- One step is written, and the others stay. -/
theorem get?_withStep :
    (store.withStep id step).get? execution other =
      if execution = step.jobExecutionId ∧ other = id then some step
      else store.get? execution other := by
  unfold get?
  rw [groups_withStep]
  by_cases same : execution = step.jobExecutionId
  · rw [if_pos same, Option.bind_some, SortedMap.get?_insert]
    simp only [same, true_and]
    split
    · rfl
    · cases store.groups.get? step.jobExecutionId <;> rfl
  · simp [same]

theorem get?_eq_some_iff :
    store.get? execution id = some stored ↔
      ∃ group, store.groups.get? execution = some group ∧ group.get? id = some stored :=
  Option.bind_eq_some_iff

/-- Every step stands under its own numbers. -/
def Placed (store : StepStore) : Prop :=
  ∀ {execution id step}, store.get? execution id = some step →
    step.id = some id ∧ step.jobExecutionId = execution

theorem Placed.withStep (placed : store.Placed) (numbered : step.id = some id) :
    (store.withStep id step).Placed := by
  intro execution other record found
  rw [get?_withStep] at found
  split at found
  · rename_i same
    obtain rfl := Option.some.inj found
    exact ⟨same.2 ▸ numbered, same.1.symm⟩
  · exact placed found

private theorem later_selects (first second : StepExecution) :
    later first second = first ∨ later first second = second := by
  unfold later
  split
  · exact .inr rfl
  · split <;> simp
  · exact .inl rfl

/-- All steps of the store that belong to an instance and have this name. -/
def ofName (store : StepStore) (known : JobInstanceId) (stepName : String) : List StepExecution :=
  (store.groups.values.flatMap SortedMap.values).filter fun step =>
    step.jobInstanceId == known && step.stepName == stepName

/-- The steps of a name are those of that name within the instance. -/
theorem mem_ofName {known : JobInstanceId} {stepName : String} :
    step ∈ store.ofName known stepName ↔
      (∃ execution id, store.get? execution id = some step) ∧
        step.jobInstanceId = known ∧ step.stepName = stepName := by
  unfold ofName
  simp only [List.mem_filter, List.mem_flatMap, SortedMap.mem_values, get?_eq_some_iff,
    Bool.and_eq_true, beq_iff_eq]
  constructor
  · rintro ⟨⟨group, ⟨execution, found⟩, id, inside⟩, named⟩
    exact ⟨⟨execution, id, group, found, inside⟩, named⟩
  · rintro ⟨⟨execution, id, group, found, inside⟩, named⟩
    exact ⟨⟨group, ⟨execution, found⟩, id, inside⟩, named⟩

private theorem filter_flatMap_of_any {α β : Type} {list : α → List β} {keep : β → Bool}
    {present : α → Bool} (seen : ∀ entry value, value ∈ list entry → keep value = true →
      present entry = true) (entries : List α) :
    (entries.flatMap list).filter keep = ((entries.filter present).flatMap list).filter keep := by
  induction entries with
  | nil => rfl
  | cons entry rest ih =>
    rw [List.flatMap_cons, List.filter_append, ih, List.filter_cons]
    split
    · rw [List.flatMap_cons, List.filter_append]
    · rename_i unseen
      have nothing : (list entry).filter keep = [] :=
        List.filter_eq_nil_iff.2 fun value member kept => unseen (seen entry value member kept)
      rw [nothing, List.nil_append]

/-- The steps of an instance are the same in two stores if the groups with steps of this instance
are. -/
theorem ofName_congr {first second : StepStore} {known : JobInstanceId}
    (same : ∀ execution group, (∃ step ∈ group.values, step.jobInstanceId = known) →
      (first.groups.get? execution = some group ↔ second.groups.get? execution = some group))
    (stepName : String) : first.ofName known stepName = second.ofName known stepName := by
  let present (group : StepGroup) : Bool :=
    group.values.any fun step => step.jobInstanceId == known
  have seen (group : StepGroup) (step : StepExecution) (member : step ∈ group.values)
      (named : (step.jobInstanceId == known && step.stepName == stepName) = true) :
      present group = true :=
    List.any_eq_true.2 ⟨step, member, (Bool.and_eq_true_iff.1 named).1⟩
  have groups : first.groups.values.filter present = second.groups.values.filter present := by
    refine SortedMap.filter_values_congr fun execution group shown => same execution group ?_
    obtain ⟨step, member, lies⟩ := List.any_eq_true.1 shown
    exact ⟨step, member, eq_of_beq lies⟩
  unfold ofName
  rw [filter_flatMap_of_any seen, groups, ← filter_flatMap_of_any seen]

theorem last?_congr {first second : StepStore} {known : JobInstanceId} {stepName : String}
    (same : first.ofName known stepName = second.ofName known stepName) :
    first.last? known stepName = second.last? known stepName := by
  unfold ofName at same
  unfold last?
  simp only [same]

/-- The last step of a name is one of the steps of that name. -/
theorem mem_of_last? {known : JobInstanceId} {stepName : String}
    (last : store.last? known stepName = some step) : step ∈ store.ofName known stepName := by
  unfold last? at last
  dsimp only at last
  rw [← ofName] at last
  cases steps : store.ofName known stepName with
  | nil => simp [steps] at last
  | cons first rest =>
    simp only [steps, Option.some.injEq] at last
    exact last ▸ foldl_mem_of_selects later_selects first rest

/-! ## Saving -/

/-- The record of a new step. -/
def savedAs (store : StepStore) (step : StepExecution) : StepExecution :=
  { step with id := some ⟨store.lastId + 1⟩, version := 1 }

/-- The store after a new step has been saved. -/
def afterSave (store : StepStore) (step : StepExecution) : StepStore :=
  withStep ⟨store.retained step, store.lastId + 1⟩ ⟨store.lastId + 1⟩ (store.savedAs step)

/-- A new step is saved under the next number. -/
theorem save_of_new (new : step.id = none) :
    store.save step = .ok (store.savedAs step, store.afterSave step) := by
  unfold save
  simp only [new]
  rfl

/-- The first step of an execution drops the groups of others of its instance. -/
theorem get?_retained :
    (store.retained step).get? execution = some group ↔
      store.groups.get? execution = some group ∧
        (store.groups.contains step.jobExecutionId = true ∨
          isGroupOf step.jobInstanceId group = false) := by
  unfold retained
  split
  · rename_i present
    simp [present]
  · rename_i absent
    simp [absent, SortedMap.get?_filter_eq_some_iff]

/-- A step that is stored after a save is the new one or is in a group that has stayed. -/
theorem retained_of_afterSave {record : StepExecution}
    (found : (store.afterSave step).get? execution id = some record) :
    (execution = step.jobExecutionId ∧ id = ⟨store.lastId + 1⟩ ∧ record = store.savedAs step) ∨
      ∃ group, (store.retained step).get? execution = some group ∧
        group.get? id = some record := by
  replace found := get?_withStep.symm.trans found
  split at found
  · rename_i same
    exact .inl ⟨same.1, same.2, (Option.some.inj found).symm⟩
  · exact .inr (get?_eq_some_iff.1 found)

/-- A step that is stored after a save is the new one or was stored before. -/
theorem stored_of_afterSave {record : StepExecution}
    (found : (store.afterSave step).get? execution id = some record) :
    (execution = step.jobExecutionId ∧ id = ⟨store.lastId + 1⟩ ∧ record = store.savedAs step) ∨
      store.get? execution id = some record := by
  refine (retained_of_afterSave found).imp_right fun ⟨group, stayed, inside⟩ => ?_
  exact get?_eq_some_iff.2 ⟨group, (get?_retained.1 stayed).1, inside⟩

theorem Placed.afterSave (placed : store.Placed) : (store.afterSave step).Placed := by
  intro execution id record found
  rcases stored_of_afterSave found with ⟨rfl, rfl, rfl⟩ | before
  · exact ⟨rfl, rfl⟩
  · exact placed before

/-- The first step of a group tells the instance that all its steps belong to. -/
theorem isGroupOf_iff_of_same {known instanceId : JobInstanceId}
    (inside : ∃ id step, group.get? id = some step)
    (same : ∀ step ∈ group.values, step.jobInstanceId = known) :
    isGroupOf instanceId group = true ↔ known = instanceId := by
  obtain ⟨id, step, here⟩ := inside
  have member := SortedMap.mem_values.2 ⟨id, here⟩
  unfold isGroupOf
  cases values : group.values with
  | nil =>
    rw [values] at member
    exact absurd member List.not_mem_nil
  | cons first rest =>
    rw [values] at same
    simp [same first (List.mem_cons_self ..)]

/-! ## Later writes -/

/-- A step as it is written from this copy. -/
def nextVersion (given : StepExecution) : StepExecution :=
  { given with version := given.version + 1 }

/-- The record that a copy refers to, in the group of its execution, has the version of the copy. -/
def IsCurrent (store : StepStore) (given : StepExecution) : Prop :=
  ∃ id stored, given.id = some id ∧ store.get? given.jobExecutionId id = some stored ∧
    stored.version = given.version

/-- A write in one piece, with each error at its place. -/
theorem update_eq (store : StepStore) (given : StepExecution) :
    store.update given =
      match given.id with
      | none => .error (.missingId .stepExecution)
      | some id =>
        match store.get? given.jobExecutionId id with
        | none => .error (.notSaved .stepExecution id.value)
        | some stored =>
          if stored.version = given.version then
            .ok (nextVersion given, store.withStep id (nextVersion given))
          else .error (.optimisticLock .stepExecution id.value given.version stored.version) := by
  unfold update get? withStep nextVersion
  cases numbered : given.id with
  | none => rfl
  | some id =>
    cases lookup : store.groups.get? given.jobExecutionId with
    | none => rfl
    | some group => cases found : group.get? id <;> simp [found]

/-- A step is written from a copy with the current version, and refused otherwise. -/
theorem update_cases (store : StepStore) (given : StepExecution) :
    (∃ id stored, given.id = some id ∧ store.get? given.jobExecutionId id = some stored ∧
      stored.version = given.version ∧
      store.update given = .ok (nextVersion given, store.withStep id (nextVersion given))) ∨
    ¬ store.IsCurrent given ∧ ∃ error, store.update given = .error error := by
  rw [update_eq, IsCurrent]
  cases numbered : given.id with
  | none => exact .inr ⟨by simp, _, rfl⟩
  | some id =>
    cases found : store.get? given.jobExecutionId id with
    | none => exact .inr ⟨by simp [found], _, by simp only [found]; rfl⟩
    | some stored =>
      by_cases current : stored.version = given.version
      · exact .inl ⟨id, stored, rfl, found, current, by simp only [found, if_pos current]⟩
      · exact .inr ⟨by simp [found, current], _, by simp only [found, if_neg current]; rfl⟩

end BatchRun.StepStore
