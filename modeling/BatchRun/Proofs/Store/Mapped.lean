import BatchRun.Proofs.Store.Latest

/-! # Stores with other values in their records

A store can be compared with another one that holds, in the place of each record, what is told of
it. As long as that leaves everything by which records are found and ordered, the stores find and
list corresponding records. A single write is such a change as well: it tells the new record at one
place and leaves all other ones as they are.
-/

namespace BatchRun

namespace ExecutionStore

variable {store : ExecutionStore} {tell : JobExecution → JobExecution} {id : JobExecutionId}
  {known : JobInstanceId} {stored : JobExecution}

/-- The store with what is told of each record in its place. -/
def mapped (store : ExecutionStore) (tell : JobExecution → JobExecution) : ExecutionStore :=
  { store with executions := store.executions.mapValues tell }

/-- A changed record is found where the record was. -/
@[simp] theorem get?_mapped : (store.mapped tell).get? id = (store.get? id).map tell :=
  SortedMap.get?_mapValues ..

/-- Records of the same instances are told of, so corresponding records are listed. -/
theorem ofInstance_mapped (sameInstance : ∀ {id stored}, store.get? id = some stored →
    (tell stored).jobInstance.id = stored.jobInstance.id) :
    (store.mapped tell).ofInstance known = (store.ofInstance known).map tell := by
  unfold ofInstance mapped
  rw [SortedMap.values_mapValues, List.filter_map, List.map_reverse]
  refine congrArg (List.reverse ∘ List.map tell) (List.filter_congr fun stored member => ?_)
  obtain ⟨id, found⟩ := SortedMap.mem_values.1 member
  simp [sameInstance found]

/-- The records that run are the same ones. -/
theorem running_mapped (jobName : String)
    (sameName : ∀ {id stored}, store.get? id = some stored →
      (tell stored).jobName = stored.jobName)
    (sameRunning : ∀ {id stored}, store.get? id = some stored →
      (tell stored).isRunning = stored.isRunning) :
    (store.mapped tell).running jobName = (store.running jobName).map tell := by
  unfold ExecutionStore.running mapped
  rw [SortedMap.values_mapValues, List.filter_map, List.map_reverse]
  refine congrArg (List.reverse ∘ List.map tell) (List.filter_congr fun stored member => ?_)
  obtain ⟨id, found⟩ := SortedMap.mem_values.1 member
  simp [sameName found, sameRunning found]

/-- What is told of the records leaves everything by which they are found and ordered. -/
structure Listed (store : ExecutionStore) (tell : JobExecution → JobExecution) : Prop where
  id : ∀ {id stored}, store.get? id = some stored → (tell stored).id = stored.id
  jobInstance : ∀ {id stored}, store.get? id = some stored →
    (tell stored).jobInstance = stored.jobInstance
  createTime : ∀ {id stored}, store.get? id = some stored →
    (tell stored).createTime = stored.createTime
  running : ∀ {id stored}, store.get? id = some stored →
    (tell stored).isRunning = stored.isRunning

namespace Listed

variable (listed : store.Listed tell)

include listed

theorem ofInstance_mapped :
    (store.mapped tell).ofInstance known = (store.ofInstance known).map tell :=
  ExecutionStore.ofInstance_mapped fun found => congrArg JobInstance.id (listed.jobInstance found)

theorem running_mapped (jobName : String) :
    (store.mapped tell).running jobName = (store.running jobName).map tell :=
  ExecutionStore.running_mapped jobName
    (fun found => congrArg JobInstance.jobName (listed.jobInstance found)) listed.running

private theorem later_tell {first second : JobExecution} {one other : JobExecutionId}
    (found : store.get? one = some first) (there : store.get? other = some second) :
    later (tell first) (tell second) = tell (later first second) := by
  unfold later
  rw [listed.createTime found, listed.createTime there, listed.id found, listed.id there]
  cases compare first.createTime second.createTime with
  | lt => rfl
  | eq =>
    dsimp only
    split <;> rfl
  | gt => rfl

private theorem foldl_later_tell {first : JobExecution} {rest : List JobExecution}
    (stored : ∀ record ∈ first :: rest, ∃ id, store.get? id = some record) :
    (rest.map tell).foldl later (tell first) = tell (rest.foldl later first) := by
  induction rest generalizing first with
  | nil => rfl
  | cons second rest ih =>
    obtain ⟨one, found⟩ := stored first (List.mem_cons_self ..)
    obtain ⟨other, there⟩ := stored second (by simp)
    rw [List.map_cons, List.foldl_cons, List.foldl_cons, listed.later_tell found there]
    refine ih fun record member => ?_
    rcases List.mem_cons.1 member with rfl | inRest
    · rcases later_selects first second with same | same
      · exact ⟨one, found.trans (congrArg some same.symm)⟩
      · exact ⟨other, there.trans (congrArg some same.symm)⟩
    · exact stored record (by simp [inRest])

theorem last?_mapped : (store.mapped tell).last? known = (store.last? known).map tell := by
  unfold last?
  rw [listed.ofInstance_mapped]
  cases values : store.ofInstance known with
  | nil => rfl
  | cons first rest =>
    refine congrArg some (listed.foldl_later_tell fun record member => ?_)
    rw [← values] at member
    exact (mem_ofInstance.1 member).1

end Listed

/-- Saving an execution tells the same of the store, if it is the same instance that is told of. -/
theorem mapped_afterSave {execution : JobExecution}
    (sameInstance : ∀ other, (tell other).jobInstance.id = other.jobInstance.id)
    (saved : tell (store.savedAs execution) = store.savedAs (tell execution)) :
    (store.afterSave execution).mapped tell = (store.mapped tell).afterSave (tell execution) := by
  unfold afterSave mapped
  rw [SortedMap.mapValues_insert, saved, SortedMap.mapValues_filter]
  · rfl
  · intro id other
    rw [sameInstance, sameInstance]

/-- To write a record is to tell it in the place of the stored one. -/
theorem insert_eq_mapped (wellNumbered : store.Numbered) (found : store.get? id = some stored)
    (record : JobExecution) :
    { store with executions := store.executions.insert id record } =
      store.mapped fun other => if other.id = some id then record else other := by
  unfold mapped
  refine congrArg (ExecutionStore.mk · store.lastId) (SortedMap.ext_get? fun key => ?_)
  rw [SortedMap.get?_insert, SortedMap.get?_mapValues]
  split
  · rename_i same
    have lookup : store.executions.get? key = some stored := same ▸ found
    rw [lookup, Option.map_some, if_pos (wellNumbered.numbered found)]
  · rename_i differs
    cases lookup : store.executions.get? key with
    | none => rfl
    | some other =>
      have numbered := @wellNumbered.numbered key other lookup
      rw [Option.map_some, if_neg]
      rw [numbered]
      exact fun same => differs (Option.some.inj same)

end ExecutionStore

namespace StepStore

open StepExecution (startOrder)

variable {store : StepStore} {tell : StepExecution → StepExecution} {execution : JobExecutionId}
  {id : StepExecutionId} {known : JobInstanceId} {stepName : String}

/-- The store with what is told of each step in its place. -/
def mapped (store : StepStore) (tell : StepExecution → StepExecution) : StepStore :=
  { store with groups := store.groups.mapValues fun group => group.mapValues tell }

@[simp] theorem groups_mapped :
    (store.mapped tell).groups.get? execution =
      (store.groups.get? execution).map fun group => group.mapValues tell :=
  SortedMap.get?_mapValues ..

@[simp] theorem get?_mapped :
    (store.mapped tell).get? execution id = (store.get? execution id).map tell := by
  unfold get?
  rw [groups_mapped]
  cases store.groups.get? execution with
  | none => rfl
  | some group => exact SortedMap.get?_mapValues ..

/-- A step can be written before or after the change. -/
theorem mapped_withStep {step : StepExecution}
    (parent : (tell step).jobExecutionId = step.jobExecutionId) :
    (store.withStep id step).mapped tell = (store.mapped tell).withStep id (tell step) := by
  have group : ((store.mapped tell).groups.get? step.jobExecutionId).getD .empty =
      SortedMap.mapValues tell ((store.groups.get? step.jobExecutionId).getD .empty) := by
    rw [groups_mapped]
    cases store.groups.get? step.jobExecutionId <;> rfl
  unfold withStep
  rw [parent]
  simp only [mapped, SortedMap.mapValues_insert, ← group]

/-- The same groups are left, if it is the same instance that is told of. -/
theorem retained_mapped {step : StepExecution}
    (parent : (tell step).jobExecutionId = step.jobExecutionId)
    (sameInstance : ∀ other, (tell other).jobInstanceId = other.jobInstanceId) :
    (store.mapped tell).retained (tell step) =
      (store.retained step).mapValues fun group => group.mapValues tell := by
  have present : (store.mapped tell).groups.contains (tell step).jobExecutionId =
      store.groups.contains step.jobExecutionId := by
    rw [parent]
    exact SortedMap.contains_mapValues ..
  unfold retained
  rw [present]
  split
  · rfl
  · refine (SortedMap.mapValues_filter _ store.groups fun _ group => ?_).symm
    unfold isGroupOf
    rw [SortedMap.values_mapValues, List.head?_map, Option.any_map, sameInstance]
    simp only [sameInstance]

theorem mapped_afterSave {step : StepExecution}
    (parent : ∀ other, (tell other).jobExecutionId = other.jobExecutionId)
    (sameInstance : ∀ other, (tell other).jobInstanceId = other.jobInstanceId)
    (saved : tell (store.savedAs step) = store.savedAs (tell step)) :
    (store.afterSave step).mapped tell = (store.mapped tell).afterSave (tell step) := by
  have left : mapped ⟨store.retained step, store.lastId + 1⟩ tell =
      ⟨(store.mapped tell).retained (tell step), store.lastId + 1⟩ := by
    rw [retained_mapped (parent step) sameInstance]
    rfl
  unfold afterSave
  rw [mapped_withStep (parent _), saved, left]
  rfl

/-- A store that finds at each place what is told of the step there is that store. -/
theorem eq_mapped {after : StepStore} (lastId : after.lastId = store.lastId)
    (groups : ∀ execution, (after.groups.get? execution).isSome =
      (store.groups.get? execution).isSome)
    (steps : ∀ execution id, after.get? execution id = (store.get? execution id).map tell) :
    after = store.mapped tell := by
  have same : after.groups = store.groups.mapValues fun group => group.mapValues tell := by
    refine SortedMap.ext_get? fun execution => ?_
    rw [SortedMap.get?_mapValues]
    have present := groups execution
    have inside := steps execution
    unfold get? at inside
    cases lookup : after.groups.get? execution with
    | none =>
      rw [lookup, Option.isSome_none, eq_comm, Option.isSome_eq_false_iff] at present
      rw [Option.isNone_iff_eq_none.1 present]
      rfl
    | some group =>
      rw [lookup, Option.isSome_some, eq_comm] at present
      obtain ⟨former, found⟩ := Option.isSome_iff_exists.1 present
      rw [found, Option.map_some]
      refine congrArg some (SortedMap.ext_get? fun id => ?_)
      have equal := inside id
      rw [lookup, found] at equal
      rw [SortedMap.get?_mapValues]
      exact equal
  cases after
  cases store
  simp only [mapped] at *
  rw [same, lastId]

/-- What is told of the steps leaves everything by which they are found and ordered. -/
structure Listed (store : StepStore) (tell : StepExecution → StepExecution) : Prop where
  id : ∀ {execution id step}, store.get? execution id = some step → (tell step).id = step.id
  jobInstanceId : ∀ {execution id step}, store.get? execution id = some step →
    (tell step).jobInstanceId = step.jobInstanceId
  stepName : ∀ {execution id step}, store.get? execution id = some step →
    (tell step).stepName = step.stepName
  startTime : ∀ {execution id step}, store.get? execution id = some step →
    (tell step).startTime = step.startTime

namespace Listed

variable (listed : store.Listed tell)

include listed

private theorem ofName_mapped :
    (store.mapped tell).ofName known stepName = (store.ofName known stepName).map tell := by
  have steps : (store.mapped tell).groups.values.flatMap SortedMap.values =
      (store.groups.values.flatMap SortedMap.values).map tell := by
    simp only [mapped, SortedMap.values_mapValues, List.flatMap_map, List.map_flatMap]
  unfold ofName
  rw [steps, List.filter_map]
  refine congrArg (List.map tell) (List.filter_congr fun step member => ?_)
  obtain ⟨group, inside, here⟩ := List.mem_flatMap.1 member
  obtain ⟨execution, found⟩ := SortedMap.mem_values.1 inside
  obtain ⟨id, there⟩ := SortedMap.mem_values.1 here
  have stored : store.get? execution id = some step :=
    get?_eq_some_iff.2 ⟨group, found, there⟩
  simp [listed.jobInstanceId stored, listed.stepName stored]

theorem last?_mapped :
    (store.mapped tell).last? known stepName = (store.last? known stepName).map tell := by
  let Related (one other : StepExecution) : Prop :=
    (∃ execution id, store.get? execution id = some one) ∧ other = tell one
  have sameOrder {one other next another : StepExecution} (first : Related one other)
      (second : Related next another) : startOrder one next = startOrder other another := by
    obtain ⟨⟨_, _, found⟩, rfl⟩ := first
    obtain ⟨⟨_, _, there⟩, rfl⟩ := second
    rw [startOrder_eq, startOrder_eq, listed.id found, listed.id there, listed.startTime found,
      listed.startTime there]
  have names := @ofName_mapped store tell known stepName listed
  rcases store.last?_cases known stepName with ⟨vacant, last⟩ | ⟨first, rest, values, last⟩
  · rw [vacant] at names
    rw [last, last?_eq_none_iff.2 names]
    rfl
  · rw [values, List.map_cons] at names
    have stored : ∀ step ∈ first :: rest, ∃ execution id, store.get? execution id = some step := by
      rw [← values]
      exact fun step member => (mem_ofName.1 member).1
    rcases (store.mapped tell).last?_cases known stepName with
      ⟨vacant, -⟩ | ⟨head, tail, values', last'⟩
    · rw [vacant] at names
      contradiction
    · obtain ⟨rfl, rfl⟩ := List.cons.inj (values'.symm.trans names)
      have tails : List.Forall₂ Related rest (rest.map tell) := by
        refine List.forall₂_map_right_iff.2 (List.forall₂_same.2 fun step member => ?_)
        exact ⟨stored step (List.mem_cons_of_mem _ member), rfl⟩
      have greatest := related_foldl_later sameOrder
        ⟨stored first (List.mem_cons_self ..), rfl⟩ tails
      rw [last, last', greatest.2]
      rfl

end Listed

end StepStore

end BatchRun
