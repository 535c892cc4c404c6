import BatchRun.Proofs.SortedMap
import BatchRun.Store.Executions

/-! # The store of executions keeps the latest execution of every instance

Each operation of the store by what it makes of the lookups. Every record stands under its own
number, whatever is written. A store is well-formed if besides no instance has two records. Saving
keeps that in any case, and writing keeps it as long as a copy belongs to the instance of the record
it is written over.
-/

namespace BatchRun

/-- A fold that always takes one of two values ends with one of all. -/
theorem foldl_mem_of_selects {α : Type} {select : α → α → α}
    (selects : ∀ first second, select first second = first ∨ select first second = second)
    (first : α) (rest : List α) : rest.foldl select first ∈ first :: rest := by
  induction rest generalizing first with
  | nil => simp
  | cons second rest ih =>
    rcases List.mem_cons.1 (ih (select first second)) with last | inRest
    · rw [List.foldl_cons, last]
      rcases selects first second with equal | equal <;> simp [equal]
    · exact List.mem_cons_of_mem _ (List.mem_cons_of_mem _ inRest)

namespace JobExecution

/-- A copy that belongs to the same record, whatever has been done to it. -/
def SameRecord (copy record : JobExecution) : Prop :=
  copy.id = record.id ∧ copy.jobInstance = record.jobInstance

theorem SameRecord.refl (copy : JobExecution) : copy.SameRecord copy := ⟨rfl, rfl⟩

theorem SameRecord.trans {first second third : JobExecution} (left : first.SameRecord second)
    (right : second.SameRecord third) : first.SameRecord third :=
  ⟨left.1.trans right.1, left.2.trans right.2⟩

/-- A copy after it has been refreshed from the stored record. -/
def refreshedFrom (copy stored : JobExecution) : JobExecution :=
  { copy with
    status := if stored.version = copy.version then copy.status
      else copy.status.upgradeTo stored.status
    version := stored.version }

/-- A copy that is still running stays so when it is refreshed from a running record. -/
theorem isRunning_refreshedFrom {copy stored : JobExecution}
    (running : copy.isRunning = true) (recorded : stored.isRunning = true) :
    (copy.refreshedFrom stored).isRunning = true := by
  change (if stored.version = copy.version then copy.status
    else copy.status.upgradeTo stored.status).isRunning = true
  unfold isRunning at running recorded
  split
  · exact running
  · unfold BatchStatus.upgradeTo
    split
    · exact recorded
    · exact running

end JobExecution

namespace ExecutionStore

variable {store : ExecutionStore} {id : JobExecutionId} {copy stored execution : JobExecution}
  {known : JobInstanceId}

/-- The record that a copy refers to, if it is stored. -/
def recordOf? (store : ExecutionStore) (copy : JobExecution) : Option JobExecution :=
  copy.id.bind store.get?

/-- A copy refers to the record under its number. -/
theorem recordOf?_eq_some_iff :
    store.recordOf? copy = some stored ↔ ∃ id, copy.id = some id ∧ store.get? id = some stored := by
  simp [recordOf?, Option.bind_eq_some_iff]

private theorem stored_of_record (numbered : copy.id = some id)
    (found : store.get? id = some stored) :
    store.stored copy = .ok (id, stored) := by
  simp [ExecutionStore.stored, numbered, found]

private theorem stored_of_no_record (missing : store.recordOf? copy = none) :
    ∃ error, store.stored copy = .error error := by
  unfold ExecutionStore.stored
  cases numbered : copy.id with
  | none => exact ⟨_, rfl⟩
  | some id =>
    have absent : store.get? id = none := by simpa [recordOf?, numbered] using missing
    exact ⟨_, by simp only [absent]; rfl⟩

/-! ## Refreshing and writing -/

theorem synchronize_of_record (numbered : copy.id = some id) (found : store.get? id = some stored) :
    store.synchronize copy = .ok (copy.refreshedFrom stored) := by
  unfold synchronize JobExecution.refreshedFrom
  rw [stored_of_record numbered found]
  by_cases same : stored.version = copy.version
  · simp [same, bind, Except.bind, pure, Except.pure]
  · simp [same, bind, Except.bind, pure, Except.pure, JobExecution.upgradeStatus]

theorem synchronize_of_no_record (missing : store.recordOf? copy = none) :
    ∃ error, store.synchronize copy = .error error := by
  obtain ⟨error, refused⟩ := stored_of_no_record missing
  exact ⟨error, by unfold synchronize; rw [refused]; rfl⟩

theorem update_of_record (numbered : copy.id = some id) (found : store.get? id = some stored)
    (current : stored.version = copy.version) :
    store.update copy = .ok ({ copy with version := copy.version + 1 },
      { store with
        executions := store.executions.insert id { copy with version := copy.version + 1 } }) := by
  unfold update
  rw [stored_of_record numbered found]
  simp [current, bind, Except.bind, pure, Except.pure]

/-- A stale copy is refused. -/
theorem update_of_stale (numbered : copy.id = some id) (found : store.get? id = some stored)
    (stale : stored.version ≠ copy.version) :
    store.update copy =
      .error (.optimisticLock .jobExecution id.value copy.version stored.version) := by
  unfold update
  rw [stored_of_record numbered found]
  simp [stale, bind, Except.bind, throw, throwThe, MonadExceptOf.throw]

theorem update_of_no_record (missing : store.recordOf? copy = none) :
    ∃ error, store.update copy = .error error := by
  obtain ⟨error, refused⟩ := stored_of_no_record missing
  exact ⟨error, by unfold update; rw [refused]; rfl⟩

/-! ## Saving -/

/-- The record of a new execution. -/
def savedAs (store : ExecutionStore) (execution : JobExecution) : JobExecution :=
  { execution with id := some ⟨store.lastId + 1⟩, version := 1 }

/-- The store after a new execution has been saved. -/
def afterSave (store : ExecutionStore) (execution : JobExecution) : ExecutionStore where
  executions := (store.executions.filter fun _ other =>
      other.jobInstance.id != execution.jobInstance.id).insert ⟨store.lastId + 1⟩
    (store.savedAs execution)
  lastId := store.lastId + 1

/-- A new execution is saved under the next number. -/
theorem save_of_new (new : execution.id = none) :
    store.save execution = .ok (store.savedAs execution, store.afterSave execution) := by
  simp [save, new, savedAs, afterSave]

/-- The new record takes the place of those of its instance. -/
theorem get?_afterSave :
    (store.afterSave execution).get? id = some stored ↔
      (id = ⟨store.lastId + 1⟩ ∧ stored = store.savedAs execution) ∨
      (id ≠ ⟨store.lastId + 1⟩ ∧ store.get? id = some stored ∧
        stored.jobInstance.id ≠ execution.jobInstance.id) := by
  unfold get? afterSave
  rw [SortedMap.get?_insert]
  by_cases same : id = ⟨store.lastId + 1⟩
  · simp [same, eq_comm]
  · simp [same, SortedMap.get?_filter_eq_some_iff]

/-! ## The records of an instance -/

/-- The records of an instance are those with its number. -/
theorem mem_ofInstance :
    stored ∈ store.ofInstance known ↔
      (∃ id, store.get? id = some stored) ∧ stored.jobInstance.id = known := by
  simp [ofInstance, SortedMap.mem_values, get?]

/-- The records that run are listed for their job. -/
theorem mem_running {jobName : String} :
    stored ∈ store.running jobName ↔
      (∃ id, store.get? id = some stored) ∧ stored.jobName = jobName ∧ stored.isRunning = true := by
  simp [running, SortedMap.mem_values, get?]

theorem later_selects (first second : JobExecution) :
    later first second = first ∨ later first second = second := by
  unfold later
  split
  · exact .inr rfl
  · split <;> simp
  · exact .inl rfl

/-- The last record of an instance is one of its records. -/
theorem last?_cases (store : ExecutionStore) (known : JobInstanceId) :
    (store.ofInstance known = [] ∧ store.last? known = none) ∨
    ∃ stored ∈ store.ofInstance known, store.last? known = some stored := by
  unfold last?
  cases store.ofInstance known with
  | nil => exact .inl ⟨rfl, rfl⟩
  | cons first rest => exact .inr ⟨_, foldl_mem_of_selects later_selects first rest, rfl⟩

/-! ## Numbers -/

/-- Every record stands under its own number. -/
structure Numbered (store : ExecutionStore) : Prop where
  numbered : ∀ {id stored}, store.get? id = some stored → stored.id = some id

namespace Numbered

theorem empty : ExecutionStore.empty.Numbered := by
  constructor
  intro id stored found
  simp [get?, ExecutionStore.empty] at found

theorem afterSave (wellNumbered : store.Numbered) : (store.afterSave execution).Numbered := by
  constructor
  intro id stored found
  rcases get?_afterSave.1 found with ⟨equal, saved⟩ | ⟨-, kept, -⟩
  · rw [saved, equal]
    rfl
  · exact wellNumbered.numbered kept

/-- A write of a record with this number. -/
theorem insert (wellNumbered : store.Numbered) (same : execution.id = some id) :
    ExecutionStore.Numbered { store with executions := store.executions.insert id execution } := by
  constructor
  intro other record lookup
  simp only [get?, SortedMap.get?_insert] at lookup
  split at lookup
  · rename_i equal
    rw [← Option.some.inj lookup, equal]
    exact same
  · exact wellNumbered.numbered lookup

theorem id_ne_none_of_mem (wellNumbered : store.Numbered) :
    ∀ record ∈ store.ofInstance known, record.id ≠ none := by
  intro record member
  obtain ⟨⟨id, found⟩, -⟩ := mem_ofInstance.1 member
  simp [wellNumbered.numbered found]

end Numbered

/-- Every record stands under its own number, and no instance has two records. -/
structure WellFormed (store : ExecutionStore) : Prop extends store.Numbered where
  single : ∀ {first second one other}, store.get? first = some one →
    store.get? second = some other → one.jobInstance.id = other.jobInstance.id → first = second

namespace WellFormed

theorem empty : ExecutionStore.empty.WellFormed where
  toNumbered := .empty
  single found := by simp [get?, ExecutionStore.empty] at found

theorem afterSave (wellFormed : store.WellFormed) : (store.afterSave execution).WellFormed where
  toNumbered := wellFormed.toNumbered.afterSave
  single := by
    intro first second one other here there same
    rcases get?_afterSave.1 here with ⟨firstNew, isNew⟩ | ⟨-, kept, apart⟩ <;>
      rcases get?_afterSave.1 there with ⟨secondNew, otherNew⟩ | ⟨-, otherKept, otherApart⟩
    · rw [firstNew, secondNew]
    · rw [isNew] at same
      exact absurd same.symm otherApart
    · rw [otherNew] at same
      exact absurd same apart
    · exact wellFormed.single kept otherKept same

/-- A write over a record of the same instance. -/
theorem insert (wellFormed : store.WellFormed) (found : store.get? id = some stored)
    (numbered : execution.id = some id)
    (belongs : execution.jobInstance.id = stored.jobInstance.id) :
    ExecutionStore.WellFormed
      { store with executions := store.executions.insert id execution } where
  toNumbered := wellFormed.toNumbered.insert numbered
  single := by
    have source : ∀ {other record},
        (store.executions.insert id execution).get? other = some record →
        ∃ before, store.get? other = some before ∧
          before.jobInstance.id = record.jobInstance.id := by
      intro other record lookup
      rw [SortedMap.get?_insert] at lookup
      split at lookup
      · rename_i equal
        rw [← Option.some.inj lookup, equal]
        exact ⟨stored, found, belongs.symm⟩
      · exact ⟨record, lookup, rfl⟩
    intro first second one other here there same
    obtain ⟨before, foundFirst, sameFirst⟩ := source here
    obtain ⟨after, foundSecond, sameSecond⟩ := source there
    exact wellFormed.single foundFirst foundSecond (sameFirst.trans (same.trans sameSecond.symm))

/-- An instance has at most one record. -/
theorem ofInstance_cases (wellFormed : store.WellFormed) (known : JobInstanceId) :
    store.ofInstance known = [] ∨ ∃ stored, store.ofInstance known = [stored] := by
  have same : ∀ one ∈ store.ofInstance known, ∀ other ∈ store.ofInstance known,
      one.id = other.id := by
    intro one member other otherMember
    obtain ⟨⟨first, here⟩, lies⟩ := mem_ofInstance.1 member
    obtain ⟨⟨second, there⟩, otherLies⟩ := mem_ofInstance.1 otherMember
    obtain rfl := wellFormed.single here there (lies.trans otherLies.symm)
    exact (wellFormed.numbered here).trans (wellFormed.numbered there).symm
  have apart : (store.ofInstance known).Pairwise fun one other => one.id ≠ other.id := by
    refine List.pairwise_reverse.2 ((SortedMap.pairwise_values ?_).filter _)
    intro first second one other here there before same
    rw [wellFormed.numbered here, wellFormed.numbered there] at same
    rw [Option.some.inj same] at before
    simp [Std.ReflOrd.compare_self] at before
  match listed : store.ofInstance known with
  | [] => exact .inl rfl
  | [stored] => exact .inr ⟨stored, rfl⟩
  | first :: second :: rest =>
    rw [listed] at same apart
    exact absurd (same first (by simp) second (by simp))
      ((List.pairwise_cons.1 apart).1 second (by simp))

/-- A stored record is the only one of its instance. -/
theorem ofInstance_eq_singleton (wellFormed : store.WellFormed)
    (found : store.get? id = some stored) (belongs : stored.jobInstance.id = known) :
    store.ofInstance known = [stored] := by
  have member := mem_ofInstance.2 ⟨⟨id, found⟩, belongs⟩
  rcases wellFormed.ofInstance_cases known with vacant | ⟨only, single⟩
  · rw [vacant] at member
    exact absurd member List.not_mem_nil
  · rw [single] at member ⊢
    rw [List.mem_singleton.1 member]

/-- The last record of an instance with one record is this one. -/
theorem last?_eq_some (wellFormed : store.WellFormed) (found : store.get? id = some stored)
    (belongs : stored.jobInstance.id = known) : store.last? known = some stored := by
  have single := wellFormed.ofInstance_eq_singleton found belongs
  rcases store.last?_cases known with ⟨vacant, -⟩ | ⟨last, member, isLast⟩
  · rw [single] at vacant
    contradiction
  · rw [single] at member
    rw [isLast, List.mem_singleton.1 member]

end WellFormed

end ExecutionStore

end BatchRun
