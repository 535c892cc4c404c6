import BatchRun.Proofs.Log
import BatchRun.Proofs.Store.Executions
import Mathlib.Algebra.Group.Nat.Defs

/-! # The chain of versions of every execution

Callers save, write, refresh and read in any order, from whatever copies they have in hand. The log
of their operations shows that numbers only grow and that the versions written under one number are
1, 2, 3 and so on, each written once. So of several writes from the same version at most one
succeeds, and whoever comes later has to refresh the copy first.
-/

namespace BatchRun.ExecutionStore

/-- An operation with the copy that the caller hands in. -/
inductive Operation
  | save (copy : JobExecution)
  | update (copy : JobExecution)
  | synchronize (copy : JobExecution)
  /-- A look at the store, which gives copies away. -/
  | read (look : ExecutionStore → List JobExecution)

/-- The copies that the caller hands in. -/
def Operation.copies : Operation → List JobExecution
  | save copy | update copy | synchronize copy => [copy]
  | read _ => []

/-- What the caller has in hand afterwards. -/
structure Served where
  result : Except StoreError Unit
  copies : List JobExecution

/-- The caller's copy and the store after an operation. What is refused changes neither. -/
def Served.of (copy : JobExecution) (store : ExecutionStore) :
    Except StoreError (JobExecution × ExecutionStore) → Served × ExecutionStore
  | .ok (left, after) => (⟨.ok (), [left]⟩, after)
  | .error error => (⟨.error error, [copy]⟩, store)

/-- The store of executions at work. -/
def serving : Service ExecutionStore Operation Served
  | store, .save copy => Served.of copy store (store.save copy)
  | store, .update copy => Served.of copy store (store.update copy)
  | store, .synchronize copy => Served.of copy store ((store.synchronize copy).map (·, store))
  | store, .read look => (⟨.ok (), look store⟩, store)

/-- An operation that has been carried out. -/
abbrev Entry := LogEntry ExecutionStore Operation Served

namespace Entry

/-- The number that a new execution has got. -/
def given? (entry : Entry) : Option JobExecutionId :=
  match entry.operation, entry.answer.result, entry.answer.copies with
  | .save _, .ok (), [saved] => saved.id
  | _, _, _ => none

/-- The number and version of what has been written. -/
def written? (entry : Entry) : Option (JobExecutionId × UInt64) :=
  match entry.operation, entry.answer.result, entry.answer.copies with
  | .save _, .ok (), [copy] | .update _, .ok (), [copy] => copy.id.map fun id => (id, copy.version)
  | _, _, _ => none

end Entry

/-- The version that an entry has written under a number. -/
def Entry.version? (id : JobExecutionId) (entry : Entry) : Option Nat :=
  entry.written?.bind fun written => if written.1 = id then some written.2.toNat else none

/-- The versions that have been written under a number, the first one first. -/
def versions (id : JobExecutionId) (entries : List Entry) : List Nat :=
  entries.filterMap (Entry.version? id)

variable {store : ExecutionStore} {operation : Operation} {operations : List Operation}
  {entries : List Entry} {entry : Entry} {copy stored : JobExecution} {id : JobExecutionId}

/-! ## One operation -/

private theorem serving_save_of_new (new : copy.id = none) :
    serving store (.save copy) = (⟨.ok (), [store.savedAs copy]⟩, store.afterSave copy) := by
  simp [serving, Served.of, save_of_new new]

private theorem serving_save_of_numbered (numbered : copy.id = some id) :
    serving store (.save copy) =
      (⟨.error (.alreadySaved .jobExecution id.value), [copy]⟩, store) := by
  simp [serving, Served.of, save, numbered]

/-- A copy with the next version. -/
def nextVersion (copy : JobExecution) : JobExecution := { copy with version := copy.version + 1 }

/-- The store with the next version of a copy in the place of the record. -/
def afterUpdate (store : ExecutionStore) (id : JobExecutionId) (copy : JobExecution) :
    ExecutionStore :=
  { store with executions := store.executions.insert id (nextVersion copy) }

private theorem get?_afterUpdate {other : JobExecutionId} :
    (store.afterUpdate id copy).get? other =
      if other = id then some (nextVersion copy) else store.get? other :=
  SortedMap.get?_insert id other (nextVersion copy)

/-- The record that a copy refers to has the version of the copy. -/
def IsCurrent (store : ExecutionStore) (copy : JobExecution) : Prop :=
  ∃ id stored, copy.id = some id ∧ store.get? id = some stored ∧ stored.version = copy.version

/-- A copy with the current version is written, and every other one is refused. -/
theorem serving_update_cases (store : ExecutionStore) (copy : JobExecution) :
    (∃ id stored, copy.id = some id ∧ store.get? id = some stored ∧
      stored.version = copy.version ∧ serving store (.update copy) =
        (⟨.ok (), [nextVersion copy]⟩, store.afterUpdate id copy)) ∨
    (¬ store.IsCurrent copy ∧
      ∃ error, serving store (.update copy) = (⟨.error error, [copy]⟩, store)) := by
  cases record : store.recordOf? copy with
  | none =>
    obtain ⟨error, refused⟩ := update_of_no_record record
    refine .inr ⟨?_, error, by simp [serving, Served.of, refused]⟩
    rintro ⟨id, stored, numbered, found, -⟩
    rw [recordOf?_eq_some_iff.2 ⟨id, numbered, found⟩] at record
    contradiction
  | some stored =>
    obtain ⟨id, numbered, found⟩ := recordOf?_eq_some_iff.1 record
    by_cases current : stored.version = copy.version
    · refine .inl ⟨id, stored, numbered, found, current, ?_⟩
      simp [serving, Served.of, update_of_record numbered found current, nextVersion, afterUpdate]
    · refine .inr ⟨?_, _, by simp [serving, Served.of, update_of_stale numbered found current]; rfl⟩
      rintro ⟨other, record, otherNumbered, otherFound, same⟩
      obtain rfl := Option.some.inj (numbered.symm.trans otherNumbered)
      obtain rfl := Option.some.inj (found.symm.trans otherFound)
      exact current same

/-- An operation saves a new execution, writes the next version of a record, or changes nothing. -/
theorem serving_cases (store : ExecutionStore) (operation : Operation) :
    (∃ copy, operation = .save copy ∧ copy.id = none ∧
      serving store operation = (⟨.ok (), [store.savedAs copy]⟩, store.afterSave copy)) ∨
    (∃ copy id stored, operation = .update copy ∧ copy.id = some id ∧
      store.get? id = some stored ∧ stored.version = copy.version ∧
      serving store operation = (⟨.ok (), [nextVersion copy]⟩, store.afterUpdate id copy)) ∨
    ((serving store operation).2 = store ∧
      Entry.given? (serving.entryOf store operation) = none ∧
      Entry.written? (serving.entryOf store operation) = none) := by
  cases operation with
  | save copy =>
    cases numbered : copy.id with
    | none => exact .inl ⟨copy, rfl, numbered, serving_save_of_new numbered⟩
    | some id =>
      refine .inr (.inr ?_)
      simp [Service.entryOf, serving_save_of_numbered numbered, Entry.given?, Entry.written?]
  | update copy =>
    rcases store.serving_update_cases copy with
      ⟨id, stored, numbered, found, current, served⟩ | ⟨-, error, refused⟩
    · exact .inr (.inl ⟨copy, id, stored, rfl, numbered, found, current, served⟩)
    · refine .inr (.inr ?_)
      simp [Service.entryOf, refused, Entry.given?, Entry.written?]
  | synchronize copy =>
    refine .inr (.inr ⟨?_, rfl, rfl⟩)
    simp only [serving]
    cases store.synchronize copy <;> rfl
  | read look => exact .inr (.inr ⟨rfl, rfl, rfl⟩)

/-- An operation that fails leaves the store and the caller's copy as they were. -/
theorem kept_of_failed (failed : (serving store operation).1.result ≠ .ok ()) :
    (serving store operation).2 = store ∧
      (serving store operation).1.copies = operation.copies := by
  have kept (copy : JobExecution) (outcome : Except StoreError (JobExecution × ExecutionStore))
      (refused : (Served.of copy store outcome).1.result ≠ .ok ()) :
      (Served.of copy store outcome).2 = store ∧
        (Served.of copy store outcome).1.copies = [copy] := by
    cases outcome with
    | ok done => exact absurd rfl refused
    | error error => exact ⟨rfl, rfl⟩
  cases operation with
  | save copy => exact kept copy _ failed
  | update copy => exact kept copy _ failed
  | synchronize copy => exact kept copy _ failed
  | read look => exact absurd rfl failed

/-- A copy that has been refreshed can be written at once. -/
theorem update_of_refreshed (refreshed : (serving store (.synchronize copy)).1.result = .ok ()) :
    ∃ fresh, (serving store (.synchronize copy)).1.copies = [fresh] ∧
      (serving (serving store (.synchronize copy)).2 (.update fresh)).1.result = .ok () := by
  cases record : store.recordOf? copy with
  | none =>
    obtain ⟨error, refused⟩ := synchronize_of_no_record record
    simp [serving, refused, Served.of, Except.map] at refreshed
  | some stored =>
    obtain ⟨id, numbered, found⟩ := recordOf?_eq_some_iff.1 record
    have served : serving store (.synchronize copy) =
        (⟨.ok (), [copy.refreshedFrom stored]⟩, store) := by
      simp [serving, synchronize_of_record numbered found, Served.of, Except.map]
    refine ⟨copy.refreshedFrom stored, by rw [served], ?_⟩
    rw [served]
    rcases store.serving_update_cases (copy.refreshedFrom stored) with
      ⟨id, record, -, -, -, served⟩ | ⟨outdated, -⟩
    · rw [served]
    · exact absurd ⟨id, stored, numbered, found, rfl⟩ outdated

/-! ## Many operations -/

/-- An entry for an operation stands at the end of the log of the operations before it. -/
theorem exists_earlier (member : entry ∈ serving.log store operations)
    (logged : entry.operation = operation) :
    ∃ earlier, earlier.length < operations.length ∧
      entry = serving.entryOf (serving.afterAll store earlier) operation := by
  obtain ⟨earlier, same, others, rfl, rfl⟩ := Service.exists_of_mem_log member
  obtain rfl : same = operation := logged
  exact ⟨earlier, by simp, rfl⟩

private theorem versions_append (id : JobExecutionId) (entries : List Entry) (entry : Entry) :
    versions id (entries ++ [entry]) = versions id entries ++ (entry.version? id).toList := by
  cases version : entry.version? id <;> simp [versions, version]

private theorem length_versions_le (id : JobExecutionId) (entries : List Entry) :
    (versions id entries).length ≤ entries.length := List.length_filterMap_le ..

/-! ## The chain -/

/-- What holds of a store and of the operations that have led to it. -/
structure Chain (entries : List Entry) (store : ExecutionStore) : Prop where
  increasing : (entries.filterMap Entry.given?).Pairwise
    fun first second => first.value < second.value
  given : ∀ id ∈ entries.filterMap Entry.given?, id.value ≤ store.lastId
  counted : store.lastId.toNat ≤ entries.length
  consecutive (id : JobExecutionId) :
    versions id entries = List.range' 1 (versions id entries).length
  current {id : JobExecutionId} {stored : JobExecution} (found : store.get? id = some stored) :
    stored.version.toNat = (versions id entries).length
  unused {id : JobExecutionId} (above : store.lastId < id.value) :
    versions id entries = [] ∧ store.get? id = none

namespace Chain

theorem empty : Chain [] .empty where
  increasing := .nil
  given _ member := absurd member List.not_mem_nil
  counted := Nat.le_refl 0
  consecutive _ := rfl
  current found := by simp [get?, ExecutionStore.empty] at found
  unused _ := ⟨rfl, rfl⟩

private theorem consecutive_append (chain : Chain entries store) {version : Nat}
    (next : version = (versions id entries).length + 1)
    (written : entry.version? id = some version) :
    versions id (entries ++ [entry]) =
      List.range' 1 (versions id (entries ++ [entry])).length := by
  rw [versions_append, written, Option.toList_some, List.length_append, List.length_singleton,
    List.range'_1_concat, ← chain.consecutive, next, Nat.add_comm]

private theorem versions_of_none (idle : entry.version? id = none) :
    versions id (entries ++ [entry]) = versions id entries := by
  rw [versions_append, idle, Option.toList_none, List.append_nil]

private theorem filterMap_given?_append (given : entry.given? = none) :
    entries.filterMap Entry.given? = (entries ++ [entry]).filterMap Entry.given? := by
  simp [given]

private theorem save (chain : Chain entries store) (copy : JobExecution)
    (few : entries.length + 1 < 2 ^ 64) :
    Chain (entries ++ [⟨store, .save copy, ⟨.ok (), [store.savedAs copy]⟩, store.afterSave copy⟩])
      (store.afterSave copy) := by
  have counted := chain.counted
  have next : (store.lastId + 1).toNat = store.lastId.toNat + 1 := by
    rw [UInt64.toNat_add]
    exact Nat.mod_eq_of_lt (by change store.lastId.toNat + 1 < 2 ^ 64; omega)
  have below : store.lastId < store.lastId + 1 := by
    rw [UInt64.lt_iff_toNat_lt, next]
    omega
  have fresh : versions ⟨store.lastId + 1⟩ entries = [] ∧ store.get? ⟨store.lastId + 1⟩ = none :=
    chain.unused below
  have version? (id : JobExecutionId) :
      Entry.version? id ⟨store, .save copy, ⟨.ok (), [store.savedAs copy]⟩, store.afterSave copy⟩ =
        if ⟨store.lastId + 1⟩ = id then some 1 else none := rfl
  constructor
  case increasing =>
    rw [List.filterMap_append, List.pairwise_append]
    refine ⟨chain.increasing, List.pairwise_singleton .., fun first member second added => ?_⟩
    obtain rfl : second = ⟨store.lastId + 1⟩ := by simpa [Entry.given?, savedAs] using added
    exact UInt64.lt_of_le_of_lt (chain.given first member) below
  case given =>
    intro id member
    rw [List.filterMap_append] at member
    rcases List.mem_append.1 member with old | added
    · exact UInt64.le_trans (chain.given id old) (UInt64.le_of_lt below)
    · obtain rfl : id = ⟨store.lastId + 1⟩ := by simpa [Entry.given?, savedAs] using added
      exact UInt64.le_refl _
  case counted =>
    change (store.lastId + 1).toNat ≤ _
    rw [next, List.length_append]
    exact Nat.succ_le_succ counted
  case consecutive =>
    intro id
    by_cases same : ⟨store.lastId + 1⟩ = id
    · subst same
      exact chain.consecutive_append (by rw [fresh.1]; rfl) ((version? _).trans (if_pos rfl))
    · rw [versions_of_none ((version? id).trans (if_neg same))]
      exact chain.consecutive id
  case current =>
    intro id stored found
    rcases get?_afterSave.1 found with ⟨rfl, rfl⟩ | ⟨other, kept, -⟩
    · rw [versions_append, fresh.1, version?, if_pos rfl]
      rfl
    · rw [versions_of_none ((version? id).trans (if_neg (Ne.symm other)))]
      exact chain.current kept
  case unused =>
    intro id above
    have other : id ≠ ⟨store.lastId + 1⟩ := by
      rintro rfl
      exact UInt64.lt_irrefl _ above
    have unused := chain.unused (UInt64.lt_trans below above)
    refine ⟨?_, Option.eq_none_iff_forall_ne_some.2 fun stored found => ?_⟩
    · rw [versions_of_none ((version? id).trans (if_neg (Ne.symm other)))]
      exact unused.1
    · rcases get?_afterSave.1 found with ⟨same, -⟩ | ⟨-, kept, -⟩
      · exact other same
      · rw [unused.2] at kept
        contradiction

private theorem toNat_nextVersion (chain : Chain entries store) (few : entries.length + 1 < 2 ^ 64)
    (found : store.get? id = some stored) (same : stored.version = copy.version) :
    (nextVersion copy).version.toNat = copy.version.toNat + 1 := by
  have below := length_versions_le id entries
  rw [← chain.current found, same] at below
  change (copy.version + 1).toNat = _
  rw [UInt64.toNat_add]
  exact Nat.mod_eq_of_lt (by change copy.version.toNat + 1 < 2 ^ 64; omega)

private theorem update (chain : Chain entries store) (few : entries.length + 1 < 2 ^ 64)
    (numbered : copy.id = some id) (found : store.get? id = some stored)
    (same : stored.version = copy.version) :
    Chain (entries ++
        [⟨store, .update copy, ⟨.ok (), [nextVersion copy]⟩, store.afterUpdate id copy⟩])
      (store.afterUpdate id copy) := by
  have next : (nextVersion copy).version.toNat = (versions id entries).length + 1 := by
    rw [chain.toNat_nextVersion few found same, ← same, chain.current found]
  have version? (other : JobExecutionId) :
      Entry.version? other
          ⟨store, .update copy, ⟨.ok (), [nextVersion copy]⟩, store.afterUpdate id copy⟩ =
        if id = other then some (nextVersion copy).version.toNat else none := by
    simp [Entry.version?, Entry.written?, nextVersion, numbered]
  have given (answer : Served) (after : ExecutionStore) :
      Entry.given? ⟨store, .update copy, answer, after⟩ = none := rfl
  constructor
  case increasing => exact filterMap_given?_append (given _ _) ▸ chain.increasing
  case given => exact filterMap_given?_append (given _ _) ▸ chain.given
  case counted =>
    rw [List.length_append]
    exact Nat.le_succ_of_le chain.counted
  case consecutive =>
    intro other
    by_cases equal : id = other
    · subst equal
      exact chain.consecutive_append next ((version? id).trans (if_pos rfl))
    · rw [versions_of_none ((version? other).trans (if_neg equal))]
      exact chain.consecutive other
  case current =>
    intro other record lookup
    rw [get?_afterUpdate] at lookup
    by_cases equal : other = id
    · subst equal
      rw [if_pos rfl] at lookup
      rw [versions_append, version?, if_pos rfl, ← Option.some.inj lookup, next]
      simp
    · rw [if_neg equal] at lookup
      rw [versions_of_none ((version? other).trans (if_neg (Ne.symm equal)))]
      exact chain.current lookup
  case unused =>
    intro other above
    obtain ⟨unwritten, missing⟩ := chain.unused above
    have distinct : id ≠ other := by
      rintro rfl
      rw [missing] at found
      contradiction
    rw [versions_of_none ((version? other).trans (if_neg distinct)), get?_afterUpdate,
      if_neg (Ne.symm distinct)]
    exact ⟨unwritten, missing⟩

private theorem idle (chain : Chain entries store) (given : entry.given? = none)
    (written : entry.written? = none) : Chain (entries ++ [entry]) store := by
  have same (id : JobExecutionId) : versions id (entries ++ [entry]) = versions id entries :=
    versions_of_none (by simp [Entry.version?, written])
  constructor
  case increasing => exact filterMap_given?_append given ▸ chain.increasing
  case given => exact filterMap_given?_append given ▸ chain.given
  case counted =>
    rw [List.length_append]
    exact Nat.le_succ_of_le chain.counted
  case consecutive => exact fun id => (same id).symm ▸ chain.consecutive id
  case current => exact fun {id} _ found => (same id).symm ▸ chain.current found
  case unused => exact fun {id} above => (same id).symm ▸ chain.unused above

/-- Another operation keeps the chain. -/
theorem step (chain : Chain entries store) (few : entries.length + 1 < 2 ^ 64)
    (operation : Operation) :
    Chain (entries ++ [serving.entryOf store operation]) (serving store operation).2 := by
  rcases store.serving_cases operation with
    ⟨copy, rfl, -, served⟩ | ⟨copy, id, stored, rfl, numbered, found, same, served⟩ |
    ⟨kept, given, written⟩
  · rw [Service.entryOf, served]
    exact chain.save copy few
  · rw [Service.entryOf, served]
    exact chain.update few numbered found same
  · rw [kept]
    exact chain.idle given written

end Chain

/-- Whatever operations a new store carries out, the chain is kept. -/
theorem chain (operations : List Operation) (few : operations.length < 2 ^ 64) :
    Chain (serving.log empty operations) (serving.afterAll empty operations) := by
  induction operations using List.reverseRecOn with
  | nil => exact Chain.empty
  | append_singleton operations operation ih =>
    rw [List.length_append, List.length_singleton] at few
    rw [Service.log_concat, Service.afterAll_append]
    exact (ih (by omega)).step (by rw [Service.length_log]; exact few) operation

/-! ## What the log shows -/

/-- What callers can rely on, whatever the others do in between. -/
structure Locked (entries : List Entry) : Prop where
  /-- A save succeeds for a copy without a number. -/
  save : ∀ entry ∈ entries, ∀ copy, entry.operation = .save copy →
    (entry.answer.result = .ok () ↔ copy.id = none)
  /-- It gives the copy a number and the first version, and stores it so. -/
  saved : ∀ entry ∈ entries, ∀ copy, entry.operation = .save copy →
    entry.answer.result = .ok () → ∃ id saved,
      saved = { copy with id := some id, version := 1 } ∧ entry.given? = some id ∧
      entry.answer.copies = [saved] ∧ entry.after.get? id = some saved
  /-- Every number is greater than the numbers given before. -/
  numbers : (entries.filterMap Entry.given?).Pairwise fun first second => first.value < second.value
  /-- An update succeeds for a copy with the version of its record. -/
  update : ∀ entry ∈ entries, ∀ copy, entry.operation = .update copy →
    (entry.answer.result = .ok () ↔ entry.before.IsCurrent copy)
  /-- It raises the version by one, in the copy and in the record, which are equal then. -/
  updated : ∀ entry ∈ entries, ∀ copy, entry.operation = .update copy →
    entry.answer.result = .ok () → ∃ id written, copy.id = some id ∧
      written = { copy with version := copy.version + 1 } ∧
      written.version.toNat = copy.version.toNat + 1 ∧
      entry.answer.copies = [written] ∧ entry.after.get? id = some written
  /-- The versions written under a number are 1, 2, 3 and so on, each of them once. -/
  versions (id : JobExecutionId) : ∃ count, versions id entries = List.range' 1 count
  /-- Of two updates from one version at most one succeeds. -/
  single : entries.Pairwise fun first second => ∀ copy other,
    first.operation = .update copy → second.operation = .update other →
    copy.id = other.id → copy.version = other.version →
    first.answer.result = .ok () → second.answer.result ≠ .ok ()
  /-- A refreshed copy can be written at once. -/
  refreshed : ∀ entry ∈ entries, ∀ copy, entry.operation = .synchronize copy →
    entry.answer.result = .ok () → ∃ fresh, entry.answer.copies = [fresh] ∧
      (serving entry.after (.update fresh)).1.result = .ok ()
  /-- An operation that fails leaves the store, its numbering and the copy as they were. -/
  kept : ∀ entry ∈ entries, entry.answer.result ≠ .ok () →
    entry.after = entry.before ∧ entry.answer.copies = entry.operation.copies

private theorem version?_ne {first second : Entry} (chained : Chain entries store)
    (both : [first, second].Sublist entries) {version : Nat}
    (written : first.version? id = some version) : second.version? id ≠ some version := by
  have distinct : (versions id entries).Nodup := chained.consecutive id ▸ List.nodup_range'
  intro again
  exact List.pairwise_iff_forall_sublist.1 (List.pairwise_filterMap.1 distinct) both
    version written version again rfl

private theorem saved_of_ok (done : (serving store (.save copy)).1.result = .ok ()) :
    copy.id = none ∧ serving store (.save copy) =
      (⟨.ok (), [store.savedAs copy]⟩, store.afterSave copy) := by
  cases numbered : copy.id with
  | none => exact ⟨rfl, serving_save_of_new numbered⟩
  | some id =>
    rw [serving_save_of_numbered numbered] at done
    contradiction

private theorem updated_of_ok (done : (serving store (.update copy)).1.result = .ok ()) :
    ∃ id stored, copy.id = some id ∧ store.get? id = some stored ∧
      stored.version = copy.version ∧ serving store (.update copy) =
        (⟨.ok (), [nextVersion copy]⟩, store.afterUpdate id copy) := by
  rcases store.serving_update_cases copy with written | ⟨-, error, refused⟩
  · exact written
  · rw [refused] at done
    contradiction

private theorem version?_of_updated (few : operations.length < 2 ^ 64)
    (member : entry ∈ serving.log empty operations) (updates : entry.operation = .update copy)
    (done : entry.answer.result = .ok ()) :
    ∃ id, copy.id = some id ∧ entry.version? id = some (copy.version.toNat + 1) := by
  obtain ⟨earlier, fewer, rfl⟩ := exists_earlier member updates
  obtain ⟨id, stored, numbered, found, current, served⟩ := updated_of_ok done
  have next :=
    (chain earlier (by omega)).toNat_nextVersion (by rw [Service.length_log]; omega) found current
  refine ⟨id, numbered, ?_⟩
  rw [← next, Service.entryOf, served]
  simp [Entry.version?, Entry.written?, nextVersion, numbered]

/-- Whatever copies callers hand in and in whatever order, their updates follow one another along
one chain of versions for every number. -/
theorem optimistic_lock_chain (operations : List Operation) (few : operations.length < 2 ^ 64) :
    Locked (serving.log empty operations) := by
  have chained := chain operations few
  constructor
  case save =>
    intro entry member copy saves
    obtain ⟨earlier, -, rfl⟩ := exists_earlier member saves
    refine ⟨fun done => (saved_of_ok done).1, fun new => ?_⟩
    change (serving (serving.afterAll empty earlier) (.save copy)).1.result = .ok ()
    rw [serving_save_of_new new]
  case saved =>
    intro entry member copy saves done
    obtain ⟨earlier, -, rfl⟩ := exists_earlier member saves
    obtain ⟨-, served⟩ := saved_of_ok done
    refine ⟨_, (serving.afterAll empty earlier).savedAs copy, rfl, ?_⟩
    rw [Service.entryOf, served]
    exact ⟨rfl, rfl, get?_afterSave.2 (.inl ⟨rfl, rfl⟩)⟩
  case numbers => exact chained.increasing
  case update =>
    intro entry member copy updates
    obtain ⟨earlier, -, rfl⟩ := exists_earlier member updates
    rcases serving_update_cases (serving.afterAll empty earlier) copy with
      ⟨id, stored, numbered, found, current, served⟩ | ⟨outdated, error, refused⟩
    · simp only [Service.entryOf, served, true_iff]
      exact ⟨id, stored, numbered, found, current⟩
    · simp [Service.entryOf, refused, outdated]
  case updated =>
    intro entry member copy updates done
    obtain ⟨earlier, fewer, rfl⟩ := exists_earlier member updates
    obtain ⟨id, stored, numbered, found, current, served⟩ := updated_of_ok done
    refine ⟨id, nextVersion copy, numbered, rfl, ?_, ?_⟩
    · have few : (serving.log empty earlier).length + 1 < 2 ^ 64 := by
        rw [Service.length_log]
        omega
      exact (chain earlier (by omega)).toNat_nextVersion few found current
    · rw [Service.entryOf, served]
      exact ⟨rfl, get?_afterUpdate.trans (if_pos rfl)⟩
  case versions => exact fun id => ⟨_, chained.consecutive id⟩
  case single =>
    rw [List.pairwise_iff_forall_sublist]
    intro first second both copy other firstUpdates secondUpdates sameId sameVersion done again
    obtain ⟨id, numbered, written⟩ :=
      version?_of_updated few (both.subset (by simp)) firstUpdates done
    obtain ⟨known, numbered', rewritten⟩ :=
      version?_of_updated few (both.subset (by simp)) secondUpdates again
    obtain rfl := Option.some.inj (numbered.symm.trans (sameId.trans numbered'))
    exact version?_ne chained both written (sameVersion ▸ rewritten)
  case refreshed =>
    intro entry member copy refreshes done
    obtain ⟨earlier, -, rfl⟩ := exists_earlier member refreshes
    exact update_of_refreshed done
  case kept =>
    intro entry member failed
    obtain ⟨earlier, -, logged⟩ := exists_earlier member rfl
    rw [logged] at failed ⊢
    exact kept_of_failed failed

/-- An execution is saved, two callers write the copy they got, and the later one, who is refused,
refreshes it. -/
def lostUpdate : List Operation :=
  let execution := JobExecution.create ⟨0, 0⟩ (.of ⟨1⟩ "import" .empty) .empty
  let saved := { execution with id := some ⟨1⟩, version := 1 }
  [.save execution, .update saved, .update saved, .synchronize saved]

/-- Two copies of one version are written, and the second write is refused. -/
theorem optimistic_lock_chain_lostUpdate :
    lostUpdate.length < 2 ^ 64 ∧ Locked (serving.log empty lostUpdate) ∧
      (serving.log empty lostUpdate).map (·.answer.result.isOk) = [true, true, false, true] ∧
      versions ⟨1⟩ (serving.log empty lostUpdate) = [1, 2] :=
  ⟨by decide, optimistic_lock_chain lostUpdate (by decide), by decide, by decide⟩

end BatchRun.ExecutionStore
