import BatchRun.Proofs.Repository.Consistency

/-! # Books with their history

Many callers share one repository and work on copies that may be long out of date. The history
keeps every record that was ever stored, so what a caller can have in hand is a copy of a past
record. A record is pinned to some statuses if it is stored and never had any other: as long as no
execution may follow one of these statuses, it stays pinned whatever else is requested.
-/

namespace BatchRun

namespace JobExecution

/-- A copy of a record on which only fields other than the status have been worked on. -/
def CopyOf (copy record : JobExecution) : Prop :=
  copy.SameRecord record ∧ copy.status = record.status

end JobExecution

/-- The number of executions that a request has created, by its answer. -/
def Request.created : (request : Request) → request.Answer → Nat
  | createExecution .., .ok _ => 1
  | _, _ => 0

/-- A repository and its history. -/
structure Books where
  repository : Repository
  /-- All records that have been stored so far. -/
  past : List JobExecution
  /-- How many executions have been created so far. -/
  created : Nat

namespace Books

variable {books : Books} {now : Timestamp} {request : Request} {copy record stored : JobExecution}
  {id : JobExecutionId} {allowed : List BatchStatus}

def empty : Books := ⟨.empty, [], 0⟩

/-- The books after a request. -/
def after (books : Books) (now : Timestamp) (request : Request) : Books :=
  let (answer, repository) := books.repository.answer now request
  ⟨repository, repository.executions.executions.values ++ books.past,
    books.created + request.created answer⟩

theorem repository_after :
    (books.after now request).repository = (books.repository.answer now request).2 := rfl

/-- What has been stored by now was stored before or is stored now. -/
theorem mem_past_after : record ∈ (books.after now request).past ↔
    (∃ id, (books.after now request).repository.executions.get? id = some record) ∨
      record ∈ books.past := by
  unfold after
  rw [List.mem_append, SortedMap.mem_values]
  rfl

/-- Executions are counted and never taken back. -/
theorem created_le_after : books.created ≤ (books.after now request).created := Nat.le_add_right ..

/-- What is stored is part of the history, records with the same number belong to the same
instance, and the number given last tells how many executions there have been. -/
structure Sound (books : Books) : Prop where
  consistent : books.repository.Consistent
  remembered : ∀ {id stored}, books.repository.executions.get? id = some stored →
    stored ∈ books.past
  numbered : ∀ {record}, record ∈ books.past →
    ∃ id, record.id = some id ∧ id.value.toNat ≤ books.created
  known : ∀ {record}, record ∈ books.past →
    record.jobInstance ∈ books.repository.instances.instances
  belongs : ∀ {record other}, record ∈ books.past → other ∈ books.past → record.id = other.id →
    record.jobInstance = other.jobInstance
  counted : books.repository.executions.lastId = UInt64.ofNat books.created
  few : books.repository.instances.instances.length ≤ books.created

namespace Sound

theorem empty : Books.empty.Sound where
  consistent := .empty
  remembered found := by
    simp [Books.empty, Repository.empty, ExecutionStore.empty, ExecutionStore.get?] at found
  numbered member := absurd member List.not_mem_nil
  known member := absurd member List.not_mem_nil
  belongs member := absurd member List.not_mem_nil
  counted := rfl
  few := Nat.le_refl 0

private theorem lastId_toNat (sound : books.Sound) (bound : books.created < 2 ^ 64) :
    books.repository.executions.lastId.toNat = books.created := by
  rw [sound.counted]
  exact UInt64.toNat_ofNat_of_lt bound

/-- The next number has not been given before. -/
theorem nextId_fresh (sound : books.Sound) (bound : books.created + 1 < 2 ^ 64)
    (member : record ∈ books.past) :
    record.id ≠ some ⟨books.repository.executions.lastId + 1⟩ := by
  intro same
  obtain ⟨id, numbered, below⟩ := sound.numbered member
  rw [numbered] at same
  have equal : id.value = books.repository.executions.lastId + 1 :=
    congrArg RecordId.value (Option.some.inj same)
  have next : (books.repository.executions.lastId + 1).toNat = books.created + 1 := by
    rw [UInt64.toNat_add, sound.lastId_toNat (by omega)]
    exact Nat.mod_eq_of_lt bound
  rw [equal, next] at below
  omega

end Sound

private theorem created_of_refused
    (refused : ∀ jobName parameters, request = .createExecution jobName parameters →
      ∃ error, books.repository.claim jobName parameters = .error error) :
    (books.after now request).created = books.created := by
  cases request with
  | createExecution jobName parameters =>
    obtain ⟨error, rejected⟩ := refused jobName parameters rfl
    simp [after, Repository.answer, Repository.createExecution_of_refused rejected,
      Repository.orKeep, Request.created]
  | _ => rfl

private theorem created_of_granted (now : Timestamp) {jobName : String} {parameters : JobParameters}
    {claimed : JobInstance × ExecutionContext × Repository}
    (granted : books.repository.claim jobName parameters = .ok claimed) :
    (books.after now (.createExecution jobName parameters)).created = books.created + 1 := by
  obtain ⟨known, context, claimed⟩ := claimed
  obtain ⟨contexts, made⟩ := Repository.createExecution_of_claim now granted
  simp [after, Repository.answer, made, Repository.orKeep, Request.created]

/-- A copy that is written belongs to a record of the past. -/
def Genuine (books : Books) (request : Request) : Prop :=
  ∀ copy, request = .update copy → copy.id ≠ none → ∃ record ∈ books.past, copy.SameRecord record

namespace Sound

/-- What is written over a record is a copy of that record. -/
theorem genuine (sound : books.Sound) (genuine : books.Genuine request) (copy : JobExecution)
    (same : request = .update copy) : books.repository.Genuine copy := by
  intro stored record
  obtain ⟨id, numbered, found⟩ := ExecutionStore.recordOf?_eq_some_iff.1 record
  obtain ⟨past, member, sameId, sameInstance⟩ := genuine copy same (by simp [numbered])
  have storedId := sound.consistent.executions.numbered found
  rw [sameInstance]
  exact sound.belongs member (sound.remembered found)
    (sameId.symm.trans (numbered.trans storedId.symm))

private theorem consistent_after (sound : books.Sound) (genuine : books.Genuine request) :
    (books.after now request).repository.Consistent :=
  (Repository.effect_answer books.repository now request).consistent sound.consistent
    (sound.genuine genuine)

/-- What is stored after a request goes back to a past record, or it is a new execution. -/
theorem origin (sound : books.Sound) (genuine : books.Genuine request)
    (member : record ∈ (books.after now request).past) :
    (∃ old ∈ books.past, record.SameRecord old) ∨
      ((books.after now request).repository.executions.get?
          ⟨books.repository.executions.lastId + 1⟩ = some record ∧
        record.id = some ⟨books.repository.executions.lastId + 1⟩ ∧
        (books.after now request).created = books.created + 1) := by
  rcases mem_past_after.1 member with ⟨id, found⟩ | old
  · have effect := Repository.effect_answer books.repository now request
    rw [← repository_after] at effect
    generalize afterwards : (books.after now request).repository = next at effect found ⊢
    cases effect with
    | none refused executions instances =>
      rw [executions] at found
      exact .inl ⟨record, sound.remembered found, rfl, rfl⟩
    | @write copy stored written numbered lookup =>
      rw [Repository.get?_withRecord] at found
      split at found
      · obtain rfl := Option.some.inj found
        obtain ⟨old, inside, same⟩ := genuine copy rfl (by simp [numbered])
        exact .inl ⟨old, inside, same⟩
      · exact .inl ⟨record, sound.remembered found, rfl, rfl⟩
    | create granted executions instances =>
      obtain ⟨same, -⟩ := Repository.isFor_of_claim granted
      rw [executions, same] at found ⊢
      rcases ExecutionStore.get?_afterSave.1 found with ⟨rfl, rfl⟩ | ⟨-, kept, -⟩
      · exact .inr ⟨found, rfl, created_of_granted now granted⟩
      · exact .inl ⟨record, sound.remembered kept, rfl, rfl⟩
  · exact .inl ⟨record, old, rfl, rfl⟩

private theorem counts_after (sound : books.Sound) (now : Timestamp) (request : Request) :
    (∀ known ∈ books.repository.instances.instances,
      known ∈ (books.after now request).repository.instances.instances) ∧
    (books.after now request).repository.executions.lastId =
      UInt64.ofNat (books.after now request).created ∧
    (books.after now request).repository.instances.instances.length ≤
      (books.after now request).created := by
  have effect := Repository.effect_answer books.repository now request
  rw [← repository_after] at effect
  generalize afterwards : (books.after now request).repository = next at effect ⊢
  cases effect with
  | none refused executions instances =>
    rw [created_of_refused refused, executions, instances]
    exact ⟨fun _ member => member, sound.counted, sound.few⟩
  | write numbered lookup => exact ⟨fun _ member => member, sound.counted, sound.few⟩
  | create granted executions instances =>
    obtain ⟨-, -, kept⟩ := sound.consistent.claim granted
    obtain ⟨same, -⟩ := Repository.isFor_of_claim granted
    rw [created_of_granted now granted, executions, instances, same]
    refine ⟨kept, ?_, ?_⟩
    · change books.repository.executions.lastId + 1 = _
      rw [sound.counted, UInt64.ofNat_add]
      rfl
    · have few := sound.few
      rcases Repository.claim_cases granted with ⟨-, -, unchanged⟩ | ⟨-, -, extended⟩
      · rw [unchanged]
        omega
      · rw [extended]
        simpa using few

/-- As long as the numbers have not run out, every request keeps the books sound. -/
theorem after (sound : books.Sound) (genuine : books.Genuine request)
    (bound : (books.after now request).created < 2 ^ 64) : (books.after now request).Sound := by
  have consistent : (books.after now request).repository.Consistent :=
    sound.consistent_after genuine
  obtain ⟨grown, counted, few⟩ := sound.counts_after now request
  refine ⟨consistent, fun found => mem_past_after.2 (.inl ⟨_, found⟩), ?_, ?_, ?_, counted, few⟩
  · intro record member
    rcases sound.origin genuine member with ⟨old, inside, sameId, -⟩ | ⟨-, new, more⟩
    · obtain ⟨id, numbered, below⟩ := sound.numbered inside
      exact ⟨id, sameId.trans numbered, Nat.le_trans below created_le_after⟩
    · have last := sound.lastId_toNat (by omega)
      refine ⟨_, new, ?_⟩
      rw [UInt64.toNat_add, last, more]
      exact Nat.mod_le ..
  · intro record member
    rcases mem_past_after.1 member with ⟨id, found⟩ | old
    · exact consistent.belongs found
    · exact grown _ (sound.known old)
  · intro record other member otherMember same
    rcases sound.origin genuine member with
      ⟨old, inside, sameId, sameInstance⟩ | ⟨found, new, more⟩ <;>
      rcases sound.origin genuine otherMember with
        ⟨otherOld, otherInside, otherId, otherInstance⟩ | ⟨otherFound, otherNew, otherMore⟩
    · rw [sameInstance, otherInstance]
      exact sound.belongs inside otherInside (sameId.symm.trans (same.trans otherId))
    · exact absurd (sameId.symm.trans (same.trans otherNew))
        (sound.nextId_fresh (by omega) inside)
    · exact absurd (otherId.symm.trans (same.symm.trans new))
        (sound.nextId_fresh (by omega) otherInside)
    · rw [Option.some.inj (found.symm.trans otherFound)]

end Sound

/-! ## Pinned records -/

/-- The record of this copy is stored and has only ever had one of these statuses. -/
structure Pinned (books : Books) (allowed : List BatchStatus) (copy : JobExecution) : Prop where
  stored : ∃ id record, copy.id = some id ∧ books.repository.executions.get? id = some record ∧
    copy.SameRecord record
  always : ∀ record ∈ books.past, record.id = copy.id → record.status ∈ allowed

private theorem Pinned.stored_after {id : JobExecutionId} (pinned : books.Pinned allowed copy)
    (sound : books.Sound) (genuine : books.Genuine request)
    (bound : (books.after now request).created < 2 ^ 64)
    (unclaimable : ∀ status ∈ allowed, status ∉ BatchStatus.claimable)
    (quiet : ∀ other, request = .update other → other.id = copy.id → other.status ∈ allowed)
    (numbered : copy.id = some id)
    (found : books.repository.executions.get? id = some record) (same : copy.SameRecord record) :
    ∃ next, (books.after now request).repository.executions.get? id = some next ∧
      copy.SameRecord next ∧ next.status ∈ allowed := by
  have status := pinned.always record (sound.remembered found) same.1.symm
  have effect := Repository.effect_answer books.repository now request
  rw [← repository_after] at effect
  generalize afterwards : (books.after now request).repository = repository at effect ⊢
  cases effect with
  | none refused executions instances =>
    rw [executions]
    exact ⟨record, found, same, status⟩
  | @write other stored key otherNumbered lookup =>
    rw [Repository.get?_withRecord]
    by_cases equal : id = key
    · rw [if_pos equal]
      rw [← equal] at otherNumbered lookup
      obtain rfl := Option.some.inj (found.symm.trans lookup)
      have sameInstance := sound.genuine genuine other rfl record
        (ExecutionStore.recordOf?_eq_some_iff.2 ⟨id, otherNumbered, lookup⟩)
      refine ⟨_, rfl, ⟨numbered.trans otherNumbered.symm, same.2.trans sameInstance.symm⟩, ?_⟩
      exact Repository.status_written (quiet other rfl (otherNumbered.trans numbered.symm)) status
    · rw [if_neg equal]
      exact ⟨record, found, same, status⟩
  | create granted executions instances =>
    have more := created_of_granted now granted
    obtain ⟨sameExecutions, -⟩ := Repository.isFor_of_claim granted
    have few := sound.few
    have apart := sound.consistent.apart_of_claim (by omega) granted found (unclaimable _ status)
    have fresh := sound.nextId_fresh (by omega) (sound.remembered found)
    have older : id ≠ ⟨books.repository.executions.lastId + 1⟩ := by
      intro equal
      exact fresh (equal ▸ sound.consistent.executions.numbered found)
    rw [executions, sameExecutions]
    exact ⟨record, ExecutionStore.get?_afterSave.2 (.inr ⟨older, found, apart⟩), same, status⟩

/-- What is pinned to statuses that no other execution may follow stays pinned, if the writes to
this record keep to these statuses. -/
theorem Pinned.after (pinned : books.Pinned allowed copy) (sound : books.Sound)
    (genuine : books.Genuine request) (bound : (books.after now request).created < 2 ^ 64)
    (unclaimable : ∀ status ∈ allowed, status ∉ BatchStatus.claimable)
    (quiet : ∀ other, request = .update other → other.id = copy.id → other.status ∈ allowed) :
    (books.after now request).Pinned allowed copy := by
  obtain ⟨id, record, numbered, found, same⟩ := pinned.stored
  have consistent : (books.after now request).repository.Consistent :=
    sound.consistent_after genuine
  obtain ⟨next, foundNext, sameNext, status⟩ :=
    pinned.stored_after sound genuine bound unclaimable quiet numbered found same
  constructor
  · exact ⟨id, next, numbered, foundNext, sameNext⟩
  · intro other member sameId
    rcases mem_past_after.1 member with ⟨key, lookup⟩ | old
    · have key_eq : key = id := Option.some.inj
        ((consistent.executions.numbered lookup).symm.trans (sameId.trans numbered))
      rw [key_eq] at lookup
      rw [Option.some.inj (lookup.symm.trans foundNext)]
      exact status
    · exact pinned.always other old sameId

/-- An instance has no two pinned records. -/
theorem Sound.id_eq_of_pinned (sound : books.Sound) {others : List BatchStatus}
    (first : books.Pinned allowed copy) (second : books.Pinned others record)
    (sameName : copy.jobInstance.jobName = record.jobInstance.jobName)
    (sameKey : copy.jobInstance.identityKey = record.jobInstance.identityKey) :
    copy.id = record.id := by
  obtain ⟨id, stored, numbered, found, same⟩ := first.stored
  obtain ⟨otherId, other, otherNumbered, otherFound, otherSame⟩ := second.stored
  have equal : stored.jobInstance = other.jobInstance :=
    sound.consistent.instances.single (sound.consistent.belongs found)
      (sound.consistent.belongs otherFound) (same.2 ▸ otherSame.2 ▸ sameName)
      (same.2 ▸ otherSame.2 ▸ sameKey)
  rw [numbered, otherNumbered,
    sound.consistent.executions.single found otherFound (congrArg JobInstance.id equal)]

/-! ## Answers -/

/-- Writes to a pinned record succeed, and touch nothing else. -/
theorem Pinned.update (pinned : books.Pinned allowed record) (same : copy.SameRecord record)
    (now : Timestamp) :
    ∃ id stored, copy.id = some id ∧ books.repository.executions.get? id = some stored ∧
      books.repository.answer now (.update copy) =
        (⟨.ok (), Repository.written now copy stored⟩,
          books.repository.withRecord id (Repository.written now copy stored)) := by
  obtain ⟨id, stored, numbered, found, -⟩ := pinned.stored
  exact ⟨id, stored, same.1.trans numbered, found,
    Repository.update_of_record now (same.1.trans numbered) found⟩

/-- A copy of a pinned record can be refreshed. -/
theorem Pinned.synchronize (pinned : books.Pinned allowed record) (same : copy.SameRecord record) :
    ∃ stored, books.repository.synchronize copy = ⟨.ok (), copy.refreshedFrom stored⟩ := by
  obtain ⟨id, stored, numbered, found, -⟩ := pinned.stored
  exact ⟨stored, Repository.synchronize_of_record (same.1.trans numbered) found⟩

/-- What is read is a copy of a past record. -/
theorem Sound.copy_of_read (sound : books.Sound) {read : JobExecution}
    (answered : books.repository.execution id = .ok (some read)) :
    ∃ record ∈ books.past, read.CopyOf record := by
  obtain ⟨stored, context, steps, found, rfl⟩ := Repository.record_of_read answered
  exact ⟨stored, sound.remembered found, ⟨rfl, rfl⟩, rfl⟩

/-- The number of the next execution is not in use. -/
theorem Sound.nextId_fresh_of_created (sound : books.Sound) {jobName : String}
    {parameters : JobParameters} {execution : JobExecution} {repository : Repository}
    (bound : (books.after now (.createExecution jobName parameters)).created < 2 ^ 64)
    (created : books.repository.createExecution now jobName parameters =
      .ok (execution, repository)) (member : record ∈ books.past) :
    record.id ≠ some ⟨books.repository.executions.lastId + 1⟩ := by
  obtain ⟨known, context, claimed, -, granted, -⟩ := Repository.createExecution_cases created
  have more := created_of_granted now granted
  exact sound.nextId_fresh (by omega) member

/-- A new execution is pinned to the running statuses from its creation on. -/
theorem Sound.pinned_of_created (sound : books.Sound) {jobName : String}
    {parameters : JobParameters} {execution : JobExecution} {repository : Repository}
    (bound : (books.after now (.createExecution jobName parameters)).created < 2 ^ 64)
    (created : books.repository.createExecution now jobName parameters =
      .ok (execution, repository)) :
    (books.after now (.createExecution jobName parameters)).Pinned
        [.starting, .started, .stopping] execution ∧
      execution.jobInstance.isFor jobName parameters = true ∧ execution.status = .starting ∧
      execution.id = some ⟨books.repository.executions.lastId + 1⟩ := by
  obtain ⟨-, stored, found, given, numbered, matching, -, starting, -⟩ :=
    Repository.record_of_created created
  have genuine : books.Genuine (.createExecution jobName parameters) := fun _ same => nomatch same
  have next : (books.after now (.createExecution jobName parameters)).repository = repository := by
    simp [repository_after, Repository.answer, created, Repository.orKeep]
  have sameId : execution.id = some ⟨books.repository.executions.lastId + 1⟩ := by
    rw [given]
    exact numbered
  refine ⟨⟨⟨_, stored, sameId, next ▸ found, ?_⟩, ?_⟩, ?_, ?_, sameId⟩
  · rw [given]
    exact ⟨rfl, rfl⟩
  · intro record member same
    rw [sameId] at same
    rcases sound.origin genuine member with ⟨old, inside, oldId, -⟩ | ⟨lookup, -, -⟩
    · exact absurd (oldId.symm.trans same) (sound.nextId_fresh_of_created bound created inside)
    · rw [next, found] at lookup
      rw [← Option.some.inj lookup, starting]
      decide
  · rw [given]
    exact matching
  · rw [given]
    exact starting

end Books

end BatchRun
