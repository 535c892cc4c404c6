import BatchRun.Proofs.Log
import BatchRun.Proofs.SortedMap
import BatchRun.Proofs.Store.Instances
import Mathlib.Data.String.Basic

/-! # Identities and numbers of instances

Calls create instances in any order, and those for an identity that is known are refused. The log
of the calls shows that the instances in the store are those of the successful calls, one for each
job name and identity key and one for each of the numbers 1, 2, 3 and so on. So all ways to tell
instances apart agree: by name and key, by number, by comparing two of them, by matching one with
parameters.
-/

namespace BatchRun.InstanceStore

/-- A call that is to create an instance. -/
structure Creation where
  jobName : String
  parameters : JobParameters

/-- The name and identity key that a call is for. -/
def Creation.target (creation : Creation) : String × String :=
  (creation.jobName, creation.parameters.identityKey)

/-- The store of instances at work: it gives the new instance or refuses the call, which leaves the
store as it is. -/
def creating : Service InstanceStore Creation (Except StoreError JobInstance) :=
  fun store creation =>
    match store.create creation.jobName creation.parameters with
    | .ok (created, after) => (.ok created, after)
    | .error error => (.error error, store)

/-- A call that has been answered. -/
abbrev Entry := LogEntry InstanceStore Creation (Except StoreError JobInstance)

/-- The instances that calls have created, the first one first. -/
def created (entries : List Entry) : List JobInstance := entries.filterMap (·.answer.toOption)

variable {store : InstanceStore} {creation : Creation} {calls : List Creation}
  {entries : List Entry} {entry : Entry} {known other : JobInstance} {id : JobInstanceId}
  {jobName : String} {parameters : JobParameters}

private theorem mem_created :
    known ∈ created entries ↔ ∃ entry ∈ entries, entry.answer = .ok known := by
  have succeeded (answer : Except StoreError JobInstance) :
      answer.toOption = some known ↔ answer = .ok known := by
    cases answer <;> simp [Except.toOption]
  simp [created, succeeded]

/-! ## Lookups -/

/-- The instance for a name and parameters is the one of this name and identity key. -/
theorem WellFormed.get?_eq_some_iff (wellFormed : store.WellFormed) :
    store.get? jobName parameters = some known ↔
      known ∈ store.instances ∧ known.isFor jobName parameters = true :=
  ⟨mem_of_get?, fun ⟨member, matching⟩ => wellFormed.get?_of_mem member matching⟩

/-- As long as the numbers have not run out, a number leads to the instance that has it. -/
theorem WellFormed.byId?_eq_some_iff (wellFormed : store.WellFormed)
    (bound : store.instances.length < 2 ^ 64) :
    store.byId? id = some known ↔ known ∈ store.instances ∧ known.id = id := by
  constructor
  · intro found
    exact ⟨List.mem_of_find?_eq_some found, by simpa using List.find?_some found⟩
  · rintro ⟨member, rfl⟩
    cases found : store.byId? known.id with
    | none => exact absurd (beq_self_eq_true known.id) (List.find?_eq_none.1 found known member)
    | some other =>
      have same : other.id = known.id := by simpa using List.find?_some found
      have inside := List.mem_of_find?_eq_some found
      rw [wellFormed.eq_of_same_id bound inside member same]

/-- As long as the numbers have not run out, they are 1, 2, 3 and so on. -/
theorem WellFormed.numbers_eq (wellFormed : store.WellFormed)
    (bound : store.instances.length < 2 ^ 64) :
    store.instances.map (·.id.value.toNat) = List.range' 1 store.instances.length := by
  refine List.ext_getElem (by simp) fun place inside inside' => ?_
  rw [List.length_map] at inside
  have number := wellFormed.numbered place (List.getElem?_eq_getElem inside)
  rw [List.getElem_map, number, List.getElem_range']
  change (UInt64.ofNat (place + 1)).toNat = _
  rw [UInt64.toNat_ofNat']
  omega

/-- As long as the numbers have not run out, instances are the same exactly if their numbers are. -/
theorem WellFormed.beq_iff (wellFormed : store.WellFormed)
    (bound : store.instances.length < 2 ^ 64) (member : known ∈ store.instances)
    (otherMember : other ∈ store.instances) : (known == other) = true ↔ known.id = other.id := by
  constructor
  · intro same
    obtain ⟨name, key⟩ := Bool.and_eq_true_iff.1 same
    rw [wellFormed.single member otherMember (eq_of_beq name) (eq_of_beq key)]
  · intro same
    rw [wellFormed.eq_of_same_id bound member otherMember same]
    exact Bool.and_eq_true_iff.2 ⟨beq_self_eq_true _, beq_self_eq_true _⟩

private theorem mem_jobNames : jobName ∈ store.jobNames ↔
    ∃ known ∈ store.instances, known.jobName = jobName := by
  unfold jobNames
  rw [SortedMap.mem_keys_ofList]
  simp

private theorem pairwise_jobNames (store : InstanceStore) : store.jobNames.Pairwise (· < ·) :=
  (SortedMap.pairwise_keys _).imp compare_lt_iff_lt.1

/-! ## One call -/

/-- A call for a known identity is refused, and any other one creates the next instance. -/
theorem creating_cases (store : InstanceStore) (creation : Creation) :
    (store.get? creation.jobName creation.parameters = none ∧
      creating store creation =
        (.ok (.of store.nextId creation.jobName creation.parameters),
          ⟨store.instances ++ [.of store.nextId creation.jobName creation.parameters]⟩)) ∨
    (∃ known, store.get? creation.jobName creation.parameters = some known ∧
      creating store creation = (.error (.instanceExists
        (creation.jobName ++ " [" ++ creation.parameters.identityKey ++ "]")), store)) := by
  unfold creating create
  cases store.get? creation.jobName creation.parameters with
  | none => exact .inl ⟨rfl, rfl⟩
  | some known => exact .inr ⟨known, rfl, rfl⟩

private theorem WellFormed.creating (wellFormed : store.WellFormed) (creation : Creation) :
    (creating store creation).2.WellFormed := by
  rcases creating_cases store creation with ⟨absent, made⟩ | ⟨known, -, refused⟩
  · rw [made]
    exact wellFormed.create absent
  · rw [refused]
    exact wellFormed

/-! ## Many calls -/

private theorem wellFormed_afterAll (calls : List Creation) :
    (creating.afterAll .empty calls).WellFormed := by
  induction calls using List.reverseRecOn with
  | nil => exact .empty
  | append_singleton calls creation ih =>
    rw [Service.afterAll_append]
    exact ih.creating creation

/-- The store has the instances that the calls have created, and no other one. -/
theorem instances_afterAll (calls : List Creation) :
    (creating.afterAll .empty calls).instances = created (creating.log .empty calls) := by
  induction calls using List.reverseRecOn with
  | nil => rfl
  | append_singleton calls creation ih =>
    rw [Service.afterAll_append, created, Service.filterMap_log_concat, ← created, ← ih,
      Service.entryOf]
    rcases creating_cases (creating.afterAll .empty calls) creation with
      ⟨-, made⟩ | ⟨known, -, refused⟩
    · simp [made, Except.toOption]
    · simp [refused, Except.toOption]

/-- A new instance has the name and the identifying parameters of its call. -/
theorem of_mem_log (member : entry ∈ creating.log .empty calls) (made : entry.answer = .ok known) :
    known.jobName = entry.operation.jobName ∧
      known.parameters = entry.operation.parameters.identifying := by
  obtain ⟨earlier, creation, -, -, rfl⟩ := Service.exists_of_mem_log member
  rcases creating_cases (creating.afterAll .empty earlier) creation with
    ⟨-, created⟩ | ⟨other, -, refused⟩
  · simp only [Service.entryOf, created, Except.ok.injEq] at made
    rw [← made]
    exact ⟨rfl, rfl⟩
  · simp [Service.entryOf, refused] at made

/-- An instance is for the names and keys of the call that has created it. -/
theorem isFor_iff_of_mem_log (member : entry ∈ creating.log .empty calls)
    (made : entry.answer = .ok known) :
    known.isFor jobName parameters = true ↔
      entry.operation.target = (jobName, parameters.identityKey) := by
  obtain ⟨name, kept⟩ := of_mem_log member made
  rw [JobInstance.isFor_iff_target, JobInstance.identityKey, name, kept,
    JobParameters.identityKey_identifying]
  rfl

/-- The instance for a name and parameters is the one that a call for this identity has created. -/
theorem get?_afterAll : (creating.afterAll .empty calls).get? jobName parameters = some known ↔
    ∃ entry ∈ creating.log .empty calls, entry.answer = .ok known ∧
      entry.operation.target = (jobName, parameters.identityKey) := by
  rw [(wellFormed_afterAll calls).get?_eq_some_iff, instances_afterAll, mem_created]
  constructor
  · rintro ⟨⟨entry, member, made⟩, isFor⟩
    exact ⟨entry, member, made, (isFor_iff_of_mem_log member made).1 isFor⟩
  · rintro ⟨entry, member, made, same⟩
    exact ⟨⟨entry, member, made⟩, (isFor_iff_of_mem_log member made).2 same⟩

/-- What holds of the calls in a log and of the store that they have led to. -/
structure Bijective (entries : List Entry) (store : InstanceStore) : Prop where
  /-- A call succeeds if no successful one before it was for its name and identity key. -/
  succeeds : ∀ {former entry later}, entries = former ++ entry :: later →
    ((∃ known, entry.answer = .ok known) ↔ ∀ other ∈ former, ∀ known, other.answer = .ok known →
      other.operation.target ≠ entry.operation.target)
  /-- It gives an instance with the name and the identifying parameters of the call. -/
  succeeded : ∀ entry ∈ entries, ∀ known, entry.answer = .ok known →
    known.jobName = entry.operation.jobName ∧
      known.parameters = entry.operation.parameters.identifying
  /-- A call that is refused is told so, and leaves the store as it is. -/
  refused : ∀ entry ∈ entries, ∀ error, entry.answer = .error error →
    error = .instanceExists (entry.operation.jobName ++
      " [" ++ entry.operation.parameters.identityKey ++ "]") ∧ entry.after = entry.before
  /-- The store has the instances of the successful calls, and no other one. -/
  stored : store.instances = created entries
  /-- They have the numbers 1, 2, 3 and so on in the order of their calls. -/
  numbers : (created entries).map (·.id.value.toNat) = List.range' 1 (created entries).length
  /-- The instance for a name and parameters is the one of a call for this name and this key. -/
  found : ∀ jobName parameters known, store.get? jobName parameters = some known ↔
    ∃ entry ∈ entries, entry.answer = .ok known ∧
      entry.operation.target = (jobName, parameters.identityKey)
  /-- The instance under a number is the one that has it. -/
  numbered : ∀ id known, store.byId? id = some known ↔ known ∈ store.instances ∧ known.id = id
  /-- An instance is for a name and parameters exactly if it is found by them. -/
  matching : ∀ known ∈ store.instances, ∀ jobName parameters,
    known.isFor jobName parameters = true ↔ store.get? jobName parameters = some known
  /-- Two instances are the same exactly if their numbers are. -/
  same : ∀ known ∈ store.instances, ∀ other ∈ store.instances,
    (known == other) = true ↔ known.id = other.id
  /-- The names stand in order, each of them once. -/
  ordered : store.jobNames.Pairwise (· < ·)
  /-- They are the names of the successful calls. -/
  names : ∀ jobName, jobName ∈ store.jobNames ↔
    ∃ entry ∈ entries, (∃ known, entry.answer = .ok known) ∧ entry.operation.jobName = jobName

/-- Whatever calls are made, identities and numbers of instances correspond to each other, as long
as there are numbers for all instances. -/
theorem identities_are_numbers (calls : List Creation)
    (few : (created (creating.log .empty calls)).length < 2 ^ 64) :
    Bijective (creating.log .empty calls) (creating.afterAll .empty calls) := by
  have stored := instances_afterAll calls
  have wellFormed := wellFormed_afterAll calls
  have bound : (creating.afterAll .empty calls).instances.length < 2 ^ 64 := stored ▸ few
  constructor
  case succeeds =>
    intro former entry later split
    obtain ⟨earlier, creation, others, -, rfl, rfl⟩ := Service.exists_of_log_eq split
    rcases creating_cases (creating.afterAll .empty earlier) creation with
      ⟨absent, made⟩ | ⟨known, present, refused⟩
    · simp only [Service.entryOf, made, Except.ok.injEq, exists_eq', true_iff]
      intro other member known created same
      rw [get?_afterAll.2 ⟨other, member, created, same⟩] at absent
      contradiction
    · obtain ⟨other, member, created, same⟩ := get?_afterAll.1 present
      simp only [Service.entryOf, refused, reduceCtorEq, exists_false, false_iff]
      exact fun unused => unused other member known created same
  case succeeded => exact fun entry member known made => of_mem_log member made
  case refused =>
    intro entry member error refused
    obtain ⟨earlier, creation, -, -, rfl⟩ := Service.exists_of_mem_log member
    rcases creating_cases (creating.afterAll .empty earlier) creation with
      ⟨-, made⟩ | ⟨known, -, kept⟩
    · simp [Service.entryOf, made] at refused
    · simp only [Service.entryOf, kept, Except.error.injEq] at refused ⊢
      exact ⟨refused.symm, trivial⟩
  case stored => exact stored
  case numbers =>
    rw [← stored]
    exact wellFormed.numbers_eq bound
  case found => exact fun jobName parameters known => get?_afterAll
  case numbered => exact fun id known => wellFormed.byId?_eq_some_iff bound
  case matching =>
    intro known member jobName parameters
    rw [wellFormed.get?_eq_some_iff]
    simp [member]
  case same =>
    exact fun known member other otherMember => wellFormed.beq_iff bound member otherMember
  case ordered => exact pairwise_jobNames _
  case names =>
    intro jobName
    rw [mem_jobNames, stored]
    constructor
    · rintro ⟨known, member, name⟩
      obtain ⟨entry, inside, made⟩ := mem_created.1 member
      exact ⟨entry, inside, ⟨known, made⟩, (of_mem_log inside made).1 ▸ name⟩
    · rintro ⟨entry, inside, ⟨known, made⟩, name⟩
      exact ⟨known, mem_created.2 ⟨entry, inside, made⟩, (of_mem_log inside made).1.trans name⟩

/-- Two jobs are asked for, the first one again with another parameter that is not identifying, and
then with another day. -/
def imports : List Creation :=
  let day (number : Int64) : String × JobParameter := ("day", ⟨.long number, true⟩)
  [⟨"import", .ofList [day 1]⟩, ⟨"export", .empty⟩,
    ⟨"import", .ofList [day 1, ("note", ⟨.string "again", false⟩)]⟩, ⟨"import", .ofList [day 2]⟩]

/-- Four instances are asked for, and the third one is that of the first request. -/
theorem identities_are_numbers_imports :
    (created (creating.log .empty imports)).length < 2 ^ 64 ∧
      Bijective (creating.log .empty imports) (creating.afterAll .empty imports) ∧
      (creating.log .empty imports).map (·.answer.isOk) = [true, true, false, true] ∧
      (creating.afterAll .empty imports).jobNames = ["export", "import"] := by
  have few : (created (creating.log .empty imports)).length < 2 ^ 64 := by decide
  exact ⟨few, identities_are_numbers imports few, by decide, by decide⟩

end BatchRun.InstanceStore
