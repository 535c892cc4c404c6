import BatchRun.Store.Instances
import Mathlib.Algebra.Group.Nat.Defs

/-! # The store of instances knows each instance once

An instance is found by the job name and identity key it was created for. A store is well-formed if
its instances are numbered in order and no two have the same name and identity key; then, as long
as the numbers have not run out, an instance is determined by its number as well.
-/

namespace BatchRun

theorem JobParameters.identifying_identifying (parameters : JobParameters) :
    parameters.identifying.identifying = parameters.identifying := by
  apply congrArg JobParameters.mk
  apply SortedMap.ext
  simp [identifying, SortedMap.filter, List.filter_filter]

/-- Notes do not enter the key. -/
theorem JobParameters.identityKey_identifying (parameters : JobParameters) :
    parameters.identifying.identityKey = parameters.identityKey := by
  unfold identityKey
  rw [identifying_identifying]

namespace JobInstance

variable {known other : JobInstance} {jobName : String} {parameters : JobParameters}

theorem isFor_iff : known.isFor jobName parameters = true ↔
    known.jobName = jobName ∧ known.identityKey = parameters.identityKey := by
  simp [isFor]

/-- An instance is for a job and parameters if these are its target. -/
theorem isFor_iff_target : known.isFor jobName parameters = true ↔
    (known.jobName, known.identityKey) = (jobName, parameters.identityKey) := by
  rw [isFor_iff, Prod.mk.injEq]

theorem isFor_identifying (known : JobInstance) (jobName : String) (parameters : JobParameters) :
    known.isFor jobName parameters.identifying = known.isFor jobName parameters := by
  unfold isFor
  rw [parameters.identityKey_identifying]

/-- The name and identity key that an instance is found by. -/
def target (known : JobInstance) : String × String := (known.jobName, known.identityKey)

theorem isFor_of (id : JobInstanceId) (jobName : String) (parameters : JobParameters) :
    (JobInstance.of id jobName parameters).isFor jobName parameters = true :=
  isFor_iff.2 ⟨rfl, parameters.identityKey_identifying⟩

end JobInstance

namespace InstanceStore

variable {store : InstanceStore} {known other : JobInstance} {jobName : String}
  {parameters : JobParameters}

/-- What is found is stored and fits. -/
theorem mem_of_get? (found : store.get? jobName parameters = some known) :
    known ∈ store.instances ∧ known.isFor jobName parameters = true :=
  ⟨List.mem_of_find?_eq_some found, by simpa using List.find?_some found⟩

/-- If nothing is found, nothing fits. -/
theorem not_isFor_of_get?_eq_none (absent : store.get? jobName parameters = none)
    (member : known ∈ store.instances) : known.isFor jobName parameters ≠ true :=
  List.find?_eq_none.1 absent known member

/-- A new instance at the end is not found for another name and identity key. -/
theorem get?_append_of_not_isFor (foreign : known.isFor jobName parameters = false) :
    get? ⟨store.instances ++ [known]⟩ jobName parameters = store.get? jobName parameters := by
  unfold get?
  rw [List.find?_append, List.find?_singleton, foreign]
  simp

/-- The instances are numbered in order, and no two have the same name and identity key. -/
structure WellFormed (store : InstanceStore) : Prop where
  numbered : ∀ (place : Nat) {known : JobInstance}, store.instances[place]? = some known →
    known.id = ⟨UInt64.ofNat (place + 1)⟩
  single : ∀ {known other : JobInstance}, known ∈ store.instances → other ∈ store.instances →
    known.jobName = other.jobName → known.identityKey = other.identityKey → known = other

namespace WellFormed

theorem empty : InstanceStore.empty.WellFormed where
  numbered place known found := by simp [InstanceStore.empty] at found
  single member := by simp [InstanceStore.empty] at member

/-- The instance for a name and parameters is the one that is found. -/
theorem get?_of_mem (wellFormed : store.WellFormed) (member : known ∈ store.instances)
    (matching : known.isFor jobName parameters = true) :
    store.get? jobName parameters = some known := by
  cases found : store.get? jobName parameters with
  | none => exact absurd matching (not_isFor_of_get?_eq_none found member)
  | some other =>
    obtain ⟨otherMember, otherMatching⟩ := mem_of_get? found
    obtain ⟨name, key⟩ := JobInstance.isFor_iff.1 matching
    obtain ⟨otherName, otherKey⟩ := JobInstance.isFor_iff.1 otherMatching
    rw [wellFormed.single otherMember member (otherName.trans name.symm)
      (otherKey.trans key.symm)]

/-- As long as the numbers have not run out, none is above the number of instances. -/
theorem toNat_le (wellFormed : store.WellFormed) (bound : store.instances.length < 2 ^ 64)
    (member : known ∈ store.instances) : known.id.value.toNat ≤ store.instances.length := by
  obtain ⟨place, found⟩ := List.mem_iff_getElem?.1 member
  have inside : place < store.instances.length := (List.getElem?_eq_some_iff.1 found).1
  rw [wellFormed.numbered place found]
  change (UInt64.ofNat (place + 1)).toNat ≤ _
  rw [UInt64.toNat_ofNat']
  omega

/-- As long as the numbers have not run out, no number is given twice. -/
theorem eq_of_same_id (wellFormed : store.WellFormed) (bound : store.instances.length < 2 ^ 64)
    (member : known ∈ store.instances) (otherMember : other ∈ store.instances)
    (same : known.id = other.id) : known = other := by
  obtain ⟨place, found⟩ := List.mem_iff_getElem?.1 member
  obtain ⟨otherPlace, otherFound⟩ := List.mem_iff_getElem?.1 otherMember
  have inside : place < store.instances.length := (List.getElem?_eq_some_iff.1 found).1
  have otherInside : otherPlace < store.instances.length :=
    (List.getElem?_eq_some_iff.1 otherFound).1
  have numbers : UInt64.ofNat (place + 1) = UInt64.ofNat (otherPlace + 1) := by
    rw [wellFormed.numbered place found, wellFormed.numbered otherPlace otherFound] at same
    exact congrArg RecordId.value same
  have places : (place + 1) % 2 ^ 64 = (otherPlace + 1) % 2 ^ 64 := by
    have equal := congrArg UInt64.toNat numbers
    simpa [UInt64.toNat_ofNat'] using equal
  have equal : place = otherPlace := by omega
  rw [equal, otherFound] at found
  exact (Option.some.inj found).symm

/-- A new instance for a name and parameters that are not known yet. -/
theorem create (wellFormed : store.WellFormed) (absent : store.get? jobName parameters = none) :
    InstanceStore.WellFormed
      ⟨store.instances ++ [JobInstance.of store.nextId jobName parameters]⟩ where
  numbered := by
    intro place known found
    rw [List.getElem?_append] at found
    split at found
    · exact wellFormed.numbered place found
    · obtain ⟨inside, same⟩ := List.getElem?_eq_some_iff.1 found
      have last : place = store.instances.length := by simp at inside; omega
      simp only [List.getElem_singleton] at same
      rw [← same, last]
      rfl
  single := by
    have fresh : ∀ {known}, known ∈ store.instances → ¬ (known.jobName = jobName ∧
        known.identityKey = parameters.identifying.identityKey) := by
      intro known member same
      rw [parameters.identityKey_identifying] at same
      exact not_isFor_of_get?_eq_none absent member (JobInstance.isFor_iff.2 same)
    intro known other member otherMember sameName sameKey
    rcases List.mem_append.1 member with old | new <;>
      rcases List.mem_append.1 otherMember with otherOld | otherNew
    · exact wellFormed.single old otherOld sameName sameKey
    · obtain rfl := List.mem_singleton.1 otherNew
      exact absurd ⟨sameName, sameKey⟩ (fresh old)
    · obtain rfl := List.mem_singleton.1 new
      exact absurd ⟨sameName.symm, sameKey.symm⟩ (fresh otherOld)
    · rw [List.mem_singleton.1 new, List.mem_singleton.1 otherNew]

end WellFormed

end InstanceStore

end BatchRun
