import BatchRun.Id
import BatchRun.Proofs.SortedMap
import Mathlib.Algebra.Group.Nat.Defs

/-! # Numbers of records

Stores give the next number to every new record. As long as the numbers have not run out, the next
one is above all numbers that have been given. Records that are kept by their numbers are listed in
the order of these, so the last one comes first if the list is turned round.
-/

namespace BatchRun

/-- Below the highest number, the next one is one more. -/
theorem toNat_add_one {number : UInt64} (room : number.toNat + 1 < 2 ^ 64) :
    (number + 1).toNat = number.toNat + 1 := by
  rw [UInt64.toNat_add]
  exact Nat.mod_eq_of_lt room

/-- A number that has been given is not the next one. -/
theorem RecordId.ne_next {kind : RecordKind} {id : RecordId kind} {lastId : UInt64}
    (given : id.value ≤ lastId) (room : lastId.toNat + 1 < 2 ^ 64) : id ≠ ⟨lastId + 1⟩ := by
  rintro rfl
  have backward := UInt64.le_iff_toNat_le.1 given
  rw [toNat_add_one room] at backward
  omega

theorem lt_add_one {lastId : UInt64} (room : lastId.toNat + 1 < 2 ^ 64) : lastId < lastId + 1 := by
  rw [UInt64.lt_iff_toNat_lt, toNat_add_one room]
  omega

theorem le_add_one {lastId : UInt64} (room : lastId.toNat + 1 < 2 ^ 64) : lastId ≤ lastId + 1 :=
  UInt64.le_of_lt (lt_add_one room)

/-- Each number is above the next one. -/
def Descending {kind : RecordKind} (ids : List (Option (RecordId kind))) : Prop :=
  ids.Pairwise fun first second =>
    ∃ above below, first = some above ∧ second = some below ∧ below.value < above.value

/-- From the last entry to the first one, the numbers of records descend. -/
theorem descending_values {kind : RecordKind} {α : Type} {records : SortedMap (RecordId kind) α}
    (number : α → Option (RecordId kind))
    (numbered : ∀ {key record}, records.get? key = some record → number record = some key) :
    Descending (records.values.reverse.map number) := by
  refine List.pairwise_map.2 (List.pairwise_reverse.2 (SortedMap.pairwise_values ?_))
  intro key other record next here there before
  exact ⟨other, key, numbered there, numbered here, compareOfLessAndEq_eq_lt.1 before⟩

end BatchRun
