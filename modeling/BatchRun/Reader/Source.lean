import BatchRun.Failure

/-! # Sources of items

A source hands out items one at a time in a fixed order, and reports its end as often as it is
asked. It is finite: every item it hands out leaves fewer to come. Lists are sources, also lists
with planned failures.
-/

namespace BatchRun

/-- States from which items can be read. -/
class ItemSource (σ : Type) (α : outParam Type) where
  /-- Reads the next item, or none at the end. -/
  readNext : σ → Except Failure (Option α) × σ
  /-- How many items are still to come, at most. -/
  remaining : σ → Nat
  remaining_lt : ∀ {source next : σ} {item : α},
    readNext source = (.ok (some item), next) → remaining next < remaining source

/-- A list of items with planned failures. The first reading at a planned position fails and takes
nothing; the failure does not occur again. -/
structure ListSource (α : Type) where
  items : List α
  position : Nat
  faults : List (Nat × String)
deriving Repr

namespace ListSource

variable {α : Type}

def ofItems (items : List α) (faults : List (Nat × String)) : ListSource α := ⟨items, 0, faults⟩

/-- Reads the next item, unless a failure is planned for this position. -/
def readNext (source : ListSource α) : Except Failure (Option α) × ListSource α :=
  match source.faults.find? (·.1 == source.position) with
  | some fault =>
    (.error (.ofMessage fault.2),
      { source with faults := source.faults.filter (·.1 != source.position) })
  | none =>
    match source.items with
    | [] => (.ok none, source)
    | item :: items => (.ok (some item), { source with items, position := source.position + 1 })

instance : ItemSource (ListSource α) α where
  readNext := readNext
  remaining source := source.items.length
  remaining_lt := fun {source next item} read => by
    unfold readNext at read
    split at read
    · simp at read
    · split at read
      · simp at read
      · rename_i items
        obtain ⟨-, rfl⟩ := Prod.mk.inj read
        simp [items]

end ListSource

end BatchRun
