/-! # Maps in key order

A `SortedMap κ α` holds its entries in strictly increasing key order, so two maps with the same
entries are the same value and a listing needs no sorting. The order is part of the type: every
operation below re-establishes it, and none has a well-formedness hypothesis.
-/

namespace BatchRun

/-- Finitely many entries, one per key, in increasing key order. -/
structure SortedMap (κ : Type) [Ord κ] (α : Type) where
  /-- The entries as a list. -/
  toList : List (κ × α)
  /-- Keys strictly increase along the list. -/
  increasing : toList.Pairwise fun first second => compare first.1 second.1 = .lt

namespace SortedMap

variable {κ α β : Type} [Ord κ]

instance [DecidableEq κ] [DecidableEq α] : DecidableEq (SortedMap κ α) := fun first second =>
  if same : first.toList = second.toList then
    .isTrue (by cases first; cases second; simp_all)
  else
    .isFalse fun equal => same (congrArg toList equal)

instance [Repr κ] [Repr α] : Repr (SortedMap κ α) where
  reprPrec map precedence := reprPrec map.toList precedence

theorem ext {first second : SortedMap κ α} (same : first.toList = second.toList) :
    first = second := by
  cases first; cases second; simp_all

def empty : SortedMap κ α := ⟨[], .nil⟩

instance : Inhabited (SortedMap κ α) := ⟨empty⟩

def size (map : SortedMap κ α) : Nat := map.toList.length

def isEmpty (map : SortedMap κ α) : Bool := map.toList.isEmpty

/-- The keys, increasing. -/
def keys (map : SortedMap κ α) : List κ := map.toList.map (·.1)

/-- The values, in key order. -/
def values (map : SortedMap κ α) : List α := map.toList.map (·.2)

def get? (map : SortedMap κ α) (key : κ) : Option α :=
  (map.toList.find? fun entry => compare entry.1 key == .eq).map (·.2)

def contains (map : SortedMap κ α) (key : κ) : Bool := (map.get? key).isSome

/-- Places an entry into an increasing list, over an entry of the same key if there is one. -/
def insertEntry (key : κ) (value : α) : List (κ × α) → List (κ × α)
  | [] => [(key, value)]
  | entry :: rest =>
    match compare key entry.1 with
    | .lt => (key, value) :: entry :: rest
    | .eq => (key, value) :: rest
    | .gt => entry :: insertEntry key value rest

theorem mem_insertEntry {key : κ} {value : α} {entries : List (κ × α)} {entry : κ × α}
    (member : entry ∈ insertEntry key value entries) : entry = (key, value) ∨ entry ∈ entries := by
  induction entries with
  | nil => simpa [insertEntry] using member
  | cons first rest ih =>
    unfold insertEntry at member
    split at member
    · simpa using member
    · rcases List.mem_cons.1 member with equal | inRest
      · exact .inl equal
      · exact .inr (List.mem_cons_of_mem _ inRest)
    · rcases List.mem_cons.1 member with equal | inRest
      · exact .inr (equal ▸ List.mem_cons_self ..)
      · exact (ih inRest).imp id (List.mem_cons_of_mem _)

theorem increasing_insertEntry [Std.TransOrd κ] [Std.LawfulEqOrd κ] (key : κ) (value : α)
    {entries : List (κ × α)}
    (increasing : entries.Pairwise fun first second => compare first.1 second.1 = .lt) :
    (insertEntry key value entries).Pairwise
      fun first second => compare first.1 second.1 = .lt := by
  induction entries with
  | nil => simp [insertEntry]
  | cons first rest ih =>
    obtain ⟨above, restIncreasing⟩ := List.pairwise_cons.1 increasing
    unfold insertEntry
    split
    · rename_i below
      refine List.pairwise_cons.2 ⟨fun entry member => ?_, increasing⟩
      rcases List.mem_cons.1 member with equal | inRest
      · exact equal ▸ below
      · exact Std.TransCmp.lt_trans below (above entry inRest)
    · rename_i equal
      have same : key = first.1 := Std.LawfulEqOrd.eq_of_compare equal
      exact List.pairwise_cons.2 ⟨fun entry member => same ▸ above entry member, restIncreasing⟩
    · rename_i greater
      refine List.pairwise_cons.2 ⟨fun entry member => ?_, ih restIncreasing⟩
      rcases mem_insertEntry member with equal | inRest
      · exact equal ▸ Std.OrientedCmp.gt_iff_lt.1 greater
      · exact above entry inRest

/-- The map with `value` under `key`, whatever was there before. -/
def insert [Std.TransOrd κ] [Std.LawfulEqOrd κ] (map : SortedMap κ α) (key : κ) (value : α) :
    SortedMap κ α :=
  ⟨insertEntry key value map.toList, increasing_insertEntry key value map.increasing⟩

def filter (map : SortedMap κ α) (keep : κ → α → Bool) : SortedMap κ α :=
  ⟨map.toList.filter fun entry => keep entry.1 entry.2, map.increasing.filter _⟩

def erase (map : SortedMap κ α) (key : κ) : SortedMap κ α :=
  map.filter fun other _ => compare other key != .eq

/-- Entries added one after the other: of two with the same key the later one stays. -/
def ofList [Std.TransOrd κ] [Std.LawfulEqOrd κ] (entries : List (κ × α)) : SortedMap κ α :=
  entries.foldl (fun map entry => map.insert entry.1 entry.2) empty

@[simp] theorem toList_insert [Std.TransOrd κ] [Std.LawfulEqOrd κ] (map : SortedMap κ α)
    (key : κ) (value : α) : (map.insert key value).toList = insertEntry key value map.toList := rfl

@[simp] theorem get?_empty (key : κ) : (empty : SortedMap κ α).get? key = none := rfl

theorem get?_insert_self [Std.TransOrd κ] [Std.LawfulEqOrd κ] (map : SortedMap κ α)
    (key : κ) (value : α) : (map.insert key value).get? key = some value := by
  have find : ∀ entries : List (κ × α),
      (insertEntry key value entries).find? (fun entry => compare entry.1 key == .eq) =
        some (key, value) := by
    intro entries
    induction entries with
    | nil => simp [insertEntry, Std.ReflOrd.compare_self]
    | cons first rest ih =>
      unfold insertEntry
      split
      · simp [Std.ReflOrd.compare_self]
      · simp [Std.ReflOrd.compare_self]
      · rename_i greater
        have below : compare first.1 key = .lt := Std.OrientedCmp.gt_iff_lt.1 greater
        simp [below, ih]
  simp [get?, find]

theorem get?_insert_of_ne [Std.TransOrd κ] [Std.LawfulEqOrd κ] (map : SortedMap κ α)
    {key other : κ} (differs : other ≠ key) (value : α) :
    (map.insert key value).get? other = map.get? other := by
  have apart : (compare key other == .eq) = false := by
    simpa using fun equal => differs (Std.LawfulEqOrd.eq_of_compare equal).symm
  have find : ∀ entries : List (κ × α),
      (insertEntry key value entries).find? (fun entry => compare entry.1 other == .eq) =
        entries.find? (fun entry => compare entry.1 other == .eq) := by
    intro entries
    induction entries with
    | nil => simp [insertEntry, apart]
    | cons first rest ih =>
      unfold insertEntry
      split
      · simp [List.find?_cons, apart]
      · rename_i equal
        have same : key = first.1 := Std.LawfulEqOrd.eq_of_compare equal
        simp [apart, ← same]
      · simp [List.find?_cons, ih]
  simp [get?, find]

end SortedMap

end BatchRun
