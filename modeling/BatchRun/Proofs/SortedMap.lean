import BatchRun.SortedMap
import Mathlib.Data.List.Sort

/-! # Looking things up in maps

What a lookup finds after each operation, and what the list of values has to do with lookups. The
entries of a map strictly increase, so a lookup and membership in the list of entries are the same.
-/

namespace BatchRun.SortedMap

variable {κ α : Type} [Ord κ] [Std.LawfulEqOrd κ] {map : SortedMap κ α}

private theorem find?_eq_some_of_mem {entries : List (κ × α)} {key : κ} {value : α}
    (increasing : entries.Pairwise fun first second => compare first.1 second.1 = .lt)
    (member : (key, value) ∈ entries) :
    entries.find? (fun entry => compare entry.1 key == .eq) = some (key, value) := by
  induction entries with
  | nil => exact absurd member (List.not_mem_nil)
  | cons first rest ih =>
    obtain ⟨above, restIncreasing⟩ := List.pairwise_cons.1 increasing
    rcases List.mem_cons.1 member with equal | inRest
    · subst equal
      simp [Std.ReflOrd.compare_self]
    · have below : compare first.1 key = .lt := above _ inRest
      rw [List.find?_cons_of_neg (by simp [below])]
      exact ih restIncreasing inRest

/-- A lookup finds exactly what stands in the list of entries. -/
theorem get?_eq_some_iff {key : κ} {value : α} :
    map.get? key = some value ↔ (key, value) ∈ map.toList := by
  constructor
  · intro found
    obtain ⟨entry, sought, same⟩ := Option.map_eq_some_iff.1 found
    have equal : entry.1 = key := by
      have hit := List.find?_some sought
      exact Std.LawfulEqOrd.eq_of_compare (by simpa using hit)
    have member := List.mem_of_find?_eq_some sought
    rw [← equal, ← same]
    exact member
  · intro member
    exact Option.map_eq_some_iff.2 ⟨_, find?_eq_some_of_mem map.increasing member, rfl⟩

/-- A lookup after an insertion. -/
theorem get?_insert [Std.TransOrd κ] [DecidableEq κ] (key other : κ) (value : α) :
    (map.insert key value).get? other = if other = key then some value else map.get? other := by
  split
  · rename_i equal
    rw [equal, get?_insert_self]
  · rename_i differs
    exact get?_insert_of_ne map differs value

/-- A lookup among the entries that satisfy a condition. -/
theorem get?_filter_eq_some_iff {keep : κ → α → Bool} {key : κ} {value : α} :
    (map.filter keep).get? key = some value ↔
      map.get? key = some value ∧ keep key value = true := by
  rw [get?_eq_some_iff, get?_eq_some_iff]
  exact List.mem_filter

/-- The values are what the lookups find. -/
theorem mem_values {value : α} : value ∈ map.values ↔ ∃ key, map.get? key = some value := by
  constructor
  · intro member
    obtain ⟨entry, inside, same⟩ := List.mem_map.1 member
    exact ⟨entry.1, get?_eq_some_iff.2 (same ▸ inside)⟩
  · rintro ⟨key, found⟩
    exact List.mem_map.2 ⟨_, get?_eq_some_iff.1 found, rfl⟩

/-- A map is empty if nothing is found in it. -/
theorem isEmpty_iff : map.isEmpty = true ↔ ∀ key, map.get? key = none := by
  constructor
  · intro vacant key
    refine Option.eq_none_iff_forall_ne_some.2 fun value found => ?_
    have member := get?_eq_some_iff.1 found
    rw [List.isEmpty_iff.1 vacant] at member
    exact absurd member List.not_mem_nil
  · intro absent
    refine List.isEmpty_iff.2 (List.eq_nil_iff_forall_not_mem.2 fun entry member => ?_)
    have found : map.get? entry.1 = some entry.2 := get?_eq_some_iff.2 member
    rw [absent] at found
    contradiction

/-! ## Maps with the same entries -/

/-- Two maps are the same if every lookup finds the same in both. -/
theorem ext_get? [Std.TransOrd κ] {first second : SortedMap κ α}
    (same : ∀ key, first.get? key = second.get? key) : first = second := by
  let below (one other : κ × α) : Prop := compare one.1 other.1 = .lt
  have irreflexive : Std.Irrefl below := ⟨fun entry => by simp [below, Std.ReflOrd.compare_self]⟩
  have antisymmetric : Std.Antisymm below := by
    refine ⟨fun one other left right => absurd (Std.TransCmp.lt_trans left right) ?_⟩
    simp [Std.ReflOrd.compare_self]
  refine ext (List.Pairwise.eq_of_mem_iff first.increasing second.increasing fun entry => ?_)
  rw [← get?_eq_some_iff, same, get?_eq_some_iff]

/-- What is told of the entries of two maps, their keys among it, is the same if the keys are the
same and it is the same under each key. -/
theorem map_toList_eq_iff {β : Type} (told : κ × α → β) (keyOf : β → κ)
    (recovers : ∀ entry, keyOf (told entry) = entry.1) {first second : SortedMap κ α} :
    first.toList.map told = second.toList.map told ↔
      first.keys = second.keys ∧ ∀ {key : κ} {one other : α}, first.get? key = some one →
        second.get? key = some other → told (key, one) = told (key, other) := by
  have keys_eq : ∀ map : SortedMap κ α, map.keys = (map.toList.map told).map keyOf := by
    intro map
    rw [List.map_map]
    exact List.map_congr_left fun entry _ => (recovers entry).symm
  constructor
  · intro same
    refine ⟨by rw [keys_eq, keys_eq, same], fun {key one other} found found' => ?_⟩
    have member : told (key, one) ∈ second.toList.map told :=
      same ▸ List.mem_map_of_mem (get?_eq_some_iff.1 found)
    obtain ⟨⟨key', other'⟩, inside, alike⟩ := List.mem_map.1 member
    obtain rfl : key' = key := by
      have equal := congrArg keyOf alike
      rwa [recovers, recovers] at equal
    rw [get?_eq_some_iff.2 inside] at found'
    rw [← alike, Option.some.inj found']
  · rintro ⟨sameKeys, alike⟩
    -- entries of the same place have the same key, so each is found under it in its own map
    have lengths : first.toList.length = second.toList.length := by
      simpa [keys] using congrArg List.length sameKeys
    refine List.ext_getElem (by simpa using lengths) fun place inside inside' => ?_
    rw [List.length_map] at inside inside'
    have sameKey : first.toList[place].1 = second.toList[place].1 := by
      have equal := congrArg (·[place]?) sameKeys
      simpa [keys, inside, inside'] using equal
    have found : first.get? first.toList[place].1 = some first.toList[place].2 :=
      get?_eq_some_iff.2 (List.getElem_mem inside)
    have found' : second.get? first.toList[place].1 = some second.toList[place].2 := by
      rw [sameKey]
      exact get?_eq_some_iff.2 (List.getElem_mem inside')
    rw [List.getElem_map, List.getElem_map]
    calc told first.toList[place] = told (first.toList[place].1, second.toList[place].2) :=
          alike found found'
      _ = told second.toList[place] := by rw [sameKey]

/-- Two maps have the same entries of some kind if lookups find the same ones. -/
theorem filter_eq_of_get? [Std.TransOrd κ] {first second : SortedMap κ α} {keep : κ → α → Bool}
    (same : ∀ key value, keep key value = true →
      (first.get? key = some value ↔ second.get? key = some value)) :
    first.filter keep = second.filter keep := by
  refine ext_get? fun key => Option.ext fun value => ?_
  rw [get?_filter_eq_some_iff, get?_filter_eq_some_iff]
  exact and_congr_left (same key value)

omit [Std.LawfulEqOrd κ] in
private theorem values_filter (map : SortedMap κ α) (keep : α → Bool) :
    (map.filter fun _ value => keep value).values = map.values.filter keep := by
  simp [values, filter, List.filter_map, Function.comp_def]

/-- Two maps have the same values of some kind, in the same order, if lookups find the same ones. -/
theorem filter_values_congr [Std.TransOrd κ] {first second : SortedMap κ α} {keep : α → Bool}
    (same : ∀ key value, keep value = true →
      (first.get? key = some value ↔ second.get? key = some value)) :
    first.values.filter keep = second.values.filter keep := by
  rw [← values_filter, ← values_filter, filter_eq_of_get? same]

/-- The values stand in the order of their keys. -/
theorem pairwise_values {related : α → α → Prop}
    (ordered : ∀ {key other value next}, map.get? key = some value → map.get? other = some next →
      compare key other = .lt → related value next) : map.values.Pairwise related := by
  refine List.pairwise_map.2 (map.increasing.imp_of_mem fun one other before => ?_)
  exact ordered (get?_eq_some_iff.2 one) (get?_eq_some_iff.2 other) before

/-! ## Keys -/

omit [Std.LawfulEqOrd κ] in
theorem pairwise_keys (map : SortedMap κ α) :
    map.keys.Pairwise fun first second => compare first second = .lt :=
  List.pairwise_map.2 map.increasing

private theorem mem_keys {key : κ} : key ∈ map.keys ↔ ∃ value, map.get? key = some value := by
  simp [keys, get?_eq_some_iff]

/-- The keys of entries added one after the other are those of the entries. -/
theorem mem_keys_ofList [Std.TransOrd κ] [DecidableEq κ] {entries : List (κ × α)} {key : κ} :
    key ∈ (ofList entries).keys ↔ ∃ value, (key, value) ∈ entries := by
  have added (map : SortedMap κ α) (entries : List (κ × α)) :
      key ∈ (entries.foldl (fun map entry => map.insert entry.1 entry.2) map).keys ↔
        key ∈ map.keys ∨ ∃ value, (key, value) ∈ entries := by
    induction entries generalizing map with
    | nil => simp
    | cons entry rest ih =>
      have inserted : key ∈ (map.insert entry.1 entry.2).keys ↔ key = entry.1 ∨ key ∈ map.keys := by
        rw [mem_keys, mem_keys, get?_insert]
        split <;> simp_all
      have listed : (∃ value, (key, value) ∈ entry :: rest) ↔
          key = entry.1 ∨ ∃ value, (key, value) ∈ rest := by
        simp [Prod.ext_iff, exists_or]
      rw [List.foldl_cons, ih, inserted, listed, or_assoc, or_left_comm]
  rw [ofList, added]
  simp [keys, empty]

/-! ## Maps made of entries -/

section OfList

variable [Std.TransOrd κ] [DecidableEq κ] {entries : List (κ × α)}

omit [DecidableEq κ] in
/-- Nothing gets into a map that is not among the entries it is made of. -/
theorem mem_of_mem_ofList {entry : κ × α} (member : entry ∈ (ofList entries).toList) :
    entry ∈ entries := by
  have added (map : SortedMap κ α) (entries : List (κ × α))
      (member : entry ∈ (entries.foldl (fun map entry => map.insert entry.1 entry.2) map).toList) :
      entry ∈ map.toList ∨ entry ∈ entries := by
    induction entries generalizing map with
    | nil => exact .inl member
    | cons first rest ih =>
      rcases ih _ member with before | inRest
      · rcases mem_insertEntry before with rfl | old
        · exact .inr (List.mem_cons_self ..)
        · exact .inl old
      · exact .inr (List.mem_cons_of_mem _ inRest)
  exact (added empty entries member).resolve_left List.not_mem_nil

/-- Of entries with different keys every one is found. -/
theorem get?_ofList (distinct : (entries.map Prod.fst).Nodup) (key : κ) :
    (ofList entries).get? key = entries.lookup key := by
  have added (map : SortedMap κ α) :
      (entries.foldl (fun map entry => map.insert entry.1 entry.2) map).get? key =
        (entries.lookup key).or (map.get? key) := by
    induction entries generalizing map with
    | nil => rfl
    | cons entry rest ih =>
      obtain ⟨first, value⟩ := entry
      obtain ⟨fresh, distinct⟩ := List.nodup_cons.1 distinct
      rw [List.foldl_cons, ih distinct, get?_insert, List.lookup_cons]
      by_cases same : key = first
      · subst same
        have absent : rest.lookup key = none := by
          rw [List.lookup_eq_none_iff]
          intro other member
          simpa using fun equal => fresh (List.mem_map.2 ⟨other, member, equal.symm⟩)
        simp [absent]
      · rw [if_neg same, beq_false_of_ne same]
  rw [ofList, added, get?_empty, Option.or_none]

omit [Std.TransOrd κ] [DecidableEq κ] in
private theorem nodup_of_increasing
    (increasing : entries.Pairwise fun first second => compare first.1 second.1 = .lt) :
    (entries.map Prod.fst).Nodup := by
  refine List.pairwise_map.2 (increasing.imp fun {first second} before same => ?_)
  rw [same, Std.ReflOrd.compare_self] at before
  contradiction

/-- In a list with different keys a lookup by equality finds what the map of its entries does. -/
theorem lookup_eq_get? (map : SortedMap κ α) (key : κ) : map.toList.lookup key = map.get? key := by
  obtain ⟨entries, increasing⟩ := map
  unfold get?
  induction entries with
  | nil => rfl
  | cons entry rest ih =>
    obtain ⟨first, value⟩ := entry
    rw [List.lookup_cons, List.find?_cons]
    by_cases same : key = first
    · subst same
      simp [Std.ReflOrd.compare_self]
    · have apart : (compare first key == .eq) = false := by
        simpa using fun equal => same (Std.LawfulEqOrd.eq_of_compare equal).symm
      rw [beq_false_of_ne same, apart]
      exact ih (List.pairwise_cons.1 increasing).2

omit [Std.TransOrd κ] in
/-- At most one entry has a given key. -/
theorem filter_toList_key (map : SortedMap κ α) (key : κ) :
    (map.toList.filter fun entry => entry.1 == key) =
      ((map.get? key).map fun value => (key, value)).toList := by
  have single {entries : List (κ × α)} {value : α} (member : (key, value) ∈ entries)
      (distinct : (entries.map Prod.fst).Nodup) :
      (entries.filter fun entry => entry.1 == key) = [(key, value)] := by
    induction entries with
    | nil => exact absurd member List.not_mem_nil
    | cons entry rest ih =>
      obtain ⟨fresh, distinct⟩ := List.nodup_cons.1 distinct
      rcases List.mem_cons.1 member with rfl | inRest
      · have others : (rest.filter fun entry => entry.1 == key) = [] := by
          rw [List.filter_eq_nil_iff]
          intro other member
          simpa using fun equal => fresh (List.mem_map.2 ⟨other, member, equal⟩)
        simp [others]
      · have differs : entry.1 ≠ key := fun equal =>
          fresh (List.mem_map.2 ⟨_, inRest, equal.symm⟩)
        rw [List.filter_cons_of_neg (by simpa using differs)]
        exact ih inRest distinct
  cases found : map.get? key with
  | some value =>
    exact single (get?_eq_some_iff.1 found) (nodup_of_increasing map.increasing)
  | none =>
    refine List.filter_eq_nil_iff.2 fun entry member here => ?_
    have present : map.get? key = some entry.2 :=
      get?_eq_some_iff.2 (by simpa [← beq_iff_eq.1 here])
    rw [found] at present
    contradiction

/-- Entries whose keys increase stay as they are. -/
theorem ofList_toList (map : SortedMap κ α) : ofList map.toList = map :=
  ext_get? fun key => (get?_ofList (nodup_of_increasing map.increasing) key).trans
    (map.lookup_eq_get? key)

end OfList

/-! ## Values seen through a function -/

section Map

variable {β : Type} (tell : α → β)

/-- The map with what is told of each value in its place. -/
def mapValues (source : SortedMap κ α) : SortedMap κ β :=
  ⟨source.toList.map fun entry => (entry.1, tell entry.2), List.pairwise_map.2 source.increasing⟩

variable (source : SortedMap κ α) {key : κ}

omit [Std.LawfulEqOrd κ] in
@[simp] theorem get?_mapValues : (source.mapValues tell).get? key = (source.get? key).map tell := by
  have sought (entries : List (κ × α)) :
      ((entries.map fun entry => (entry.1, tell entry.2)).find?
        fun entry => compare entry.1 key == .eq) =
      (entries.find? fun entry => compare entry.1 key == .eq).map
        fun entry => (entry.1, tell entry.2) := by
    rw [List.find?_map]
    rfl
  unfold get? mapValues
  rw [sought, Option.map_map, Option.map_map]
  rfl

omit [Std.LawfulEqOrd κ] in
@[simp] theorem contains_mapValues :
    (source.mapValues tell).contains key = source.contains key := by
  simp [contains]

omit [Std.LawfulEqOrd κ] in
@[simp] theorem values_mapValues : (source.mapValues tell).values = source.values.map tell := by
  simp [values, mapValues]

omit [Std.LawfulEqOrd κ] in
@[simp] theorem isEmpty_mapValues : (source.mapValues tell).isEmpty = source.isEmpty := by
  simp [isEmpty, mapValues]

/-- A value is seen the same before and after it is inserted. -/
theorem mapValues_insert [Std.TransOrd κ] [DecidableEq κ] (key : κ) (value : α) :
    (source.insert key value).mapValues tell = (source.mapValues tell).insert key (tell value) := by
  refine ext_get? fun other => ?_
  rw [get?_mapValues, get?_insert, get?_insert, get?_mapValues]
  split <;> rfl

omit [Std.LawfulEqOrd κ] in
/-- A condition that what is told decides. -/
theorem mapValues_filter {keep : κ → α → Bool} {kept : κ → β → Bool}
    (same : ∀ key value, kept key (tell value) = keep key value) :
    (source.filter keep).mapValues tell = (source.mapValues tell).filter kept := by
  refine ext ?_
  simp [mapValues, filter, List.filter_map, Function.comp_def, same]

end Map

end BatchRun.SortedMap
