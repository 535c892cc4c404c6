import BatchRun.Proofs.Context.Entries
import BatchRun.Proofs.Json.Equality
import Mathlib.Data.List.Induction

/-! # When a context is dirty

A context is edited in any way from the time it is made. It is dirty just in case that one of the
edits since it was made, or since the flag was last cleared, has changed the entries: an edit that
leaves them equal leaves the flag as well. A context that is not dirty has the entries of that time.
-/

namespace BatchRun

open Json

/-! ## Edits -/

/-- What can be done to a context. -/
inductive ContextEdit : Type 1
  | put {α : Type} [JsonEncode α] (name : String) (value : α)
  | putValue (name : String) (value : Json)
  | putString (name text : String)
  | putLong (name : String) (number : Int64)
  | remove (name : String)
  | clearDirty

namespace ContextEdit

/-- The entry that is to be written, if there is one. -/
def written? : ContextEdit → Option (String × Json)
  | put name value => (encode? value).map fun json => (name, json)
  | putValue name value => some (name, value)
  | putString name text => some (name, .string text)
  | putLong name number => some (name, .integer number.toInt)
  | remove _ => none
  | clearDirty => none

/-- All doubles in the value that is to be written are finite. -/
def AllFinite (edit : ContextEdit) : Prop :=
  ∀ name json, edit.written? = some (name, json) → json.AllFinite

/-- The context after an edit. A value without a JSON form is not written. -/
def apply (context : ExecutionContext) : ContextEdit → ExecutionContext
  | put name value =>
    match context.put name value with
    | .ok after => after
    | .error _ => context
  | putValue name value => context.putValue name value
  | putString name text => context.putValue name (.string text)
  | putLong name number => context.putValue name (.integer number.toInt)
  | remove name => context.remove name
  | clearDirty => context.clearDirty

/-- The context after some edits. -/
def applyAll (context : ExecutionContext) (edits : List ContextEdit) : ExecutionContext :=
  edits.foldl apply context

private theorem applyAll_concat (context : ExecutionContext) (edits : List ContextEdit)
    (edit : ContextEdit) :
    applyAll context (edits ++ [edit]) = edit.apply (applyAll context edits) := by
  simp [applyAll]

/-- The edit changes the entries of the context. -/
def Changes (context : ExecutionContext) (edit : ContextEdit) : Prop :=
  (context == edit.apply context) = false

/-- Some edit since the flag was last cleared, or of all if it never was, changes the entries. -/
def ChangedSinceCleared (context : ExecutionContext) (edits : List ContextEdit) : Prop :=
  ∃ former edit later, edits = former ++ edit :: later ∧
    Changes (applyAll context former) edit ∧ ∀ other ∈ later, other ≠ clearDirty

/-- Edits that have nothing to do: a value without a JSON form, a value that equals the one that is
there, and the removal of what is not there. -/
inductive Idle (context : ExecutionContext) : ContextEdit → Prop
  | formless {α : Type} [JsonEncode α] {name : String} {value : α}
      (unencoded : encode? value = none) : Idle context (.put name value)
  | equal {edit : ContextEdit} {name : String} {json present : Json}
      (writes : edit.written? = some (name, json)) (found : context.value? name = some present)
      (same : (present == json) = true) : Idle context edit
  | absent {name : String} (missing : context.value? name = none) : Idle context (.remove name)

/-- An edit writes an entry, removes one, clears the flag, or is given no JSON form to write. -/
theorem apply_kinds (context : ExecutionContext) (edit : ContextEdit) :
    (∃ name json, edit.written? = some (name, json) ∧
      edit.apply context = context.putValue name json) ∨
    (∃ name, edit = .remove name) ∨ edit = .clearDirty ∨
    (Idle context edit ∧ edit.apply context = context) := by
  cases edit with
  | put name value =>
    cases encoded : encode? value with
    | none =>
      refine .inr (.inr (.inr ⟨.formless encoded, ?_⟩))
      simp only [apply, ExecutionContext.put, encoded]
    | some json =>
      refine .inl ⟨name, json, ?_, ?_⟩
      · simp only [written?, encoded, Option.map_some]
      · simp only [apply, ExecutionContext.put, encoded]
  | putValue name value => exact .inl ⟨name, value, rfl, rfl⟩
  | putString name text => exact .inl ⟨name, .string text, rfl, rfl⟩
  | putLong name number => exact .inl ⟨name, .integer number.toInt, rfl, rfl⟩
  | remove name => exact .inr (.inl ⟨name, rfl⟩)
  | clearDirty => exact .inr (.inr (.inl rfl))

end ContextEdit

/-! ## One edit -/

namespace ExecutionContext

open ContextEdit

variable {context after : ExecutionContext} {edit : ContextEdit}

/-- All doubles in the values are finite. -/
def AllFinite (context : ExecutionContext) : Prop :=
  ∀ entry ∈ context.entries.toList, entry.2.AllFinite

private theorem AllFinite.beq_self (finite : context.AllFinite) : (context == context) = true :=
  sameMembers_self _ (allFiniteMembers_iff.2 finite)

/-- Contexts differ if the values under some name do. -/
theorem beq_eq_false_of_value? (name : String)
    (differ : ¬ Option.Rel (fun one other => (one == other) = true)
      (context.value? name) (after.value? name)) : (context == after) = false :=
  Bool.eq_false_iff.2 fun equal => differ (rel_of_sameMembers equal name)

private theorem beq_insert_eq_false {name : String} {json : Json}
    (unequal : ∀ present, context.value? name = some present → (present == json) = false) :
    (context == ⟨context.entries.insert name json, true⟩) = false := by
  apply beq_eq_false_of_value? name
  rw [value?_insert_self]
  intro related
  cases found : context.value? name with
  | none =>
    rw [found] at related
    cases related
  | some present =>
    rw [found] at related
    cases related with
    | some same => exact Bool.false_ne_true ((unequal present found).symm.trans same)

private theorem beq_erase_eq_false {name : String} {present : Json}
    (found : context.value? name = some present) :
    (context == ⟨context.entries.erase name, true⟩) = false := by
  apply beq_eq_false_of_value? name
  rw [found, value?_erase_self]
  rintro ⟨⟩

/-- Edits with finite numbers leave only such numbers. -/
theorem AllFinite.apply (finite : context.AllFinite) (proper : edit.AllFinite) :
    (edit.apply context).AllFinite := by
  rcases apply_kinds context edit with
    ⟨name, json, writes, applied⟩ | ⟨name, rfl⟩ | rfl | ⟨-, kept⟩
  · rw [applied]
    rcases context.putValue_cases name json with ⟨-, -, -, kept⟩ | ⟨-, written⟩
    · rwa [kept]
    · rw [written]
      intro entry member
      rcases SortedMap.mem_insertEntry member with rfl | old
      · exact proper _ _ writes
      · exact finite entry old
  · change (context.remove name).AllFinite
    cases found : context.value? name with
    | none => rwa [remove_of_absent found]
    | some =>
      rw [remove_of_present found]
      exact fun entry member => finite entry (List.mem_of_mem_filter member)
  · exact finite
  · rwa [kept]

/-- An edit clears the flag, has nothing to do, or changes the entries and sets the flag. -/
theorem apply_cases (context : ExecutionContext) (edit : ContextEdit) :
    edit = .clearDirty ∨ (Idle context edit ∧ edit.apply context = context) ∨
      Changes context edit ∧ (edit.apply context).dirty = true := by
  rcases apply_kinds context edit with
    ⟨name, json, writes, applied⟩ | ⟨name, rfl⟩ | clears | idle
  · unfold Changes
    rw [applied]
    rcases context.putValue_cases name json with
      ⟨present, found, same, kept⟩ | ⟨unequal, written⟩
    · exact .inr (.inl ⟨.equal writes found same, kept⟩)
    · rw [written]
      exact .inr (.inr ⟨beq_insert_eq_false unequal, rfl⟩)
  · unfold Changes
    change _ ∨ (_ ∧ context.remove name = _) ∨
      (context == context.remove name) = false ∧ (context.remove name).dirty = true
    cases found : context.value? name with
    | none => exact .inr (.inl ⟨.absent found, remove_of_absent found⟩)
    | some =>
      rw [remove_of_present found]
      exact .inr (.inr ⟨beq_erase_eq_false found, rfl⟩)
  · exact .inl clears
  · exact .inr (.inl idle)

/-- An edit that has nothing to do leaves the context, and its flag, as it is. -/
theorem apply_of_idle (idle : Idle context edit) : edit.apply context = context := by
  cases idle with
  | formless unencoded => simp only [apply, put, unencoded]
  | @equal _ name json present writes found same =>
    rcases apply_kinds context edit with
      ⟨name', json', writes', applied⟩ | ⟨_, rfl⟩ | rfl | ⟨-, unchanged⟩
    · obtain ⟨rfl, rfl⟩ := Prod.mk.inj (Option.some.inj (writes.symm.trans writes'))
      rw [applied, putValue_of_equal found same]
    · contradiction
    · contradiction
    · exact unchanged
  | absent missing => exact remove_of_absent missing

private theorem ne_clearDirty_of_idle (idle : Idle context edit) : edit ≠ .clearDirty := by
  rintro rfl
  cases idle with
  | equal writes => contradiction

/-- An edit that keeps the entries does not change them. -/
theorem AllFinite.not_changes (finite : context.AllFinite)
    (kept : (edit.apply context).entries = context.entries) : ¬ Changes context edit := by
  have equal : (context == edit.apply context) = true := by
    change sameMembers context.entries.toList (edit.apply context).entries.toList = true
    rw [kept]
    exact finite.beq_self
  simp [Changes, equal]

/-! ## Many edits -/

variable {edits later : List ContextEdit}

private theorem AllFinite.applyAll (finite : context.AllFinite)
    (proper : ∀ edit ∈ edits, edit.AllFinite) : (applyAll context edits).AllFinite := by
  induction edits generalizing context with
  | nil => exact finite
  | cons first rest ih =>
    obtain ⟨properFirst, properRest⟩ := List.forall_mem_cons.1 proper
    exact ih (finite.apply properFirst) properRest

private theorem changedSinceCleared_concat :
    ChangedSinceCleared context (edits ++ [edit]) ↔ Changes (applyAll context edits) edit ∨
      edit ≠ .clearDirty ∧ ChangedSinceCleared context edits := by
  constructor
  · rintro ⟨former, changing, later, split, changes, uncleared⟩
    induction later using List.reverseRecOn with
    | nil =>
      obtain ⟨rfl, same⟩ := List.append_inj' split rfl
      obtain rfl := List.singleton_inj.1 same
      exact .inl changes
    | append_singleton later last =>
      rw [← List.cons_append, ← List.append_assoc] at split
      obtain ⟨rfl, same⟩ := List.append_inj' split rfl
      obtain rfl := List.singleton_inj.1 same
      exact .inr ⟨uncleared _ (by simp), former, changing, later, rfl, changes,
        fun other member => uncleared other (List.mem_append_left _ member)⟩
  · rintro (changes | ⟨uncleared, former, changing, later, rfl, changes, others⟩)
    · exact ⟨edits, edit, [], rfl, changes, List.forall_mem_nil _⟩
    · refine ⟨former, changing, later ++ [edit], by simp, changes, ?_⟩
      intro other member
      rcases List.mem_append.1 member with before | last
      · exact others other before
      · rwa [List.mem_singleton.1 last]

/-- The flag is set just in case that some edit since it was cleared has changed the entries. -/
theorem dirty_applyAll_iff (made : context.dirty = false) (finite : context.AllFinite)
    (proper : ∀ edit ∈ edits, edit.AllFinite) :
    (applyAll context edits).dirty = true ↔ ChangedSinceCleared context edits := by
  induction edits using List.reverseRecOn with
  | nil =>
    constructor
    · intro set
      exact absurd (made.symm.trans set) Bool.false_ne_true
    · rintro ⟨former, edit, later, split, -⟩
      simp at split
  | append_singleton edits edit ih =>
    have properBefore : ∀ other ∈ edits, other.AllFinite :=
      fun other member => proper other (List.mem_append_left _ member)
    have finiteBefore := finite.applyAll properBefore
    rw [applyAll_concat, changedSinceCleared_concat, ← ih properBefore]
    rcases apply_cases (applyAll context edits) edit with rfl | ⟨idle, kept⟩ | ⟨changes, set⟩
    · have unchanged : ¬ Changes (applyAll context edits) .clearDirty :=
        finiteBefore.not_changes rfl
      simp [unchanged, ContextEdit.apply, clearDirty]
    · have unchanged := finiteBefore.not_changes (congrArg entries kept)
      simp [kept, unchanged, ne_clearDirty_of_idle idle]
    · exact iff_of_true set (.inl changes)

/-- As long as the flag is not set, the context is as it was when it was cleared. -/
theorem applyAll_of_not_dirty (former : List ContextEdit)
    (uncleared : ∀ edit ∈ later, edit ≠ .clearDirty)
    (clean : (applyAll context (former ++ later)).dirty = false) :
    applyAll context (former ++ later) = applyAll context former := by
  induction later using List.reverseRecOn with
  | nil => rw [List.append_nil]
  | append_singleton later edit ih =>
    rw [← List.append_assoc, applyAll_concat] at clean ⊢
    rcases apply_cases (applyAll context (former ++ later)) edit with
      rfl | ⟨-, kept⟩ | ⟨-, set⟩
    · exact absurd rfl (uncleared _ (by simp))
    · rw [kept] at clean ⊢
      exact ih (fun other member => uncleared other (List.mem_append_left _ member)) clean
    · exact absurd (set.symm.trans clean) (by decide)

/-- However a context is edited after it has been made of some entries, it is dirty just in case
that an edit has changed the entries since the flag was last cleared. As long as it is not, the
context is as it was then. What has nothing to do changes neither the entries nor the flag, and
whatever else is written or removed changes the entries. -/
theorem dirty_iff_changed (entries : SortedMap String Json) (edits : List ContextEdit)
    (finite : (ofEntries entries).AllFinite) (proper : ∀ edit ∈ edits, edit.AllFinite) :
    ((applyAll (ofEntries entries) edits).dirty = true ↔
      ChangedSinceCleared (ofEntries entries) edits) ∧
    (∀ former later, edits = former ++ later → (∀ edit ∈ later, edit ≠ .clearDirty) →
      (applyAll (ofEntries entries) edits).dirty = false →
      applyAll (ofEntries entries) edits = applyAll (ofEntries entries) former) ∧
    ∀ context edit, (Idle context edit → edit.apply context = context) ∧
      (¬ Idle context edit → edit ≠ .clearDirty → Changes context edit) := by
  refine ⟨dirty_applyAll_iff rfl finite proper, ?clean, fun context edit => ⟨apply_of_idle, ?busy⟩⟩
  case clean =>
    rintro former later rfl uncleared clean
    exact applyAll_of_not_dirty former uncleared clean
  case busy =>
    intro busy uncleared
    rcases apply_cases context edit with clears | ⟨idle, -⟩ | ⟨changes, -⟩
    · exact absurd clears uncleared
    · exact absurd idle busy
    · exact changes

/-- A share of zero. -/
def shares : SortedMap String Json := .ofList [("share", .double (.ofBits 0))]

/-- After the flag has been cleared, the same count is written again, and the other zero. -/
def recount : List ContextEdit :=
  [.putLong "count" 1, .clearDirty, .putLong "count" 1,
    .putValue "share" (.double (.ofBits 0x8000000000000000))]

/-- Nothing has changed when the count is written again, until it is removed. -/
theorem dirty_iff_changed_recount :
    (ofEntries shares).AllFinite ∧
      (∀ edit ∈ recount ++ [.remove "count"], edit.AllFinite) ∧
      (∀ edit ∈ recount.drop 2, edit ≠ .clearDirty) ∧
      (applyAll (ofEntries shares) recount).dirty = false ∧
      applyAll (ofEntries shares) recount = applyAll (ofEntries shares) (recount.take 2) ∧
      (applyAll (ofEntries shares) (recount ++ [.remove "count"])).dirty = true := by
  have finite : (ofEntries shares).AllFinite := by
    simp only [ExecutionContext.AllFinite, ofEntries, shares, SortedMap.ofList, List.foldl_cons,
      List.foldl_nil, SortedMap.toList_insert, SortedMap.empty, SortedMap.insertEntry,
      List.forall_mem_singleton, Json.AllFinite]
    decide +kernel
  have proper : ∀ edit ∈ recount ++ [.remove "count"], edit.AllFinite := by
    have zero : (Float.ofBits 0x8000000000000000).isFinite := by decide +kernel
    simp [recount, ContextEdit.AllFinite, written?, Json.AllFinite, zero]
  have uncleared : ∀ edit ∈ recount.drop 2, edit ≠ .clearDirty := by
    simp [recount]
  have clean : (applyAll (ofEntries shares) recount).dirty = false := by decide +kernel
  have removed : Changes (applyAll (ofEntries shares) recount) (.remove "count") := by
    unfold Changes
    decide +kernel
  have earlier := dirty_iff_changed shares recount finite
    fun edit member => proper edit (List.mem_append_left _ member)
  have whole := dirty_iff_changed shares (recount ++ [.remove "count"]) finite proper
  exact ⟨finite, proper, uncleared, clean, earlier.2.1 (recount.take 2) _ rfl uncleared clean,
    whole.1.2 ⟨recount, _, [], rfl, removed, List.forall_mem_nil _⟩⟩

end ExecutionContext

end BatchRun
