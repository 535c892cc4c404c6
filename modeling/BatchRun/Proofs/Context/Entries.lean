import BatchRun.Context.Basic
import BatchRun.Proofs.SortedMap

/-! # The entries of a context

A write puts a value under its name unless an equal one is there, and a removal takes away what is
there. Entries under other names stay, and what comes of a write depends on the entry under its own
name only.
-/

namespace BatchRun.ExecutionContext

variable {context other after : ExecutionContext} {name key : String} {json present : Json}

/-! ## Writes -/

/-- An equal value is left in place. -/
theorem putValue_of_equal (found : context.value? name = some present)
    (equal : (present == json) = true) : context.putValue name json = context := by
  unfold putValue
  simp only [found, if_pos equal]

private theorem putValue_of_unequal
    (unequal : ∀ present, context.value? name = some present → (present == json) = false) :
    context.putValue name json = ⟨context.entries.insert name json, true⟩ := by
  unfold putValue
  cases found : context.value? name with
  | none => rfl
  | some present => simp only [unequal present found, if_neg Bool.false_ne_true]

/-- A value is written unless an equal one is there. -/
theorem putValue_cases (context : ExecutionContext) (name : String) (json : Json) :
    (∃ present, context.value? name = some present ∧ (present == json) = true ∧
      context.putValue name json = context) ∨
    (∀ present, context.value? name = some present → (present == json) = false) ∧
      context.putValue name json = ⟨context.entries.insert name json, true⟩ := by
  by_cases equal : ∃ present, context.value? name = some present ∧ (present == json) = true
  · obtain ⟨present, found, same⟩ := equal
    exact .inl ⟨present, found, same, putValue_of_equal found same⟩
  · have unequal present (found : context.value? name = some present) :
        (present == json) = false :=
      Bool.eq_false_iff.2 fun same => equal ⟨present, found, same⟩
    exact .inr ⟨unequal, putValue_of_unequal unequal⟩

@[simp] theorem value?_insert_self (context : ExecutionContext) (name : String) (json : Json)
    (dirty : Bool) : value? ⟨context.entries.insert name json, dirty⟩ name = some json :=
  SortedMap.get?_insert_self ..

/-- Under the name stands the value that is written or the one that equals it. -/
theorem value?_putValue (context : ExecutionContext) (name : String) (json : Json) :
    ∃ kept, (context.putValue name json).value? name = some kept ∧
      (kept = json ∨ (kept == json) = true) := by
  rcases context.putValue_cases name json with ⟨present, found, same, kept⟩ | ⟨-, written⟩
  · exact ⟨present, by rw [kept, found], .inr same⟩
  · exact ⟨json, by rw [written, value?_insert_self], .inl rfl⟩

private theorem value?_putValue_of_ne (differs : key ≠ name) :
    (context.putValue name json).value? key = context.value? key := by
  rcases context.putValue_cases name json with ⟨-, -, -, kept⟩ | ⟨-, written⟩
  · rw [kept]
  · rw [written]
    exact SortedMap.get?_insert_of_ne _ differs _

/-- A written value leaves what stands under other names. -/
theorem value?_of_put {α : Type} [JsonEncode α] {value : α}
    (written : context.put name value = .ok after) (differs : key ≠ name) :
    after.value? key = context.value? key := by
  unfold put at written
  cases encoded : encode? value with
  | none => simp [encoded] at written
  | some json =>
    simp only [encoded, Except.ok.injEq] at written
    rw [← written]
    exact value?_putValue_of_ne differs

/-! ## Contexts with the same entry -/

/-- To read a value takes nothing but the entry of that name. -/
theorem get_congr {α : Type} [JsonDecode α] (same : context.value? name = other.value? name) :
    context.get (α := α) name = other.get name := by
  unfold get
  rw [same]

private theorem value?_putValue_congr (same : context.value? name = other.value? name)
    (json : Json) :
    (context.putValue name json).value? name = (other.putValue name json).value? name := by
  rcases context.putValue_cases name json with ⟨present, found, equal, kept⟩ | ⟨unequal, written⟩
  · rw [kept, putValue_of_equal (same.symm.trans found) equal, same]
  · rw [same] at unequal
    rw [written, putValue_of_unequal unequal, value?_insert_self, value?_insert_self]

/-- Writing a value fails for contexts of any kind, or leaves the same under its name where the same
was there. -/
theorem put_congr {α : Type} [JsonEncode α] (same : context.value? name = other.value? name)
    (value : α) :
    (∃ error, context.put name value = .error error ∧ other.put name value = .error error) ∨
    ∃ after after', context.put name value = .ok after ∧ other.put name value = .ok after' ∧
      after.value? name = after'.value? name := by
  unfold put
  cases encode? value with
  | none => exact .inl ⟨_, rfl, rfl⟩
  | some json => exact .inr ⟨_, _, rfl, rfl, value?_putValue_congr same json⟩

/-! ## Removals -/

/-- To remove nothing changes nothing. -/
theorem remove_of_absent (missing : context.value? name = none) :
    context.remove name = context := by
  have absent : context.contains name = false := by
    change (context.value? name).isSome = false
    rw [missing, Option.isSome_none]
  unfold remove
  rw [absent, if_neg Bool.false_ne_true]

theorem remove_of_present (found : context.value? name = some present) :
    context.remove name = ⟨context.entries.erase name, true⟩ := by
  have there : context.contains name = true := by
    change (context.value? name).isSome = true
    rw [found, Option.isSome_some]
  unfold remove
  rw [if_pos there]

@[simp] theorem value?_erase_self (context : ExecutionContext) (name : String) (dirty : Bool) :
    value? ⟨context.entries.erase name, dirty⟩ name = none := by
  refine Option.eq_none_iff_forall_ne_some.2 fun value kept => ?_
  have apart := (SortedMap.get?_filter_eq_some_iff.1 kept).2
  simp [Std.ReflOrd.compare_self] at apart

end BatchRun.ExecutionContext
