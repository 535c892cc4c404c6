import BatchRun.Json.Basic
import BatchRun.SortedMap

/-! # Equal JSON values

JSON has no text for infinity or for what is no number, so all doubles in a JSON value are finite.
Such a value is equal to itself. Equal objects have equal values under each name.
-/

namespace BatchRun.Json

/-! ## Finite values -/

mutual

/-- All doubles in the value are finite. -/
def AllFinite : Json → Prop
  | .double number => number.isFinite
  | .array items => AllFiniteItems items
  | .object members => AllFiniteMembers members
  | _ => True

def AllFiniteItems : List Json → Prop
  | [] => True
  | item :: items => item.AllFinite ∧ AllFiniteItems items

def AllFiniteMembers : List (String × Json) → Prop
  | [] => True
  | (_, value) :: members => value.AllFinite ∧ AllFiniteMembers members

end

theorem allFiniteMembers_iff {members : List (String × Json)} :
    AllFiniteMembers members ↔ ∀ member ∈ members, member.2.AllFinite := by
  induction members with
  | nil => simp [AllFiniteMembers]
  | cons member rest ih => rw [AllFiniteMembers, ih, List.forall_mem_cons]

private theorem double_beq_self {number : Float} (finite : number.isFinite) :
    (number == number) = true := by
  unfold Float.isFinite Float.Model.isFinite at finite
  change (number.toModel.unpack.compare number.toModel.unpack == some .eq) = true
  cases unpacked : number.toModel.unpack with
  | notANumber =>
    rw [unpacked] at finite
    exact absurd finite Bool.false_ne_true
  | infinity sign =>
    rw [unpacked] at finite
    exact absurd finite Bool.false_ne_true
  | zero sign => rfl
  | finite sign mantissa exponent positive =>
    have same : (compare exponent exponent).then (compare mantissa mantissa) = .eq := by
      rw [Std.compare_self, Std.compare_self, Ordering.then_eq]
    cases sign with
    | positive =>
      change (some ((compare exponent exponent).then (compare mantissa mantissa)) ==
        some .eq) = true
      rw [same, BEq.rfl]
    | negative =>
      change (some ((compare exponent exponent).then (compare mantissa mantissa)).swap ==
        some .eq) = true
      rw [same, Ordering.swap_eq, BEq.rfl]

mutual

private theorem same_self : (json : Json) → json.AllFinite → same json json = true
  | .null, _ => rfl
  | .bool value, _ => by rw [same, BEq.rfl]
  | .integer value, _ => by rw [same, BEq.rfl]
  | .double number, finite => double_beq_self (by rwa [AllFinite] at finite)
  | .string text, _ => by rw [same, BEq.rfl]
  | .array items, finite => sameItems_self items (by rwa [AllFinite] at finite)
  | .object members, finite => sameMembers_self members (by rwa [AllFinite] at finite)

private theorem sameItems_self : (items : List Json) → AllFiniteItems items →
    sameItems items items = true
  | [], _ => rfl
  | item :: rest, finite => by
    rw [AllFiniteItems] at finite
    rw [sameItems, same_self item finite.1, sameItems_self rest finite.2, Bool.and_self]

/-- Members with finite numbers are the same as themselves. -/
theorem sameMembers_self : (members : List (String × Json)) → AllFiniteMembers members →
    sameMembers members members = true
  | [], _ => rfl
  | (name, value) :: rest, finite => by
    rw [AllFiniteMembers] at finite
    rw [sameMembers, same_self value finite.1, sameMembers_self rest finite.2, BEq.rfl,
      Bool.and_self, Bool.and_self]

end

/-! ## Values under a name -/

/-- Equal members have equal values under each name, or none in both. -/
theorem rel_of_sameMembers {first second : SortedMap String Json}
    (equal : sameMembers first.toList second.toList = true) (name : String) :
    Option.Rel (fun one other => (one == other) = true) (first.get? name) (second.get? name) := by
  have found {firsts seconds : List (String × Json)}
      (equal : sameMembers firsts seconds = true) :
      Option.Rel (fun one other => (one == other) = true)
        ((firsts.find? fun member => compare member.1 name == .eq).map Prod.snd)
        ((seconds.find? fun member => compare member.1 name == .eq).map Prod.snd) := by
    induction firsts generalizing seconds with
    | nil =>
      cases seconds with
      | nil => exact .none
      | cons => simp [sameMembers] at equal
    | cons head firsts ih =>
      cases seconds with
      | nil => simp [sameMembers] at equal
      | cons other seconds =>
        rw [sameMembers, Bool.and_eq_true, Bool.and_eq_true] at equal
        obtain ⟨⟨names, values⟩, rest⟩ := equal
        rw [List.find?_cons, List.find?_cons, ← eq_of_beq names]
        cases compare head.1 name == .eq with
        | true => exact .some values
        | false => exact ih rest
  exact found equal

end BatchRun.Json
