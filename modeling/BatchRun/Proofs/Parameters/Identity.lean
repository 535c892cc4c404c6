import BatchRun.Parameters.Identity
import BatchRun.Proofs.SortedMap
import BatchRun.Proofs.Store.Instances
import Mathlib

/-! # The identity key is read in one way only

A guarded text ends where the first separator without a backslash before it stands, so a key falls
into the names, types and texts of the identifying parameters in one way only. Two sets of
parameters share a key exactly if their identifying parameters have the same names and, under each
name, values of one type and one text. Texts and whole numbers are told apart by their texts; of
two doubles or moments with one text the key sees no difference.
-/

namespace BatchRun

/-! ## Where a guarded text ends -/

/-- The first character of a guarded text is a separator only if it is the backslash that guards
the first character of the text. -/
theorem guarded_cons (char : Char) (chars : List Char) :
    (isKeySeparator char = true ∧ guarded (char :: chars) = '\\' :: char :: guarded chars) ∨
      (isKeySeparator char = false ∧ guarded (char :: chars) = char :: guarded chars) := by
  cases special : isKeySeparator char <;> simp [guarded, special]

/-- A text that is not empty does not begin like the bare separator that ends it. -/
theorem guarded_cons_append_ne {separator : Char} (separates : isKeySeparator separator = true)
    (unguarding : separator ≠ '\\') (char : Char) (chars rest next : List Char) :
    guarded (char :: chars) ++ rest ≠ separator :: next := by
  intro same
  rcases guarded_cons char chars with ⟨-, shape⟩ | ⟨plain, shape⟩
  · rw [shape] at same
    exact unguarding (List.cons.inj same).1.symm
  · rw [shape] at same
    rw [(List.cons.inj same).1, separates] at plain
    contradiction

/-- Two guarded texts that go on alike begin with the same character. -/
theorem guarded_cons_append_inj {one other : Char} {ones others rest next : List Char}
    (same : guarded (one :: ones) ++ rest = guarded (other :: others) ++ next) :
    one = other ∧ guarded ones ++ rest = guarded others ++ next := by
  rcases guarded_cons one ones with ⟨special, shape⟩ | ⟨plain, shape⟩ <;>
    rcases guarded_cons other others with ⟨special', shape'⟩ | ⟨plain', shape'⟩ <;>
    rw [shape, shape'] at same
  · exact List.cons.inj (List.cons.inj same).2
  · rw [← (List.cons.inj same).1] at plain'
    exact absurd plain' (by decide)
  · rw [(List.cons.inj same).1] at plain
    exact absurd plain (by decide)
  · exact List.cons.inj same

/-- A guarded text and what follows the bare separator behind it are both found again. -/
theorem guarded_append_cons_inj {separator : Char} (separates : isKeySeparator separator = true)
    (unguarding : separator ≠ '\\') {one other rest next : List Char} :
    guarded one ++ separator :: rest = guarded other ++ separator :: next ↔
      one = other ∧ rest = next := by
  refine ⟨fun same => ?_, fun ⟨equal, follows⟩ => by rw [equal, follows]⟩
  induction one generalizing other with
  | nil =>
    cases other with
    | nil => exact ⟨rfl, (List.cons.inj same).2⟩
    | cons char others =>
      exact absurd same.symm (guarded_cons_append_ne separates unguarding char others _ _)
  | cons char chars ih =>
    cases other with
    | nil => exact absurd same (guarded_cons_append_ne separates unguarding char chars _ _)
    | cons char' others =>
      obtain ⟨head, tails⟩ := guarded_cons_append_inj same
      obtain ⟨tail, follows⟩ := ih tails
      exact ⟨by rw [head, tail], follows⟩

/-! ## Parts of a key -/

namespace ParameterValue

/-- Two values are both texts, both whole numbers, both doubles or both moments. -/
def SameType : ParameterValue → ParameterValue → Prop
  | string _, string _ | long _, long _ | double _, double _ | date _, date _ => True
  | _, _ => False

/-- A text or a whole number. -/
def IsPlain : ParameterValue → Prop
  | string _ | long _ => True
  | double _ | date _ => False

private theorem typeName_eq_iff {one other : ParameterValue} :
    one.typeName = other.typeName ↔ one.SameType other := by
  cases one <;> cases other <;> simp [typeName, SameType]

/-- No type name has a character to guard. -/
theorem guarded_typeName (value : ParameterValue) :
    guarded value.typeName.toList = value.typeName.toList := by
  cases value <;> simp [typeName, guarded, isKeySeparator]

/-- Texts and whole numbers are told apart by their type and text. -/
theorem IsPlain.eq_of_text {one other : ParameterValue} (plain : one.IsPlain)
    (sameType : one.SameType other) (sameText : one.text = other.text) : one = other := by
  cases one with
  | string text =>
    cases other with
    | string text' => exact congrArg string sameText
    | _ => exact sameType.elim
  | long number =>
    cases other with
    | long number' => exact congrArg long (Int64.toInt_inj.1 (Int.repr_inj.1 sameText))
    | _ => exact sameType.elim
  | double _ => exact plain.elim
  | date _ => exact plain.elim

end ParameterValue

namespace JobParameter

/-- What a key tells of a parameter: its name, its type and its text. -/
def shown (entry : String × JobParameter) : String × String × String :=
  (entry.1, entry.2.value.typeName, entry.2.value.text)

/-- The part of a key that belongs to one parameter ends where it says it ends. -/
theorem keyPart_append_inj {one other : String × JobParameter} {rest next : List Char} :
    one.2.keyPart one.1 ++ rest = other.2.keyPart other.1 ++ next ↔
      shown one = shown other ∧ rest = next := by
  -- a type name stands as it is, which is how it would stand if it were guarded
  have fields : ∀ (entry : String × JobParameter) (behind : List Char),
      entry.2.keyPart entry.1 ++ behind =
        guarded entry.1.toList ++ '=' :: (guarded entry.2.value.typeName.toList ++
          ':' :: (guarded entry.2.value.text.toList ++ ';' :: behind)) := by
    intro entry behind
    rw [ParameterValue.guarded_typeName]
    simp [keyPart]
  rw [fields, fields, guarded_append_cons_inj (by decide) (by decide),
    guarded_append_cons_inj (by decide) (by decide),
    guarded_append_cons_inj (by decide) (by decide)]
  simp only [String.toList_inj, shown, Prod.mk.injEq, and_assoc]

/-- A list of parameters is read off its key, as far as a key tells of parameters. -/
theorem flatMap_keyPart_inj {one other : List (String × JobParameter)} :
    (one.flatMap fun (name, parameter) => parameter.keyPart name) =
        (other.flatMap fun (name, parameter) => parameter.keyPart name) ↔
      one.map shown = other.map shown := by
  induction one generalizing other with
  | nil => cases other <;> simp [keyPart]
  | cons entry entries ih =>
    cases other with
    | nil => simp [keyPart]
    | cons entry' entries' =>
      rw [List.flatMap_cons, List.flatMap_cons, keyPart_append_inj, ih, List.map_cons,
        List.map_cons, List.cons.injEq]

end JobParameter

/-! ## Whole keys -/

namespace JobParameters

variable {a b : JobParameters}

/-- Two sets of parameters have the same names and, under each name, values of one type and one
text. -/
def SameWording (a b : JobParameters) : Prop :=
  a.names = b.names ∧ ∀ {name : String} {one other : JobParameter},
    a.get? name = some one → b.get? name = some other →
      one.value.SameType other.value ∧ one.value.text = other.value.text

/-- Every parameter is a text or a whole number. -/
def Plain (parameters : JobParameters) : Prop :=
  ∀ {name : String} {parameter : JobParameter}, parameters.get? name = some parameter →
    parameter.value.IsPlain

/-- What is shown of two sets of parameters is the same exactly if their wording is. -/
theorem map_shown_eq_iff : a.entries.toList.map JobParameter.shown =
    b.entries.toList.map JobParameter.shown ↔ a.SameWording b := by
  rw [SortedMap.map_toList_eq_iff JobParameter.shown Prod.fst fun _ => rfl]
  simp [JobParameter.shown, SameWording, ParameterValue.typeName_eq_iff, names, get?]

/-- The key tells the wording of the identifying parameters, and nothing else. -/
theorem identityKey_eq_iff :
    a.identityKey = b.identityKey ↔ a.identifying.SameWording b.identifying := by
  rw [identityKey, identityKey, String.ofList_inj, JobParameter.flatMap_keyPart_inj,
    map_shown_eq_iff]

/-- All identifying parameters are marked as such. -/
theorem identifying_of_get? {name : String} {parameter : JobParameter}
    (found : a.identifying.get? name = some parameter) : parameter.identifying = true :=
  (SortedMap.get?_filter_eq_some_iff.1 found).2

/-- Texts and whole numbers of one wording are the same. -/
theorem Plain.eq_of_sameWording (plain : a.identifying.Plain)
    (alike : a.identifying.SameWording b.identifying) : a.identifying = b.identifying := by
  obtain ⟨sameNames, sameValues⟩ := alike
  have entries : a.identifying.entries.toList.map id = b.identifying.entries.toList.map id := by
    refine (SortedMap.map_toList_eq_iff id Prod.fst fun _ => rfl).2 ⟨sameNames, ?_⟩
    intro name one other found found'
    obtain ⟨sameType, sameText⟩ := sameValues found found'
    have sameValue := (plain found).eq_of_text sameType sameText
    have sameMark := (identifying_of_get? found).trans (identifying_of_get? found').symm
    obtain ⟨value, mark⟩ := one
    obtain ⟨value', mark'⟩ := other
    subst sameValue sameMark
    rfl
  rw [List.map_id, List.map_id] at entries
  exact congrArg JobParameters.mk (SortedMap.ext entries)

/-- The identity key is an exact canonical form of the identifying parameters: it is shared exactly
by those of one wording, so for texts and whole numbers by the same ones, and the parameters that
are not identifying have no part in it. -/
theorem identityKey_canonical (a b : JobParameters) :
    (a.identityKey = b.identityKey ↔ a.identifying.SameWording b.identifying) ∧
      (a.identifying.Plain →
        (a.identityKey = b.identityKey ↔ a.identifying = b.identifying)) ∧
      a.identifying.identityKey = a.identityKey := by
  refine ⟨identityKey_eq_iff, fun plain => ⟨fun same => ?_, fun same => ?_⟩,
    a.identityKey_identifying⟩
  · exact plain.eq_of_sameWording (identityKey_eq_iff.1 same)
  · rw [← a.identityKey_identifying, same, b.identityKey_identifying]

/-- One text that holds all the separators of two parameters is not taken for the two. -/
theorem identityKey_canonical_separators :
    (ofList [("a", ⟨.string "1;b=string:2", true⟩)]).identityKey ≠
      (ofList [("a", ⟨.string "1", true⟩), ("b", ⟨.string "2", true⟩)]).identityKey := by
  refine fun shared => absurd (((identityKey_canonical _ _).2.1 ?_).1 shared) ?_
  · intro name parameter found
    obtain ⟨rfl, rfl⟩ : name = "a" ∧ parameter = ⟨.string "1;b=string:2", true⟩ := by
      have member := SortedMap.get?_eq_some_iff.1 (SortedMap.get?_filter_eq_some_iff.1 found).1
      simpa [ofList, SortedMap.ofList, SortedMap.insertEntry, SortedMap.empty] using member
    trivial
  · intro same
    exact absurd (congrArg size same) (by decide)

end JobParameters

end BatchRun
