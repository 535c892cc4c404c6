import BatchRun.Json.Codec
import BatchRun.Proofs.SortedMap

/-! # JSON forms that read back

A JSON form reads back as a value if the document made of it stands for that value. Forms of records
do so field by field: a record with different names gives each of its fields under its name, in
whichever order they are asked for. JSON values themselves read back if the members of all objects
in them stand in the order of their names.
-/

namespace BatchRun

open Document

variable {α : Type} [JsonDecode α]

/-- The document made of a JSON form stands for this value. -/
abbrev Json.Reads (json : Json) (value : α) : Prop := decode? json.toDocument = some value

@[simp] theorem Document.required_some (document : Document) :
    (required (some document) : Option α) = decode? document := rfl

/-! ## Lists and members -/

namespace Json

private theorem toDocuments_eq (items : List Json) : toDocuments items = items.map toDocument := by
  induction items with
  | nil => rfl
  | cons item rest ih => rw [toDocuments, ih, List.map_cons]

/-- An object is read member by member. -/
theorem toMembers_eq (members : List (String × Json)) :
    toMembers members = members.map fun member => (some member.1, member.2.toDocument) := by
  induction members with
  | nil => rfl
  | cons member rest ih => rw [toMembers, ih, List.map_cons]

private theorem mapM_eq_some {β γ : Type} {read : β → Option γ} {result : β → γ} {items : List β}
    (reads : ∀ item ∈ items, read item = some (result item)) :
    items.mapM read = some (items.map result) := by
  induction items with
  | nil => rfl
  | cons item rest ih =>
    obtain ⟨first, others⟩ := List.forall_mem_cons.1 reads
    rw [List.mapM_cons, first, ih others]
    rfl

/-- An array reads back as the list of what its items read back as. -/
theorem reads_array {β : Type} {values : List β} {form : β → Json} {result : β → α}
    (reads : ∀ value ∈ values, (form value).Reads (result value)) :
    (array (values.map form)).Reads (values.map result) := by
  change (toDocuments (values.map form)).mapM decode? = _
  rw [toDocuments_eq, List.map_map, List.mapM_map]
  exact mapM_eq_some reads

/-- An object of entries reads back as the map of them. -/
theorem reads_object {map : SortedMap String α} {form : α → Json}
    (reads : ∀ entry ∈ map.toList, (form entry.2).Reads entry.2) :
    (object (map.toList.map fun entry => (entry.1, form entry.2))).Reads map := by
  have members {entries : List (String × α)}
      (reads : ∀ entry ∈ entries, (form entry.2).Reads entry.2) :
      decodeMembers? (toMembers (entries.map fun entry => (entry.1, form entry.2))) =
        some entries := by
    induction entries with
    | nil => rfl
    | cons entry rest ih =>
      obtain ⟨first, others⟩ := List.forall_mem_cons.1 reads
      rw [List.map_cons, toMembers, decodeMembers?, ih others, first]
      rfl
  change (decodeMembers? (toMembers _)).map SortedMap.ofList = _
  rw [members reads, Option.map_some, map.ofList_toList]

/-- The values of a map that is read are read from its members. -/
theorem decoded_of_mem {document : Document} {map : SortedMap String α}
    (read : decode? document = some map) {entry : String × α} (member : entry ∈ map.toList) :
    ∃ form : Document, decode? form = some entry.2 := by
  have decoded {members : List (Option String × Document)} {entries : List (String × α)}
      (read : decodeMembers? members = some entries) :
      ∀ entry ∈ entries, ∃ form : Document, decode? form = some entry.2 := by
    induction members generalizing entries with
    | nil =>
      rw [← Option.some.inj read]
      exact nofun
    | cons first rest ih =>
      obtain ⟨name, -, valued⟩ := Option.bind_eq_some_iff.1 read
      obtain ⟨value, form, followed⟩ := Option.bind_eq_some_iff.1 valued
      obtain ⟨others, further, listed⟩ := Option.bind_eq_some_iff.1 followed
      rw [← Option.some.inj listed]
      exact List.forall_mem_cons.2 ⟨⟨_, form⟩, ih further⟩
  cases document with
  | object members =>
    obtain ⟨entries, listed, rfl⟩ := Option.map_eq_some_iff.1 read
    exact decoded listed entry (SortedMap.mem_of_mem_ofList member)
  | _ => exact nomatch read

/-! ## Records -/

private theorem member?_toList (map : SortedMap String Json) (name : String) :
    Document.member? (map.toList.map fun entry => (entry.1, entry.2.toDocument)) name =
      some ((map.get? name).map toDocument) := by
  unfold Document.member?
  have sought : (map.toList.map fun entry => (entry.1, entry.2.toDocument)).filter
      (fun member => member.1 == name) =
      (map.toList.filter fun entry => entry.1 == name).map
        fun entry => (entry.1, entry.2.toDocument) := List.filter_map ..
  rw [sought, map.filter_toList_key]
  cases map.get? name <;> rfl

/-- The fields of a record with different names. -/
theorem fields?_ofMembers {members : List (String × Json)}
    (distinct : (members.map Prod.fst).Nodup) (names : List String) :
    (ofMembers members).toDocument.fields? names =
      some (names.map fun name => (members.lookup name).map toDocument) := by
  have named (members : List (String × Json)) : (toMembers members).mapM
      (fun member => member.1.map fun name => (name, member.2)) =
        some (members.map fun member => (member.1, member.2.toDocument)) := by
    rw [toMembers_eq, List.mapM_map]
    exact mapM_eq_some fun _ _ => rfl
  change ((toMembers (SortedMap.ofList members).toList).mapM _ >>= fun listed =>
    names.mapM (Document.member? listed)) = _
  rw [named]
  refine mapM_eq_some fun name _ => ?_
  rw [member?_toList, SortedMap.get?_ofList distinct]

/-- A record with different names reads back as what is read from its fields. -/
theorem reads_of_fields {members : List (String × Json)} {names : List String} {value : α}
    {read : List (Option Document) → Option α}
    (decodes : ∀ document : Document, decode? document = (document.fields? names).bind read)
    (distinct : (members.map Prod.fst).Nodup)
    (reads : read (names.map fun name => (members.lookup name).map toDocument) = some value) :
    (ofMembers members).Reads value := by
  rw [Reads, decodes, fields?_ofMembers distinct, Option.bind_some, reads]

private theorem omissible_of_ne_null {document : Document} (present : document ≠ .null) :
    (omissible (some document) : Option (Option α)) = (decode? document).map some := by
  cases document with
  | null => contradiction
  | _ => rfl

/-- A value that may be missing, if its form is not that of a missing one. -/
theorem omissible_optional {form : α → Json} {value? : Option α}
    (reads : ∀ value ∈ value?, (form value).Reads value)
    (present : ∀ value, (form value).toDocument ≠ .null) :
    omissible (some ((value?.map form).getD .null).toDocument) = some value? := by
  cases value? with
  | none => rfl
  | some value =>
    have decoded : (form value).Reads value := reads value rfl
    exact (omissible_of_ne_null (present value)).trans (congrArg (Option.map some) decoded)

/-! ## Single values -/

@[simp] theorem reads_string (text : String) : (string text).Reads text := rfl

@[simp] theorem reads_bool (value : Bool) : (bool value).Reads value := rfl

@[simp] theorem reads_uint64 (value : UInt64) : (integer value.toNat).Reads value := by
  have small := value.toNat_lt
  change (integer? 0 18446744073709551615 (.integer value.toNat)).map _ = _
  rw [integer?, if_pos (by omega)]
  simp

@[simp] theorem reads_uint32 (value : UInt32) : (integer value.toNat).Reads value := by
  have small := value.toNat_lt
  change (integer? 0 4294967295 (.integer value.toNat)).map _ = _
  rw [integer?, if_pos (by omega)]
  simp

@[simp] theorem reads_int64 (value : Int64) : (integer value.toInt).Reads value := by
  have low := value.minValue_le_toInt
  have high := value.toInt_le
  change (integer? _ _ (.integer value.toInt)).map _ = _
  rw [integer?, if_pos ⟨low, high⟩]
  simp

/-! ## JSON values themselves -/

mutual

/-- The members of every object in the value stand in the order of their names. -/
def Ordered : Json → Prop
  | .array items => OrderedItems items
  | .object members =>
    (members.Pairwise fun first second => compare first.1 second.1 = .lt) ∧ OrderedMembers members
  | _ => True

def OrderedItems : List Json → Prop
  | [] => True
  | item :: items => item.Ordered ∧ OrderedItems items

def OrderedMembers : List (String × Json) → Prop
  | [] => True
  | (_, value) :: members => value.Ordered ∧ OrderedMembers members

end

mutual

private theorem toJson?_toDocument : (json : Json) → json.Ordered →
    json.toDocument.toJson? = some json
  | .null, _ | .bool _, _ | .integer _, _ | .double _, _ | .string _, _ => rfl
  | .array items, ordered => by
    rw [toDocument, toJson?, toItems?_toDocuments items ordered]
    rfl
  | .object members, ⟨increasing, ordered⟩ => by
    rw [toDocument, toJson?, toMembers?_toMembers members ordered, Option.map_some]
    have same := SortedMap.ofList_toList ⟨members, increasing⟩
    rw [same]

private theorem toItems?_toDocuments : (items : List Json) → OrderedItems items →
    toItems? (toDocuments items) = some items
  | [], _ => rfl
  | item :: items, ⟨ordered, others⟩ => by
    rw [toDocuments, toItems?, toJson?_toDocument item ordered, toItems?_toDocuments items others]
    rfl

private theorem toMembers?_toMembers : (members : List (String × Json)) → OrderedMembers members →
    toMembers? (toMembers members) = some members
  | [], _ => rfl
  | (name, value) :: members, ⟨ordered, others⟩ => by
    rw [toMembers, toMembers?, toJson?_toDocument value ordered,
      toMembers?_toMembers members others]
    rfl

end

/-- A JSON value with ordered members is read back as it is. -/
theorem reads_self {json : Json} (ordered : json.Ordered) : json.Reads json :=
  toJson?_toDocument json ordered

private theorem orderedMembers_iff {members : List (String × Json)} :
    OrderedMembers members ↔ ∀ member ∈ members, member.2.Ordered := by
  induction members with
  | nil => simp [OrderedMembers]
  | cons member rest ih => rw [OrderedMembers, ih, List.forall_mem_cons]

mutual

/-- Whatever is read from a document is ordered, in whichever order the document lists members. -/
theorem ordered_of_toJson? : (document : Document) → {json : Json} →
    document.toJson? = some json → json.Ordered
  | .null, _, read | .bool _, _, read | .integer _, _, read | .double _, _, read
  | .string _, _, read => by
    rw [← Option.some.inj read]
    trivial
  | .array items, _, read => by
    obtain ⟨values, listed, rfl⟩ := Option.map_eq_some_iff.1 read
    exact orderedItems_of_toItems? items listed
  | .object members, _, read => by
    obtain ⟨values, listed, rfl⟩ := Option.map_eq_some_iff.1 read
    refine ⟨(SortedMap.ofList values).increasing, orderedMembers_iff.2 fun member present => ?_⟩
    have named := orderedMembers_iff.1 (orderedMembers_of_toMembers? members listed)
    exact named member (SortedMap.mem_of_mem_ofList present)
  | .unreadable, _, read => nomatch read

private theorem orderedItems_of_toItems? : (items : List Document) → {values : List Json} →
    toItems? items = some values → OrderedItems values
  | [], _, read => by
    rw [← Option.some.inj read]
    trivial
  | item :: items, _, read => by
    simp only [toItems?, Option.bind_eq_bind, Option.bind_eq_some_iff, Option.pure_def,
      Option.some.injEq] at read
    obtain ⟨value, first, others, rest, rfl⟩ := read
    exact ⟨ordered_of_toJson? item first, orderedItems_of_toItems? items rest⟩

private theorem orderedMembers_of_toMembers? : (members : List (Option String × Document)) →
    {values : List (String × Json)} → toMembers? members = some values → OrderedMembers values
  | [], _, read => by
    rw [← Option.some.inj read]
    trivial
  | (name?, document) :: members, _, read => by
    simp only [toMembers?, Option.bind_eq_bind, Option.bind_eq_some_iff, Option.pure_def,
      Option.some.injEq] at read
    obtain ⟨name, -, value, first, others, rest, rfl⟩ := read
    exact ⟨ordered_of_toJson? document first, orderedMembers_of_toMembers? members rest⟩

end

end Json

end BatchRun
