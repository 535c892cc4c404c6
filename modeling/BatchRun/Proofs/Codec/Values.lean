import BatchRun.Codec.Values
import BatchRun.Proofs.Json.Codec
import BatchRun.Proofs.Time.Rfc3339

/-! # Single values that read back

The JSON form of an identifier, a word, a small record or a duration reads back as the value. A
double does so if it is finite, and a moment if it occurs.
-/

namespace BatchRun

open Document

/-! ## Words, numbers and moments -/

private theorem not_isNaN_or_isInf_of_isFinite {number : Float} (finite : number.isFinite) :
    ¬(number.isNaN || number.isInf) = true := by
  unfold Float.isFinite Float.Model.isFinite at finite
  unfold Float.isNaN Float.isInf Float.Model.isNaN Float.Model.isInf
  cases unpacked : number.toModel.unpack <;> rw [unpacked] at finite <;>
    first | exact absurd finite Bool.false_ne_true | exact Bool.false_ne_true

/-- A finite double is read back bit by bit. -/
theorem doubleJson_reads {number : Float} (finite : number.isFinite) :
    (doubleJson number).Reads number := by
  unfold doubleJson
  change decode? (if _ then Json.null else .double number).toDocument = _
  rw [if_neg (not_isNaN_or_isInf_of_isFinite finite)]
  rfl

@[simp] theorem RecordId.reads {kind : RecordKind} (id : RecordId kind) : id.toJson.Reads id :=
  congrArg (Option.map RecordId.mk) (Json.reads_uint64 id.value)

@[simp] theorem BatchStatus.reads (status : BatchStatus) : status.toJson.Reads status :=
  ofName?_name status

@[simp] theorem BackoffStrategy.reads (strategy : BackoffStrategy) :
    strategy.toJson.Reads strategy :=
  ofName?_name strategy

theorem OwnerKind.ofName?_name (kind : OwnerKind) : ofName? kind.name = some kind := by
  cases kind <;> rfl

/-- A moment that occurs is read back to the nanosecond. -/
theorem Timestamp.reads {moment : Timestamp} (occurs : moment.Occurs) :
    moment.toJson.Reads moment := by
  change (decode? (Json.string moment.compactText).toDocument).bind read? = _
  rw [Json.reads_string, Option.bind_some, read?_compactText occurs]

/-- A moment that may be missing. -/
theorem Timestamp.omissible_optionalJson {moment? : Option Timestamp}
    (occurs : ∀ moment ∈ moment?, moment.Occurs) :
    omissible (some (optionalJson moment?).toDocument) = some moment? :=
  Json.omissible_optional (fun moment here => reads (occurs moment here)) nofun

/-- A number that may be missing. -/
@[simp] theorem RecordId.omissible_toJson {kind : RecordKind} (id? : Option (RecordId kind)) :
    omissible (some ((id?.map toJson).getD .null).toDocument) = some id? :=
  Json.omissible_optional (fun id _ => id.reads) nofun

/-! ## Records -/

@[simp] theorem ExitStatus.reads (status : ExitStatus) : status.toJson.Reads status := by
  refine Json.reads_of_fields (fun _ => rfl) (by simp) ?_
  simp [List.lookup_cons]

namespace Duration

private theorem hasOnly_ofMembers {members : List (String × Json)} {names : List String}
    (known : ∀ name ∈ members.map Prod.fst, name ∈ names) :
    hasOnly names (Json.ofMembers members).toDocument = true := by
  change (Json.toMembers (SortedMap.ofList members).toList).all _ = true
  rw [Json.toMembers_eq, List.all_map, List.all_eq_true]
  intro member present
  obtain ⟨value, named⟩ :=
    SortedMap.mem_keys_ofList.1 (List.mem_map_of_mem (f := Prod.fst) present)
  simpa using known _ (List.mem_map_of_mem named)

private theorem ofParts?_self (duration : Duration) :
    ofParts? duration.seconds.toNat duration.nanos.val = some duration := by
  have small := duration.seconds.toNat_lt
  have below := duration.nanos.isLt
  unfold ofParts?
  dsimp only
  rw [Nat.div_eq_of_lt below, Nat.add_zero, if_pos small]
  simp

@[simp] theorem reads (duration : Duration) : duration.toJson.Reads duration := by
  have only : hasOnly ["secs", "nanos"] duration.toJson.toDocument = true :=
    hasOnly_ofMembers (by simp)
  have small : (UInt32.ofNat duration.nanos.val).toNat = duration.nanos.val :=
    UInt32.toNat_ofNat_of_lt' (lt_trans duration.nanos.isLt (by decide))
  have nanos := Json.reads_uint32 (UInt32.ofNat duration.nanos.val)
  rw [small] at nanos
  have allowed : guard (hasOnly ["secs", "nanos"] duration.toJson.toDocument = true) =
      some () := by
    rw [only]
    rfl
  change (guard _ >>= fun _ => duration.toJson.toDocument.fields? _ >>= _) = _
  rw [allowed, toJson, Json.fields?_ofMembers (by simp)]
  simp [List.lookup_cons, nanos, small, ofParts?_self]

end Duration

/-- A policy is read back, if its jitter is finite. -/
theorem RetryPolicy.reads {policy : RetryPolicy} (finite : policy.jitter.isFinite) :
    policy.toJson.Reads policy := by
  refine Json.reads_of_fields (fun _ => rfl) (by simp) ?_
  simp [List.lookup_cons, doubleJson_reads finite]

/-! ## Values with their kinds -/

/-- A record of a kind and a value, with the kind as a word. -/
theorem Document.tagged?_ofMembers {members : List (String × Json)} {kindName valueName : String}
    {kind : String} {value : Json} (distinct : (members.map Prod.fst).Nodup)
    (kindThere : members.lookup kindName = some (.string kind))
    (valueThere : members.lookup valueName = some value) :
    (Json.ofMembers members).toDocument.tagged? kindName valueName =
      some (kind, value.toDocument) := by
  have fields := Json.fields?_ofMembers distinct [kindName, valueName]
  change ((Json.ofMembers members).toDocument.fields? _ >>= _) = _
  rw [fields]
  simp [kindThere, valueThere, Json.toDocument, choice?]

/-- An owner is read back with its kind. -/
@[simp] theorem ContextOwner.reads (owner : ContextOwner) : owner.toJson.Reads owner := by
  have tagged : owner.toJson.toDocument.tagged? "kind" "id" =
      some (owner.kind.name, (Json.integer owner.number.toNat).toDocument) :=
    tagged?_ofMembers (by simp) (by simp [List.lookup_cons, OwnerKind.toJson]) (by simp)
  change (owner.toJson.toDocument.tagged? _ _ >>= _) = _
  rw [tagged, Option.bind_eq_bind, Option.bind_some]
  dsimp only
  rw [OwnerKind.ofName?_name]
  cases owner with
  | job id => exact congrArg (Option.map job) id.reads
  | step id => exact congrArg (Option.map step) id.reads

end BatchRun
