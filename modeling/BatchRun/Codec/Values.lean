import BatchRun.Context.Owner
import BatchRun.ExitStatus
import BatchRun.Json.Codec
import BatchRun.Retry.Policy
import BatchRun.Status
import BatchRun.Time.Rfc3339

/-! # JSON forms of single values

Identifiers are whole numbers, statuses and strategies are words, moments are RFC 3339 texts, and
small records are objects.
-/

namespace BatchRun

open Document

/-- A word that names one of finitely many values. -/
def decodeWord? {α : Type} (ofName? : String → Option α) (document : Document) : Option α :=
  (choice? document).bind ofName?

/-- The JSON form of a double: null if it is no number. -/
def doubleJson (value : Float) : Json := (encode? value).getD .null

namespace RecordId

def toJson {kind : RecordKind} (id : RecordId kind) : Json := .integer id.value.toNat

instance {kind : RecordKind} : JsonEncode (RecordId kind) := ⟨fun id => some id.toJson⟩
instance {kind : RecordKind} : JsonDecode (RecordId kind) where
  decode? document := (decode? document).map RecordId.mk

end RecordId

namespace BatchStatus

def toJson (status : BatchStatus) : Json := .string status.name

instance : JsonEncode BatchStatus := ⟨fun status => some status.toJson⟩
instance : JsonDecode BatchStatus := ⟨decodeWord? ofName?⟩

end BatchStatus

namespace ExitStatus

def toJson (status : ExitStatus) : Json :=
  .ofMembers [("exit_code", .string status.code), ("exit_description", .string status.description)]

instance : JsonEncode ExitStatus := ⟨fun status => some status.toJson⟩
instance : JsonDecode ExitStatus where
  decode? document := do
    match ← document.fields? ["exit_code", "exit_description"] with
    | [code, description] => return ⟨← required code, ← required description⟩
    | _ => none

end ExitStatus

namespace Timestamp

def toJson (moment : Timestamp) : Json := .string moment.compactText

instance : JsonEncode Timestamp := ⟨fun moment => some moment.toJson⟩
instance : JsonDecode Timestamp where
  decode? document := (decode? document).bind read?

def optionalJson (moment : Option Timestamp) : Json := (moment.map toJson).getD .null

end Timestamp

namespace Duration

def toJson (duration : Duration) : Json :=
  .ofMembers [("nanos", .integer duration.nanos.val), ("secs", .integer duration.seconds.toNat)]

/-- Whether an object has no members besides these. -/
def hasOnly (names : List String) : Document → Bool
  | .object members => members.all fun (name?, _) => name?.any names.contains
  | _ => true

instance : JsonEncode Duration := ⟨fun duration => some duration.toJson⟩

/-- Any number of nanoseconds of 32 bits is accepted; other members are not. -/
instance : JsonDecode Duration where
  decode? document := do
    let names := ["secs", "nanos"]
    guard (hasOnly names document)
    match ← document.fields? names with
    | [seconds, nanos] =>
      let seconds : UInt64 ← required seconds
      let nanos : UInt32 ← required nanos
      ofParts? seconds.toNat nanos.toNat
    | _ => none

end Duration

namespace BackoffStrategy

def toJson (strategy : BackoffStrategy) : Json := .string strategy.name

instance : JsonEncode BackoffStrategy := ⟨fun strategy => some strategy.toJson⟩
instance : JsonDecode BackoffStrategy := ⟨decodeWord? ofName?⟩

end BackoffStrategy

namespace RetryPolicy

def toJson (policy : RetryPolicy) : Json :=
  .ofMembers [
    ("base_delay", policy.baseDelay.toJson),
    ("jitter", doubleJson policy.jitter),
    ("max_attempts", .integer policy.maxAttempts.toNat),
    ("max_delay", policy.maxDelay.toJson),
    ("strategy", policy.strategy.toJson)]

instance : JsonEncode RetryPolicy := ⟨fun policy => some policy.toJson⟩
instance : JsonDecode RetryPolicy where
  decode? document := do
    match ← document.fields? ["max_attempts", "base_delay", "max_delay", "strategy", "jitter"] with
    | [maxAttempts, baseDelay, maxDelay, strategy, jitter] =>
      return {
        maxAttempts := ← required maxAttempts
        baseDelay := ← required baseDelay
        maxDelay := ← required maxDelay
        strategy := ← required strategy
        jitter := ← required jitter }
    | _ => none

end RetryPolicy

namespace OwnerKind

def toJson (kind : OwnerKind) : Json := .string kind.name

instance : JsonEncode OwnerKind := ⟨fun kind => some kind.toJson⟩
instance : JsonDecode OwnerKind := ⟨decodeWord? ofName?⟩

end OwnerKind

namespace ContextOwner

def toJson (owner : ContextOwner) : Json :=
  .ofMembers [("id", .integer owner.number.toNat), ("kind", owner.kind.toJson)]

instance : JsonEncode ContextOwner := ⟨fun owner => some owner.toJson⟩
instance : JsonDecode ContextOwner where
  decode? document := do
    let (kind, id) ← document.tagged? "kind" "id"
    match ← OwnerKind.ofName? kind with
    | .job => (decode? id).map job
    | .step => (decode? id).map step

end ContextOwner

end BatchRun
