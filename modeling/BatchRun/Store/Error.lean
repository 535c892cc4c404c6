import BatchRun.Id

/-! # Store errors

Why a store refuses a write. A lost race is the only error a careful caller has to expect: it
reads the record again, applies its change to the new copy and writes that.
-/

namespace BatchRun

inductive VersionedKind
  | jobExecution
  | stepExecution
deriving DecidableEq, Repr

def VersionedKind.name : VersionedKind → String
  | jobExecution => "job execution"
  | stepExecution => "step execution"

/-- Why a store refuses a write. -/
inductive StoreError
  /-- The record has been written since the caller's copy was made. -/
  | optimisticLock (kind : VersionedKind) (id attempted current : UInt64)
  | notSaved (kind : VersionedKind) (id : UInt64)
  | alreadySaved (kind : VersionedKind) (id : UInt64)
  | missingId (kind : VersionedKind)
  /-- There is an instance for this job name and identity key. -/
  | instanceExists (identity : String)
  /-- The store is not usable any more. -/
  | poisoned
deriving DecidableEq, Repr

namespace StoreError

def isOptimisticLock : StoreError → Bool
  | optimisticLock .. => true
  | _ => false

def kind : StoreError → String
  | optimisticLock .. => "OptimisticLock"
  | notSaved .. => "NotSaved"
  | alreadySaved .. => "AlreadySaved"
  | missingId _ => "MissingId"
  | instanceExists _ => "InstanceExists"
  | poisoned => "Poisoned"

def message : StoreError → String
  | optimisticLock kind id attempted current =>
    "optimistic locking failure: " ++ kind.name ++ " id=" ++ toString id ++
      " updated with version " ++ toString attempted ++ ", current version is " ++
      toString current
  | notSaved kind id =>
    kind.name ++ " id=" ++ toString id ++ " must be saved before it can be updated"
  | alreadySaved kind id => kind.name ++ " is already saved (id=" ++ toString id ++ ")"
  | missingId kind => kind.name ++ " has no id; it must be saved first"
  | instanceExists identity => "job instance already exists: " ++ identity
  | poisoned => "store lock poisoned"

end StoreError

end BatchRun
