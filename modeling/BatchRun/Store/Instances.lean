import BatchRun.Execution.Instance
import BatchRun.Store.Error

/-! # The instance store

The store knows every instance that was ever created, in the order of creation. The instances are
numbered in that order from 1 on, and none is ever changed or removed.
-/

namespace BatchRun

/-- All instances, the oldest first. -/
structure InstanceStore where
  instances : List JobInstance

namespace InstanceStore

def empty : InstanceStore := ⟨[]⟩

instance : Inhabited InstanceStore := ⟨empty⟩

/-- The number that the next instance gets. -/
def nextId (store : InstanceStore) : JobInstanceId := ⟨UInt64.ofNat (store.instances.length + 1)⟩

/-- The instance of a job for these parameters. -/
def get? (store : InstanceStore) (jobName : String) (parameters : JobParameters) :
    Option JobInstance :=
  store.instances.find? fun known => known.isFor jobName parameters

def byId? (store : InstanceStore) (id : JobInstanceId) : Option JobInstance :=
  store.instances.find? fun known => known.id == id

/-- The names of all jobs, in order and without repetition. -/
def jobNames (store : InstanceStore) : List String :=
  (SortedMap.ofList (store.instances.map fun known => (known.jobName, ()))).keys

/-- Creates an instance, unless there is one for this name and identity key. -/
def create (store : InstanceStore) (jobName : String) (parameters : JobParameters) :
    Except StoreError (JobInstance × InstanceStore) :=
  match store.get? jobName parameters with
  | some _ => .error (.instanceExists (jobName ++ " [" ++ parameters.identityKey ++ "]"))
  | none =>
    let created := JobInstance.of store.nextId jobName parameters
    .ok (created, ⟨store.instances ++ [created]⟩)

end InstanceStore

end BatchRun
