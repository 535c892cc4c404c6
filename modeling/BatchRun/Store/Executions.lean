import BatchRun.Execution.Job
import BatchRun.Store.Error

/-! # The store of job executions

The store keeps the latest execution of every instance. Saving a new one removes the older ones of
the same instance. A write succeeds only from a copy with the current version, and raises the
version by one; everybody else has to refresh their copy first.
-/

namespace BatchRun

/-- The stored executions by number, and the number given last. -/
structure ExecutionStore where
  executions : SortedMap JobExecutionId JobExecution
  lastId : UInt64

namespace ExecutionStore

def empty : ExecutionStore := ⟨.empty, 0⟩

instance : Inhabited ExecutionStore := ⟨empty⟩

def size (store : ExecutionStore) : Nat := store.executions.size

def get? (store : ExecutionStore) (id : JobExecutionId) : Option JobExecution :=
  store.executions.get? id

/-- The stored executions of an instance, the latest number first. -/
def ofInstance (store : ExecutionStore) (id : JobInstanceId) : List JobExecution :=
  (store.executions.values.filter fun stored => stored.jobInstance.id == id).reverse

/-- The stored executions of a job that still hold their instance, the latest number first. -/
def running (store : ExecutionStore) (jobName : String) : List JobExecution :=
  (store.executions.values.filter fun stored =>
    stored.jobName == jobName && stored.isRunning).reverse

/-- Of two executions, the one created later or, at the same moment, the one numbered later. -/
def later (first second : JobExecution) : JobExecution :=
  match compare first.createTime second.createTime with
  | .lt => second
  | .eq => if (compare first.id second.id).isGT then first else second
  | .gt => first

/-- The execution of an instance that was created last. -/
def last? (store : ExecutionStore) (id : JobInstanceId) : Option JobExecution :=
  match store.ofInstance id with
  | [] => none
  | first :: rest => some (rest.foldl later first)

/-- Saves a new execution and removes the older ones of its instance. -/
def save (store : ExecutionStore) (execution : JobExecution) :
    Except StoreError (JobExecution × ExecutionStore) :=
  match execution.id with
  | some id => .error (.alreadySaved .jobExecution id.value)
  | none =>
    let others := store.executions.filter fun _ stored =>
      stored.jobInstance.id != execution.jobInstance.id
    let id : JobExecutionId := ⟨store.lastId + 1⟩
    let saved := { execution with id := some id, version := 1 }
    .ok (saved, ⟨others.insert id saved, id.value⟩)

/-- The stored copy of an execution that has been saved. -/
def stored (store : ExecutionStore) (execution : JobExecution) :
    Except StoreError (JobExecutionId × JobExecution) :=
  match execution.id with
  | none => .error (.missingId .jobExecution)
  | some id =>
    match store.get? id with
    | none => .error (.notSaved .jobExecution id.value)
    | some stored => .ok (id, stored)

/-- Writes an execution from a copy with the current version. -/
def update (store : ExecutionStore) (execution : JobExecution) :
    Except StoreError (JobExecution × ExecutionStore) := do
  let (id, stored) ← store.stored execution
  if stored.version = execution.version then
    let written := { execution with version := execution.version + 1 }
    return (written, { store with executions := store.executions.insert id written })
  else
    throw (.optimisticLock .jobExecution id.value execution.version stored.version)

/-- Refreshes a copy: if its version is not the current one, it takes over that version, and the
status if that is higher. Nothing else of the copy changes. -/
def synchronize (store : ExecutionStore) (execution : JobExecution) :
    Except StoreError JobExecution := do
  let (_, stored) ← store.stored execution
  if stored.version = execution.version then return execution
  else return { execution.upgradeStatus stored.status with version := stored.version }

end ExecutionStore

end BatchRun
