import BatchRun.Launch.Error

/-! # Task executors

An executor decides what happens to a task: it is run at once, taken over by a worker, kept for
later or rejected. Workers have a limited number of slots. A task beyond the limit is rejected and
not queued, and a slot becomes free when its task ends, however it ends.
-/

namespace BatchRun

/-- What has become of a task that was given to an executor. -/
inductive Submission
  | runInline
  | runOnWorker
  | kept
  | rejected (rejection : TaskRejected)
  /-- The executor has panicked. The task is lost. -/
  | panicked
deriving DecidableEq, Repr

/-- Workers that run one task each, at most so many at a time. -/
structure WorkerPool where
  name : String
  /-- How many tasks may run at the same time. -/
  maxConcurrent : UInt64
  /-- How many tasks are running. -/
  active : Nat
deriving DecidableEq, Repr

namespace WorkerPool

def usualName : String := "forgebatch-worker"

def ofSlots (maxConcurrent : UInt64) : WorkerPool := ⟨usualName, maxConcurrent, 0⟩

def usual : WorkerPool := ofSlots 4

def acquire? (pool : WorkerPool) : Option WorkerPool :=
  if pool.active < pool.maxConcurrent.toNat then some { pool with active := pool.active + 1 }
  else none

def release (pool : WorkerPool) : WorkerPool := { pool with active := pool.active - 1 }

def exhausted (pool : WorkerPool) : TaskRejected :=
  let slots := toString pool.maxConcurrent
  ⟨"pool exhausted: " ++ slots ++ " of " ++ slots ++ " workers busy"⟩

def notStarted (reason : String) : TaskRejected := ⟨"failed to spawn worker thread: " ++ reason⟩

/-- Whether workers can have the name of the pool. No name has a null character in it. -/
def isNameable (pool : WorkerPool) : Bool := !pool.name.toList.contains '\x00'

/-- Takes a slot for a task and starts a worker in it, or tells why none could be started. Starting
a worker under an impossible name is a panic. A task that gets no worker keeps no slot. -/
def execute (pool : WorkerPool) (start : Except String Unit) : Submission × WorkerPool :=
  match pool.acquire? with
  | none => (.rejected pool.exhausted, pool)
  | some busier =>
    if pool.isNameable then
      match start with
      | .ok () => (.runOnWorker, busier)
      | .error reason => (.rejected (notStarted reason), busier.release)
    else (.panicked, busier.release)

end WorkerPool

/-- Something that takes tasks. -/
inductive TaskExecutor (τ : Type)
  /-- Runs every task at once, before the caller goes on. -/
  | inline
  /-- Rejects every task. -/
  | rejecting (reason : String)
  /-- Keeps every task until it is asked for, the oldest first. -/
  | deferred (tasks : List τ)
  /-- Gives every task to a worker. -/
  | workers (pool : WorkerPool)
deriving Repr

namespace TaskExecutor

variable {τ : Type}

/-- Takes a task. Every worker that can have its name can be started. -/
def submit (executor : TaskExecutor τ) (task : τ) : Submission × TaskExecutor τ :=
  match executor with
  | inline => (.runInline, inline)
  | rejecting reason => (.rejected ⟨reason⟩, rejecting reason)
  | deferred tasks => (.kept, deferred (tasks ++ [task]))
  | workers pool =>
    let (submission, pool) := pool.execute (.ok ())
    (submission, workers pool)

def workerDone : TaskExecutor τ → TaskExecutor τ
  | workers pool => workers pool.release
  | executor => executor

def takeDeferred : TaskExecutor τ → List τ × TaskExecutor τ
  | deferred tasks => (tasks, deferred [])
  | executor => ([], executor)

end TaskExecutor

end BatchRun
