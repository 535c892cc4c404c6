import BatchRun.Execution.Job
import BatchRun.Store.Error

/-! # The store of step executions

Steps are kept in groups, one for each job execution. The first step saved for a job execution
removes the groups of other executions of its instance. Writes follow the same rule of versions as
those of job executions.
-/

namespace BatchRun

/-- The steps of one job execution by number. -/
abbrev StepGroup := SortedMap StepExecutionId StepExecution

/-- The groups by job execution, and the number given to a step last. -/
structure StepStore where
  groups : SortedMap JobExecutionId StepGroup
  lastId : UInt64

namespace StepStore

def empty : StepStore := ⟨.empty, 0⟩

instance : Inhabited StepStore := ⟨empty⟩

def size (store : StepStore) : Nat :=
  store.groups.values.foldr (fun group total => group.size + total) 0

def get? (store : StepStore) (execution : JobExecutionId) (id : StepExecutionId) :
    Option StepExecution :=
  (store.groups.get? execution).bind fun group => group.get? id

/-- Whether a group belongs to an instance, which its first step tells. -/
def isGroupOf (id : JobInstanceId) (group : StepGroup) : Bool :=
  group.values.head?.any fun first => first.jobInstanceId == id

/-- The groups among which a step of this execution is saved: if it is the first one there, the
groups of other executions of the instance are left out. -/
def retained (store : StepStore) (step : StepExecution) :
    SortedMap JobExecutionId StepGroup :=
  if store.groups.contains step.jobExecutionId then store.groups
  else store.groups.filter fun _ group => !isGroupOf step.jobInstanceId group

def save (store : StepStore) (step : StepExecution) :
    Except StoreError (StepExecution × StepStore) :=
  match step.id with
  | some id => .error (.alreadySaved .stepExecution id.value)
  | none =>
    let groups := store.retained step
    let id : StepExecutionId := ⟨store.lastId + 1⟩
    let saved := { step with id := some id, version := 1 }
    let group := (groups.get? step.jobExecutionId).getD .empty
    .ok (saved, ⟨groups.insert step.jobExecutionId (group.insert id saved), id.value⟩)

/-- Saves new steps one after the other, up to the first one that is refused. The steps come back as
they are afterwards. -/
def saveAll (store : StepStore) :
    List StepExecution → Except StoreError Unit × List StepExecution × StepStore
  | [] => (.ok (), [], store)
  | step :: rest =>
    match store.save step with
    | .error error => (.error error, step :: rest, store)
    | .ok (saved, store) =>
      let (result, others, store) := saveAll store rest
      (result, saved :: others, store)

/-- Writes a step from a copy with the current version. -/
def update (store : StepStore) (step : StepExecution) :
    Except StoreError (StepExecution × StepStore) :=
  match step.id with
  | none => .error (.missingId .stepExecution)
  | some id =>
    match store.groups.get? step.jobExecutionId with
    | none => .error (.notSaved .stepExecution id.value)
    | some group =>
      match group.get? id with
      | none => .error (.notSaved .stepExecution id.value)
      | some stored =>
        if stored.version = step.version then
          let written := { step with version := step.version + 1 }
          .ok (written, { store with
            groups := store.groups.insert step.jobExecutionId (group.insert id written) })
        else .error (.optimisticLock .stepExecution id.value step.version stored.version)

/-- Of two steps, the one started later or, at the same moment, the one numbered later. -/
def later (first second : StepExecution) : StepExecution :=
  match compare first.startTime second.startTime with
  | .lt => second
  | .eq => if (compare first.id second.id).isGT then first else second
  | .gt => first

/-- The step of this name within an instance that was started last. -/
def last? (store : StepStore) (id : JobInstanceId) (stepName : String) : Option StepExecution :=
  let steps := store.groups.values.flatMap SortedMap.values
  match steps.filter fun step => step.jobInstanceId == id && step.stepName == stepName with
  | [] => none
  | first :: rest => some (rest.foldl later first)

/-- The execution with its stored steps, the latest number first. If none is stored, its own steps
stay. -/
def attach (store : StepStore) (execution : JobExecution) : Except StoreError JobExecution :=
  match execution.id with
  | none => .error (.missingId .jobExecution)
  | some id =>
    match store.groups.get? id with
    | none => .ok execution
    | some group =>
      if group.isEmpty then .ok execution
      else .ok { execution with steps := group.values.reverse }

end StepStore

end BatchRun
