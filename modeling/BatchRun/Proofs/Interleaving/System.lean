import BatchRun.Proofs.Interleaving.Calls
import Mathlib.Logic.Function.Basic
import Mathlib.Logic.Relation

/-! # Launches and operators on one repository

Any number of launches, stops and abandonments share a repository. Each of them is a thread that
takes one action at a time, and any order of their actions is a run of the system. While a thread
is at the body of its job, and at any other time, somebody else may request whatever they like, as
long as they only write copies of records that have been stored at some time, with their status.
-/

namespace BatchRun

/-- The statuses of an execution that holds its instance. -/
def BatchStatus.running : List BatchStatus := [starting, started, stopping]

theorem BatchStatus.mem_running {status : BatchStatus} :
    status ∈ running ↔ status.isRunning = true := by
  cases status <;> decide

/-- What runs cannot be claimed. -/
theorem BatchStatus.unclaimable_of_running : ∀ status ∈ running, status ∉ claimable := by decide

/-- What has been asked to stop still runs. -/
theorem BatchStatus.stopping_of_running {status : BatchStatus} (running : status.isRunning = true) :
    status.upgradeTo .stopping ∈ BatchStatus.running := by
  cases status <;> revert running <;> decide

/-- A call on a shared repository. -/
inductive Call
  /-- A launch; a rejection means that nobody takes over the run. -/
  | launch (launcher : Launcher) (settings : JobSettings) (parameters : JobParameters)
      (rejection : Option TaskRejected)
  | stop (id : JobExecutionId)
  | abandon (id : JobExecutionId)

namespace Call

/-- What a call gives to its caller. -/
inductive Result
  | launched (outcome : LaunchOutcome)
  | operated (outcome : Except OperatorError JobExecution)

/-- What a call does. -/
def program : Call → Program Result
  | launch launcher settings parameters rejection => .launched <$>
      Launch.launch settings.job parameters fun execution => match rejection with
        | some rejected => return .rejected rejected
        | none => return .ran (← launcher.run settings.job execution)
  | stop id => .operated <$> Operator.stop id
  | abandon id => .operated <$> Operator.abandon id

/-- The job name and identity key of the instance that a launch is for. -/
def target? : Call → Option (String × String)
  | launch _ settings parameters _ => some (settings.name, parameters.identityKey)
  | _ => none

/-- What a call asks for. -/
def Allows : Call → Standing → Action → Prop
  | launch _ settings parameters _ => Launch.Allows settings.name parameters
  | stop _ => Operator.Allows .stopping fun execution => execution.isRunning = true
  | abandon _ => Operator.Allows .abandoned fun execution => execution.isRunning = false

/-- How a call goes. -/
def protocol (call : Call) : Protocol Standing := ⟨call.Allows, Standing.Expects, Standing.after⟩

/-- Where a launch ends, nothing is held any more. -/
def Final (call : Call) (standing : Standing) (_ : Result) : Prop :=
  call.target? ≠ none → standing.held = none

/-- Every call follows its protocol. -/
theorem follows (call : Call) : call.program.Follows call.protocol call.Final ⟨none, []⟩ := by
  cases call with
  | launch launcher settings parameters rejection =>
    refine Program.Follows.bind
      ((Launch.follows_launch launcher settings parameters rejection).imp ?_)
    exact fun standing outcome released _ => released
  | stop id =>
    apply Program.Follows.bind
    apply Operator.follows_stop.imp
    exact fun standing outcome _ launched => absurd rfl launched
  | abandon id =>
    apply Program.Follows.bind
    apply Operator.follows_abandon.imp
    exact fun standing outcome _ launched => absurd rfl launched

end Call

/-- A call on its way. -/
structure Thread where
  program : Program Call.Result
  standing : Standing

namespace Thread

/-- A call that has got an answer. -/
def advance (thread : Thread) (action : Action) (next : action.Answer → Program Call.Result)
    (answer : action.Answer) : Thread :=
  ⟨next answer, thread.standing.after action answer⟩

/-- The execution that has been claimed and whose outcome has not been written yet. -/
def held (thread : Thread) : Option JobExecution := thread.standing.held

/-- The body of the job is running. -/
def InBody (thread : Thread) : Prop :=
  ∃ execution next, thread.program = .act (.invoke execution) next

end Thread

/-- Requests by which only copies of past records are written. -/
def Books.Honest (books : Books) (request : Request) : Prop :=
  ∀ copy, request = .update copy → copy.id ≠ none → ∃ record ∈ books.past, copy.CopyOf record

/-- The answers there may be to an action other than a request. -/
def Action.Admits : (action : Action) → action.Answer → Prop
  | request _, _ => False
  | now, _ | pause _, _ => True
  | invoke execution, (_, left) => left.SameRecord execution

/-- A shared repository and all calls. -/
structure System (ι : Type) where
  books : Books
  threads : ι → Thread

namespace System

variable {ι : Type} [DecidableEq ι] {calls : ι → Call} {s t u : System ι}

/-- Nothing has been done yet. -/
def start (calls : ι → Call) : System ι := ⟨.empty, fun i => ⟨(calls i).program, ⟨none, []⟩⟩⟩

/-- One atomic step. -/
inductive Step : System ι → System ι → Prop
  /-- A thread makes its request. -/
  | request {s : System ι} (i : ι) (moment : Timestamp) {request : Request}
      {next : request.Answer → Program Call.Result}
      (ready : (s.threads i).program = .act (.request request) next) :
      Step s ⟨s.books.after moment request, Function.update s.threads i
        ((s.threads i).advance (.request request) next
          (s.books.repository.answer moment request).1)⟩
  /-- A thread looks at the clock or has waited, or the body of its job has ended. -/
  | other {s : System ι} (i : ι) {action : Action} {next : action.Answer → Program Call.Result}
      (ready : (s.threads i).program = .act action next) (answer : action.Answer)
      (admitted : action.Admits answer) :
      Step s ⟨s.books, Function.update s.threads i ((s.threads i).advance action next answer)⟩
  /-- A body or somebody else makes a request. -/
  | client {s : System ι} (moment : Timestamp) (request : Request)
      (honest : s.books.Honest request) : Step s ⟨s.books.after moment request, s.threads⟩

/-- Any number of steps in any order. -/
abbrev Reaches : System ι → System ι → Prop := Relation.ReflTransGen Step

theorem Step.created_le (step : Step s t) : s.books.created ≤ t.books.created := by
  cases step with
  | request => exact Books.created_le_after
  | other => exact Nat.le_refl _
  | client => exact Books.created_le_after

/-- What a step adds to the history is stored after it. -/
theorem Step.past_cases (step : Step s t) {record : JobExecution} (member : record ∈ t.books.past) :
    record ∈ s.books.past ∨ ∃ id, t.books.repository.executions.get? id = some record := by
  cases step with
  | request => exact (Books.mem_past_after.1 member).symm
  | other => exact .inl member
  | client => exact (Books.mem_past_after.1 member).symm

/-- The history only grows. -/
theorem Step.past_le (step : Step s t) : ∀ record ∈ s.books.past, record ∈ t.books.past := by
  intro record member
  cases step with
  | request => exact Books.mem_past_after.2 (.inr member)
  | other => exact member
  | client => exact Books.mem_past_after.2 (.inr member)

theorem Reaches.created_le (reaches : Reaches s t) : s.books.created ≤ t.books.created := by
  induction reaches with
  | refl => exact Nat.le_refl _
  | tail _ step ih => exact Nat.le_trans ih step.created_le

/-- Records that have been stored are not forgotten. -/
theorem Reaches.past_le (reaches : Reaches s t) :
    ∀ record ∈ s.books.past, record ∈ t.books.past := by
  induction reaches with
  | refl => exact fun _ member => member
  | tail _ step ih => exact fun record member => step.past_le record (ih record member)

end System

end BatchRun
