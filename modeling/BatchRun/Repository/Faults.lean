import BatchRun.Repository.Request

/-! # Planned faults

For tests of what happens when the books cannot be kept, a plan says how many of the next writes
of executions fail and how many of them lose a race, and whether refreshing a copy fails. A request
that fails according to the plan does nothing else.
-/

namespace BatchRun

/-- The faults to come. -/
structure FaultPlan where
  /-- How many of the next writes of executions fail. -/
  failingUpdates : Nat
  /-- How many of the writes after these lose a race. -/
  lostRaces : Nat
  /-- Whether refreshing a copy of an execution fails. -/
  failingSync : Bool
deriving DecidableEq, Repr

namespace FaultPlan

def empty : FaultPlan := ⟨0, 0, false⟩

/-- The error of a writer who comes one version too late. -/
def lostRace (execution : JobExecution) : RepositoryError :=
  .store (.optimisticLock .jobExecution ((execution.id.map (·.value)).getD 0) execution.version
    (execution.version + 1))

/-- Whether the error of a lost race would have to show a version beyond 64 bits. -/
def overflows (plan : FaultPlan) : Request → Bool
  | .update execution =>
    plan.failingUpdates == 0 && plan.lostRaces != 0 && execution.version + 1 == 0
  | _ => false

/-- The answer that is planned for a request, and the plan for those after it. Other requests are
left to the repository. -/
def intercept? (plan : FaultPlan) : (request : Request) → Option (request.Answer × FaultPlan)
  | .update execution =>
    match plan.failingUpdates, plan.lostRaces with
    | failing + 1, _ =>
      some (⟨.error (.store .poisoned), execution⟩, { plan with failingUpdates := failing })
    | 0, lost + 1 =>
      some (⟨.error (lostRace execution), execution⟩, { plan with lostRaces := lost })
    | 0, 0 => none
  | .synchronize execution =>
    if plan.failingSync then some (⟨.error (.store .poisoned), execution⟩, plan) else none
  | _ => none

/-- Answers a request from the plan or else from the repository. -/
def answer (plan : FaultPlan) (repository : Repository) (now : Timestamp) (request : Request) :
    request.Answer × FaultPlan × Repository :=
  match plan.intercept? request with
  | some (answer, plan) => (answer, plan, repository)
  | none =>
    let (answer, repository) := repository.answer now request
    (answer, plan, repository)

end FaultPlan

end BatchRun
