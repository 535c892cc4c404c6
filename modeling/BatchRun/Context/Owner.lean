import BatchRun.Id

/-! # Owners of contexts

A stored context belongs to a job execution or to a step execution. The two are numbered
independently, so the kind is part of the owner.
-/

namespace BatchRun

inductive OwnerKind
  | job
  | step
deriving DecidableEq, Repr

def OwnerKind.name : OwnerKind → String
  | job => "job"
  | step => "step"

def OwnerKind.ofName? : String → Option OwnerKind
  | "job" => some job
  | "step" => some step
  | _ => none

/-- What a stored context belongs to. -/
inductive ContextOwner
  | job (id : JobExecutionId)
  | step (id : StepExecutionId)
deriving DecidableEq, Repr

namespace ContextOwner

def kind : ContextOwner → OwnerKind
  | job _ => .job
  | step _ => .step

/-- The number of the owner among those of its kind. -/
def number : ContextOwner → UInt64
  | job id => id.value
  | step id => id.value

def text (owner : ContextOwner) : String := owner.kind.name ++ ":" ++ toString owner.number

end ContextOwner

end BatchRun
