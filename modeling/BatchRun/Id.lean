import BatchRun.DomainError
import BatchRun.Text.Numeral

/-! # Identifiers

Instances, executions and steps are numbered independently. An identifier carries the kind of
record it belongs to, so numbers of different kinds are never mixed up.
-/

namespace BatchRun

/-- The kinds of numbered records. -/
inductive RecordKind
  | jobInstance
  | jobExecution
  | stepExecution
deriving DecidableEq, Repr

/-- The number of a record of some kind. -/
structure RecordId (kind : RecordKind) where
  value : UInt64
deriving DecidableEq, Repr

abbrev JobInstanceId := RecordId .jobInstance
abbrev JobExecutionId := RecordId .jobExecution
abbrev StepExecutionId := RecordId .stepExecution

/-- The name of the kind in error texts. -/
def RecordKind.idName : RecordKind → String
  | .jobInstance => "JobInstanceId"
  | .jobExecution => "JobExecutionId"
  | .stepExecution => "StepExecutionId"

namespace RecordId

variable {kind : RecordKind}

instance : Ord (RecordId kind) := ⟨fun first second => compare first.value second.value⟩

instance : ToString (RecordId kind) := ⟨fun id => toString id.value⟩

theorem compare_def (first second : RecordId kind) :
    compare first second = compare first.value second.value := rfl

instance : Std.TransOrd (RecordId kind) where
  eq_swap := Std.OrientedOrd.eq_swap (α := UInt64)
  isLE_trans := Std.TransOrd.isLE_trans (α := UInt64)

instance : Std.LawfulEqOrd (RecordId kind) where
  compare_self := Std.ReflOrd.compare_self (α := UInt64)
  eq_of_compare := fun {first second} equal => by
    cases first; cases second
    exact congrArg _ (Std.LawfulEqOrd.eq_of_compare (α := UInt64) equal)

def parse (text : String) : Except DomainError (RecordId kind) :=
  match Text.readUInt64 text with
  | .ok value => .ok ⟨value⟩
  | .error fault => .error (.invalidId (kind.idName ++ ": " ++ fault.message))

end RecordId

end BatchRun
