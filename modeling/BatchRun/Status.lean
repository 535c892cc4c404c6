/-! # Lifecycle statuses

The statuses of a job or step execution are linearly ordered, from `starting` up to `unknown`.
Upgrading moves a status up that order or not at all.
-/

namespace BatchRun

inductive BatchStatus
  | starting
  | started
  | stopping
  | stopped
  | completed
  | failed
  | abandoned
  | unknown
deriving DecidableEq, Repr

namespace BatchStatus

def all : List BatchStatus :=
  [starting, started, stopping, stopped, completed, failed, abandoned, unknown]

def ordinal : BatchStatus → Nat
  | starting => 0
  | started => 1
  | stopping => 2
  | stopped => 3
  | completed => 4
  | failed => 5
  | abandoned => 6
  | unknown => 7

instance : Ord BatchStatus := ⟨fun first second => compare first.ordinal second.ordinal⟩
instance : LT BatchStatus := ⟨fun first second => first.ordinal < second.ordinal⟩
instance : LE BatchStatus := ⟨fun first second => first.ordinal ≤ second.ordinal⟩
instance : DecidableLT BatchStatus := fun first second =>
  inferInstanceAs (Decidable (first.ordinal < second.ordinal))
instance : DecidableLE BatchStatus := fun first second =>
  inferInstanceAs (Decidable (first.ordinal ≤ second.ordinal))

/-- An execution in one of these statuses still holds its instance. -/
def isRunning : BatchStatus → Bool
  | starting | started | stopping => true
  | _ => false

/-- An execution in one of these statuses has ended in a known way. -/
def isTerminal : BatchStatus → Bool
  | stopped | completed | failed | abandoned => true
  | _ => false

/-- From `failed` upwards a status is unsuccessful. -/
def isUnsuccessful (status : BatchStatus) : Bool := failed ≤ status

/-- The higher one of two statuses. -/
def upgradeTo (status other : BatchStatus) : BatchStatus :=
  if status < other then other else status

def name : BatchStatus → String
  | starting => "STARTING"
  | started => "STARTED"
  | stopping => "STOPPING"
  | stopped => "STOPPED"
  | completed => "COMPLETED"
  | failed => "FAILED"
  | abandoned => "ABANDONED"
  | unknown => "UNKNOWN"

def ofName? (name : String) : Option BatchStatus := all.find? (·.name == name)

theorem ofName?_name (status : BatchStatus) : ofName? status.name = some status := by
  cases status <;> decide

theorem ordinal_upgradeTo (status other : BatchStatus) :
    (status.upgradeTo other).ordinal = max status.ordinal other.ordinal := by
  cases status <;> cases other <;> decide

end BatchStatus

end BatchRun
