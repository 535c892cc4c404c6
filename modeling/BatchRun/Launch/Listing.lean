import BatchRun.Launch.Launcher
import BatchRun.Text.Quoted

/-! # Listings of jobs and launchers

For diagnostics, a job, a launcher and its retry policy are listed with their settings. Settings
that are programs are left out.
-/

namespace BatchRun

/-- A record by name, with its fields in order. Two dots tell that there is more to it. -/
def listRecord (name : String) (fields : List (String × String)) (more : Bool) : String :=
  let listed := fields.map fun (field, value) => field ++ ": " ++ value
  name ++ " \x7b " ++ ", ".intercalate (listed ++ if more then [".."] else []) ++ " \x7d"

def listBool (value : Bool) : String := if value then "true" else "false"

/-- The strategy with a capital letter. -/
def BackoffStrategy.listing : BackoffStrategy → String
  | fixed => "Fixed"
  | exponential => "Exponential"
  | linear => "Linear"

def RetryPolicy.listing (policy : RetryPolicy) : String :=
  listRecord "RetryPolicy" [
    ("max_attempts", toString policy.maxAttempts),
    ("base_delay", policy.baseDelay.text),
    ("max_delay", policy.maxDelay.text),
    ("strategy", policy.strategy.listing),
    ("jitter", Number.listing.text policy.jitter)] false

def Launcher.listing (launcher : Launcher) : String :=
  listRecord "JobLauncher" [
    ("retry_policy", launcher.policy.listing),
    ("recovery_handler", listBool launcher.recovery.isSome)] true

def Job.listing {m : Type → Type} (job : Job m) : String :=
  listRecord "SimpleJob" [
    ("name", Text.quote job.name),
    ("restartable", listBool job.restartable),
    ("validator", listBool job.validator.isSome)] true

/-- An operator has no settings. -/
def operatorListing : String := listRecord "JobOperator" [] true

/-- The repository keeps its contents to itself. -/
def Repository.listing : String := listRecord "SimpleJobRepository" [] true

end BatchRun
