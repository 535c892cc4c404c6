import BatchRun.Launch.Launcher
import BatchRun.Operator

/-! # Programs as trees of actions

A launch or an operator's call runs in any monad with requests. Taken in the monad of trees it is
the plain list of what it asks for, with one branch for each answer, so it can be run from start to
end or be interrupted between any two actions. The body of a job is one such action: what it does
is up to whoever answers.
-/

namespace BatchRun

/-- What a program can ask for. -/
inductive Action
  | request (request : Request)
  | now
  | pause (duration : Duration)
  /-- To run the body of the job on this execution. -/
  | invoke (execution : JobExecution)

/-- What is answered to an action. -/
def Action.Answer : Action → Type
  | request made => made.Answer
  | now => Timestamp
  | pause _ => Unit
  | invoke _ => BodyEnd × JobExecution

/-- A value, or an action and how to go on with its answer. -/
inductive Program (α : Type) : Type
  | done (value : α)
  | act (action : Action) (next : action.Answer → Program α)

namespace Program

variable {α β σ : Type}

/-- Goes on with another program where the first one ends. -/
def andThen : Program α → (α → Program β) → Program β
  | done value, rest => rest value
  | act action next, rest => act action fun answer => (next answer).andThen rest

instance : Monad Program where
  pure := done
  bind := andThen

instance : LawfulMonad Program := LawfulMonad.mk' Program
  (fun program => by
    induction program with
    | done value => rfl
    | act action next ih => exact congrArg (act action) (funext ih))
  (fun _ _ => rfl)
  (fun program first second => by
    induction program with
    | done value => rfl
    | act action next ih => exact congrArg (act action) (funext ih))

instance : MonadRepository Program where
  request request := act (.request request) done
  now := act .now done
  pause duration := act (.pause duration) done

/-- Runs the body of the job. -/
def invoke (execution : JobExecution) : Program (BodyEnd × JobExecution) :=
  act (.invoke execution) done

end Program

/-- One run of a body: the execution that it was given, and the execution as it left it. -/
structure BodyRun where
  given : JobExecution
  left : JobExecution

/-- A job without its body. -/
structure JobSettings where
  name : String
  restartable : Bool
  validator : Option (JobParameters → Except DomainError Unit)

/-- The job with these settings; each run of its body is one action. -/
def JobSettings.job (settings : JobSettings) : Job Program where
  name := settings.name
  restartable := settings.restartable
  validator := settings.validator
  body := Program.invoke

/-- What a program may ask for in a state, which answers it relies on, and how these move the state
on. -/
structure Protocol (σ : Type) where
  Allows : σ → Action → Prop
  Expects : σ → (action : Action) → action.Answer → Prop
  after : σ → (action : Action) → action.Answer → σ

/-- A program keeps to the protocol from this state on, and where it ends, `Final` holds. -/
def Program.Follows {σ α : Type} (protocol : Protocol σ) (Final : σ → α → Prop) :
    σ → Program α → Prop
  | state, done value => Final state value
  | state, act action next => protocol.Allows state action ∧
    ∀ answer, protocol.Expects state action answer →
      Follows protocol Final (protocol.after state action answer) (next answer)

namespace Program

variable {α β σ : Type} {protocol : Protocol σ} {state : σ}

/-- A program that ends where the rest may begin. -/
theorem Follows.bind {Final : σ → β → Prop} {program : Program α} {rest : α → Program β}
    (follows : program.Follows protocol
      (fun after value => (rest value).Follows protocol Final after) state) :
    (program >>= rest).Follows protocol Final state := by
  induction program generalizing state with
  | done value => exact follows
  | act action next ih =>
    obtain ⟨allowed, goesOn⟩ := follows
    exact ⟨allowed, fun answer expected => ih answer (goesOn answer expected)⟩

/-- What holds at the end can be weakened. -/
theorem Follows.imp {Final Weaker : σ → α → Prop} {program : Program α}
    (follows : program.Follows protocol Final state)
    (weaker : ∀ after value, Final after value → Weaker after value) :
    program.Follows protocol Weaker state := by
  induction program generalizing state with
  | done value => exact weaker state value follows
  | act action next ih =>
    obtain ⟨allowed, goesOn⟩ := follows
    exact ⟨allowed, fun answer expected => ih answer (goesOn answer expected)⟩

/-- A program that keeps to a fine protocol keeps to a coarse one as well, if their states can be
related so that the coarse one allows no less and relies on no fewer answers. -/
theorem Follows.simulate {τ : Type} {coarse : Protocol τ} {abstract : τ} {Final : σ → α → Prop}
    {Coarse : τ → α → Prop} {program : Program α}
    (follows : program.Follows protocol Final state) (Related : σ → τ → Prop)
    (related : Related state abstract)
    (allows : ∀ {fine abstract action}, Related fine abstract → protocol.Allows fine action →
      coarse.Allows abstract action)
    (goesOn : ∀ {fine abstract action answer}, Related fine abstract →
      protocol.Allows fine action → coarse.Expects abstract action answer →
      protocol.Expects fine action answer ∧
        Related (protocol.after fine action answer) (coarse.after abstract action answer))
    (ends : ∀ {fine abstract value}, Related fine abstract → Final fine value →
      Coarse abstract value) :
    program.Follows coarse Coarse abstract := by
  induction program generalizing state abstract with
  | done value => exact ends related follows
  | act action next ih =>
    obtain ⟨allowed, rest⟩ := follows
    refine ⟨allows related allowed, fun answer expected => ?_⟩
    obtain ⟨relied, still⟩ := goesOn related allowed expected
    exact ih answer (rest answer relied) still

end Program

end BatchRun
