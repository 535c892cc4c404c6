import BatchRun.Proofs.Clients.Stopping
import BatchRun.Proofs.Interleaving.System
import BatchRun.Proofs.Launch.Hand

/-! # Calls one after the other

Launches and operators' calls are run from start to end on the repository of a session, and so are
claims. A call works with the copies that it has been given, and a body works as a client. So
whatever a sequence of calls leads to, clients can do as well that only raise statuses, or do
besides what the bodies may do.
-/

namespace BatchRun

/-- Every call works with the copies that it has been given. -/
theorem Call.follows_hand (call : Call) :
    call.program.Follows Hand.protocol (fun _ _ => True) [] := by
  cases call with
  | launch launcher settings parameters rejection =>
    apply Program.Follows.bind
    exact (Launch.follows_hand launcher settings parameters rejection).imp fun _ _ _ => trivial
  | stop id =>
    apply Program.Follows.bind
    exact (Operator.Follows.hand Operator.custody_stop).imp fun _ _ _ => trivial
  | abandon id =>
    apply Program.Follows.bind
    exact (Operator.Follows.hand Operator.custody_abandon).imp fun _ _ _ => trivial

namespace Session

variable {Permitted : JobExecution → JobExecution → Prop} {session after next : Session}
  {α β : Type} {program : Program α} {value : α} {hand : Hand}

/-- A program is run from start to end. The body of a job works as a client: the execution that it
is given is in hand when it begins, and it leaves a copy that is in hand in the end. -/
inductive Runs (Permitted : JobExecution → JobExecution → Prop) {α : Type} :
    Session → Program α → α → Session → Prop
  | done (session : Session) (value : α) : Runs Permitted session (.done value) value session
  | request {session after : Session} {request : Request} {next : request.Answer → Program α}
      {value : α} (now : Timestamp)
      (rest : Runs Permitted ((session.handing request).call now request)
        (next (session.repository.answer now request).1) value after) :
      Runs Permitted session (.act (.request request) next) value after
  | now {session after : Session} {next : Timestamp → Program α} {value : α} (moment : Timestamp)
      (rest : Runs Permitted session (next moment) value after) :
      Runs Permitted session (.act .now next) value after
  | pause {session after : Session} {duration : Duration} {next : Unit → Program α} {value : α}
      (rest : Runs Permitted session (next ()) value after) :
      Runs Permitted session (.act (.pause duration) next) value after
  | body {session working after : Session} {given left : JobExecution} {ending : BodyEnd}
      {next : BodyEnd × JobExecution → Program α} {value : α}
      (works : Reaches Permitted (session.hold given) working) (inHand : left ∈ working.executions)
      (rest : Runs Permitted working (next (ending, left)) value after) :
      Runs Permitted session (.act (.invoke given) next) value after

namespace Runs

theorem few (runs : Runs Permitted session program value after) (few : after.Few) :
    session.Few := by
  induction runs with
  | done => exact few
  | request now rest ih => exact few_of_handing (ih few)
  | now moment rest ih => exact ih few
  | pause rest ih => exact ih few
  | body works inHand rest ih => exact works.few (ih few)

/-- One program goes on where another one has ended. -/
theorem bind {middle : Session} {result : β} {rest : α → Program β}
    (first : Runs Permitted session program value middle)
    (second : Runs Permitted middle (rest value) result after) :
    Runs Permitted session (program >>= rest) result after := by
  induction first with
  | done => exact second
  | request now _ ih => exact .request now (ih second)
  | now moment _ ih => exact .now moment (ih second)
  | pause _ ih => exact .pause (ih second)
  | body works inHand _ ih => exact .body works inHand (ih second)

/-- A run goes through the first program and then through the rest. -/
theorem bind_cases {result : β} {rest : α → Program β}
    (runs : Runs Permitted session (program >>= rest) result after) :
    ∃ value middle, Runs Permitted session program value middle ∧
      Runs Permitted middle (rest value) result after := by
  induction program generalizing session with
  | done value => exact ⟨value, session, .done session value, runs⟩
  | act action next ih =>
    change Runs Permitted session (.act action fun answer => (next answer).andThen rest) result
      after at runs
    cases runs with
    | request now others =>
      obtain ⟨value, middle, first, second⟩ := ih _ others
      exact ⟨value, middle, .request now first, second⟩
    | now moment others =>
      obtain ⟨value, middle, first, second⟩ := ih _ others
      exact ⟨value, middle, .now moment first, second⟩
    | pause others =>
      obtain ⟨value, middle, first, second⟩ := ih _ others
      exact ⟨value, middle, .pause first, second⟩
    | body works inHand others =>
      obtain ⟨value, middle, first, second⟩ := ih _ others
      exact ⟨value, middle, .body works inHand first, second⟩

private theorem prepares_of_allows {request : Request} (sound : session.Sound)
    (permits : ∀ original given : JobExecution, original.status ≤ given.status →
      Permitted original given)
    (held : ∀ copy ∈ hand, copy ∈ session.executions) (allowed : hand.Allows (.request request)) :
    session.Prepares Permitted request := by
  cases request with
  | update given | synchronize given | updateContext given =>
    obtain ⟨original, member, onward⟩ := allowed
    have inHand := held original member
    exact ⟨original, inHand, onward.toEditOf, onward.steps ▸ sound.inside original inHand,
      permits original given onward.status⟩
  | updateStep given =>
    obtain ⟨execution, member, step, within, same⟩ := allowed
    exact ⟨step, sound.inside execution (held execution member) step within, same⟩
  | addStep given | updateStepContext given => exact False.elim allowed
  | _ => exact trivial

/-- What is done in a run can be done by clients that may raise statuses. -/
theorem reaches (runs : Runs Permitted session program value after)
    (permits : ∀ original given : JobExecution, original.status ≤ given.status →
      Permitted original given)
    {Final : Hand → α → Prop} (follows : program.Follows Hand.protocol Final hand)
    (held : ∀ copy ∈ hand, copy ∈ session.executions) (sound : session.Sound) (few : after.Few) :
    Reaches Permitted session after := by
  induction runs generalizing hand with
  | done => exact .refl
  | @request session after request next value now rest ih =>
    obtain ⟨allowed, goesOn⟩ := follows
    have asks := (prepares_of_allows sound permits held allowed).reaches now
    refine asks.trans (ih (goesOn _ trivial) ?_ (sound.reaches asks (rest.few few)) few)
    intro copy member
    rcases List.mem_append.1 member with before | handed
    · exact asks.mem_executions (held copy before)
    · exact mem_of_handed handed
  | now moment rest ih => exact ih (follows.2 moment trivial) held sound few
  | pause rest ih => exact ih (follows.2 () trivial) held sound few
  | @body session working after given left ending next value works inHand rest ih =>
    obtain ⟨⟨original, member, onward⟩, goesOn⟩ := follows
    have known := held original member
    have begins : Reaches Permitted session (session.hold given) := Reaches.edit .refl given known
      onward.toEditOf (onward.steps ▸ sound.inside original known)
      (permits original given onward.status)
    have asks : Reaches Permitted session working := begins.trans works
    refine asks.trans (ih (goesOn (ending, left) trivial) ?_ (sound.reaches asks (rest.few few))
      few)
    intro copy member
    rcases List.mem_append.1 member with before | isLeft
    · exact asks.mem_executions (held copy before)
    · exact List.mem_singleton.1 isLeft ▸ inHand

end Runs

/-- A launch, an operator's call or a claim, from start to end. -/
inductive Next (Permitted : JobExecution → JobExecution → Prop) (session : Session) :
    Session → Prop
  | call (call : Call) {result : Call.Result} {after : Session}
      (runs : Runs Permitted session call.program result after) : Next Permitted session after
  | claim (now : Timestamp) (jobName : String) (parameters : JobParameters) :
      Next Permitted session (session.call now (.createExecution jobName parameters))

/-- Any number of them, one after the other. -/
abbrev Later (Permitted : JobExecution → JobExecution → Prop) : Session → Session → Prop :=
  Relation.ReflTransGen (Next Permitted)

theorem Later.few (later : Later Permitted session next) (few : next.Few) : session.Few := by
  induction later with
  | refl => exact few
  | @tail middle next _ step ih =>
    cases step with
    | call call runs => exact ih (runs.few few)
    | claim now jobName parameters =>
      have claims : Step Permitted middle (middle.call now (.createExecution jobName parameters)) :=
        .call now trivial
      exact ih (claims.few few)

/-- What calls lead to can be done by clients that may raise statuses. -/
theorem Later.reaches (later : Later Permitted session next)
    (permits : ∀ original given : JobExecution, original.status ≤ given.status →
      Permitted original given)
    (sound : session.Sound) (few : next.Few) : Reaches Permitted session next := by
  induction later with
  | refl => exact .refl
  | @tail middle next _ step ih =>
    cases step with
    | call call runs =>
      have before := ih (runs.few few)
      have follows := call.follows_hand
      exact before.trans (runs.reaches permits follows (fun _ member => absurd member
        List.not_mem_nil) (sound.reaches before (runs.few few)) few)
    | claim now jobName parameters =>
      have made :
          Reaches Permitted middle (middle.call now (.createExecution jobName parameters)) :=
        .call .refl now _ trivial
      exact (ih (made.few few)).trans made

end Session

end BatchRun
