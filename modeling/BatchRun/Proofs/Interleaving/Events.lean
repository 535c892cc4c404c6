import BatchRun.Proofs.Interleaving.SingleFlight

/-! # Paths of events

A path keeps what has happened on the way from one state of the system to another: which call has
got which answer, and what others have requested in between. Every step is an event, so a property
of all paths is a property of all reachable states.
-/

namespace BatchRun

/-- What happens in one step. -/
inductive Event (ι : Type)
  /-- A call has got an answer to an action. -/
  | answered (i : ι) (action : Action) (answer : action.Answer)
  /-- A body or somebody else has made a request. -/
  | client (request : Request)

namespace System

variable {ι : Type} [DecidableEq ι] {calls : ι → Call} {s t u : System ι} {i j : ι}
  {event : Event ι} {events : List (Event ι)}

/-- One atomic step and what happens in it. -/
inductive Happens : System ι → Event ι → System ι → Prop
  | request {s : System ι} (i : ι) (moment : Timestamp) {request : Request}
      {next : request.Answer → Program Call.Result}
      (ready : (s.threads i).program = .act (.request request) next) :
      Happens s
        (.answered i (.request request) (s.books.repository.answer moment request).1)
        ⟨s.books.after moment request, Function.update s.threads i
          ((s.threads i).advance (.request request) next
            (s.books.repository.answer moment request).1)⟩
  | other {s : System ι} (i : ι) {action : Action} {next : action.Answer → Program Call.Result}
      (ready : (s.threads i).program = .act action next) (answer : action.Answer)
      (admitted : action.Admits answer) :
      Happens s (.answered i action answer)
        ⟨s.books, Function.update s.threads i ((s.threads i).advance action next answer)⟩
  | client {s : System ι} (moment : Timestamp) (request : Request)
      (honest : s.books.Honest request) :
      Happens s (.client request) ⟨s.books.after moment request, s.threads⟩

/-- A path with its events, the first one first. -/
inductive Path : System ι → List (Event ι) → System ι → Prop
  | nil (s : System ι) : Path s [] s
  | snoc {s t u : System ι} {event : Event ι} {events : List (Event ι)} :
      Path s events t → Happens t event u → Path s (events ++ [event]) u

/-- An event is a step of the system. -/
theorem Happens.step (happens : Happens s event t) : Step s t := by
  cases happens with
  | request i moment ready => exact .request i moment ready
  | other i ready answer admitted => exact .other i ready answer admitted
  | client moment request honest => exact .client moment request honest

/-- Events lead to a state that the system reaches. -/
theorem Path.reaches (path : Path s events t) : Reaches s t := by
  induction path with
  | nil => exact .refl
  | snoc _ happens ih => exact ih.tail happens.step

/-- What is held after a step was held before, or it has a number of its own. -/
theorem Sound.held_of_step {held : JobExecution} (sound : Sound calls s) (step : Step s t)
    (bound : t.books.created < 2 ^ 64) (holding : (t.threads j).held = some held) :
    (s.threads j).held = some held ∨ ∀ record ∈ s.books.past, record.id ≠ held.id := by
  cases step with
  | request i moment ready =>
    rcases sound.held_request ready bound holding with
      ⟨-, jobName, parameters, after, rfl, created⟩ | ⟨before, -⟩
    · obtain ⟨-, -, -, next⟩ := sound.books.pinned_of_created bound created
      rw [next]
      exact .inr fun record member => sound.books.nextId_fresh_of_created bound created member
    · exact .inl before
  | @other i action next ready answer admitted =>
    by_cases own : j = i
    · subst own
      obtain ⟨same, -⟩ := (s.threads j).standing.after_of_admits admitted
      simp only [Function.update_self] at holding
      exact .inl ((congrArg Standing.held same).symm.trans holding)
    · simp only [Function.update_of_ne own] at holding
      exact .inl holding
  | client moment request honest => exact .inl holding

end System

end BatchRun
