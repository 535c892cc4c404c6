import BatchRun.Proofs.Interleaving.Events
import Mathlib.Tactic.Choose

/-! # Outcomes that are written over

The terminal write of a launch stores the outcome of its run. An operator who has read the record
before still has the old copy in hand. Its write is not refused: the version of the copy is
refreshed right before it is compared, and the status is merged, but nothing else is. So the
outcome that is stored later on is the one of the launch or of a copy that was waiting to be
written when the launch ended, and such a copy prevails as soon as it is written.
-/

namespace BatchRun

/-- Executions with the same exit status, times and failures. -/
def JobExecution.SameOutcome (first second : JobExecution) : Prop :=
  first.exitStatus = second.exitStatus ∧ first.startTime = second.startTime ∧
    first.endTime = second.endTime ∧ first.failures = second.failures

theorem JobExecution.SameOutcome.refl (execution : JobExecution) :
    execution.SameOutcome execution := ⟨rfl, rfl, rfl, rfl⟩

theorem JobExecution.SameOutcome.trans {first second third : JobExecution}
    (left : first.SameOutcome second) (right : second.SameOutcome third) :
    first.SameOutcome third :=
  ⟨left.1.trans right.1, left.2.1.trans right.2.1, left.2.2.1.trans right.2.2.1,
    left.2.2.2.trans right.2.2.2⟩

/-! ## Operators with a copy in hand -/

namespace Call

variable {call : Call} {hand : Option JobExecution} {action : Action}
  {next : action.Answer → Program Result}

/-- An operator's call that goes on with this copy in hand. -/
def Poised (call : Call) (hand : Option JobExecution) (program : Program Result) : Prop :=
  call.target? = none →
    ∃ status Fit, program.Follows (Operator.course status Fit) (fun _ _ => True) hand

private theorem poised (call : Call) : call.Poised none call.program := by
  cases call with
  | launch launcher settings parameters rejection => exact nofun
  | stop id =>
    intro _
    exact ⟨_, _, Program.Follows.bind (Operator.course_stop.imp fun _ _ _ => trivial)⟩
  | abandon id =>
    intro _
    exact ⟨_, _, Program.Follows.bind (Operator.course_abandon.imp fun _ _ _ => trivial)⟩

/-- A call goes on with what it has in hand after every answer. -/
theorem Poised.advance (poised : call.Poised hand (.act action next)) (answer : action.Answer) :
    call.Poised (Operator.inHand action answer) (next answer) := by
  intro operator
  obtain ⟨status, Fit, -, goesOn⟩ := poised operator
  exact ⟨status, Fit, goesOn answer trivial⟩

/-- What an operator writes is the copy in hand with the status moved up. -/
theorem Poised.write {copy : JobExecution} {next : _ → Program Result}
    (poised : call.Poised hand (.act (.request (.update copy)) next))
    (operator : call.target? = none) :
    ∃ read status, hand = some read ∧ copy = read.upgradeStatus status := by
  obtain ⟨status, Fit, ⟨read, inHand, -, same⟩, -⟩ := poised operator
  exact ⟨read, status, inHand, same⟩

/-- Only the next action can make use of what is in hand. -/
theorem Poised.put_away {program : Program Result} (poised : call.Poised hand program)
    (idle : ∀ copy next, program ≠ .act (.request (.update copy)) next) :
    call.Poised none program := by
  intro operator
  obtain ⟨status, Fit, follows⟩ := poised operator
  refine ⟨status, Fit, ?_⟩
  cases program with
  | done value => exact trivial
  | act action next =>
    obtain ⟨allowed, goesOn⟩ := follows
    refine ⟨?_, goesOn⟩
    cases action with
    | request made =>
      cases made with
      | update copy => exact absurd rfl (idle copy next)
      | _ => exact allowed
    | _ => exact allowed

end Call

namespace System

variable {ι : Type} {calls : ι → Call} {s t u : System ι} {i j : ι} {id : JobExecutionId}
  {held record ended : JobExecution} {moment : Timestamp} {request : Request}
  {Origin : JobExecution → Prop}

/-- An outcome that goes back to one of these executions. -/
def OutcomeOf (Origin : JobExecution → Prop) (record : JobExecution) : Prop :=
  ∃ origin, Origin origin ∧ record.SameOutcome origin

theorem OutcomeOf.of_same {other : JobExecution} (outcome : OutcomeOf Origin other)
    (same : record.SameOutcome other) : OutcomeOf Origin record := by
  obtain ⟨origin, isOrigin, sameOutcome⟩ := outcome
  exact ⟨origin, isOrigin, same.trans sameOutcome⟩

/-- No launch holds this execution, and its outcome goes back to one of these executions, in the
store and in the hands of all operators. -/
structure Concluded (calls : ι → Call) (id : JobExecutionId) (Origin : JobExecution → Prop)
    (s : System ι) : Prop where
  known : ∃ record ∈ s.books.past, record.id = some id
  free : ∀ {j held}, (s.threads j).held = some held → held.id ≠ some id
  inHand : ∀ j, ∃ hand, (calls j).Poised hand (s.threads j).program ∧
    ∀ read, hand = some read → read.id = some id → OutcomeOf Origin read
  stored : ∀ record, s.books.repository.executions.get? id = some record → OutcomeOf Origin record

namespace Concluded

private theorem outcome_of_write {copy : JobExecution} {next : _ → Program Call.Result}
    (concluded : Concluded calls id Origin s) (sound : Sound calls s)
    (ready : (s.threads i).program = .act (.request (.update copy)) next)
    (numbered : copy.id = some id) : OutcomeOf Origin copy := by
  by_cases operator : (calls i).target? = none
  · obtain ⟨hand, poised, possible⟩ := concluded.inHand i
    rw [ready] at poised
    obtain ⟨read, status, inHand, rfl⟩ := poised.write operator
    exact (possible read inHand numbered).of_same (.refl _)
  · obtain ⟨held, holding, same⟩ := sound.held_of_write operator (.inl rfl) ready
    exact absurd (same.1.symm.trans numbered) (concluded.free holding)

private theorem stored_after (concluded : Concluded calls id Origin s) (sound : Sound calls s)
    (bound : (s.books.after moment request).created < 2 ^ 64)
    (writes : ∀ copy, request = .update copy → copy.id = some id → OutcomeOf Origin copy)
    (found : (s.books.after moment request).repository.executions.get? id = some record) :
    OutcomeOf Origin record := by
  have effect := Repository.effect_answer s.books.repository moment request
  rw [← Books.repository_after] at effect
  generalize afterwards : (s.books.after moment request).repository = next at effect found
  cases effect with
  | none refused executions instances =>
    rw [executions] at found
    exact concluded.stored record found
  | @write copy stored key numbered lookup =>
    rw [Repository.get?_withRecord] at found
    split at found
    · rename_i same
      obtain rfl := Option.some.inj found
      exact (writes copy rfl (same ▸ numbered)).of_same (.refl _)
    · exact concluded.stored record found
  | create granted executions instances =>
    obtain ⟨sameExecutions, -⟩ := Repository.isFor_of_claim granted
    obtain ⟨contexts, created⟩ := Repository.createExecution_of_claim moment granted
    obtain ⟨old, member, numbered⟩ := concluded.known
    rw [executions, sameExecutions] at found
    rcases ExecutionStore.get?_afterSave.1 found with ⟨new, -⟩ | ⟨-, kept, -⟩
    · exact absurd (numbered.trans (congrArg some new))
        (sound.books.nextId_fresh_of_created bound created member)
    · exact concluded.stored record kept

private theorem outcome_of_read {read : JobExecution} (concluded : Concluded calls id Origin s)
    (sound : Sound calls s)
    (inHand : Operator.inHand (.request request) (s.books.repository.answer moment request).1 =
      some read) (numbered : read.id = some id) : OutcomeOf Origin read := by
  cases request with
  | execution key =>
    have answered : s.books.repository.execution key = .ok (some read) := by
      change Operator.inHand (.request (.execution key)) (s.books.repository.execution key) = _
        at inHand
      generalize s.books.repository.execution key = answer at inHand
      rcases answer with error | _ | found
      · exact absurd inHand nofun
      · exact absurd inHand nofun
      · exact congrArg Except.ok inHand
    obtain ⟨stored, context, steps, found, rfl⟩ := Repository.record_of_read answered
    have same : key = id := Option.some.inj
      ((sound.books.consistent.executions.numbered found).symm.trans numbered)
    exact (concluded.stored stored (same ▸ found)).of_same (.refl _)
  | _ => nomatch inHand

variable [DecidableEq ι]

private theorem inHand_advance {action : Action} {next : action.Answer → Program Call.Result}
    (concluded : Concluded calls id Origin s)
    (ready : (s.threads i).program = .act action next) (answer : action.Answer)
    (outcome : ∀ read, Operator.inHand action answer = some read → read.id = some id →
      OutcomeOf Origin read) (j : ι) :
    ∃ hand, (calls j).Poised hand
        (Function.update s.threads i ((s.threads i).advance action next answer) j).program ∧
      ∀ read, hand = some read → read.id = some id → OutcomeOf Origin read := by
  by_cases own : j = i
  · subst own
    obtain ⟨hand, poised, -⟩ := concluded.inHand j
    rw [ready] at poised
    rw [Function.update_self]
    exact ⟨_, poised.advance answer, outcome⟩
  · rw [Function.update_of_ne own]
    exact concluded.inHand j

/-- An outcome stays concluded, whatever happens next, if no client writes the execution. -/
theorem step {event : Event ι} (concluded : Concluded calls id Origin s) (sound : Sound calls s)
    (happens : Happens s event t) (bound : t.books.created < 2 ^ 64)
    (aside : ∀ copy, event = .client (.update copy) → copy.id ≠ some id) :
    Concluded calls id Origin t where
  known := by
    obtain ⟨record, member, numbered⟩ := concluded.known
    exact ⟨record, happens.step.past_le record member, numbered⟩
  free := by
    intro j held holding same
    rcases sound.held_of_step happens.step bound holding with before | fresh
    · exact concluded.free before same
    · obtain ⟨record, member, numbered⟩ := concluded.known
      exact fresh record member (numbered.trans same.symm)
  inHand := by
    cases happens with
    | request i moment ready =>
      exact concluded.inHand_advance ready _ fun read inHand numbered =>
        concluded.outcome_of_read sound inHand numbered
    | @other i action next ready answer admitted =>
      refine concluded.inHand_advance ready answer fun read inHand _ => ?_
      cases action with
      | request made => exact False.elim admitted
      | _ => nomatch inHand
    | client moment request honest => exact concluded.inHand
  stored := by
    intro record found
    cases happens with
    | request i moment ready =>
      refine concluded.stored_after sound bound ?_ found
      rintro copy rfl numbered
      exact concluded.outcome_of_write sound ready numbered
    | other i ready answer admitted => exact concluded.stored record found
    | client moment request honest =>
      refine concluded.stored_after sound bound ?_ found
      rintro copy rfl numbered
      exact absurd numbered (aside copy rfl)

/-- The same holds of any number of events. -/
theorem path {events : List (Event ι)} (concluded : Concluded calls id Origin s)
    (sound : Sound calls s) (path : Path s events t) (bound : t.books.created < 2 ^ 64)
    (aside : ∀ copy, .client (.update copy) ∈ events → copy.id ≠ some id) :
    Concluded calls id Origin t := by
  induction path with
  | nil => exact concluded
  | @snoc middle last event events before happens ih =>
    have earlier := Nat.lt_of_le_of_lt happens.step.created_le bound
    have spared : ∀ copy, .client (.update copy) ∈ events → copy.id ≠ some id :=
      fun copy member => aside copy (List.mem_append_left _ member)
    refine (ih earlier spared).step (sound.reaches before.reaches earlier) happens
      bound fun copy same => ?_
    exact aside copy (by simp [same])

end Concluded

/-! ## After the terminal write -/

variable [DecidableEq ι]

/-- A copy of this execution waits to be written. -/
def Pending (s : System ι) (id : JobExecutionId) (copy : JobExecution) : Prop :=
  copy.id = some id ∧ ∃ i next, (s.threads i).program = .act (.request (.update copy)) next

private theorem poised_of_reaches (reached : Reaches (start calls) s) (j : ι) :
    ∃ hand, (calls j).Poised hand (s.threads j).program := by
  induction reached with
  | refl => exact ⟨none, (calls j).poised⟩
  | @tail middle last _ step ih =>
    have advanced {i : ι} {action : Action} {next : action.Answer → Program Call.Result}
        (ready : (middle.threads i).program = .act action next) (answer : action.Answer) :
        ∃ hand, (calls j).Poised hand (Function.update middle.threads i
          ((middle.threads i).advance action next answer) j).program := by
      by_cases own : j = i
      · subst own
        obtain ⟨hand, poised⟩ := ih
        rw [ready] at poised
        rw [Function.update_self]
        exact ⟨_, poised.advance answer⟩
      · rw [Function.update_of_ne own]
        exact ih
    cases step with
    | request i moment ready => exact advanced ready _
    | other i ready answer admitted => exact advanced ready answer
    | client moment request honest => exact ih

-- When a launch has let go of its execution, only copies that wait to be written at that moment can
-- bring another outcome.
private theorem concluded_of_released (reached : Reaches (start calls) s) (step : Step s t)
    (bound : t.books.created < 2 ^ 64) (holding : (s.threads i).held = some held)
    (released : (t.threads i).held = none) (numbered : held.id = some id)
    (found : t.books.repository.executions.get? id = some ended) :
    Concluded calls id (fun origin => origin = ended ∨ t.Pending id origin) t := by
  have before := (Sound.start calls).reaches reached (Nat.lt_of_le_of_lt step.created_le bound)
  have sound := before.step step bound
  obtain ⟨first, record, firstId, lookup, same⟩ := (before.holds holding).1.stored
  have recordId : record.id = held.id := same.1.symm
  constructor
  case known =>
    exact ⟨ended, sound.books.remembered found, sound.books.consistent.executions.numbered found⟩
  case free =>
    intro j other otherHolding otherId
    rcases before.held_of_step step bound otherHolding with earlier | fresh
    · obtain rfl := before.apart holding earlier (numbered.trans otherId.symm)
      rw [released] at otherHolding
      contradiction
    · exact fresh record (before.books.remembered lookup)
        (recordId.trans (numbered.trans otherId.symm))
  case inHand =>
    intro j
    obtain ⟨hand, poised⟩ := poised_of_reaches (reached.tail step) j
    by_cases waits : (calls j).target? = none ∧
        ∃ copy next, (t.threads j).program = .act (.request (.update copy)) next
    · obtain ⟨operator, copy, next, ready⟩ := waits
      refine ⟨hand, poised, fun read inHand readId => ?_⟩
      rw [ready] at poised
      obtain ⟨other, status, otherInHand, rfl⟩ := poised.write operator
      obtain rfl := Option.some.inj (inHand.symm.trans otherInHand)
      exact ⟨read.upgradeStatus status, .inr ⟨readId, j, next, ready⟩, .refl _⟩
    · refine ⟨none, fun operator => ?_, fun _ absent => nomatch absent⟩
      exact poised.put_away (fun copy next ready => waits ⟨operator, copy, next, ready⟩) operator
  case stored =>
    intro current lookup
    rw [Option.some.inj (lookup.symm.trans found)]
    exact ⟨ended, .inl rfl, .refl ended⟩

/-- After the terminal write of a launch, exit status, times and failures of the record stay as they
are, whatever others do, unless a copy that an operator had read before waits to be written at that
moment. Such a copy is written, though, and brings back the exit status, the times and the failures
that it was read with. -/
theorem outcome_until_stale_write (calls : ι → Call) {events : List (Event ι)}
    (reached : Reaches (start calls) s) (write : Step s t) (later : Path t events u)
    (bound : u.books.created < 2 ^ 64) (holding : (s.threads i).held = some held)
    (released : (t.threads i).held = none) (numbered : held.id = some id)
    (found : t.books.repository.executions.get? id = some ended)
    (aside : ∀ copy, .client (.update copy) ∈ events → copy.id ≠ some id) :
    (∀ current, u.books.repository.executions.get? id = some current →
      current.SameOutcome ended ∨ ∃ copy, t.Pending id copy ∧ current.SameOutcome copy) ∧
    ∀ copy current moment, u.Pending id copy →
      u.books.repository.executions.get? id = some current →
      ∃ written, u.books.repository.answer moment (.update copy) =
          (⟨.ok (), written⟩, u.books.repository.withRecord id written) ∧
        written.SameOutcome copy := by
  constructor
  · intro current foundNow
    have boundAtWrite := Nat.lt_of_le_of_lt later.reaches.created_le bound
    have sound := (Sound.start calls).reaches (reached.tail write) boundAtWrite
    have concluded := concluded_of_released reached write boundAtWrite holding released numbered
      found
    obtain ⟨origin, rfl | pending, same⟩ :=
      (concluded.path sound later bound aside).stored current foundNow
    · exact .inl same
    · exact .inr ⟨origin, pending, same⟩
  · intro copy current moment ⟨copyId, _⟩ foundNow
    exact ⟨_, Repository.update_of_record moment copyId foundNow, .refl _⟩

/-- A stop that has read the record before the run of a job has ended takes back the time of its
end. -/
theorem outcome_until_stale_write_of_stop :
    ∃ (s t u : System Bool) (events : List (Event Bool)) (ended current : JobExecution),
      Reaches (start fun launches => if launches then
        .launch ⟨.usual, none⟩ ⟨"import", true, none⟩ .empty none else .stop ⟨1⟩) s ∧
      Step s t ∧ t.books.repository.executions.get? ⟨1⟩ = some ended ∧
      ended.status = .completed ∧ ended.endTime = some ⟨5, 0⟩ ∧ Path t events u ∧
      u.books.repository.executions.get? ⟨1⟩ = some current ∧ current.endTime = none ∧
      ∃ copy, t.Pending ⟨1⟩ copy ∧ current.SameOutcome copy := by
  choose next invokes ends using
    (Launch.attempts_first ⟨"import", true, none⟩ .usual)
  have claimed := ((Relation.ReflTransGen.refl (r := Step) (a := start fun launches : Bool =>
    if launches then .launch ⟨.usual, none⟩ ⟨"import", true, none⟩ .empty none
      else .stop ⟨1⟩)).tail (.request true ⟨0, 0⟩ rfl)).tail (.request true ⟨0, 0⟩ rfl)
  have started := (claimed.tail (@Step.other _ _ _ true .now _ rfl ⟨0, 0⟩ trivial)).tail
    (.request true ⟨0, 0⟩ rfl)
  have read := started.tail (.request false ⟨0, 0⟩ rfl)
  have isOver := read.tail (@Step.other _ _ _ true (.invoke _) _ (inside_launch (invokes _))
    (.finished, _) (.refl _))
  have refreshed := (isOver.tail (.request true ⟨0, 0⟩ (inside_launch ((ends _).1 _)))).tail
    (@Step.other _ _ _ true .now _ rfl ⟨5, 0⟩ trivial)
  obtain ⟨lasts, -⟩ := outcome_until_stale_write (i := true) _ refreshed (.request true ⟨0, 0⟩ rfl)
    ((Path.nil _).snoc (.request false ⟨0, 0⟩ rfl)) (by decide : 1 < 2 ^ 64) rfl rfl rfl rfl
    (by simp)
  refine ⟨_, _, _, _, _, _, refreshed, .request true ⟨0, 0⟩ rfl, rfl, rfl, rfl,
    (Path.nil _).snoc (.request false ⟨0, 0⟩ rfl), rfl, rfl, ?_⟩
  exact (lasts _ rfl).resolve_left fun same => absurd same.2.2.1 (Option.some_ne_none _).symm

end System

end BatchRun
