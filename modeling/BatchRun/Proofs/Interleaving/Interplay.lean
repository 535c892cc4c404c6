import BatchRun.Proofs.Clients.Stopping
import BatchRun.Proofs.Interleaving.System
import BatchRun.Proofs.Launch.Custody
import BatchRun.Proofs.Operator.Custody

/-! # A launch and its stops among clients

Calls share a repository with clients. Each call takes one action at a time, and any order of these
actions and of the steps of clients is a path. The body of a job works as a client: when it begins,
the execution that it has been given is in hand, and in the end it leaves a copy that is in hand
then. Clients may raise the status of a copy, but they do not end one particular execution.

As long as a launch has not tried to end its execution, it has a copy in hand, and if this is the
particular execution then that is underway.
-/

namespace BatchRun

/-- Calls on the repository of a session. -/
structure Interplay (ι : Type) where
  session : Session
  threads : ι → Program Call.Result

namespace Interplay

/-- What happens in one step. -/
inductive Event (ι : Type)
  /-- A call has got an answer to an action. -/
  | answered (i : ι) (action : Action) (answer : action.Answer)
  /-- A body has begun, or a client has done something. -/
  | others

/-- The answers there may be to an action other than a request. A body leaves any copy of its
execution. -/
def Admits (session : Session) : (action : Action) → action.Answer → Prop
  | .request _, _ => False
  | .now, _ | .pause _, _ => True
  | .invoke execution, (_, left) => left ∈ session.executions ∧ left.id = execution.id

variable {ι : Type} [DecidableEq ι] {id : JobExecutionId} {calls : ι → Call}
  {s t u : Interplay ι} {event : Event ι} {events later : List (Event ι)} {i j : ι}

/-- Nothing has been done yet. -/
def start (calls : ι → Call) : Interplay ι := ⟨.start, fun i => (calls i).program⟩

/-- One atomic step and what happens in it, if clients do not end this execution. -/
inductive Happens (id : JobExecutionId) : Interplay ι → Event ι → Interplay ι → Prop
  /-- A call makes its request. -/
  | request {s : Interplay ι} (i : ι) (moment : Timestamp) {request : Request}
      {next : request.Answer → Program Call.Result}
      (ready : s.threads i = .act (.request request) next) :
      Happens id s (.answered i (.request request) (s.session.repository.answer moment request).1)
        ⟨(s.session.handing request).call moment request,
          Function.update s.threads i (next (s.session.repository.answer moment request).1)⟩
  /-- A call looks at the clock or has waited, or the body of its job has ended. -/
  | other {s : Interplay ι} (i : ι) {action : Action} {next : action.Answer → Program Call.Result}
      (ready : s.threads i = .act action next) (answer : action.Answer)
      (admitted : Admits s.session action answer) :
      Happens id s (.answered i action answer)
        ⟨s.session, Function.update s.threads i (next answer)⟩
  /-- The body of a job begins and has the execution in hand that it has been given. -/
  | begins {s : Interplay ι} (i : ι) {given : JobExecution} {next : _ → Program Call.Result}
      (ready : s.threads i = .act (.invoke given) next) :
      Happens id s .others ⟨s.session.hold given, s.threads⟩
  /-- A body or somebody else does something. -/
  | others {s : Interplay ι} {session : Session}
      (step : Session.Step (Session.Advances id) s.session session) :
      Happens id s .others ⟨session, s.threads⟩

/-- A path with its events, the first one first. -/
inductive Path (id : JobExecutionId) : Interplay ι → List (Event ι) → Interplay ι → Prop
  | nil (s : Interplay ι) : Path id s [] s
  | snoc {s t u : Interplay ι} {event : Event ι} {events : List (Event ι)} :
      Path id s events t → Happens id t event u → Path id s (events ++ [event]) u

theorem Happens.few (happens : Happens id s event t) (few : t.session.Few) : s.session.Few := by
  cases happens with
  | request i moment ready => exact Session.few_of_handing few
  | other i ready answer admitted => exact few
  | begins i ready => exact few
  | others step => exact step.few few

theorem Path.few (path : Path id s events t) (few : t.session.Few) : s.session.Few := by
  induction path with
  | nil => exact few
  | snoc _ happens ih => exact ih (happens.few few)

/-- A call that has got an answer was waiting for it. -/
theorem Happens.ready {action : Action} {answer : action.Answer}
    (happens : Happens id s (.answered i action answer) t) :
    ∃ next, s.threads i = .act action next ∧
      t.threads = Function.update s.threads i (next answer) := by
  cases happens with
  | request i moment ready => exact ⟨_, ready, rfl⟩
  | other i ready answer admitted => exact ⟨_, ready, rfl⟩

/-- An answer to a request comes from the repository. -/
theorem Happens.request_eq {request : Request} {answer : request.Answer}
    (happens : Happens id s (.answered i (.request request) answer) t) :
    ∃ moment, answer = (s.session.repository.answer moment request).1 ∧
      t.session = (s.session.handing request).call moment request := by
  cases happens with
  | request i moment ready => exact ⟨moment, rfl, rfl⟩
  | other i ready answer admitted => exact False.elim admitted

/-! ## What a launch has in hand -/

/-- What a launch has in hand after an event. -/
def custodyAfter (i : ι) (custody : Custody) : Event ι → Custody
  | .answered j action answer => if j = i then custody.after action answer else custody
  | .others => custody

/-- What is answered to a launch moves its execution on. -/
theorem custodyAfter_own {custody : Custody} {action : Action} {answer : action.Answer} :
    custodyAfter i custody (.answered i action answer) = custody.after action answer := if_pos rfl

/-- What is answered to others does not. -/
theorem custodyAfter_other {custody : Custody} {action : Action} {answer : action.Answer}
    (other : j ≠ i) : custodyAfter i custody (.answered j action answer) = custody := if_neg other

theorem custodyAfter_written : custodyAfter i .written event = .written := by
  cases event with
  | others => rfl
  | answered j action answer =>
    by_cases own : j = i
    · subst own
      exact custodyAfter_own
    · exact custodyAfter_other own

/-- What a launch has in hand after these events. -/
def custodyOf (i : ι) (events : List (Event ι)) : Custody :=
  events.foldl (custodyAfter i) .waiting

/-- One more event takes the custody one further. -/
theorem custodyOf_append (i : ι) (events : List (Event ι)) (event : Event ι) :
    custodyOf i (events ++ [event]) = custodyAfter i (custodyOf i events) event := by
  simp [custodyOf]

/-- A launch that has tried to end its execution once has done so for good. -/
theorem isLate_append (late : (custodyOf i events).IsLate) (later : List (Event ι)) :
    (custodyOf i (events ++ later)).IsLate := by
  unfold custodyOf at late ⊢
  rw [List.foldl_append]
  generalize events.foldl (custodyAfter i) .waiting = custody at late ⊢
  induction later generalizing custody with
  | nil => exact late
  | cons event rest ih =>
    refine ih _ ?_
    cases event with
    | others => exact late
    | answered j action answer =>
      by_cases own : j = i
      · subst own
        rw [custodyAfter_own]
        exact late.after action answer
      · rw [custodyAfter_other own]
        exact late

variable {custody : Custody}

private theorem Happens.expects {action : Action} {answer : action.Answer} (custody : Custody)
    (happens : Happens id s (.answered i action answer) t) : custody.Expects action answer := by
  cases happens with
  | @request i moment request next ready =>
    cases request with
    | createExecution jobName parameters =>
      cases created : s.session.repository.createExecution moment jobName parameters with
      | error error =>
        rw [Repository.answer_of_not_created created]
        exact trivial
      | ok made =>
        obtain ⟨-, stored, -, same, -, -, -, starting, -⟩ := Repository.record_of_created created
        rw [Repository.answer_of_created created]
        exact (congrArg JobExecution.status same).trans starting
    | _ => exact trivial
  | other i ready answer admitted =>
    cases action with
    | request request => exact False.elim admitted
    | _ => exact trivial

/-- A launch goes on from what it has in hand after an event. -/
theorem Happens.follows (happens : Happens id s event t)
    (follows : (s.threads i).Follows Custody.protocol Custody.IsDone custody) :
    (t.threads i).Follows Custody.protocol Custody.IsDone (custodyAfter i custody event) := by
  cases event with
  | others => cases happens <;> exact follows
  | answered j action answer =>
    obtain ⟨next, ready, threads⟩ := happens.ready
    rw [threads]
    by_cases own : j = i
    · subst own
      rw [ready] at follows
      rw [custodyAfter_own, Function.update_self]
      exact follows.2 _ (happens.expects custody)
    · rw [custodyAfter_other own, Function.update_of_ne (Ne.symm own)]
      exact follows

/-- What a launch gets an answer to is allowed. -/
theorem Happens.allows {action : Action} {answer : action.Answer}
    (happens : Happens id s (.answered i action answer) t)
    (follows : (s.threads i).Follows Custody.protocol Custody.IsDone custody) :
    custody.Allows action := by
  obtain ⟨next, ready, -⟩ := happens.ready
  rw [ready] at follows
  exact follows.1

/-! ## What a launch can do in a session -/

/-- What holds of a session while a launch goes on with this: if it has the particular execution in
hand, that is underway. -/
structure Minds (id : JobExecutionId) (custody : Custody) (session : Session) : Prop where
  sound : session.Sound
  ranked : session.Ranked
  held {copy : JobExecution} (hand : custody.hand = some copy) : copy ∈ session.executions
  underway {copy : JobExecution} (hand : custody.hand = some copy) (own : copy.id = some id) :
    session.Underway id

namespace Minds

variable {session next : Session} {copy given later : JobExecution} {moment : Timestamp}

/-- What clients do meanwhile leaves the execution with the launch. -/
theorem reaches (minds : Minds id custody session)
    (reaches : Session.Reaches (Session.Advances id) session next) (few : next.Few) :
    Minds id custody next ∧ session.Rises next := by
  obtain ⟨ranked, rises⟩ := minds.ranked.reaches reaches few
  refine ⟨⟨minds.sound.reaches reaches few, ranked, fun hand => ?_, fun hand own => ?_⟩, rises⟩
  · exact reaches.mem_executions (minds.held hand)
  · exact (minds.underway hand own).advance reaches few

private theorem regain {custody' : Custody} (minds : Minds id custody session)
    (reaches : Session.Reaches (Session.Advances id) session next) (few : next.Few)
    (hand : custody.hand = some copy) (hand' : custody'.hand = some later)
    (inHand : later ∈ next.executions) (same : later.id = copy.id) : Minds id custody' next := by
  obtain ⟨after, -⟩ := minds.reaches reaches few
  refine ⟨after.sound, after.ranked, fun regained => ?_, fun regained own => ?_⟩
  · exact Option.some.inj (hand'.symm.trans regained) ▸ inHand
  · obtain rfl := Option.some.inj (hand'.symm.trans regained)
    exact after.underway hand (same.symm.trans own)

private theorem create {jobName : String} {parameters : JobParameters}
    (minds : Minds id .waiting session)
    (few : (session.call moment (.createExecution jobName parameters)).Few) :
    Minds id (Custody.waiting.after (.request (.createExecution jobName parameters))
        (session.repository.answer moment (.createExecution jobName parameters)).1)
      (session.call moment (.createExecution jobName parameters)) := by
  have reaches : Session.Reaches (Session.Advances id) session
    (session.call moment (.createExecution jobName parameters)) := .call .refl moment _ trivial
  obtain ⟨after, -⟩ := minds.reaches reaches few
  have handed := @Session.mem_of_handed session (.createExecution jobName parameters) moment
  cases created : session.repository.createExecution moment jobName parameters with
  | error error =>
    rw [Repository.answer_of_not_created created]
    exact ⟨after.sound, after.ranked, nofun, nofun⟩
  | ok made =>
    obtain ⟨key, numbered, underway⟩ := minds.sound.underway_of_created few created
    rw [Repository.answer_of_created created] at handed ⊢
    refine ⟨after.sound, after.ranked, fun hand => ?_, fun hand own => ?_⟩
    · exact Option.some.inj hand ▸ handed (List.mem_singleton.2 rfl)
    · obtain rfl := Option.some.inj hand
      exact Option.some.inj (numbered.symm.trans own) ▸ underway

-- What a launch asks for while it has its execution in hand is made of that, and so is it what it
-- gets.
private theorem request {request : Request} {custody' : Custody}
    (minds : Minds id custody session) (allowed : custody.Allows (.request request))
    (few : ((session.handing request).call moment request).Few)
    (after : custody' =
      custody.after (.request request) (session.repository.answer moment request).1) :
    custody'.IsLate ∨
    Session.Reaches (Session.Advances id) session ((session.handing request).call moment request) ∧
      Minds id custody' ((session.handing request).call moment request) := by
  subst after
  cases custody with
  | waiting =>
    cases request with
    | lastExecution jobName parameters =>
      have reaches : Session.Reaches (Session.Advances id) session
        (session.call moment (.lastExecution jobName parameters)) := .call .refl moment _ trivial
      exact .inr ⟨reaches, (minds.reaches reaches few).1⟩
    | createExecution jobName parameters =>
      exact .inr ⟨.call .refl moment _ trivial, minds.create few⟩
    | _ => exact False.elim allowed
  | carrying copy =>
    cases request with
    | update given =>
      by_cases running : given.isRunning = true
      · have inHand := minds.held rfl
        have prepares : session.Prepares (Session.Advances id) (.update given) :=
          ⟨copy, inHand, allowed.toEditOf, fun step member =>
            minds.sound.inside copy inHand step (allowed.steps ▸ member), allowed.status,
            fun _ _ => running⟩
        have carries : (Custody.carrying copy).after (.request (.update given))
          (session.repository.answer moment (.update given)).1 = .carrying _ := if_pos running
        have reaches := prepares.reaches moment
        rw [carries]
        refine .inr ⟨reaches, minds.regain reaches few rfl rfl ?_ ?_⟩
        · exact Session.mem_of_handed (List.mem_singleton.2 rfl)
        · exact (Repository.id_update ..).trans allowed.id
      · exact .inl (.inr (if_neg running))
    | _ => exact False.elim allowed
  | ended copy =>
    cases request with
    | synchronize given =>
      obtain rfl : given = copy := allowed
      have inHand := minds.held rfl
      have prepares : session.Prepares (Session.Advances id) (.synchronize given) :=
        ⟨given, inHand, ⟨rfl, rfl, rfl, rfl⟩, minds.sound.inside given inHand,
          BatchStatus.le_refl _, fun _ running => running⟩
      have reaches := prepares.reaches moment
      have handed := @Session.mem_of_handed session (.synchronize given) moment _
        (List.mem_singleton.2 rfl)
      have same : (session.repository.answer moment (.synchronize given)).1.copy.id = given.id :=
        Repository.id_synchronize ..
      refine .inr ⟨reaches, minds.regain reaches few rfl ?_ handed same⟩
      generalize (session.repository.answer moment (.synchronize given)).1 = answer
      obtain ⟨error | _, left⟩ := answer
      · exact rfl
      · exact rfl
    | _ => exact False.elim allowed
  | refreshed copy =>
    cases request with
    | update given =>
      generalize (session.repository.answer moment (.update given)).1 = answer
      obtain ⟨error | _, left⟩ := answer
      · exact .inl (.inr rfl)
      · exact .inl (.inl rfl)
    | _ => exact False.elim allowed
  | written => exact .inl (.inl rfl)
  | closed => exact .inl (.inr rfl)

private theorem other {action : Action} {answer : action.Answer} (minds : Minds id custody session)
    (few : session.Few) (allowed : custody.Allows action)
    (admitted : Admits session action answer) : Minds id (custody.after action answer) session := by
  cases action with
  | request request => exact False.elim admitted
  | now => cases custody <;> exact minds
  | pause duration => cases custody <;> exact minds
  | invoke execution =>
    cases custody with
    | carrying copy =>
      obtain ⟨ending, left⟩ := answer
      obtain ⟨inHand, own⟩ := admitted
      refine minds.regain .refl few rfl ?_ inHand (own.trans allowed.id)
      cases ending <;> rfl
    | _ => exact False.elim allowed

private theorem begins (minds : Minds id custody session) (allowed : custody.Allows (.invoke given))
    (few : (session.hold given).Few) :
    Session.Reaches (Session.Advances id) session (session.hold given) ∧
      Minds id custody (session.hold given) := by
  cases custody with
  | carrying copy =>
    have inHand := minds.held rfl
    have onward := JobExecution.Noted.onward allowed
    have reaches : Session.Reaches (Session.Advances id) session (session.hold given) :=
      .single (.edit inHand allowed.toEditOf
        (fun step member => minds.sound.inside copy inHand step (allowed.steps ▸ member))
        ⟨onward.status, fun _ running => (congrArg BatchStatus.isRunning allowed.status).trans
          running⟩)
    exact ⟨reaches, (minds.reaches reaches few).1⟩
  | _ => exact False.elim allowed

end Minds

omit [DecidableEq ι] in
private theorem ended_after {action : Action} {answer : action.Answer} {copy : JobExecution}
    (allowed : custody.Allows action) (ended : custody.after action answer = .ended copy) :
    custody = .ended copy ∨
      ∃ given, Event.answered i action answer = .answered i (.invoke given) (.finished, copy) := by
  cases action with
  | now => cases custody <;> exact .inl ended
  | pause duration => cases custody <;> exact .inl ended
  | invoke execution =>
    cases custody with
    | carrying held =>
      obtain ⟨_ | _ | _, left⟩ := answer
      · obtain rfl := Custody.ended.inj ended
        exact .inr ⟨execution, rfl⟩
      · cases ended
      · cases ended
    | _ => exact False.elim allowed
  | request request =>
    cases custody with
    | ended held =>
      cases request with
      | synchronize given => obtain ⟨_ | _, left⟩ := answer <;> cases ended
      | _ => exact False.elim allowed
    | carrying held =>
      cases request with
      | update given =>
        simp only [Custody.after] at ended
        split at ended <;> cases ended
      | _ => exact False.elim allowed
    | waiting =>
      cases request with
      | lastExecution jobName parameters => cases ended
      | createExecution jobName parameters => cases answer <;> cases ended
      | _ => exact False.elim allowed
    | refreshed held =>
      cases request with
      | update given => obtain ⟨_ | _, left⟩ := answer <;> cases ended
      | _ => exact False.elim allowed
    | written => cases ended
    | closed => cases ended

/-! ## Launches and stops on their way -/

/-- A launch that has not tried to end its execution, and stops. -/
structure Attends (i : ι) (id : JobExecutionId) (events : List (Event ι)) (s : Interplay ι) :
    Prop extends Minds id (custodyOf i events) s.session where
  stops (j : ι) (other : j ≠ i) : ∃ copies, (∀ copy ∈ copies, copy ∈ s.session.executions) ∧
    (s.threads j).Follows Operator.custody (fun _ _ => True) copies
  /-- A body has ended well that has left this copy. -/
  finished {copy : JobExecution} (ended : custodyOf i events = .ended copy) :
    ∃ given, .answered i (.invoke given) (.finished, copy) ∈ events

private theorem prepares_of_allowsOf {session : Session} {request : Request}
    {copies : List JobExecution} (sound : session.Sound)
    (inHand : ∀ copy ∈ copies, copy ∈ session.executions)
    (allowed : Operator.custody.Allows copies (.request request)) :
    session.Prepares (Session.Advances id) request := by
  cases request with
  | execution id => exact trivial
  | update given =>
    obtain ⟨read, member, running, rfl⟩ := allowed
    have before := inHand read member
    refine ⟨read, before, ⟨rfl, rfl, rfl, rfl⟩, sound.inside read before, ?_, fun _ _ => ?_⟩
    · exact (BatchStatus.le_upgradeTo read.status .stopping).1
    · exact BatchStatus.mem_running.1 (BatchStatus.stopping_of_running running)
  | updateStep given =>
    obtain ⟨execution, member, step, within, rfl⟩ := allowed
    have before := inHand execution member
    exact ⟨step, sound.inside execution before step within, rfl, rfl, rfl, rfl, rfl⟩
  | _ => exact False.elim allowed

namespace Attends

/-- At the beginning nothing has been claimed, and stops have been given nothing. -/
theorem start {launcher : Launcher} {settings : JobSettings} {parameters : JobParameters}
    {rejection : Option TaskRejected}
    (isLaunch : calls i = .launch launcher settings parameters rejection)
    (stops : ∀ j, j ≠ i → ∃ target, calls j = .stop target) :
    Attends i id [] (start calls) ∧
      ((start calls).threads i).Follows Custody.protocol Custody.IsDone (custodyOf i []) := by
  refine ⟨⟨⟨.start, .start, nofun, nofun⟩, fun j other => ⟨[], by simp, ?_⟩, nofun⟩, ?_⟩
  · obtain ⟨target, isStop⟩ := stops j other
    change (calls j).program.Follows _ _ _
    rw [isStop]
    apply Program.Follows.bind
    apply Operator.custody_stop.imp
    exact fun _ _ _ => trivial
  · change (calls i).program.Follows _ _ _
    rw [isLaunch]
    apply Program.Follows.bind
    exact (Launch.follows_custody launcher settings parameters rejection).imp fun _ _ done => done

variable (attends : Attends i id events s)

include attends

-- Unless the launch tries to end its execution, all that happens are steps of clients.
private theorem reaches
    (follows : (s.threads i).Follows Custody.protocol Custody.IsDone (custodyOf i events))
    (happens : Happens id s event t) (few : t.session.Few) :
    (custodyOf i (events ++ [event])).IsLate ∨
      Session.Reaches (Session.Advances id) s.session t.session ∧
        Minds id (custodyOf i (events ++ [event])) t.session := by
  rw [custodyOf_append]
  cases happens with
  | others step =>
    have reaches : Session.Reaches (Session.Advances id) _ _ := .single step
    exact .inr ⟨reaches, (attends.toMinds.reaches reaches few).1⟩
  | @request j moment request next ready =>
    by_cases own : j = i
    · subst own
      rw [ready] at follows
      exact attends.toMinds.request follows.1 few custodyAfter_own
    · obtain ⟨copies, inHand, follows⟩ := attends.stops j own
      rw [ready] at follows
      have prepares : s.session.Prepares (Session.Advances id) request :=
        prepares_of_allowsOf attends.sound inHand follows.1
      have reaches := prepares.reaches moment
      have same := @custodyAfter_other ι _ i j (custodyOf i events) (.request request)
        (s.session.repository.answer moment request).1 own
      have minds := (attends.toMinds.reaches reaches few).1
      exact .inr ⟨reaches, same.symm ▸ minds⟩
  | @begins j given next ready =>
    by_cases own : j = i
    · subst own
      rw [ready] at follows
      exact .inr (attends.toMinds.begins follows.1 few)
    · obtain ⟨copies, -, follows⟩ := attends.stops j own
      rw [ready] at follows
      exact False.elim follows.1
  | @other j action next ready answer admitted =>
    by_cases own : j = i
    · subst own
      rw [ready] at follows
      rw [custodyAfter_own]
      exact .inr ⟨.refl, attends.toMinds.other few follows.1 admitted⟩
    · rw [custodyAfter_other own]
      exact .inr ⟨.refl, attends.toMinds⟩

private theorem stops_after (happens : Happens id s event t)
    (reaches : Session.Reaches (Session.Advances id) s.session t.session) (other : j ≠ i) :
    ∃ copies, (∀ copy ∈ copies, copy ∈ t.session.executions) ∧
      (t.threads j).Follows Operator.custody (fun _ _ => True) copies := by
  obtain ⟨copies, inHand, follows⟩ := attends.stops j other
  have kept (copy : JobExecution) (member : copy ∈ copies) : copy ∈ t.session.executions :=
    reaches.mem_executions (inHand copy member)
  cases happens with
  | begins i ready => exact ⟨copies, kept, follows⟩
  | others step => exact ⟨copies, kept, follows⟩
  | @request k moment request next ready =>
    by_cases own : k = j
    · subst own
      rw [ready] at follows
      simp only [Function.update_self]
      refine ⟨copies ++ request.copies _, List.forall_mem_append.2 ⟨kept, ?_⟩, follows.2 _ trivial⟩
      exact fun copy handed => Session.mem_of_handed handed
    · simp only [Function.update_of_ne (Ne.symm own)]
      exact ⟨copies, kept, follows⟩
  | @other k action next ready answer admitted =>
    by_cases own : k = j
    · subst own
      rw [ready] at follows
      cases action with
      | request request => exact False.elim admitted
      | _ => exact False.elim follows.1
    · simp only [Function.update_of_ne (Ne.symm own)]
      exact ⟨copies, kept, follows⟩

/-- A launch and its stops go on unless the launch tries to end its execution. -/
theorem step
    (follows : (s.threads i).Follows Custody.protocol Custody.IsDone (custodyOf i events))
    (happens : Happens id s event t) (few : t.session.Few) :
    (custodyOf i (events ++ [event])).IsLate ∨
      Attends i id (events ++ [event]) t ∧ s.session.Rises t.session := by
  rcases attends.reaches follows happens few with late | ⟨reaches, minds⟩
  · exact .inl late
  · refine .inr ⟨⟨minds, fun j other => attends.stops_after happens reaches other, ?_⟩,
      (attends.toMinds.reaches reaches few).2⟩
    intro copy ended
    have before (ended : custodyOf i events = .ended copy) :
        ∃ given, .answered i (.invoke given) (.finished, copy) ∈ events ++ [event] := by
      obtain ⟨given, member⟩ := attends.finished ended
      exact ⟨given, List.mem_append_left _ member⟩
    rw [custodyOf_append] at ended
    cases event with
    | others => exact before ended
    | answered j action answer =>
      by_cases own : j = i
      · subst own
        rw [custodyAfter_own] at ended
        rcases ended_after (happens.allows follows) ended with ended | ⟨given, same⟩
        · exact before ended
        · exact ⟨given, List.mem_append_right _ (List.mem_singleton.2 same.symm)⟩
      · rw [custodyAfter_other own] at ended
        exact before ended

end Attends

/-- A launch goes on from what it has in hand after all events on a path. -/
theorem Path.follows (path : Path id s later t)
    (follows : (s.threads i).Follows Custody.protocol Custody.IsDone (custodyOf i events)) :
    (t.threads i).Follows Custody.protocol Custody.IsDone (custodyOf i (events ++ later)) := by
  induction path with
  | nil => simpa using follows
  | snoc _ happens ih =>
    rw [← List.append_assoc, custodyOf_append]
    exact happens.follows ih

/-- A launch and its stops go on along any path on which the launch does not try to end its
execution. -/
theorem Attends.path (attends : Attends i id events s)
    (follows : (s.threads i).Follows Custody.protocol Custody.IsDone (custodyOf i events))
    (path : Path id s later t) (few : t.session.Few) :
    (custodyOf i (events ++ later)).IsLate ∨
      Attends i id (events ++ later) t ∧ s.session.Rises t.session := by
  induction path with
  | nil => exact .inr ⟨by simpa using attends, .of_same rfl⟩
  | snoc before happens ih =>
    rw [← List.append_assoc]
    rcases ih (happens.few few) with late | ⟨attends, rises⟩
    · exact .inl (isLate_append late _)
    · rcases attends.step (before.follows follows) happens few with late | ⟨attends, further⟩
      · exact .inl late
      · exact .inr ⟨attends, rises.trans further⟩

/-- On every path from the beginning a launch goes on from what it has in hand, and until it tries
to end its execution, it and its stops keep to what is in hand. -/
theorem Path.attends {launcher : Launcher} {settings : JobSettings} {parameters : JobParameters}
    {rejection : Option TaskRejected}
    (isLaunch : calls i = .launch launcher settings parameters rejection)
    (stops : ∀ j, j ≠ i → ∃ target, calls j = .stop target) (path : Path id (start calls) events s)
    (few : s.session.Few) :
    (s.threads i).Follows Custody.protocol Custody.IsDone (custodyOf i events) ∧
      ((custodyOf i events).IsLate ∨ Attends i id events s) := by
  obtain ⟨attends, follows⟩ := @Attends.start _ _ id _ _ _ _ _ _ isLaunch stops
  exact ⟨path.follows follows, (attends.path follows path few).imp_right And.left⟩

end Interplay

end BatchRun
