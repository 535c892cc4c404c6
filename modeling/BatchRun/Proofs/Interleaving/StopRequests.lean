import BatchRun.Proofs.ExitStatus
import BatchRun.Proofs.Interleaving.Interplay

/-! # Stop requests are not lost

A launch refreshes its copy after its body has ended well. A stop that has been written by then is
shown by the refreshed copy, whichever copies the launch, its body and other stops have written in
between. As clients do not end the execution, it is still stored when the launch writes its outcome,
and so that is written: the execution has been stopped.
-/

namespace BatchRun

/-- The outcome of an execution that has been asked to stop, if its body has left this copy. -/
structure JobExecution.StoppedAfter (outcome left : JobExecution) : Prop where
  status : outcome.status = .stopped
  code : outcome.exitStatus.code = ExitStatus.stopped.code ∨
    outcome.exitStatus.code = left.exitStatus.code ∧
      ExitStatus.stopped.severity ≤ left.exitStatus.severity

/-- A refreshment leaves the exit status alone. -/
theorem JobExecution.StoppedAfter.of_refreshed {outcome left stored : JobExecution}
    (stopped : outcome.StoppedAfter (left.refreshedFrom stored)) : outcome.StoppedAfter left :=
  ⟨stopped.status, stopped.code⟩

open Run

/-- A run that finds the request after its body has ended well ends stopped. -/
theorem Run.stoppedAfter_succeeded {copy : JobExecution} (moment : Timestamp)
    (stopping : copy.isStopping = true) :
    JobExecution.StoppedAfter { succeeded copy with endTime := some moment } copy := by
  unfold succeeded
  rw [if_pos stopping]
  refine ⟨rfl, ?_⟩
  change (copy.exitStatus.and .stopped).code = _ ∨ (copy.exitStatus.and .stopped).code = _ ∧ _
  rw [ExitStatus.code_and]
  split
  · exact .inl rfl
  · rename_i severe
    exact .inr ⟨rfl, Nat.le_of_not_lt severe⟩

/-- While the execution is underway, this outcome is written as it is. -/
theorem Session.Underway.writes_stopped {session : Session} {id : JobExecutionId}
    {copy : JobExecution} (underway : session.Underway id) (own : copy.id = some id)
    (stopping : copy.isStopping = true) (moment now : Timestamp) :
    ∃ outcome, session.repository.update now { succeeded copy with endTime := some moment } =
        (⟨.ok (), outcome⟩, session.repository.withRecord id outcome) ∧
      outcome.StoppedAfter copy := by
  obtain ⟨stored, found, running⟩ := underway.stored
  have stopped := stoppedAfter_succeeded moment stopping
  have numbered : (succeeded copy).id = some id := by
    unfold succeeded
    rw [if_pos stopping]
    exact own
  have terminal : (JobExecution.isRunning { succeeded copy with endTime := some moment }) = false :=
    congrArg BatchStatus.isRunning stopped.status
  refine ⟨_, Repository.update_of_record now numbered found, ?_, stopped.code⟩
  exact (Repository.status_written_of_terminal terminal running).trans stopped.status

namespace Interplay

variable {ι : Type} [DecidableEq ι] {id : JobExecutionId} {calls : ι → Call} {i j : ι}
  {s t u v w : Interplay ι} {events earlier middle later : List (Event ι)} {copy : JobExecution}

section Outcome

variable (attends : Attends i id events v) (inHand : custodyOf i events = .refreshed copy)
  (own : copy.id = some id) (stopping : copy.isStopping = true)

include attends inHand own stopping

private theorem stopped_of_update {final : JobExecution} {answer : Written JobExecution}
    (follows : (v.threads i).Follows Custody.protocol Custody.IsDone (custodyOf i events))
    (happens : Happens id v (.answered i (.request (.update final)) answer) w) :
    answer.result = .ok () ∧ w.session.repository.executions.get? id = some answer.copy ∧
      answer.copy.StoppedAfter copy := by
  have allowed := happens.allows follows
  rw [inHand] at allowed
  obtain ⟨moment, rfl⟩ := allowed
  obtain ⟨now, rfl, session⟩ := happens.request_eq
  have underway := attends.underway (by rw [inHand]; rfl) own
  obtain ⟨outcome, written, stopped⟩ := underway.writes_stopped own stopping moment now
  have answered : v.session.repository.answer now (.update _) = _ := written
  have stored : w.session.repository = v.session.repository.withRecord id outcome := by
    rw [session]
    exact congrArg Prod.snd answered
  rw [answered, stored, Repository.get?_withRecord, if_pos rfl]
  exact ⟨rfl, rfl, stopped⟩

-- After the refreshment, the launch has the refreshed copy in hand until it has written the
-- outcome.
private theorem stopped_of_path
    (follows : (v.threads i).Follows Custody.protocol Custody.IsDone (custodyOf i events))
    (path : Path id v later w) (few : w.session.Few) :
    custodyOf i (events ++ later) = .refreshed copy ∧ Attends i id (events ++ later) w ∨
    custodyOf i (events ++ later) = .written ∧ ∃ final answer,
      .answered i (.request (.update final)) answer ∈ later ∧ answer.result = .ok () ∧
        answer.copy.StoppedAfter copy := by
  induction path with
  | nil => exact .inl ⟨by simpa using inHand, by simpa using attends⟩
  | @snoc middle last event later before happens ih =>
    have followsBefore := before.follows follows
    rw [← List.append_assoc, custodyOf_append]
    rcases ih (happens.few few) with
      ⟨pending, attends⟩ | ⟨written, final, answer, member, wrote⟩
    · have keeps (same : custodyAfter i (.refreshed copy) event = .refreshed copy) :
          Attends i id (events ++ later ++ [event]) last := by
        refine ((attends.step followsBefore happens few).resolve_left fun late => ?_).1
        rw [custodyOf_append, pending, same] at late
        exact late.ne_refreshed copy rfl
      rw [pending]
      cases event with
      | others => exact .inl ⟨rfl, keeps rfl⟩
      | answered j action answer =>
        by_cases isOwn : j = i
        · subst isOwn
          have allowed := happens.allows followsBefore
          rw [pending] at allowed
          cases action with
          | now => exact .inl ⟨custodyAfter_own, keeps custodyAfter_own⟩
          | pause duration => exact .inl ⟨custodyAfter_own, keeps custodyAfter_own⟩
          | invoke execution => exact False.elim allowed
          | request request =>
            cases request with
            | update final =>
              obtain ⟨result, -, stopped⟩ :=
                stopped_of_update attends pending own stopping followsBefore happens
              obtain ⟨_, left⟩ := answer
              obtain rfl := result
              exact .inr ⟨custodyAfter_own, final, _,
                List.mem_append_right _ (List.mem_singleton.2 rfl), rfl, stopped⟩
            | _ => exact False.elim allowed
        · exact .inl ⟨custodyAfter_other isOwn, keeps (custodyAfter_other isOwn)⟩
    · refine .inr ⟨?_, final, answer, List.mem_append_left _ member, wrote⟩
      rw [written, custodyAfter_written]

end Outcome

omit [DecidableEq ι] in
private theorem eq_ended {custody : Custody}
    (allowed : custody.Allows (.request (.synchronize copy))) : custody = .ended copy := by
  cases custody with
  | ended held => exact congrArg Custody.ended allowed.symm
  | _ => exact False.elim allowed

private theorem asked_of_update {asked : JobExecution} {written : Written JobExecution}
    {copies : List JobExecution} (happens :
      Happens id s (.answered j (.request (.update asked)) written) t)
    (follows : (s.threads j).Follows Operator.custody (fun _ _ => True) copies)
    (ranked : t.session.Ranked) (own : asked.id = some id) (took : written.result = .ok ()) :
    t.session.Asked id := by
  obtain ⟨next, ready, -⟩ := happens.ready
  rw [ready] at follows
  obtain ⟨⟨read, -, -, rfl⟩, -⟩ := follows
  obtain ⟨moment, rfl, session⟩ := happens.request_eq
  rw [session] at ranked ⊢
  exact ranked.asked_of_update own (BatchStatus.le_upgradeTo read.status .stopping).2 took

-- When a launch refreshes what its body has left, a stop request that has been written before is
-- still there.
private theorem asked_of_path {launcher : Launcher} {settings : JobSettings}
    {parameters : JobParameters} {rejection : Option TaskRejected} {asked mine : JobExecution}
    {written refreshed : Written JobExecution}
    (isLaunch : calls i = .launch launcher settings parameters rejection)
    (stops : ∀ j, j ≠ i → ∃ target, calls j = .stop target)
    (before : Path id (start calls) earlier s) (other : j ≠ i)
    (asks : Happens id s (.answered j (.request (.update asked)) written) t)
    (own : asked.id = some id) (took : written.result = .ok ()) (between : Path id t middle u)
    (looks : Happens id u (.answered i (.request (.synchronize mine)) refreshed) v)
    (few : u.session.Few) :
    ∃ events, events = earlier ++ [.answered j (.request (.update asked)) written] ++ middle ∧
      (u.threads i).Follows Custody.protocol Custody.IsDone (custodyOf i events) ∧
      custodyOf i events = .ended mine ∧ Attends i id events u ∧ u.session.Asked id := by
  have fewAsked := between.few few
  obtain ⟨followsBefore, attends⟩ := before.attends isLaunch stops (asks.few fewAsked)
  have followsAsked : (t.threads i).Follows Custody.protocol Custody.IsDone
      (custodyOf i (earlier ++ [.answered j (.request (.update asked)) written])) := by
    rw [custodyOf_append]
    exact asks.follows followsBefore
  have follows := between.follows followsAsked
  have ended := eq_ended (looks.allows follows)
  -- the launch has not ended its execution at the look, and so it has not done so before
  have notLate : ¬ (custodyOf i (earlier ++ [.answered j (.request (.update asked)) written] ++
      middle)).IsLate := by
    rw [ended]
    rintro (late | late) <;> cases late
  have attendsBefore := attends.resolve_left fun late =>
    notLate (isLate_append (isLate_append late _) _)
  obtain ⟨copies, -, followsStop⟩ := attendsBefore.stops j other
  obtain ⟨attendsAsked, -⟩ := (attendsBefore.step followsBefore asks fewAsked).resolve_left
    fun late => notLate (isLate_append late _)
  have isAsked := asked_of_update asks followsStop attendsAsked.ranked own took
  obtain ⟨attendsLook, rises⟩ :=
    (attendsAsked.path followsAsked between few).resolve_left notLate
  exact ⟨_, rfl, follows, ended, attendsLook, isAsked.of_rises rises⟩

private theorem isStopping_of_look {mine : JobExecution} {refreshed : Written JobExecution}
    (attends : Attends i id events u) (ended : custodyOf i events = .ended mine)
    (asked : u.session.Asked id) (own : mine.id = some id)
    (looks : Happens id u (.answered i (.request (.synchronize mine)) refreshed) v) :
    ∃ stored, refreshed = ⟨.ok (), mine.refreshedFrom stored⟩ ∧
      (mine.refreshedFrom stored).isStopping = true := by
  have hand : (custodyOf i events).hand = some mine := by rw [ended]; rfl
  obtain ⟨stored, found, stopping⟩ := (attends.underway hand own).isStopping_refreshed
    attends.ranked asked (attends.held hand) own
  obtain ⟨moment, rfl, -⟩ := looks.request_eq
  exact ⟨stored, Repository.synchronize_of_record own found, stopping⟩

/-- Any number of stops and clients work along with a launch, and clients do not end its execution.
If the write of a stop request succeeds before the launch refreshes its copy, the body has ended
well, and the refreshed copy shows the request. From then on, the launch writes nothing but the
outcome. This succeeds, and it stores that the execution has been stopped. The exit code is that of
a stop, or it is the one that the body has left if that is at least as severe. The launch does not
end before it has written this. -/
theorem stop_requests_are_kept (calls : ι → Call) {launcher : Launcher} {settings : JobSettings}
    {parameters : JobParameters} {rejection : Option TaskRejected} {asked mine : JobExecution}
    {written refreshed : Written JobExecution}
    (isLaunch : calls i = .launch launcher settings parameters rejection)
    (stops : ∀ j, j ≠ i → ∃ target, calls j = .stop target)
    (before : Path id (start calls) earlier s) (other : j ≠ i)
    (asks : Happens id s (.answered j (.request (.update asked)) written) t)
    (own : asked.id = some id) (took : written.result = .ok ()) (between : Path id t middle u)
    (looks : Happens id u (.answered i (.request (.synchronize mine)) refreshed) v)
    (ownCopy : mine.id = some id) (onward : Path id v later w) (few : w.session.Few) :
    (∃ given, .answered i (.invoke given) (.finished, mine) ∈ earlier ++ middle) ∧
    refreshed.result = .ok () ∧ refreshed.copy.isStopping = true ∧
    (∀ final answer x, Happens id w (.answered i (.request (.update final)) answer) x →
      answer.result = .ok () ∧ x.session.repository.executions.get? id = some answer.copy ∧
        answer.copy.StoppedAfter mine) ∧
    ∀ result, w.threads i = .done result → ∃ final answer,
      .answered i (.request (.update final)) answer ∈ later ∧ answer.result = .ok () ∧
        answer.copy.StoppedAfter mine := by
  have fewAfter := onward.few few
  obtain ⟨events, split, follows, ended, attends, isAsked⟩ :=
    asked_of_path isLaunch stops before other asks own took between looks (looks.few fewAfter)
  obtain ⟨stored, rfl, stopping⟩ := isStopping_of_look attends ended isAsked ownCopy looks
  have inHand : custodyOf i (events ++ [.answered i (.request (.synchronize mine))
      ⟨.ok (), mine.refreshedFrom stored⟩]) = .refreshed (mine.refreshedFrom stored) := by
    rw [custodyOf_append, ended]
    exact custodyAfter_own
  have followsAfter := looks.follows follows
  rw [← custodyOf_append] at followsAfter
  obtain ⟨attendsAfter, -⟩ := (attends.step follows looks fewAfter).resolve_left
    fun late => late.ne_refreshed _ inHand
  have followsEnd := onward.follows followsAfter
  have outcome := stopped_of_path attendsAfter inHand ownCopy stopping followsAfter onward few
  refine ⟨?_, rfl, stopping, fun final answer x happens => ?_, fun result isDone => ?_⟩
  · obtain ⟨given, member⟩ := attends.finished ended
    rw [split, List.append_assoc] at member
    refine ⟨given, List.mem_append.2 ((List.mem_append.1 member).imp_right fun member => ?_)⟩
    rcases List.mem_cons.1 member with same | member
    · exact absurd (Event.answered.inj same).1.symm other
    · exact member
  · rcases outcome with ⟨pending, attendsEnd⟩ | ⟨isWritten, -⟩
    · obtain ⟨result, found, stopped⟩ :=
        stopped_of_update attendsEnd pending ownCopy stopping followsEnd happens
      exact ⟨result, found, stopped.of_refreshed⟩
    · have allowed := happens.allows followsEnd
      rw [isWritten] at allowed
      exact False.elim allowed
  · rcases outcome with ⟨pending, -⟩ | ⟨-, wrote⟩
    · rw [isDone] at followsEnd
      exact absurd pending (followsEnd _)
    · obtain ⟨final, answer, member, result, stopped⟩ := wrote
      exact ⟨final, answer, member, result, stopped.of_refreshed⟩

/-- A launch and a stop of its execution. -/
def launchAndStop (launches : Bool) : Call :=
  if launches then .launch ⟨.once, none⟩ ⟨"import", true, none⟩ .empty none else .stop ⟨1⟩

private theorem request_of_path {request : Request} {next : request.Answer → Program Call.Result}
    (_ : Path id s events t) (i : ι) (moment : Timestamp)
    (ready : t.threads i = .act (.request request) next) :
    Happens id t (.answered i (.request request) (t.session.repository.answer moment request).1)
      ⟨(t.session.handing request).call moment request,
        Function.update t.threads i (next (t.session.repository.answer moment request).1)⟩ :=
  .request i moment ready

private theorem now_of_path {next : Timestamp → Program Call.Result} (_ : Path id s events t)
    (i : ι) (moment : Timestamp) (ready : t.threads i = .act .now next) :
    Happens id t (.answered i .now moment)
      ⟨t.session, Function.update t.threads i (next moment)⟩ :=
  .other i ready moment trivial

private theorem finish_of_path {given : JobExecution} {next : _ → Program Call.Result}
    (path : Path id s events t) (i : ι) (ready : t.threads i = .act (.invoke given) next) :
    Path id s (events ++ [.others] ++ [.answered i (.invoke given) (.finished, given)])
      ⟨t.session.hold given, Function.update t.threads i (next (.finished, given))⟩ :=
  (path.snoc (.begins i ready)).snoc
    (@Happens.other _ _ id ⟨t.session.hold given, t.threads⟩ i _ next ready _
      ⟨List.mem_append_right _ (List.mem_singleton.2 rfl), rfl⟩)

/-- A stop is written before the launch writes that it has started. -/
theorem stop_requests_are_kept_early :
    ∃ (s t u v w x : Interplay Bool) (earlier middle later : List (Event Bool))
      (asked mine final : JobExecution) (written refreshed answer : Written JobExecution),
      Path ⟨1⟩ (start launchAndStop) earlier s ∧
      Happens ⟨1⟩ s (.answered false (.request (.update asked)) written) t ∧
      asked.id = some ⟨1⟩ ∧ written.result = .ok () ∧ Path ⟨1⟩ t middle u ∧
      Happens ⟨1⟩ u (.answered true (.request (.synchronize mine)) refreshed) v ∧
      mine.id = some ⟨1⟩ ∧ mine.exitStatus = .executing ∧
      Path ⟨1⟩ v later w ∧ w.session.Few ∧
      Happens ⟨1⟩ w (.answered true (.request (.update final)) answer) x ∧
      x.session.repository.executions.get? ⟨1⟩ = some answer.copy ∧
      answer.copy.StoppedAfter mine := by
  choose next invokes ends using (Launch.attempts_first ⟨"import", true, none⟩ .once)
  have begun : Path ⟨1⟩ (start launchAndStop) [] _ := Path.nil (start launchAndStop)
  have claimed := (begun.snoc (.request true ⟨0, 0⟩ rfl)).snoc (.request true ⟨0, 0⟩ rfl)
  have read := claimed.snoc (.request false ⟨1, 0⟩ rfl)
  have asks := request_of_path read false ⟨1, 0⟩ rfl
  have now := (Path.nil _).snoc (now_of_path (read.snoc asks) true ⟨2, 0⟩ rfl)
  have started := now.snoc (request_of_path now true ⟨2, 0⟩ rfl)
  have finished := finish_of_path started true (inside_launch (invokes _))
  have looks := request_of_path finished true ⟨5, 0⟩ (inside_launch ((ends _).1 _))
  have onward := (Path.nil _).snoc (now_of_path (finished.snoc looks) true ⟨5, 0⟩ rfl)
  have outcome := request_of_path onward true ⟨5, 0⟩ rfl
  have isOther : ∀ j, j ≠ true → ∃ target, launchAndStop j = .stop target := by
    intro j other
    exact ⟨⟨1⟩, by simp [launchAndStop, other]⟩
  obtain ⟨-, -, -, stopped, -⟩ := stop_requests_are_kept launchAndStop rfl isOther read (by decide)
    asks rfl rfl finished looks rfl onward (by decide : 3 < 2 ^ 64)
  obtain ⟨-, stored, stopped⟩ := stopped _ _ _ outcome
  exact ⟨_, _, _, _, _, _, _, _, _, _, _, _, _, _, _, read, asks, rfl, rfl, finished, looks, rfl,
    rfl, onward, (by decide : 3 < 2 ^ 64), outcome, stored, stopped⟩

end Interplay

end BatchRun
