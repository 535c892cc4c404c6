import BatchRun.Proofs.Interleaving.Filing
import Mathlib.Tactic.Choose

/-! # Restarts that race the end of a run

The outcome of a run and its context are written one after the other, and another launch may claim
the instance in between. It starts with the context that the first launch had started with then,
and the context that the first launch writes in the end is filed for an execution that is stored
no more, where nobody looks for it.
-/

namespace BatchRun.System

variable {ι : Type} [DecidableEq ι] {calls : ι → Call} {s t u : System ι} {i j : ι}
  {event : Event ι} {events later : List (Event ι)} {known : Course} {id : JobExecutionId}
  {jobName : String} {parameters : JobParameters} {execution : JobExecution}
  {target : String × String}

/-- As long as the outcome of a run has not been written, its instance cannot be claimed. -/
theorem Charted.not_running_of_claim (charted : Charted calls events s)
    (happens : Happens s
      (.answered j (.request (.createExecution jobName parameters)) (.ok execution)) t)
    (bound : t.books.created < 2 ^ 64) (course : courseOf i events = some known)
    (isTarget : (calls i).target? = some (jobName, parameters.identityKey)) :
    known.stage ≠ .running := by
  intro running
  obtain ⟨moment, -, -, otherTarget, idle⟩ := charted.created happens bound
  have other := (ne_of_idle course idle).symm
  have after := charted.step happens bound
  have related := after.held i
  have claimed := after.held j
  rw [courseOf_create, if_neg other, course] at related
  rw [courseOf_create, if_pos rfl] at claimed
  obtain ⟨held, holding, -⟩ := related.2.1 running
  obtain ⟨claim, claimHolding, -⟩ := claimed.2.1 rfl
  exact other (after.sound.exclusive claimHolding holding (otherTarget.trans isTarget.symm))

namespace Filing

/-- Once the outcome of a run has been written, only its own launch files another context for it,
and nothing else is done to that context as long as nobody claims the instance. -/
theorem step_of_ended (charted : Charted calls events s) (filing : Filing calls events s)
    (happens : Happens s event t) (bound : t.books.created < 2 ^ 64) (plain : event.Plain)
    (course : courseOf i events = some known) (numbered : known.claimed.id = some id)
    (ended : known.stage ≠ .running)
    (kept : ∀ filed, s.books.repository.filed? id = some filed →
      filed.jobInstanceId = known.claimed.jobInstance.id ∧
        ∀ target, (calls i).target? = some target → event.claims? target = none) :
    (courseOf i (events ++ [event]) = some known ∧
      t.books.repository.filed? id = s.books.repository.filed? id) ∨
    (known.stage = .ended ∧
      courseOf i (events ++ [event]) = some { known with stage := .over } ∧
      t.books.repository.filed? id =
        some ⟨known.claimed.jobInstance.id, id, known.context⟩) := by
  cases charted.change happens bound plain with
  | works quiet records filed courses =>
    obtain ⟨after, goesOn, works⟩ := Course.rel_of_before (courses i) course
    rw [goesOn, works.settled ended]
    exact .inl ⟨rfl, filed id⟩
  | @files k other copy key quiet otherCourse isEnded same context copyId isOver others executions
      filed =>
    have orderly := filing.orderly otherCourse
    have otherId := (same.trans orderly.sameRecord).1.symm.trans copyId
    rw [filed]
    by_cases own : i = k
    · subst own
      obtain rfl := Option.some.inj (otherCourse.symm.trans course)
      obtain rfl := Option.some.inj (otherId.symm.trans numbered)
      refine .inr ⟨isEnded, isOver, ?_⟩
      rw [if_pos rfl, same.2, orderly.sameRecord.2, context, orderly.context]
    · refine .inl ⟨(others i own).trans course, if_neg ?_⟩
      rintro rfl
      exact own (filing.apart course otherCourse (numbered.trans otherId.symm))
  | @creates k moment jobName parameters execution same created books isFor idle claimed others =>
    have other := ne_of_idle course idle
    refine .inl ⟨(others i other).trans course, ?_⟩
    have before := charted.sound.books
    have few := Nat.lt_of_le_of_lt (charted.step happens bound).sound.books.few bound
    have older : id ≠ ⟨s.books.repository.executions.lastId + 1⟩ := by
      rintro rfl
      exact filing.id_ne_of_created before (books ▸ bound) created course numbered
    obtain ⟨start, -, -, -, filed⟩ := Repository.filed?_of_created created
    refine Option.ext fun stored => ?_
    rw [filed]
    constructor
    · rintro (⟨new, -⟩ | ⟨-, lookup, -⟩)
      · exact absurd new older
      · exact lookup
    · intro lookup
      obtain ⟨ownInstance, quiet⟩ := kept stored lookup
      refine .inr ⟨older, lookup, fun sameId => ?_⟩
      have claims := quiet _ ((filing.same_instance_iff before few created course).1
        (ownInstance.symm.trans sameId))
      rw [same] at claims
      exact nomatch claims.symm.trans (if_pos rfl)

/-- A claim removes what is filed for the execution before. -/
theorem filed?_of_claim (charted : Charted calls events s) (filing : Filing calls events s)
    (happens : Happens s
      (.answered j (.request (.createExecution jobName parameters)) (.ok execution)) t)
    (bound : t.books.created < 2 ^ 64) (course : courseOf i events = some known)
    (numbered : known.claimed.id = some id)
    (last : claimant (jobName, parameters.identityKey) events = some i) :
    t.books.repository.filed? id = none := by
  obtain ⟨moment, created, books, -⟩ := charted.created happens bound
  obtain ⟨isTarget, now, key, sameCourse, isFiled⟩ := filing.latest last
  obtain rfl := Option.some.inj (course.symm.trans sameCourse)
  obtain rfl := Option.some.inj (numbered.symm.trans isFiled.numbered)
  obtain ⟨context, lookup, -⟩ := isFiled.filed
  have before := charted.sound.books
  have few := Nat.lt_of_le_of_lt (charted.step happens bound).sound.books.few bound
  have older : id ≠ ⟨s.books.repository.executions.lastId + 1⟩ := by
    rintro rfl
    exact filing.id_ne_of_created before (books ▸ bound) created course numbered
  have sameInstance := (filing.same_instance_iff before few created course).2 isTarget
  obtain ⟨start, -, -, -, filed⟩ := Repository.filed?_of_created created
  refine Option.eq_none_iff_forall_ne_some.2 fun stored isStored => ?_
  rcases (filed id stored).1 isStored with ⟨new, -⟩ | ⟨-, found, others⟩
  · exact older new
  · obtain rfl := Option.some.inj (lookup.symm.trans found)
    exact older (others sameInstance)

-- A claim comes after the outcome of the last run, takes over what is filed for it and leaves its
-- launch as it is.
private theorem taken_over (charted : Charted calls events s) (filing : Filing calls events s)
    (happens : Happens s
      (.answered j (.request (.createExecution jobName parameters)) (.ok execution)) t)
    (bound : t.books.created < 2 ^ 64) (course : courseOf i events = some known)
    (last : claimant (jobName, parameters.identityKey) events = some i) :
    known.stage ≠ .running ∧ execution.context.entries = known.filed.entries ∧
      courseOf i (events ++
        [.answered j (.request (.createExecution jobName parameters)) (.ok execution)]) =
          some known := by
  obtain ⟨isTarget, -⟩ := filing.latest last
  obtain ⟨moment, created, -, -, idle⟩ := charted.created happens bound
  have few := Nat.lt_of_le_of_lt (charted.step happens bound).sound.books.few bound
  refine ⟨charted.not_running_of_claim happens bound course isTarget, ?_, ?_⟩
  · rw [filing.entries_of_created charted.sound.books few created]
    simp [leftTo, last, course]
  · rw [courseOf_create, if_neg (ne_of_idle course idle).symm, course]

/-- For an execution whose context has been removed, none is filed again, unless its own launch
does so. -/
theorem path_of_ended (charted : Charted calls events s) (filing : Filing calls events s)
    (path : Path s later t) (bound : t.books.created < 2 ^ 64)
    (plain : ∀ event ∈ later, event.Plain)
    (course : courseOf i events = some known) (numbered : known.claimed.id = some id)
    (ended : known.stage ≠ .running) (gone : s.books.repository.filed? id = none)
    (quiet : known.stage = .ended → ∀ event ∈ later, ∀ target, (calls i).target? = some target →
      event.claims? target = none) :
    (courseOf i (events ++ later) = some known ∧ t.books.repository.filed? id = none) ∨
    (known.stage = .ended ∧ courseOf i (events ++ later) = some { known with stage := .over } ∧
      t.books.repository.filed? id =
        some ⟨known.claimed.jobInstance.id, id, known.context⟩) := by
  induction path with
  | nil => exact .inl ⟨by simpa using course, gone⟩
  | @snoc middle last event later before happens ih =>
    have earlier := Nat.lt_of_le_of_lt happens.step.created_le bound
    have plainBefore : ∀ event ∈ later, event.Plain := fun event member =>
      plain event (List.mem_append_left _ member)
    have isPlain : event.Plain := plain event (by simp)
    obtain ⟨charts, files⟩ := filing.path charted before earlier plainBefore
    rw [← List.append_assoc]
    rcases ih earlier plainBefore fun stage event member =>
      quiet stage event (List.mem_append_left _ member) with
      ⟨still, none⟩ | ⟨stage, isOver, isFiled⟩
    · rcases files.step_of_ended charts happens bound isPlain still numbered ended
        (fun filed isFiled => absurd (isFiled.symm.trans none) (Option.some_ne_none filed)) with
        ⟨same, kept⟩ | written
      · exact .inl ⟨same, kept.trans none⟩
      · exact .inr written
    · have alone (filed : StoredContext)
          (lookup : middle.books.repository.filed? id = some filed) :
          filed.jobInstanceId = known.claimed.jobInstance.id ∧ ∀ target,
            (calls i).target? = some target → event.claims? target = none := by
        obtain rfl := Option.some.inj (isFiled.symm.trans lookup)
        exact ⟨rfl, quiet stage event (by simp)⟩
      rcases files.step_of_ended charts happens bound isPlain isOver numbered (by simp) alone with
        ⟨same, kept⟩ | ⟨again, -⟩
      · exact .inr ⟨stage, same, kept.trans isFiled⟩
      · contradiction

end Filing

/-- The outcome of a run has been written when its instance is claimed again. If the context has
been written as well, the new execution starts with the one that the last run of the body has left,
and none is ever filed for the old execution again. If it has not, the new execution starts with
the context that the old one had been given, and the context that the old launch writes afterwards
stays filed for an execution that is stored no more, until the instance is claimed once more. -/
theorem handover_until_late_context (calls : ι → Call) (path : Path (start calls) events s)
    (claim : Happens s
      (.answered j (.request (.createExecution jobName parameters)) (.ok execution)) t)
    (rest : Path t later u) (bound : u.books.created < 2 ^ 64)
    (plain : ∀ event ∈ events ++ later, event.Plain) (course : courseOf i events = some known)
    (numbered : known.claimed.id = some id)
    (last : claimant (jobName, parameters.identityKey) events = some i) :
    known.stage ≠ .running ∧
    (known.stage = .over → execution.context.entries = known.context.entries ∧
      u.books.repository.contexts.get? (.job id) = none) ∧
    (known.stage = .ended →
      execution.context.entries = known.claimed.context.entries ∧
      ((∀ event ∈ later, event.claims? (jobName, parameters.identityKey) = none) →
        ∃ now, courseOf i (events ++ [.answered j
            (.request (.createExecution jobName parameters)) (.ok execution)] ++ later) = some now ∧
          u.books.repository.contexts.get? (.job id) =
            if now.stage = .over then some known.context else none)) := by
  have boundAtClaim := Nat.lt_of_le_of_lt rest.reaches.created_le bound
  have boundBefore := Nat.lt_of_le_of_lt claim.step.created_le boundAtClaim
  obtain ⟨charted, filing⟩ := (Filing.start calls).path (.start calls) path boundBefore
    fun event member => plain event (List.mem_append_left _ member)
  rw [List.nil_append] at charted filing
  obtain ⟨isTarget, -⟩ := filing.latest last
  obtain ⟨ended, start, goesOn⟩ := filing.taken_over charted claim boundAtClaim course last
  have gone := filing.filed?_of_claim charted claim boundAtClaim course numbered last
  have chartedNow := charted.step claim boundAtClaim
  have filingNow := filing.step charted claim boundAtClaim fun _ same => nomatch same
  have plainLater : ∀ event ∈ later, event.Plain :=
    fun event member => plain event (List.mem_append_right _ member)
  have outcome := filingNow.path_of_ended chartedNow rest bound plainLater goesOn numbered ended
    gone
  refine ⟨ended, fun isOver => ?_, fun stage => ?_⟩
  · constructor
    · rw [start, Course.filed, if_pos isOver]
    · rcases outcome (fun stage => by simp [isOver] at stage) with ⟨-, none⟩ | ⟨stage, -⟩
      · rw [Repository.get?_contexts, none]
        rfl
      · simp [isOver] at stage
  · constructor
    · rw [start, Course.filed, if_neg (by simp [stage])]
    · intro quiet
      rcases outcome fun _ event member target sameTarget => by
          rw [isTarget] at sameTarget
          exact Option.some.inj sameTarget ▸ quiet event member with
        ⟨still, none⟩ | ⟨-, isOver, isFiled⟩
      · refine ⟨known, still, ?_⟩
        rw [Repository.get?_contexts, none, if_neg (by simp [stage])]
        rfl
      · refine ⟨_, isOver, ?_⟩
        rw [Repository.get?_contexts, isFiled]
        rfl

/-- The request that a call makes at the end of a path. -/
theorem request_of_path {request : Request} {next : request.Answer → Program Call.Result}
    (_ : Path s events t) (i : ι) (moment : Timestamp)
    (ready : (t.threads i).program = .act (.request request) next) :
    Happens t (.answered i (.request request) (t.books.repository.answer moment request).1)
      ⟨t.books.after moment request, Function.update t.threads i
        ((t.threads i).advance (.request request) next
          (t.books.repository.answer moment request).1)⟩ :=
  .request i moment ready

/-- A body that changes the context and fails at the end of a path. -/
theorem failed_of_path {given : JobExecution} {next : _ → Program Call.Result}
    (_ : Path s events t) (i : ι) (failure : Failure) (context : ExecutionContext)
    (ready : (t.threads i).program = .act (.invoke given) next) :
    Happens t (.answered i (.invoke given) (.failed failure, { given with context }))
      ⟨t.books, Function.update t.threads i ((t.threads i).advance (.invoke given) next
        (.failed failure, { given with context }))⟩ :=
  .other i ready (.failed failure, { given with context }) ⟨rfl, rfl⟩

/-- A run that fails after its body has noted how far it has come, and a restart between the write
of the outcome and that of the context: the restart knows nothing of what has been noted. -/
theorem handover_until_late_context_of_race :
    ∃ (s t u : System Bool) (events later : List (Event Bool)) (known : Course)
      (execution : JobExecution) (noted : ExecutionContext),
      Path (start fun _ => .launch ⟨.once, none⟩ ⟨"import", true, none⟩ .empty none) events s ∧
      courseOf true events = some known ∧ known.claimed.id = some ⟨1⟩ ∧
      known.copy.status = .failed ∧ known.context = noted ∧
      noted.value? "done" = some (.bool true) ∧
      Happens s (.answered false (.request (.createExecution "import" .empty)) (.ok execution)) t ∧
      execution.context.entries = .empty ∧ Path t later u ∧
      u.books.repository.contexts.get? (.job ⟨1⟩) = some noted := by
  choose next invokes ends using
    (Launch.attempts_first ⟨"import", true, none⟩ .once)
  have begun := Path.nil (start fun _ : Bool =>
    .launch ⟨.once, none⟩ ⟨"import", true, none⟩ .empty none)
  have claimed := (begun.snoc (.request true ⟨0, 0⟩ rfl)).snoc (.request true ⟨0, 0⟩ rfl)
  have started := (claimed.snoc (@Happens.other _ _ _ true .now _ rfl ⟨0, 0⟩ trivial)).snoc
    (.request true ⟨0, 0⟩ rfl)
  have ran := started.snoc (failed_of_path started true ⟨"lost", []⟩
    (ExecutionContext.empty.putValue "done" (.bool true)) (inside_launch (invokes _)))
  have ended := ((ran.snoc (@Happens.other _ _ _ true .now _ (inside_launch ((ends _).2 _ _ rfl))
    ⟨5, 0⟩ trivial)).snoc (.request true ⟨0, 0⟩ rfl)).snoc (.request false ⟨0, 0⟩ rfl)
  have claim := request_of_path ended false ⟨0, 0⟩ rfl
  have late := request_of_path (ended.snoc claim) true ⟨0, 0⟩ rfl
  obtain ⟨-, -, restarts⟩ := handover_until_late_context (i := true) _ ended claim
    ((Path.nil _).snoc late) (by decide : 2 < 2 ^ 64) (by simp [Event.Plain]) rfl rfl rfl
  obtain ⟨entries, kept⟩ := restarts rfl
  obtain ⟨now, course, stored⟩ := kept fun _ member => by
    rw [List.mem_singleton.1 member]
    rfl
  obtain rfl := Option.some.inj course
  exact ⟨_, _, _, _, _, _, _, _, ended, rfl, rfl, rfl, rfl, rfl, claim, entries,
    (Path.nil _).snoc late, stored⟩

end BatchRun.System
