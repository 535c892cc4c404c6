import BatchRun.Proofs.Interleaving.Handover
import BatchRun.Proofs.Interleaving.Looks
import BatchRun.Proofs.Launch.Admission

/-! # Launches that overtake each other

A launch looks at the last execution of its instance and then claims the instance. The claim checks
the status of the stored execution once more, and nothing else: whether the job may run again and
whether the steps have come to an end is only known from the look. What has been found out by the
look is still true at the claim unless another launch has claimed the instance in between, or
somebody has worked on the execution or its steps.
-/

namespace BatchRun

/-- The checks of a launch let this pass as the last execution of its instance. -/
def JobSettings.Passes (settings : JobSettings) (last : Option JobExecution) : Prop :=
  ∀ read, last = some read → read.status ≠ .completed ∧ settings.restartable = true ∧
    ∀ step ∈ read.steps, step.status.isRunning = false ∧ step.status ≠ .unknown

/-! ## The way to the claim -/

private theorem Launch.checkLast_passes (settings : JobSettings) (parameters : JobParameters)
    (last : Option JobExecution) :
    (checkLast settings.job parameters last = .ok () ∧ settings.Passes last) ∨
      ∃ error, checkLast settings.job parameters last = .error error := by
  cases last with
  | none => exact .inl ⟨rfl, fun _ absent => nomatch absent⟩
  | some read =>
    rcases checkLast_cases settings parameters read with ⟨passed, allowed⟩ | ⟨error, refused, -⟩
    · exact .inl ⟨passed, fun _ same => Option.some.inj same ▸ allowed⟩
    · exact .inr ⟨error, refused⟩

/-- A program that looks at the last execution and goes on with the claim if the checks let it pass.
Where anything is refused, it ends with such a value. -/
def Program.LooksFirst {α : Type} (settings : JobSettings) (parameters : JobParameters)
    (Refused : α → Prop) (program : Program α) : Prop :=
  ∃ next : Except RepositoryError (Option JobExecution) → Program α,
    program = .act (.request (.lastExecution settings.name parameters)) next ∧
    ∀ answer, (∃ value, next answer = .done value ∧ Refused value) ∨
      ∃ last, answer = .ok last ∧ settings.Passes last ∧
        ∃ rest : Except RepositoryError JobExecution → Program α,
          next answer = .act (.request (.createExecution settings.name parameters)) rest ∧
          ∀ error, ∃ value, rest (.error error) = .done value ∧ Refused value

/-- A program goes on to look first, if what follows an early end has ended as well. -/
theorem Program.LooksFirst.bind {α β : Type} {settings : JobSettings} {parameters : JobParameters}
    {Refused : α → Prop} {Ended : β → Prop} {program : Program α} {rest : α → Program β}
    (looks : program.LooksFirst settings parameters Refused)
    (ends : ∀ value, Refused value → ∃ last, rest value = .done last ∧ Ended last) :
    (program >>= rest).LooksFirst settings parameters Ended := by
  obtain ⟨next, rfl, goesOn⟩ := looks
  refine ⟨fun answer => (next answer).andThen rest, rfl, fun answer => ?_⟩
  rcases goesOn answer with ⟨value, refused, isRefused⟩ | ⟨last, same, passes, claim, claims, fails⟩
  · obtain ⟨ended, isEnd, isEnded⟩ := ends value isRefused
    exact .inl ⟨ended, (congrArg (·.andThen rest) refused).trans isEnd, isEnded⟩
  · refine .inr ⟨last, same, passes, fun made => (claim made).andThen rest, ?_, fun error => ?_⟩
    · exact congrArg (·.andThen rest) claims
    · obtain ⟨value, refused, isRefused⟩ := fails error
      obtain ⟨ended, isEnd, isEnded⟩ := ends value isRefused
      exact ⟨ended, (congrArg (·.andThen rest) refused).trans isEnd, isEnded⟩

/-- A claim refuses its parameters, or it looks before it asks for an execution. -/
theorem Launch.claim_looksFirst (settings : JobSettings) (parameters : JobParameters) :
    (∃ error, (claim settings.job parameters : Program LaunchOutcome) = .done (.error error)) ∨
    settings.Accepts parameters ∧ (claim settings.job parameters).LooksFirst settings parameters
      fun outcome : LaunchOutcome => ∃ error, outcome = .error error := by
  rcases checkParameters_cases settings parameters with
    ⟨accepted, accepts⟩ | ⟨error, refused, -⟩
  · refine .inr ⟨accepts, ?_⟩
    unfold claim
    rw [accepted]
    refine ⟨_, rfl, fun answer => ?_⟩
    cases answer with
    | error error => exact .inl ⟨_, rfl, _, rfl⟩
    | ok last =>
      rcases checkLast_passes settings parameters last with ⟨passed, passes⟩ | ⟨error, refused⟩
      · refine .inr ⟨last, rfl, passes, ?_⟩
        simp only [Program.andThen, passed]
        exact ⟨_, rfl, fun error => ⟨_, rfl, _, rfl⟩⟩
      · simp only [Program.andThen, refused]
        exact .inl ⟨_, rfl, _, rfl⟩
  · unfold claim
    rw [refused]
    exact .inl ⟨_, rfl⟩

/-- A launch whose parameters are accepted looks first, and any other one is over at once. -/
theorem Launch.launch_looksFirst (settings : JobSettings) (parameters : JobParameters)
    (dispatch : JobExecution → Program Dispatched) :
    (∃ outcome, launch settings.job parameters dispatch = .done outcome) ∨
    settings.Accepts parameters ∧
      (launch settings.job parameters dispatch).LooksFirst settings parameters fun _ => True := by
  unfold launch
  rcases claim_looksFirst settings parameters with ⟨error, refused⟩ | ⟨accepts, looks⟩
  · rw [refused]
    exact .inl ⟨_, rfl⟩
  · refine .inr ⟨accepts, looks.bind fun outcome isRefused => ?_⟩
    obtain ⟨error, rfl⟩ := isRefused
    exact ⟨_, rfl, trivial⟩

private theorem Call.launch_looksFirst (launcher : Launcher) (settings : JobSettings)
    (parameters : JobParameters) (rejection : Option TaskRejected) :
    (∃ result, (launch launcher settings parameters rejection).program = .done result) ∨
    settings.Accepts parameters ∧
      (launch launcher settings parameters rejection).program.LooksFirst settings parameters
        fun _ => True := by
  -- the program of the call is this one, whatever becomes of the run
  have looksFirst (dispatch : JobExecution → Program Dispatched) :
      (∃ result, Result.launched <$> Launch.launch settings.job parameters dispatch =
        .done result) ∨
      settings.Accepts parameters ∧
        (Result.launched <$> Launch.launch settings.job parameters dispatch).LooksFirst settings
          parameters fun _ => True := by
    rcases Launch.launch_looksFirst settings parameters dispatch with
      ⟨outcome, isEnd⟩ | ⟨accepts, looks⟩
    · exact .inl ⟨.launched outcome, congrArg (Result.launched <$> ·) isEnd⟩
    · exact .inr ⟨accepts, looks.bind fun outcome _ => ⟨_, rfl, trivial⟩⟩
  exact looksFirst _

variable {ι : Type}

/-- The event is an answer to this call. -/
def Event.AnswerTo (i : ι) : Event ι → Prop
  | .answered j _ _ => j = i
  | .client _ => False

/-- The request that has been made in an event. -/
def Event.request? : Event ι → Option Request
  | .answered _ (.request request) _ => some request
  | .client request => some request
  | _ => none

/-- Nobody claims the instance with this name and identity key in the event. -/
def Event.Spares (target : String × String) (event : Event ι) : Prop :=
  event.claims? target = none ∧ ∀ jobName parameters,
    event = .client (.createExecution jobName parameters) →
      (jobName, parameters.identityKey) ≠ target

/-- What has been claimed is not forgotten. -/
theorem Course.after_ne_none {course : Option Course} (claimed : course ≠ none) (action : Action)
    (answer : action.Answer) : Course.after course action answer ≠ none := by
  obtain ⟨known, rfl⟩ := Option.ne_none_iff_exists'.1 claimed
  cases action with
  | request made =>
    cases made with
    | createExecution jobName parameters =>
      obtain error | execution := answer <;> exact Option.some_ne_none _
    | update copy =>
      obtain ⟨error | _, written⟩ := answer <;> exact Option.some_ne_none _
    | _ => exact Option.some_ne_none _
  | _ => exact Option.some_ne_none _

namespace System

variable [DecidableEq ι] {calls : ι → Call} {s t u v : System ι} {i : ι} {event : Event ι}
  {events between : List (Event ι)} {settings : JobSettings} {parameters : JobParameters}
  {last : Option JobExecution}

private theorem courseOf_eq_none_of_append (idle : courseOf i (events ++ [event]) = none) :
    courseOf i events = none := by
  rw [courseOf_append] at idle
  by_contra claimed
  cases event with
  | answered j action answer =>
    by_cases own : j = i
    · exact Course.after_ne_none claimed action answer ((if_pos own).symm.trans idle)
    · exact claimed ((if_neg own).symm.trans idle)
  | client request => exact claimed idle

/-- What others do makes no difference to a call. -/
theorem Happens.thread_eq (happens : Happens s event t) (other : ¬ event.AnswerTo i) :
    t.threads i = s.threads i := by
  cases happens with
  | request j moment ready => exact Function.update_of_ne (Ne.symm other) ..
  | other j ready answer admitted => exact Function.update_of_ne (Ne.symm other) ..
  | client moment request honest => rfl

/-- A call goes on with the answer to what it has asked for. -/
theorem Happens.ready {action : Action} {answer : action.Answer}
    (happens : Happens s (.answered i action answer) t) :
    ∃ next, (s.threads i).program = .act action next ∧ (t.threads i).program = next answer := by
  cases happens with
  | request i moment ready => exact ⟨_, ready, by simp only [Function.update_self]; rfl⟩
  | other i ready answer admitted => exact ⟨_, ready, by simp only [Function.update_self]; rfl⟩

private theorem Happens.answer_eq {request : Request} {answer : request.Answer}
    (happens : Happens s (.answered i (.request request) answer) t) :
    ∃ moment, answer = (s.books.repository.answer moment request).1 ∧
      t.books = s.books.after moment request := by
  cases happens with
  | request i moment ready => exact ⟨moment, rfl, rfl⟩
  | other i ready answer admitted => exact admitted.elim

/-- The last execution that a launch has read, when and in which books, and what has happened
since. -/
structure Looked (calls : ι → Call) (i : ι) (settings : JobSettings) (parameters : JobParameters)
    (events : List (Event ι)) (s : System ι) (last : Option JobExecution)
    (between : List (Event ι)) (v : System ι) : Prop where
  before : ∃ before u, events = before ++
      .answered i (.request (.lastExecution settings.name parameters)) (.ok last) :: between ∧
    (∀ event ∈ before, ¬ event.AnswerTo i) ∧ Path (start calls) before u ∧
    Happens u (.answered i (.request (.lastExecution settings.name parameters)) (.ok last)) v
  since : Path v between s
  quiet : ∀ event ∈ between, ¬ event.AnswerTo i
  accepts : settings.Accepts parameters
  passes : settings.Passes last
  claims : ∃ rest : Except RepositoryError JobExecution → Program Call.Result,
    (s.threads i).program =
      .act (.request (.createExecution settings.name parameters)) rest ∧
    ∀ error, ∃ value, rest (.error error) = .done value

/-- How far a launch is that has not claimed anything. -/
inductive Approach (calls : ι → Call) (i : ι) (settings : JobSettings) (parameters : JobParameters)
    (events : List (Event ι)) (s : System ι) : Prop
  | ahead (same : (s.threads i).program = (calls i).program)
      (quiet : ∀ event ∈ events, ¬ event.AnswerTo i)
  | looked {last : Option JobExecution} {between : List (Event ι)} {v : System ι}
      (looked : Looked calls i settings parameters events s last between v)
  | finished {result : Call.Result} (ended : (s.threads i).program = .done result)

-- What others do does not take a launch any further, and does not set it back either.
private theorem Approach.other (approach : Approach calls i settings parameters events s)
    (happens : Happens s event t) (other : ¬ event.AnswerTo i) :
    Approach calls i settings parameters (events ++ [event]) t := by
  have same := happens.thread_eq other
  cases approach with
  | ahead begins quiet =>
    refine .ahead (by rw [same, begins]) fun event' member => ?_
    rcases List.mem_append.1 member with old | new
    · exact quiet event' old
    · exact List.mem_singleton.1 new ▸ other
  | looked looked =>
    obtain ⟨⟨before, u, split, none, path, look⟩, since, quiet, accepts, passes, claims⟩ := looked
    refine .looked ⟨⟨before, u, ?_, none, path, look⟩, since.snoc happens, fun event' member => ?_,
      accepts, passes, same ▸ claims⟩
    · rw [split]
      simp
    · rcases List.mem_append.1 member with old | new
      · exact quiet event' old
      · exact List.mem_singleton.1 new ▸ other
  | finished ended => exact .finished (by rw [same, ended])

private theorem Approach.own {launcher : Launcher} {rejection : Option TaskRejected}
    {action : Action} {next : action.Answer → Program Call.Result} {answer : action.Answer}
    (isLaunch : calls i = .launch launcher settings parameters rejection)
    (path : Path (start calls) events s)
    (approach : Approach calls i settings parameters events s)
    (ready : (s.threads i).program = .act action next)
    (happens : Happens s (.answered i action answer) t)
    (goneOn : (t.threads i).program = next answer)
    (unclaimed : Course.after (courseOf i events) action answer = none) :
    Approach calls i settings parameters (events ++ [.answered i action answer]) t := by
  cases approach with
  | finished ended => exact nomatch ready.symm.trans ended
  | ahead begins quiet =>
    have begins := begins.trans (congrArg Call.program isLaunch)
    rcases Call.launch_looksFirst launcher settings parameters rejection with
      ⟨result, isEnd⟩ | ⟨accepts, next', looks, goesOn⟩
    · exact nomatch ready.symm.trans (begins.trans isEnd)
    · cases ready.symm.trans (begins.trans looks)
      rcases goesOn answer with ⟨value, ended, -⟩ | ⟨last, rfl, passes, rest, claims, refused⟩
      · exact .finished (goneOn.trans ended)
      · refine .looked ⟨⟨events, s, rfl, quiet, path, happens⟩, .nil _, by simp, accepts, passes,
          rest, goneOn.trans claims, fun error => ?_⟩
        obtain ⟨value, ended, -⟩ := refused error
        exact ⟨value, ended⟩
  | looked looked =>
    obtain ⟨rest, claims, refused⟩ := looked.claims
    cases ready.symm.trans claims
    obtain error | execution := answer
    · obtain ⟨value, ended⟩ := refused error
      exact .finished (goneOn.trans ended)
    · exact absurd unclaimed (Option.some_ne_none _)

/-- A launch that has not claimed anything has done nothing, or has done nothing but look, or it is
over. -/
theorem approach {launcher : Launcher} {rejection : Option TaskRejected}
    (isLaunch : calls i = .launch launcher settings parameters rejection)
    (path : Path (start calls) events s) (idle : courseOf i events = none) :
    Approach calls i settings parameters events s := by
  induction path with
  | nil => exact .ahead rfl (by simp)
  | @snoc middle last event events before happens ih =>
    have unclaimed := ih (courseOf_eq_none_of_append idle)
    by_cases own : event.AnswerTo i
    · cases event with
      | client request => exact own.elim
      | answered j action answer =>
        obtain rfl : j = i := own
        obtain ⟨next, ready, goneOn⟩ := happens.ready
        exact unclaimed.own isLaunch before ready happens goneOn (courseOf_own.symm.trans idle)
    · exact unclaimed.other happens own

/-! ## From the look to the claim -/

/-- The books after an event: it has made no request, or one that spares the instances that the
event spares. -/
theorem Happens.books_cases (happens : Happens s event t) (sound : Sound calls s) :
    t.books = s.books ∨ ∃ moment request, event.request? = some request ∧
      t.books = s.books.after moment request ∧ s.books.Genuine request ∧
      ∀ target, event.Spares target → s.books.Spares target request := by
  cases happens with
  | @request i moment request next ready =>
    refine .inr ⟨moment, request, rfl, rfl, sound.genuine_of_ready ready, ?_⟩
    rintro target ⟨unclaimed, -⟩ jobName parameters ⟨known, context, claimed⟩ rfl granted same
    obtain ⟨contexts, created⟩ := Repository.createExecution_of_claim moment granted
    rw [Repository.answer_of_created created] at unclaimed
    exact nomatch unclaimed.symm.trans (if_pos same)
  | @other i action next ready answer admitted => exact .inl rfl
  | client moment request honest =>
    refine .inr ⟨moment, request, rfl, rfl, honest.genuine, ?_⟩
    rintro target ⟨-, others⟩ jobName parameters claimed rfl -
    exact others jobName parameters rfl

section Between

variable {target : String × String} {id : JobExecutionId} {stored : JobExecution}
  (sound : Sound calls v) (path : Path v between s) (bound : s.books.created < 2 ^ 64)
  (spared : ∀ event ∈ between, event.Spares target)

include sound path bound spared

/-- The record of an instance that nobody claims has been its record all the time. -/
theorem Path.origin_of_spared (found : s.books.repository.executions.get? id = some stored)
    (own : stored.jobInstance.target = target) :
    ∃ first, v.books.repository.executions.get? id = some first ∧
      first.jobInstance = stored.jobInstance := by
  induction path generalizing stored with
  | nil => exact ⟨stored, found, rfl⟩
  | @snoc middle last event between before happens ih =>
    have earlier := Nat.lt_of_le_of_lt happens.step.created_le bound
    have soundBefore := sound.reaches before.reaches earlier
    have spares : event.Spares target := spared event (by simp)
    have sparedBefore : ∀ event ∈ between, event.Spares target :=
      fun event member => spared event (List.mem_append_left _ member)
    rcases happens.books_cases soundBefore with same | ⟨moment, request, -, same, genuine, sparing⟩
    · rw [same] at found
      exact ih earlier sparedBefore found own
    · rw [same] at found
      obtain ⟨first, lookup, belongs⟩ :=
        soundBefore.books.origin_of_spared genuine (sparing target spares) found own
      obtain ⟨origin, foundFirst, sameInstance⟩ := ih earlier sparedBefore lookup (belongs ▸ own)
      exact ⟨origin, foundFirst, sameInstance.trans belongs⟩

/-- The record of an instance that nobody claims is still shown with the same steps if nobody works
on it. -/
theorem Path.shown_of_spared (found : v.books.repository.executions.get? id = some stored)
    (own : stored.jobInstance.target = target)
    (unshaped : ∀ event ∈ between, ∀ request, event.request? = some request →
      ¬ request.Reshapes stored.id (v.books.repository.listedSteps stored)) :
    s.books.repository.executions.get? id = some stored ∧
      s.books.repository.listedSteps stored = v.books.repository.listedSteps stored := by
  induction path with
  | nil => exact ⟨found, rfl⟩
  | @snoc middle last event between before happens ih =>
    have earlier := Nat.lt_of_le_of_lt happens.step.created_le bound
    have soundBefore := sound.reaches before.reaches earlier
    have booksAfter := (soundBefore.step happens.step bound).books
    obtain ⟨lookup, listed⟩ := ih earlier
      (fun event member => spared event (List.mem_append_left _ member))
      (fun event member => unshaped event (List.mem_append_left _ member))
    have numbered := soundBefore.books.consistent.executions.numbered lookup
    rcases happens.books_cases soundBefore with
      same | ⟨moment, request, made, same, genuine, sparing⟩
    · rw [same]
      exact ⟨lookup, listed⟩
    · have alone : ¬ request.Reshapes stored.id (middle.books.repository.listedSteps stored) := by
        rw [listed]
        exact unshaped event (by simp) request made
      have group := (Repository.change_answer middle.books.repository moment request).group_eq
        numbered alone
      rw [same] at bound booksAfter ⊢
      refine ⟨soundBefore.books.kept_of_spared bound booksAfter
        (sparing target (spared event (by simp))) lookup own ?_, Eq.trans ?_ listed⟩
      · rintro copy rfl sameId
        exact alone (sameId.trans numbered.symm)
      · unfold Repository.listedSteps
        rw [numbered, Option.bind_some, Option.bind_some, Books.repository_after, group]

end Between

private theorem read_of_holds {repository : Repository} {jobName : String}
    {stored : JobExecution} (consistent : repository.Consistent)
    (holds : repository.Holds jobName parameters stored) :
    repository.lastExecution jobName parameters = .ok (some (repository.assembled stored)) := by
  obtain ⟨known, id, found, lookup, belongs⟩ := id holds
  have member := ExecutionStore.mem_ofInstance.2 ⟨⟨id, lookup⟩, belongs⟩
  rw [Repository.lastExecution_eq consistent.executions.toNumbered, found, Option.bind_some]
  rcases repository.executions.last?_cases known.id with ⟨none, -⟩ | ⟨other, inside, last⟩
  · rw [none] at member
    exact absurd member List.not_mem_nil
  · obtain ⟨⟨otherId, otherLookup⟩, otherBelongs⟩ := ExecutionStore.mem_ofInstance.1 inside
    obtain rfl := consistent.eq_of_holds holds ⟨known, otherId, found, otherLookup, otherBelongs⟩
    rw [last]
    rfl

private theorem looked_of_claim {j : ι} {jobName : String} {given : JobParameters}
    {execution : JobExecution} (path : Path (start calls) events s)
    (claim : Happens s
      (.answered j (.request (.createExecution jobName given)) (.ok execution)) t)
    (idle : courseOf j events = none) (isLaunch : (calls j).target? ≠ none) :
    ∃ launcher settings rejection last between v,
      calls j = .launch launcher settings given rejection ∧ settings.name = jobName ∧
      Looked calls j settings given events s last between v := by
  cases call : calls j with
  | stop id => exact absurd (congrArg Call.target? call) isLaunch
  | abandon id => exact absurd (congrArg Call.target? call) isLaunch
  | launch launcher settings parameters rejection =>
    obtain ⟨next, ready, -⟩ := claim.ready
    cases approach call path idle with
    | finished ended => exact nomatch ready.symm.trans ended
    | ahead begins quiet =>
      have begins := begins.trans (congrArg Call.program call)
      rcases Call.launch_looksFirst launcher settings parameters rejection with
        ⟨result, isEnd⟩ | ⟨accepts, next', looks, goesOn⟩
      · exact nomatch ready.symm.trans (begins.trans isEnd)
      · exact nomatch ready.symm.trans (begins.trans looks)
    | looked looked =>
      obtain ⟨rest, claims, -⟩ := looked.claims
      cases ready.symm.trans claims
      exact ⟨launcher, settings, rejection, _, _, _, rfl, rfl, looked⟩

section Since

variable {stored : JobExecution}
  (looked : Looked calls i settings parameters events s last between v)
  (bound : s.books.created < 2 ^ 64)

include looked bound

private theorem Looked.sound :
    Sound calls v ∧ v.books.created < 2 ^ 64 ∧
      v.books.repository.lastExecution settings.name parameters = .ok last := by
  obtain ⟨before, u, -, -, path, look⟩ := looked.before
  have boundAfter := Nat.lt_of_le_of_lt looked.since.reaches.created_le bound
  obtain ⟨moment, answered, books⟩ := look.answer_eq
  refine ⟨(Sound.start calls).reaches (path.snoc look).reaches boundAfter, boundAfter, ?_⟩
  rw [books]
  exact answered.symm

variable (spared : ∀ event ∈ between, event.Spares (settings.name, parameters.identityKey))
  (holds : s.books.repository.Holds settings.name parameters stored)

include spared holds

-- If nobody has claimed the instance since the look, the record that is held now is the one that
-- was read.
private theorem Looked.origin :
    ∃ id first, v.books.repository.executions.get? id = some first ∧
      s.books.repository.executions.get? id = some stored ∧
      first.jobInstance.target = (settings.name, parameters.identityKey) ∧
      last = some (v.books.repository.assembled first) := by
  obtain ⟨sound, boundThen, read⟩ := looked.sound bound
  have soundNow := sound.reaches looked.since.reaches bound
  obtain ⟨id, found, own⟩ := (soundNow.books.consistent.holds_iff
    (Nat.lt_of_le_of_lt soundNow.books.few bound)).1 holds
  obtain ⟨first, lookup, same⟩ := looked.since.origin_of_spared sound bound spared found own
  have holdsThen := (sound.books.consistent.holds_iff
    (Nat.lt_of_le_of_lt sound.books.few boundThen)).2 ⟨id, lookup, same ▸ own⟩
  rw [read_of_holds sound.books.consistent holdsThen] at read
  exact ⟨id, first, lookup, found, same ▸ own, (Except.ok.inj read).symm⟩

private theorem Looked.settled
    (unshaped : ∀ read, last = some read → ∀ event ∈ between, ∀ request,
      event.request? = some request → ¬ request.Reshapes read.id read.steps) :
    ∀ step ∈ (s.books.repository.assembled stored).steps,
      step.status.isRunning = false ∧ step.status ≠ .unknown := by
  obtain ⟨id, first, lookup, found, own, isLast⟩ := looked.origin bound spared holds
  obtain ⟨sound, -, -⟩ := looked.sound bound
  have alone : ∀ event ∈ between, ∀ request, event.request? = some request →
      ¬ request.Reshapes first.id (v.books.repository.listedSteps first) := by
    intro event member request made reshapes
    exact unshaped _ isLast event member request made
      ((Request.reshapes_withStepContext v.books.repository).2 reshapes)
  obtain ⟨foundNow, listed⟩ := looked.since.shown_of_spared sound bound spared lookup own alone
  obtain rfl := Option.some.inj (foundNow.symm.trans found)
  obtain ⟨-, -, settled⟩ := looked.passes _ isLast
  intro step member
  obtain ⟨shown, inside, rfl⟩ := List.mem_map.1 member
  rw [listed] at inside
  exact settled (v.books.repository.withStepContext shown) (List.mem_map_of_mem inside)

end Since

/-- A launch that is granted its claim has looked at the last execution before, and what it has
read then has passed its checks. At the claim the status of the stored execution allows another one.
If nobody has claimed the instance in between, a job that is not restartable has no stored
execution, and the stored execution of any other job is the one that was read. If nobody has worked
on it in between either, all the rules for launches hold at the claim. -/
theorem launch_rules_until_overtaken (calls : ι → Call) {j : ι} {jobName : String}
    {given : JobParameters} {execution : JobExecution} (path : Path (start calls) events s)
    (claim : Happens s
      (.answered j (.request (.createExecution jobName given)) (.ok execution)) t)
    (bound : t.books.created < 2 ^ 64) :
    ∃ launcher settings rejection last before between u,
      calls j = .launch launcher settings given rejection ∧ settings.name = jobName ∧
      events = before ++
        .answered j (.request (.lastExecution jobName given)) (.ok last) :: between ∧
      (∀ event ∈ before ++ between, ¬ event.AnswerTo j) ∧ Path (start calls) before u ∧
      u.books.repository.lastExecution jobName given = .ok last ∧
      settings.Accepts given ∧ settings.Passes last ∧
      (∀ stored, s.books.repository.Holds jobName given stored →
        stored.status ∈ BatchStatus.claimable) ∧
      ((∀ event ∈ between, event.Spares (jobName, given.identityKey)) →
        (∀ stored, s.books.repository.Holds jobName given stored →
          settings.restartable = true ∧ ∃ read, last = some read ∧ read.id = stored.id) ∧
        ((∀ read, last = some read → ∀ event ∈ between, ∀ request,
            event.request? = some request → ¬ request.Reshapes read.id read.steps) →
          Launch.Admits s.books.repository settings given)) := by
  have earlier := Nat.lt_of_le_of_lt claim.step.created_le bound
  have charted : Charted calls events s := (Charted.start calls).path path earlier
  obtain ⟨moment, created, -, isTarget, idle⟩ := charted.created claim bound
  obtain ⟨launcher, settings, rejection, last, between, v, isLaunch, rfl, looked⟩ :=
    looked_of_claim path claim idle (by simp [isTarget])
  obtain ⟨before, u, split, ahead, path, look⟩ := looked.before
  obtain ⟨_, read, -⟩ := look.answer_eq
  have consistent := charted.sound.books.consistent
  have claimable : ∀ stored, s.books.repository.Holds settings.name given stored →
      stored.status ∈ BatchStatus.claimable := by
    rcases Repository.claim_decided consistent.executions.toNumbered settings.name given with
      ⟨allowed, -⟩ | ⟨-, error, refused, -⟩
    · exact allowed
    · rw [Repository.createExecution_of_refused refused] at created
      contradiction
  refine ⟨launcher, settings, rejection, last, before, between, u, isLaunch, rfl, split, ?_, path,
    read.symm, looked.accepts, looked.passes, claimable, fun spared => ⟨?_, fun unshaped => ?_⟩⟩
  · exact fun event member => (List.mem_append.1 member).elim (ahead event) (looked.quiet event)
  · intro stored holds
    obtain ⟨id, first, lookup, found, -, isLast⟩ := looked.origin earlier spared holds
    obtain ⟨-, again, -⟩ := looked.passes _ isLast
    have sameId := ((looked.sound earlier).1.books.consistent.executions.numbered lookup).trans
      (consistent.executions.numbered found).symm
    exact ⟨again, _, isLast, sameId⟩
  · refine ⟨looked.accepts, ?_⟩
    by_cases nothing : ∀ stored, ¬ s.books.repository.Holds settings.name given stored
    · exact .inl nothing
    · obtain ⟨stored, holds⟩ := not_forall_not.1 nothing
      obtain ⟨id, first, -, -, -, isLast⟩ := looked.origin earlier spared holds
      exact .inr ⟨_, read_of_holds consistent holds, claimable, (looked.passes _ isLast).2.1,
        looked.settled earlier spared holds unshaped⟩

/-- Two launches of a job that is not restartable. -/
def onceTwice : Bool → Call := fun _ => .launch ⟨.once, none⟩ ⟨"import", false, none⟩ .empty none

-- The first one looks, the second one runs and fails, and the first one makes its claim.
private theorem claim_of_overtaken :
    ∃ (s t : System Bool) (events : List (Event Bool)) (stored execution : JobExecution),
      Path (start onceTwice) events s ∧
      s.books.repository.executions.get? ⟨1⟩ = some stored ∧ stored.status = .failed ∧
      stored.jobInstance = .of ⟨1⟩ "import" .empty ∧
      Happens s (.answered false (.request (.createExecution "import" .empty)) (.ok execution)) t ∧
      execution.id = some ⟨2⟩ ∧ t.books.created = 2 := by
  choose next invokes ends using
    (Launch.attempts_first ⟨"import", false, none⟩ .once)
  have begun := Path.nil (start onceTwice)
  have looked := (begun.snoc (.request false ⟨0, 0⟩ rfl)).snoc (.request true ⟨0, 0⟩ rfl)
  have started := ((looked.snoc (.request true ⟨0, 0⟩ rfl)).snoc
    (@Happens.other _ _ _ true .now _ rfl ⟨0, 0⟩ trivial)).snoc (.request true ⟨0, 0⟩ rfl)
  have ran := started.snoc (failed_of_path started true ⟨"lost", []⟩ .empty
    (inside_launch (invokes _)))
  have ended := (ran.snoc (@Happens.other _ _ _ true .now _ (inside_launch ((ends _).2 _ _ rfl))
    ⟨5, 0⟩ trivial)).snoc (.request true ⟨0, 0⟩ rfl)
  have claim := request_of_path ended false ⟨0, 0⟩ rfl
  exact ⟨_, _, _, _, _, ended, rfl, rfl, rfl, claim, rfl, rfl⟩

/-- A launch of a job that is not restartable is granted a second execution after it has been
overtaken. -/
theorem launch_rules_until_overtaken_once :
    ∃ (s t : System Bool) (events : List (Event Bool)) (stored execution : JobExecution),
      Path (start onceTwice) events s ∧
      s.books.repository.Holds "import" .empty stored ∧ stored.status = .failed ∧
      Happens s (.answered false (.request (.createExecution "import" .empty)) (.ok execution)) t ∧
      execution.id = some ⟨2⟩ ∧
      ∃ event ∈ events, ¬ event.Spares ("import", JobParameters.empty.identityKey) := by
  obtain ⟨s, t, events, stored, execution, path, found, failed, own, claim, second, count⟩ :=
    claim_of_overtaken
  have bound : t.books.created < 2 ^ 64 := by rw [count]; decide
  have earlier := Nat.lt_of_le_of_lt claim.step.created_le bound
  have sound := (Sound.start onceTwice).reaches path.reaches earlier
  have holds : s.books.repository.Holds "import" .empty stored := by
    refine (sound.books.consistent.holds_iff (Nat.lt_of_le_of_lt sound.books.few earlier)).2
      ⟨⟨1⟩, found, ?_⟩
    rw [own]
    exact JobInstance.isFor_iff_target.1 (JobInstance.isFor_of ..)
  refine ⟨s, t, events, stored, execution, path, holds, failed, claim, second, ?_⟩
  obtain ⟨launcher, settings, rejection, last, before, between, u, isLaunch, -, split, -, -, -, -,
    -, -, spare⟩ := launch_rules_until_overtaken _ path claim bound
  by_contra spared
  have aside : ∀ event ∈ between, event.Spares ("import", JobParameters.empty.identityKey) := by
    intro event member
    by_contra overtakes
    exact spared ⟨event, split ▸ List.mem_append_right _ (List.mem_cons_of_mem _ member), overtakes⟩
  obtain ⟨again, -⟩ := (spare aside).1 stored holds
  injection isLaunch with _ sameSettings
  rw [← sameSettings] at again
  contradiction

end System

end BatchRun
