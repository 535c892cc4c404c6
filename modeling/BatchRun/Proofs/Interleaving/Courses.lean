import BatchRun.Proofs.Interleaving.Events
import BatchRun.Proofs.Repository.Contexts

/-! # What the launches of a system have done

The events on a path tell what each launch has done with its execution so far, and which launch has
claimed an instance last. A launch works on its copy, claims an execution, or files the context in
the end. Only the last two change what is stored of contexts, and nobody else does so, as long as
the clients neither create executions nor write contexts of jobs.
-/

namespace BatchRun

variable {ι : Type}

/-- The launch that claims a new execution of this instance in an event. -/
def Event.claims? (target : String × String) : Event ι → Option ι
  | .answered i (.request (.createExecution jobName parameters)) (.ok _) =>
    if (jobName, parameters.identityKey) = target then some i else none
  | _ => none

/-- The launch that has claimed an instance last. -/
def claimant (target : String × String) (events : List (Event ι)) : Option ι :=
  events.foldl (fun last event => (event.claims? target).or last) none

/-- Nobody but the calls creates executions or writes the contexts of jobs. -/
def Event.Plain (event : Event ι) : Prop :=
  ∀ request, event = .client request →
    (∀ jobName parameters, request ≠ .createExecution jobName parameters) ∧
      ∀ copy, request ≠ .updateContext copy

private theorem claimant_append (target : String × String) (events : List (Event ι))
    (event : Event ι) :
    claimant target (events ++ [event]) = (event.claims? target).or (claimant target events) := by
  simp [claimant]

/-- Without a claim the claimant stays the same. -/
theorem claimant_of_quiet {event : Event ι} (quiet : ∀ target, event.claims? target = none)
    (target : String × String) (events : List (Event ι)) :
    claimant target (events ++ [event]) = claimant target events := by
  rw [claimant_append, quiet]
  rfl

/-- A granted claim makes the claimant. -/
theorem claimant_of_create {target : String × String} {events : List (Event ι)} {i : ι}
    {jobName : String} {parameters : JobParameters} {execution : JobExecution} :
    claimant target
      (events ++ [.answered i (.request (.createExecution jobName parameters)) (.ok execution)]) =
        if (jobName, parameters.identityKey) = target then some i else claimant target events := by
  rw [claimant_append]
  change (if _ then some i else none).or _ = _
  split <;> rfl

private theorem Event.claims?_of_other {i : ι} {request : Request} {answer : request.Answer}
    {target : String × String}
    (creates : ∀ jobName parameters, request ≠ .createExecution jobName parameters) :
    Event.claims? target (.answered i (.request request) answer) = none := by
  cases request with
  | createExecution jobName parameters => exact absurd rfl (creates jobName parameters)
  | _ => rfl

variable [DecidableEq ι]

/-- The course of a call after an event. -/
def Course.next (i : ι) (course : Option Course) : Event ι → Option Course
  | .answered j action answer => if j = i then Course.after course action answer else course
  | .client _ => course

/-- What a call has done with its execution, by what has happened. -/
def courseOf (i : ι) (events : List (Event ι)) : Option Course :=
  events.foldl (Course.next i) none

namespace Call

/-- A launch that goes on after this course. -/
def Charts (call : Call) (course : Option Course) (program : Program Result) : Prop :=
  match call with
  | launch _ settings parameters _ =>
    program.Follows (Course.protocol settings.name parameters)
      (fun course _ => Course.IsOver course) course
  | _ => course = none

/-- Every call begins without a course. -/
theorem charts (call : Call) : call.Charts none call.program := by
  cases call with
  | launch launcher settings parameters rejection =>
    exact Program.Follows.bind
      (Launch.follows_course launcher settings parameters rejection)
  | stop id => exact rfl
  | abandon id => exact rfl

variable {call : Call} {course : Option Course} {standing : Standing} {action : Action}
  {next : action.Answer → Program Result} {answer : action.Answer}

private theorem after_of_operator {status : BatchStatus} {Fit : JobExecution → Prop}
    (allowed : Operator.Allows status Fit standing action) (free : standing.held = none)
    (answer : action.Answer) :
    Course.after none action answer = none ∧
      Launch.Held none (standing.after action answer) := by
  cases action with
  | request made =>
    cases made with
    | execution id =>
      obtain error | _ | read := answer <;> exact ⟨rfl, free⟩
    | updateStep step => exact ⟨rfl, free⟩
    | update copy =>
      obtain ⟨error | _, written⟩ := answer
      · exact ⟨rfl, free⟩
      · refine ⟨rfl, ?_⟩
        simp only [Standing.after]
        split
        · exact free
        · exact rfl
    | _ => exact False.elim allowed
  | _ => exact False.elim allowed

/-- A call goes on with its course after every answer. -/
theorem Charts.advance (charts : call.Charts course (.act action next))
    (held : Launch.Held course standing) (allowed : call.Allows standing action)
    (expected : standing.Expects action answer) :
    call.Charts (Course.after course action answer) (next answer) ∧
      Launch.Held (Course.after course action answer) (standing.after action answer) := by
  cases call with
  | launch launcher settings parameters rejection =>
    obtain ⟨allowedNow, goesOn⟩ := charts
    obtain ⟨expectedNow, heldAfter⟩ := Launch.held_after held allowedNow expected
    exact ⟨goesOn answer expectedNow, heldAfter⟩
  | stop id =>
    obtain rfl : course = none := charts
    obtain ⟨idle, free⟩ := after_of_operator allowed held answer
    refine ⟨idle, ?_⟩
    rw [idle]
    exact free
  | abandon id =>
    obtain rfl : course = none := charts
    obtain ⟨idle, free⟩ := after_of_operator allowed held answer
    refine ⟨idle, ?_⟩
    rw [idle]
    exact free

end Call

namespace Course

variable {known later : Course}

/-- There is no course before and after an event, or the launch has worked on. -/
abbrev WorksOn : Option Course → Option Course → Prop := Option.Rel Works

theorem WorksOn.refl (course : Option Course) : WorksOn course course := by
  cases course with
  | none => exact .none
  | some known => exact .some (.refl known)

section Rel

variable {Related : Course → Course → Prop} {before after : Option Course}

theorem WorksOn.idle (first : before = none) (last : after = none) : WorksOn before after := by
  rw [first, last]
  exact .none

/-- To work on an execution keeps its claim. -/
theorem WorksOn.keeps (works : WorksOn before after) : Option.Rel Keeps before after := by
  cases works with
  | some works => exact .some works.toKeeps
  | none => exact .none

theorem rel_of_before (rel : Option.Rel Related before after) (course : before = some known) :
    ∃ later, after = some later ∧ Related known later := by
  subst course
  cases rel with
  | some related => exact ⟨_, rfl, related⟩

theorem rel_of_after (rel : Option.Rel Related before after) (course : after = some later) :
    ∃ known, before = some known ∧ Related known later := by
  subst course
  cases rel with
  | some related => exact ⟨_, rfl, related⟩

end Rel

end Course

namespace System

variable {calls : ι → Call} {s t u : System ι} {i j : ι} {event : Event ι}
  {events : List (Event ι)} {known : Course} {id : JobExecutionId}

/-- The calls on their way, with what they have done. -/
structure Charted (calls : ι → Call) (events : List (Event ι)) (s : System ι) : Prop where
  sound : Sound calls s
  charts : ∀ i, (calls i).Charts (courseOf i events) (s.threads i).program
  held : ∀ i, Launch.Held (courseOf i events) (s.threads i).standing

/-- One more event takes the course of a call one further. -/
theorem courseOf_append (i : ι) (events : List (Event ι)) (event : Event ι) :
    courseOf i (events ++ [event]) = Course.next i (courseOf i events) event := by
  simp [courseOf]

theorem courseOf_own {action : Action} {answer : action.Answer} :
    courseOf i (events ++ [.answered i action answer]) =
      Course.after (courseOf i events) action answer := by
  rw [courseOf_append]
  exact if_pos rfl

private theorem courseOf_other {action : Action} {answer : action.Answer} (other : j ≠ i) :
    courseOf j (events ++ [.answered i action answer]) = courseOf j events := by
  rw [courseOf_append]
  exact if_neg (Ne.symm other)

/-- A launch that has claimed something is another one than a call that has not. -/
theorem ne_of_idle (course : courseOf i events = some known) (idle : courseOf j events = none) :
    i ≠ j := by
  rintro rfl
  exact Option.some_ne_none known (course.symm.trans idle)

/-- A granted claim begins a course, for the one who made it. -/
theorem courseOf_create {jobName : String} {parameters : JobParameters}
    {execution : JobExecution} :
    courseOf j
      (events ++ [.answered i (.request (.createExecution jobName parameters)) (.ok execution)]) =
        if i = j then some (.claim execution) else courseOf j events := by
  rw [courseOf_append]
  rfl

/-- What one launch does makes no difference to the others. -/
theorem worksOn_answered (action : Action) {answer : action.Answer}
    (works : Course.WorksOn (courseOf i events) (Course.after (courseOf i events) action answer))
    (j : ι) :
    Course.WorksOn (courseOf j events) (courseOf j (events ++ [.answered i action answer])) := by
  by_cases own : j = i
  · subst own
    rw [courseOf_own]
    exact works
  · rw [courseOf_other own]
    exact .refl _

namespace Charted

theorem start (calls : ι → Call) : Charted calls [] (start calls) :=
  ⟨.start calls, fun i => (calls i).charts, fun _ => rfl⟩

private theorem advance {action : Action} {next : action.Answer → Program Call.Result}
    {answer : action.Answer} (charted : Charted calls events s)
    (ready : (s.threads i).program = .act action next)
    (expected : (s.threads i).standing.Expects action answer) (j : ι) :
    let advanced := Function.update s.threads i ((s.threads i).advance action next answer) j
    (calls j).Charts (courseOf j (events ++ [.answered i action answer])) advanced.program ∧
      Launch.Held (courseOf j (events ++ [.answered i action answer])) advanced.standing := by
  simp only [courseOf_append, Course.next]
  by_cases own : i = j
  · subst own
    simp only [Function.update_self, if_true]
    exact (ready ▸ charted.charts i : (calls i).Charts _ (.act action next)).advance
      (charted.held i) (charted.sound.allows ready) expected
  · simp only [Function.update_of_ne (Ne.symm own), if_neg own]
    exact ⟨charted.charts j, charted.held j⟩

/-- The courses of all calls can be followed through every event. -/
theorem step (charted : Charted calls events s) (happens : Happens s event t)
    (bound : t.books.created < 2 ^ 64) : Charted calls (events ++ [event]) t := by
  have sound := charted.sound.step happens.step bound
  cases happens with
  | request i moment ready =>
    have both := charted.advance ready (charted.sound.expects ready bound)
    exact ⟨sound, fun j => (both j).1, fun j => (both j).2⟩
  | other i ready answer admitted =>
    have both := charted.advance ready ((s.threads i).standing.after_of_admits admitted).2
    exact ⟨sound, fun j => (both j).1, fun j => (both j).2⟩
  | client moment request honest =>
    refine ⟨sound, fun j => ?_, fun j => ?_⟩
    · rw [courseOf_append]
      exact charted.charts j
    · rw [courseOf_append]
      exact charted.held j

/-- The calls on their way keep to their courses as long as the numbers have not run out. -/
theorem path {later : List (Event ι)} (charted : Charted calls events s) (path : Path s later t)
    (bound : t.books.created < 2 ^ 64) : Charted calls (events ++ later) t := by
  induction path with
  | nil => simpa using charted
  | snoc before happens ih =>
    rw [← List.append_assoc]
    exact (ih (Nat.lt_of_le_of_lt happens.step.created_le bound)).step happens bound

/-- What a launch asks for fits its course. -/
theorem allows {action : Action} {next : action.Answer → Program Call.Result}
    (charted : Charted calls events s) (launch : (calls i).target? ≠ none)
    (ready : (s.threads i).program = .act action next) :
    ∃ jobName parameters, Course.Allows jobName parameters (courseOf i events) action := by
  have charts := charted.charts i
  cases call : calls i with
  | launch launcher settings parameters rejection =>
    rw [call, ready] at charts
    exact ⟨settings.name, parameters, charts.1⟩
  | stop id => exact absurd (congrArg Call.target? call) launch
  | abandon id => exact absurd (congrArg Call.target? call) launch

private theorem courseOf_eq_none (charted : Charted calls events s)
    (operator : (calls i).target? = none) : courseOf i events = none := by
  have charts := charted.charts i
  cases call : calls i with
  | launch launcher settings parameters rejection => simp [call, Call.target?] at operator
  | stop id => rwa [call] at charts
  | abandon id => rwa [call] at charts

/-- What is in hand while a launch runs is held by it. -/
theorem holding (charted : Charted calls events s) {copy : JobExecution}
    (holds : Course.Holds (courseOf i events) .running copy) :
    ∃ known held, courseOf i events = some known ∧ known.stage = .running ∧
      copy.SameRecord known.copy ∧ copy.context = known.copy.context ∧
      (s.threads i).held = some held ∧ copy.SameRecord held := by
  obtain ⟨known, course, running, same, context⟩ := holds
  have related := charted.held i
  rw [course] at related
  obtain ⟨held, holding, sameHeld⟩ := related.2.1 running
  exact ⟨known, held, course, running, same, context, holding, same.trans sameHeld⟩

private theorem worksOn_of_request {request : Request} {next : request.Answer → Program Call.Result}
    (charted : Charted calls events s) (launch : (calls i).target? ≠ none)
    (ready : (s.threads i).program = .act (.request request) next) (moment : Timestamp)
    (creates : ∀ jobName parameters, request ≠ .createExecution jobName parameters)
    (files : ∀ copy, request ≠ .updateContext copy) :
    Course.WorksOn (courseOf i events) (Course.after (courseOf i events) (.request request)
      (s.books.repository.answer moment request).1) := by
  obtain ⟨jobName, parameters, allowed⟩ := charted.allows launch ready
  cases request with
  | createExecution jobName parameters => exact absurd rfl (creates jobName parameters)
  | updateContext copy => exact absurd rfl (files copy)
  | lastExecution jobName parameters => exact .refl _
  | update copy =>
    obtain ⟨known, held, course, running, same, context, holding, sameHeld⟩ :=
      charted.holding allowed
    obtain ⟨id, stored, -, -, answered⟩ := (charted.sound.holds holding).1.update sameHeld moment
    rw [answered, course]
    simp only [Course.after, Option.map_some]
    refine .some ?_
    split
    · exact .withCopy running same context
    · exact .outcomeWritten running same context
  | synchronize copy =>
    obtain ⟨known, held, course, running, same, context, holding, sameHeld⟩ :=
      charted.holding allowed.1
    obtain ⟨stored, answered⟩ := (charted.sound.holds holding).1.synchronize sameHeld
    simp only [Repository.answer, answered, course]
    exact .some (.withCopy running same context)
  | _ => exact False.elim allowed

end Charted

/-- What an event changes in the courses and in what is filed. -/
inductive Change (calls : ι → Call) (events : List (Event ι)) (event : Event ι)
    (s t : System ι) : Prop
  /-- The launches have worked on, if anything. -/
  | works (quiet : ∀ target, event.claims? target = none)
      (records : ∀ id, (t.books.repository.executions.get? id).isSome =
        (s.books.repository.executions.get? id).isSome)
      (filed : ∀ id, t.books.repository.filed? id = s.books.repository.filed? id)
      (courses : ∀ i, Course.WorksOn (courseOf i events) (courseOf i (events ++ [event])))
  /-- A launch has written the context that the last run of the body has left. -/
  | files (i : ι) {known : Course} {copy : JobExecution} {id : JobExecutionId}
      (quiet : ∀ target, event.claims? target = none)
      (course : courseOf i events = some known) (ended : known.stage = .ended)
      (same : copy.SameRecord known.copy) (context : copy.context = known.copy.context)
      (numbered : copy.id = some id)
      (isOver : courseOf i (events ++ [event]) = some { known with stage := .over })
      (others : ∀ j, j ≠ i → courseOf j (events ++ [event]) = courseOf j events)
      (executions : t.books.repository.executions = s.books.repository.executions)
      (filed : ∀ key, t.books.repository.filed? key =
        if key = id then some ⟨copy.jobInstance.id, id, copy.context⟩
        else s.books.repository.filed? key)
  /-- A launch has claimed a new execution. -/
  | creates (i : ι) {moment : Timestamp} {jobName : String} {parameters : JobParameters}
      {execution : JobExecution}
      (same : event = .answered i (.request (.createExecution jobName parameters)) (.ok execution))
      (created : s.books.repository.createExecution moment jobName parameters =
        .ok (execution, t.books.repository))
      (books : t.books = s.books.after moment (.createExecution jobName parameters))
      (isFor : (calls i).IsFor execution)
      (idle : courseOf i events = none)
      (course : courseOf i (events ++ [event]) = some (.claim execution))
      (others : ∀ j, j ≠ i → courseOf j (events ++ [event]) = courseOf j events)

namespace Charted

variable {moment : Timestamp} {request : Request} {next : request.Answer → Program Call.Result}

private theorem request_of_operator (charted : Charted calls events s)
    (operator : (calls i).target? = none)
    (ready : (s.threads i).program = .act (.request request) next) :
    (∀ jobName parameters, request ≠ .createExecution jobName parameters) ∧
      ∀ copy, request ≠ .updateContext copy := by
  have allowed := charted.sound.allows ready
  cases call : calls i with
  | launch launcher settings parameters rejection => simp [call, Call.target?] at operator
  | stop id =>
    rw [call] at allowed
    exact ⟨by rintro _ _ rfl; exact allowed, by rintro _ rfl; exact allowed⟩
  | abandon id =>
    rw [call] at allowed
    exact ⟨by rintro _ _ rfl; exact allowed, by rintro _ rfl; exact allowed⟩

private theorem change_of_other (charted : Charted calls events s)
    (ready : (s.threads i).program = .act (.request request) next)
    (bound : (s.books.after moment request).created < 2 ^ 64)
    (creates : ∀ jobName parameters, request ≠ .createExecution jobName parameters)
    (files : ∀ copy, request ≠ .updateContext copy) {threads : ι → Thread} :
    Change calls events
      (.answered i (.request request) (s.books.repository.answer moment request).1) s
      ⟨s.books.after moment request, threads⟩ := by
  refine .works (fun _ => Event.claims?_of_other creates) (fun id => ?_) (fun id => ?_) fun j => ?_
  · exact Repository.isSome_get?_answer_of_other creates id
  · exact congrArg (·.get? id) (Repository.jobs_answer_of_other creates files)
  · refine worksOn_answered (.request request) ?_ j
    by_cases operator : (calls i).target? = none
    · have after := (charted.step (.request i moment ready) bound).courseOf_eq_none operator
      exact .idle (charted.courseOf_eq_none operator) (courseOf_own.symm.trans after)
    · exact charted.worksOn_of_request operator ready moment creates files

private theorem change_of_create {jobName : String} {parameters : JobParameters}
    {next : _ → Program Call.Result} (charted : Charted calls events s)
    (ready : (s.threads i).program = .act (.request (.createExecution jobName parameters)) next)
    (bound : (s.books.after moment (.createExecution jobName parameters)).created < 2 ^ 64)
    {threads : ι → Thread} :
    Change calls events (.answered i (.request (.createExecution jobName parameters))
        (s.books.repository.answer moment (.createExecution jobName parameters)).1) s
      ⟨s.books.after moment (.createExecution jobName parameters), threads⟩ := by
  have idle : courseOf i events = none := by
    by_cases operator : (calls i).target? = none
    · exact charted.courseOf_eq_none operator
    · obtain ⟨_, _, idle, -⟩ := charted.allows operator ready
      exact idle
  cases created : s.books.repository.createExecution moment jobName parameters with
  | error error =>
    have answered := Repository.answer_of_not_created created
    refine .works (fun target => ?_) (fun id => ?_) (fun id => ?_) fun j => ?_
    · rw [answered]
      rfl
    · rw [Books.repository_after, answered]
    · rw [Books.repository_after, answered]
    · refine worksOn_answered (.request (.createExecution jobName parameters)) ?_ j
      rw [answered]
      exact .refl _
  | ok result =>
    obtain ⟨execution, repository⟩ := result
    have answered := Repository.answer_of_created created
    obtain ⟨-, matching, -⟩ := charted.sound.books.pinned_of_created bound created
    refine .creates i ?_ (created.trans ?_) rfl (charted.sound.isFor_of_created ready matching)
      idle ?_ fun j other => courseOf_other other
    · rw [answered]
    · rw [Books.repository_after, answered]
    · refine courseOf_own.trans ?_
      rw [answered]
      rfl

private theorem change_of_context {copy : JobExecution} {next : _ → Program Call.Result}
    (charted : Charted calls events s)
    (ready : (s.threads i).program = .act (.request (.updateContext copy)) next)
    {threads : ι → Thread} :
    Change calls events (.answered i (.request (.updateContext copy))
        (s.books.repository.answer moment (.updateContext copy)).1) s
      ⟨s.books.after moment (.updateContext copy), threads⟩ := by
  have allowed : Course.Holds (courseOf i events) .ended copy := by
    by_cases operator : (calls i).target? = none
    · exact absurd rfl ((charted.request_of_operator operator ready).2 copy)
    · obtain ⟨jobName, parameters, allowed⟩ := charted.allows operator ready
      exact allowed
  obtain ⟨known, course, ended, same, context⟩ := allowed
  have related := charted.held i
  rw [course] at related
  obtain ⟨id, numbered⟩ := Option.ne_none_iff_exists'.1 related.1
  have copyId : copy.id = some id := same.1.trans numbered
  obtain ⟨after, answered, -, executions, filed⟩ :=
    s.books.repository.updateContext_of_numbered copyId
  have repository : (s.books.after moment (.updateContext copy)).repository = after :=
    congrArg Prod.snd answered
  refine .files i (fun _ => rfl) course ended same context copyId ?_
    (fun j other => courseOf_other other) ?_ fun key => ?_
  · refine courseOf_own.trans ?_
    rw [course]
    rfl
  · rw [repository, executions]
  · rw [repository, filed]

private theorem worksOn_of_body {execution : JobExecution} {next : _ → Program Call.Result}
    (charted : Charted calls events s)
    (ready : (s.threads i).program = .act (.invoke execution) next)
    (answer : (Action.invoke execution).Answer)
    (admitted : (Action.invoke execution).Admits answer) :
    Course.WorksOn (courseOf i events)
      (Course.after (courseOf i events) (.invoke execution) answer) := by
  obtain ⟨held, holding⟩ := charted.sound.held_of_inBody ⟨execution, next, ready⟩
  obtain ⟨_, _, ⟨known, course, running, same, context⟩, -⟩ :=
    charted.allows (charted.sound.target_of_held (by simp [holding])) ready
  obtain ⟨ending, left⟩ := answer
  rw [course]
  exact .some (.ran running (JobExecution.SameRecord.trans admitted same) context)

/-- Every event is one of the changes, unless somebody else interferes with the contexts. -/
theorem change (charted : Charted calls events s) (happens : Happens s event t)
    (bound : t.books.created < 2 ^ 64) (plain : event.Plain) : Change calls events event s t := by
  cases happens with
  | @request i moment request next ready =>
    by_cases creates : ∃ jobName parameters, request = .createExecution jobName parameters
    · obtain ⟨jobName, parameters, rfl⟩ := creates
      exact charted.change_of_create ready bound
    · by_cases files : ∃ copy, request = .updateContext copy
      · obtain ⟨copy, rfl⟩ := files
        exact charted.change_of_context ready
      · refine charted.change_of_other ready bound ?_ ?_
        · exact fun jobName parameters same => creates ⟨jobName, parameters, same⟩
        · exact fun copy same => files ⟨copy, same⟩
  | @other i action next ready answer admitted =>
    refine .works (fun target => ?_) (fun _ => rfl) (fun _ => rfl) (worksOn_answered action ?_)
    · cases action with
      | request made => exact False.elim admitted
      | _ => rfl
    cases action with
    | request made => exact False.elim admitted
    | now => exact .refl _
    | pause duration => exact .refl _
    | invoke execution => exact charted.worksOn_of_body ready answer admitted
  | client moment request honest =>
    obtain ⟨creates, files⟩ := plain request rfl
    refine .works (fun _ => rfl) (fun id => ?_) (fun id => ?_) fun j => ?_
    · exact Repository.isSome_get?_answer_of_other creates id
    · exact congrArg (·.get? id) (Repository.jobs_answer_of_other creates files)
    · rw [courseOf_append]
      exact .refl _

/-- A launch that has got a new execution has claimed its instance. -/
theorem created {jobName : String} {parameters : JobParameters} {execution : JobExecution}
    (charted : Charted calls events s)
    (happens : Happens s
      (.answered i (.request (.createExecution jobName parameters)) (.ok execution)) t)
    (bound : t.books.created < 2 ^ 64) :
    ∃ moment, s.books.repository.createExecution moment jobName parameters =
        .ok (execution, t.books.repository) ∧
      t.books = s.books.after moment (.createExecution jobName parameters) ∧
      (calls i).target? = some (jobName, parameters.identityKey) ∧ courseOf i events = none := by
  have claims : Event.claims? (jobName, parameters.identityKey)
      (.answered i (.request (.createExecution jobName parameters)) (.ok execution)) = some i :=
    if_pos rfl
  cases charted.change happens bound (fun _ same => nomatch same) with
  | works quiet => exact nomatch (quiet _).symm.trans claims
  | files _ quiet => exact nomatch (quiet _).symm.trans claims
  | creates j same created books isFor idle =>
    cases same
    obtain ⟨-, matching, -⟩ := charted.sound.books.pinned_of_created (books ▸ bound) created
    refine ⟨_, created, books, ?_, idle⟩
    rw [isFor, JobInstance.isFor_iff_target.1 matching]

end Charted

end System

end BatchRun
