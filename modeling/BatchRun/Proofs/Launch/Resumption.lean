import BatchRun.Proofs.Launch.Course
import BatchRun.Proofs.Repository.Resumable
import BatchRun.Proofs.Sequential
import Mathlib.Data.List.Induction
import Mathlib.Data.List.Infix
import Mathlib.Logic.Relation

/-! # Launches one after the other

A series of launches over one repository, each of them over before the next one begins. The body of
a launch starts with the context that the body has left in the launches of the instance before,
whatever has been refused or rejected, and whatever has become of other instances, in between. While
it runs the body may use the repository, for its own execution and for others, but it must not write
the context of another execution: the instance of that one resumes with what has been written then.
-/

namespace BatchRun

/-- A launch in the thread of its caller, with what its body does. A rejection means that the
executor does not take the run. -/
structure SyncLaunch where
  launcher : Launcher
  settings : JobSettings
  parameters : JobParameters
  rejection : Option TaskRejected
  behaviour : Behaviour

namespace SyncLaunch

def program (launch : SyncLaunch) : Program LaunchOutcome :=
  Launch.launch launch.settings.job launch.parameters fun execution => match launch.rejection with
    | some rejected => return .rejected rejected
    | none => return .ran (← launch.launcher.run launch.settings.job execution)

/-- The job name and identity key of its instance. -/
def target (launch : SyncLaunch) : String × String :=
  (launch.settings.name, launch.parameters.identityKey)

/-- The world after a launch. -/
def after (launch : SyncLaunch) (world : World) : World :=
  (launch.program.run launch.behaviour world).2

/-- The runs of its body, the first one first. -/
def bodyRuns (launch : SyncLaunch) (world : World) : List BodyRun :=
  launch.program.bodyRuns launch.behaviour world

/-- The world after these launches. -/
def afterAll (launches : List SyncLaunch) (world : World) : World :=
  launches.foldl (fun world launch => launch.after world) world

variable {launch : SyncLaunch} {launches : List SyncLaunch} {world : World}
  {target : String × String}

/-- One launch after others. -/
theorem afterAll_append : afterAll (launches ++ [launch]) world =
    launch.after (afterAll launches world) := by
  simp [afterAll]

end SyncLaunch

/-! ## Considerate bodies -/

/-- What a body that works on an execution may request: a copy that is written belongs to its
record and does not end the own execution, and the only context that is written is the own one. New
executions are requested only as long as there are numbers for them. -/
def Request.IsConsiderate (own : JobExecution) (repository : Repository) : Request → Prop
  | createExecution .. => repository.HasNumber
  | update copy => repository.Genuine copy ∧ (copy.id = own.id → copy.isRunning = true)
  | updateContext copy => copy.SameRecord own
  | _ => True

/-- A body with such requests has turned one repository into another one. -/
def Repository.Visited (own : JobExecution) : Repository → Repository → Prop :=
  Relation.ReflTransGen fun before after => ∃ now request,
    Request.IsConsiderate own before request ∧ after = (before.answer now request).2

/-- A body that neither ends its execution nor replaces it by another one, and that spares the
contexts of all others. -/
def Behaviour.Considerate (behaviour : Behaviour) : Prop :=
  ∀ count execution repository, repository.Consistent → repository.Runs execution →
    execution.isRunning = true →
      (behaviour count execution repository).1.2.SameRecord execution ∧
      (behaviour count execution repository).1.2.isRunning = true ∧
      repository.Visited execution (behaviour count execution repository).2

variable {left : String × String → SortedMap String Json} {target : String × String}
  {repository after : Repository} {own copy execution : JobExecution} {behaviour : Behaviour}
  {world : World} {known : Course} {jobName : String} {parameters : JobParameters}

private theorem resumable_of_considerate {entries : SortedMap String Json} {now : Timestamp}
    {request : Request} (considerate : request.IsConsiderate own repository)
    (belongs : own.jobInstance.target = target)
    (resumable : repository.Resumable (Function.update left target entries))
    (runs : repository.Runs own) :
    (repository.answer now request).2.Runs own ∧ ∃ entries,
      (repository.answer now request).2.Resumable (Function.update left target entries) := by
  cases request with
  | createExecution jobName parameters =>
    exact ⟨resumable.runs_answer_create considerate runs, entries,
      resumable.answer_create considerate⟩
  | updateContext copy =>
    obtain ⟨id, stored, numbered, found, same, running⟩ := runs
    have written := resumable.answer_updateContext now found (considerate.trans same)
    rw [← same.2, belongs, Function.update_idem] at written
    exact ⟨Repository.Runs.answer ⟨id, stored, numbered, found, same, running⟩ (by simp) (by simp),
      _, written⟩
  | update copy =>
    obtain ⟨genuine, going⟩ := considerate
    refine ⟨runs.answer (by simp) ?_, entries,
      resumable.answer_of_other now (by simp) (by simp) ?_⟩
    · rintro _ ⟨⟩
      exact ⟨genuine, going⟩
    · rintro _ ⟨⟩
      exact genuine
  | _ =>
    exact ⟨runs.answer (by simp) (by simp), entries,
      resumable.answer_of_other now (by simp) (by simp) (by simp)⟩

/-- A considerate body leaves entries to its own instance at most. -/
theorem Repository.Visited.kept {entries : SortedMap String Json}
    (visited : repository.Visited own after) (belongs : own.jobInstance.target = target)
    (resumable : repository.Resumable (Function.update left target entries))
    (runs : repository.Runs own) :
    after.Runs own ∧ ∃ entries, after.Resumable (Function.update left target entries) := by
  induction visited with
  | refl => exact ⟨runs, entries, resumable⟩
  | tail _ step ih =>
    obtain ⟨now, request, considerate, rfl⟩ := step
    obtain ⟨runs, entries, resumable⟩ := ih
    exact resumable_of_considerate considerate belongs resumable runs

/-! ## One launch -/

/-- How a launch stands that has claimed an execution, when these entries had been left to its
instance before. -/
structure Carried (left : String × String → SortedMap String Json) (target : String × String)
    (known : Course) (repository : Repository) : Prop where
  orderly : known.Orderly
  start : known.claimed.context.entries = left target
  belongs : known.claimed.jobInstance.target = target
  stored : ∃ id stored, repository.executions.get? id = some stored ∧
    known.claimed.SameRecord stored
  running : known.stage = .running →
    repository.Runs known.claimed ∧ known.copy.isRunning = true
  /-- Up to the last write of the context the body may have left anything. -/
  resumable : ∃ entries, repository.Resumable (Function.update left target entries) ∧
    (known.stage = .over ∨ known.bodyRuns = [] → entries = known.context.entries)

namespace Carried

/-- A launch begins with the entries that have been left to its instance. -/
theorem claim {now : Timestamp} (resumable : repository.Resumable left)
    (number : repository.HasNumber)
    (created : repository.createExecution now jobName parameters = .ok (execution, after)) :
    Carried left (jobName, parameters.identityKey) (.claim execution) after := by
  obtain ⟨-, stored, found, given, -, isFor, -, starting, -⟩ :=
    Repository.record_of_created created
  have entries := resumable.entries_of_created number created
  constructor
  case orderly => exact .claim execution
  case start => exact entries
  case belongs =>
    change execution.jobInstance.target = _
    rw [given]
    exact JobInstance.isFor_iff_target.1 isFor
  case stored => exact ⟨_, stored, found, given ▸ ⟨rfl, rfl⟩⟩
  case running =>
    intro _
    refine ⟨Repository.Resumable.runs_of_created created, ?_⟩
    change execution.isRunning = true
    rw [given, JobExecution.isRunning, starting]
    rfl
  case resumable =>
    refine ⟨left (jobName, parameters.identityKey), ?_, fun _ => entries.symm⟩
    rw [Function.update_eq_self]
    exact resumable.created number created

variable (carried : Carried left target known repository)

include carried

-- What belongs together goes on to do so, with what is stored after the next answer.
private theorem next {later : Course} (keeps : known.Keeps later)
    (stored : ∃ id stored, after.executions.get? id = some stored ∧
      known.claimed.SameRecord stored)
    (running : later.stage = .running →
      after.Runs known.claimed ∧ later.copy.isRunning = true)
    (resumable : ∃ entries, after.Resumable (Function.update left target entries) ∧
      (later.stage = .over ∨ later.bodyRuns = [] → entries = later.context.entries)) :
    Carried left target later after := by
  obtain ⟨claimed, orderly⟩ := keeps
  refine ⟨orderly carried.orderly, ?_, ?_, ?_, ?_, resumable⟩
  · rw [claimed]
    exact carried.start
  · rw [claimed]
    exact carried.belongs
  · rw [claimed]
    exact stored
  · rw [claimed]
    exact running

private theorem update (holds : Course.Holds (some known) .running copy) (now : Timestamp) :
    ∃ written, (repository.answer now (.update copy)).1 = ⟨.ok (), written⟩ ∧
      written.SameRecord copy ∧
      Carried left target
        (if copy.isRunning then known.withCopy written
          else (known.withCopy written).outcomeWritten)
        (repository.answer now (.update copy)).2 := by
  obtain ⟨_, ⟨⟩, stage, same, context⟩ := holds
  have ofClaimed := same.trans carried.orderly.sameRecord
  obtain ⟨runs, -⟩ := carried.running stage
  have genuine : repository.Genuine copy := (runs.congr ofClaimed).genuine
  obtain ⟨entries, resumable, settled⟩ := carried.resumable
  have kept : Repository.Resumable _ (repository.answer now (.update copy)).2 :=
    resumable.answer_of_other now (by simp) (by simp) (by rintro _ ⟨⟩; exact genuine)
  obtain ⟨id, stored, running, answered, lookup⟩ := runs.update ofClaimed now
  have record : known.claimed.SameRecord (Repository.written now copy stored) :=
    ⟨ofClaimed.1.symm, ofClaimed.2.symm⟩
  refine ⟨_, answered, ⟨rfl, rfl⟩, ?_⟩
  split
  · rename_i going
    have works : known.Works (known.withCopy (Repository.written now copy stored)) :=
      .withCopy stage same context
    refine carried.next works.toKeeps ⟨id, _, lookup, record⟩ (fun _ => ⟨?_, ?_⟩)
      ⟨entries, kept, settled⟩
    · exact runs.answer (by simp) (by rintro _ ⟨⟩; exact ⟨genuine, fun _ => going⟩)
    · exact JobExecution.isRunning_refreshedFrom going running
  · have works : known.Works (known.withCopy (Repository.written now copy stored)).outcomeWritten :=
      .outcomeWritten stage same context
    -- Without a run of the body this is the end, and the entries to start with are still there.
    cases runs : known.bodyRuns with
    | nil =>
      refine carried.next works.toKeeps ⟨id, _, lookup, record⟩ (fun still => ?_)
        ⟨entries, kept, fun _ => settled (.inr runs)⟩
      simp [Course.outcomeWritten, Course.withCopy, runs] at still
    | cons first rest =>
      refine carried.next works.toKeeps ⟨id, _, lookup, record⟩ (fun still => ?_)
        ⟨entries, kept, fun isOver => ?_⟩
      · simp [Course.outcomeWritten, Course.withCopy, runs] at still
      · simp [Course.outcomeWritten, Course.withCopy, runs] at isOver

private theorem synchronize (carries : Course.Carries (some known) copy) :
    ∃ refreshed, repository.synchronize copy = ⟨.ok (), refreshed⟩ ∧ refreshed.SameRecord copy ∧
      Carried left target (known.withCopy refreshed) repository := by
  obtain ⟨⟨_, ⟨⟩, stage, same, context⟩, status⟩ := carries
  obtain ⟨runs, going⟩ := carried.running stage
  obtain ⟨stored, running, answered⟩ := runs.synchronize (same.trans carried.orderly.sameRecord)
  have works : known.Works (known.withCopy (copy.refreshedFrom stored)) :=
    .withCopy stage same context
  refine ⟨_, answered, ⟨rfl, rfl⟩, carried.next works.toKeeps carried.stored (fun _ => ⟨runs, ?_⟩)
    carried.resumable⟩
  refine JobExecution.isRunning_refreshedFrom ?_ running
  rw [JobExecution.isRunning, status known rfl]
  exact going

private theorem updateContext (holds : Course.Holds (some known) .ended copy) (now : Timestamp) :
    Carried left target { known with stage := .over }
      (repository.answer now (.updateContext copy)).2 := by
  obtain ⟨_, ⟨⟩, stage, same, context⟩ := holds
  have ofClaimed := same.trans carried.orderly.sameRecord
  obtain ⟨id, stored, found, record⟩ := carried.stored
  obtain ⟨entries, resumable, -⟩ := carried.resumable
  have written := resumable.answer_updateContext now found (ofClaimed.trans record)
  rw [← record.2, carried.belongs, Function.update_idem] at written
  have numbered : copy.id = some id :=
    ofClaimed.1.trans (record.1.trans (resumable.consistent.executions.numbered found))
  obtain ⟨after, answered, -, executions, -⟩ := repository.updateContext_of_numbered numbered
  have afterwards : (repository.answer now (.updateContext copy)).2 = after :=
    congrArg Prod.snd answered
  refine carried.next (.over known) ⟨id, stored, ?_, record⟩ (fun still => by simp at still)
    ⟨_, written, fun _ => ?_⟩
  · rw [afterwards, executions]
    exact found
  · rw [context, carried.orderly.context]
    rfl

-- The body may leave anything to the instance of its execution, and nothing to others.
private theorem body (considerate : behaviour.Considerate)
    (carries : Course.Carries (some known) execution) (count : Nat) :
    (behaviour count execution repository).1.2.SameRecord execution ∧
      Carried left target (known.ran execution (behaviour count execution repository).1.2)
        (behaviour count execution repository).2 := by
  obtain ⟨⟨_, ⟨⟩, stage, same, context⟩, status⟩ := carries
  obtain ⟨runs, going⟩ := carried.running stage
  obtain ⟨entries, resumable, -⟩ := carried.resumable
  have ofClaimed := same.trans carried.orderly.sameRecord
  have isRunning : execution.isRunning = true := by
    rw [JobExecution.isRunning, status known rfl]
    exact going
  obtain ⟨sameLeft, leftRunning, visited⟩ :=
    considerate count execution repository resumable.consistent (runs.congr ofClaimed) isRunning
  obtain ⟨runsAfter, later⟩ := visited.kept ((congrArg JobInstance.target ofClaimed.2).trans
    carried.belongs) resumable (runs.congr ofClaimed)
  obtain ⟨laterEntries, resumable⟩ := later
  have claimedRuns := runsAfter.congr ⟨ofClaimed.1.symm, ofClaimed.2.symm⟩
  have works := Course.Works.ran stage (sameLeft.trans same) context
  obtain ⟨id, stored, -, found, record, -⟩ := claimedRuns
  refine ⟨sameLeft, carried.next works.toKeeps ⟨id, stored, found, record⟩ (fun _ => ?_)
    ⟨laterEntries, resumable, fun ends => ?_⟩⟩
  · exact ⟨runsAfter.congr ⟨ofClaimed.1.symm, ofClaimed.2.symm⟩, leftRunning⟩
  · simp [Course.ran, stage] at ends

end Carried

/-- How a launch stands that has run the body so often. -/
inductive Stands (left : String × String → SortedMap String Json) (target : String × String) :
    Option Course → World → List BodyRun → Prop
  | idle {world : World} (resumable : world.repository.Resumable left)
      (number : world.repository.HasNumber) : Stands left target none world []
  | claimed {world : World} {known : Course}
      (carried : Carried left target known world.repository) :
      Stands left target (some known) world known.bodyRuns

namespace Stands

variable {course : Option Course} {runs : List BodyRun} {action : Action}

private theorem unchanged (stands : Stands left target course world runs) {later : World}
    (same : later.repository = world.repository) :
    Stands left target course later (runs ++ []) := by
  rw [List.append_nil]
  cases stands with
  | idle resumable number => exact .idle (same ▸ resumable) (same ▸ number)
  | claimed carried => exact .claimed (same ▸ carried)

private theorem answer (considerate : behaviour.Considerate)
    (stands : Stands left (jobName, parameters.identityKey) course world runs)
    (allowed : Course.Allows jobName parameters course action) :
    Course.Expects course action (world.answer behaviour action).1 ∧
      Stands left (jobName, parameters.identityKey)
        (Course.after course action (world.answer behaviour action).1)
        (world.answer behaviour action).2
        (runs ++ action.bodyRuns (world.answer behaviour action).1) := by
  cases action with
  | now => exact ⟨trivial, stands.unchanged rfl⟩
  | pause duration => exact ⟨trivial, stands.unchanged rfl⟩
  | invoke execution =>
    cases stands with
    | idle => exact absurd allowed.1 Course.not_holds_none
    | claimed carried =>
      obtain ⟨same, carried⟩ := carried.body considerate allowed world.invoked.length
      exact ⟨same, .claimed carried⟩
  | request request =>
    cases request with
    | lastExecution jobName parameters => exact ⟨trivial, stands.unchanged rfl⟩
    | createExecution name given =>
      obtain ⟨rfl, rfl, rfl⟩ := allowed
      cases stands with
      | idle resumable number =>
        cases created : world.repository.createExecution world.moment name given with
        | error error =>
          have answered := Repository.answer_of_not_created created
          simp only [World.answer, answered]
          exact ⟨trivial, .idle resumable number⟩
        | ok result =>
          obtain ⟨execution, after⟩ := result
          have answered := Repository.answer_of_created created
          simp only [World.answer, answered]
          obtain ⟨-, stored, -, rfl, numbered, -, -, starting, -⟩ :=
            Repository.record_of_created created
          exact ⟨⟨starting, by simp [numbered]⟩, .claimed (.claim resumable number created)⟩
    | update copy =>
      cases stands with
      | idle => exact absurd allowed Course.not_holds_none
      | claimed carried =>
        obtain ⟨written, answered, same, carried⟩ := carried.update allowed world.moment
        simp only [World.answer, answered]
        refine ⟨⟨rfl, same⟩, ?_⟩
        simp only [Course.after, Option.map_some, Action.bodyRuns, List.append_nil]
        split at carried
        · rename_i running
          rw [if_pos running]
          exact .claimed carried
        · rename_i ended
          rw [if_neg ended]
          exact .claimed carried
    | synchronize copy =>
      cases stands with
      | idle => exact absurd allowed.1 Course.not_holds_none
      | claimed carried =>
        obtain ⟨refreshed, answered, same, carried⟩ := carried.synchronize allowed
        simp only [World.answer, Repository.answer, answered, Action.bodyRuns, List.append_nil]
        exact ⟨⟨rfl, same⟩, .claimed carried⟩
    | updateContext copy =>
      cases stands with
      | idle => exact absurd allowed Course.not_holds_none
      | claimed carried =>
        have written := carried.updateContext allowed world.moment
        simp only [Action.bodyRuns, List.append_nil]
        exact ⟨trivial, .claimed written⟩
    | _ => exact False.elim allowed

end Stands

/-! ## Many launches -/

namespace SyncLaunch

variable {launch : SyncLaunch} {launches : List SyncLaunch}

end SyncLaunch

end BatchRun
