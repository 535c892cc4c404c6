import BatchRun.Proofs.Interleaving.Books
import BatchRun.Proofs.Launch.Course
import BatchRun.Proofs.Operator.Course

/-! # What launches and operators keep to

A launch holds an execution from the answer to its claim up to the answer to its terminal write.
While it does, it writes and runs nothing but this execution, and apart from that it writes no
execution at all. An operator only moves up the status of copies it has read and found fit. Both
are kept as protocols, so that they can be used wherever a program is interrupted.
-/

namespace BatchRun

/-- What a caller holds and what it has read. -/
structure Standing where
  /-- The execution it has claimed, up to the write of the outcome. -/
  held : Option JobExecution
  /-- The executions it has read by number. -/
  seen : List JobExecution

namespace Standing

/-- The standing after an answer. A write from a copy that is not running is a terminal one. -/
def after (standing : Standing) : (action : Action) → action.Answer → Standing
  | .request (.createExecution ..), .ok execution => { standing with held := some execution }
  | .request (.update copy), ⟨.ok (), _⟩ =>
    if copy.isRunning then standing else { standing with held := none }
  | .request (.execution _), .ok (some execution) =>
    { standing with seen := execution :: standing.seen }
  | _, _ => standing

/-- The answers to be relied on: a new execution is numbered and starting, the execution that is
held can be written and refreshed, and a body does not replace its execution by another one. -/
def Expects (standing : Standing) : (action : Action) → action.Answer → Prop
  | .request (.createExecution ..), .ok execution =>
    execution.status = .starting ∧ execution.id ≠ none
  | .request (.update copy), written | .request (.synchronize copy), written =>
    standing.held ≠ none → written.result = .ok () ∧ written.copy.SameRecord copy
  | .invoke execution, (_, left) => left.SameRecord execution
  | _, _ => True

end Standing

/-- What a launch of this job asks for. -/
def Launch.Allows (jobName : String) (parameters : JobParameters) (standing : Standing) :
    Action → Prop
  | .request (.lastExecution ..) | .now | .pause _ => True
  | .request (.createExecution name given) =>
    standing.held = none ∧ name = jobName ∧ given = parameters
  | .request (.update copy) | .request (.synchronize copy) | .invoke copy =>
    ∃ held, standing.held = some held ∧ copy.SameRecord held
  | .request (.updateContext copy) => copy.id ≠ none
  | .request _ => False

/-- How launches of this job go. -/
def Launch.protocol (jobName : String) (parameters : JobParameters) : Protocol Standing :=
  ⟨Launch.Allows jobName parameters, Standing.Expects, Standing.after⟩

/-- What an operator asks for that moves a status up. -/
def Operator.Allows (status : BatchStatus) (Fit : JobExecution → Prop) (standing : Standing) :
    Action → Prop
  | .request (.execution _) | .request (.updateStep _) => True
  | .request (.update copy) =>
    ∃ read ∈ standing.seen, Fit read ∧ copy = read.upgradeStatus status
  | _ => False

/-- How operators go that move a status up. -/
def Operator.protocol (status : BatchStatus) (Fit : JobExecution → Prop) : Protocol Standing :=
  ⟨Operator.Allows status Fit, Standing.Expects, Standing.after⟩

/-! ## Launches -/

namespace Launch

/-- While an execution runs, a caller holds it, and what has ended is not held any more. -/
def Held (course : Option Course) (standing : Standing) : Prop :=
  match course with
  | none => standing.held = none
  | some known => known.copy.id ≠ none ∧
    (known.stage = .running → ∃ held, standing.held = some held ∧ known.copy.SameRecord held) ∧
    (known.stage ≠ .running → standing.held = none)

variable {jobName : String} {parameters : JobParameters} {course : Option Course}
  {standing : Standing} {copy : JobExecution} {seen : List JobExecution}

private theorem held_of_holds (related : Held course standing)
    (holds : Course.Holds course .running copy) :
    ∃ known held, course = some known ∧ known.stage = .running ∧ known.copy.id ≠ none ∧
      copy.SameRecord known.copy ∧ standing.held = some held ∧ known.copy.SameRecord held := by
  obtain ⟨known, rfl, running, same, -⟩ := holds
  obtain ⟨numbered, holding, -⟩ := related
  obtain ⟨held, holding, sameHeld⟩ := holding running
  exact ⟨known, held, rfl, running, numbered, same, holding, sameHeld⟩

private theorem allows_of_held {action : Action} (related : Held course standing)
    (allowed : Course.Allows jobName parameters course action) :
    Allows jobName parameters standing action := by
  have owns {copy : JobExecution} (holds : Course.Holds course .running copy) :
      ∃ held, standing.held = some held ∧ copy.SameRecord held := by
    obtain ⟨known, held, -, -, -, same, holding, sameHeld⟩ := held_of_holds related holds
    exact ⟨held, holding, same.trans sameHeld⟩
  cases action with
  | now => exact trivial
  | pause duration => exact trivial
  | invoke execution => exact owns allowed.1
  | request made =>
    cases made with
    | lastExecution jobName parameters => exact trivial
    | createExecution jobName parameters =>
      obtain ⟨rfl, sameName, sameParameters⟩ := allowed
      exact ⟨related, sameName, sameParameters⟩
    | update copy => exact owns allowed
    | synchronize copy => exact owns allowed.1
    | updateContext copy =>
      obtain ⟨known, rfl, -, same, -⟩ := allowed
      exact fun missing => related.1 (same.1.symm.trans missing)
    | _ => exact False.elim allowed

private theorem held_withCopy {known : Course} {held : JobExecution}
    (running : known.stage = .running) (numbered : known.copy.id ≠ none)
    (holding : standing.held = some held) (sameHeld : known.copy.SameRecord held)
    (same : copy.SameRecord known.copy) : Held (some (known.withCopy copy)) standing :=
  ⟨fun missing => numbered (same.1.symm.trans missing),
    fun _ => ⟨held, holding, same.trans sameHeld⟩, fun other => absurd running other⟩

private theorem held_outcomeWritten {known : Course} (numbered : known.copy.id ≠ none) :
    Held (some known.outcomeWritten) ⟨none, seen⟩ := by
  refine ⟨numbered, fun running => ?_, fun _ => rfl⟩
  unfold Course.outcomeWritten at running
  split at running <;> contradiction

private theorem held_update {answer : (Request.update copy).Answer}
    (related : Held course standing)
    (allowed : Course.Allows jobName parameters course (.request (.update copy)))
    (expected : standing.Expects (.request (.update copy)) answer) :
    Course.Expects course (.request (.update copy)) answer ∧
      Held (Course.after course (.request (.update copy)) answer)
        (standing.after (.request (.update copy)) answer) := by
  obtain ⟨known, held, rfl, running, numbered, same, holding, sameHeld⟩ :=
    held_of_holds related allowed
  obtain ⟨result, written⟩ := answer
  obtain ⟨rfl, sameWritten⟩ := expected (by rw [holding]; simp)
  have kept : Held (some (known.withCopy written)) standing :=
    held_withCopy running numbered holding sameHeld (sameWritten.trans same)
  refine ⟨⟨rfl, sameWritten⟩, ?_⟩
  by_cases isRunning : copy.isRunning = true
  · simpa only [Course.after, Standing.after, isRunning, if_true, Option.map_some] using kept
  · simp only [Course.after, Standing.after, isRunning, Option.map_some]
    exact held_outcomeWritten kept.1

/-- What a caller holds goes along with the course of its launch. -/
theorem held_after {action : Action} {answer : action.Answer}
    (related : Held course standing) (allowed : Course.Allows jobName parameters course action)
    (expected : standing.Expects action answer) :
    Course.Expects course action answer ∧
      Held (Course.after course action answer) (standing.after action answer) := by
  cases action with
  | now => exact ⟨trivial, related⟩
  | pause duration => exact ⟨trivial, related⟩
  | invoke execution =>
    obtain ⟨known, held, rfl, running, numbered, same, holding, sameHeld⟩ :=
      held_of_holds related allowed.1
    obtain ⟨ending, left⟩ := answer
    refine ⟨expected, ?_⟩
    exact held_withCopy running numbered holding sameHeld
      (JobExecution.SameRecord.trans expected same)
  | request made =>
    cases made with
    | lastExecution jobName parameters => exact ⟨trivial, related⟩
    | createExecution jobName parameters =>
      cases answer with
      | error error => exact ⟨trivial, related⟩
      | ok execution =>
        exact ⟨expected, expected.2, fun _ => ⟨execution, rfl, .refl execution⟩,
          fun other => absurd rfl other⟩
    | update copy => exact held_update related allowed expected
    | synchronize copy =>
      obtain ⟨known, held, rfl, running, numbered, same, holding, sameHeld⟩ :=
        held_of_holds related allowed.1
      have sameRefreshed := expected (by rw [holding]; simp)
      exact ⟨sameRefreshed,
        held_withCopy running numbered holding sameHeld (sameRefreshed.2.trans same)⟩
    | updateContext copy =>
      obtain ⟨known, rfl, ended, -, -⟩ := allowed
      exact ⟨trivial, related.1, nofun, fun _ => related.2.2 (by rw [ended]; nofun)⟩
    | _ => exact False.elim allowed

/-- A launch, whose run takes place unless it is rejected. -/
theorem follows_launch (launcher : Launcher) (settings : JobSettings) (parameters : JobParameters)
    (rejection : Option TaskRejected) :
    (launch settings.job parameters fun execution => match rejection with
        | some rejected => return .rejected rejected
        | none => return .ran (← launcher.run settings.job execution)).Follows
      (protocol settings.name parameters) (fun standing _ => standing.held = none)
      ⟨none, seen⟩ := by
  have related : Held none ⟨none, seen⟩ := rfl
  apply (follows_course launcher settings parameters rejection).simulate Held related
    allows_of_held held_after
  · intro course standing _ related isOver
    cases course with
    | none => exact related
    | some known => exact related.2.2 (by rw [isOver known rfl]; nofun)

end Launch

/-! ## Operators -/

namespace Operator

variable {id : JobExecutionId} {status : BatchStatus} {Fit : JobExecution → Prop}
  {standing : Standing}

private theorem follows_of_course {α : Type} {program : Program α} (hand : Option JobExecution)
    (follows : program.Follows (course status Fit) (fun _ _ => True) hand)
    (related : ∀ read, hand = some read → read ∈ standing.seen) :
    program.Follows (protocol status Fit) (fun _ _ => True) standing := by
  refine follows.simulate (fun hand standing => ∀ read, hand = some read → read ∈ standing.seen)
    related ?_ ?_ fun _ _ => trivial
  · intro hand standing action related allowed
    cases action with
    | request made =>
      cases made with
      | execution id => exact trivial
      | updateStep step => exact trivial
      | update copy =>
        obtain ⟨read, inHand, fit, same⟩ := allowed
        exact ⟨read, related read inHand, fit, same⟩
      | _ => exact False.elim allowed
    | _ => exact False.elim allowed
  · intro hand standing action answer related allowed _
    refine ⟨trivial, fun read inHand => ?_⟩
    cases action with
    | request made =>
      cases made with
      | execution id =>
        obtain error | ⟨_ | execution⟩ := answer
        · nomatch inHand
        · nomatch inHand
        · obtain rfl := Option.some.inj inHand
          exact List.mem_cons_self ..
      | updateStep step => nomatch inHand
      | update copy => nomatch inHand
      | _ => exact False.elim allowed
    | _ => exact False.elim allowed

/-- A stop reads an execution, checks that it runs, and writes it as stopping. -/
theorem follows_stop :
    (stop id : Program _).Follows (protocol .stopping fun execution => execution.isRunning = true)
      (fun _ _ => True) standing :=
  follows_of_course none course_stop (by simp)

/-- An abandonment reads an execution, checks that it has ended, and writes it as abandoned. -/
theorem follows_abandon :
    (abandon id : Program _).Follows
      (protocol .abandoned fun execution => execution.isRunning = false) (fun _ _ => True)
      standing :=
  follows_of_course none course_abandon (by simp)

end Operator

end BatchRun
