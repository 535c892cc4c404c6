import BatchRun.Proofs.Clients.Reads
import BatchRun.Proofs.Operator.Effects

/-! # Executions whose lists of steps are left alone

The list of steps in a copy is first of all what a client makes of it. If no client ever puts
anything into the lists of an execution, then before the first step is added to it, the lists of all
its copies are empty, and so is the one of its record. So the execution is shown with the steps that
are saved under it and with nothing else, and a stop of it always goes through.
-/

namespace BatchRun

/-- A record has no steps after a request if none had any before and none are given. -/
theorem Repository.Change.steps_eq_nil {repository after : Repository} {now : Timestamp}
    {request : Request} {writing? : Option Writing} {id : JobExecutionId} {later : JobExecution}
    (change : Change repository now request writing? after)
    (stored : ∀ stored, repository.executions.get? id = some stored → stored.steps = [])
    (given : ∀ given, request = .update given → given.id = some id → given.steps = [])
    (found : after.executions.get? id = some later) : later.steps = [] := by
  cases change with
  | created granted =>
    rcases ExecutionStore.get?_afterSave.1 found with ⟨rfl, rfl⟩ | ⟨-, kept, -⟩
    · rfl
    · exact stored later kept
  | @written copy record key numbered lookup =>
    rw [get?_withRecord] at found
    split at found
    · rename_i same
      obtain rfl := Option.some.inj found
      exact given copy rfl (same ▸ numbered)
    · exact stored later found
  | _ => exact stored later found

namespace Session

variable {session next : Session} {id : JobExecutionId} {now : Timestamp} {request : Request}
  {copy : JobExecution}

/-- An edit that leaves the list of steps of this execution. -/
def KeepsSteps (id : JobExecutionId) (original edited : JobExecution) : Prop :=
  original.id = some id → edited.steps = original.steps

/-- Before a step has been added to the execution, nothing is in its lists. -/
structure Unfilled (id : JobExecutionId) (session : Session) : Prop where
  sound : session.Sound
  stored {stored : JobExecution} (none : ∀ stepId, ¬ AddedTo session.added stepId id)
    (found : session.repository.executions.get? id = some stored) : stored.steps = []
  held {copy : JobExecution} (none : ∀ stepId, ¬ AddedTo session.added stepId id)
    (inHand : copy ∈ session.executions) (numbered : copy.id = some id) : copy.steps = []

namespace Unfilled

theorem start : start.Unfilled id where
  sound := .start
  stored _ found := by simp [Session.start, Repository.empty, ExecutionStore.empty,
    ExecutionStore.get?] at found
  held _ inHand := absurd inHand List.not_mem_nil

private theorem none_before
    (none : ∀ stepId, ¬ AddedTo (session.call now request).added stepId id) :
    ∀ stepId, ¬ AddedTo session.added stepId id := by
  intro stepId own
  refine none stepId ?_
  rw [added_call]
  exact own.append _

private theorem assembled (unfilled : session.Unfilled id)
    (none : ∀ stepId, ¬ AddedTo session.added stepId id) {stored : JobExecution}
    (found : session.repository.executions.get? id = some stored) :
    (session.repository.assembled stored).steps = [] := by
  have traced := unfilled.sound.traced
  change (session.repository.listedSteps stored).map _ = []
  have unsaved (stepId : StepExecutionId) : session.repository.steps.get? id stepId = .none :=
    Option.eq_none_iff_forall_ne_some.2 fun step saved =>
      none stepId (traced.addedTo_of_step saved)
  rw [Repository.listedSteps_of_unsaved (traced.consistent.executions.numbered found) unsaved,
    unfilled.stored none found]
  rfl

private theorem handed (unfilled : session.Unfilled id) (inHand : session.Holds request)
    (none : ∀ stepId, ¬ AddedTo session.added stepId id)
    (member : copy ∈ request.copies (session.repository.answer now request).1)
    (numbered : copy.id = some id) : copy.steps = [] := by
  have wellNumbered := unfilled.sound.traced.consistent.executions.toNumbered
  cases Repository.handed_of_mem wellNumbered member with
  | @read request key stored idle found =>
    obtain rfl : key = id := Option.some.inj ((wellNumbered.numbered found).symm.trans numbered)
    exact unfilled.assembled none found
  | created created =>
    obtain ⟨known, context, claimed, contexts, -, given, -⟩ :=
      Repository.createExecution_cases created
    rw [given]
    rfl
  | @written given stored key own found =>
    exact @unfilled.held given none inHand numbered
  | @refreshed given stored key own found =>
    exact @unfilled.held given none inHand numbered
  | @kept request given lastUpdated idle same missing =>
    have held : given ∈ session.executions := by
      rcases same with rfl | rfl <;> exact inHand
    exact @unfilled.held given none held numbered

theorem call (unfilled : session.Unfilled id) (inHand : session.Holds request)
    (few : (session.call now request).Few) : (session.call now request).Unfilled id where
  sound := unfilled.sound.call inHand few
  stored none found := by
    have change := Repository.change_answer session.repository now request
    refine change.steps_eq_nil (fun stored kept => unfilled.stored (none_before none) kept) ?_ found
    rintro given rfl numbered
    exact unfilled.held (none_before none) inHand numbered
  held none member numbered := by
    rcases List.mem_append.1 member with before | new
    · exact unfilled.held (none_before none) before numbered
    · exact unfilled.handed inHand (none_before none) new numbered

/-- Clients that keep the list of an execution leave it as it is, until a step has been added. -/
theorem step (unfilled : session.Unfilled id) (step : Step (KeepsSteps id) session next)
    (few : next.Few) : next.Unfilled id := by
  have sound := unfilled.sound.step step few
  cases step with
  | call now inHand => exact unfilled.call inHand few
  | draft now known parameters =>
    refine ⟨sound, unfilled.stored, fun none member numbered => ?_⟩
    rcases List.mem_append.1 member with before | drafted
    · exact unfilled.held none before numbered
    · rw [List.mem_singleton.1 drafted]
      rfl
  | @edit edited original inHand same steps keeps =>
    refine ⟨sound, unfilled.stored, fun none member numbered => ?_⟩
    rcases List.mem_append.1 member with before | changed
    · exact unfilled.held none before numbered
    · rw [List.mem_singleton.1 changed] at numbered ⊢
      rw [keeps (same.id ▸ numbered)]
      exact unfilled.held none inHand (same.id ▸ numbered)
  | startStep now inHand started => exact ⟨sound, unfilled.stored, unfilled.held⟩
  | editStep inHand same => exact ⟨sound, unfilled.stored, unfilled.held⟩

end Unfilled

/-- If clients leave the lists of an execution alone, it is shown with the steps that are saved
under it and with nothing else. -/
theorem Reaches.unlisted (reaches : Reaches (KeepsSteps id) .start session) (few : session.Few)
    {stored : JobExecution} (found : session.repository.executions.get? id = some stored) :
    session.repository.Unlisted id stored := by
  have unfilled : session.Unfilled id :=
    reaches.invariant few .start fun step few unfilled => unfilled.step step few
  intro unsaved
  refine unfilled.stored (fun stepId own => ?_) found
  obtain ⟨step, present⟩ := (reaches.faithful few).lasting.steps found own
  rw [unsaved stepId] at present
  contradiction

end Session

namespace Operator

open Repository (ReadsAs)
open Session (Reaches KeepsSteps)

variable {session : Session} {id : JobExecutionId} {world : World} {stored : JobExecution}

/-- If clients have left the lists of a running execution alone, it can be stopped. Then it is asked
to stop and its steps are asked to end that run and have not been asked before, each with the next
version; everything else is read as before. A second stop changes no step. -/
theorem stop_asks_execution_and_steps (reaches : Reaches (KeepsSteps id) .start session)
    (few : session.Few) (same : world.repository = session.repository)
    (found : world.repository.executions.get? id = some stored) (running : stored.isRunning = true)
    (behaviour : Behaviour) :
    ∃ now stamp written after,
      (stop id : Program _).run behaviour world = (.ok written, after) ∧
      ReadsAs (JobExecution.asked id now stamp) (StepExecution.asked id stamp) world.repository
        after.repository ∧
      (∃ later, after.repository.executions.get? id = some later ∧ later.status = .stopping ∧
        later.version = stored.version + 1) ∧
      (∀ stepId step, world.repository.steps.get? id stepId = some step →
        ∃ later, after.repository.steps.get? id stepId = some later ∧
          (step.status.isRunning = true → later.terminateOnly = true) ∧
          later.version = if step.isDue = true then step.version + 1 else step.version) ∧
      ∃ again final, (stop id : Program _).run behaviour after = (.ok again, final) ∧
        final.repository.steps = after.repository.steps := by
  have sound := reaches.sound few
  have wellNumbered := sound.traced.consistent.executions.toNumbered
  have unlisted := reaches.unlisted few (same ▸ found)
  rw [← same] at wellNumbered unlisted
  have placed : world.repository.steps.Placed := by
    rw [same]
    exact sound.traced.steps.numbered
  obtain ⟨now, after, ran, stopped⟩ :=
    run_stop_of_unlisted behaviour wellNumbered placed found running unlisted
  obtain ⟨stamp, steps, readsAs⟩ := stopped.readsAs
  refine ⟨now, stamp, _, after, ran, readsAs, ⟨_, stopped.found_after, ?_, rfl⟩, ?_,
    run_stop_of_stopped behaviour stopped⟩
  · rw [Repository.movedUp_stopping running]
  · intro stepId step present
    obtain ⟨-, owner⟩ := placed present
    rw [steps, StepStore.get?_mapped, present]
    refine ⟨_, rfl, fun runs => ?_, ?_⟩
    · unfold Repository.askedRecord
      split
      · rfl
      · rename_i settled
        simpa [owner, StepExecution.isDue, runs] using settled
    · unfold Repository.askedRecord
      simp only [owner, true_and]
      split <;> rfl

/-- The first execution runs with one step that has been saved. -/
theorem stop_asks_execution_and_steps_firstStep :
    ∃ session stored now stamp written after,
      Reaches (KeepsSteps ⟨1⟩) .start session ∧ session.Few ∧
      session.repository.executions.get? ⟨1⟩ = some stored ∧ stored.isRunning = true ∧
      (stop ⟨1⟩ : Program _).run .idle ⟨session.repository, fun _ => ⟨1, 0⟩, 0, []⟩ =
        (.ok written, after) ∧
      ReadsAs (JobExecution.asked ⟨1⟩ now stamp) (StepExecution.asked ⟨1⟩ stamp) session.repository
        after.repository ∧
      ∃ step later, session.repository.steps.get? ⟨1⟩ ⟨1⟩ = some step ∧ step.isDue = true ∧
        after.repository.steps.get? ⟨1⟩ ⟨1⟩ = some later ∧ later.terminateOnly = true := by
  let session := (Session.opened.holdStep Session.firstStep).call ⟨0, 0⟩
    (.addStep Session.firstStep)
  let world : World := ⟨session.repository, fun _ => ⟨1, 0⟩, 0, []⟩
  have few : session.Few := (by decide : 2 < 2 ^ 64)
  obtain ⟨now, stamp, written, after, ran, readsAs, -, steps, -⟩ :=
    @stop_asks_execution_and_steps session ⟨1⟩ world _ Session.reaches_firstStep few rfl rfl rfl
      .idle
  obtain ⟨later, there, asked, -⟩ := steps ⟨1⟩ _ rfl
  exact ⟨session, _, now, stamp, written, after, Session.reaches_firstStep, few, rfl, rfl, ran,
    readsAs, _, later, rfl, rfl, there, asked rfl⟩

end Operator

end BatchRun
