import BatchRun.Proofs.Clients.Stores
import BatchRun.Proofs.Repository.Bare

/-! # Notes do not matter

A parameter that does not identify an instance is a note. Two clients do the same, each with a
repository of its own, but they may give different notes, and their clocks may differ in what is
not seen of moments. What goes with a request is made of earlier answers, in the same way by both.

Clocks have a say in one answer: of the steps of a name, the one started last is handed out, and
what is handed out may be written back. As long as these steps come in the same order by start
whenever they are asked for, the two repositories are always the same when bare, and so is all that
has been handed out.
-/

namespace BatchRun

open View (see)

section

variable [View]

namespace Request

variable {repository : Repository} {request other : Request} {answer : request.Answer}
  {otherAnswer : other.Answer}

/-- A request with an answer to it, both bare. -/
def bareResult (request : Request) (answer : request.Answer) : (made : Request) × made.Answer :=
  ⟨request.bare, request.bareAnswer answer⟩

private theorem bareResult_eq (wellFormed : repository.executions.WellFormed) (now : Timestamp)
    (untold : ¬ request.TellsByMoments) :
    request.bareResult (repository.answer now request).1 =
      ⟨request.bare, (repository.bare.answer (see now) request.bare).1⟩ := by
  rw [Repository.answer_bare wellFormed now untold]
  rfl

private theorem copies_bare : request.bare.copies (request.bareAnswer answer) =
    (request.copies answer).map JobExecution.bare := by
  cases request with
  | lastExecution | execution =>
    rcases answer with error | read?
    · rfl
    · cases read? <;> rfl
  | executionsOf | runningExecutions | createExecution => cases answer <;> rfl
  | _ => rfl

private theorem ownSteps_bare : request.bare.ownSteps (request.bareAnswer answer) =
    (request.ownSteps answer).map StepExecution.bare := by
  cases request with
  | lastStep | step => cases answer <;> rfl
  | _ => rfl

private theorem stepCopies_bare : request.bare.stepCopies (request.bareAnswer answer) =
    (request.stepCopies answer).map StepExecution.bare := by
  unfold stepCopies
  rw [copies_bare, ownSteps_bare, List.map_append, List.flatMap_map, List.map_flatMap]
  rfl

/-- Two answers are the same when bare, and so are the copies that they hand out, one by one. -/
structure SameResult (request other : Request) (answer : request.Answer)
    (otherAnswer : other.Answer) : Prop where
  result : request.bareResult answer = other.bareResult otherAnswer
  copies : (request.copies answer).map JobExecution.bare =
    (other.copies otherAnswer).map JobExecution.bare
  steps : (request.stepCopies answer).map StepExecution.bare =
    (other.stepCopies otherAnswer).map StepExecution.bare

private theorem SameResult.of_eq (same : request.bareResult answer = other.bareResult otherAnswer) :
    SameResult request other answer otherAnswer where
  result := same
  copies := by
    rw [← copies_bare, ← copies_bare]
    exact congrArg (fun made : (made : Request) × made.Answer => made.1.copies made.2) same
  steps := by
    rw [← stepCopies_bare, ← stepCopies_bare]
    exact congrArg (fun made : (made : Request) × made.Answer => made.1.stepCopies made.2) same

private theorem tellsByMoments_bare : request.bare.TellsByMoments ↔ request.TellsByMoments := by
  cases request <;> rfl

/-- A question for the last step has nothing that is left out. -/
theorem eq_lastStep_of_bare {known : JobInstance} {stepName : String}
    (same : request.bare = .lastStep known stepName) : request = .lastStep known stepName := by
  have told : request.bare.TellsByMoments := by
    rw [same]
    trivial
  obtain ⟨_, _, rfl⟩ := tellsByMoments_iff.1 (tellsByMoments_bare.1 told)
  exact same

end Request

namespace Session

variable {session twin : Session}

/-- What is in hand in two sessions is the same when bare, copy by copy. -/
structure Alike (session twin : Session) : Prop where
  executions : session.executions.map JobExecution.bare = twin.executions.map JobExecution.bare
  steps : session.steps.map StepExecution.bare = twin.steps.map StepExecution.bare

/-- Two ways of making something of what is in hand differ by nothing but notes and what is not seen
of moments: they make the same when bare, in any two sessions in which the same is in hand. -/
def SameWay {α β : Type} (bare : α → β) (make other : Session → α) : Prop :=
  ∀ {session twin : Session}, session.Alike twin → bare (make session) = bare (other twin)

/-- If a request asks for the last step of a name, the steps of the name come in the same order by
start in both repositories. -/
def SameOrderFor (session twin : Session) (request : Request) : Prop :=
  ∀ known stepName, request = .lastStep known stepName →
    StepStore.SameOrder session.repository.steps twin.repository.steps known.id stepName

/-- Two sessions in which the same is done at every step, but for notes and for what is not seen of
moments. Requests, and the copies that are put in hand, are made the same way in both of them of
what is in hand there. `Agrees` is to hold whenever a request is made. -/
inductive Lockstep (Agrees : Session → Session → Request → Prop) : Session → Session → Prop
  | start : Lockstep Agrees .start .start
  | call {session twin : Session} {now moment : Timestamp} {ask other : Session → Request}
      (lockstep : Lockstep Agrees session twin) (time : see now = see moment)
      (way : SameWay Request.bare ask other)
      (inHand : session.Holds (ask session)) (otherInHand : twin.Holds (other twin))
      (agrees : Agrees session twin (ask session)) :
      Lockstep Agrees (session.call now (ask session)) (twin.call moment (other twin))
  | hold {session twin : Session} {make other : Session → JobExecution}
      (lockstep : Lockstep Agrees session twin) (way : SameWay JobExecution.bare make other)
      (made : Step AnyEdit session (session.hold (make session)))
      (otherMade : Step AnyEdit twin (twin.hold (other twin))) :
      Lockstep Agrees (session.hold (make session)) (twin.hold (other twin))
  | holdStep {session twin : Session} {make other : Session → StepExecution}
      (lockstep : Lockstep Agrees session twin) (way : SameWay StepExecution.bare make other)
      (made : Step AnyEdit session (session.holdStep (make session)))
      (otherMade : Step AnyEdit twin (twin.holdStep (other twin))) :
      Lockstep Agrees (session.holdStep (make session)) (twin.holdStep (other twin))

omit [View] in
/-- Requests other than those for a last step do not depend on any order. -/
theorem sameOrderFor_of_untold {request : Request} (untold : ¬ request.TellsByMoments) :
    session.SameOrderFor twin request :=
  fun known stepName asked => absurd (Request.tellsByMoments_iff.2 ⟨known, stepName, asked⟩) untold

namespace Lockstep

variable {Agrees : Session → Session → Request → Prop}

theorem reaches (lockstep : Lockstep Agrees session twin) :
    Reaches AnyEdit .start session ∧ Reaches AnyEdit .start twin := by
  induction lockstep with
  | start => exact ⟨.refl, .refl⟩
  | call _ _ _ inHand otherInHand _ ih => exact ⟨ih.1.call _ _ inHand, ih.2.call _ _ otherInHand⟩
  | hold _ _ made otherMade ih | holdStep _ _ made otherMade ih =>
    exact ⟨ih.1.tail made, ih.2.tail otherMade⟩

/-- Requests may be fixed beforehand. -/
theorem ask (lockstep : Lockstep Agrees session twin) (now moment : Timestamp)
    (request other : Request) (time : see now = see moment) (same : request.bare = other.bare)
    (inHand : session.Holds request) (otherInHand : twin.Holds other)
    (agrees : Agrees session twin request) :
    Lockstep Agrees (session.call now request) (twin.call moment other) :=
  have way : SameWay Request.bare (fun _ => request) fun _ => other := fun _ => same
  .call lockstep time way inHand otherInHand agrees

/-- So may copies of executions. -/
theorem give (lockstep : Lockstep Agrees session twin) (copy other : JobExecution)
    (same : copy.bare = other.bare) (made : Step AnyEdit session (session.hold copy))
    (otherMade : Step AnyEdit twin (twin.hold other)) :
    Lockstep Agrees (session.hold copy) (twin.hold other) :=
  have way : SameWay JobExecution.bare (fun _ => copy) fun _ => other := fun _ => same
  .hold lockstep way made otherMade

/-- So may copies of steps. -/
theorem giveStep (lockstep : Lockstep Agrees session twin) (step other : StepExecution)
    (same : step.bare = other.bare) (made : Step AnyEdit session (session.holdStep step))
    (otherMade : Step AnyEdit twin (twin.holdStep other)) :
    Lockstep Agrees (session.holdStep step) (twin.holdStep other) :=
  have way : SameWay StepExecution.bare (fun _ => step) fun _ => other := fun _ => same
  .holdStep lockstep way made otherMade

end Lockstep

/-- Two sound sessions with the same bare books and the same in hand. -/
structure Twins (session twin : Session) : Prop where
  sound : session.Sound
  twinSound : twin.Sound
  books : session.repository.bare = twin.repository.bare
  alike : session.Alike twin

namespace Twins

variable {request other : Request} {now moment : Timestamp}

theorem sameSteps (twins : session.Twins twin) :
    session.repository.steps.bare = twin.repository.steps.bare :=
  congrArg Repository.steps twins.books

private theorem sameBooks (twins : session.Twins twin) (time : see now = see moment)
    (same : request.bare = other.bare) :
    (session.repository.answer now request).2.bare =
      (twin.repository.answer moment other).2.bare := by
  rw [Repository.answer_snd_bare twins.sound.traced.consistent.executions,
    Repository.answer_snd_bare twins.twinSound.traced.consistent.executions, twins.books, time,
    same]

/-- Twins get the same answers. -/
theorem sameResult (twins : session.Twins twin) (time : see now = see moment)
    (same : request.bare = other.bare) (order : session.SameOrderFor twin request) :
    Request.SameResult request other (session.repository.answer now request).1
      (twin.repository.answer moment other).1 := by
  refine .of_eq ?_
  by_cases told : request.TellsByMoments
  · obtain ⟨known, stepName, rfl⟩ := Request.tellsByMoments_iff.1 told
    obtain rfl := Request.eq_lastStep_of_bare same.symm
    have last := Repository.lastStep_of_sameOrder twins.books (order known stepName rfl)
    exact congrArg (Sigma.mk (Request.lastStep known stepName)) last
  · have otherUntold : ¬ other.TellsByMoments := by
      rwa [← Request.tellsByMoments_bare, ← same, Request.tellsByMoments_bare]
    rw [Request.bareResult_eq twins.sound.traced.consistent.executions now told,
      Request.bareResult_eq twins.twinSound.traced.consistent.executions moment otherUntold,
      twins.books, time, same]

/-- The answers put the same in hand. -/
theorem alike_call (twins : session.Twins twin) (time : see now = see moment)
    (same : request.bare = other.bare) (order : session.SameOrderFor twin request) :
    (session.call now request).Alike (twin.call moment other) := by
  have result := twins.sameResult time same order
  constructor
  · change (session.executions ++ request.copies _).map _ =
      (twin.executions ++ other.copies _).map _
    rw [List.map_append, List.map_append, twins.alike.executions, result.copies]
  · change (session.steps ++ request.stepCopies _).map _ = (twin.steps ++ other.stepCopies _).map _
    rw [List.map_append, List.map_append, twins.alike.steps, result.steps]

end Twins

/-- Sessions in lockstep are twins if they pick the same last steps. -/
theorem Lockstep.twins (lockstep : Lockstep SameOrderFor session twin) (few : session.Few)
    (twinFew : twin.Few) : session.Twins twin := by
  obtain ⟨sound, twinSound⟩ :=
    And.intro (lockstep.reaches.1.sound few) (lockstep.reaches.2.sound twinFew)
  induction lockstep with
  | start => exact ⟨sound, twinSound, rfl, rfl, rfl⟩
  | @call session twin now moment ask other lockstep time way inHand otherInHand order ih =>
    have made : Step AnyEdit session (session.call now (ask session)) := .call now inHand
    have otherMade : Step AnyEdit twin (twin.call moment (other twin)) := .call moment otherInHand
    have before := made.few few
    have twinBefore := otherMade.few twinFew
    have twins := ih before twinBefore (lockstep.reaches.1.sound before)
      (lockstep.reaches.2.sound twinBefore)
    have same := way twins.alike
    exact ⟨sound, twinSound, twins.sameBooks time same, twins.alike_call time same order⟩
  | hold lockstep way _ _ ih =>
    have twins := ih few twinFew (lockstep.reaches.1.sound few) (lockstep.reaches.2.sound twinFew)
    refine ⟨sound, twinSound, twins.books, ?_, twins.alike.steps⟩
    change (_ ++ [_]).map _ = (_ ++ [_]).map _
    rw [List.map_append, List.map_append, twins.alike.executions, List.map_singleton,
      List.map_singleton, way twins.alike]
  | holdStep lockstep way _ _ ih =>
    have twins := ih few twinFew (lockstep.reaches.1.sound few) (lockstep.reaches.2.sound twinFew)
    refine ⟨sound, twinSound, twins.books, twins.alike.executions, ?_⟩
    change (_ ++ [_]).map _ = (_ ++ [_]).map _
    rw [List.map_append, List.map_append, twins.alike.steps, List.map_singleton,
      List.map_singleton, way twins.alike]

/-- Notes do not matter. Two clients go in lockstep, and whenever they ask for the last step of a
name, the steps of that name come in the same order by start in both repositories. Then the
repositories hold the same instances, contexts and numbers, and the same executions and steps when
these are bare; and the clients have got the same copies. A further request that is made the same
way leaves the repositories the same again, and it is answered the same, again if it does not ask
for the last of steps in another order. Even then there is one in both repositories or in none, and
if all of the moments is seen, the order is always the same. -/
theorem notes_do_not_matter (lockstep : Lockstep SameOrderFor session twin) (few : session.Few)
    (twinFew : twin.Few) :
    session.repository.bare = twin.repository.bare ∧ session.Alike twin ∧
    (∀ now moment ask other, see now = see moment → SameWay Request.bare ask other →
      (session.repository.answer now (ask session)).2.bare =
        (twin.repository.answer moment (other twin)).2.bare ∧
      (session.SameOrderFor twin (ask session) →
        Request.SameResult (ask session) (other twin)
          (session.repository.answer now (ask session)).1
          (twin.repository.answer moment (other twin)).1)) ∧
    (∀ known stepName, (session.repository.lastStep known stepName).isSome =
      (twin.repository.lastStep known stepName).isSome) ∧
    (Function.Injective see → ∀ request, session.SameOrderFor twin request) := by
  have twins := lockstep.twins few twinFew
  refine ⟨twins.books, twins.alike, ?_, Repository.isSome_lastStep_of_same twins.books, ?_⟩
  · intro now moment ask other time way
    have same := way twins.alike
    exact ⟨twins.sameBooks time same, twins.sameResult time same⟩
  · intro sharp request known stepName asked
    exact StepStore.sameOrder_of_injective sharp twins.sameSteps
      twins.sound.traced.steps.numbered twins.twinSound.traced.steps.numbered

end Session

end

/-- A view in which nothing is seen of moments. -/
@[reducible] def View.blind : View := ⟨fun _ => ⟨0, 0⟩⟩

namespace Session

/-- What the client of a new import has: the first copy. -/
def importCopy (now : Timestamp) (parameters : JobParameters) : JobExecution :=
  { JobExecution.create now (.of ⟨1⟩ "import" parameters) parameters with
    id := some ⟨1⟩, version := 1, lastUpdated := some now }

/-- The loading step of the import. -/
def loading (now : Timestamp) : StepExecution := .start now "load" ⟨1⟩ ⟨1⟩

/-- A client starts an import and saves a step of it. -/
def loaded (now : Timestamp) (parameters : JobParameters) : Session :=
  ((start.call now (.createExecution "import" parameters)).holdStep (loading now)).call now
    (.addStep (loading now))

/-- The client asks for the last loading step and lets the import fail. -/
def failing (now : Timestamp) (parameters : JobParameters) : Session :=
  ((loaded now parameters).call now (.lastStep (.of ⟨1⟩ "import" .empty) "load")).hold
    ((importCopy now parameters).upgradeStatus .failed)

/-- The failure is written, and the import is started again. -/
def restarted (now : Timestamp) (parameters : JobParameters) : Session :=
  (failing now parameters).call now (.update ((importCopy now parameters).upgradeStatus .failed))
    |>.call now (.createExecution "import" parameters)

/-- Parameters with nothing but a note. -/
def noted : JobParameters := .ofList [("note", ⟨.string "again", false⟩)]

private theorem importCopy_mem (now : Timestamp) (parameters : JobParameters) :
    importCopy now parameters ∈
      (start.call now (.createExecution "import" parameters)).executions :=
  List.mem_singleton.2 rfl

private theorem step_loading (now : Timestamp) (parameters : JobParameters) :
    Step AnyEdit (start.call now (.createExecution "import" parameters))
      ((start.call now (.createExecution "import" parameters)).holdStep (loading now)) :=
  .startStep now (importCopy_mem now parameters) rfl

-- The failed copy holds no steps, so it can be made of the first one.
private theorem step_failing {now : Timestamp} {parameters : JobParameters} {session : Session}
    (inHand : importCopy now parameters ∈ session.executions) :
    Step AnyEdit session (session.hold ((importCopy now parameters).upgradeStatus .failed)) :=
  .edit inHand ⟨rfl, rfl, rfl, rfl⟩ (fun _ member => absurd member List.not_mem_nil) trivial

private theorem lockstep_loaded :
    @Lockstep .blind SameOrderFor (loaded ⟨0, 0⟩ .empty) (loaded ⟨9, 0⟩ noted) := by
  let _ : View := .blind
  have created : Lockstep SameOrderFor (start.call ⟨0, 0⟩ (.createExecution "import" .empty))
      (start.call ⟨9, 0⟩ (.createExecution "import" noted)) :=
    Lockstep.start.ask _ _ (.createExecution ..) (.createExecution ..) rfl rfl trivial trivial
      (sameOrderFor_of_untold not_false)
  have inHand (now : Timestamp) (session : Session) :
      (session.holdStep (loading now)).Holds (.addStep (loading now)) :=
    List.mem_append_right _ (List.mem_singleton.2 rfl)
  have begun := created.giveStep (loading ⟨0, 0⟩) (loading ⟨9, 0⟩) rfl (step_loading _ _)
    (step_loading _ _)
  exact begun.ask _ _ (.addStep (loading ⟨0, 0⟩)) (.addStep (loading ⟨9, 0⟩)) rfl rfl
    (inHand _ _) (inHand _ _) (sameOrderFor_of_untold not_false)

private theorem lockstep_failing :
    @Lockstep .blind SameOrderFor (failing ⟨0, 0⟩ .empty) (failing ⟨9, 0⟩ noted) := by
  let _ : View := .blind
  -- There is one loading step in each repository, so there is but one order.
  have sameOrder : SameOrderFor (loaded ⟨0, 0⟩ .empty) (loaded ⟨9, 0⟩ noted)
      (.lastStep (.of ⟨1⟩ "import" .empty) "load") := by
    rintro _ _ ⟨rfl, rfl⟩ one other next another here there
    obtain rfl := List.mem_singleton.1 here.listed
    obtain rfl := List.mem_singleton.1 here.otherListed
    obtain rfl := List.mem_singleton.1 there.listed
    obtain rfl := List.mem_singleton.1 there.otherListed
    rfl
  have asked := lockstep_loaded.ask ⟨0, 0⟩ ⟨9, 0⟩ (.lastStep ..) (.lastStep ..) rfl rfl trivial
    trivial sameOrder
  exact asked.give ((importCopy ⟨0, 0⟩ .empty).upgradeStatus .failed)
    ((importCopy ⟨9, 0⟩ noted).upgradeStatus .failed) rfl
    (step_failing (List.mem_singleton.2 rfl)) (step_failing (List.mem_singleton.2 rfl))

private theorem lockstep_restarted :
    @Lockstep .blind SameOrderFor (restarted ⟨0, 0⟩ .empty) (restarted ⟨9, 0⟩ noted) := by
  let _ : View := .blind
  have inHand (now : Timestamp) (parameters : JobParameters) :
      (failing now parameters).Holds
        (.update ((importCopy now parameters).upgradeStatus .failed)) :=
    List.mem_append_right _ (List.mem_singleton.2 rfl)
  have written := lockstep_failing.ask ⟨0, 0⟩ ⟨9, 0⟩
    (.update ((importCopy ⟨0, 0⟩ .empty).upgradeStatus .failed))
    (.update ((importCopy ⟨9, 0⟩ noted).upgradeStatus .failed)) rfl rfl (inHand _ _) (inHand _ _)
    (sameOrderFor_of_untold not_false)
  exact written.ask _ _ (.createExecution ..) (.createExecution ..) rfl rfl trivial trivial
    (sameOrderFor_of_untold not_false)

/-- One client gives no parameters and the other one a note, by clocks that are nine seconds apart.
-/
theorem notes_do_not_matter_restarted :
    @Lockstep .blind SameOrderFor (restarted ⟨0, 0⟩ .empty) (restarted ⟨9, 0⟩ noted) ∧
      (restarted ⟨0, 0⟩ .empty).Few ∧ (restarted ⟨9, 0⟩ noted).Few ∧
      ((restarted ⟨0, 0⟩ .empty).repository.executions.get? ⟨2⟩).map (·.parameters.size) = some 0 ∧
      ((restarted ⟨9, 0⟩ noted).repository.executions.get? ⟨2⟩).map (·.parameters.size) = some 1 ∧
      @Repository.bare .blind (restarted ⟨0, 0⟩ .empty).repository =
        @Repository.bare .blind (restarted ⟨9, 0⟩ noted).repository := by
  let _ : View := .blind
  have few : (restarted ⟨0, 0⟩ .empty).Few := (by decide : 4 < 2 ^ 64)
  have notedFew : (restarted ⟨9, 0⟩ noted).Few := (by decide : 4 < 2 ^ 64)
  exact ⟨lockstep_restarted, few, notedFew, rfl, rfl,
    (notes_do_not_matter lockstep_restarted few notedFew).1⟩

/-! ## The clock decides which step was started last -/

/-- Two loading steps are started, the second one at this moment, and saved in the other order. -/
def loadedTwice (moment : Timestamp) : Session :=
  ((opened.holdStep (loading ⟨1, 0⟩)).holdStep (loading moment)).call ⟨3, 0⟩
    (.addStep (loading moment)) |>.call ⟨3, 0⟩ (.addStep (loading ⟨1, 0⟩))

/-- The last one is asked for. -/
def picked (moment : Timestamp) : Session :=
  (loadedTwice moment).call ⟨3, 0⟩ (.lastStep (.of ⟨1⟩ "import" .empty) "load")

/-- The step that came into hand last is to be written. -/
def writeLast (session : Session) : Request :=
  match session.steps.getLast? with
  | some step => .updateStep step
  | none => .runningExecutions "import"

private theorem holds_writeLast (session : Session) : session.Holds session.writeLast := by
  unfold writeLast
  split
  · exact List.mem_of_getLast? ‹_›
  · trivial

private theorem sameWay_writeLast [View] : SameWay Request.bare writeLast writeLast := by
  intro session twin alike
  have last : (session.steps.getLast?).map StepExecution.bare =
      (twin.steps.getLast?).map StepExecution.bare := by
    rw [← List.getLast?_map, ← List.getLast?_map, alike.steps]
  unfold writeLast
  cases here : session.steps.getLast? with
  | none =>
    cases there : twin.steps.getLast? with
    | none => rfl
    | some step => simp [here, there] at last
  | some step =>
    cases there : twin.steps.getLast? with
    | none => simp [here, there] at last
    | some other =>
      rw [here, there] at last
      exact congrArg Request.updateStep (Option.some.inj last)

/-- The step that was handed out is written back. -/
def writtenBack (moment : Timestamp) : Session :=
  (picked moment).call ⟨4, 0⟩ (picked moment).writeLast

private theorem lockstep_picked : @Lockstep .blind (fun _ _ _ => True)
    (picked ⟨1, 0⟩) (picked ⟨2, 0⟩) := by
  let _ : View := .blind
  have started (now : Timestamp) {session : Session} (inHand : firstCopy ∈ session.executions) :
      Step AnyEdit session (session.holdStep (loading now)) :=
    .startStep now inHand rfl
  have created : Lockstep (fun _ _ _ => True) opened opened :=
    Lockstep.start.ask _ _ (.createExecution ..) (.createExecution ..) rfl rfl trivial trivial
      trivial
  have first := created.giveStep (loading ⟨1, 0⟩) (loading ⟨1, 0⟩) rfl
    (started _ firstCopy_mem) (started _ firstCopy_mem)
  have second := first.giveStep (loading ⟨1, 0⟩) (loading ⟨2, 0⟩) rfl
    (started _ firstCopy_mem) (started _ firstCopy_mem)
  have inHand (moment : Timestamp) {session : Session} :
      (session.holdStep (loading moment)).Holds (.addStep (loading moment)) :=
    List.mem_append_right _ (List.mem_singleton.2 rfl)
  have saved := second.ask ⟨3, 0⟩ ⟨3, 0⟩ (.addStep (loading ⟨1, 0⟩)) (.addStep (loading ⟨2, 0⟩))
    rfl rfl (inHand _) (inHand _) trivial
  have stillInHand (moment : Timestamp) :
      (((opened.holdStep (loading ⟨1, 0⟩)).holdStep (loading moment)).call ⟨3, 0⟩
        (.addStep (loading moment))).Holds (.addStep (loading ⟨1, 0⟩)) :=
    List.mem_append_left _ (List.mem_append_left _ (inHand _))
  have both := saved.ask ⟨3, 0⟩ ⟨3, 0⟩ (.addStep (loading ⟨1, 0⟩)) (.addStep (loading ⟨1, 0⟩))
    rfl rfl (stillInHand _) (stillInHand _) trivial
  exact both.ask ⟨3, 0⟩ ⟨3, 0⟩ (.lastStep ..) (.lastStep ..) rfl rfl trivial trivial trivial

/-- The same is done twice, only the clocks differ: by one clock the two steps were started at the
same moment, by the other one after the other. One client gets the second step, the other gets the
first one, and the step that is written is another. -/
theorem clocks_pick_the_last_step :
    @Lockstep .blind (fun _ _ _ => True) (writtenBack ⟨1, 0⟩) (writtenBack ⟨2, 0⟩) ∧
      (writtenBack ⟨1, 0⟩).Few ∧ (writtenBack ⟨2, 0⟩).Few ∧
      ((writtenBack ⟨1, 0⟩).repository.steps.get? ⟨1⟩ ⟨1⟩).map (·.version) = some 1 ∧
      ((writtenBack ⟨2, 0⟩).repository.steps.get? ⟨1⟩ ⟨1⟩).map (·.version) = some 2 ∧
      @Repository.bare .blind (writtenBack ⟨1, 0⟩).repository ≠
        @Repository.bare .blind (writtenBack ⟨2, 0⟩).repository := by
  let _ : View := .blind
  have lockstep : Lockstep (fun _ _ _ => True) (writtenBack ⟨1, 0⟩) (writtenBack ⟨2, 0⟩) :=
    .call lockstep_picked rfl sameWay_writeLast (holds_writeLast _) (holds_writeLast _) trivial
  have few : (writtenBack ⟨1, 0⟩).Few := (by decide : 4 < 2 ^ 64)
  have twinFew : (writtenBack ⟨2, 0⟩).Few := (by decide : 4 < 2 ^ 64)
  have once : ((writtenBack ⟨1, 0⟩).repository.steps.get? ⟨1⟩ ⟨1⟩).map (·.version) = some 1 := rfl
  have twice : ((writtenBack ⟨2, 0⟩).repository.steps.get? ⟨1⟩ ⟨1⟩).map (·.version) = some 2 := rfl
  refine ⟨lockstep, few, twinFew, once, twice, fun same => ?_⟩
  have found := congrArg (fun repository => (repository.steps.get? ⟨1⟩ ⟨1⟩).map (·.version)) same
  cases (once.symm.trans found).trans twice

end Session

end BatchRun
