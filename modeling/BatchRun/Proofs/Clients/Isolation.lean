import BatchRun.Proofs.Clients.Reads
import BatchRun.Proofs.Operator.Frames

/-! # Instances do not interfere

Calls that concern one instance leave alone what is read of every other one, whichever numbers and
job names they share. The only way from one instance to another is the list of steps that clients
put into an execution: as long as no step has been added to an execution, it is read with the steps
that it was written with, also if these belong to another instance. Then the contexts of these steps
are read with it, and a stop asks these steps to end.
-/

namespace BatchRun

namespace Session

variable {session next : Session} {target other : String × String} {id : JobExecutionId}

/-- A call that concerns the instance with this name and identity key. -/
inductive CallOn (target : String × String) (session : Session) : Session → Prop
  | call (now : Timestamp) {request : Request} (inHand : session.Holds request)
      (concerns : Repository.Concerns session.created session.added target request) :
      CallOn target session (session.call now request)

/-- An execution of the first instance is read with a step of the second one. -/
def Mixes (session : Session) (reader owner : String × String) : Prop :=
  ∃ id read step, CreatedUnder session.created id reader ∧
    session.repository.execution id = .ok (some read) ∧ step ∈ read.steps ∧
    CreatedUnder session.created step.jobExecutionId owner

theorem CallOn.few (call : CallOn target session next) (few : next.Few) : session.Few := by
  obtain ⟨now, inHand, -⟩ := call
  have step : Step AnyEdit session _ := .call now inHand
  exact step.few few

namespace Sound

variable (sound : session.Sound)

include sound

/-- Any number of calls that concern one instance keep what the stores hold of another one. -/
theorem keeps_of_calls (calls : Relation.ReflTransGen (CallOn target) session next)
    (few : next.Few) (apart : target ≠ other) :
    next.Sound ∧
    (∃ more others, next.created = session.created ++ more ∧
      next.added = session.added ++ others) ∧
    Repository.Keeps next.created next.added other session.repository next.repository := by
  induction calls with
  | refl => exact ⟨sound, ⟨[], [], by simp, by simp⟩, .refl _⟩
  | @tail between next calls call ih =>
    obtain ⟨sound, ⟨more, others, created, added⟩, keeps⟩ := ih (call.few few)
    cases call with
    | @call now request inHand concerns =>
      have change := Repository.change_answer between.repository now request
      obtain ⟨older, olderSteps⟩ := change.older sound.traced concerns apart
      obtain ⟨fewCreated, fewAdded⟩ := few.registers
      refine ⟨sound.call inHand few, ?_, ?_⟩
      · rw [created_call, added_call, created, added, List.append_assoc, List.append_assoc]
        exact ⟨_, _, rfl, rfl⟩
      · rw [created_call, added_call] at *
        exact (keeps.grow older olderSteps).trans (.change sound.traced fewCreated fewAdded
          (sound.givenTraced inHand) concerns apart change)

private theorem mixes_of_assembled {stored : JobExecution} {step : StepExecution}
    (found : session.repository.executions.get? id = some stored)
    (under : CreatedUnder session.created id other)
    (shown : step ∈ (session.repository.assembled stored).steps)
    (owner : CreatedUnder session.created step.jobExecutionId target) :
    session.Mixes other target := by
  refine ⟨id, session.repository.assembled stored, step, under, ?_, shown, owner⟩
  rw [Repository.execution_eq sound.traced.consistent.executions.toNumbered, found]
  rfl

/-- What is read of the other instance is the same after these calls. -/
theorem sameReads_of_calls (calls : Relation.ReflTransGen (CallOn target) session next)
    (few : next.Few) (apart : target ≠ other) (unmixed : ¬ session.Mixes other target) :
    Repository.SameReads session.created session.added other session.repository
      next.repository := by
  obtain ⟨soundAfter, ⟨more, others, created, added⟩, -⟩ := sound.keeps_of_calls calls few apart
  have tracedAfter := soundAfter.traced
  have fewAfter := few.registers.1
  have keeps {foreign : String × String} (apart : target ≠ foreign) :=
    (sound.keeps_of_calls calls few apart).2.2
  rw [created, added] at tracedAfter keeps
  rw [created] at fewAfter
  refine (keeps apart).sameReads sound.traced tracedAfter fewAfter ?_
  intro id stored found under step listed
  have own := sound.traced.listedSteps found step listed
  obtain ⟨owner, owns, -⟩ := own.parent
  refine (keeps ?_).withStepContext_eq own ⟨owner, owns.append more, rfl⟩
  rintro rfl
  exact unmixed (sound.mixes_of_assembled found ⟨_, sound.traced.executions.stored found, under⟩
    (List.mem_map_of_mem listed) ⟨owner, owns, rfl⟩)

end Sound

/-- Calls that concern one instance leave alone what is read of another one, unless an execution of
the other instance is read with a step of the first one. So does a stop, unless an execution of the
first instance is read with a step of the other one, and so does an abandonment in any case. -/
theorem instances_do_not_interfere (reaches : Reaches AnyEdit .start session) (few : session.Few)
    (apart : target ≠ other) :
    (∀ next, Relation.ReflTransGen (CallOn target) session next → next.Few →
      ¬ session.Mixes other target →
      Repository.SameReads session.created session.added other session.repository
        next.repository) ∧
    ∀ id, CreatedUnder session.created id target →
      ∀ behaviour world, world.repository = session.repository →
        (¬ session.Mixes target other →
          Repository.SameReads session.created session.added other session.repository
            ((Operator.stop id : Program _).run behaviour world).2.repository) ∧
        Repository.SameReads session.created session.added other session.repository
          ((Operator.abandon id : Program _).run behaviour world).2.repository := by
  have sound := reaches.sound few
  have traced := sound.traced
  have fewCreated := few.registers.1
  refine ⟨fun next calls few unmixed => sound.sameReads_of_calls calls few apart unmixed, ?_⟩
  intro id own behaviour world same
  have foreign : ¬ CreatedUnder session.created id other :=
    fun under => apart (traced.numbers.target_eq own under)
  have tracedWorld := traced
  rw [← same] at tracedWorld ⊢
  refine ⟨fun unmixed => ?_, ?_⟩
  · have spares := @Operator.spares_stop _ _ _ behaviour world id tracedWorld foreign
      fun stored found step shown owner => by
        rw [same] at found shown
        exact unmixed (sound.mixes_of_assembled found own shown owner)
    exact spares.sameReads tracedWorld fewCreated
  · exact (Operator.spares_writeStatus Operator.moreStatusWrites tracedWorld foreign).1.sameReads
      tracedWorld fewCreated

private theorem createdUnder_neighbours (own : CreatedUnder neighbours.created id target) :
    (id = ⟨1⟩ ∧ target = ("import", "")) ∨ (id = ⟨2⟩ ∧ target = ("export", "")) := by
  obtain ⟨known, ⟨execution, member, numbered, rfl⟩, rfl⟩ := own
  rcases List.mem_cons.1 member with rfl | member
  · exact .inl ⟨(Option.some.inj numbered).symm, rfl⟩
  · obtain rfl := List.mem_singleton.1 member
    exact .inr ⟨(Option.some.inj numbered).symm, rfl⟩

private theorem not_mixes_neighbours (apart : target ≠ other) :
    ¬ neighbours.Mixes target other := by
  rintro ⟨id, read, step, own, isRead, shown, owner⟩
  rcases createdUnder_neighbours own with ⟨rfl, rfl⟩ | ⟨rfl, rfl⟩
  · obtain rfl := Option.some.inj (Except.ok.inj isRead)
    obtain rfl := List.mem_singleton.1 shown
    rcases createdUnder_neighbours owner with ⟨-, rfl⟩ | ⟨same, -⟩
    · exact apart rfl
    · exact absurd same (by decide : (⟨1⟩ : JobExecutionId) ≠ ⟨2⟩)
  · obtain rfl := Option.some.inj (Except.ok.inj isRead)
    exact absurd shown List.not_mem_nil

/-- The first of the neighbours writes its step, and files its context again. -/
def firstActs : Session :=
  (neighbours.call ⟨0, 0⟩ (.updateStep firstStepCopy)).call ⟨0, 0⟩ (.updateContext firstCopy)

/-- Two imports and exports next to each other, of which one goes on. -/
theorem instances_do_not_interfere_neighbours :
    Reaches AnyEdit .start neighbours ∧ neighbours.Few ∧
      Relation.ReflTransGen (CallOn ("import", "")) neighbours firstActs ∧ firstActs.Few ∧
      Repository.SameReads neighbours.created neighbours.added ("export", "")
        neighbours.repository firstActs.repository ∧
      Repository.SameReads neighbours.created neighbours.added ("export", "")
        neighbours.repository ((Operator.stop ⟨1⟩ : Program _).run .idle
          { World.initial with repository := neighbours.repository }).2.repository := by
  have few : neighbours.Few := (by decide : 3 < 2 ^ 64)
  have fewAfter : firstActs.Few := (by decide : 5 < 2 ^ 64)
  have own : CreatedUnder neighbours.created ⟨1⟩ ("import", "") :=
    ⟨_, ⟨_, List.mem_cons_self, rfl, rfl⟩, rfl⟩
  have wrote : CallOn ("import", "") neighbours
      (neighbours.call ⟨0, 0⟩ (.updateStep firstStepCopy)) :=
    .call ⟨0, 0⟩ firstStepCopy_mem_neighbours own
  have filed : CallOn ("import", "") (neighbours.call ⟨0, 0⟩ (.updateStep firstStepCopy))
      firstActs := .call ⟨0, 0⟩ (List.mem_append_left _ (List.mem_append_left _
        (List.mem_append_left _ firstCopy_mem))) rfl
  have calls : Relation.ReflTransGen (CallOn ("import", "")) neighbours firstActs :=
    (Relation.ReflTransGen.single wrote).tail filed
  have apart : (("import", "") : String × String) ≠ ("export", "") := by decide
  obtain ⟨ofCalls, ofOperators⟩ := instances_do_not_interfere reaches_neighbours few apart
  exact ⟨reaches_neighbours, few, calls, fewAfter,
    ofCalls firstActs calls fewAfter (not_mixes_neighbours apart.symm),
    (ofOperators ⟨1⟩ own .idle _ rfl).1 (not_mixes_neighbours apart)⟩

/-- How many entries the contexts of the steps have that are read. -/
private def contextSizes : Except RepositoryError (Option JobExecution) → List Nat
  | .ok (some read) => read.steps.map fun step => step.context.entries.size
  | _ => []

/-- Calls that concern one instance can be seen in another one whose execution was written with a
step of the first one, and a stop of an execution that was written with a step of another instance
can be seen there. -/
theorem lent_steps_interfere :
    (¬ ∀ session next target other, Reaches AnyEdit .start session → next.Few →
      CallOn target session next → target ≠ other →
      Repository.SameReads session.created session.added other session.repository
        next.repository) ∧
    ¬ ∀ session id target other, Reaches AnyEdit .start session → session.Few →
      CreatedUnder session.created id target → target ≠ other →
      ∀ behaviour world, world.repository = session.repository →
        Repository.SameReads session.created session.added other session.repository
          ((Operator.stop id : Program _).run behaviour world).2.repository := by
  have apart : (("import", "") : String × String) ≠ ("export", "") := by decide
  have lends : CreatedUnder lending.created ⟨1⟩ ("import", "") :=
    ⟨_, ⟨_, List.mem_cons_self, rfl, rfl⟩, rfl⟩
  have borrows : CreatedUnder lending.created ⟨2⟩ ("export", "") :=
    ⟨_, ⟨_, List.mem_cons_of_mem _ List.mem_cons_self, rfl, rfl⟩, rfl⟩
  constructor
  · intro keepsReads
    have call : CallOn ("import", "") (lending.holdStep markedStep) borrowing :=
      .call ⟨0, 0⟩ (List.mem_append_right _ (List.mem_singleton.2 rfl)) lends
    have same := (keepsReads _ _ _ _ reaches_marked few_borrowing call apart).execution ⟨2⟩ borrows
    have contexts := congrArg contextSizes same
    exact absurd contexts (by decide : [1] ≠ [0])
  · intro keepsReads
    have few : lending.Few := (by decide : 4 < 2 ^ 64)
    have same := (keepsReads lending ⟨2⟩ _ _ reaches_lending few borrows apart.symm .idle
      { World.initial with repository := lending.repository } rfl).step ⟨1⟩ lends ⟨1⟩
    have versions := congrArg (Option.map StepExecution.version) same
    exact absurd versions (by decide : some (2 : UInt64) ≠ some 1)

end Session

end BatchRun
