import BatchRun.Proofs.Clients.Session
import BatchRun.Proofs.Repository.Traces

/-! # The four stores stay consistent with each other

Every copy that clients have in hand is traced to the execution that has been created with its
number, and every step to the one that it has been started from or added to. Answers hand out
nothing else, and edits do not change where a copy comes from. So whatever clients write, also from
copies of executions that are not stored any more, the four stores stay consistent.
-/

namespace BatchRun

namespace Session

variable {session next : Session} {now : Timestamp} {request : Request}
  {Permitted : JobExecution → JobExecution → Prop}

/-- The executions that have been created, the first one first. -/
def created (session : Session) : List JobExecution := session.writings.filterMap Writing.created?

/-- The steps that have been added, the first one first. -/
def added (session : Session) : List StepExecution := session.writings.filterMap Writing.added?

/-- Fewer writings than numbers leave room in both registers. -/
theorem Few.registers (few : session.Few) :
    session.created.length < 2 ^ 64 ∧ session.added.length < 2 ^ 64 :=
  ⟨Nat.lt_of_le_of_lt (List.length_filterMap_le ..) few,
    Nat.lt_of_le_of_lt (List.length_filterMap_le ..) few⟩

private theorem filterMap_toList {α β : Type} (select : α → Option β) (value? : Option α) :
    value?.toList.filterMap select = (value?.bind select).toList := by
  cases value? with
  | none => rfl
  | some value => cases chosen : select value <;> simp [chosen]

/-- The register of executions grows by those that are created. -/
theorem created_call (session : Session) (now : Timestamp) (request : Request) :
    (session.call now request).created = session.created ++
      ((request.writing? (session.repository.answer now request).1).bind
        Writing.created?).toList := by
  rw [← filterMap_toList]
  exact List.filterMap_append ..

/-- The register of steps grows by those that are added. -/
theorem added_call (session : Session) (now : Timestamp) (request : Request) :
    (session.call now request).added = session.added ++
      ((request.writing? (session.repository.answer now request).1).bind
        Writing.added?).toList := by
  rw [← filterMap_toList]
  exact List.filterMap_append ..

/-- The stores are traced, and so is every copy in hand. -/
structure Sound (session : Session) : Prop where
  traced : session.repository.Traced session.created session.added
  executions : ∀ copy ∈ session.executions, copy.Traced session.created
  /-- Steps within executions in hand are in hand themselves. -/
  inside : ∀ copy ∈ session.executions, ∀ step ∈ copy.steps, step ∈ session.steps
  steps : ∀ step ∈ session.steps, step.Traced session.created session.added

namespace Sound

theorem start : start.Sound where
  traced := .empty
  executions _ member := absurd member List.not_mem_nil
  inside _ member := absurd member List.not_mem_nil
  steps _ member := absurd member List.not_mem_nil

/-- What is given with a request comes from what has been written. -/
theorem givenTraced (sound : session.Sound) (inHand : session.Holds request) :
    Repository.GivenTraced session.created session.added request := by
  cases request with
  | update copy =>
    exact ⟨sound.executions copy inHand,
      fun step member => sound.steps step (sound.inside copy inHand step member)⟩
  | updateContext copy => exact sound.executions copy inHand
  | addStep step | updateStep step | updateStepContext step => exact sound.steps step inHand
  | _ => trivial

private theorem traced_call (sound : session.Sound) (inHand : session.Holds request)
    (few : (session.call now request).Few) :
    (session.call now request).repository.Traced (session.call now request).created
      (session.call now request).added := by
  obtain ⟨fewCreated, fewAdded⟩ := few.registers
  rw [created_call, added_call] at *
  exact sound.traced.answer fewCreated fewAdded (sound.givenTraced inHand)

private theorem traced_after {copy : JobExecution} (traced : copy.Traced session.created) :
    copy.Traced (session.call now request).created :=
  created_call session now request ▸ traced.append _

private theorem tracedStep_after {step : StepExecution}
    (traced : step.Traced session.created session.added) :
    step.Traced (session.call now request).created (session.call now request).added :=
  created_call session now request ▸ added_call session now request ▸ traced.append _ _

private theorem handed (sound : session.Sound) (inHand : session.Holds request)
    {copy : JobExecution}
    (member : copy ∈ request.copies (session.repository.answer now request).1) :
    copy.Traced (session.call now request).created ∧ ∀ step ∈ copy.steps,
      step.Traced (session.call now request).created (session.call now request).added := by
  have ofHeld {given : JobExecution} (inHand : given ∈ session.executions)
      (sameId : copy.id = given.id) (same : copy.jobInstance = given.jobInstance)
      (steps : copy.steps = given.steps) :
      copy.Traced (session.call now request).created ∧ ∀ step ∈ copy.steps,
        step.Traced (session.call now request).created (session.call now request).added := by
    refine ⟨fun id numbered => ?_, fun step member => ?_⟩
    · rw [sameId] at numbered
      rw [same]
      exact traced_after (sound.executions given inHand) id numbered
    · exact tracedStep_after (sound.steps step (sound.inside given inHand step (steps ▸ member)))
  cases Repository.handed_of_mem sound.traced.consistent.executions.toNumbered member with
  | @read request id stored idle found =>
    refine ⟨fun key numbered => ?_, fun step member =>
      tracedStep_after (sound.traced.assembled found step member)⟩
    obtain rfl := Option.some.inj
      ((sound.traced.consistent.executions.numbered found).symm.trans numbered)
    exact created_call session now request ▸ (sound.traced.executions.stored found).append _
  | @created jobName parameters execution after made =>
    have own : (session.call now (.createExecution jobName parameters)).created =
        session.created ++ [copy] := by
      rw [created_call, Repository.answer_of_created made]
      rfl
    obtain ⟨known, context, claimed, contexts, -, given, -⟩ :=
      Repository.createExecution_cases made
    refine ⟨fun id numbered => ?_, fun step member => ?_⟩
    · rw [own]
      exact createdFor_append.2 (.inr ⟨numbered, rfl⟩)
    · rw [given] at member
      exact absurd member List.not_mem_nil
  | written numbered found => exact ofHeld inHand rfl rfl rfl
  | refreshed numbered found => exact ofHeld inHand rfl rfl rfl
  | kept idle given missing =>
    rcases given with rfl | rfl <;> exact ofHeld inHand rfl rfl rfl

private theorem handedStep (sound : session.Sound) (inHand : session.Holds request)
    {step : StepExecution}
    (member : step ∈ request.ownSteps (session.repository.answer now request).1) :
    step.Traced (session.call now request).created (session.call now request).added := by
  cases request with
  | lastStep known stepName =>
    obtain ⟨stored, last, rfl⟩ := Option.map_eq_some_iff.1 (Option.mem_toList.1 member)
    obtain ⟨⟨id, stepId, found⟩, -⟩ := StepStore.mem_ofName.1 (StepStore.mem_of_last? last)
    exact tracedStep_after (Repository.Traced.withStepContext (sound.traced.steps.stored found))
  | step id stepId =>
    obtain ⟨stored, found, rfl⟩ := Option.map_eq_some_iff.1 (Option.mem_toList.1 member)
    exact tracedStep_after (Repository.Traced.withStepContext (sound.traced.steps.stored found))
  | addStep given =>
    have traced := @tracedStep_after session now (.addStep given) given (sound.steps given inHand)
    rcases session.repository.addStep_cases now given with
      ⟨parent, new, found, added⟩ | ⟨error, lastUpdated, refused⟩
    · have answered : session.repository.answer now (.addStep given) = _ := added
      have own : (session.call now (.addStep given)).added =
          session.added ++ [session.repository.addedStep now given] := by
        rw [added_call, answered]
        rfl
      rw [answered] at member
      obtain rfl := List.mem_singleton.1 member
      refine ⟨traced.parent, fun id numbered => ?_⟩
      rw [own]
      exact addedTo_append.2 (.inr ⟨numbered, rfl⟩)
    · have answered : session.repository.answer now (.addStep given) = _ := refused
      rw [answered] at member
      obtain rfl := List.mem_singleton.1 member
      exact ⟨traced.parent, traced.numbered⟩
  | updateStep given =>
    have traced := @tracedStep_after session now (.updateStep given) given
      (sound.steps given inHand)
    rcases session.repository.updateStep_cases now given with
      ⟨id, stored, terminateOnly, -, -, -, updated⟩ | ⟨-, error, refused⟩
    · have answered : session.repository.answer now (.updateStep given) = _ := updated
      rw [answered] at member
      obtain rfl := List.mem_singleton.1 member
      exact ⟨traced.parent, traced.numbered⟩
    · have answered : session.repository.answer now (.updateStep given) = _ := refused
      rw [answered] at member
      obtain rfl := List.mem_singleton.1 member
      exact ⟨traced.parent, traced.numbered⟩
  | _ => exact absurd member List.not_mem_nil

theorem call (sound : session.Sound) (inHand : session.Holds request)
    (few : (session.call now request).Few) : (session.call now request).Sound where
  traced := sound.traced_call inHand few
  executions := by
    intro copy member
    rcases List.mem_append.1 member with before | new
    · exact traced_after (sound.executions copy before)
    · exact (sound.handed inHand new).1
  inside := by
    intro copy member step inside
    rcases List.mem_append.1 member with before | new
    · exact List.mem_append_left _ (sound.inside copy before step inside)
    · have handed := List.mem_flatMap.2 ⟨copy, new, inside⟩
      exact List.mem_append_right _ (List.mem_append_left _ handed)
  steps := by
    intro step member
    rcases List.mem_append.1 member with before | new
    · exact tracedStep_after (sound.steps step before)
    · rcases List.mem_append.1 new with inside | own
      · obtain ⟨copy, given, inside⟩ := List.mem_flatMap.1 inside
        exact (sound.handed inHand given).2 step inside
      · exact sound.handedStep inHand own

private theorem started_of_startStep {execution : JobExecution} {stepName : String}
    {step : StepExecution} (made : execution.startStep now stepName = .ok step) :
    ∃ id, execution.id = some id ∧ step = .start now stepName id execution.jobInstance.id := by
  unfold JobExecution.startStep at made
  cases numbered : execution.id with
  | none => simp [numbered] at made
  | some id =>
    rw [numbered] at made
    exact ⟨id, rfl, (Except.ok.inj made).symm⟩

/-- Whatever clients do next, all that is stored and in hand can be traced to what has been written.
-/
theorem step (sound : session.Sound) (step : Step Permitted session next) (few : next.Few) :
    next.Sound := by
  cases step with
  | call now inHand => exact sound.call inHand few
  | draft now known parameters =>
    refine ⟨sound.traced, List.forall_mem_append.2 ⟨sound.executions, ?_⟩,
      List.forall_mem_append.2 ⟨sound.inside, ?_⟩, sound.steps⟩
    · intro copy member id numbered
      rw [List.mem_singleton.1 member] at numbered
      exact absurd numbered (Option.some_ne_none id).symm
    · intro copy member step inside
      rw [List.mem_singleton.1 member] at inside
      exact absurd inside List.not_mem_nil
  | @edit edited original inHand same steps permitted =>
    refine ⟨sound.traced, List.forall_mem_append.2 ⟨sound.executions, ?_⟩,
      List.forall_mem_append.2 ⟨sound.inside, ?_⟩, sound.steps⟩
    · intro copy member id numbered
      rw [List.mem_singleton.1 member] at numbered ⊢
      rw [same.jobInstance]
      exact sound.executions original inHand id (same.id ▸ numbered)
    · intro copy member
      rw [List.mem_singleton.1 member]
      exact steps
  | @startStep now execution stepName started inHand made =>
    refine ⟨sound.traced, sound.executions, fun copy member step inside =>
      List.mem_append_left _ (sound.inside copy member step inside),
      List.forall_mem_append.2 ⟨sound.steps, fun step member => ?_⟩⟩
    obtain ⟨id, numbered, rfl⟩ := started_of_startStep made
    rw [List.mem_singleton.1 member]
    exact ⟨⟨_, sound.executions execution inHand id numbered, rfl⟩, nofun⟩
  | @editStep edited original inHand same =>
    refine ⟨sound.traced, sound.executions, fun copy member step inside =>
      List.mem_append_left _ (sound.inside copy member step inside),
      List.forall_mem_append.2 ⟨sound.steps, fun step member => ?_⟩⟩
    have traced := sound.steps original inHand
    rw [List.mem_singleton.1 member]
    refine ⟨?_, fun id numbered => ?_⟩
    · rw [same.jobExecutionId, same.jobInstanceId]
      exact traced.parent
    · rw [same.jobExecutionId]
      exact traced.numbered id (same.id ▸ numbered)

end Sound

/-- The same holds of whole sessions. -/
theorem Sound.reaches (sound : session.Sound) (reaches : Reaches Permitted session next)
    (few : next.Few) : next.Sound :=
  reaches.invariant few sound fun step few sound => sound.step step few

/-- Whatever clients do, the stores and the copies in hand stay traced. -/
theorem Reaches.sound (reaches : Reaches Permitted .start session) (few : session.Few) :
    session.Sound :=
  Sound.start.reaches reaches few

/-! ## Consistency of the stores -/

/-- The step is stored under this execution. -/
def HasStep (session : Session) (id : JobExecutionId) (step : StepExecution) : Prop :=
  ∃ stepId, session.repository.steps.get? id stepId = some step

/-- The four stores are consistent with each other. -/
structure StoresConsistent (session : Session) : Prop where
  /-- A known instance has at most one stored execution, which is of the registered instance. -/
  single : ∀ known ∈ session.repository.instances.instances, ∀ id stored,
    session.repository.executions.get? id = some stored → stored.jobInstance.id = known.id →
      stored.jobInstance = known ∧
      ∀ other another, session.repository.executions.get? other = some another →
        another.jobInstance.id = known.id → other = id
  registered : ∀ id stored, session.repository.executions.get? id = some stored →
    stored.jobInstance ∈ session.repository.instances.instances
  hasContext : ∀ id stored, session.repository.executions.get? id = some stored →
    ∃ context, session.repository.contexts.get? (.job id) = some context
  /-- A step has the number of its execution and the number of the instance that this was created
  for. -/
  steps : ∀ id step, session.HasStep id step →
    step.jobExecutionId = id ∧ CreatedIn session.created id step.jobInstanceId
  singleSteps : ∀ id other step another, session.HasStep id step → session.HasStep other another →
    step.jobInstanceId = another.jobInstanceId → id = other
  /-- An execution with steps is stored or has been followed by one without steps. -/
  parent : ∀ id step, session.HasStep id step →
    (∃ stored, session.repository.executions.get? id = some stored) ∨
    session.repository.executions.get? id = none ∧
      ∃ later stored, session.repository.executions.get? later = some stored ∧
        stored.jobInstance.id = step.jobInstanceId ∧ ∀ other, ¬ session.HasStep later other
  stepHasContext : ∀ id stepId step, session.repository.steps.get? id stepId = some step →
    ∃ context, session.repository.contexts.get? (.step stepId) = some context
  /-- The numbers of instances are at most the number of instances, and all different. -/
  instanceNumbers : ∀ known ∈ session.repository.instances.instances,
    known.id.value.toNat ≤ session.repository.instances.instances.length ∧
      ∀ other ∈ session.repository.instances.instances, other.id = known.id → other = known
  /-- The numbers of executions are at most the last one given, and each record has its own. -/
  executionNumbers : ∀ id,
    (∃ stored, session.repository.executions.get? id = some stored) ∨
      (∃ step, session.HasStep id step) ∨
      (∃ context, session.repository.contexts.get? (.job id) = some context) →
    id.value ≤ session.repository.executions.lastId
  ownNumber : ∀ id stored, session.repository.executions.get? id = some stored →
    stored.id = some id
  /-- The numbers of steps are at most the last one given, and each record has its own. -/
  stepNumbers : ∀ stepId,
    (∃ id step, session.repository.steps.get? id stepId = some step) ∨
      (∃ context, session.repository.contexts.get? (.step stepId) = some context) →
    stepId.value ≤ session.repository.steps.lastId
  ownStepNumber : ∀ id other stepId step another,
    session.repository.steps.get? id stepId = some step →
    session.repository.steps.get? other stepId = some another →
    step.id = some stepId ∧ id = other

/-- Whatever clients do, also with copies of executions that are not stored any more, the stores
stay consistent. -/
theorem stores_consistent (reaches : Reaches AnyEdit .start session) (few : session.Few) :
    session.StoresConsistent := by
  have traced := (reaches.sound few).traced
  have fewCreated := few.registers.1
  have instancesBound := Nat.lt_of_le_of_lt traced.numbers.instances fewCreated
  constructor
  case single =>
    intro known inside id stored found same
    refine ⟨?_, fun other another lookup sameInstance => ?_⟩
    · exact traced.consistent.instances.eq_of_same_id instancesBound
        (traced.consistent.belongs found) inside same
    · exact traced.consistent.executions.single lookup found (sameInstance.trans same.symm)
  case registered => exact fun id stored found => traced.consistent.belongs found
  case hasContext =>
    intro id stored found
    obtain ⟨filed, lookup⟩ := traced.contexts.present found
    exact ⟨filed.context, congrArg (Option.map StoredContext.context) lookup⟩
  case steps =>
    rintro id step ⟨stepId, found⟩
    exact ⟨(traced.steps.numbered found).2, traced.createdIn_of_step found⟩
  case singleSteps =>
    rintro id other step another ⟨_, here⟩ ⟨_, there⟩ same
    exact traced.same_execution fewCreated here there same
  case parent =>
    rintro id step ⟨stepId, found⟩
    obtain ⟨known, own, lies⟩ := traced.createdIn_of_step found
    obtain ⟨latest, stored, lookup, rfl⟩ := traced.executions.current own
    cases evicted : session.repository.executions.get? id with
    | some record => exact .inl ⟨record, rfl⟩
    | none =>
      refine .inr ⟨rfl, latest, stored, lookup, lies, ?_⟩
      rintro other ⟨otherId, there⟩
      obtain ⟨known, owns, same⟩ := traced.createdIn_of_step there
      obtain rfl := traced.numbers.owner owns (traced.executions.stored lookup)
      obtain rfl := traced.same_execution fewCreated there found (same.symm.trans lies)
      rw [evicted] at lookup
      contradiction
  case stepHasContext =>
    intro id stepId step found
    obtain ⟨filed, lookup⟩ := traced.stepContexts.present found
    exact ⟨filed.context, congrArg (Option.map StoredContext.context) lookup⟩
  case instanceNumbers =>
    intro known inside
    refine ⟨?_, fun other otherInside same => ?_⟩
    · exact traced.consistent.instances.toNat_le instancesBound inside
    · exact traced.consistent.instances.eq_of_same_id instancesBound otherInside inside same
  case executionNumbers =>
    rintro id (⟨stored, found⟩ | ⟨step, stepId, found⟩ | ⟨context, found⟩)
    · exact (traced.numbers.ofCreated (traced.executions.stored found)).1
    · obtain ⟨known, own, -⟩ := traced.createdIn_of_step found
      exact (traced.numbers.ofCreated own).1
    · obtain ⟨filed, lookup, -⟩ := Option.map_eq_some_iff.1 found
      obtain ⟨-, known, own, -⟩ := traced.contexts.filed lookup
      exact (traced.numbers.ofCreated own).1
  case ownNumber => exact fun id stored found => traced.consistent.executions.numbered found
  case stepNumbers =>
    rintro stepId (⟨id, step, found⟩ | ⟨context, found⟩)
    · exact (traced.numbers.ofAdded (traced.addedTo_of_step found)).1
    · obtain ⟨filed, lookup, -⟩ := Option.map_eq_some_iff.1 found
      exact (traced.numbers.ofAdded (traced.stepContexts.filed lookup).1).1
  case ownStepNumber =>
    intro id other stepId step another here there
    exact ⟨(traced.steps.numbered here).1,
      traced.numbers.parent (traced.addedTo_of_step here) (traced.addedTo_of_step there)⟩

/-- The step that a client starts in the first execution, and the copy of it when it is added. -/
def firstStep : StepExecution := .start ⟨0, 0⟩ "load" ⟨1⟩ ⟨1⟩

def firstStepCopy : StepExecution :=
  { firstStep with id := some ⟨1⟩, version := 1, lastUpdated := some ⟨0, 0⟩ }

/-- An execution with a step fails and is followed by another one of its instance. After that, its
context is filed again and its step is written. -/
def lateWrites : Session :=
  (opened.holdStep firstStep).call ⟨0, 0⟩ (.addStep firstStep)
    |>.hold (firstCopy.upgradeStatus .failed)
    |>.call ⟨0, 0⟩ (.update (firstCopy.upgradeStatus .failed))
    |>.call ⟨0, 0⟩ (.createExecution "import" .empty)
    |>.call ⟨0, 0⟩ (.updateContext firstCopy)
    |>.call ⟨0, 0⟩ (.updateStep firstStepCopy)

theorem reaches_firstStep : Reaches Permitted .start
    ((opened.holdStep firstStep).call ⟨0, 0⟩ (.addStep firstStep)) :=
  (reaches_opened.startStep ⟨0, 0⟩ firstCopy_mem rfl).call ⟨0, 0⟩ _
    (List.mem_append_right _ (List.mem_singleton.2 rfl))

theorem firstStepCopy_mem : firstStepCopy ∈
    ((opened.holdStep firstStep).call ⟨0, 0⟩ (.addStep firstStep)).steps :=
  List.mem_append_right _ (List.mem_singleton.2 rfl)

theorem reaches_lateWrites : Reaches AnyEdit .start lateWrites := by
  have inHand : firstCopy ∈
      ((opened.holdStep firstStep).call ⟨0, 0⟩ (.addStep firstStep)).executions :=
    List.mem_append_left _ firstCopy_mem
  have started : Reaches AnyEdit .start _ := reaches_firstStep
  have failed := started.edit (firstCopy.upgradeStatus .failed)
    inHand ⟨rfl, rfl, rfl, rfl⟩ (fun _ member => absurd member List.not_mem_nil) trivial
  have followed := (failed.call ⟨0, 0⟩ (.update (firstCopy.upgradeStatus .failed))
    (List.mem_append_right _ (List.mem_singleton.2 rfl))).call ⟨0, 0⟩
    (.createExecution "import" .empty) trivial
  refine (followed.call ⟨0, 0⟩ (.updateContext firstCopy) ?_).call ⟨0, 0⟩
    (.updateStep firstStepCopy) ?_
  · exact List.mem_append_left _ (List.mem_append_left _ (List.mem_append_left _ inHand))
  · exact List.mem_append_left _ (List.mem_append_left _ (List.mem_append_left _ firstStepCopy_mem))

theorem few_lateWrites : lateWrites.Few := (by decide : 6 < 2 ^ 64)

/-- A step of an execution that has given way is written late, and nothing comes apart. -/
theorem stores_consistent_lateWrites :
    Reaches AnyEdit .start lateWrites ∧ lateWrites.Few ∧ lateWrites.StoresConsistent ∧
      lateWrites.repository.executions.get? ⟨1⟩ = none ∧
      ∃ step, lateWrites.HasStep ⟨1⟩ step ∧ step.version = 2 :=
  ⟨reaches_lateWrites, few_lateWrites, stores_consistent reaches_lateWrites few_lateWrites, rfl, _,
    ⟨⟨1⟩, rfl⟩, rfl⟩

end Session

end BatchRun
