import BatchRun.Proofs.Clients.Stores
import BatchRun.Proofs.Repository.LastWritten
import BatchRun.Proofs.Repository.Reading

/-! # Reads put together what was written last

An execution is read as it was last written, with the context last filed for it and with the steps
added to it, each as it was last written and with the context last filed for it. It does not matter
by which of the reads an execution is found. Once another execution of its instance is created it is
never read again.

Before a step is added to an execution, it is read with the steps that clients have put into it. If
these have been added to other executions, they are not read as they were written: each one comes
with the context that is filed for it at that moment.
-/

namespace BatchRun

/-- An execution that has given way to a later one does not come back. -/
theorem Evicted.append {created : List JobExecution} {id : JobExecutionId}
    (evicted : Evicted created id) (more : List JobExecution) : Evicted (created ++ more) id := by
  obtain ⟨earlier, execution, later, rfl, numbered, other, member, same⟩ := evicted
  exact ⟨earlier, execution, later ++ more, by simp, numbered, other,
    List.mem_append_left _ member, same⟩

namespace Session

variable {session next : Session} {now : Timestamp} {request : Request}
  {Permitted : JobExecution → JobExecution → Prop} {id : JobExecutionId}
  {stepId : StepExecutionId} {stored read : JobExecution} {record : StepExecution}

/-- The step with this number as it was last written, with the context last filed for it. -/
def lastStep (session : Session) (id : StepExecutionId) : Option StepExecution := do
  let step ← latest? (Writing.step? id) session.writings
  let context ← latest? (Writing.stepContext? id) session.writings
  return { step with context }

/-- The execution that is read is the one with this number as it was last written, with the context
last filed for it and with the steps added to it as they were last written. If no step has been
added to it, its own steps come with their filed contexts. -/
structure Shows (session : Session) (id : JobExecutionId) (read : JobExecution) : Prop where
  record : ∃ record, latest? (Writing.record? id) session.writings = some record ∧
    read = { record with context := read.context, steps := read.steps } ∧
    ((∀ stepId, ¬ AddedTo session.added stepId id) →
      read.steps = record.steps.map session.repository.withStepContext)
  context : ∃ context, latest? (Writing.context? id) session.writings = some context ∧
    read.context.entries = context.entries
  steps (stepId : StepExecutionId) (added : AddedTo session.added stepId id) :
    Descending (read.steps.map (·.id)) ∧
    ∀ step, step ∈ read.steps ↔
      ∃ stepId, AddedTo session.added stepId id ∧ session.lastStep stepId = some step

/-- All reads give executions as they were last written. -/
structure Reassembles (session : Session) : Prop where
  execution : ∀ id known, CreatedFor session.created id known → ¬ Evicted session.created id →
    ∃ read, session.repository.execution id = .ok (some read) ∧ session.Shows id read
  evicted : ∀ id, Evicted session.created id → session.repository.execution id = .ok none
  /-- The execution that is read by name and parameters is the one of that instance. -/
  last : ∀ jobName parameters,
    (∃ read?, session.repository.lastExecution jobName parameters = .ok read?) ∧
    ∀ read, session.repository.lastExecution jobName parameters = .ok (some read) ↔
      ∃ id, session.repository.execution id = .ok (some read) ∧
        read.jobInstance.isFor jobName parameters = true
  ofInstance : ∀ known, ∃ reads, session.repository.executionsOf known = .ok reads ∧
    Descending (reads.map (·.id)) ∧
    ∀ read, read ∈ reads ↔ ∃ id, session.repository.execution id = .ok (some read) ∧
      read.jobInstance.id = known.id
  running : ∀ jobName, ∃ reads, session.repository.runningExecutions jobName = .ok reads ∧
    Descending (reads.map (·.id)) ∧
    ∀ read, read ∈ reads ↔ ∃ id, session.repository.execution id = .ok (some read) ∧
      read.jobName = jobName ∧ read.isRunning = true
  step : ∀ id known, CreatedFor session.created id known → ¬ Evicted session.created id →
    ∀ stepId step, session.repository.step? id stepId = some step ↔
      AddedTo session.added stepId id ∧ session.lastStep stepId = some step

/-- The stores are traced, and they hold what was written last. -/
structure Faithful (session : Session) : Prop where
  sound : session.Sound
  latest : session.repository.UpToDate session.writings
  lasting : Repository.Lasting session.created session.added session.repository.executions
    session.repository.steps

namespace Faithful

theorem start : start.Faithful := ⟨.start, .empty, .empty⟩

theorem call (faithful : session.Faithful) (inHand : session.Holds request)
    (few : (session.call now request).Few) : (session.call now request).Faithful := by
  have change := Repository.change_answer session.repository now request
  have traced := faithful.sound.traced
  obtain ⟨fewCreated, fewAdded⟩ := few.registers
  rw [created_call] at fewCreated
  rw [added_call] at fewAdded
  refine ⟨faithful.sound.call inHand few, faithful.latest.change traced fewAdded change, ?_⟩
  rw [created_call, added_call]
  refine faithful.lasting.change traced fewCreated ?_ change
  rintro given rfl
  exact faithful.sound.steps given inHand

/-- Whatever clients do next, what is read stays faithful to what has been written. -/
theorem step (faithful : session.Faithful) (step : Step Permitted session next)
    (few : next.Few) : next.Faithful := by
  have sound := faithful.sound.step step few
  cases step with
  | call now inHand => exact faithful.call inHand few
  | _ => exact ⟨sound, faithful.latest, faithful.lasting⟩

/-! ## What is read of a record and of a step -/

variable (faithful : session.Faithful)

include faithful

/-- A stored step is read as it was last written. -/
theorem lastStep_of_found (found : session.repository.steps.get? id stepId = some record) :
    session.lastStep stepId = some (session.repository.withStepContext record) := by
  obtain ⟨filed, lookup⟩ := faithful.sound.traced.stepContexts.present found
  have numbered := (faithful.sound.traced.steps.numbered found).1
  unfold lastStep Repository.withStepContext ContextStore.get?
  rw [faithful.latest.step found, faithful.latest.stepContext lookup, numbered]
  simp [lookup, numbered]

/-- The steps that are stored with an execution are those that have been added to it. -/
theorem mem_group {group : StepGroup}
    (current : session.repository.executions.get? id = some stored)
    (found : session.repository.steps.groups.get? id = some group) (step : StepExecution) :
    step ∈ group.values.map session.repository.withStepContext ↔
      ∃ stepId, AddedTo session.added stepId id ∧ session.lastStep stepId = some step := by
  simp only [List.mem_map, SortedMap.mem_values]
  constructor
  · rintro ⟨record, ⟨stepId, here⟩, rfl⟩
    have found := StepStore.get?_eq_some_iff.2 ⟨group, found, here⟩
    exact ⟨stepId, faithful.sound.traced.addedTo_of_step found, faithful.lastStep_of_found found⟩
  · rintro ⟨stepId, belongs, last⟩
    obtain ⟨record, here⟩ := faithful.lasting.steps current belongs
    obtain ⟨other, same, inside⟩ := StepStore.get?_eq_some_iff.1 here
    obtain rfl := Option.some.inj (found.symm.trans same)
    exact ⟨record, ⟨stepId, inside⟩,
      Option.some.inj ((faithful.lastStep_of_found here).symm.trans last)⟩

/-- A stored record is shown as it is put together. -/
theorem shows (found : session.repository.executions.get? id = some stored) :
    session.Shows id (session.repository.assembled stored) := by
  have traced := faithful.sound.traced
  have numbered := traced.consistent.executions.numbered found
  obtain ⟨filed, lookup⟩ := traced.contexts.present found
  obtain ⟨context, last, entries⟩ := faithful.latest.context lookup
  obtain ⟨record, written, same⟩ := faithful.latest.record found
  constructor
  case record =>
    refine ⟨record, written, ?_, fun untouched => ?_⟩
    · rw [same]
      rfl
    · have unsaved (stepId : StepExecutionId) : session.repository.steps.get? id stepId = none :=
        Option.eq_none_iff_forall_ne_some.2 fun step saved =>
          untouched stepId (traced.addedTo_of_step saved)
      change (session.repository.listedSteps stored).map _ = _
      rw [Repository.listedSteps_of_unsaved numbered unsaved, same]
  case context =>
    have filedContext : (session.repository.assembled stored).context = filed.context := by
      simp [Repository.assembled, Repository.withContext, ContextStore.get?, numbered, lookup]
    exact ⟨context, last, filedContext ▸ entries⟩
  case steps =>
    intro stepId belongs
    obtain ⟨step, here⟩ := faithful.lasting.steps found belongs
    rcases session.repository.listedSteps_cases numbered with
      ⟨group, -, -, lookup, -, shown⟩ | ⟨none, -⟩
    · have steps : (session.repository.assembled stored).steps =
          (group.values.map session.repository.withStepContext).reverse := by
        rw [← List.map_reverse]
        exact congrArg _ shown
      rw [steps]
      refine ⟨?_, fun step => List.mem_reverse.trans (faithful.mem_group found lookup step)⟩
      rw [← List.map_reverse, List.map_map]
      exact descending_values StepExecution.id fun here =>
        (traced.steps.numbered (StepStore.get?_eq_some_iff.2 ⟨group, lookup, here⟩)).1
    · rw [none stepId] at here
      contradiction

/-! ## The ways to find an execution -/

/-- What is read under a number is the record with this number. -/
theorem execution_eq_iff :
    session.repository.execution id = .ok (some read) ↔
      ∃ stored, session.repository.executions.get? id = some stored ∧
        session.repository.assembled stored = read := by
  rw [Repository.execution_eq faithful.sound.traced.consistent.executions.toNumbered]
  simp [Option.map_eq_some_iff]

private theorem descending_assembled (keep : JobExecution → Bool) :
    Descending ((((session.repository.executions.executions.values.filter keep).reverse).map
      session.repository.assembled).map (·.id)) := by
  have descending := descending_values JobExecution.id
    faithful.sound.traced.consistent.executions.numbered
  rw [List.map_map]
  exact descending.sublist (List.filter_sublist.reverse.map _)

private theorem mem_map_assembled {records : List JobExecution} {OfKind : JobExecution → Prop}
    (all : ∀ stored, stored ∈ records ↔
      (∃ id, session.repository.executions.get? id = some stored) ∧ OfKind stored)
    (same : ∀ stored, OfKind (session.repository.assembled stored) ↔ OfKind stored) :
    read ∈ records.map session.repository.assembled ↔
      ∃ id, session.repository.execution id = .ok (some read) ∧ OfKind read := by
  simp only [List.mem_map, all, faithful.execution_eq_iff]
  constructor
  · rintro ⟨stored, ⟨⟨id, found⟩, kind⟩, rfl⟩
    exact ⟨id, ⟨stored, found, rfl⟩, (same stored).2 kind⟩
  · rintro ⟨id, ⟨stored, found, rfl⟩, kind⟩
    exact ⟨stored, ⟨⟨id, found⟩, (same stored).1 kind⟩, rfl⟩

private theorem lastExecution_eq_iff (few : session.Few) (jobName : String)
    (parameters : JobParameters) :
    session.repository.lastExecution jobName parameters = .ok (some read) ↔
      ∃ id, session.repository.execution id = .ok (some read) ∧
        read.jobInstance.isFor jobName parameters = true := by
  have traced := faithful.sound.traced
  have bound := Nat.lt_of_le_of_lt traced.numbers.instances few.registers.1
  rw [Repository.lastExecution_eq traced.consistent.executions.toNumbered]
  simp only [faithful.execution_eq_iff, Except.ok.injEq, Option.map_eq_some_iff,
    Option.bind_eq_some_iff]
  constructor
  · rintro ⟨stored, ⟨known, isKnown, last⟩, rfl⟩
    obtain ⟨inside, isFor⟩ := InstanceStore.mem_of_get? isKnown
    rcases session.repository.executions.last?_cases known.id with
      ⟨-, nothing⟩ | ⟨other, member, isLast⟩
    · rw [nothing] at last
      contradiction
    · obtain rfl := Option.some.inj (isLast.symm.trans last)
      obtain ⟨⟨id, found⟩, same⟩ := ExecutionStore.mem_ofInstance.1 member
      have owner := traced.consistent.instances.eq_of_same_id bound
        (traced.consistent.belongs found) inside same
      exact ⟨id, ⟨other, found, rfl⟩, (congrArg (·.isFor jobName parameters) owner).trans isFor⟩
  · rintro ⟨id, ⟨stored, found, rfl⟩, isFor⟩
    refine ⟨stored, ⟨stored.jobInstance, ?_, ?_⟩, rfl⟩
    · exact traced.consistent.instances.get?_of_mem (traced.consistent.belongs found) isFor
    · have member := ExecutionStore.mem_ofInstance.2 ⟨⟨id, found⟩, rfl⟩
      rcases session.repository.executions.last?_cases stored.jobInstance.id with
        ⟨nothing, -⟩ | ⟨other, inside, isLast⟩
      · rw [nothing] at member
        exact absurd member List.not_mem_nil
      · obtain ⟨⟨otherId, lookup⟩, same⟩ := ExecutionStore.mem_ofInstance.1 inside
        obtain rfl := traced.consistent.executions.single lookup found same
        rw [isLast, ← lookup, found]

private theorem reassembles (few : session.Few) : session.Reassembles := by
  have traced := faithful.sound.traced
  have wellNumbered := traced.consistent.executions.toNumbered
  constructor
  case execution =>
    intro id known own still
    obtain ⟨stored, found⟩ := faithful.lasting.current own still
    exact ⟨_, faithful.execution_eq_iff.2 ⟨stored, found, rfl⟩, faithful.shows found⟩
  case evicted =>
    intro id evicted
    rw [Repository.execution_eq wellNumbered, faithful.lasting.evicted evicted]
    rfl
  case last =>
    intro jobName parameters
    exact ⟨⟨_, Repository.lastExecution_eq wellNumbered jobName parameters⟩,
      fun read => faithful.lastExecution_eq_iff few jobName parameters⟩
  case ofInstance =>
    intro known
    exact ⟨_, Repository.executionsOf_eq wellNumbered known, faithful.descending_assembled _,
      fun read => faithful.mem_map_assembled (fun _ => ExecutionStore.mem_ofInstance)
        fun _ => Iff.rfl⟩
  case running =>
    intro jobName
    exact ⟨_, Repository.runningExecutions_eq wellNumbered jobName,
      faithful.descending_assembled _,
      fun read => faithful.mem_map_assembled (fun _ => ExecutionStore.mem_running)
        fun _ => Iff.rfl⟩
  case step =>
    intro id known own still stepId step
    obtain ⟨stored, found⟩ := faithful.lasting.current own still
    constructor
    · intro isRead
      obtain ⟨record, here, rfl⟩ := Option.map_eq_some_iff.1 isRead
      exact ⟨traced.addedTo_of_step here, faithful.lastStep_of_found here⟩
    · rintro ⟨belongs, last⟩
      obtain ⟨record, here⟩ := faithful.lasting.steps found belongs
      rw [faithful.lastStep_of_found here] at last
      exact Option.map_eq_some_iff.2 ⟨record, here, Option.some.inj last⟩

end Faithful

/-- Reads are faithful in every session that clients reach. -/
theorem Reaches.faithful (reaches : Reaches Permitted .start session) (few : session.Few) :
    session.Faithful :=
  reaches.invariant few Faithful.start fun step few faithful => faithful.step step few

/-- The executions that have been created stay in the books. -/
theorem Reaches.created (reaches : Reaches Permitted session next) :
    ∃ more, next.created = session.created ++ more := by
  induction reaches with
  | refl => exact ⟨[], (List.append_nil _).symm⟩
  | tail _ step ih =>
    obtain ⟨more, before⟩ := ih
    cases step with
    | call now inHand =>
      rw [created_call, before, List.append_assoc]
      exact ⟨_, rfl⟩
    | _ => exact ⟨more, before⟩

/-- Whatever clients have done, the reads give what was written last; and an execution that has been
followed by another one of its instance is never read again. -/
theorem reads_reassemble (reaches : Reaches AnyEdit .start session) (few : session.Few) :
    session.Reassembles ∧
    ∀ id, Evicted session.created id → ∀ next, Reaches AnyEdit session next → next.Few →
      next.repository.execution id = .ok none := by
  refine ⟨(reaches.faithful few).reassembles few, fun id evicted next onward few => ?_⟩
  obtain ⟨more, created⟩ := onward.created
  have reaches : Reaches AnyEdit .start next := reaches.trans onward
  exact ((reaches.faithful few).reassembles few).evicted id
    (created ▸ evicted.append more)

/-- Of two executions, the first one is not read any more, however late its steps are written. -/
theorem reads_reassemble_lateWrites :
    Reaches AnyEdit .start lateWrites ∧ lateWrites.Few ∧ lateWrites.Reassembles ∧
      Evicted lateWrites.created ⟨1⟩ ∧
      ∀ next, Reaches AnyEdit lateWrites next → next.Few →
        next.repository.execution ⟨1⟩ = .ok none := by
  obtain ⟨reassembles, forever⟩ := reads_reassemble reaches_lateWrites few_lateWrites
  have evicted : Evicted lateWrites.created ⟨1⟩ :=
    ⟨[], _, _, rfl, rfl, _, List.mem_singleton.2 rfl, rfl⟩
  exact ⟨reaches_lateWrites, few_lateWrites, reassembles, evicted, forever ⟨1⟩ evicted⟩

/-! ## Steps that belong to another execution -/

/-- Two executions of different jobs, the first one with a step. -/
def neighbours : Session :=
  (opened.holdStep firstStep).call ⟨0, 0⟩ (.addStep firstStep)
    |>.call ⟨0, 0⟩ (.createExecution "export" .empty)

theorem reaches_neighbours : Reaches AnyEdit .start neighbours :=
  reaches_firstStep.call ⟨0, 0⟩ (.createExecution "export" .empty) trivial

theorem firstStepCopy_mem_neighbours : firstStepCopy ∈ neighbours.steps :=
  List.mem_append_left _ firstStepCopy_mem

/-- The second execution, with the step of the first one among its own. -/
def borrower : JobExecution :=
  { JobExecution.create ⟨0, 0⟩ (.of ⟨2⟩ "export" .empty) .empty with
    id := some ⟨2⟩, version := 1, lastUpdated := some ⟨0, 0⟩, steps := [firstStepCopy] }

/-- A client writes the second execution with the step of the first one. -/
def lending : Session := (neighbours.hold borrower).call ⟨0, 0⟩ (.update borrower)

theorem reaches_lending : Reaches AnyEdit .start lending := by
  have borrowed := reaches_neighbours.edit borrower
    (List.mem_append_right _ (List.mem_singleton.2 rfl)) ⟨rfl, rfl, rfl, rfl⟩
    (fun step member => List.mem_singleton.1 member ▸ firstStepCopy_mem_neighbours) trivial
  exact borrowed.call ⟨0, 0⟩ (.update borrower)
    (List.mem_append_right _ (List.mem_singleton.2 rfl))

private theorem firstStepCopy_mem_lending : firstStepCopy ∈ lending.steps :=
  List.mem_append_left _ firstStepCopy_mem_neighbours

/-- The step of the first execution with something in its context. -/
def markedStep : StepExecution :=
  { firstStepCopy with context := firstStepCopy.context.putValue "rows" (.bool true) }

/-- The context of the lent step is filed again. -/
def borrowing : Session :=
  (lending.holdStep markedStep).call ⟨0, 0⟩ (.updateStepContext markedStep)

theorem reaches_marked : Reaches AnyEdit .start (lending.holdStep markedStep) :=
  reaches_lending.tail (.editStep firstStepCopy_mem_lending ⟨rfl, rfl, rfl, rfl, rfl⟩)

private theorem reaches_borrowing : Reaches AnyEdit .start borrowing :=
  reaches_marked.call ⟨0, 0⟩ (.updateStepContext markedStep)
    (List.mem_append_right _ (List.mem_singleton.2 rfl))

theorem few_borrowing : borrowing.Few := (by decide : 5 < 2 ^ 64)

/-- Before a step has been added to an execution, its own steps are not read as they were
written. -/
theorem own_steps_not_as_written :
    ¬ ∀ session, Reaches AnyEdit .start session → session.Few → ∀ id read,
      session.repository.execution id = .ok (some read) →
      (∀ stepId, ¬ AddedTo session.added stepId id) →
      ∃ record, latest? (Writing.record? id) session.writings = some record ∧
        read.steps = record.steps := by
  intro asWritten
  have untouched : ∀ stepId, ¬ AddedTo borrowing.added stepId ⟨2⟩ := by
    rintro stepId ⟨record, member, -, same⟩
    obtain rfl := List.mem_singleton.1 member
    contradiction
  obtain ⟨record, latest, same⟩ :=
    asWritten borrowing reaches_borrowing few_borrowing ⟨2⟩ _ rfl untouched
  obtain rfl := Option.some.inj latest
  have contexts := congrArg (List.map fun step => step.context.entries.size) same
  exact absurd contexts (by decide : [1] ≠ [0])

end Session

end BatchRun
