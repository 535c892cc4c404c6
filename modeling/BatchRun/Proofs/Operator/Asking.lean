import BatchRun.Proofs.Repository.Changes
import BatchRun.Proofs.Operator

/-! # Asking steps to end

A stop goes through the steps that it has read. It asks those to end that run and have not been
asked before, and it breaks off at the first one of these whose copy is not current. Nothing but
these steps is written. If all copies are current and no two are of the same step, all are asked:
to write one step leaves the copies of the other ones current.
-/

namespace BatchRun

/-- The step runs and has not been asked to end. -/
def StepExecution.isDue (step : StepExecution) : Bool :=
  step.status.isRunning && !step.terminateOnly

/-- Two copies are of the same step. -/
def StepExecution.SameStep (one other : StepExecution) : Prop :=
  one.jobExecutionId = other.jobExecutionId ∧ one.id = other.id

instance (one other : StepExecution) : Decidable (one.SameStep other) :=
  inferInstanceAs (Decidable (_ ∧ _))

/-- The number of copies of a step in a list that are due. -/
def StepExecution.dueCopies (step : StepExecution) (steps : List StepExecution) : Nat :=
  steps.countP fun other => other.isDue && decide (other.SameStep step)

section

variable {step other : StepExecution} {rest : List StepExecution}

private theorem StepExecution.dueCopies_cons_of_settled (settled : other.isDue = false) :
    step.dueCopies (other :: rest) = step.dueCopies rest := by
  simp [dueCopies, settled]

private theorem StepExecution.dueCopies_cons_of_other (apart : ¬ other.SameStep step) :
    step.dueCopies (other :: rest) = step.dueCopies rest := by
  simp [dueCopies, apart]

private theorem StepExecution.dueCopies_cons_of_same (due : other.isDue = true)
    (same : other.SameStep step) : step.dueCopies (other :: rest) = step.dueCopies rest + 1 := by
  simp [dueCopies, due, same]

end

/-- The copy of a step comes with the version that the step has when all copies before it have been
written that are due. -/
def StepStore.InTurn (store : StepStore) (settled : List StepExecution) (step : StepExecution) :
    Prop :=
  ∃ id stored, step.id = some id ∧ store.get? step.jobExecutionId id = some stored ∧
    step.version = stored.version + .ofNat (step.dueCopies settled)

/-- A current copy of another step than the written one stays current. -/
theorem StepStore.IsCurrent.withStep {store : StepStore} {given step : StepExecution}
    {id : StepExecutionId} (current : store.IsCurrent given) (numbered : step.id = some id)
    (apart : ¬ step.SameStep given) : (store.withStep id step).IsCurrent given := by
  obtain ⟨other, stored, numberedGiven, found, version⟩ := current
  refine ⟨other, stored, numberedGiven, ?_, version⟩
  rw [get?_withStep, if_neg]
  · exact found
  · rintro ⟨sameExecution, rfl⟩
    exact apart ⟨sameExecution.symm, numbered.trans numberedGiven.symm⟩

/-- To write a stored step leaves the places at which steps are stored. -/
theorem StepStore.isSome_withStep {store : StepStore} {step stored : StepExecution}
    {execution : JobExecutionId} {id other : StepExecutionId}
    (found : store.get? step.jobExecutionId id = some stored) :
    ((store.withStep id step).get? execution other).isSome =
      (store.get? execution other).isSome := by
  rw [get?_withStep]
  split
  · rename_i same
    rw [same.1, same.2, found]
    rfl
  · rfl

namespace Repository

/-- The steps of the list that are due have been asked to end one after the other. -/
inductive Asks : Repository → List StepExecution → Repository → Prop
  | nil (repository : Repository) : Asks repository [] repository
  | pass {before after : Repository} {step : StepExecution} {rest : List StepExecution}
      (settled : step.isDue = false) (asks : Asks before rest after) :
      Asks before (step :: rest) after
  | ask {before after : Repository} {step : StepExecution} {rest : List StepExecution}
      {id : StepExecutionId} (now : Timestamp) (due : step.isDue = true)
      (numbered : step.id = some id) (current : before.steps.IsCurrent step)
      (asks : Asks (before.withWrittenStep now id step.askToEnd) rest after) :
      Asks before (step :: rest) after

/-- The steps up to one of the list have been asked to end, and that one is due and its copy is not
current. -/
def BreaksOff (before : Repository) (steps : List StepExecution) (after : Repository) : Prop :=
  ∃ settled step rest, steps = settled ++ step :: rest ∧ Asks before settled after ∧
    step.isDue = true ∧ ¬ after.steps.IsCurrent step

variable {before after : Repository} {step : StepExecution} {steps rest : List StepExecution}
  {execution : JobExecutionId} {id : StepExecutionId}

namespace Asks

/-- Only steps are written, and no number is given. -/
theorem frame (asks : Asks before steps after) :
    after.instances = before.instances ∧ after.executions = before.executions ∧
      after.contexts = before.contexts ∧ after.steps.lastId = before.steps.lastId := by
  induction asks with
  | nil => exact ⟨rfl, rfl, rfl, rfl⟩
  | pass settled asks ih => exact ih
  | ask now due numbered current asks ih => exact ih

/-- The same executions have groups as before. -/
theorem isSome_group (asks : Asks before steps after) :
    (after.steps.groups.get? execution).isSome = (before.steps.groups.get? execution).isSome := by
  induction asks with
  | nil => rfl
  | pass settled asks ih => exact ih
  | ask now due numbered current asks ih =>
    obtain ⟨_, stored, _, found, -⟩ := current
    obtain ⟨group, lookup, -⟩ := StepStore.get?_eq_some_iff.1 found
    rw [ih]
    refine (congrArg Option.isSome StepStore.groups_withStep).trans ?_
    split
    · rename_i same
      obtain rfl : execution = _ := same
      exact (congrArg Option.isSome lookup).symm
    · rfl

/-- If no step is due, nothing is written. -/
theorem eq_of_settled (asks : Asks before steps after)
    (settled : ∀ step ∈ steps, step.isDue = false) : after = before := by
  induction asks with
  | nil => rfl
  | pass _ asks ih => exact ih fun step member => settled step (List.mem_cons_of_mem _ member)
  | ask now due =>
    rw [settled _ (List.mem_cons_self ..)] at due
    contradiction

/-- A step that none of the copies is of stays as it is. -/
theorem get?_of_other (asks : Asks before steps after)
    (others : ∀ step ∈ steps, step.jobExecutionId = execution → step.id ≠ some id) :
    after.steps.get? execution id = before.steps.get? execution id := by
  induction asks with
  | nil => rfl
  | pass settled asks ih => exact ih fun step member => others step (List.mem_cons_of_mem _ member)
  | ask now due numbered current asks ih =>
    rw [ih fun step member => others step (List.mem_cons_of_mem _ member)]
    refine StepStore.get?_withStep.trans (if_neg ?_)
    rintro ⟨rfl, rfl⟩
    exact others _ (List.mem_cons_self ..) rfl numbered

/-- A step that is not due stays as it is, if no two copies are of the same step. -/
theorem get?_of_settled (asks : Asks before steps after) (member : step ∈ steps)
    (apart : steps.Pairwise fun one other => ¬ one.SameStep other) (numbered : step.id = some id)
    (settled : step.isDue = false) :
    after.steps.get? step.jobExecutionId id = before.steps.get? step.jobExecutionId id := by
  induction asks with
  | nil => exact absurd member List.not_mem_nil
  | @pass before after first rest _ asks ih =>
    obtain ⟨others, apart⟩ := List.pairwise_cons.1 apart
    rcases List.mem_cons.1 member with rfl | inRest
    · exact asks.get?_of_other fun other member same numberedOther =>
        others other member ⟨same.symm, numbered.trans numberedOther.symm⟩
    · exact ih inRest apart
  | @ask before after first rest key now due numberedFirst current asks ih =>
    obtain ⟨others, apart⟩ := List.pairwise_cons.1 apart
    rcases List.mem_cons.1 member with rfl | inRest
    · rw [due] at settled
      contradiction
    · rw [ih inRest apart]
      refine StepStore.get?_withStep.trans (if_neg ?_)
      rintro ⟨same, rfl⟩
      exact others step inRest ⟨same.symm, numberedFirst.trans numbered.symm⟩

/-- A step that is due is written from its copy, if no two copies are of the same step. -/
theorem get?_of_due (asks : Asks before steps after) (member : step ∈ steps)
    (apart : steps.Pairwise fun one other => ¬ one.SameStep other) (numbered : step.id = some id)
    (due : step.isDue = true) :
    ∃ now, after.steps.get? step.jobExecutionId id = some (writtenStep now step.askToEnd) := by
  induction asks with
  | nil => exact absurd member List.not_mem_nil
  | @pass before after first rest settled asks ih =>
    rcases List.mem_cons.1 member with rfl | inRest
    · rw [due] at settled
      contradiction
    · exact ih inRest (List.pairwise_cons.1 apart).2
  | @ask before after first rest key now _ numberedFirst current asks ih =>
    obtain ⟨others, apart⟩ := List.pairwise_cons.1 apart
    rcases List.mem_cons.1 member with rfl | inRest
    · obtain rfl := Option.some.inj (numberedFirst.symm.trans numbered)
      refine ⟨now, ?_⟩
      rw [asks.get?_of_other fun other member same numberedOther =>
        others other member ⟨same.symm, numbered.trans numberedOther.symm⟩]
      exact StepStore.get?_withStep.trans (if_pos ⟨rfl, rfl⟩)
    · exact ih inRest apart

/-- The same steps are stored as before. -/
theorem isSome_get? (asks : Asks before steps after) :
    (after.steps.get? execution id).isSome = (before.steps.get? execution id).isSome := by
  induction asks with
  | nil => rfl
  | pass settled asks ih => exact ih
  | @ask before after first rest key now due numbered current asks ih =>
    obtain ⟨other, stored, numberedOther, found, -⟩ := current
    obtain rfl := Option.some.inj (numbered.symm.trans numberedOther)
    exact ih.trans (@StepStore.isSome_withStep before.steps (writtenStep now first.askToEnd) stored
      execution key id found)

/-- A step has been written once for each copy that was due. -/
theorem version (asks : Asks before steps after) {stored : StepExecution}
    (numbered : step.id = some id)
    (found : before.steps.get? step.jobExecutionId id = some stored) :
    ∃ later, after.steps.get? step.jobExecutionId id = some later ∧
      later.version = stored.version + .ofNat (step.dueCopies steps) := by
  induction asks generalizing stored with
  | nil => exact ⟨stored, found, (UInt64.add_zero _).symm⟩
  | pass settled asks ih =>
    rw [StepExecution.dueCopies_cons_of_settled settled]
    exact ih found
  | @ask before after first rest key now due numberedFirst current asks ih =>
    by_cases same : first.SameStep step
    · obtain ⟨other, record, numberedOther, here, version⟩ := current
      obtain rfl := Option.some.inj (numberedFirst.symm.trans numberedOther)
      obtain rfl := Option.some.inj ((same.2.symm.trans numberedFirst).symm.trans numbered)
      rw [same.1, found] at here
      obtain rfl := Option.some.inj here
      obtain ⟨later, there, counted⟩ :=
        ih (StepStore.get?_withStep.trans (if_pos ⟨same.1.symm, rfl⟩))
      refine ⟨later, there, counted.trans ?_⟩
      change first.version + 1 + _ = _
      rw [StepExecution.dueCopies_cons_of_same due same, version, UInt64.ofNat_add,
        UInt64.add_assoc, UInt64.add_comm 1]
      rfl
    · rw [StepExecution.dueCopies_cons_of_other same]
      refine ih (StepStore.get?_withStep.trans ((if_neg ?_).trans found))
      rintro ⟨sameExecution, rfl⟩
      exact same ⟨sameExecution.symm, numberedFirst.trans numbered.symm⟩

/-- A copy is current afterwards exactly if it was its turn. -/
theorem isCurrent_iff (asks : Asks before steps after) :
    after.steps.IsCurrent step ↔ before.steps.InTurn steps step := by
  constructor
  · rintro ⟨id, later, numbered, there, current⟩
    have present : (before.steps.get? step.jobExecutionId id).isSome = true := by
      rw [← asks.isSome_get?, there]
      rfl
    obtain ⟨stored, found⟩ := Option.isSome_iff_exists.1 present
    obtain ⟨record, here, version⟩ := asks.version numbered found
    obtain rfl := Option.some.inj (there.symm.trans here)
    exact ⟨id, stored, numbered, found, current.symm.trans version⟩
  · rintro ⟨id, stored, numbered, found, turn⟩
    obtain ⟨later, there, version⟩ := asks.version numbered found
    exact ⟨id, later, numbered, there, version.trans turn.symm⟩

/-- The steps are asked in the order of the list. -/
theorem split {first : List StepExecution} (asks : Asks before (first ++ rest) after) :
    ∃ between, Asks before first between ∧ Asks between rest after := by
  induction first generalizing before with
  | nil => exact ⟨before, .nil _, asks⟩
  | cons step first ih =>
    cases asks with
    | pass settled asks =>
      obtain ⟨between, former, latter⟩ := ih asks
      exact ⟨between, former.pass settled, latter⟩
    | ask now due numbered current asks =>
      obtain ⟨between, former, latter⟩ := ih asks
      exact ⟨between, .ask now due numbered current former, latter⟩

/-- If all have been asked that were due, the copy of each of them came in its turn. -/
theorem inTurn {settled : List StepExecution} (asks : Asks before (settled ++ step :: rest) after)
    (due : step.isDue = true) : before.steps.InTurn settled step := by
  obtain ⟨between, former, latter⟩ := asks.split
  cases latter with
  | pass isSettled =>
    rw [due] at isSettled
    contradiction
  | ask now _ numbered current => exact former.isCurrent_iff.1 current

/-- A current copy of another step than those that have been asked is still current. -/
theorem isCurrent (asks : Asks before steps after) (current : before.steps.IsCurrent step)
    (others : ∀ other ∈ steps, ¬ other.SameStep step) : after.steps.IsCurrent step := by
  induction asks with
  | nil => exact current
  | pass settled asks ih =>
    exact ih current fun other member => others other (List.mem_cons_of_mem _ member)
  | @ask before after first rest key now due numbered _ asks ih =>
    have apart : ¬ first.SameStep step := others first (List.mem_cons_self ..)
    exact ih (current.withStep numbered apart) fun other member =>
      others other (List.mem_cons_of_mem _ member)

end Asks

/-- Copies that are current and of different steps are asked one and all. -/
theorem not_breaksOff (current : ∀ step ∈ steps, before.steps.IsCurrent step)
    (apart : steps.Pairwise fun one other => ¬ one.SameStep other) :
    ¬ BreaksOff before steps after := by
  rintro ⟨settled, step, rest, rfl, asks, due, outdated⟩
  obtain ⟨-, -, others⟩ := List.pairwise_append.1 apart
  have member : step ∈ settled ++ step :: rest := by simp
  exact outdated (asks.isCurrent (current step member)
    fun other inside => others other inside step (List.mem_cons_self ..))

/-- The steps of a group are shown by current copies, each of them once. -/
theorem current_of_group {group : StepGroup} (placed : before.steps.Placed)
    (found : before.steps.groups.get? execution = some group) :
    (∀ step ∈ group.values.reverse.map before.withStepContext, before.steps.IsCurrent step) ∧
      (group.values.reverse.map before.withStepContext).Pairwise fun one other =>
        ¬ one.SameStep other := by
  have stored {id : StepExecutionId} {step : StepExecution} (here : group.get? id = some step) :
      before.steps.get? execution id = some step :=
    StepStore.get?_eq_some_iff.2 ⟨group, found, here⟩
  constructor
  · intro step member
    obtain ⟨shown, inside, rfl⟩ := List.mem_map.1 member
    obtain ⟨id, here⟩ := SortedMap.mem_values.1 (List.mem_reverse.1 inside)
    obtain ⟨numbered, owner⟩ := placed (stored here)
    exact ⟨id, shown, numbered, (congrArg (before.steps.get? · id) owner).trans (stored here), rfl⟩
  · refine List.pairwise_map.2 (List.pairwise_reverse.2 (SortedMap.pairwise_values ?_))
    rintro first second one other here there below ⟨-, same⟩
    obtain ⟨numbered, -⟩ := placed (stored here)
    obtain ⟨numberedOther, -⟩ := placed (stored there)
    obtain rfl := Option.some.inj (numbered.symm.trans (same.symm.trans numberedOther))
    rw [Std.ReflOrd.compare_self] at below
    contradiction

end Repository

namespace Operator

open Repository (Asks BreaksOff)

variable {behaviour : Behaviour} {world : World}

/-- All steps of a list are asked to end that are due, or the stop breaks off. -/
theorem run_askStepsToEnd_cases (steps : List StepExecution) :
    (∃ after, (askStepsToEnd steps : Program _).run behaviour world = (.ok (), after) ∧
      Asks world.repository steps after.repository) ∨
    ∃ error after, (askStepsToEnd steps : Program _).run behaviour world = (.error error, after) ∧
      BreaksOff world.repository steps after.repository := by
  induction steps generalizing world with
  | nil => exact .inl ⟨world, rfl, .nil _⟩
  | cons step rest ih =>
    have passed : (!step.status.isRunning || step.terminateOnly) = !step.isDue := by
      simp [StepExecution.isDue]
    unfold askStepsToEnd
    rw [passed]
    cases due : step.isDue with
    | false =>
      rcases @ih world with
        ⟨after, ran, asks⟩ | ⟨error, after, ran, settled, next, others, rfl, asks, blocked⟩
      · exact .inl ⟨after, ran, asks.pass due⟩
      · exact .inr ⟨error, after, ran, step :: settled, next, others, rfl, asks.pass due, blocked⟩
    | true =>
      simp only [Bool.not_true, Bool.false_eq_true, if_false, Program.run_bind,
        Program.run_updateStep]
      rcases world.repository.updateStep_cases world.moment step.askToEnd with
        ⟨id, stored, terminateOnly, numbered, found, current, written⟩ | ⟨outdated, error, refused⟩
      · rw [written]
        have isCurrent : world.repository.steps.IsCurrent step :=
          ⟨id, stored, numbered, found, current⟩
        rcases @ih (world.tick (world.repository.withWrittenStep world.moment id step.askToEnd))
          with ⟨after, ran, asks⟩ | ⟨error, after, ran, settled, next, others, rfl, asks, blocked⟩
        · exact .inl ⟨after, ran, .ask _ due numbered isCurrent asks⟩
        · exact .inr ⟨error, after, ran, step :: settled, next, others, rfl,
            .ask _ due numbered isCurrent asks, blocked⟩
      · rw [refused]
        exact .inr ⟨_, _, rfl, [], step, rest, rfl, .nil _, due, outdated⟩

end Operator

end BatchRun
