import BatchRun.Proofs.Launch.Outages

/-! # What a launch carries on

From its claim up to the write that ends the execution, a launch passes a copy on that answers have
handed out, changed in a way that does not end the execution. Writes and refreshments that fail
leave the copy as it is, and the body leaves a running one. So when the launch comes to end its
execution, that is stored and running.
-/

namespace BatchRun

open Run

variable {around : Circumstances} {trial : Trial} {id : JobExecutionId}
  {copy : JobExecution}

/-- A launch has a copy of an execution in hand that is underway. -/
structure Trial.Carries (trial : Trial) (id : JobExecutionId) (copy : JobExecution) : Prop where
  underway : trial.session.Underway id
  own : copy.id = some id
  running : copy.isRunning = true
  origin : ∃ original ∈ trial.session.executions, copy.EditOf original ∧
    copy.steps = original.steps

namespace Trial.Carries

theorem of_mem (underway : trial.session.Underway id) (inHand : copy ∈ trial.session.executions)
    (own : copy.id = some id) : trial.Carries id copy :=
  ⟨underway, own, underway.held copy inHand own, copy, inHand, ⟨rfl, rfl, rfl, rfl⟩, rfl⟩

/-- The launch changes its copy, and does not end the execution. -/
theorem edit {edited : JobExecution} (carries : trial.Carries id copy)
    (same : edited.EditOf copy) (steps : edited.steps = copy.steps)
    (running : edited.isRunning = true) : trial.Carries id edited := by
  obtain ⟨original, inHand, edit, own⟩ := carries.origin
  refine ⟨carries.underway, same.id.trans carries.own, running, original, inHand, ?_,
    steps.trans own⟩
  exact ⟨same.id.trans edit.id, same.version.trans edit.version,
    same.jobInstance.trans edit.jobInstance, same.parameters.trans edit.parameters⟩

/-- The copy goes into a call. -/
theorem hold (carries : trial.Carries id copy) (few : trial.session.Few) :
    (trial.session.hold copy).Underway id := by
  obtain ⟨original, inHand, edit, own⟩ := carries.origin
  refine carries.underway.step (.edit inHand edit ?_ fun _ _ => carries.running) few
  intro step member
  exact carries.underway.sound.inside original inHand step (own ▸ member)

theorem note (carries : trial.Carries id copy) (deed : Deed) : (trial.note deed).Carries id copy :=
  ⟨carries.underway, carries.own, carries.running, carries.origin⟩

theorem tick (carries : trial.Carries id copy) (ticks : Nat) :
    Carries { trial with ticks } id copy :=
  ⟨carries.underway, carries.own, carries.running, carries.origin⟩

private theorem mem_hold : copy ∈ (trial.session.hold copy).executions :=
  List.mem_append_right _ (List.mem_singleton.2 rfl)

/-- The launch writes its copy. Whether that works or not, the execution goes on. -/
theorem update (carries : trial.Carries id copy) (leaves : around.LeavesRunning)
    (few : (trial.answer around (.request (.update copy))).2.session.Few) :
    ∃ written after, trial.answer around (.request (.update copy)) = (written, after) ∧
      after.deeds = trial.deeds ++ [.wrote copy written.result] ∧
      after.Carries id written.copy := by
  have fewBefore := Trial.few_of_answer leaves few
  simp only [Trial.answer] at few ⊢
  cases planned : around.outage? trial.calls with
  | some error => exact ⟨_, _, rfl, rfl, carries.note _⟩
  | none =>
    obtain ⟨stored, found, -⟩ := carries.underway.stored
    rw [planned] at few
    have updated := Repository.update_of_record (around.clock trial.ticks) carries.own found
    refine ⟨_, _, rfl, rfl, Carries.note (.of_mem ?_ ?_ ?_) _⟩
    · exact (carries.hold fewBefore).call mem_hold few
    · exact List.mem_append_right _ (List.mem_singleton.2 rfl)
    · exact (congrArg (·.1.copy.id) updated).trans carries.own

/-- The launch refreshes its copy. Whether that works or not, the execution goes on. -/
theorem synchronize (carries : trial.Carries id copy) (leaves : around.LeavesRunning)
    (few : (trial.answer around (.request (.synchronize copy))).2.session.Few) :
    ∃ refreshed after, trial.answer around (.request (.synchronize copy)) = (refreshed, after) ∧
      after.deeds = trial.deeds ++ [.refreshed refreshed.result] ∧
      after.Carries id refreshed.copy := by
  have fewBefore := Trial.few_of_answer leaves few
  simp only [Trial.answer] at few ⊢
  cases planned : around.outage? trial.calls with
  | some error => exact ⟨_, _, rfl, rfl, carries.note _⟩
  | none =>
    obtain ⟨stored, found, -⟩ := carries.underway.stored
    rw [planned] at few
    have refreshed := Repository.synchronize_of_record carries.own found
    refine ⟨_, _, rfl, rfl, Carries.note (.of_mem ?_ ?_ ?_) _⟩
    · exact (carries.hold fewBefore).call mem_hold few
    · exact List.mem_append_right _ (List.mem_singleton.2 rfl)
    · exact (congrArg (·.copy.id) refreshed).trans carries.own

/-- The body is run. -/
theorem invoke (carries : trial.Carries id copy) (leaves : around.LeavesRunning)
    (few : (trial.answer around (.invoke copy)).2.session.Few) :
    ∃ ending left after, trial.answer around (.invoke copy) = ((ending, left), after) ∧
      after.deeds = trial.deeds ++ [.ranBody] ∧ after.Carries id left := by
  have underway := carries.hold (Trial.few_of_answer leaves few)
  have reaches := leaves.reaches trial.runs underway.sound mem_hold
  obtain ⟨inHand, own⟩ := leaves.left trial.runs underway.sound mem_hold
  rw [carries.own] at reaches own
  let after := (around.body trial.runs copy (trial.session.hold copy)).2
  have still : Carries { trial with session := after } id _ :=
    .of_mem (underway.reaches reaches few) inHand own
  exact ⟨_, _, _, rfl, rfl, still.note _⟩

end Trial.Carries

namespace Launch

variable {settings : JobSettings} {policy : RetryPolicy}

private theorem runAmid_attempt (number : UInt32) (carries : trial.Carries id copy)
    (leaves : around.LeavesRunning)
    (few : (((attempt settings.job number).run copy : Program _).runAmid around
      trial).2.session.Few) :
    ∃ result left after,
      ((attempt settings.job number).run copy : Program _).runAmid around trial =
        ((result, left), after) ∧
      after.deeds = trial.deeds ++ [.ranBody] ∧ after.Carries id left := by
  have begun : trial.Carries id { copy with exitStatus := .executing } :=
    carries.edit ⟨rfl, rfl, rfl, rfl⟩ rfl carries.running
  obtain ⟨ending, left, after, answered, deeds, still⟩ :=
    begun.invoke leaves (Program.few_of_runAmid leaves _ few)
  change ∃ result left after, (Program.invoke { copy with exitStatus := .executing } >>= _ :
    Program _).runAmid around trial = ((result, left), after) ∧ _
  rw [Program.runAmid_bind, Program.runAmid_invoke, answered]
  cases failed : ending.failure? with
  | none =>
    simp only [failed]
    exact ⟨_, _, _, rfl, deeds, still⟩
  | some failure =>
    simp only [failed]
    exact ⟨_, _, _, rfl, deeds, still.edit ⟨rfl, rfl, rfl, rfl⟩ rfl still.running⟩

private theorem runAmid_attemptFrom (number : UInt32) (carries : trial.Carries id copy)
    (leaves : around.LeavesRunning)
    (few : (((Retry.attemptFrom (fun delay => StateT.lift (MonadRepository.pause delay)) policy
      (attempt settings.job) number).run copy : Program _).runAmid around trial).2.session.Few) :
    ∃ result left after count,
      ((Retry.attemptFrom (fun delay => StateT.lift (MonadRepository.pause delay)) policy
        (attempt settings.job) number).run copy : Program _).runAmid around trial =
          ((result, left), after) ∧
      after.deeds = trial.deeds ++ List.replicate count .ranBody ∧ after.Carries id left := by
  induction number using Retry.attemptFrom.induct policy generalizing copy trial with
  | case1 number ih =>
    rw [Retry.attemptFrom, StateT.run_bind, Program.runAmid_bind] at few ⊢
    obtain ⟨result, left, after, ran, deeds, still⟩ :=
      runAmid_attempt number carries leaves (Program.few_of_runAmid leaves _ few)
    rw [ran] at few ⊢
    cases result with
    | ok value => exact ⟨_, _, _, 1, rfl, deeds, still⟩
    | error failure =>
      by_cases allowed : policy.allowsAfter number = true
      · simp only [allowed, dite_true] at few ⊢
        obtain ⟨result, last, reached, count, went, more, carries⟩ := ih allowed still few
        refine ⟨result, last, reached, count + 1, went, ?_, carries⟩
        rw [more, deeds, List.append_assoc, List.replicate_succ]
        rfl
      · simp only [allowed]
        exact ⟨_, _, _, 1, rfl, deeds, still⟩

/-- Up to the end of the attempts nothing happens but runs of the body. -/
theorem runAmid_attempts (settings : JobSettings) (policy : RetryPolicy)
    (carries : trial.Carries id copy) (leaves : around.LeavesRunning)
    (few : ((attempts settings.job policy copy : Program _).runAmid around
      trial).2.session.Few) :
    ∃ result left after count,
      (attempts settings.job policy copy : Program _).runAmid around trial =
        ((result, left), after) ∧
      after.deeds = trial.deeds ++ List.replicate count .ranBody ∧ after.Carries id left :=
  runAmid_attemptFrom 1 carries leaves few

private theorem carries_of_created {jobName : String} {parameters : JobParameters}
    {execution : JobExecution} {after : Trial} (sound : trial.session.Sound)
    (few : after.session.Few)
    (answered : trial.call around (.createExecution jobName parameters) = (.ok execution, after)) :
    execution.status = .starting ∧ ∃ id, after.Carries id execution := by
  have result : (trial.session.repository.answer (around.clock trial.ticks)
      (.createExecution jobName parameters)).1 = .ok execution := congrArg Prod.fst answered
  obtain rfl := congrArg Prod.snd answered
  cases created : trial.session.repository.createExecution (around.clock trial.ticks) jobName
      parameters with
  | error error =>
    rw [Repository.answer_of_not_created created] at result
    exact absurd result nofun
  | ok made =>
    obtain ⟨given, after⟩ := made
    rw [Repository.answer_of_created created] at result
    obtain rfl := Except.ok.inj result
    obtain ⟨-, record, -, same, -, -, -, starting, -⟩ := Repository.record_of_created created
    obtain ⟨id, own, underway⟩ := sound.underway_of_created few created
    refine ⟨same ▸ starting, id, .of_mem underway (List.mem_append_right _ ?_) own⟩
    change _ ∈ Request.copies _ (trial.session.repository.answer _ _).1
    rw [Repository.answer_of_created created]
    exact List.mem_singleton.2 rfl

/-- A launch that gets past its claim has an execution in hand that is underway. -/
theorem carries_of_claim {settings : JobSettings} {parameters : JobParameters}
    {execution : JobExecution} {claimed : Trial} (sound : trial.session.Sound)
    (few : claimed.session.Few)
    (granted : (claim settings.job parameters : Program _).runAmid around trial =
      (.ok execution, claimed)) :
    claimed.deeds = trial.deeds ∧ execution.status = .starting ∧
      ∃ id, claimed.Carries id execution := by
  have refused {error : LaunchError} {after : Trial} : ¬ (pure (.error error) :
      Program LaunchOutcome).runAmid around after = (.ok execution, claimed) :=
    fun same => absurd (congrArg Prod.fst same) nofun
  unfold claim at granted
  cases checked : checkParameters settings.job parameters with
  | error error => exact absurd (checked ▸ granted) refused
  | ok =>
    rw [checked] at granted
    dsimp only at granted
    rw [Program.runAmid_bind, Program.runAmid_lastExecution] at granted
    generalize read : trial.call around (.lastExecution settings.job.name parameters) = looked
      at granted
    obtain ⟨last, looked⟩ := looked
    cases last with
    | error error => exact absurd granted refused
    | ok last =>
      dsimp only at granted
      cases allowed : checkLast settings.job parameters last with
      | error error => exact absurd (allowed ▸ granted) refused
      | ok =>
        rw [allowed] at granted
        dsimp only at granted
        rw [Program.runAmid_bind, Program.runAmid_createExecution] at granted
        generalize made : looked.call around (.createExecution settings.job.name parameters) =
          answered at granted
        obtain ⟨answer, after⟩ := answered
        cases answer with
        | error error => exact absurd granted refused
        | ok given =>
          obtain ⟨same, rfl⟩ := Prod.mk.inj granted
          obtain rfl := Except.ok.inj same
          have fewLooked : looked.session.Few := Trial.few_of_call _ (congrArg Prod.snd made ▸ few)
          have soundLooked : looked.session.Sound := by
            obtain rfl := congrArg Prod.snd read
            exact sound.call trivial fewLooked
          have kept : after.deeds = trial.deeds :=
            (congrArg (·.2.deeds) made).symm.trans (congrArg (·.2.deeds) read).symm
          exact ⟨kept, carries_of_created soundLooked few made⟩

end Launch

end BatchRun
