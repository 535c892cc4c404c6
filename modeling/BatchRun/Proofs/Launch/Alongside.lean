import BatchRun.Proofs.Interleaving.System
import BatchRun.Proofs.Launch.Admission
import BatchRun.Proofs.Repository.Outlines

/-! # Two launches side by side

The same launch is run in two worlds whose repositories are the same in outline. The clocks may show
different moments, and the bodies may leave different copies, as long as these are the same in
outline and a body ends in the same way in both worlds. Then the launch does the same in both: what
it does next depends on outlines only.
-/

namespace BatchRun

open Run

/-- The books are the same in outline, and the body has been invoked equally often. -/
structure World.SameOutline (world twin : World) : Prop where
  repository : world.repository.outline = twin.repository.outline
  invoked : world.invoked.length = twin.invoked.length

/-- Run in two worlds that are the same in outline, two programs give results that are related and
leave worlds that are the same in outline. -/
def Program.Alongside {α β : Type} (behaviour twin : Behaviour) (Related : α → β → Prop)
    (program : Program α) (other : Program β) : Prop :=
  ∀ world copy : World, world.SameOutline copy →
    Related (program.run behaviour world).1 (other.run twin copy).1 ∧
      (program.run behaviour world).2.SameOutline (other.run twin copy).2

/-- The body has ended in the same way, and it has left copies that are the same in outline. -/
structure SameEnd (first second : BodyEnd × JobExecution) : Prop where
  ending : first.1 = second.1
  left : first.2.outline = second.2.outline

/-- One body does in the one world what the other one does in the other. -/
def Behaviour.Alongside (behaviour twin : Behaviour) : Prop :=
  ∀ given copy, given.outline = copy.outline →
    (Program.invoke given).Alongside behaviour twin SameEnd (Program.invoke copy)

namespace Program.Alongside

variable {α β γ δ : Type} {behaviour twin : Behaviour} {Related : α → β → Prop}
  {Further : γ → δ → Prop} {program : Program α} {other : Program β}

theorem done {value : α} {result : β} (related : Related value result) :
    (Program.done value).Alongside behaviour twin Related (.done result) :=
  fun _ _ same => ⟨related, same⟩

/-- Programs that go on side by side where others have ended side by side. -/
theorem bind {rest : α → Program γ} {otherRest : β → Program δ}
    (alongside : program.Alongside behaviour twin Related other)
    (goesOn : ∀ value result, Related value result →
      (rest value).Alongside behaviour twin Further (otherRest result)) :
    (program >>= rest).Alongside behaviour twin Further (other >>= otherRest) := by
  intro world copy same
  obtain ⟨related, after⟩ := alongside world copy same
  rw [run_bind, run_bind]
  exact goesOn _ _ related _ _ after

/-- Programs that look at the clock and go on side by side, whatever it shows. -/
theorem now {rest : Timestamp → Program γ} {otherRest : Timestamp → Program δ}
    (goesOn : ∀ moment other, (rest moment).Alongside behaviour twin Further (otherRest other)) :
    ((MonadRepository.now : Program _) >>= rest).Alongside behaviour twin Further
      (MonadRepository.now >>= otherRest) := by
  have looks : (MonadRepository.now : Program _).Alongside behaviour twin (fun _ _ => True)
      MonadRepository.now := fun _ _ same => ⟨trivial, same.repository, same.invoked⟩
  exact looks.bind fun moment other _ => goesOn moment other

theorem pause {duration : Duration} {rest : Unit → Program γ} {otherRest : Unit → Program δ}
    (goesOn : (rest ()).Alongside behaviour twin Further (otherRest ())) :
    (MonadRepository.pause duration >>= rest).Alongside behaviour twin Further
      (MonadRepository.pause duration >>= otherRest) := fun _ _ same => goesOn _ _ same

end Program.Alongside

namespace Launch

variable {behaviour twin : Behaviour} {given copy : JobExecution} {settings : JobSettings}

open Repository (SameWritten)

/-- What a part of a launch goes on with is the same in outline, with the same result. -/
private def SameLeft {ε : Type} (first second : ε × JobExecution) : Prop :=
  first.1 = second.1 ∧ first.2.outline = second.2.outline

private theorem alongside_update (copies : given.outline = copy.outline) :
    (Calls.update given : Program _).Alongside behaviour twin SameWritten (Calls.update copy) := by
  intro world other same
  obtain ⟨written, after⟩ := Repository.update_of_outline same.repository copies
  exact ⟨written, after, same.invoked⟩

private theorem alongside_updatePersistently (more : Nat) (copies : given.outline = copy.outline) :
    (Calls.updatePersistently more given : Program _).Alongside behaviour twin SameWritten
      (Calls.updatePersistently more copy) := by
  induction more generalizing given copy with
  | zero => exact alongside_update copies
  | succ more ih =>
    refine (alongside_update copies).bind ?_
    rintro ⟨result, left⟩ ⟨_, otherLeft⟩ ⟨rfl, lefts⟩
    cases result with
    | ok => exact .done ⟨rfl, lefts⟩
    | error error =>
      dsimp only
      split
      · exact ih lefts
      · exact .done ⟨rfl, lefts⟩

private theorem alongside_writeFailed {text otherText : String} {α : Type}
    {rest otherRest : Written JobExecution → Program α}
    (copies : given.outline = copy.outline)
    (ends : ∀ written other, (rest written).Alongside behaviour twin (fun _ _ => True)
      (otherRest other)) :
    (MonadRepository.now >>= fun moment => writeTerminal ({ given.upgradeStatus .failed with
        exitStatus := ExitStatus.failed.describe text, endTime := some moment }.addFailure text) >>=
      rest : Program α).Alongside behaviour twin (fun _ _ => True)
    (MonadRepository.now >>= fun moment => writeTerminal ({ copy.upgradeStatus .failed with
        exitStatus := ExitStatus.failed.describe otherText,
        endTime := some moment }.addFailure otherText) >>= otherRest) := by
  apply Program.Alongside.now
  intro moment other
  refine (alongside_updatePersistently moreTerminalWrites ?_).bind
    fun written other _ => ends written other
  change (given.outline.upgradeStatus .failed).outline =
    (copy.outline.upgradeStatus .failed).outline
  rw [copies]

private theorem alongside_breakOff (cause : RepositoryError)
    (copies : given.outline = copy.outline) :
    (breakOff given cause : Program LaunchOutcome).Alongside behaviour twin (fun _ _ => True)
      (breakOff copy cause) := by
  refine alongside_writeFailed copies fun written other => ?_
  obtain ⟨result, left⟩ := written
  obtain ⟨otherResult, otherLeft⟩ := other
  cases result <;> cases otherResult <;> exact .done trivial

private theorem alongside_recordRejection (rejected : TaskRejected)
    (copies : given.outline = copy.outline) :
    (recordRejection given rejected : Program LaunchError).Alongside behaviour twin
      (fun _ _ => True) (recordRejection copy rejected) := by
  refine alongside_writeFailed copies fun written other => ?_
  obtain ⟨result, left⟩ := written
  obtain ⟨otherResult, otherLeft⟩ := other
  cases result <;> cases otherResult <;> exact .done trivial

private theorem alongside_updateContext (copies : given.outline = copy.outline) :
    (Calls.updateContext given : Program _).Alongside behaviour twin Eq
      (Calls.updateContext copy) := by
  have numbers : given.id = copy.id := (congrArg JobExecution.id copies :)
  intro world other same
  rw [Program.run_updateContext, Program.run_updateContext]
  unfold Repository.updateContext ContextStore.updateJob ContextStore.ofExecution
  rw [numbers]
  cases copy.id with
  | none => exact ⟨rfl, same.repository, same.invoked⟩
  | some id => exact ⟨rfl, same.repository, same.invoked⟩

private theorem alongside_synchronize (copies : given.outline = copy.outline) :
    (Calls.synchronize given : Program _).Alongside behaviour twin SameWritten
      (Calls.synchronize copy) :=
  fun _ _ same => ⟨Repository.synchronize_of_outline same.repository copies, same.repository,
    same.invoked⟩

private theorem exhausted_of_outline (recovery : Option RecoveryHandler) (failures : RetryExhausted)
    (copies : given.outline = copy.outline) :
    (exhausted recovery given failures).1.outline =
      (exhausted recovery copy failures).1.outline := by
  have outlined (given : JobExecution) : (exhausted recovery given failures).1.outline =
      (given.outline.upgradeStatus .failed).outline := by
    unfold exhausted
    cases recovery <;> rfl
  rw [outlined, outlined, copies]

private theorem succeeded_of_outline (copies : given.outline = copy.outline) :
    (succeeded given).outline = (succeeded copy).outline := by
  have outlined (given : JobExecution) :
      (succeeded given).outline = (succeeded given.outline).outline := by
    unfold succeeded
    change _ = (if given.isStopping then _ else _ : JobExecution).outline
    split <;> rfl
  rw [outlined, copies, ← outlined]

private theorem alongside_finish (error? otherError? : Option LaunchError)
    (copies : given.outline = copy.outline) :
    (finish given error? : Program LaunchOutcome).Alongside behaviour twin (fun _ _ => True)
      (finish copy otherError?) := by
  apply Program.Alongside.now
  intro moment other
  refine (alongside_updatePersistently moreTerminalWrites ?_).bind ?_
  · exact copies
  rintro ⟨result, left⟩ ⟨_, otherLeft⟩ ⟨rfl, lefts⟩
  cases result with
  | error error => exact .done trivial
  | ok =>
    refine (alongside_updateContext lefts).bind ?_
    rintro filed _ rfl
    cases filed with
    | error error => exact .done trivial
    | ok => cases error? <;> cases otherError? <;> exact .done trivial

section Bodies

variable (bodies : behaviour.Alongside twin)

include bodies

private theorem alongside_attempt (number : UInt32) (copies : given.outline = copy.outline) :
    ((attempt settings.job number).run given : Program _).Alongside behaviour twin SameLeft
      ((attempt settings.job number).run copy) := by
  refine (bodies { given with exitStatus := .executing }
    { copy with exitStatus := .executing } copies).bind ?_
  rintro ⟨ending, left⟩ ⟨_, otherLeft⟩ ⟨rfl, lefts⟩
  cases ending with
  | finished => exact .done ⟨rfl, lefts⟩
  | failed failure => exact .done ⟨rfl, lefts⟩
  | panicked message => exact .done ⟨rfl, lefts⟩

private theorem alongside_attemptFrom (policy : RetryPolicy) (number : UInt32)
    (copies : given.outline = copy.outline) :
    ((Retry.attemptFrom (fun delay => StateT.lift (MonadRepository.pause delay)) policy
        (attempt settings.job) number).run given : Program _).Alongside behaviour twin SameLeft
      ((Retry.attemptFrom (fun delay => StateT.lift (MonadRepository.pause delay)) policy
        (attempt settings.job) number).run copy) := by
  induction number using Retry.attemptFrom.induct policy generalizing given copy with
  | case1 number ih =>
    rw [Retry.attemptFrom, StateT.run_bind, StateT.run_bind]
    refine (alongside_attempt bodies number copies).bind ?_
    rintro ⟨result, left⟩ ⟨_, otherLeft⟩ ⟨rfl, lefts⟩
    cases result with
    | ok value => exact .done ⟨rfl, lefts⟩
    | error failure =>
      by_cases allowed : policy.allowsAfter number = true
      · simp only [allowed, dite_true]
        exact .pause (ih allowed lefts)
      · simp only [allowed]
        exact .done ⟨rfl, lefts⟩

private theorem alongside_run (launcher : Launcher) (copies : given.outline = copy.outline) :
    (launcher.run settings.job given).Alongside behaviour twin (fun _ _ => True)
      (launcher.run settings.job copy) := by
  apply Program.Alongside.now
  intro moment other
  refine (alongside_update ?_).bind ?_
  · change (given.outline.upgradeStatus .started).outline =
      (copy.outline.upgradeStatus .started).outline
    rw [copies]
  rintro ⟨result, begun⟩ ⟨_, otherBegun⟩ ⟨rfl, begins⟩
  cases result with
  | error cause => exact alongside_breakOff cause begins
  | ok =>
    refine (alongside_attemptFrom bodies launcher.policy 1 begins).bind ?_
    rintro ⟨result, left⟩ ⟨_, otherLeft⟩ ⟨rfl, lefts⟩
    cases result with
    | error failures =>
      exact alongside_finish _ _ (exhausted_of_outline launcher.recovery failures lefts)
    | ok =>
      refine (alongside_synchronize lefts).bind ?_
      rintro ⟨result, fresh⟩ ⟨_, otherFresh⟩ ⟨rfl, freshes⟩
      cases result with
      | error cause => exact alongside_breakOff cause freshes
      | ok => exact alongside_finish none none (succeeded_of_outline freshes)

end Bodies

/-! ## The claim -/

/-- What a launch makes of the last execution of its instance. -/
def look (repository : Repository) (settings : JobSettings) (parameters : JobParameters) :
    Except LaunchError Unit :=
  match repository.lastExecution settings.name parameters with
  | .error error => .error (.ofRepository error)
  | .ok last => checkLast settings.job parameters last

/-- What a launch is refused with, if it is refused. -/
def refusal? (repository : Repository) (settings : JobSettings) (parameters : JobParameters) :
    Option LaunchError :=
  match checkParameters settings.job parameters, look repository settings parameters,
      repository.claim settings.name parameters with
  | .error error, _, _ => some error
  | .ok (), .error error, _ => some error
  | .ok (), .ok (), .error error => some (.ofRepository error)
  | .ok (), .ok (), .ok _ => none

variable {repository other : Repository} {parameters : JobParameters} {world : World}

/-- A launch is refused and has changed nothing, or it goes on with a new execution. -/
theorem run_claim_of_refusal (behaviour : Behaviour) (settings : JobSettings)
    (parameters : JobParameters) (world : World) :
    (∃ error after, refusal? world.repository settings parameters = some error ∧
      (claim settings.job parameters).run behaviour world = (.error error, after) ∧
      after.repository = world.repository ∧ after.invoked = world.invoked) ∨
    ∃ now execution after, refusal? world.repository settings parameters = none ∧
      (claim settings.job parameters).run behaviour world = (.ok execution, after) ∧
      world.repository.createExecution now settings.name parameters =
        .ok (execution, after.repository) ∧
      after.invoked = world.invoked := by
  cases accepted : checkParameters settings.job parameters with
  | error error =>
    have refused : (claim settings.job parameters).run behaviour world = (.error error, world) := by
      unfold claim
      rw [accepted]
      rfl
    exact .inl ⟨error, world, by simp only [refusal?, accepted], refused, rfl, rfl⟩
  | ok =>
    cases read : world.repository.lastExecution settings.name parameters with
    | error error =>
      have failed : world.repository.lastExecution settings.job.name parameters = .error error :=
        read
      refine .inl ⟨.ofRepository error, world.tick world.repository,
        by simp only [refusal?, accepted, look, read], ?_, rfl, rfl⟩
      unfold claim
      rw [accepted, Program.run_bind, Program.run_lastExecution]
      simp only [failed]
      rfl
    | ok last =>
      cases checked : checkLast settings.job parameters last with
      | error error =>
        exact .inl ⟨error, _, by simp only [refusal?, accepted, look, read, checked],
          run_claim_of_last accepted read checked, rfl, rfl⟩
      | ok =>
        cases claimed : world.repository.claim settings.name parameters with
        | error error =>
          exact .inl ⟨.ofRepository error, _,
            by simp only [refusal?, accepted, look, read, checked, claimed],
            run_claim_of_checks accepted read checked
              (Repository.createExecution_of_refused claimed), rfl, rfl⟩
        | ok granted =>
          have created := Repository.createExecution_eq (world.clock (world.ticks + 1)) claimed
          exact .inr ⟨_, _, _, by simp only [refusal?, accepted, look, read, checked, claimed],
            run_claim_of_checks accepted read checked created, created, rfl⟩

/-- What a launch is refused with depends on what it makes of the last execution, and else on the
outline. -/
theorem refusal?_of_outline (same : repository.outline = other.outline)
    (looks : look repository settings parameters = look other settings parameters) :
    refusal? repository settings parameters = refusal? other settings parameters := by
  unfold refusal?
  rw [looks]
  rcases Repository.claim_of_outline same settings.name parameters with
    ⟨error, refused, alsoRefused⟩ | ⟨_, _, _, _, _, granted, alsoGranted, -⟩
  · rw [refused, alsoRefused]
  · rw [granted, alsoGranted]
    cases checkParameters settings.job parameters with
    | error error => rfl
    | ok => cases look other settings parameters <;> rfl

/-! ## The launch -/

/-- A claimed execution is run at once, or nobody takes it over. -/
private def dispatch (launcher : Launcher) (settings : JobSettings)
    (rejection : Option TaskRejected) (execution : JobExecution) : Program Dispatched :=
  match rejection with
  | some rejected => return .rejected rejected
  | none => return .ran (← launcher.run settings.job execution)

private theorem alongside_handOver (bodies : behaviour.Alongside twin) (launcher : Launcher)
    (rejection : Option TaskRejected) (copies : given.outline = copy.outline) :
    (handOver (dispatch launcher settings rejection) given).Alongside behaviour twin
      (fun _ _ => True) (handOver (dispatch launcher settings rejection) copy) := by
  cases rejection with
  | some rejected =>
    exact (alongside_recordRejection rejected copies).bind fun _ _ _ => .done trivial
  | none =>
    let BothRan (one another : Dispatched) : Prop :=
      ∃ outcome other, one = .ran outcome ∧ another = .ran other
    have runs : (dispatch launcher settings none given).Alongside behaviour twin BothRan
        (dispatch launcher settings none copy) :=
      (alongside_run bodies launcher copies).bind fun outcome other _ =>
        .done ⟨outcome, other, rfl, rfl⟩
    refine runs.bind ?_
    rintro _ _ ⟨outcome, other, rfl, rfl⟩
    exact .done trivial

/-- Two launches from the same repository leave repositories that are the same in outline. -/
theorem launch_of_outline (bodies : behaviour.Alongside twin) (launcher : Launcher)
    (settings : JobSettings) (parameters : JobParameters) (rejection : Option TaskRejected)
    (world copy : World) (books : world.repository = copy.repository)
    (invoked : world.invoked.length = copy.invoked.length) :
    ((Call.launch launcher settings parameters rejection).program.run behaviour world).2.SameOutline
      ((Call.launch launcher settings parameters rejection).program.run twin copy).2 := by
  have launched (behaviour : Behaviour) (world : World) :
      ((Call.launch launcher settings parameters rejection).program.run behaviour world).2 =
        ((launch settings.job parameters (dispatch launcher settings rejection)).run behaviour
          world).2 :=
    congrArg Prod.snd (Program.run_bind ..)
  have decided := congrArg (refusal? · settings parameters) books
  rw [launched, launched, run_launch, run_launch]
  rcases run_claim_of_refusal behaviour settings parameters world with
      ⟨error, after, refused, ran, unchanged, unused⟩ |
        ⟨now, given, after, granted, ran, created, unused⟩ <;>
    rcases run_claim_of_refusal twin settings parameters copy with
      ⟨otherError, otherAfter, alsoRefused, alsoRan, alsoUnchanged, alsoUnused⟩ |
        ⟨moment, other, otherAfter, alsoGranted, alsoRan, alsoCreated, alsoUnused⟩
  · rw [ran, alsoRan]
    exact ⟨by rw [unchanged, alsoUnchanged, books], by rw [unused, alsoUnused, invoked]⟩
  · exact nomatch refused.symm.trans (decided.trans alsoGranted)
  · exact nomatch granted.symm.trans (decided.trans alsoRefused)
  · rcases Repository.createExecution_of_outline (congrArg Repository.outline books) now moment
      settings.name parameters with
      ⟨error, refused, -⟩ | ⟨_, _, _, _, made, alsoMade, executions, repositories⟩
    · exact nomatch refused.symm.trans created
    · obtain ⟨rfl, rfl⟩ := Prod.mk.inj (Except.ok.inj (made.symm.trans created))
      obtain ⟨rfl, rfl⟩ := Prod.mk.inj (Except.ok.inj (alsoMade.symm.trans alsoCreated))
      rw [ran, alsoRan]
      refine (alongside_handOver bodies launcher rejection executions after otherAfter ?_).2
      exact ⟨repositories, by rw [unused, alsoUnused, invoked]⟩

end Launch

end BatchRun
