import BatchRun.Proofs.Launch.Admission
import BatchRun.Proofs.Retry

/-! # Outcomes of launches that run at once

A body that only leaves an exit status and a context behind is a script: one entry for every time
it is invoked. It is invoked up to the first entry that ends well, or as often as the policy
allows, and this decides on everything that is stored in the end.
-/

namespace BatchRun

/-- What a body does when it is invoked, if it only changes the exit status and the context. -/
structure Invocation where
  ending : BodyEnd
  exitStatus : ExitStatus
  context : ExecutionContext

namespace Invocation

/-- The execution as the body leaves it. -/
def leave (invocation : Invocation) (execution : JobExecution) : JobExecution :=
  { execution with exitStatus := invocation.exitStatus, context := invocation.context }

/-- What is noted about the invocation with this number: its failure, if there is one. -/
def notes (invocation : Invocation) (number : Nat) : List String :=
  match invocation.ending.failure? with
  | none => []
  | some failure => ["attempt " ++ toString number ++ ": " ++ failure.chain]

end Invocation

/-- The invocations of a body, counted from 0. -/
abbrev Script := Nat → Invocation

namespace Script

open Retry (firstSuccess firstSuccess_eq_succ firstSuccess_bounds)

variable {script : Script} {base : JobExecution} {count limit : Nat}

/-- The body that follows the script. -/
def behaviour (script : Script) : Behaviour := fun number execution repository =>
  (((script number).ending, (script number).leave execution), repository)

/-- What is noted about the first invocations. -/
def notes (script : Script) (count : Nat) : List String :=
  (List.range count).flatMap fun number => (script number).notes (number + 1)

/-- How often the body is invoked: up to the first invocation that ends well, at most `limit`
times. -/
def invocations (script : Script) (limit : Nat) : Nat :=
  ((List.range limit).find? fun number => (script number).ending.failure?.isNone).elim limit (· + 1)

private theorem notes_succ (script : Script) (count : Nat) :
    script.notes (count + 1) = script.notes count ++ (script count).notes (count + 1) := by
  simp [notes, List.range_succ]

private theorem invocations_eq (script : Script) (limit : Nat) :
    script.invocations limit =
      firstSuccess (fun number => (script (number - 1)).ending.failure?.isNone) limit := by
  unfold invocations firstSuccess
  rw [List.range'_eq_map_range, List.find?_map]
  have shifted : ((fun number => (script (number - 1)).ending.failure?.isNone) ∘ (1 + ·)) =
      fun number => (script number).ending.failure?.isNone := by
    funext number
    simp
  rw [shifted]
  cases (List.range limit).find? fun number => (script number).ending.failure?.isNone with
  | none => rfl
  | some number => exact Nat.add_comm number 1

/-- Where earlier invocations have failed and this one ends well or is the last one allowed. -/
theorem invocations_eq_succ (bound : count + 1 ≤ limit)
    (failed : ∀ earlier < count, (script earlier).ending.failure? ≠ none)
    (decided : count + 1 = limit ∨ (script count).ending.failure? = none) :
    script.invocations limit = count + 1 := by
  rw [invocations_eq]
  refine firstSuccess_eq_succ bound (fun earlier below => ?_) (decided.imp_right fun ended => ?_)
  · simpa [Option.isSome_iff_ne_none] using failed earlier below
  · simp [ended]

private theorem invocations_pos (positive : 0 < limit) : 0 < script.invocations limit := by
  rw [invocations_eq]
  exact (firstSuccess_bounds positive).1

/-- The execution after the first invocations. -/
def executed (script : Script) (base : JobExecution) : Nat → JobExecution
  | 0 => base
  | count + 1 =>
    { (script count).leave base with failures := base.failures ++ script.notes (count + 1) }

@[simp] theorem executed_id : (script.executed base count).id = base.id := by
  cases count <;> rfl

@[simp] theorem executed_version : (script.executed base count).version = base.version := by
  cases count <;> rfl

@[simp] theorem executed_status : (script.executed base count).status = base.status := by
  cases count <;> rfl

/-- The execution that an invocation begins with. -/
def begun (script : Script) (base : JobExecution) (count : Nat) : JobExecution :=
  { script.executed base count with exitStatus := .executing }

/-- What an invocation leaves before its failure is noted. -/
theorem leave_begun (script : Script) (base : JobExecution) (count : Nat) :
    (script count).leave (script.begun base count) =
      { (script count).leave base with failures := base.failures ++ script.notes count } := by
  cases count with
  | zero => simp [begun, executed, notes, Invocation.leave]
  | succ count => rfl

/-- How the attempts end with the last one of these invocations. -/
def verdict (script : Script) (count : Nat) : Except RetryExhausted Unit :=
  match (script (count - 1)).ending.failure? with
  | none => .ok ()
  | some failure => .error ⟨UInt32.ofNat count, failure⟩

/-- What the last of these invocations decides on: the status and exit status that are stored, and
what the caller gets. -/
def Decides (script : Script) (count : Nat) (recovery : Option RecoveryHandler)
    (record : JobExecution) (outcome : LaunchOutcome) : Prop :=
  let last := script (count - 1)
  match last.ending.failure? with
  | none => record.status = .completed ∧ record.exitStatus = last.exitStatus.and .completed ∧
      outcome = .ok record
  | some failure => record.status = .failed ∧
      match recovery with
      | none => record.exitStatus = ExitStatus.failed.describe failure.chain ∧
          outcome = .error (.retryExhausted ⟨UInt32.ofNat count, failure⟩)
      | some recover => ∃ given, given.status = .failed ∧ given.failures = record.failures ∧
          given.exitStatus = last.exitStatus ∧ given.context = last.context ∧
          record.exitStatus = recover given failure ∧ outcome = .ok record

end Script

namespace Run

open Retry (attemptFrom)

variable {script : Script} {base : JobExecution} {policy : RetryPolicy} {settings : JobSettings}
  {repository : Repository} {clock : Nat → Timestamp} {ticks : Nat}

/-- The world when so many invocations of the script have ended. -/
private def afterInvocations (script : Script) (base : JobExecution) (repository : Repository)
    (clock : Nat → Timestamp) (ticks count : Nat) : World :=
  ⟨repository, clock, ticks, (List.range count).map (script.begun base)⟩

private theorem run_attempt (count : Nat) (number : UInt32) (numbered : number.toNat = count + 1) :
    ((attempt settings.job number).run (script.executed base count)).run script.behaviour
        (afterInvocations script base repository clock ticks count) =
      ((match (script count).ending.failure? with
          | none => .ok ()
          | some failure => .error failure, script.executed base (count + 1)),
        afterInvocations script base repository clock ticks (count + 1)) := by
  have invoked : (afterInvocations script base repository clock ticks count).invoked.length =
      count := by simp [afterInvocations]
  have next : World.mk repository clock ticks
      ((List.range count).map (script.begun base) ++ [script.begun base count]) =
        afterInvocations script base repository clock ticks (count + 1) := by
    simp [afterInvocations, List.range_succ]
  change ((Program.invoke (script.begun base count)) >>= _ : Program _).run _ _ = _
  rw [Program.run_bind, Program.run_invoke, invoked, ← next]
  simp only [Script.behaviour, script.leave_begun, Script.executed, script.notes_succ]
  cases failed : (script count).ending.failure? with
  | none =>
    have nothing : (script count).notes (count + 1) = [] := by simp [Invocation.notes, failed]
    rw [nothing, List.append_nil]
    rfl
  | some failure =>
    have noted : (script count).notes (count + 1) =
        ["attempt " ++ toString number ++ ": " ++ failure.chain] := by
      simp only [Invocation.notes, failed, ← numbered]
      rfl
    rw [noted, ← List.append_assoc]
    rfl

/-- What attempts from a given number on make of the script. -/
private def attemptsFrom (settings : JobSettings) (policy : RetryPolicy) (number : UInt32) :
    StateT JobExecution Program (Except RetryExhausted Unit) :=
  attemptFrom (fun delay => StateT.lift (MonadRepository.pause delay)) policy
    (attempt settings.job) number

private theorem run_attemptsFrom_of_success (count : Nat) (number : UInt32)
    (numbered : number.toNat = count + 1) (ended : (script count).ending.failure? = none) :
    ((attemptsFrom settings policy number).run (script.executed base count)).run script.behaviour
        (afterInvocations script base repository clock ticks count) =
      ((script.verdict (count + 1), script.executed base (count + 1)),
        afterInvocations script base repository clock ticks (count + 1)) := by
  unfold attemptsFrom
  rw [attemptFrom, StateT.run_bind, Program.run_bind, run_attempt count number numbered, ended]
  simp only [Script.verdict, Nat.add_sub_cancel, ended]
  rfl

private theorem run_attemptsFrom_of_failure {failure : Failure} (count : Nat) (number : UInt32)
    (numbered : number.toNat = count + 1)
    (ended : (script count).ending.failure? = some failure) :
    ((attemptsFrom settings policy number).run (script.executed base count)).run script.behaviour
        (afterInvocations script base repository clock ticks count) =
      if policy.allowsAfter number then
        ((attemptsFrom settings policy (number + 1)).run (script.executed base (count + 1))).run
          script.behaviour (afterInvocations script base repository clock ticks (count + 1))
      else
        ((script.verdict (count + 1), script.executed base (count + 1)),
          afterInvocations script base repository clock ticks (count + 1)) := by
  unfold attemptsFrom
  rw [attemptFrom, StateT.run_bind, Program.run_bind, run_attempt count number numbered, ended]
  by_cases allowed : policy.allowsAfter number = true
  · simp only [allowed, dite_true, if_true]
    rfl
  · simp only [allowed, Script.verdict, Nat.add_sub_cancel, ended, Retry.ofNat_eq numbered]
    rfl

private theorem run_attemptsFrom (left count : Nat) (number : UInt32)
    (numbered : number.toNat = count + 1) (total : count + 1 + left = policy.limit)
    (failed : ∀ earlier < count, (script earlier).ending.failure? ≠ none) :
    ((attemptsFrom settings policy number).run (script.executed base count)).run script.behaviour
        (afterInvocations script base repository clock ticks count) =
      ((script.verdict (script.invocations policy.limit),
          script.executed base (script.invocations policy.limit)),
        afterInvocations script base repository clock ticks
          (script.invocations policy.limit)) := by
  induction left generalizing count number with
  | zero =>
    have forbidden : ¬ policy.allowsAfter number = true := by
      rw [policy.allowsAfter_iff]
      omega
    rw [Script.invocations_eq_succ (by omega) failed (.inl total)]
    cases ended : (script count).ending.failure? with
    | none => exact run_attemptsFrom_of_success count number numbered ended
    | some failure =>
      rw [run_attemptsFrom_of_failure count number numbered ended, if_neg forbidden]
  | succ left ih =>
    cases ended : (script count).ending.failure? with
    | none =>
      rw [Script.invocations_eq_succ (by omega) failed (.inr ended)]
      exact run_attemptsFrom_of_success count number numbered ended
    | some failure =>
      have allowed : policy.allowsAfter number = true := by
        rw [policy.allowsAfter_iff]
        omega
      have next : (number + 1).toNat = count + 1 + 1 :=
        policy.toNat_next numbered (by omega)
      rw [run_attemptsFrom_of_failure count number numbered ended, if_pos allowed]
      apply ih (count + 1) (number + 1) next (by omega)
      intro earlier below
      rcases Nat.lt_succ_iff_lt_or_eq.1 below with before | rfl
      · exact failed earlier before
      · simp [ended]

private theorem run_attempts :
    (attempts settings.job policy base).run script.behaviour
        (afterInvocations script base repository clock ticks 0) =
      ((script.verdict (script.invocations policy.limit),
          script.executed base (script.invocations policy.limit)),
        afterInvocations script base repository clock ticks
          (script.invocations policy.limit)) := by
  have positive : 1 ≤ policy.limit := Nat.le_max_left ..
  apply run_attemptsFrom (policy.limit - 1) 0 1 rfl (by omega)
  intro earlier below
  omega

/-! ## Writing the outcome -/

variable {world : World} {behaviour : Behaviour} {execution stored : JobExecution}
  {id : JobExecutionId}

private theorem run_update_of_record (numbered : execution.id = some id)
    (found : world.repository.executions.get? id = some stored) :
    (Calls.update execution : Program _).run behaviour world =
      (⟨.ok (), Repository.written world.moment execution stored⟩,
        world.tick (world.repository.withRecord id
          (Repository.written world.moment execution stored))) := by
  rw [Program.run_update, Repository.update_of_record _ numbered found]

private theorem run_updatePersistently (more : Nat) (numbered : execution.id = some id)
    (found : world.repository.executions.get? id = some stored) :
    (Calls.updatePersistently more execution : Program _).run behaviour world =
      (⟨.ok (), Repository.written world.moment execution stored⟩,
        world.tick (world.repository.withRecord id
          (Repository.written world.moment execution stored))) := by
  cases more with
  | zero => exact run_update_of_record numbered found
  | succ more =>
    unfold Calls.updatePersistently
    rw [Program.run_bind, run_update_of_record numbered found]
    rfl

private theorem run_updateContext (numbered : execution.id = some id) :
    ∃ contexts, (Calls.updateContext execution : Program _).run behaviour world =
        (.ok (), world.tick { world.repository with contexts }) ∧
      contexts.get? (.job id) = some execution.context := by
  have saved : ContextStore.ofExecution execution =
      .ok (id, ⟨execution.jobInstance.id, id, execution.context⟩) := by
    simp [ContextStore.ofExecution, numbered]
  refine ⟨⟨world.repository.contexts.jobs.insert id
    ⟨execution.jobInstance.id, id, execution.context⟩, world.repository.contexts.steps⟩, ?_, ?_⟩
  · rw [Program.run_updateContext]
    unfold Repository.updateContext ContextStore.updateJob
    rw [saved]
    rfl
  · simp [ContextStore.get?, SortedMap.get?_insert_self]

/-- The record of an outcome. -/
private def outcome (world : World) (execution stored : JobExecution) : JobExecution :=
  Repository.written (world.clock (world.ticks + 1))
    { execution with endTime := some world.moment } stored

private theorem run_finish (error? : Option LaunchError) (numbered : execution.id = some id)
    (found : world.repository.executions.get? id = some stored) :
    ∃ after, (finish execution error? : Program LaunchOutcome).run behaviour world =
        ((match error? with
          | some error => .error error
          | none => .ok (outcome world execution stored)), after) ∧
      after.invoked = world.invoked ∧
      after.repository.executions.get? id = some (outcome world execution stored) ∧
      after.repository.contexts.get? (.job id) = some execution.context := by
  let written : World := (world.tick world.repository).tick
    (world.repository.withRecord id (outcome world execution stored))
  have wrote : (writeTerminal { execution with endTime := some world.moment } : Program _).run
      behaviour (world.tick world.repository) =
        (⟨.ok (), outcome world execution stored⟩, written) :=
    run_updatePersistently moreTerminalWrites numbered found
  obtain ⟨contexts, ran, kept⟩ :
      ∃ contexts, (Calls.updateContext (outcome world execution stored) : Program _).run behaviour
        written = (.ok (), written.tick { written.repository with contexts }) ∧
        contexts.get? (.job id) = some execution.context := run_updateContext numbered
  refine ⟨written.tick { written.repository with contexts }, ?_, rfl, ?_, kept⟩
  · unfold finish
    rw [Program.run_bind, Program.run_now, Program.run_bind, wrote]
    simp only []
    rw [Program.run_bind, ran]
    cases error? with
    | none => rfl
    | some error => rfl
  · exact (Repository.get?_withRecord ..).trans (if_pos rfl)

/-! ## The whole run -/

/-- The execution and its record once the run has started. -/
private def started (world : World) (execution stored : JobExecution) : JobExecution :=
  Repository.written (world.clock (world.ticks + 1))
    (JobExecution.upgradeStatus { execution with startTime := some world.moment } .started) stored

private theorem run_update_started (numbered : execution.id = some id)
    (found : world.repository.executions.get? id = some stored) :
    (Calls.update (JobExecution.upgradeStatus { execution with startTime := some world.moment }
        .started) : Program _).run behaviour (world.tick world.repository) =
      (⟨.ok (), started world execution stored⟩, (world.tick world.repository).tick
        (world.repository.withRecord id (started world execution stored))) := by
  have here : (world.tick world.repository).repository.executions.get? id = some stored := found
  exact run_update_of_record numbered here

/-- What is written at the end of a run after so many invocations, and the error for the caller. -/
private def settled (recovery : Option RecoveryHandler) (script : Script) (base : JobExecution)
    (count : Nat) : JobExecution × Option LaunchError :=
  match script.verdict count with
  | .ok () => (succeeded (script.executed base count), none)
  | .error failures => exhausted recovery (script.executed base count) failures

private theorem run_synchronize_of_current (numbered : execution.id = some id)
    (found : world.repository.executions.get? id = some stored)
    (current : execution.version = stored.version) :
    (Calls.synchronize execution : Program _).run behaviour world =
      (⟨.ok (), execution⟩, world.tick world.repository) := by
  have unchanged : execution.refreshedFrom stored = execution := by
    unfold JobExecution.refreshedFrom
    rw [if_pos current.symm, ← current]
  rw [Program.run_synchronize, Repository.synchronize_of_record numbered found, unchanged]

private theorem run_run (recovery : Option RecoveryHandler) (unused : world.invoked = [])
    (numbered : execution.id = some id)
    (found : world.repository.executions.get? id = some stored) :
    ∃ last, last.repository = world.repository.withRecord id (started world execution stored) ∧
      last.invoked = (List.range (script.invocations policy.limit)).map
        (script.begun (started world execution stored)) ∧
      (run settings.job policy recovery execution : Program _).run script.behaviour world =
        (finish
          (settled recovery script (started world execution stored)
            (script.invocations policy.limit)).1
          (settled recovery script (started world execution stored)
            (script.invocations policy.limit)).2 : Program _).run script.behaviour last := by
  have begun : (world.tick world.repository).tick
      (world.repository.withRecord id (started world execution stored)) =
      afterInvocations script (started world execution stored)
        (world.repository.withRecord id (started world execution stored)) world.clock
        (world.ticks + 2) 0 := by
    simp [World.tick, afterInvocations, unused]
  have inStore : (world.repository.withRecord id
      (started world execution stored)).executions.get? id =
        some (started world execution stored) := (Repository.get?_withRecord ..).trans (if_pos rfl)
  have sameId : (started world execution stored).id = some id := numbered
  unfold run settled
  rw [Program.run_bind, Program.run_now, Program.run_bind, run_update_started numbered found]
  simp only []
  rw [Program.run_bind, begun, run_attempts]
  cases decided : script.verdict (script.invocations policy.limit) with
  | ok =>
    let last := afterInvocations script (started world execution stored)
      (world.repository.withRecord id (started world execution stored)) world.clock
      (world.ticks + 2) (script.invocations policy.limit)
    refine ⟨last.tick last.repository, rfl, rfl, ?_⟩
    have inLast : last.repository.executions.get? id = some (started world execution stored) :=
      inStore
    simp only []
    rw [Program.run_bind,
      run_synchronize_of_current (Script.executed_id.trans sameId) inLast Script.executed_version]
  | error failures => exact ⟨_, rfl, rfl, rfl⟩

private theorem settled_kept (recovery : Option RecoveryHandler) (script : Script)
    (base : JobExecution) (count : Nat) :
    ∃ status exitStatus, (settled recovery script base (count + 1)).1 =
      { script.executed base (count + 1) with status, exitStatus } := by
  unfold settled
  cases script.verdict (count + 1) with
  | ok =>
    simp only [succeeded]
    split <;> exact ⟨_, _, rfl⟩
  | error failures =>
    simp only [exhausted]
    cases recovery <;> exact ⟨_, _, rfl⟩

private theorem settled_cases (recovery : Option RecoveryHandler) (script : Script)
    (base : JobExecution) (count : Nat) (running : base.status = .started) :
    match (script count).ending.failure? with
    | none => (settled recovery script base (count + 1)).1.status = .completed ∧
        (settled recovery script base (count + 1)).1.exitStatus =
          (script count).exitStatus.and .completed ∧
        (settled recovery script base (count + 1)).2 = none
    | some failure => (settled recovery script base (count + 1)).1.status = .failed ∧
        match recovery with
        | none => (settled recovery script base (count + 1)).1.exitStatus =
              ExitStatus.failed.describe failure.chain ∧
            (settled recovery script base (count + 1)).2 =
              some (.retryExhausted ⟨UInt32.ofNat (count + 1), failure⟩)
        | some recover => (settled recovery script base (count + 1)).1.exitStatus =
              recover ((script.executed base (count + 1)).upgradeStatus .failed) failure ∧
            (settled recovery script base (count + 1)).2 = none := by
  unfold settled Script.verdict
  cases ended : (script count).ending.failure? with
  | none =>
    have raised : BatchStatus.started.upgradeTo .completed = .completed := by decide
    simp [ended, succeeded, JobExecution.isStopping, running, JobExecution.upgradeStatus,
      Script.executed, Invocation.leave, raised]
  | some failure =>
    have raised : BatchStatus.started.upgradeTo .failed = .failed := by decide
    cases recovery with
    | none =>
      simp [ended, exhausted, running, JobExecution.upgradeStatus, Script.executed,
        Invocation.leave, raised]
    | some recover =>
      simp [ended, exhausted, running, JobExecution.upgradeStatus, Script.executed,
        Invocation.leave, raised]

private theorem outcome_of_current (world : World) (current : execution.version = stored.version) :
    outcome world execution stored =
      { execution with
        version := stored.version + 1
        endTime := some world.moment
        lastUpdated := some (world.clock (world.ticks + 1)) } := by
  simp [outcome, Repository.written, JobExecution.refreshedFrom, current]

private theorem started_of_created (starting : stored.status = .starting)
    (version : stored.version = 1) (fresh : stored.failures = [])
    (same : execution = { stored with context := stored.context.clearDirty }) :
    (started world execution stored).status = .started ∧
      (started world execution stored).version = 2 ∧
      (started world execution stored).failures = [] := by
  have raised : BatchStatus.starting.upgradeTo .started = .started := by decide
  have next : (1 : UInt64) + 1 = 2 := by decide
  simp [started, Repository.written, JobExecution.refreshedFrom, JobExecution.upgradeStatus, same,
    starting, version, fresh, raised, next]

private theorem decides_outcome (world : World) (recovery : Option RecoveryHandler) (count : Nat)
    (running : base.status = .started)
    (current : (settled recovery script base (count + 1)).1.version = base.version)
    (kept : (outcome world (settled recovery script base (count + 1)).1 base).failures =
      (script.executed base (count + 1)).failures) :
    script.Decides (count + 1) recovery
      (outcome world (settled recovery script base (count + 1)).1 base)
      (match (settled recovery script base (count + 1)).2 with
        | some error => .error error
        | none => .ok (outcome world (settled recovery script base (count + 1)).1 base)) := by
  have parts := settled_cases recovery script base count running
  have sameStatus := congrArg JobExecution.status (outcome_of_current world current)
  have sameExit := congrArg JobExecution.exitStatus (outcome_of_current world current)
  simp only [Script.Decides, Nat.add_sub_cancel]
  cases ended : (script count).ending.failure? with
  | none =>
    simp only [ended] at parts
    obtain ⟨completed, exit, quiet⟩ := parts
    exact ⟨sameStatus.trans completed, sameExit.trans exit, by rw [quiet]⟩
  | some failure =>
    simp only [ended] at parts
    obtain ⟨failed, parts⟩ := parts
    refine ⟨sameStatus.trans failed, ?_⟩
    cases recovery with
    | none => exact ⟨sameExit.trans parts.1, by rw [parts.2]⟩
    | some recover =>
      have raised : (script.executed base (count + 1)).status.upgradeTo .failed = .failed := by
        rw [Script.executed_status, running]
        decide
      exact ⟨(script.executed base (count + 1)).upgradeStatus .failed, raised, kept.symm, rfl, rfl,
        sameExit.trans parts.1, by rw [parts.2]⟩

private theorem outcome_of_settled (world : World) (recovery : Option RecoveryHandler) (count : Nat)
    (second : base.version = 2) (clean : base.failures = []) :
    (outcome world (settled recovery script base (count + 1)).1 base).failures =
        script.notes (count + 1) ∧
      (outcome world (settled recovery script base (count + 1)).1 base).version = 3 ∧
      (outcome world (settled recovery script base (count + 1)).1 base).endTime.isSome = true := by
  obtain ⟨status, exitStatus, shape⟩ := settled_kept recovery script base count
  have current : (settled recovery script base (count + 1)).1.version = base.version := by
    rw [shape]
    exact Script.executed_version
  rw [outcome_of_current world current, shape]
  refine ⟨?_, ?_, rfl⟩
  · change base.failures ++ script.notes (count + 1) = _
    rw [clean, List.nil_append]
  · change base.version + 1 = 3
    rw [second]
    rfl

private theorem run_script (settings : JobSettings) (policy : RetryPolicy)
    (recovery : Option RecoveryHandler) (script : Script) (unused : world.invoked = [])
    (numbered : execution.id = some id)
    (found : world.repository.executions.get? id = some stored)
    (starting : stored.status = .starting) (version : stored.version = 1)
    (fresh : stored.failures = [])
    (same : execution = { stored with context := stored.context.clearDirty }) :
    ∃ record outcome after,
      (run settings.job policy recovery execution : Program _).run script.behaviour world =
        (outcome, after) ∧
      after.repository.executions.get? id = some record ∧
      after.invoked.length = script.invocations policy.limit ∧
      (∀ seen ∈ after.invoked,
        seen.exitStatus = .executing ∧ seen.status = .started ∧ seen.version = 2) ∧
      record.failures = script.notes (script.invocations policy.limit) ∧
      record.version = 3 ∧ record.endTime.isSome = true ∧
      after.repository.contexts.get? (.job id) =
        some (script (script.invocations policy.limit - 1)).context ∧
      script.Decides (script.invocations policy.limit) recovery record outcome := by
  let base := started world execution stored
  have sameId : base.id = some id := numbered
  obtain ⟨running, second, clean⟩ :
      base.status = .started ∧ base.version = 2 ∧ base.failures = [] :=
    started_of_created starting version fresh same
  obtain ⟨count, counted⟩ : ∃ count, script.invocations policy.limit = count + 1 :=
    Nat.exists_eq_add_one_of_ne_zero
      (Nat.ne_of_gt (Script.invocations_pos (Nat.le_max_left 1 policy.maxAttempts.toNat)))
  obtain ⟨last, kept, invoked, ran⟩ : ∃ last, _ ∧ _ ∧
      (run settings.job policy recovery execution : Program _).run script.behaviour world = _ :=
    run_run recovery unused numbered found
  rw [counted] at invoked ran ⊢
  obtain ⟨status, exitStatus, shape⟩ := settled_kept recovery script base count
  have settledId : (settled recovery script base (count + 1)).1.id = some id := by
    rw [shape]
    exact Script.executed_id.trans sameId
  have current : (settled recovery script base (count + 1)).1.version = base.version := by
    rw [shape]
    exact Script.executed_version
  have inLast : last.repository.executions.get? id = some base := by
    rw [kept]
    exact (Repository.get?_withRecord ..).trans (if_pos rfl)
  obtain ⟨after, finished, sameInvoked, inStore, inContexts⟩ :=
    run_finish (settled recovery script base (count + 1)).2 settledId inLast
  obtain ⟨notes, third, ended⟩ := outcome_of_settled last recovery count second clean
  refine ⟨_, _, after, ran.trans finished, inStore, ?_, ?_, notes, third, ended, ?_, ?_⟩
  · rw [sameInvoked, invoked]
    simp
  · intro seen member
    rw [sameInvoked, invoked] at member
    obtain ⟨number, -, rfl⟩ := List.mem_map.1 member
    exact ⟨rfl, Script.executed_status.trans running, Script.executed_version.trans second⟩
  · rw [inContexts, shape]
    rfl
  · apply decides_outcome last recovery count running current
    rw [notes]
    change _ = base.failures ++ script.notes (count + 1)
    rw [clean, List.nil_append]

end Run

namespace Launcher

variable {launcher : Launcher} {settings : JobSettings} {parameters : JobParameters}
  {behaviour : Behaviour} {world claimed : World} {execution : JobExecution}

private theorem run_launchInline
    (granted : (Launch.claim settings.job parameters : Program _).run behaviour world =
      (.ok execution, claimed)) :
    (launcher.launchInline settings.job parameters).run behaviour world =
      (launcher.run settings.job execution).run behaviour claimed := by
  unfold launchInline
  rw [Launch.run_launch, granted]
  simp only [Launch.handOver]
  rw [Program.run_bind, Program.run_bind]
  rfl

/-- What a launch comes to that runs at once, for a body that follows a script. -/
theorem launchInline_outcome (launcher : Launcher) (settings : JobSettings)
    (parameters : JobParameters) (script : Script) (repository : Repository)
    (clock : Nat → Timestamp) (ticks : Nat) {execution : JobExecution} {claimed : World}
    (reachable : repository.Reachable)
    (granted : (Launch.claim settings.job parameters : Program _).run script.behaviour
      ⟨repository, clock, ticks, []⟩ = (.ok execution, claimed)) :
    let count := script.invocations launcher.policy.limit
    ∃ id record outcome after,
      (launcher.launchInline settings.job parameters).run script.behaviour
        ⟨repository, clock, ticks, []⟩ = (outcome, after) ∧
      execution.id = some id ∧ after.repository.executions.get? id = some record ∧
      after.invoked.length = count ∧
      (∀ seen ∈ after.invoked,
        seen.exitStatus = .executing ∧ seen.status = .started ∧ seen.version = 2) ∧
      record.failures = script.notes count ∧ record.version = 3 ∧ record.endTime.isSome = true ∧
      after.repository.contexts.get? (.job id) = some (script (count - 1)).context ∧
      script.Decides count launcher.recovery record outcome := by
  have wellNumbered : (World.mk repository clock ticks []).repository.executions.Numbered :=
    reachable.numbered
  rcases Launch.run_claim_cases script.behaviour settings parameters wellNumbered with
    ⟨-, given, created, made, ran⟩ | ⟨-, error, after, refused, -⟩
  · obtain ⟨same, rfl⟩ := Prod.mk.inj (granted.symm.trans ran)
    obtain rfl := Except.ok.inj same
    obtain ⟨-, stored, found, given, numbered, -, -, starting, version, fresh⟩ :=
      Repository.record_of_created made
    have sameId : execution.id = some ⟨repository.executions.lastId + 1⟩ := given ▸ numbered
    let claimed : World := ((World.mk repository clock ticks []).tick repository).tick created
    have unused : claimed.invoked = [] := rfl
    have there : claimed.repository.executions.get? ⟨repository.executions.lastId + 1⟩ =
      some stored := found
    obtain ⟨record, outcome, after, comes, facts⟩ := Run.run_script settings launcher.policy
      launcher.recovery script unused sameId there starting version fresh given
    exact ⟨_, record, outcome, after, (run_launchInline granted).trans comes, sameId, facts⟩
  · rw [granted] at refused
    exact absurd (congrArg Prod.fst refused) (by simp)

/-- A body that fails once and then ends well: two invocations and one note. -/
theorem launchInline_outcome_second_attempt :
    Repository.empty.Reachable ∧ ∃ record outcome after,
      (launchInline ⟨.usual, none⟩ (JobSettings.job ⟨"import", false, none⟩) .empty).run
        (Script.behaviour fun number =>
          ⟨if number = 0 then .failed (.ofMessage "no connection") else .finished, .executing,
            .empty⟩)
        ⟨.empty, fun _ => ⟨0, 0⟩, 0, []⟩ = (outcome, after) ∧
      after.repository.executions.get? ⟨1⟩ = some record ∧ after.invoked.length = 2 ∧
      record.failures = ["attempt 1: no connection"] ∧ record.version = 3 ∧
      record.status = .completed ∧ record.exitStatus = .completed ∧ outcome = .ok record := by
  let script : Script := fun number =>
    ⟨if number = 0 then .failed (.ofMessage "no connection") else .finished, .executing, .empty⟩
  obtain ⟨id, record, outcome, after, ran, numbered, found, invoked, -, failures, version, -, -,
    decided⟩ := launchInline_outcome ⟨.usual, none⟩ ⟨"import", false, none⟩ .empty script .empty
      (fun _ => ⟨0, 0⟩) 0 .empty rfl
  obtain rfl := Option.some.inj numbered
  exact ⟨.empty, record, outcome, after, ran, found, invoked, failures, version, decided⟩

end Launcher

end BatchRun
