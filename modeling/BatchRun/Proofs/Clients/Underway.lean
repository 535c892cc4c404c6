import BatchRun.Proofs.Clients.Stores

/-! # Executions that clients leave running

A running execution is not replaced by another one of its instance, so only a write of one of its
own copies can end it. While clients write none that has ended, the execution stays stored and
running, and no answer hands out a copy of it that has ended.
-/

namespace BatchRun

namespace Session

variable {session next : Session} {now : Timestamp} {request : Request} {id : JobExecutionId}

/-- An edit that does not end this execution; for one, it may leave the status as it is. -/
def KeepsRunning (id : Option JobExecutionId) (original edited : JobExecution) : Prop :=
  original.id = id → original.isRunning = true → edited.isRunning = true

/-- The execution is stored and running, and so are all copies of it in hand. -/
structure Underway (id : JobExecutionId) (session : Session) : Prop where
  sound : session.Sound
  stored : ∃ stored, session.repository.executions.get? id = some stored ∧ stored.isRunning = true
  held : ∀ copy ∈ session.executions, copy.id = some id → copy.isRunning = true

/-- An execution that has just been created is underway. -/
theorem Sound.underway_of_created {jobName : String} {parameters : JobParameters}
    {execution : JobExecution} {after : Repository} (sound : session.Sound)
    (few : (session.call now (.createExecution jobName parameters)).Few)
    (created : session.repository.createExecution now jobName parameters =
      .ok (execution, after)) :
    ∃ id, execution.id = some id ∧
      (session.call now (.createExecution jobName parameters)).Underway id := by
  obtain ⟨-, stored, found, given, numbered, -, -, starting, -⟩ :=
    Repository.record_of_created created
  have answered := Repository.answer_of_created created
  have room : session.repository.executions.lastId.toNat + 1 < 2 ^ 64 := by
    have counted := sound.traced.numbers.executions
    have grown := few.registers.1
    rw [created_call, answered] at grown
    simp only [Request.writing?, Option.bind_some, Writing.created?, Option.toList_some,
      List.length_append, List.length_singleton] at grown
    omega
  subst given
  refine ⟨_, numbered, sound.call trivial few, ⟨stored, ?_, ?_⟩, ?_⟩
  · change (session.repository.answer now _).2.executions.get? _ = _
    rw [answered]
    exact found
  · exact congrArg BatchStatus.isRunning starting
  · intro copy member own
    rcases List.mem_append.1 member with before | handed
    · have known := (sound.traced.numbers.ofCreated (sound.executions copy before _ own)).1
      exact absurd rfl (RecordId.ne_next known room)
    · rw [answered] at handed
      rw [List.mem_singleton.1 handed]
      exact congrArg BatchStatus.isRunning starting

/-- A record that bars its instance is stored after any request, as it was or as the request has
written it. -/
theorem Sound.kept_call (sound : session.Sound) (few : (session.call now request).Few)
    {stored : JobExecution} (found : session.repository.executions.get? id = some stored)
    (unclaimable : stored.status ∉ BatchStatus.claimable) :
    ∃ later, (session.call now request).repository.executions.get? id = some later ∧
      (later = stored ∨ ∃ copy, request = .update copy ∧ copy.id = some id ∧
        later = Repository.written now copy stored) := by
  have effect := Repository.effect_answer session.repository now request
  have counted := few.registers.1
  have traced := sound.traced
  change ∃ later, (session.repository.answer now request).2.executions.get? id = _ ∧ _
  generalize afterwards : (session.repository.answer now request).2 = after at effect
  cases effect with
  | none refused executions instances => exact ⟨stored, executions ▸ found, .inl rfl⟩
  | @write copy record key numbered here =>
    rw [Repository.get?_withRecord]
    split
    · rename_i same
      subst same
      obtain rfl := Option.some.inj (here.symm.trans found)
      exact ⟨_, rfl, .inr ⟨copy, rfl, numbered, rfl⟩⟩
    · exact ⟨stored, found, .inl rfl⟩
  | @create jobName parameters known context claimed after granted executions instances =>
    have room : session.created.length + 1 < 2 ^ 64 := by
      rw [created_call, Repository.answer_of_created
        (Repository.createExecution_eq now granted)] at counted
      simpa [Request.writing?, Writing.created?] using counted
    have apart : stored.jobInstance.id ≠ known.id := traced.consistent.apart_of_claim
      (Nat.lt_of_le_of_lt (Nat.succ_le_succ traced.numbers.instances) room) granted found
      unclaimable
    have old : id ≠ ⟨session.repository.executions.lastId + 1⟩ := RecordId.ne_next
      (traced.numbers.ofCreated (traced.executions.stored found)).1
      (Nat.lt_of_le_of_lt (Nat.succ_le_succ traced.numbers.executions) room)
    obtain ⟨same, -⟩ := Repository.isFor_of_claim granted
    rw [executions, same]
    exact ⟨stored, ExecutionStore.get?_afterSave.2 (.inr ⟨old, found, apart⟩), .inl rfl⟩

namespace Underway

variable (underway : session.Underway id)

include underway

private theorem stored_call (inHand : session.Holds request)
    (few : (session.call now request).Few) :
    ∃ stored, (session.call now request).repository.executions.get? id = some stored ∧
      stored.isRunning = true := by
  obtain ⟨stored, found, running⟩ := underway.stored
  obtain ⟨later, lookup, rfl | ⟨copy, rfl, numbered, rfl⟩⟩ :=
    underway.sound.kept_call few found (JobExecution.unclaimable_of_running running)
  · exact ⟨later, lookup, running⟩
  · exact ⟨_, lookup, JobExecution.isRunning_refreshedFrom (underway.held copy inHand numbered)
      running⟩

private theorem handed (inHand : session.Holds request) (few : (session.call now request).Few)
    {copy : JobExecution}
    (member : copy ∈ request.copies (session.repository.answer now request).1)
    (own : copy.id = some id) : copy.isRunning = true := by
  obtain ⟨stored, found, running⟩ := underway.stored
  have wellNumbered := underway.sound.traced.consistent.executions.toNumbered
  cases Repository.handed_of_mem wellNumbered member with
  | @read request key record idle here =>
    obtain rfl : key = id := Option.some.inj ((wellNumbered.numbered here).symm.trans own)
    obtain rfl := Option.some.inj (here.symm.trans found)
    exact running
  | @created jobName parameters execution after made =>
    obtain ⟨-, record, -, given, -, -, -, starting, -⟩ := Repository.record_of_created made
    rw [given]
    exact congrArg BatchStatus.isRunning starting
  | @written given record key numbered here =>
    obtain rfl : key = id := Option.some.inj (numbered.symm.trans own)
    obtain rfl := Option.some.inj (here.symm.trans found)
    exact JobExecution.isRunning_refreshedFrom (underway.held given inHand numbered) running
  | @refreshed given record key numbered here =>
    obtain rfl : key = id := Option.some.inj (numbered.symm.trans own)
    obtain rfl := Option.some.inj (here.symm.trans found)
    exact JobExecution.isRunning_refreshedFrom (underway.held given inHand numbered) running
  | @kept request given lastUpdated idle same missing =>
    have inHand : given ∈ session.executions := by
      rcases same with rfl | rfl <;> exact inHand
    exact underway.held given inHand own

theorem call (inHand : session.Holds request) (few : (session.call now request).Few) :
    (session.call now request).Underway id where
  sound := underway.sound.call inHand few
  stored := underway.stored_call inHand few
  held copy member own := (List.mem_append.1 member).elim (fun before =>
    underway.held copy before own) fun handed => underway.handed inHand few handed own

/-- Clients that do not end an execution leave it underway. -/
theorem step (step : Step (KeepsRunning (some id)) session next) (few : next.Few) :
    next.Underway id := by
  have sound := underway.sound.step step few
  cases step with
  | call now inHand => exact underway.call inHand few
  | draft now known parameters =>
    refine ⟨sound, underway.stored, List.forall_mem_append.2 ⟨underway.held, ?_⟩⟩
    intro copy member own
    rw [List.mem_singleton.1 member] at own
    exact absurd own (Option.some_ne_none id).symm
  | @edit edited original inHand same steps keeps =>
    refine ⟨sound, underway.stored, List.forall_mem_append.2 ⟨underway.held, ?_⟩⟩
    intro copy member own
    rw [List.mem_singleton.1 member] at own ⊢
    have original : original.id = some id := same.id ▸ own
    exact keeps original (underway.held _ inHand original)
  | startStep now inHand started => exact ⟨sound, underway.stored, underway.held⟩
  | editStep inHand same => exact ⟨sound, underway.stored, underway.held⟩

/-- As long as clients do not end the execution, it stays underway. -/
theorem reaches (reaches : Reaches (KeepsRunning (some id)) session next) (few : next.Few) :
    next.Underway id :=
  reaches.invariant few underway fun step few underway => underway.step step few

end Underway

end Session

end BatchRun
