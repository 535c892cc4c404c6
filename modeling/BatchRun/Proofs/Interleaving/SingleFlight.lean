import BatchRun.Proofs.Interleaving.System

/-! # At most one launch of an instance at a time

No lock is held while a job runs. What excludes a second launch is the record of the first: from
the claim to the terminal write it is pinned to the running statuses, whoever writes it meanwhile,
and a claim is refused as long as it is. The numbers of executions are told apart by this as long
as they have not run out.
-/

namespace BatchRun

/-- A launch is for the instance of this execution. -/
def Call.IsFor (call : Call) (execution : JobExecution) : Prop :=
  call.target? = some (execution.jobInstance.jobName, execution.jobInstance.identityKey)

/-- A write, a refreshment or the save of a context has been carried out, by its answer. -/
def Request.Succeeded : (request : Request) → request.Answer → Prop
  | .update _, written | .synchronize _, written => written.result = .ok ()
  | .updateContext _, answer => answer = .ok ()
  | _, _ => True

theorem Books.Honest.genuine {books : Books} {request : Request} (honest : books.Honest request) :
    books.Genuine request := by
  intro copy same numbered
  obtain ⟨record, member, copyOf⟩ := honest copy same numbered
  exact ⟨record, member, copyOf.1⟩

namespace Standing

variable {standing : Standing} {repository : Repository} {moment : Timestamp} {request : Request}

/-- What is held after a request has just been created, or it was held before and the request was
no terminal write. -/
theorem held_after {held : JobExecution}
    (holding : (standing.after (.request request) (repository.answer moment request).1).held =
      some held) :
    (∃ jobName parameters after, request = .createExecution jobName parameters ∧
      repository.createExecution moment jobName parameters = .ok (held, after)) ∨
    (standing.held = some held ∧ ∀ copy, request = .update copy →
      (repository.update moment copy).1.result = .ok () → copy.isRunning = true) := by
  cases request with
  | createExecution jobName parameters =>
    cases created : repository.createExecution moment jobName parameters with
    | error error =>
      simp only [Repository.answer, created] at holding
      exact .inr ⟨holding, fun _ same => by contradiction⟩
    | ok result =>
      obtain ⟨execution, after⟩ := result
      simp only [Repository.answer, created] at holding
      obtain rfl := Option.some.inj holding
      exact .inl ⟨jobName, parameters, after, rfl, created⟩
  | update copy =>
    rcases written : repository.update moment copy with ⟨⟨result, left⟩, after⟩
    simp only [Repository.answer, written] at holding
    cases result with
    | error error =>
      refine .inr ⟨holding, fun other same success => ?_⟩
      obtain rfl := Request.update.inj same
      rw [written] at success
      contradiction
    | ok =>
      by_cases running : copy.isRunning = true
      · simp only [Standing.after, running, if_true] at holding
        exact .inr ⟨holding, fun other same _ => Request.update.inj same ▸ running⟩
      · simp only [Standing.after, running] at holding
        exact absurd holding (by simp)
  | execution id =>
    refine .inr ⟨?_, fun _ same => by contradiction⟩
    simp only [Repository.answer] at holding
    generalize repository.execution id = answered at holding
    rcases answered with error | ⟨_ | execution⟩ <;> exact holding
  | _ => exact .inr ⟨holding, fun _ same => by contradiction⟩

/-- Without a request nothing is claimed, released or read. -/
theorem after_of_admits (standing : Standing) {action : Action} {answer : action.Answer}
    (admitted : action.Admits answer) :
    standing.after action answer = standing ∧ standing.Expects action answer := by
  cases action with
  | request made => exact False.elim admitted
  | now => exact ⟨rfl, trivial⟩
  | pause duration => exact ⟨rfl, trivial⟩
  | invoke execution => exact ⟨rfl, admitted⟩

private theorem seen_after {read : JobExecution}
    (member : read ∈
      (standing.after (.request request) (repository.answer moment request).1).seen) :
    read ∈ standing.seen ∨
      ∃ id, request = .execution id ∧ repository.execution id = .ok (some read) := by
  cases request with
  | createExecution jobName parameters =>
    simp only [Repository.answer] at member
    generalize repository.createExecution moment jobName parameters = made at member
    rcases made with error | result
    · exact .inl member
    · exact .inl member
  | update copy =>
    rcases written : repository.update moment copy with ⟨⟨result, left⟩, after⟩
    simp only [Repository.answer, written] at member
    cases result with
    | error error => exact .inl member
    | ok =>
      simp only [Standing.after] at member
      split at member <;> exact .inl member
  | execution id =>
    simp only [Repository.answer] at member
    rcases answered : repository.execution id with error | ⟨_ | execution⟩
    · rw [answered] at member
      exact .inl member
    · rw [answered] at member
      exact .inl member
    · rw [answered] at member
      rcases List.mem_cons.1 member with rfl | before
      · exact .inr ⟨id, rfl, answered⟩
      · exact .inl before
  | _ => exact .inl member

end Standing

namespace System

variable {ι : Type} {calls : ι → Call} {s t : System ι} {i j : ι}
  {held : JobExecution} {moment : Timestamp} {request : Request}
  {next : request.Answer → Program Call.Result}

/-- What holds of every reachable system. -/
structure Sound (calls : ι → Call) (s : System ι) : Prop where
  books : s.books.Sound
  follows : ∀ i, (s.threads i).program.Follows (calls i).protocol (calls i).Final
    (s.threads i).standing
  holds : ∀ {i held}, (s.threads i).held = some held →
    s.books.Pinned BatchStatus.running held ∧ (calls i).IsFor held
  apart : ∀ {i j held other}, (s.threads i).held = some held → (s.threads j).held = some other →
    held.id = other.id → i = j
  seen : ∀ i, ∀ read ∈ (s.threads i).standing.seen, ∃ record ∈ s.books.past, read.CopyOf record

theorem Sound.start (calls : ι → Call) : Sound calls (start calls) where
  books := .empty
  follows i := (calls i).follows
  holds held := nomatch held
  apart held := nomatch held
  seen _ _ member := nomatch member

namespace Sound

/-- What a thread asks for is allowed by the protocol of its call. -/
theorem allows {action : Action} {next : action.Answer → Program Call.Result}
    (sound : Sound calls s) (ready : (s.threads i).program = .act action next) :
    (calls i).Allows (s.threads i).standing action := by
  have follows := sound.follows i
  rw [ready] at follows
  exact follows.1

/-- A launch writes the execution it holds, and an operator a copy it has read and found fit. -/
theorem write_cases {copy : JobExecution} {next : _ → Program Call.Result}
    (sound : Sound calls s)
    (ready : (s.threads i).program = .act (.request (.update copy)) next) :
    (∃ held, (s.threads i).held = some held ∧ copy.SameRecord held) ∨
    (∃ read record : JobExecution, record ∈ s.books.past ∧ read.CopyOf record ∧
      ((read.isRunning = true ∧ copy = read.upgradeStatus .stopping) ∨
        (read.isRunning = false ∧ copy = read.upgradeStatus .abandoned))) := by
  have allowed := sound.allows ready
  cases call : calls i with
  | launch launcher settings parameters rejection =>
    rw [call] at allowed
    exact .inl allowed
  | stop id =>
    rw [call] at allowed
    obtain ⟨read, member, running, same⟩ := allowed
    obtain ⟨record, past, copyOf⟩ := sound.seen i read member
    exact .inr ⟨read, record, past, copyOf, .inl ⟨running, same⟩⟩
  | abandon id =>
    rw [call] at allowed
    obtain ⟨read, member, ended, same⟩ := allowed
    obtain ⟨record, past, copyOf⟩ := sound.seen i read member
    exact .inr ⟨read, record, past, copyOf, .inr ⟨ended, same⟩⟩

/-- What a thread is about to write is a copy of its own record. -/
theorem genuine_of_ready (sound : Sound calls s)
    (ready : (s.threads i).program = .act (.request request) next) : s.books.Genuine request := by
  rintro copy rfl -
  rcases sound.write_cases ready with ⟨held, holding, same⟩ | ⟨read, record, past, copyOf, raised⟩
  · obtain ⟨id, record, -, found, sameRecord⟩ := (sound.holds holding).1.stored
    exact ⟨record, sound.books.remembered found, same.trans sameRecord⟩
  · have same : copy.SameRecord read := by
      rcases raised with ⟨-, rfl⟩ | ⟨-, rfl⟩ <;> exact .refl _
    exact ⟨record, past, same.trans copyOf.1⟩

/-- Nobody but its holder ends an execution that is held. -/
theorem quiet_of_ready (sound : Sound calls s)
    (ready : (s.threads i).program = .act (.request request) next)
    (holding : (s.threads j).held = some held)
    (own : ∀ copy, request = .update copy → i = j → copy.isRunning = true) (copy : JobExecution)
    (write : request = .update copy) (same : copy.id = held.id) :
    copy.status ∈ BatchStatus.running := by
  have pinned := (sound.holds holding).1
  subst write
  rcases sound.write_cases ready with
    ⟨mine, mineHeld, mineSame⟩ | ⟨read, record, past, copyOf, raised⟩
  · have equal := sound.apart mineHeld holding (mineSame.1.symm.trans same)
    exact BatchStatus.mem_running.2 (own copy rfl equal)
  · have sameId : read.id = held.id := by
      rcases raised with ⟨-, rfl⟩ | ⟨-, rfl⟩ <;> exact same
    have running : read.isRunning = true := by
      unfold JobExecution.isRunning
      rw [copyOf.2]
      exact BatchStatus.mem_running.1 (pinned.always record past (copyOf.1.1.symm.trans sameId))
    rcases raised with ⟨-, rfl⟩ | ⟨ended, -⟩
    · exact BatchStatus.stopping_of_running running
    · rw [running] at ended
      contradiction

/-- Only launches hold executions. -/
theorem target_of_held (sound : Sound calls s) (holding : (s.threads i).held ≠ none) :
    (calls i).target? ≠ none := by
  obtain ⟨held, holding⟩ := Option.ne_none_iff_exists'.1 holding
  rw [(sound.holds holding).2]
  simp

private theorem launch_allows {action : Action} {next : action.Answer → Program Call.Result}
    (sound : Sound calls s) (launch : (calls i).target? ≠ none)
    (ready : (s.threads i).program = .act action next) :
    ∃ jobName parameters, Launch.Allows jobName parameters (s.threads i).standing action := by
  have allowed := sound.allows ready
  cases call : calls i with
  | launch launcher settings parameters rejection =>
    rw [call] at allowed
    exact ⟨settings.name, parameters, allowed⟩
  | stop id => exact absurd (congrArg Call.target? call) launch
  | abandon id => exact absurd (congrArg Call.target? call) launch

/-- A launch writes and refreshes nothing but the execution it holds. -/
theorem held_of_write {copy : JobExecution} (sound : Sound calls s)
    (launch : (calls i).target? ≠ none)
    (write : request = .update copy ∨ request = .synchronize copy)
    (ready : (s.threads i).program = .act (.request request) next) :
    ∃ held, (s.threads i).held = some held ∧ copy.SameRecord held := by
  obtain ⟨jobName, parameters, allowed⟩ := sound.launch_allows launch ready
  rcases write with rfl | rfl <;> exact allowed

/-- The answers a thread relies on are the ones it gets. -/
theorem expects (sound : Sound calls s)
    (ready : (s.threads i).program = .act (.request request) next)
    (bound : (s.books.after moment request).created < 2 ^ 64) :
    (s.threads i).standing.Expects (.request request)
      (s.books.repository.answer moment request).1 := by
  cases request with
  | createExecution jobName parameters =>
    cases created : s.books.repository.createExecution moment jobName parameters with
    | error error =>
      simp only [Repository.answer, created]
      exact trivial
    | ok result =>
      obtain ⟨execution, repository⟩ := result
      obtain ⟨-, -, starting, numbered⟩ := sound.books.pinned_of_created bound created
      simp only [Repository.answer, created]
      exact ⟨starting, by simp [numbered]⟩
  | update copy =>
    intro holding
    obtain ⟨held, mine, same⟩ := sound.held_of_write (sound.target_of_held holding) (.inl rfl) ready
    obtain ⟨id, stored, -, -, answered⟩ := (sound.holds mine).1.update same moment
    rw [answered]
    exact ⟨rfl, rfl, rfl⟩
  | synchronize copy =>
    intro holding
    obtain ⟨held, mine, same⟩ := sound.held_of_write (sound.target_of_held holding) (.inr rfl) ready
    obtain ⟨stored, answered⟩ := (sound.holds mine).1.synchronize same
    change (s.books.repository.synchronize copy).result = .ok () ∧ _
    rw [Repository.answer, answered]
    exact ⟨rfl, rfl, rfl⟩
  | _ => exact trivial

/-- A new execution is for the instance of the launch that has claimed it. -/
theorem isFor_of_created {jobName : String} {parameters : JobParameters}
    {next : _ → Program Call.Result} (sound : Sound calls s)
    (ready : (s.threads i).program = .act (.request (.createExecution jobName parameters)) next)
    (matching : held.jobInstance.isFor jobName parameters = true) : (calls i).IsFor held := by
  obtain ⟨sameName, sameKey⟩ := JobInstance.isFor_iff.1 matching
  have allowed := sound.allows ready
  unfold Call.IsFor
  cases call : calls i with
  | launch launcher settings given rejection =>
    rw [call] at allowed
    obtain ⟨-, rfl, rfl⟩ := allowed
    rw [sameName, sameKey]
    rfl
  | stop id =>
    rw [call] at allowed
    exact False.elim allowed
  | abandon id =>
    rw [call] at allowed
    exact False.elim allowed

/-- A new execution is none that is held already. -/
theorem fresh_of_created {jobName : String} {parameters : JobParameters}
    {execution : JobExecution} {after : Repository} (sound : Sound calls s)
    (bound : (s.books.after moment (.createExecution jobName parameters)).created < 2 ^ 64)
    (created : s.books.repository.createExecution moment jobName parameters =
      .ok (execution, after)) (holding : (s.threads j).held = some held) :
    execution.id ≠ held.id := by
  obtain ⟨id, record, numbered, found, same⟩ := (sound.holds holding).1.stored
  obtain ⟨-, -, -, next⟩ := sound.books.pinned_of_created bound created
  rw [next, same.1]
  exact (sound.books.nextId_fresh_of_created bound created (sound.books.remembered found)).symm

/-- Somebody else makes a request. -/
theorem client_step (sound : Sound calls s) (honest : s.books.Honest request)
    (bound : (s.books.after moment request).created < 2 ^ 64) :
    Sound calls ⟨s.books.after moment request, s.threads⟩ where
  books := sound.books.after honest.genuine bound
  follows := sound.follows
  holds := by
    intro j held holding
    obtain ⟨pinned, isFor⟩ := sound.holds holding
    refine ⟨?_, isFor⟩
    apply pinned.after sound.books honest.genuine bound BatchStatus.unclaimable_of_running
    intro copy write same
    obtain ⟨id, -, numbered, -⟩ := pinned.stored
    obtain ⟨record, inside, copyOf⟩ := honest copy write (by rw [same, numbered]; simp)
    rw [copyOf.2]
    exact pinned.always record inside (copyOf.1.1.symm.trans same)
  apart := sound.apart
  seen := by
    intro j read member
    obtain ⟨record, inside, copyOf⟩ := sound.seen j read member
    exact ⟨record, Books.mem_past_after.2 (.inr inside), copyOf⟩

/-- Two calls for one instance do not both hold an execution. -/
theorem exclusive (sound : Sound calls s) {other : JobExecution}
    (holding : (s.threads i).held = some held) (otherHolding : (s.threads j).held = some other)
    (same : (calls i).target? = (calls j).target?) : i = j := by
  obtain ⟨pinned, isFor⟩ := sound.holds holding
  obtain ⟨otherPinned, otherIsFor⟩ := sound.holds otherHolding
  have targets := Option.some.inj (isFor.symm.trans (same.trans otherIsFor))
  exact sound.apart holding otherHolding (sound.books.id_eq_of_pinned pinned otherPinned
    (congrArg Prod.fst targets) (congrArg Prod.snd targets))

/-- A body runs only while the execution is held. -/
theorem held_of_inBody (sound : Sound calls s) (inBody : (s.threads i).InBody) :
    ∃ held, (s.threads i).held = some held := by
  obtain ⟨execution, next, ready⟩ := inBody
  have allowed := sound.allows ready
  cases call : calls i with
  | launch launcher settings parameters rejection =>
    rw [call] at allowed
    obtain ⟨held, holding, -⟩ := allowed
    exact ⟨held, holding⟩
  | stop id =>
    rw [call] at allowed
    exact False.elim allowed
  | abandon id =>
    rw [call] at allowed
    exact False.elim allowed

/-- What a launch writes, refreshes or saves as a context is carried out. -/
theorem succeeded_of_launch (sound : Sound calls s) (launch : (calls i).target? ≠ none)
    (ready : (s.threads i).program = .act (.request request) next) (moment : Timestamp) :
    request.Succeeded (s.books.repository.answer moment request).1 := by
  cases request with
  | update copy =>
    obtain ⟨held, holding, same⟩ := sound.held_of_write launch (.inl rfl) ready
    obtain ⟨id, stored, -, -, answered⟩ := (sound.holds holding).1.update same moment
    rw [answered]
    rfl
  | synchronize copy =>
    obtain ⟨held, holding, same⟩ := sound.held_of_write launch (.inr rfl) ready
    obtain ⟨stored, answered⟩ := (sound.holds holding).1.synchronize same
    change (s.books.repository.synchronize copy).result = .ok ()
    rw [answered]
  | updateContext copy =>
    obtain ⟨jobName, parameters, allowed⟩ := sound.launch_allows launch ready
    obtain ⟨id, numbered⟩ := Option.ne_none_iff_exists'.1 allowed
    change (s.books.repository.orKeepUnit (s.books.repository.updateContext copy)).1 = .ok ()
    have saved : ContextStore.ofExecution copy =
        .ok (id, ⟨copy.jobInstance.id, id, copy.context⟩) := by
      simp [ContextStore.ofExecution, numbered]
    unfold Repository.updateContext ContextStore.updateJob
    rw [saved]
    rfl
  | _ => exact trivial

/-- A launch writes its own record, and a terminal write stores the status of the copy. -/
theorem update_of_launch {copy : JobExecution} {next : _ → Program Call.Result}
    (sound : Sound calls s) (launch : (calls i).target? ≠ none)
    (ready : (s.threads i).program = .act (.request (.update copy)) next) (moment : Timestamp) :
    ∃ held id stored, (s.threads i).held = some held ∧ held.id = some id ∧ copy.id = some id ∧
      s.books.repository.executions.get? id = some stored ∧
      s.books.repository.answer moment (.update copy) =
        (⟨.ok (), Repository.written moment copy stored⟩,
          s.books.repository.withRecord id (Repository.written moment copy stored)) ∧
      (copy.isRunning = false → (Repository.written moment copy stored).status = copy.status) := by
  obtain ⟨held, holding, same⟩ := sound.held_of_write launch (.inl rfl) ready
  have pinned := (sound.holds holding).1
  obtain ⟨id, stored, numbered, found, answered⟩ := pinned.update same moment
  refine ⟨held, id, stored, holding, same.1.symm.trans numbered, numbered, found, answered, ?_⟩
  intro terminal
  have running := pinned.always stored (sound.books.remembered found)
    ((sound.books.consistent.executions.numbered found).trans (numbered.symm.trans same.1))
  exact Repository.status_written_of_terminal terminal (BatchStatus.mem_running.1 running)

/-! ## Steps -/

variable [DecidableEq ι]

/-- What a thread holds after a request has just been created by it, or it was held before and
the request has not ended it. -/
theorem held_request (sound : Sound calls s)
    (ready : (s.threads i).program = .act (.request request) next)
    (bound : (s.books.after moment request).created < 2 ^ 64)
    (holding : (Function.update s.threads i ((s.threads i).advance (.request request) next
      (s.books.repository.answer moment request).1) j).held = some held) :
    (j = i ∧ ∃ jobName parameters after, request = .createExecution jobName parameters ∧
      s.books.repository.createExecution moment jobName parameters = .ok (held, after)) ∨
    ((s.threads j).held = some held ∧
      ∀ copy, request = .update copy → i = j → copy.isRunning = true) := by
  by_cases own : j = i
  · subst own
    rw [Function.update_self] at holding
    rcases Standing.held_after holding with created | ⟨before, running⟩
    · exact .inl ⟨rfl, created⟩
    · refine .inr ⟨before, ?_⟩
      rintro copy rfl -
      have expected := sound.expects ready bound
      exact running copy rfl (expected (by rw [before]; simp)).1
  · rw [Function.update_of_ne own] at holding
    exact .inr ⟨holding, fun _ _ same => absurd same.symm own⟩

/-- A thread makes its request. -/
theorem request_step (sound : Sound calls s)
    (ready : (s.threads i).program = .act (.request request) next)
    (bound : (s.books.after moment request).created < 2 ^ 64) :
    Sound calls ⟨s.books.after moment request, Function.update s.threads i
      ((s.threads i).advance (.request request) next
        (s.books.repository.answer moment request).1)⟩ where
  books := sound.books.after (sound.genuine_of_ready ready) bound
  follows := by
    intro j
    by_cases own : j = i
    · subst own
      have follows := sound.follows j
      rw [ready] at follows
      simp only [Function.update_self]
      exact follows.2 _ (sound.expects ready bound)
    · simp only [Function.update_of_ne own]
      exact sound.follows j
  holds := by
    intro j held holding
    rcases sound.held_request ready bound holding with
      ⟨rfl, jobName, parameters, after, rfl, created⟩ | ⟨before, own⟩
    · obtain ⟨pinned, matching, -⟩ := sound.books.pinned_of_created bound created
      exact ⟨pinned, sound.isFor_of_created ready matching⟩
    · obtain ⟨pinned, isFor⟩ := sound.holds before
      exact ⟨pinned.after sound.books (sound.genuine_of_ready ready) bound
        BatchStatus.unclaimable_of_running (sound.quiet_of_ready ready before own), isFor⟩
  apart := by
    intro j k held other holding otherHolding same
    rcases sound.held_request ready bound holding with
      ⟨mine, jobName, parameters, after, isCreate, created⟩ | ⟨before, -⟩ <;>
      rcases sound.held_request ready bound otherHolding with
        ⟨otherMine, otherName, otherParameters, otherAfter, otherCreate, otherCreated⟩ |
          ⟨otherBefore, -⟩
    · rw [mine, otherMine]
    · subst isCreate
      exact absurd same (sound.fresh_of_created bound created otherBefore)
    · subst otherCreate
      exact absurd same.symm (sound.fresh_of_created bound otherCreated before)
    · exact sound.apart before otherBefore same
  seen := by
    intro j read member
    have kept (record : JobExecution) (inside : record ∈ s.books.past) :
        record ∈ (s.books.after moment request).past := Books.mem_past_after.2 (.inr inside)
    by_cases own : j = i
    · subst own
      simp only [Function.update_self] at member
      rcases Standing.seen_after member with before | ⟨id, -, answered⟩
      · obtain ⟨record, inside, copyOf⟩ := sound.seen j read before
        exact ⟨record, kept record inside, copyOf⟩
      · obtain ⟨record, inside, copyOf⟩ := sound.books.copy_of_read answered
        exact ⟨record, kept record inside, copyOf⟩
    · simp only [Function.update_of_ne own] at member
      obtain ⟨record, inside, copyOf⟩ := sound.seen j read member
      exact ⟨record, kept record inside, copyOf⟩

/-- A thread goes on without the repository. -/
theorem other_step {action : Action} {next : action.Answer → Program Call.Result}
    (sound : Sound calls s) (ready : (s.threads i).program = .act action next)
    (answer : action.Answer) (admitted : action.Admits answer) :
    Sound calls
      ⟨s.books, Function.update s.threads i ((s.threads i).advance action next answer)⟩ := by
  have standing := (s.threads i).standing.after_of_admits admitted
  have same (j : ι) : (Function.update s.threads i ((s.threads i).advance action next answer)
      j).standing = (s.threads j).standing := by
    by_cases own : j = i
    · rw [own, Function.update_self]
      exact standing.1
    · rw [Function.update_of_ne own]
  constructor
  · exact sound.books
  · intro j
    by_cases own : j = i
    · subst own
      have follows := sound.follows j
      rw [ready] at follows
      simp only [Function.update_self]
      exact follows.2 answer standing.2
    · simp only [Function.update_of_ne own]
      exact sound.follows j
  · intro j held holding
    exact sound.holds ((congrArg Standing.held (same j)).symm.trans holding)
  · intro j k held other holding otherHolding
    exact sound.apart ((congrArg Standing.held (same j)).symm.trans holding)
      ((congrArg Standing.held (same k)).symm.trans otherHolding)
  · intro j read member
    exact sound.seen j read (congrArg Standing.seen (same j) ▸ member)

/-- Whatever happens next, each held execution belongs to one launch and still runs. -/
theorem step (sound : Sound calls s) (step : Step s t) (bound : t.books.created < 2 ^ 64) :
    Sound calls t := by
  cases step with
  | request i moment ready => exact sound.request_step ready bound
  | other i ready answer admitted => exact sound.other_step ready answer admitted
  | client moment request honest => exact sound.client_step honest bound

/-- The system stays sound as long as the numbers have not run out. -/
theorem reaches (sound : Sound calls s) (reaches : Reaches s t)
    (bound : t.books.created < 2 ^ 64) : Sound calls t := by
  induction reaches with
  | refl => exact sound
  | tail _ last ih => exact (ih (Nat.lt_of_le_of_lt last.created_le bound)).step last bound

end Sound

/-- Whatever the order of steps: of the launches of one instance at most one is between its claim
and its terminal write, and only there its body runs. What a launch writes succeeds, and it is the
record it has claimed that it writes; the terminal write decides on the stored status. -/
theorem single_flight [DecidableEq ι] (calls : ι → Call) {s : System ι}
    (reached : Reaches (start calls) s) (bound : s.books.created < 2 ^ 64) :
    (∀ i j, (s.threads i).held ≠ none → (s.threads j).held ≠ none →
      (calls i).target? = (calls j).target? → i = j) ∧
    (∀ i, (s.threads i).InBody → (s.threads i).held ≠ none) ∧
    (∀ i j, (s.threads i).InBody → (s.threads j).InBody →
      (calls i).target? = (calls j).target? → i = j) ∧
    (∀ i request next moment, (calls i).target? ≠ none →
      (s.threads i).program = .act (.request request) next →
      request.Succeeded (s.books.repository.answer moment request).1) ∧
    (∀ i copy next moment, (calls i).target? ≠ none →
      (s.threads i).program = .act (.request (.update copy)) next →
      ∃ held id stored, (s.threads i).held = some held ∧ held.id = some id ∧ copy.id = some id ∧
        s.books.repository.executions.get? id = some stored ∧
        s.books.repository.answer moment (.update copy) =
          (⟨.ok (), Repository.written moment copy stored⟩,
            s.books.repository.withRecord id (Repository.written moment copy stored)) ∧
        (copy.isRunning = false →
          (Repository.written moment copy stored).status = copy.status)) := by
  have sound := (Sound.start calls).reaches reached bound
  have exclusive : ∀ i j, (s.threads i).held ≠ none → (s.threads j).held ≠ none →
      (calls i).target? = (calls j).target? → i = j := by
    intro i j holding otherHolding same
    obtain ⟨held, holding⟩ := Option.ne_none_iff_exists'.1 holding
    obtain ⟨other, otherHolding⟩ := Option.ne_none_iff_exists'.1 otherHolding
    exact sound.exclusive holding otherHolding same
  have holds : ∀ i, (s.threads i).InBody → (s.threads i).held ≠ none := by
    intro i inBody
    obtain ⟨held, holding⟩ := sound.held_of_inBody inBody
    simp [holding]
  refine ⟨exclusive, holds, ?_, ?_, ?_⟩
  · intro i j inBody otherInBody
    exact exclusive i j (holds i inBody) (holds j otherInBody)
  · intro i request next moment launch ready
    exact sound.succeeded_of_launch launch ready moment
  · intro i copy next moment launch ready
    exact sound.update_of_launch launch ready moment

/-- Of two launches of one instance, the second holds nothing when the first has made its claim. -/
theorem single_flight_after_claim :
    ∃ s : System Bool,
      Reaches (start fun _ => .launch ⟨.usual, none⟩ ⟨"import", false, none⟩ .empty none) s ∧
      s.books.created < 2 ^ 64 ∧ (s.threads true).held ≠ none ∧ (s.threads false).held = none := by
  obtain ⟨s, reached, bound, holding⟩ : ∃ s : System Bool,
      Reaches (start fun _ => .launch ⟨.usual, none⟩ ⟨"import", false, none⟩ .empty none) s ∧
      s.books.created < 2 ^ 64 ∧ (s.threads true).held ≠ none := by
    refine ⟨_, .tail (.tail .refl (.request true ⟨0, 0⟩ rfl)) (.request true ⟨0, 0⟩ rfl), ?_, ?_⟩
    · exact (by decide : 1 < 2 ^ 64)
    · exact Option.some_ne_none _
  refine ⟨s, reached, bound, holding, ?_⟩
  by_contra other
  have same := (single_flight _ reached bound).1 true false holding other rfl
  contradiction

end System

end BatchRun
