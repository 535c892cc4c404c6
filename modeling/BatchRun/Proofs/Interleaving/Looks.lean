import BatchRun.Proofs.Interleaving.Books
import BatchRun.Proofs.Repository.Claims

/-! # How long a look at an execution stays true

The record of an instance stays the one that it is until the instance is claimed again, whatever
else is requested. It is still shown as it has been read, with the same steps, as long as nobody
writes it, writes or adds a step of it, or adds the first step of another execution of an instance
that one of these steps is for.
-/

namespace BatchRun

/-- The request may change how an execution is shown that has been read with this number and these
steps, other than in its contexts. -/
def Request.Reshapes (id? : Option JobExecutionId) (shown : List StepExecution) : Request → Prop
  | .update copy => copy.id = id?
  | .updateStep given => some given.jobExecutionId = id?
  | .addStep given =>
    some given.jobExecutionId = id? ∨ ∃ other ∈ shown, other.jobInstanceId = given.jobInstanceId
  | _ => False

/-- The contexts of steps make no difference to what is reshaped. -/
theorem Request.reshapes_withStepContext {request : Request} {id? : Option JobExecutionId}
    {shown : List StepExecution} (repository : Repository) :
    request.Reshapes id? (shown.map repository.withStepContext) ↔ request.Reshapes id? shown := by
  cases request with
  | addStep given =>
    unfold Reshapes
    simp only [List.mem_map, exists_exists_and_eq_and]
    rfl
  | _ => rfl

/-- The request is no claim of the instance with this name and identity key that is granted. -/
def Books.Spares (books : Books) (target : String × String) (request : Request) : Prop :=
  ∀ jobName parameters claimed, request = .createExecution jobName parameters →
    books.repository.claim jobName parameters = .ok claimed →
    (jobName, parameters.identityKey) ≠ target

section Group

variable {repository after : Repository} {now : Timestamp} {request : Request}
  {writing : Option Writing} {id : JobExecutionId} {stored : JobExecution}

/-- The steps of a record stay together unless one is written or added, or the group makes room for
the steps of another execution. -/
theorem Repository.Change.group_eq (change : repository.Change now request writing after)
    (numbered : stored.id = some id)
    (unshaped : ¬ request.Reshapes stored.id (repository.listedSteps stored)) :
    after.steps.groups.get? id = repository.steps.groups.get? id := by
  rw [numbered] at unshaped
  cases change with
  | stepWritten =>
    refine StepStore.groups_withStep.trans (if_neg ?_)
    rintro rfl
    exact unshaped rfl
  | stepAdded =>
    refine (StepStore.groups_withStep.trans (if_neg ?_)).trans ?_
    · rintro rfl
      exact unshaped (.inl rfl)
    refine Option.ext fun group => StepStore.get?_retained.trans ?_
    refine and_iff_left_of_imp fun found => .inr (Bool.eq_false_iff.2 fun isGroup => ?_)
    -- the first step of the group is among those that are shown
    unfold StepStore.isGroupOf at isGroup
    cases steps : group.values with
    | nil => simp [steps] at isGroup
    | cons first rest =>
      have occupied : group.isEmpty = false := by
        simpa [SortedMap.isEmpty, SortedMap.values] using congrArg List.isEmpty steps
      refine unshaped (.inr ⟨first, ?_, by simpa [steps] using isGroup⟩)
      simp [Repository.listedSteps, numbered, found, occupied, steps]
  | _ => rfl

end Group

namespace Books.Sound

variable {books : Books} {now : Timestamp} {request : Request} {id : JobExecutionId}
  {stored later : JobExecution} {target : String × String}

/-- As long as an instance is not claimed, its record is the one that it was. -/
theorem origin_of_spared (sound : books.Sound) (genuine : books.Genuine request)
    (spared : books.Spares target request)
    (found : (books.after now request).repository.executions.get? id = some later)
    (own : later.jobInstance.target = target) :
    ∃ stored, books.repository.executions.get? id = some stored ∧
      stored.jobInstance = later.jobInstance := by
  have effect := Repository.effect_answer books.repository now request
  rw [← repository_after] at effect
  generalize (books.after now request).repository = after at effect found
  cases effect with
  | none refused executions instances => exact ⟨later, executions ▸ found, rfl⟩
  | write numbered lookup =>
    rw [Repository.get?_withRecord] at found
    split at found
    · rename_i same
      obtain rfl := Option.some.inj found
      exact ⟨_, same ▸ lookup, (sound.genuine genuine _ rfl _
        (ExecutionStore.recordOf?_eq_some_iff.2 ⟨_, numbered, lookup⟩)).symm⟩
    · exact ⟨later, found, rfl⟩
  | create granted executions instances =>
    obtain ⟨sameExecutions, matching⟩ := Repository.isFor_of_claim granted
    rw [executions, sameExecutions] at found
    rcases ExecutionStore.get?_afterSave.1 found with ⟨-, rfl⟩ | ⟨-, kept, -⟩
    · exact absurd ((JobInstance.isFor_iff_target.1 matching).symm.trans own)
        (spared _ _ _ rfl granted)
    · exact ⟨later, kept, rfl⟩

/-- As long as an instance is not claimed, its record is stored as it was until it is written. -/
theorem kept_of_spared (sound : books.Sound)
    (bound : (books.after now request).created < 2 ^ 64)
    (afterwards : (books.after now request).Sound) (spared : books.Spares target request)
    (found : books.repository.executions.get? id = some stored)
    (own : stored.jobInstance.target = target)
    (unwritten : ∀ copy, request = .update copy → copy.id ≠ some id) :
    (books.after now request).repository.executions.get? id = some stored := by
  have few := Nat.lt_of_le_of_lt afterwards.few bound
  have fresh : ∀ {jobName parameters execution after},
      request = .createExecution jobName parameters →
      books.repository.createExecution now jobName parameters = .ok (execution, after) →
      id ≠ ⟨books.repository.executions.lastId + 1⟩ := by
    rintro jobName parameters execution after rfl created rfl
    exact sound.nextId_fresh_of_created bound created (sound.remembered found)
      (sound.consistent.executions.numbered found)
  have effect := Repository.effect_answer books.repository now request
  rw [← repository_after] at effect
  generalize (books.after now request).repository = after at effect few ⊢
  cases effect with
  | none refused executions instances => exact executions ▸ found
  | write numbered lookup =>
    rw [Repository.get?_withRecord, if_neg]
    · exact found
    · rintro rfl
      exact unwritten _ rfl numbered
  | create granted executions instances =>
    obtain ⟨sameExecutions, matching⟩ := Repository.isFor_of_claim granted
    obtain ⟨wellFormed, member, kept⟩ := sound.consistent.claim granted
    obtain ⟨contexts, created⟩ := Repository.createExecution_of_claim now granted
    rw [executions, sameExecutions]
    refine ExecutionStore.get?_afterSave.2 (.inr ⟨fresh rfl created, found, fun same => ?_⟩)
    rw [instances] at few
    have equal := wellFormed.eq_of_same_id few (kept _ (sound.consistent.belongs found)) member same
    exact spared _ _ _ rfl granted
      ((JobInstance.isFor_iff_target.1 matching).symm.trans (equal ▸ own))

end Books.Sound

end BatchRun
