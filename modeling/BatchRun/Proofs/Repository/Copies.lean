import BatchRun.Proofs.Repository.Reading

/-! # The copies that answers hand out

Every answer hands out copies of its own. A copy that has been read is a stored record with its
context and steps put together, and reading changes nothing. A copy that was given to a write comes
back as it has been written, or as it was except for its stamp.
-/

namespace BatchRun

namespace Request

/-- The job executions that an answer hands out. -/
def copies : (request : Request) → request.Answer → List JobExecution
  | lastExecution .., .ok read | execution _, .ok read => read.toList
  | executionsOf _, .ok read | runningExecutions _, .ok read => read
  | createExecution .., .ok created => [created]
  | update _, written | synchronize _, written => [written.copy]
  | _, _ => []

/-- The steps that an answer hands out on their own. -/
def ownSteps : (request : Request) → request.Answer → List StepExecution
  | lastStep .., read | step .., read => read.toList
  | addStep _, written | updateStep _, written => [written.copy]
  | _, _ => []

/-- All steps that an answer hands out, those within job executions included. -/
def stepCopies (request : Request) (answer : request.Answer) : List StepExecution :=
  (request.copies answer).flatMap (·.steps) ++ request.ownSteps answer

end Request

namespace Repository

variable {repository : Repository} {now : Timestamp} {request : Request} {id : JobExecutionId}
  {copy stored read : JobExecution}

/-- Where a copy of a job execution comes from that is handed out. -/
inductive Handed (repository : Repository) (now : Timestamp) : Request → JobExecution → Prop
  | read {request : Request} {id : JobExecutionId} {stored : JobExecution}
      (idle : (repository.answer now request).2 = repository)
      (found : repository.executions.get? id = some stored) :
      Handed repository now request (repository.assembled stored)
  | created {jobName : String} {parameters : JobParameters} {execution : JobExecution}
      {after : Repository}
      (created : repository.createExecution now jobName parameters = .ok (execution, after)) :
      Handed repository now (.createExecution jobName parameters) execution
  | written {copy stored : JobExecution} {id : JobExecutionId} (numbered : copy.id = some id)
      (found : repository.executions.get? id = some stored) :
      Handed repository now (.update copy) (written now copy stored)
  | refreshed {copy stored : JobExecution} {id : JobExecutionId} (numbered : copy.id = some id)
      (found : repository.executions.get? id = some stored) :
      Handed repository now (.synchronize copy) (copy.refreshedFrom stored)
  | kept {request : Request} {copy : JobExecution} {lastUpdated : Option Timestamp}
      (idle : (repository.answer now request).2 = repository)
      (given : request = .update copy ∨ request = .synchronize copy)
      (missing : repository.executions.recordOf? copy = none) :
      Handed repository now request { copy with lastUpdated }

/-- A copy that is handed out has one of these origins. -/
theorem handed_of_mem (wellNumbered : repository.executions.Numbered)
    (member : copy ∈ request.copies (repository.answer now request).1) :
    Handed repository now request copy := by
  cases request with
  | lastExecution jobName parameters =>
    simp only [answer, lastExecution_eq wellNumbered, Request.copies, Option.mem_toList,
      Option.map_eq_some_iff, Option.bind_eq_some_iff] at member
    obtain ⟨stored, ⟨known, -, last⟩, rfl⟩ := member
    rcases repository.executions.last?_cases known.id with ⟨-, nothing⟩ | ⟨other, inside, isLast⟩
    · rw [nothing] at last
      contradiction
    · obtain rfl := Option.some.inj (isLast.symm.trans last)
      obtain ⟨⟨id, found⟩, -⟩ := ExecutionStore.mem_ofInstance.1 inside
      exact .read rfl found
  | executionsOf known =>
    simp only [answer, executionsOf_eq wellNumbered, Request.copies, List.mem_map] at member
    obtain ⟨stored, inside, rfl⟩ := member
    obtain ⟨⟨id, found⟩, -⟩ := ExecutionStore.mem_ofInstance.1 inside
    exact .read rfl found
  | runningExecutions jobName =>
    simp only [answer, runningExecutions_eq wellNumbered, Request.copies, List.mem_map] at member
    obtain ⟨stored, inside, rfl⟩ := member
    obtain ⟨⟨id, found⟩, -⟩ := ExecutionStore.mem_running.1 inside
    exact .read rfl found
  | execution id =>
    simp only [answer, execution_eq wellNumbered, Request.copies, Option.mem_toList,
      Option.map_eq_some_iff] at member
    obtain ⟨stored, found, rfl⟩ := member
    exact .read rfl found
  | createExecution jobName parameters =>
    cases created : repository.createExecution now jobName parameters with
    | error error =>
      rw [answer_of_not_created created] at member
      exact absurd member List.not_mem_nil
    | ok made =>
      rw [answer_of_created created] at member
      obtain rfl := List.mem_singleton.1 member
      exact .created created
  | update given =>
    cases record : repository.executions.recordOf? given with
    | none =>
      obtain ⟨error, lastUpdated, refused⟩ := update_of_no_record now record
      have idle : (repository.answer now (.update given)).2 = repository :=
        congrArg Prod.snd refused
      simp only [answer, refused, Request.copies, List.mem_singleton] at member
      exact member ▸ .kept idle (.inl rfl) record
    | some stored =>
      obtain ⟨id, numbered, found⟩ := ExecutionStore.recordOf?_eq_some_iff.1 record
      simp only [answer, update_of_record now numbered found, Request.copies,
        List.mem_singleton] at member
      exact member ▸ .written numbered found
  | synchronize given =>
    cases record : repository.executions.recordOf? given with
    | none =>
      obtain ⟨error, refused⟩ := synchronize_of_no_record record
      simp only [answer, refused, Request.copies, List.mem_singleton] at member
      rw [member]
      have kept : Handed repository now (.synchronize given)
          { given with lastUpdated := given.lastUpdated } := .kept rfl (.inr rfl) record
      exact kept
    | some stored =>
      obtain ⟨id, numbered, found⟩ := ExecutionStore.recordOf?_eq_some_iff.1 record
      simp only [answer, synchronize_of_record numbered found, Request.copies,
        List.mem_singleton] at member
      exact member ▸ .refreshed numbered found
  | _ => exact absurd member List.not_mem_nil

end Repository

end BatchRun
