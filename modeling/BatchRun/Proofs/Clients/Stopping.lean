import BatchRun.Proofs.Clients.Status
import BatchRun.Proofs.Clients.Underway

/-! # Stop requests among clients

A stop request is a status in the record of an execution that is running. Clients that only raise
statuses and do not end the execution cannot take it back. Every copy of the execution that is
refreshed after it shows it, whether the copy has the version of the record or an older one.
-/

namespace BatchRun

/-- An execution that is running and has been asked to stop has the status of a stop request. -/
theorem BatchStatus.eq_stopping {status : BatchStatus} (running : status.isRunning = true)
    (asked : BatchStatus.stopping ≤ status) : status = .stopping := by
  revert running asked
  cases status <;> decide

/-- A write does not lower the status of the copy. -/
theorem Repository.le_status_written {now : Timestamp} {copy stored : JobExecution} :
    copy.status ≤ (written now copy stored).status := by
  change copy.status ≤ if stored.version = copy.version then copy.status
    else copy.status.upgradeTo stored.status
  split
  · exact BatchStatus.le_refl _
  · exact (BatchStatus.le_upgradeTo ..).1

namespace Session

variable {session next : Session} {now : Timestamp} {id : JobExecutionId} {copy : JobExecution}

/-- An edit that only raises the status of an execution, and does not end this one. It may leave
the status as it is. -/
def Advances (id : JobExecutionId) (original edited : JobExecution) : Prop :=
  Raises original edited ∧ KeepsRunning (some id) original edited

/-- The execution has been asked to stop, if it is still stored. -/
structure Asked (id : JobExecutionId) (session : Session) : Prop where
  given : id.value ≤ session.repository.executions.lastId
  stored {stored : JobExecution} (found : session.repository.executions.get? id = some stored) :
    .stopping ≤ stored.status

/-! ## Clients that advance an execution -/

/-- Clients that only move an execution on lower no status. -/
theorem Ranked.reaches (ranked : session.Ranked) (reaches : Reaches (Advances id) session next)
    (few : next.Few) : next.Ranked ∧ session.Rises next := by
  have raises {before after : Session} (step : Step (Advances id) before after) :
      Step Raises before after := step.imp fun _ _ advances => advances.1
  exact RankedOf.reaches ranked (Relation.ReflTransGen.mono (fun _ _ step =>
    (raises step).of_raises) _ _ reaches) few

/-- The execution stays underway meanwhile. -/
theorem Underway.advance (underway : session.Underway id)
    (reaches : Reaches (Advances id) session next) (few : next.Few) : next.Underway id :=
  reaches.invariant few underway fun step few underway =>
    underway.step (step.imp fun _ _ advances => advances.2) few

/-- What has been in hand once stays in hand. -/
theorem Reaches.mem_executions {Permitted : JobExecution → JobExecution → Prop}
    (reaches : Reaches Permitted session next) (inHand : copy ∈ session.executions) :
    copy ∈ next.executions := by
  induction reaches with
  | refl => exact inHand
  | tail _ step ih => cases step <;> first | exact List.mem_append_left _ ih | exact ih

/-! ## The request -/

/-- A stop that has been asked for is not forgotten while statuses only rise. -/
theorem Asked.of_rises (asked : session.Asked id) (rises : session.Rises next) :
    next.Asked id where
  given := UInt64.le_trans asked.given rises.given
  stored found := by
    obtain ⟨stored, earlier, higher⟩ := rises.origin trivial asked.given found
    exact BatchStatus.le_trans (asked.stored earlier) higher

/-- The execution has been asked to stop when a copy with this status has been written. -/
theorem Ranked.asked_of_update (ranked : (session.call now (.update copy)).Ranked)
    (own : copy.id = some id) (status : .stopping ≤ copy.status)
    (wrote : (session.repository.update now copy).1.result = .ok ()) :
    (session.call now (.update copy)).Asked id := by
  cases record : session.repository.executions.recordOf? copy with
  | none =>
    obtain ⟨error, lastUpdated, refused⟩ := Repository.update_of_no_record now record
    rw [refused] at wrote
    contradiction
  | some stored =>
    obtain ⟨key, numbered, found⟩ := ExecutionStore.recordOf?_eq_some_iff.1 record
    obtain rfl : key = id := Option.some.inj (numbered.symm.trans own)
    have lookup : (session.call now (.update copy)).repository.executions.get? key =
        some (Repository.written now copy stored) := by
      change (session.repository.update now copy).2.executions.get? key = _
      rw [Repository.update_of_record now own found, Repository.get?_withRecord, if_pos rfl]
    refine ⟨(ranked.stored lookup).1, fun later => ?_⟩
    obtain rfl := Option.some.inj (lookup.symm.trans later)
    exact BatchStatus.le_trans status Repository.le_status_written

/-- A copy that is refreshed after the request shows it. -/
theorem Underway.isStopping_refreshed (underway : session.Underway id) (ranked : session.Ranked)
    (asked : session.Asked id) (inHand : copy ∈ session.executions) (own : copy.id = some id) :
    ∃ stored, session.repository.executions.get? id = some stored ∧
      (copy.refreshedFrom stored).isStopping = true := by
  obtain ⟨stored, found, running⟩ := underway.stored
  refine ⟨stored, found, ?_⟩
  have shown := (ranked.keepsUp trivial inHand own found).refreshed
  have going := JobExecution.isRunning_refreshedFrom (underway.held copy inHand own) running
  have stopping := BatchStatus.eq_stopping going (BatchStatus.le_trans (asked.stored found) shown)
  simp [JobExecution.isStopping, stopping]

end Session

end BatchRun
