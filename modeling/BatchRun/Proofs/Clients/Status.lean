import BatchRun.Proofs.Clients.Session
import BatchRun.Proofs.Repository.Consistency

/-! # A stored status never moves backward

A write takes over the stored status only if the copy has an old version. A copy with the current
version is written with its own status, so that must be no lower: each copy in hand that has the
version of its record has a status that is at least the stored one. This holds of every copy that an
answer hands out, it is kept by edits that only raise the status, and a record that is written over
leaves all older copies with an old version.
-/

namespace BatchRun

namespace BatchStatus

theorem le_refl (status : BatchStatus) : status ≤ status := Nat.le_refl _

theorem le_trans {first second third : BatchStatus} (left : first ≤ second)
    (right : second ≤ third) : first ≤ third := Nat.le_trans left right

/-- An upgraded status is at least as high as both. -/
theorem le_upgradeTo (status other : BatchStatus) :
    status ≤ status.upgradeTo other ∧ other ≤ status.upgradeTo other := by
  change status.ordinal ≤ (status.upgradeTo other).ordinal ∧
    other.ordinal ≤ (status.upgradeTo other).ordinal
  rw [ordinal_upgradeTo]
  exact ⟨Nat.le_max_left .., Nat.le_max_right ..⟩

end BatchStatus

namespace JobExecution

variable {copy other stored : JobExecution} {now : Timestamp}

/-- A copy is not ahead of its record, and if it is not behind either, its status is at least the
stored one. -/
structure KeepsUpWith (copy stored : JobExecution) : Prop where
  version : copy.version ≤ stored.version
  status : copy.version = stored.version → stored.status ≤ copy.status

/-- A copy with the version and the status of the record keeps up with it. -/
theorem KeepsUpWith.of_same (version : copy.version = stored.version)
    (status : copy.status = stored.status) : copy.KeepsUpWith stored :=
  ⟨version ▸ UInt64.le_refl _, fun _ => status ▸ BatchStatus.le_refl _⟩

/-- Refreshing a copy that keeps up does not lower the status. -/
theorem KeepsUpWith.refreshed (keeps : copy.KeepsUpWith stored) :
    stored.status ≤ (copy.refreshedFrom stored).status := by
  change stored.status ≤ if stored.version = copy.version then copy.status
    else copy.status.upgradeTo stored.status
  split
  · rename_i current
    exact keeps.status current.symm
  · exact (BatchStatus.le_upgradeTo ..).2

/-- A record that is written over leaves all copies behind that were not ahead of it. -/
theorem version_lt_written (behind : copy.version ≤ stored.version)
    (room : stored.version.toNat + 1 < 2 ^ 64) :
    copy.version < (Repository.written now other stored).version := by
  change copy.version < stored.version + 1
  rw [UInt64.lt_iff_toNat_lt, toNat_add_one room]
  exact Nat.lt_succ_of_le (UInt64.le_iff_toNat_le.1 behind)

end JobExecution

namespace Session

variable {session next : Session} {now : Timestamp} {request : Request} {id : JobExecutionId}
  {copy later : JobExecution} {Concerns : JobExecutionId → Prop}

/-- An edit that leaves the status of an execution or raises it. -/
def Raises (original edited : JobExecution) : Prop := original.status ≤ edited.status

/-- An edit that does so if it is of one of these executions. -/
def RaisesOf (Concerns : JobExecutionId → Prop) (original edited : JobExecution) : Prop :=
  ∀ id, original.id = some id → Concerns id → original.status ≤ edited.status

/-- No copy in hand is ahead of its record, as far as this is stored, and the copies of these
executions keep up with it. -/
structure RankedOf (Concerns : JobExecutionId → Prop) (session : Session) : Prop where
  numbered : session.repository.executions.Numbered
  counted : session.repository.executions.lastId.toNat ≤ session.writings.length
  stored {id : JobExecutionId} {stored : JobExecution}
    (found : session.repository.executions.get? id = some stored) :
    id.value ≤ session.repository.executions.lastId ∧
      stored.version.toNat ≤ session.writings.length
  held {copy : JobExecution} {id : JobExecutionId} (inHand : copy ∈ session.executions)
    (numbered : copy.id = some id) : id.value ≤ session.repository.executions.lastId
  behind {copy stored : JobExecution} {id : JobExecutionId} (inHand : copy ∈ session.executions)
    (numbered : copy.id = some id)
    (found : session.repository.executions.get? id = some stored) : copy.version ≤ stored.version
  keepsUp {copy stored : JobExecution} {id : JobExecutionId} (concerns : Concerns id)
    (inHand : copy ∈ session.executions) (numbered : copy.id = some id)
    (found : session.repository.executions.get? id = some stored) : copy.KeepsUpWith stored

/-- The numbers that have been given stay given, and a record of these executions succeeds an
earlier one with a status that is no higher. -/
structure RisesOf (Concerns : JobExecutionId → Prop) (session next : Session) : Prop where
  given : session.repository.executions.lastId ≤ next.repository.executions.lastId
  origin {id : JobExecutionId} {later : JobExecution} (concerns : Concerns id)
    (given : id.value ≤ session.repository.executions.lastId)
    (found : next.repository.executions.get? id = some later) :
    ∃ stored, session.repository.executions.get? id = some stored ∧ stored.status ≤ later.status

theorem RisesOf.of_same (same : next.repository = session.repository) :
    RisesOf Concerns session next where
  given := same ▸ UInt64.le_refl _
  origin _ _ found := ⟨_, same ▸ found, BatchStatus.le_refl _⟩

theorem RisesOf.trans {middle : Session} (first : RisesOf Concerns session middle)
    (second : RisesOf Concerns middle next) : RisesOf Concerns session next where
  given := UInt64.le_trans first.given second.given
  origin concerns given found := by
    obtain ⟨between, found, upper⟩ :=
      second.origin concerns (UInt64.le_trans given first.given) found
    obtain ⟨stored, found, lower⟩ := first.origin concerns given found
    exact ⟨stored, found, BatchStatus.le_trans lower upper⟩

namespace RankedOf

theorem start : RankedOf Concerns start where
  numbered := .empty
  counted := Nat.le_refl 0
  stored found := by simp [Session.start, Repository.empty, ExecutionStore.empty,
    ExecutionStore.get?] at found
  held inHand := absurd inHand List.not_mem_nil
  behind inHand := absurd inHand List.not_mem_nil
  keepsUp _ inHand := absurd inHand List.not_mem_nil

private theorem room (ranked : RankedOf Concerns session) (few : (session.call now request).Few)
    {writing : Writing}
    (wrote : request.writing? (session.repository.answer now request).1 = some writing) :
    (session.call now request).writings.length = session.writings.length + 1 ∧
      session.repository.executions.lastId.toNat + 1 < 2 ^ 64 := by
  have counted := ranked.counted
  have length : (session.call now request).writings.length = session.writings.length + 1 := by
    simp [call, wrote]
  unfold Few at few
  omega

-- The numbers that have been given are still known as such, and no more have been given than there
-- are writings.
private theorem given_call (ranked : RankedOf Concerns session)
    (few : (session.call now request).Few) :
    session.repository.executions.lastId ≤
        (session.call now request).repository.executions.lastId ∧
      (session.call now request).repository.executions.lastId.toNat ≤
        (session.call now request).writings.length := by
  have change := Repository.change_answer session.repository now request
  have counted := ranked.counted
  rcases change.lastId_cases with same | ⟨⟨execution, wrote⟩, next⟩
  · refine ⟨same ▸ UInt64.le_refl _, Nat.le_trans (same ▸ counted) ?_⟩
    simp [call]
  · obtain ⟨length, room⟩ := ranked.room few wrote
    refine ⟨next ▸ le_add_one room, ?_⟩
    change (session.repository.answer now request).2.executions.lastId.toNat ≤ _
    rw [next, toNat_add_one room, length]
    omega

-- A record with a number that was given before is the earlier one, or it has been written over that
-- one and has left all copies behind. The status of a concerned one is no lower.
private theorem succeeds (ranked : RankedOf Concerns session) (inHand : session.Holds request)
    (few : (session.call now request).Few)
    (given : id.value ≤ session.repository.executions.lastId)
    (found : (session.call now request).repository.executions.get? id = some later) :
    ∃ stored, session.repository.executions.get? id = some stored ∧
      (Concerns id → stored.status ≤ later.status) ∧
      (later = stored ∨
        ∀ copy : JobExecution, copy.version ≤ stored.version → copy.version < later.version) := by
  have change := Repository.change_answer session.repository now request
  rcases change.record_cases found with
    kept | ⟨⟨execution, wrote⟩, new, -⟩ | ⟨copy, stored, rfl, wrote, numbered, record, rfl⟩
  · exact ⟨later, kept, fun _ => BatchStatus.le_refl _, .inl rfl⟩
  · obtain ⟨-, room⟩ := ranked.room few wrote
    exact absurd new (RecordId.ne_next given room)
  · obtain ⟨length, -⟩ := ranked.room few wrote
    obtain ⟨-, versions⟩ := ranked.stored record
    refine ⟨stored, record, fun concerns => ?_, .inr fun _ behind => ?_⟩
    · exact (ranked.keepsUp concerns inHand numbered record).refreshed
    · unfold Few at few
      exact JobExecution.version_lt_written behind (by omega)

private theorem stored_call (ranked : RankedOf Concerns session)
    (few : (session.call now request).Few)
    (found : (session.call now request).repository.executions.get? id = some later) :
    id.value ≤ (session.call now request).repository.executions.lastId ∧
      later.version.toNat ≤ (session.call now request).writings.length := by
  obtain ⟨grown, -⟩ := ranked.given_call few
  have length : session.writings.length ≤ (session.call now request).writings.length := by
    simp [Session.call]
  have change := Repository.change_answer session.repository now request
  rcases change.record_cases found with
    kept | ⟨⟨execution, wrote⟩, rfl, first, last⟩ | ⟨copy, stored, -, wrote, -, record, rfl⟩
  · obtain ⟨given, versions⟩ := ranked.stored kept
    exact ⟨UInt64.le_trans given grown, Nat.le_trans versions length⟩
  · obtain ⟨length, -⟩ := ranked.room few wrote
    refine ⟨last ▸ UInt64.le_refl _, ?_⟩
    rw [first, length]
    exact Nat.le_add_left ..
  · obtain ⟨length, -⟩ := ranked.room few wrote
    obtain ⟨given, versions⟩ := ranked.stored record
    refine ⟨UInt64.le_trans given grown, ?_⟩
    unfold Few at few
    change (stored.version + 1).toNat ≤ _
    rw [toNat_add_one (by omega), length]
    omega

private theorem handed (ranked : RankedOf Concerns session) (inHand : session.Holds request)
    (member : copy ∈ request.copies (session.repository.answer now request).1)
    (numbered : copy.id = some id) :
    (session.call now request).repository.executions.get? id = none ∧
        id.value ≤ session.repository.executions.lastId ∨
    ∃ stored, (session.call now request).repository.executions.get? id = some stored ∧
      copy.version = stored.version ∧ (Concerns id → copy.KeepsUpWith stored) := by
  change (session.repository.answer now request).2.executions.get? id = none ∧ _ ∨
    ∃ stored, (session.repository.answer now request).2.executions.get? id = some stored ∧ _
  cases Repository.handed_of_mem ranked.numbered member with
  | @read request key stored idle found =>
    obtain rfl : key = id := by
      simpa using (ranked.numbered.numbered found).symm.trans numbered
    rw [idle]
    exact .inr ⟨stored, found, rfl, fun _ => .of_same rfl rfl⟩
  | created created =>
    obtain ⟨-, stored, found, given, own, -⟩ := Repository.record_of_created created
    rw [given] at numbered ⊢
    obtain rfl := Option.some.inj (own.symm.trans numbered)
    rw [Repository.answer_of_created created]
    exact .inr ⟨stored, found, rfl, fun _ => .of_same rfl rfl⟩
  | @written given stored key own found =>
    obtain rfl : key = id := Option.some.inj (own.symm.trans numbered)
    refine .inr ⟨Repository.written now given stored, ?_, rfl, fun _ => .of_same rfl rfl⟩
    simp only [Repository.answer, Repository.update_of_record now own found]
    rw [Repository.get?_withRecord, if_pos rfl]
  | @refreshed given stored key own found =>
    obtain rfl : key = id := Option.some.inj (own.symm.trans numbered)
    exact .inr ⟨stored, found, rfl, fun concerns => ⟨UInt64.le_refl _, fun _ =>
      (ranked.keepsUp concerns inHand own found).refreshed⟩⟩
  | @kept request given lastUpdated idle same missing =>
    have inHand : given ∈ session.executions := by
      rcases same with rfl | rfl <;> exact inHand
    have own : given.id = some id := numbered
    rw [idle]
    refine .inl ⟨?_, ranked.held inHand own⟩
    simpa [ExecutionStore.recordOf?, own] using missing

theorem call (ranked : RankedOf Concerns session) (inHand : session.Holds request)
    (few : (session.call now request).Few) : RankedOf Concerns (session.call now request) where
  numbered := (Repository.effect_answer session.repository now request).numbered ranked.numbered
  counted := (ranked.given_call few).2
  stored := ranked.stored_call few
  held := by
    intro copy id member numbered
    obtain ⟨grown, -⟩ := ranked.given_call few
    rcases List.mem_append.1 member with before | handed
    · exact UInt64.le_trans (ranked.held before numbered) grown
    · rcases ranked.handed inHand handed numbered with ⟨-, given⟩ | ⟨stored, found, -⟩
      · exact UInt64.le_trans given grown
      · exact (ranked.stored_call few found).1
  behind := by
    intro copy stored id member numbered found
    rcases List.mem_append.1 member with before | handed
    · obtain ⟨record, earlier, -, rfl | ahead⟩ :=
        ranked.succeeds inHand few (ranked.held before numbered) found
      · exact ranked.behind before numbered earlier
      · exact UInt64.le_of_lt (ahead copy (ranked.behind before numbered earlier))
    · rcases ranked.handed inHand handed numbered with ⟨absent, -⟩ | ⟨record, present, same, -⟩
      · rw [absent] at found
        contradiction
      · obtain rfl := Option.some.inj (present.symm.trans found)
        exact same ▸ UInt64.le_refl _
  keepsUp := by
    intro copy stored id concerns member numbered found
    rcases List.mem_append.1 member with before | handed
    · obtain ⟨record, earlier, -, rfl | ahead⟩ :=
        ranked.succeeds inHand few (ranked.held before numbered) found
      · exact ranked.keepsUp concerns before numbered earlier
      · have below := ahead copy (ranked.behind before numbered earlier)
        exact ⟨UInt64.le_of_lt below, fun same => absurd same (UInt64.ne_of_lt below)⟩
    · rcases ranked.handed inHand handed numbered with ⟨absent, -⟩ | ⟨record, present, -, keeps⟩
      · rw [absent] at found
        contradiction
      · exact Option.some.inj (present.symm.trans found) ▸ keeps concerns

/-- What clients do next keeps copies in step with records, as long as they lower no status. -/
theorem step (ranked : RankedOf Concerns session) (step : Step (RaisesOf Concerns) session next)
    (few : next.Few) : RankedOf Concerns next := by
  cases step with
  | call now inHand => exact ranked.call inHand few
  | draft now known parameters =>
    have unnumbered {copy : JobExecution} {id : JobExecutionId} (numbered : copy.id = some id)
        (member : copy ∈ (session.hold (.create now known parameters)).executions) :
        copy ∈ session.executions := by
      rcases List.mem_append.1 member with before | drafted
      · exact before
      · simp [List.mem_singleton.1 drafted, JobExecution.create] at numbered
    exact ⟨ranked.numbered, ranked.counted, ranked.stored,
      fun member numbered => ranked.held (unnumbered numbered member) numbered,
      fun member numbered => ranked.behind (unnumbered numbered member) numbered,
      fun concerns member numbered =>
        ranked.keepsUp concerns (unnumbered numbered member) numbered⟩
  | @edit edited original inHand same steps raises =>
    refine ⟨ranked.numbered, ranked.counted, ranked.stored, ?_, ?_, ?_⟩
    · intro copy id member numbered
      rcases List.mem_append.1 member with before | changed
      · exact ranked.held before numbered
      · rw [List.mem_singleton.1 changed, same.id] at numbered
        exact ranked.held inHand numbered
    · intro copy stored id member numbered found
      rcases List.mem_append.1 member with before | changed
      · exact ranked.behind before numbered found
      · rw [List.mem_singleton.1 changed] at numbered ⊢
        exact same.version ▸ ranked.behind inHand (same.id ▸ numbered) found
    · intro copy stored id concerns member numbered found
      rcases List.mem_append.1 member with before | changed
      · exact ranked.keepsUp concerns before numbered found
      · rw [List.mem_singleton.1 changed] at numbered ⊢
        have keeps := ranked.keepsUp concerns inHand (same.id ▸ numbered) found
        refine ⟨same.version ▸ keeps.version, fun current => ?_⟩
        exact BatchStatus.le_trans (keeps.status (same.version ▸ current))
          (raises id (same.id ▸ numbered) concerns)
  | startStep now inHand started =>
    exact ⟨ranked.numbered, ranked.counted, ranked.stored, ranked.held, ranked.behind,
      ranked.keepsUp⟩
  | editStep inHand same =>
    exact ⟨ranked.numbered, ranked.counted, ranked.stored, ranked.held, ranked.behind,
      ranked.keepsUp⟩

/-- No stored status goes down by what clients do next. -/
theorem rises (ranked : RankedOf Concerns session)
    (step : Step (RaisesOf Concerns) session next) (few : next.Few) :
    RisesOf Concerns session next := by
  cases step with
  | call now inHand =>
    refine ⟨(ranked.given_call few).1, fun concerns given found => ?_⟩
    obtain ⟨stored, earlier, rises, -⟩ := ranked.succeeds inHand few given found
    exact ⟨stored, earlier, rises concerns⟩
  | _ => exact .of_same rfl

/-- After a copy has been written, all copies of its execution keep up with the record. -/
theorem update {stored : JobExecution} (ranked : RankedOf Concerns session)
    (inHand : copy ∈ session.executions) (numbered : copy.id = some id)
    (found : session.repository.executions.get? id = some stored)
    (few : (session.call now (.update copy)).Few) :
    RankedOf (fun other => Concerns other ∨ other = id) (session.call now (.update copy)) := by
  have wrote : session.repository.answer now (.update copy) =
      (⟨.ok (), Repository.written now copy stored⟩, _) :=
    Repository.update_of_record now numbered found
  have after := @RankedOf.call session now (.update copy) Concerns ranked inHand few
  refine ⟨after.numbered, after.counted, after.stored, after.held, after.behind, ?_⟩
  rintro other record key (concerns | rfl) member own lookup
  · exact after.keepsUp concerns member own lookup
  · have isWritten : (session.call now (.update copy)).repository.executions.get? key =
        some (Repository.written now copy stored) := by
      change (session.repository.answer now (.update copy)).2.executions.get? key = _
      rw [wrote]
      exact Repository.get?_withRecord.trans (if_pos rfl)
    obtain rfl := Option.some.inj (isWritten.symm.trans lookup)
    have isHanded : Request.writing? (.update copy)
        (session.repository.answer now (.update copy)).1 =
          some (.written (Repository.written now copy stored)) := by
      rw [wrote]
      rfl
    obtain ⟨length, -⟩ := ranked.room few isHanded
    have versions := (ranked.stored found).2
    unfold Few at few
    rcases List.mem_append.1 member with before | handed
    · have below : other.version < (Repository.written now copy stored).version :=
        JobExecution.version_lt_written (ranked.behind before own found) (by omega)
      exact ⟨UInt64.le_of_lt below, fun same => absurd same (UInt64.ne_of_lt below)⟩
    · rw [wrote] at handed
      rw [List.mem_singleton.1 handed]
      exact .of_same rfl rfl

/-- The same holds of whole sessions. -/
theorem reaches (ranked : RankedOf Concerns session)
    (reaches : Reaches (RaisesOf Concerns) session next) (few : next.Few) :
    RankedOf Concerns next ∧ RisesOf Concerns session next := by
  have keeps {middle next : Session} (step : Step (RaisesOf Concerns) middle next) (few : next.Few)
      (carried : RankedOf Concerns middle ∧ RisesOf Concerns session middle) :
      RankedOf Concerns next ∧ RisesOf Concerns session next :=
    ⟨carried.1.step step few, carried.2.trans (carried.1.rises step few)⟩
  exact reaches.invariant few (And.intro ranked (.of_same rfl)) keeps

end RankedOf

/-! ## All executions -/

/-- All copies in hand keep up with their records, as far as these are stored. -/
abbrev Ranked (session : Session) : Prop := RankedOf (fun _ => True) session

/-- No number is forgotten, and a record under a number that was given before succeeds an earlier
record with a status that is no higher. -/
abbrev Rises (session next : Session) : Prop := RisesOf (fun _ => True) session next

/-- To raise all statuses is to raise those that are of concern. -/
theorem Step.of_raises (step : Step Raises session next) :
    Step (RaisesOf fun _ => True) session next :=
  step.imp fun _ _ raises _ _ _ => raises

/-- Clients change a status only by raising it. Then a stored status does not fall while the
execution is stored, and every copy in hand that has the version of its record has at least the
stored status. -/
theorem status_only_rises (start : Reaches Raises .start session)
    (onward : Reaches Raises session next) (few : next.Few) :
    (∀ id stored later, session.repository.executions.get? id = some stored →
      next.repository.executions.get? id = some later → stored.status ≤ later.status) ∧
    ∀ copy ∈ next.executions, ∀ id stored, copy.id = some id →
      next.repository.executions.get? id = some stored → copy.version = stored.version →
      stored.status ≤ copy.status := by
  have ranked : session.Ranked := start.invariant (onward.few few) .start
    fun step few ranked => ranked.step step.of_raises few
  have keeps {middle next : Session} (step : Step Raises middle next) (few : next.Few)
      (carried : middle.Ranked ∧ session.Rises middle) : next.Ranked ∧ session.Rises next :=
    ⟨carried.1.step step.of_raises few, carried.2.trans (carried.1.rises step.of_raises few)⟩
  have carried : next.Ranked ∧ session.Rises next :=
    onward.invariant few (And.intro ranked (.of_same rfl)) keeps
  constructor
  · intro id stored later found afterwards
    obtain ⟨record, earlier, rises⟩ := carried.2.origin trivial (ranked.stored found).1 afterwards
    exact Option.some.inj (earlier.symm.trans found) ▸ rises
  · intro copy inHand id stored numbered found current
    exact (carried.1.keepsUp trivial inHand numbered found).status current

/-- One client raises the status of a new execution and writes it. -/
def raisedOnce : Session :=
  (opened.hold (firstCopy.upgradeStatus .started)).call ⟨1, 0⟩
    (.update (firstCopy.upgradeStatus .started))

/-- After that, another client writes the copy that it has had since the execution was created. -/
theorem status_only_rises_raisedOnce :
    ∃ stored later, Reaches Raises .start raisedOnce ∧
      Reaches Raises raisedOnce (raisedOnce.call ⟨2, 0⟩ (.update firstCopy)) ∧
      (raisedOnce.call ⟨2, 0⟩ (.update firstCopy)).Few ∧
      raisedOnce.repository.executions.get? ⟨1⟩ = some stored ∧
      stored.version = 2 ∧ stored.status = .started ∧
      (raisedOnce.call ⟨2, 0⟩ (.update firstCopy)).repository.executions.get? ⟨1⟩ = some later ∧
      later.version = 3 ∧ stored.status ≤ later.status := by
  have first : Reaches Raises .start raisedOnce :=
    (reaches_opened.edit (firstCopy.upgradeStatus .started) firstCopy_mem ⟨rfl, rfl, rfl, rfl⟩
      (fun _ member => absurd member List.not_mem_nil)
      (BatchStatus.le_upgradeTo firstCopy.status .started).1).call ⟨1, 0⟩ _
      (List.mem_append_right _ (List.mem_singleton.2 rfl))
  have stale : Reaches Raises raisedOnce (raisedOnce.call ⟨2, 0⟩ (.update firstCopy)) :=
    Reaches.call .refl ⟨2, 0⟩ _ (List.mem_append_left _ (List.mem_append_left _ firstCopy_mem))
  have few : (raisedOnce.call ⟨2, 0⟩ (.update firstCopy)).Few := (by decide : 3 < 2 ^ 64)
  exact ⟨_, _, first, stale, few, rfl, rfl, rfl, rfl, rfl,
    (status_only_rises first stale few).1 ⟨1⟩ _ _ rfl rfl⟩

end Session

end BatchRun
