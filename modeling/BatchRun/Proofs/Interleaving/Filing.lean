import BatchRun.Proofs.Interleaving.Courses

/-! # What is filed for the next launch

The record of an instance is that of the launch that has claimed it last. What is filed for this
record is the context that the launch started with, until the launch has written the one that the
last run of its body has left. The next execution of the instance starts with what is filed.
-/

namespace BatchRun.System

variable {ι : Type} [DecidableEq ι] {calls : ι → Call} {s t : System ι} {i j : ι}
  {event : Event ι} {events : List (Event ι)} {known : Course} {id : JobExecutionId}
  {moment : Timestamp} {jobName : String} {parameters : JobParameters} {execution : JobExecution}
  {target : String × String}

/-- The record of what a launch has claimed is stored, and its context is filed. -/
structure Filed (s : System ι) (known : Course) (id : JobExecutionId) : Prop where
  numbered : known.claimed.id = some id
  stored : ∃ record, s.books.repository.executions.get? id = some record
  filed : ∃ context,
    s.books.repository.filed? id = some ⟨known.claimed.jobInstance.id, id, context⟩ ∧
      context.entries = known.filed.entries

/-- Every record belongs to the launch that has claimed its instance last. -/
structure Filing (calls : ι → Call) (events : List (Event ι)) (s : System ι) : Prop where
  orderly : ∀ {i known}, courseOf i events = some known → known.Orderly
  claimed : ∀ {i known}, courseOf i events = some known →
    (calls i).IsFor known.claimed ∧ ∃ record ∈ s.books.past, known.claimed.SameRecord record
  apart : ∀ {i j known other}, courseOf i events = some known → courseOf j events = some other →
    known.claimed.id = other.claimed.id → i = j
  latest : ∀ {target i}, claimant target events = some i →
    (calls i).target? = some target ∧ ∃ known id, courseOf i events = some known ∧ s.Filed known id
  owned : ∀ {id record}, s.books.repository.executions.get? id = some record →
    ∃ i known, claimant (record.jobInstance.jobName, record.jobInstance.identityKey) events =
      some i ∧ courseOf i events = some known ∧ known.claimed.id = some id

/-- What the next execution of an instance starts with. -/
def leftTo (target : String × String) (events : List (Event ι)) : SortedMap String Json :=
  match (claimant target events).bind (courseOf · events) with
  | some known => known.filed.entries
  | none => .empty

theorem Filing.start (calls : ι → Call) : Filing calls [] (start calls) where
  orderly none := nomatch none
  claimed none := nomatch none
  apart none := nomatch none
  latest none := nomatch none
  owned found := nomatch found

namespace Filing

/-- The record of a launch belongs to the instance that it has claimed. -/
theorem jobInstance_of_stored (filing : Filing calls events s) (sound : s.books.Sound)
    {record : JobExecution} (course : courseOf i events = some known)
    (numbered : known.claimed.id = some id)
    (found : s.books.repository.executions.get? id = some record) :
    record.jobInstance = known.claimed.jobInstance := by
  obtain ⟨-, old, member, same⟩ := filing.claimed course
  rw [same.2]
  exact sound.belongs (sound.remembered found) member
    ((sound.consistent.executions.numbered found).trans (numbered.symm.trans same.1))

/-- No launch has claimed the number of a new execution before. -/
theorem id_ne_of_created {after : Repository} (filing : Filing calls events s)
    (sound : s.books.Sound)
    (bound : (s.books.after moment (.createExecution jobName parameters)).created < 2 ^ 64)
    (created : s.books.repository.createExecution moment jobName parameters =
      .ok (execution, after)) (course : courseOf i events = some known) :
    known.claimed.id ≠ some ⟨s.books.repository.executions.lastId + 1⟩ := by
  obtain ⟨-, record, member, same⟩ := filing.claimed course
  rw [same.1]
  exact sound.nextId_fresh_of_created bound created member

/-- A new execution belongs to the instance of an earlier one if the launch of that is for it. -/
theorem same_instance_iff {after : Repository} (filing : Filing calls events s)
    (sound : s.books.Sound) (few : after.instances.instances.length < 2 ^ 64)
    (created : s.books.repository.createExecution moment jobName parameters =
      .ok (execution, after)) (course : courseOf i events = some known) :
    known.claimed.jobInstance.id = execution.jobInstance.id ↔
      (calls i).target? = some (jobName, parameters.identityKey) := by
  obtain ⟨isFor, record, member, same⟩ := filing.claimed course
  unfold Call.IsFor at isFor
  rw [isFor, same.2, Option.some.injEq, ← JobInstance.isFor_iff_target]
  exact Repository.same_id_iff_of_created sound.consistent few created (sound.known member)

/-! ## Steps -/

private theorem keeps (filing : Filing calls events s) (before : s.books.Sound)
    (after : t.books.Sound) (past : ∀ record ∈ s.books.past, record ∈ t.books.past)
    (quiet : ∀ target, event.claims? target = none)
    (records : ∀ id, (t.books.repository.executions.get? id).isSome =
      (s.books.repository.executions.get? id).isSome)
    (courses : ∀ i, Option.Rel Course.Keeps (courseOf i events) (courseOf i (events ++ [event])))
    (filed : ∀ {i known later id}, courseOf i events = some known →
      courseOf i (events ++ [event]) = some later → s.Filed known id →
      ∃ context, t.books.repository.filed? id =
          some ⟨known.claimed.jobInstance.id, id, context⟩ ∧
        context.entries = later.filed.entries) :
    Filing calls (events ++ [event]) t := by
  constructor
  case orderly =>
    intro i later course
    obtain ⟨known, earlier, keeps⟩ := Course.rel_of_after (courses i) course
    exact keeps.orderly (filing.orderly earlier)
  case claimed =>
    intro i later course
    obtain ⟨known, earlier, keeps⟩ := Course.rel_of_after (courses i) course
    obtain ⟨isFor, record, member, same⟩ := filing.claimed earlier
    rw [keeps.claimed]
    exact ⟨isFor, record, past record member, same⟩
  case apart =>
    intro i j later otherLater course otherCourse same
    obtain ⟨known, earlier, keeps⟩ := Course.rel_of_after (courses i) course
    obtain ⟨other, otherEarlier, otherKeeps⟩ := Course.rel_of_after (courses j) otherCourse
    rw [keeps.claimed, otherKeeps.claimed] at same
    exact filing.apart earlier otherEarlier same
  case latest =>
    intro target i last
    rw [claimant_of_quiet quiet] at last
    obtain ⟨isTarget, known, id, course, isFiled⟩ := filing.latest last
    obtain ⟨later, goesOn, keeps⟩ := Course.rel_of_before (courses i) course
    obtain ⟨record, found⟩ := isFiled.stored
    have stored := (records id).trans (Option.isSome_iff_exists.2 ⟨record, found⟩)
    refine ⟨isTarget, later, id, goesOn, ?_, Option.isSome_iff_exists.1 stored, ?_⟩
    · rw [keeps.claimed]
      exact isFiled.numbered
    · rw [keeps.claimed]
      exact filed course goesOn isFiled
  case owned =>
    intro id record found
    have stored := (records id).symm.trans (Option.isSome_iff_exists.2 ⟨record, found⟩)
    obtain ⟨old, oldFound⟩ := Option.isSome_iff_exists.1 stored
    obtain ⟨i, known, last, course, numbered⟩ := filing.owned oldFound
    obtain ⟨later, goesOn, keeps⟩ := Course.rel_of_before (courses i) course
    have sameInstance : record.jobInstance = old.jobInstance :=
      after.belongs (after.remembered found) (past old (before.remembered oldFound))
        ((after.consistent.executions.numbered found).trans
          (before.consistent.executions.numbered oldFound).symm)
    rw [sameInstance, claimant_of_quiet quiet]
    exact ⟨i, later, last, goesOn, (congrArg JobExecution.id keeps.claimed).trans numbered⟩

private theorem creates (filing : Filing calls events s) (before : s.books.Sound)
    (after : t.books.Sound) (past : ∀ record ∈ s.books.past, record ∈ t.books.past)
    (bound : t.books.created < 2 ^ 64)
    (same : event = .answered i (.request (.createExecution jobName parameters)) (.ok execution))
    (created : s.books.repository.createExecution moment jobName parameters =
      .ok (execution, t.books.repository))
    (books : t.books = s.books.after moment (.createExecution jobName parameters))
    (isFor : (calls i).IsFor execution) (idle : courseOf i events = none)
    (course : courseOf i (events ++ [event]) = some (.claim execution))
    (others : ∀ j, j ≠ i → courseOf j (events ++ [event]) = courseOf j events) :
    Filing calls (events ++ [event]) t := by
  obtain ⟨record, sameRecord, records⟩ := Repository.get?_of_created created
  obtain ⟨start, -, -, given, filed⟩ := Repository.filed?_of_created created
  have found := (records _ record).2 (.inl ⟨rfl, rfl⟩)
  have numbered := sameRecord.1.trans (after.consistent.executions.numbered found)
  have few := Nat.lt_of_le_of_lt after.few bound
  obtain ⟨-, matching, -⟩ := before.pinned_of_created (books ▸ bound) created
  have apart {known : Course} {j : ι} (goesOn : courseOf j events = some known) :
      known.claimed.id ≠ some ⟨s.books.repository.executions.lastId + 1⟩ :=
    filing.id_ne_of_created before (books ▸ bound) created goesOn
  have earlier {j : ι} {known : Course} (goesOn : courseOf j (events ++ [event]) = some known) :
      (j = i ∧ known = .claim execution) ∨ courseOf j events = some known := by
    by_cases mine : j = i
    · subst mine
      exact .inl ⟨rfl, Option.some.inj (goesOn.symm.trans course)⟩
    · exact .inr ((others j mine).symm.trans goesOn)
  constructor
  case orderly =>
    intro j known goesOn
    rcases earlier goesOn with ⟨rfl, rfl⟩ | goesOn
    · exact .claim execution
    · exact filing.orderly goesOn
  case claimed =>
    intro j known goesOn
    rcases earlier goesOn with ⟨rfl, rfl⟩ | goesOn
    · exact ⟨isFor, record, after.remembered found, sameRecord⟩
    · obtain ⟨knownFor, old, member, sameOld⟩ := filing.claimed goesOn
      exact ⟨knownFor, old, past old member, sameOld⟩
  case apart =>
    intro j k known other goesOn otherGoesOn sameId
    rcases earlier goesOn with ⟨rfl, rfl⟩ | goesOn <;>
      rcases earlier otherGoesOn with ⟨rfl, rfl⟩ | otherGoesOn
    · rfl
    · exact absurd (sameId.symm.trans numbered) (apart otherGoesOn)
    · exact absurd (sameId.trans numbered) (apart goesOn)
    · exact filing.apart goesOn otherGoesOn sameId
  case latest =>
    intro target j last
    rw [same, claimant_of_create] at last
    split at last
    · rename_i isTarget
      obtain rfl := Option.some.inj last
      refine ⟨?_, _, _, course, numbered, ⟨record, found⟩, start, ?_, ?_⟩
      · rw [isFor, ← isTarget, JobInstance.isFor_iff_target.1 matching]
      · exact (filed _ _).2 (.inl ⟨rfl, rfl⟩)
      · change start.entries = execution.context.entries
        rw [given]
        rfl
    · rename_i other
      obtain ⟨isTarget, known, id, goesOn, isFiled⟩ := filing.latest last
      obtain ⟨old, oldFound⟩ := isFiled.stored
      obtain ⟨context, lookup, entries⟩ := isFiled.filed
      have older : id ≠ ⟨s.books.repository.executions.lastId + 1⟩ :=
        fun new => apart goesOn (new ▸ isFiled.numbered)
      have ownInstance := filing.jobInstance_of_stored before goesOn isFiled.numbered oldFound
      have away : known.claimed.jobInstance.id ≠ execution.jobInstance.id := by
        rw [Ne, filing.same_instance_iff before few created goesOn, isTarget]
        exact fun same => other (Option.some.inj same).symm
      refine ⟨isTarget, known, id, (others j (ne_of_idle goesOn idle)).trans goesOn,
        isFiled.numbered, ⟨old, ?_⟩, context, ?_, entries⟩
      · exact (records id old).2 (.inr ⟨older, oldFound, ownInstance ▸ away⟩)
      · exact (filed id _).2 (.inr ⟨older, lookup, fun sameId => absurd sameId away⟩)
  case owned =>
    intro id stored foundNow
    rw [same]
    rcases (records id stored).1 foundNow with ⟨rfl, rfl⟩ | ⟨older, foundBefore, away⟩
    · refine ⟨i, _, ?_, same ▸ course, numbered⟩
      rw [claimant_of_create, ← sameRecord.2, JobInstance.isFor_iff_target.1 matching, if_pos rfl]
    · obtain ⟨j, known, last, goesOn, ownId⟩ := filing.owned foundBefore
      refine ⟨j, known, ?_, (same ▸ others j (ne_of_idle goesOn idle)).trans goesOn, ownId⟩
      rw [claimant_of_create, if_neg, last]
      intro isTarget
      have storedFor := JobInstance.isFor_iff_target.2 isTarget.symm
      exact away ((Repository.same_id_iff_of_created before.consistent few created
        (before.consistent.belongs foundBefore)).2 storedFor)

/-- What is filed goes by the courses through every event. -/
theorem step (charted : Charted calls events s) (filing : Filing calls events s)
    (happens : Happens s event t) (bound : t.books.created < 2 ^ 64) (plain : event.Plain) :
    Filing calls (events ++ [event]) t := by
  have before := charted.sound.books
  have after := (charted.step happens bound).sound.books
  have past := happens.step.past_le
  cases charted.change happens bound plain with
  | works quiet records filed courses =>
    refine filing.keeps before after past quiet records (fun i => (courses i).keeps) ?_
    intro i known later id course goesOn isFiled
    obtain ⟨same, isSame, works⟩ := Course.rel_of_before (courses i) course
    obtain rfl := Option.some.inj (isSame.symm.trans goesOn)
    rw [filed, works.filed]
    exact isFiled.filed
  | @files i known copy id quiet course ended same context numbered isOver others executions
      filed =>
    have orderly := filing.orderly course
    refine filing.keeps before after past quiet (fun key => by rw [executions]) (fun j => ?_) ?_
    · by_cases own : j = i
      · rw [own, course, isOver]
        exact .some (.over known)
      · rw [others j own]
        exact (Course.WorksOn.refl _).keeps
    · intro j before later key earlier goesOn isFiled
      have ownId := (same.trans orderly.sameRecord).1.symm.trans numbered
      rw [filed]
      split
      · rename_i isOwn
        obtain rfl := filing.apart earlier course
          (isFiled.numbered.trans (isOwn ▸ ownId.symm))
        obtain rfl := Option.some.inj (earlier.symm.trans course)
        obtain rfl := Option.some.inj (isOver.symm.trans goesOn)
        refine ⟨copy.context, ?_, ?_⟩
        · rw [same.2, orderly.sameRecord.2, isOwn]
        · rw [context, orderly.context]
          rfl
      · rename_i other
        have away : j ≠ i := by
          rintro rfl
          obtain rfl := Option.some.inj (earlier.symm.trans course)
          exact other (Option.some.inj (isFiled.numbered.symm.trans ownId))
        rw [others j away, earlier] at goesOn
        obtain rfl := Option.some.inj goesOn
        exact isFiled.filed
  | creates i same created books isFor idle course others =>
    exact filing.creates before after past bound same created books isFor idle course others

/-- All of it holds at the end of every path. -/
theorem path {rest : List (Event ι)} (charted : Charted calls events s)
    (filing : Filing calls events s) (path : Path s rest t) (bound : t.books.created < 2 ^ 64)
    (plain : ∀ event ∈ rest, event.Plain) :
    Charted calls (events ++ rest) t ∧ Filing calls (events ++ rest) t := by
  refine ⟨charted.path path bound, ?_⟩
  induction path with
  | nil => simpa using filing
  | @snoc middle last event events before happens ih =>
    have earlier := Nat.lt_of_le_of_lt happens.step.created_le bound
    have files := ih earlier fun event member => plain event (List.mem_append_left _ member)
    rw [← List.append_assoc]
    exact files.step (charted.path before earlier) happens bound (plain event (by simp))

/-! ## New executions -/

/-- A new execution starts with what has been left to it. -/
theorem entries_of_created {after : Repository} (filing : Filing calls events s)
    (sound : s.books.Sound) (few : after.instances.instances.length < 2 ^ 64)
    (created : s.books.repository.createExecution moment jobName parameters =
      .ok (execution, after)) :
    execution.context.entries = leftTo (jobName, parameters.identityKey) events := by
  obtain ⟨start, claimed, granted, given, -⟩ := Repository.filed?_of_created created
  rw [given]
  change start.entries = _
  cases last : claimant (jobName, parameters.identityKey) events with
  | none =>
    rw [Repository.context_of_no_record granted]
    · simp [leftTo, last, ExecutionContext.empty]
    · intro id stored found sameId
      obtain ⟨j, known, owner, -⟩ := filing.owned found
      have storedFor := (Repository.same_id_iff_of_created sound.consistent few created
        (sound.consistent.belongs found)).1 sameId
      rw [JobInstance.isFor_iff_target.1 storedFor, last] at owner
      contradiction
  | some i =>
    obtain ⟨isTarget, known, id, course, isFiled⟩ := filing.latest last
    obtain ⟨record, found⟩ := isFiled.stored
    obtain ⟨context, lookup, entries⟩ := isFiled.filed
    obtain ⟨isFor, -⟩ := filing.claimed course
    have matching : record.jobInstance.isFor jobName parameters = true := by
      rw [JobInstance.isFor_iff_target,
        filing.jobInstance_of_stored sound course isFiled.numbered found]
      exact Option.some.inj (isFor.symm.trans isTarget)
    obtain ⟨-, rfl⟩ := Repository.context_of_record sound.consistent granted found matching lookup
    simp only [leftTo, last, Option.bind_some, course]
    exact entries

end Filing

end BatchRun.System
