import BatchRun.Proofs.Context.Entries
import BatchRun.Proofs.Log
import BatchRun.Proofs.Reader.Source

/-! # Phases of reading

A reader is opened on a fresh source of the same list in every phase, and all phases share a
context. Whatever is read and recorded in them and whichever readings fail, a phase begins right
after the item that has been recorded last, or fails with the failure of a reading before it. From
there on the items follow one another, none skipped and none repeated.
-/

namespace BatchRun

/-! ## Values that a context restores -/

namespace ExecutionContext

/-- Values of the type come back from any context as they have been written. -/
def Restores (α : Type) [JsonEncode α] [JsonDecode α] : Prop :=
  ∀ (context : ExecutionContext) (name : String) (value : α),
    ∃ after, context.put name value = .ok after ∧ after.get name = .ok (some value)

theorem restores_string : Restores String := by
  intro context name text
  refine ⟨context.putValue name (.string text), rfl, ?_⟩
  obtain ⟨kept, found, same⟩ := context.value?_putValue name (.string text)
  have equal : kept = .string text := by
    rcases same with rfl | same
    · rfl
    · cases kept <;> simp_all [BEq.beq, Json.same]
  unfold get
  rw [found, equal]
  rfl

end ExecutionContext

/-! ## Phases -/

/-- What is done with a reader. -/
inductive ReaderAction
  | read
  | checkpoint

/-- What comes of it. -/
inductive ReaderAnswer (α : Type)
  | item (result : Except Failure (Option α))
  | recorded (result : Except DomainError Unit)

/-- A fresh source and what is to be done with the reader that is opened on it. -/
structure Phase (σ : Type) where
  source : σ
  actions : List ReaderAction

namespace TrackingReader

open ItemSource (Hands Delivers readNext)

variable {σ α : Type} [ItemSource σ α] [BEq α] [JsonEncode α] [JsonDecode α]

/-- A reader and the context at work. -/
def acting : Service (TrackingReader σ α × ExecutionContext) ReaderAction (ReaderAnswer α)
  | (reader, context), .read => (.item reader.read.1, (reader.read.2, context))
  | (reader, context), .checkpoint =>
    match reader.checkpoint context with
    | .ok after => (.recorded (.ok ()), (reader, after))
    | .error error => (.recorded (.error error), (reader, context))

/-- An action that has been carried out. -/
abbrev Action (σ α : Type) :=
  LogEntry (TrackingReader σ α × ExecutionContext) ReaderAction (ReaderAnswer α)

/-- The reader that a phase is opened with, if it is, and what has been done with it. -/
structure Course (σ α : Type) where
  opened : Except ReaderError (TrackingReader σ α)
  log : List (Action σ α)

/-- The phases of the reader of this name, which leave a context to each other. -/
def phasing (name : String) : Service ExecutionContext (Phase σ) (Course σ α) :=
  fun context phase =>
    match openOn phase.source name context true with
    | .ok reader => (⟨.ok reader, acting.log (reader, context) phase.actions⟩,
        (acting.afterAll (reader, context) phase.actions).2)
    | .error error => (⟨.error error, []⟩, context)

/-- A phase that has been carried out. -/
abbrev PhaseEntry (σ α : Type) := LogEntry ExecutionContext (Phase σ) (Course σ α)

/-- The item that a reading has returned. -/
def Action.returned? (action : Action σ α) : Option α :=
  match action.answer with
  | .item (.ok item) => item
  | _ => none

/-- The item that a checkpoint has recorded. -/
def Action.recorded? (action : Action σ α) : Option α :=
  match action.answer with
  | .recorded (.ok ()) => action.before.1.current
  | _ => none

/-- The items that readings have returned, in order. -/
def returned (log : List (Action σ α)) : List α := log.filterMap Action.returned?

/-- The items that checkpoints have recorded, in order. -/
def recorded (log : List (Action σ α)) : List α := log.filterMap Action.recorded?

/-- The item that some phases have recorded last. -/
def lastRecorded (entries : List (PhaseEntry σ α)) : Option α :=
  (entries.flatMap fun entry => recorded entry.answer.log).getLast?

variable {ahead : σ → List α} {items toCome : List α} {name : String} {record : Option α}
  {context : ExecutionContext} {source : σ} {reader : TrackingReader σ α}
  {state : TrackingReader σ α × ExecutionContext} {log : List (Action σ α)}

/-- The entry of the reader holds the item that has been recorded last, if there is one. -/
def Noted (items : List α) (name : String) (record : Option α) (context : ExecutionContext) :
    Prop :=
  match record with
  | none => context.value? (keyOf name) = none
  | some item => item ∈ items ∧ context.get (keyOf name) = .ok (some item)

/-! ## Opening -/

/-- The reader stands right after this item of the list, or at the start if there is none. -/
structure StandsAfter (ahead : σ → List α) (items : List α) (source : σ) (record : Option α)
    (reader : TrackingReader σ α) : Prop where
  current : reader.current = record
  position : ∃ passed, Hands source passed reader.source ∧ passed.getLast? = record ∧
    items = passed ++ ahead reader.source

/-- The failure of a reading before this item of the list. -/
def FailsBefore (items : List α) (source : σ) (record : Option α) (error : ReaderError) : Prop :=
  ∃ failure handed left stuck item, error = .source failure ∧ Hands source handed stuck ∧
    (readNext stuck).1 = .error failure ∧ items = handed ++ left ∧ record = some item ∧
    item ∈ left

omit [JsonEncode α] in
private theorem openOn_of_absent (absent : context.get (α := α) (keyOf name) = .ok none) :
    openOn (α := α) source name context true = .ok (TrackingReader.fresh source name true) := by
  have key : (TrackingReader.fresh (α := α) source name true).key = keyOf name := rfl
  simp only [openOn, if_true, key, absent]

omit [JsonEncode α] in
private theorem openOn_of_found {item : α} (found : context.get (keyOf name) = .ok (some item)) :
    openOn source name context true = (TrackingReader.fresh source name true).jumpTo item := by
  have key : (TrackingReader.fresh (α := α) source name true).key = keyOf name := rfl
  simp only [openOn, if_true, key, found]

omit [JsonEncode α] in
/-- A reader is opened after the item that has been recorded last, or with the failure of a reading
before it. -/
theorem openOn_cases [ReflBEq α] (delivers : Delivers ahead)
    (distinct : items.Pairwise fun first second => (first == second) = false)
    (noted : Noted items name record context) (fresh : ahead source = items) :
    (∃ reader, openOn source name context true = .ok reader ∧ reader.key = keyOf name ∧
      reader.savesState = true ∧ StandsAfter ahead items source record reader) ∨
    ∃ error, openOn source name context true = .error error ∧
      FailsBefore items source record error := by
  cases record with
  | none =>
    have absent : context.get (α := α) (keyOf name) = .ok none := by
      unfold ExecutionContext.get
      rw [show context.value? (keyOf name) = none from noted]
    exact .inl ⟨_, openOn_of_absent absent, rfl, rfl, rfl, [], .none _, rfl, fresh.symm⟩
  | some item =>
    obtain ⟨member, found⟩ := noted
    rw [openOn_of_found found]
    obtain ⟨passed, rest, rfl⟩ := List.append_of_mem member
    have apart : ∀ earlier ∈ passed, (earlier == item) = false := fun earlier inside =>
      (List.pairwise_append.1 distinct).2.2 earlier inside item (List.mem_cons_self ..)
    rcases jumpTo_cases delivers (TrackingReader.fresh source name true) fresh apart
        BEq.rfl with
      ⟨next, hands, jumped⟩ | ⟨failure, handed, left, stuck, rfl, hands, failed, refused⟩
    · refine .inl ⟨_, jumped, rfl, rfl, rfl, passed ++ [item], hands, by simp, ?_⟩
      exact fresh.symm.trans (delivers.eq_append hands)
    · exact .inr ⟨_, refused, failure, handed, left ++ item :: rest, stuck, item, rfl, hands,
        failed, by simp, rfl, by simp⟩

/-! ## Reading and recording -/

omit [BEq α] [JsonEncode α] [JsonDecode α] in
/-- A reading returns the next item, or none at the end, or it fails, and then nothing moves. -/
theorem read_cases (delivers : Delivers ahead) (reader : TrackingReader σ α) :
    (∃ item source, reader.read = (.ok (some item), { reader with source, current := some item }) ∧
      ahead reader.source = item :: ahead source) ∨
    (∃ source, reader.read = (.ok none, { reader with source, current := none }) ∧
      ahead reader.source = [] ∧ ahead source = []) ∨
    ∃ failure source, reader.read = (.error failure, { reader with source }) ∧
      ahead source = ahead reader.source := by
  unfold read
  rcases taken : readNext reader.source with ⟨failure | item?, source⟩
  · exact .inr (.inr ⟨failure, source, rfl, delivers.failure taken⟩)
  · cases item? with
    | none => exact .inr (.inl ⟨source, rfl, delivers.stop taken⟩)
    | some item => exact .inl ⟨item, source, rfl, delivers.item taken⟩

omit [ItemSource σ α] [BEq α] in
/-- A checkpoint records the current item, and nothing if there is none. -/
theorem checkpoint_cases (restores : ExecutionContext.Restores α) (context : ExecutionContext)
    (key : reader.key = keyOf name) (saves : reader.savesState = true) :
    (reader.current = none ∧ reader.checkpoint context = .ok context) ∨
    ∃ item after, reader.current = some item ∧ reader.checkpoint context = .ok after ∧
      after.get (keyOf name) = .ok (some item) ∧
      ∀ other, other ≠ keyOf name → after.value? other = context.value? other := by
  unfold checkpoint
  rw [if_pos saves]
  cases current : reader.current with
  | none => exact .inl ⟨rfl, rfl⟩
  | some item =>
    obtain ⟨after, written, found⟩ := restores context reader.key item
    refine .inr ⟨item, after, rfl, written, key ▸ found, fun other differs => ?_⟩
    exact ExecutionContext.value?_of_put written (key ▸ differs)

/-- A reader and its context in the middle of a phase that began with some of the items to come,
when these ones have been returned and those ones recorded. -/
structure Underway (ahead : σ → List α) (items : List α) (name : String) (toCome : List α)
    (taken marked : List α) (state : TrackingReader σ α × ExecutionContext) : Prop where
  key : state.1.key = keyOf name
  saves : state.1.savesState = true
  /-- The items that have not been returned are ahead. -/
  follow : toCome = taken ++ ahead state.1.source
  listed : ∀ item ∈ toCome, item ∈ items
  current : ∀ item, state.1.current = some item → item ∈ items
  noted : Noted items name marked.getLast? state.2

omit [BEq α] in
/-- Each action of a phase hands out or marks what comes next. -/
theorem Underway.act {taken marked : List α} (delivers : Delivers ahead)
    (restores : ExecutionContext.Restores α)
    (underway : Underway ahead items name toCome taken marked state) (action : ReaderAction) :
    Underway ahead items name toCome
      (taken ++ (Action.returned? (acting.entryOf state action)).toList)
      (marked ++ (Action.recorded? (acting.entryOf state action)).toList)
      (acting state action).2 := by
  obtain ⟨reader, context⟩ := state
  cases action with
  | read =>
    simp only [acting, Service.entryOf, Action.recorded?, Option.toList_none, List.append_nil]
    rcases read_cases delivers reader with
      ⟨item, source, read, split⟩ | ⟨source, read, ended, stopped⟩ | ⟨failure, source, read, kept⟩
    · have follow : toCome = (taken ++ [item]) ++ ahead source := by
        rw [underway.follow, split, List.append_assoc]
        rfl
      rw [read]
      refine ⟨underway.key, underway.saves, follow, underway.listed, ?_, underway.noted⟩
      rintro _ ⟨⟩
      exact underway.listed item (by simp [follow])
    · rw [read]
      refine ⟨underway.key, underway.saves, ?_, underway.listed, nofun, underway.noted⟩
      simp [Action.returned?, underway.follow, ended, stopped]
    · rw [read]
      refine ⟨underway.key, underway.saves, ?_, underway.listed, underway.current,
        underway.noted⟩
      simp [Action.returned?, underway.follow, kept]
  | checkpoint =>
    have key : reader.key = keyOf name := underway.key
    rcases checkpoint_cases restores context key underway.saves with
      ⟨vacant, kept⟩ | ⟨item, after, current, written, found, -⟩
    · simp only [acting, kept, Service.entryOf, Action.recorded?, vacant, Action.returned?,
        Option.toList_none, List.append_nil]
      exact underway
    · simp only [acting, written, Service.entryOf, Action.recorded?, current, Action.returned?,
        Option.toList_none, Option.toList_some, List.append_nil]
      refine ⟨key, underway.saves, underway.follow, underway.listed, underway.current, ?_⟩
      rw [List.getLast?_concat]
      exact ⟨underway.current item current, found⟩

omit [BEq α] in
/-- What holds when a phase begins holds, with what is returned and recorded, all along. -/
theorem Underway.afterAll {marked : List α} (delivers : Delivers ahead)
    (restores : ExecutionContext.Restores α)
    (underway : Underway ahead items name toCome [] marked state) (actions : List ReaderAction) :
    Underway ahead items name toCome (returned (acting.log state actions))
      (marked ++ recorded (acting.log state actions)) (acting.afterAll state actions) := by
  induction actions using List.reverseRecOn with
  | nil => simpa [Service.log, returned, recorded, Service.afterAll] using underway
  | append_singleton actions action ih =>
    rw [returned, recorded, Service.filterMap_log_concat, Service.filterMap_log_concat,
      ← returned, ← recorded, ← List.append_assoc, Service.afterAll_append]
    exact ih.act delivers restores action

/-! ## Many phases -/

/-- What holds of the actions of a phase that has been opened with a reader. -/
structure Proceeds (ahead : σ → List α) (name : String) (reader : TrackingReader σ α)
    (log : List (Action σ α)) : Prop where
  /-- A reading returns the item after those that have been returned in this phase, or none when
  all have, or it fails. It leaves the context as it is. -/
  reads : ∀ former action later, log = former ++ action :: later → action.operation = .read →
    action.after.2 = action.before.2 ∧
    ((∃ item rest, action.answer = .item (.ok (some item)) ∧
        action.after.1.current = some item ∧
        ahead reader.source = returned former ++ item :: rest) ∨
      (action.answer = .item (.ok none) ∧ action.after.1.current = none ∧
        ahead reader.source = returned former) ∨
      ∃ failure, action.answer = .item (.error failure) ∧
        action.after.1.current = action.before.1.current)
  /-- A checkpoint records the current item if there is one, and changes nothing else. -/
  checkpoints : ∀ action ∈ log, action.operation = .checkpoint →
    action.answer = .recorded (.ok ()) ∧ action.after.1 = action.before.1 ∧
    (∀ item, action.before.1.current = some item →
      action.after.2.get (keyOf name) = .ok (some item)) ∧
    (action.before.1.current = none → action.after.2 = action.before.2) ∧
    ∀ other, other ≠ keyOf name → action.after.2.value? other = action.before.2.value? other
  /-- All in all, the items that are returned are the next ones. -/
  returns : returned log <+: ahead reader.source

omit [BEq α] in
private theorem Underway.proceeds {marked : List α} (delivers : Delivers ahead)
    (restores : ExecutionContext.Restores α)
    (underway : Underway ahead items name (ahead reader.source) [] marked (reader, context))
    (actions : List ReaderAction) :
    Proceeds ahead name reader (acting.log (reader, context) actions) := by
  constructor
  case reads =>
    intro former action later split reads
    obtain ⟨earlier, operation, others, -, rfl, rfl⟩ := Service.exists_of_log_eq split
    obtain rfl : operation = .read := reads
    have before := underway.afterAll delivers restores earlier
    generalize acting.afterAll (reader, context) earlier = reached at before ⊢
    obtain ⟨now, context⟩ := reached
    refine ⟨rfl, ?_⟩
    rcases read_cases delivers now with
      ⟨item, source, read, first⟩ | ⟨source, read, ended, -⟩ | ⟨failure, source, read, -⟩
    · exact .inl ⟨item, _, by simp only [Service.entryOf, acting, read],
        by simp only [Service.entryOf, acting, read], first ▸ before.follow⟩
    · refine .inr (.inl ⟨by simp only [Service.entryOf, acting, read],
        by simp only [Service.entryOf, acting, read], ?_⟩)
      rw [before.follow, ended, List.append_nil]
    · exact .inr (.inr ⟨failure, by simp only [Service.entryOf, acting, read],
        by simp only [Service.entryOf, acting, read]⟩)
  case checkpoints =>
    intro action member records
    obtain ⟨earlier, operation, others, -, rfl⟩ := Service.exists_of_mem_log member
    obtain rfl : operation = .checkpoint := records
    have before := underway.afterAll delivers restores earlier
    generalize acting.afterAll (reader, context) earlier = reached at before ⊢
    obtain ⟨now, context⟩ := reached
    have key : now.key = keyOf name := before.key
    rcases checkpoint_cases restores context key before.saves with
      ⟨vacant, kept⟩ | ⟨item, after, current, written, found, others⟩
    · simp [Service.entryOf, acting, kept, vacant]
    · simp only [Service.entryOf, acting, written, current, Option.some.injEq]
      refine ⟨trivial, trivial, ?_, nofun, others⟩
      rintro _ rfl
      exact found
  case returns => exact ⟨_, (underway.afterAll delivers restores actions).follow.symm⟩

variable [ReflBEq α] {marked : List α} {phase : Phase σ} {phases : List (Phase σ)}

/-- A phase is opened after the item that has been recorded last and then gets under way, or the
opening fails and leaves the context. -/
theorem phasing_cases (delivers : Delivers ahead)
    (distinct : items.Pairwise fun first second => (first == second) = false)
    (noted : Noted items name marked.getLast? context) (fresh : ahead phase.source = items) :
    (∃ reader, phasing name context phase =
        (⟨.ok reader, acting.log (reader, context) phase.actions⟩,
          (acting.afterAll (reader, context) phase.actions).2) ∧
      StandsAfter ahead items phase.source marked.getLast? reader ∧
      Underway ahead items name (ahead reader.source) [] marked (reader, context)) ∨
    ∃ error, phasing name context phase = (⟨.error error, []⟩, context) ∧
      FailsBefore items phase.source marked.getLast? error := by
  unfold phasing
  rcases openOn_cases delivers distinct noted fresh with
    ⟨reader, opened, key, saves, stands⟩ | ⟨error, refused, fails⟩
  · refine .inl ⟨reader, by rw [opened], stands, key, saves, rfl, ?_, ?_, noted⟩
    · obtain ⟨passed, -, -, split⟩ := stands.position
      intro item member
      rw [split]
      exact List.mem_append_right _ member
    · intro item current
      rw [stands.current.symm.trans current] at noted
      exact noted.1
  · exact .inr ⟨error, by rw [refused], fails⟩

/-- After any phases, the context has the item that they have recorded last. -/
theorem noted_afterAll (delivers : Delivers ahead) (restores : ExecutionContext.Restores α)
    (distinct : items.Pairwise fun first second => (first == second) = false)
    (unused : context.value? (keyOf name) = none)
    (fresh : ∀ phase ∈ phases, ahead phase.source = items) :
    Noted items name (lastRecorded ((phasing name).log context phases))
      ((phasing name).afterAll context phases) := by
  induction phases using List.reverseRecOn with
  | nil => exact unused
  | append_singleton earlier phase ih =>
    have noted := ih fun other member => fresh other (by simp [member])
    rw [Service.log_concat, Service.afterAll_append, lastRecorded, List.flatMap_append,
      List.flatMap_singleton]
    rcases phasing_cases delivers distinct noted (fresh phase (by simp)) with
      ⟨reader, opened, -, underway⟩ | ⟨error, refused, -⟩
    · simp only [Service.entryOf, opened]
      exact (underway.afterAll delivers restores phase.actions).noted
    · simp only [Service.entryOf, refused, recorded, List.filterMap_nil, List.append_nil]
      exact noted

/-- Whatever is read and recorded in the phases before, a phase goes on right after the item that
has been recorded last and returns the items from there on one after the other, or it cannot be
opened because a reading before that item has failed, and leaves the context as it is. -/
theorem resumes_after_recorded (restores : ExecutionContext.Restores α)
    (delivers : Delivers ahead)
    (distinct : items.Pairwise fun first second => (first == second) = false)
    (unused : context.value? (keyOf name) = none)
    (fresh : ∀ phase ∈ phases, ahead phase.source = items)
    (former : List (PhaseEntry σ α)) (entry : PhaseEntry σ α) (later : List (PhaseEntry σ α))
    (split : (phasing name).log context phases = former ++ entry :: later) :
    (∃ reader, entry.answer.opened = .ok reader ∧
      StandsAfter ahead items entry.operation.source (lastRecorded former) reader ∧
      Proceeds ahead name reader entry.answer.log) ∨
    ∃ error, entry.answer = ⟨.error error, []⟩ ∧ entry.after = entry.before ∧
      FailsBefore items entry.operation.source (lastRecorded former) error := by
  obtain ⟨earlier, phase, others, rfl, rfl, rfl⟩ := Service.exists_of_log_eq split
  have noted : Noted items name (lastRecorded ((phasing name).log context earlier)) _ :=
    noted_afterAll delivers restores distinct unused fun other member =>
      fresh other (by simp [member])
  rcases phasing_cases delivers distinct noted (fresh phase (by simp)) with
    ⟨reader, opened, stands, underway⟩ | ⟨error, refused, fails⟩
  · refine .inl ⟨reader, ?_, stands, ?_⟩ <;> simp only [Service.entryOf, opened]
    exact underway.proceeds delivers restores phase.actions
  · refine .inr ⟨error, ?_, ?_, fails⟩ <;> simp only [Service.entryOf, refused]

/-- Four names are to be read. -/
def names : List String := ["a", "b", "c", "d"]

/-- The first phase reads two names and records the second one. The second phase cannot be opened,
for a reading fails on the way. -/
def firstPhases : List (Phase (ListSource String)) :=
  [⟨.ofItems names [], [.read, .read, .checkpoint]⟩, ⟨.ofItems names [(1, "lost")], [.read]⟩]

/-- The last phase fails once, reads to the end and beyond, and has nothing to record then. -/
def lastPhase : Phase (ListSource String) :=
  ⟨.ofItems names [(2, "busy")], [.read, .read, .read, .read, .checkpoint]⟩

/-- A phase goes on after the name that an earlier one has recorded. -/
theorem resumes_after_recorded_lastPhase :
    (names.Pairwise fun first second => (first == second) = false) ∧
      ExecutionContext.empty.value? (keyOf "names") = none ∧
      (∀ phase ∈ firstPhases ++ [lastPhase], phase.source.items = names) ∧
      ∃ former entry, (phasing "names").log .empty (firstPhases ++ [lastPhase]) =
          former ++ [entry] ∧
        lastRecorded former = some "b" ∧ returned entry.answer.log = ["c", "d"] ∧
        ((∃ reader, entry.answer.opened = .ok reader ∧
            StandsAfter ListSource.items names entry.operation.source (lastRecorded former)
              reader ∧
            Proceeds ListSource.items "names" reader entry.answer.log) ∨
          ∃ error, entry.answer = ⟨.error error, []⟩ ∧ entry.after = entry.before ∧
            FailsBefore names entry.operation.source (lastRecorded former) error) := by
  have distinct : names.Pairwise fun first second => (first == second) = false := by decide
  have unused : ExecutionContext.empty.value? (keyOf "names") = none := rfl
  have fresh : ∀ phase ∈ firstPhases ++ [lastPhase], phase.source.items = names := by
    simp [firstPhases, lastPhase, ListSource.ofItems]
  have split := Service.log_concat (phasing "names") .empty firstPhases lastPhase
  exact ⟨distinct, unused, fresh, _, _, split, by decide +kernel, by decide +kernel,
    resumes_after_recorded ExecutionContext.restores_string ListSource.delivers distinct unused
      fresh _ _ [] split⟩

end TrackingReader

end BatchRun
