import BatchRun.Proofs.Reader.Phases

/-! # Readers that share a context

Two readers of different names are opened, used and closed in any order, and as often as is wanted,
on one context. Each of them looks at nothing but the entry under its own key and writes nothing
else, and the keys of different names differ. So each one gives the answers that it would give
alone. A reader that does not save its state has no use for the context at all.
-/

namespace BatchRun

/-- What is done with a reader from its opening to its closing. -/
inductive ReaderStep (σ : Type)
  | opening (source : σ) (savesState : Bool)
  | action (action : ReaderAction)
  | closing

/-- What comes of it. Without an open reader there is nothing to act on or to close. -/
inductive StepAnswer (σ α : Type)
  | opened (result : Except ReaderError (TrackingReader σ α))
  | acted (answer : ReaderAnswer α)
  | closed (source : σ)
  | idle

namespace TrackingReader

open ItemSource (readNext)

/-- Different readers have different keys. -/
theorem keyOf_injective {first second : String} (same : keyOf first = keyOf second) :
    first = second :=
  (String.append_left_inj ".item.current").1 same

/-! ## One reader -/

section One

variable {σ α : Type} [ItemSource σ α] [BEq α] [JsonEncode α] [JsonDecode α]
  {name key : String} {reader? : Option (TrackingReader σ α)} {reader : TrackingReader σ α}
  {context other : ExecutionContext} {source : σ} {step : ReaderStep σ} {savesState : Bool}

/-- The reader of this name, if it is open, and the context at work. -/
def working (name : String) :
    Service (Option (TrackingReader σ α) × ExecutionContext) (ReaderStep σ) (StepAnswer σ α)
  | (_, context), .opening source savesState =>
    match openOn source name context savesState with
    | .ok reader => (.opened (.ok reader), (some reader, context))
    | .error error => (.opened (.error error), (none, context))
  | (some reader, context), .action action =>
    let result := acting (reader, context) action
    (.acted result.1, (some result.2.1, result.2.2))
  | (some reader, context), .closing => (.closed reader.source, (none, context))
  | (none, context), _ => (.idle, (none, context))

/-- An open reader has the key of this name. -/
def Keyed (name : String) (reader? : Option (TrackingReader σ α)) : Prop :=
  ∀ reader ∈ reader?, reader.key = keyOf name

omit [ItemSource σ α] [BEq α] [JsonEncode α] [JsonDecode α] in
private theorem keyed_none (name : String) :
    Keyed name (none : Option (TrackingReader σ α)) :=
  nofun

/-- A step of a reader that does not save its state. -/
def Disregards (reader? : Option (TrackingReader σ α)) : ReaderStep σ → Prop
  | .opening _ savesState => savesState = false
  | _ => ∀ reader ∈ reader?, reader.savesState = false

omit [JsonEncode α] [JsonDecode α] in
/-- Reading up to an item leaves the key and the mode of a reader. -/
theorem jumpTo_eq_ok {item : α} {found : TrackingReader σ α}
    (jumped : reader.jumpTo item = .ok found) :
    found.key = reader.key ∧ found.savesState = reader.savesState := by
  fun_induction jumpTo reader item with
  | case1 => contradiction
  | case2 => contradiction
  | case3 =>
    rw [← Except.ok.inj jumped]
    exact ⟨rfl, rfl⟩
  | case4 _ _ _ _ _ _ ih => exact ih jumped

omit [JsonEncode α] in
/-- A reader is opened with the key of its name. -/
theorem openOn_eq_ok (opened : openOn source name context savesState = .ok reader) :
    reader.key = keyOf name ∧ reader.savesState = savesState := by
  unfold openOn at opened
  cases savesState with
  | false =>
    rw [← Except.ok.inj opened]
    exact ⟨rfl, rfl⟩
  | true =>
    simp only [if_true] at opened
    split at opened
    · contradiction
    · rw [← Except.ok.inj opened]
      exact ⟨rfl, rfl⟩
    · exact jumpTo_eq_ok opened

omit [JsonEncode α] in
private theorem openOn_congr (same : context.value? (keyOf name) = other.value? (keyOf name)) :
    openOn (α := α) source name context savesState = openOn source name other savesState := by
  have found : context.get (α := α) (fresh (α := α) source name savesState).key =
      other.get (fresh (α := α) source name savesState).key :=
    ExecutionContext.get_congr same
  simp only [openOn, found]

omit [BEq α] [JsonDecode α] [ItemSource σ α] in
private theorem checkpoint_of_not_savesState (off : reader.savesState = false) :
    reader.checkpoint context = .ok context := by
  simp [checkpoint, off]

omit [BEq α] [JsonDecode α] [ItemSource σ α] in
/-- A checkpoint goes by the entry under the key of the reader. -/
theorem checkpoint_congr (same : context.value? reader.key = other.value? reader.key) :
    (∃ error, reader.checkpoint context = .error error ∧
      reader.checkpoint other = .error error) ∨
    ∃ after after', reader.checkpoint context = .ok after ∧ reader.checkpoint other = .ok after' ∧
      after.value? reader.key = after'.value? reader.key := by
  unfold checkpoint
  cases reader.savesState with
  | false => exact .inr ⟨context, other, rfl, rfl, same⟩
  | true =>
    cases reader.current with
    | none => exact .inr ⟨context, other, rfl, rfl, same⟩
    | some item => exact ExecutionContext.put_congr same item

omit [BEq α] [JsonDecode α] [ItemSource σ α] in
private theorem value?_of_checkpoint {after : ExecutionContext}
    (written : reader.checkpoint context = .ok after) (differs : key ≠ reader.key) :
    after.value? key = context.value? key := by
  unfold checkpoint at written
  split at written
  · split at written
    · exact ExecutionContext.value?_of_put written differs
    · rw [← Except.ok.inj written]
  · rw [← Except.ok.inj written]

omit [BEq α] [JsonDecode α] in
/-- Whatever is done with a reader, its key and its mode stay, and so do the entries under other
keys. -/
theorem acting_keeps (reader : TrackingReader σ α) (context : ExecutionContext)
    (action : ReaderAction) :
    (acting (reader, context) action).2.1.key = reader.key ∧
      (acting (reader, context) action).2.1.savesState = reader.savesState ∧
      ∀ key ≠ reader.key,
        (acting (reader, context) action).2.2.value? key = context.value? key := by
  cases action with
  | read =>
    have kept : reader.read.2.key = reader.key ∧
        reader.read.2.savesState = reader.savesState := by
      unfold TrackingReader.read
      split <;> exact ⟨rfl, rfl⟩
    exact ⟨kept.1, kept.2, fun _ _ => rfl⟩
  | checkpoint =>
    simp only [acting]
    cases written : reader.checkpoint context with
    | error error => exact ⟨rfl, rfl, fun _ _ => rfl⟩
    | ok after => exact ⟨rfl, rfl, fun key differs => value?_of_checkpoint written differs⟩

omit [BEq α] [JsonDecode α] in
/-- What comes of an action goes by the entry under the key of the reader. -/
theorem acting_congr (same : context.value? reader.key = other.value? reader.key)
    (action : ReaderAction) :
    ∃ answer next after after', acting (reader, context) action = (answer, (next, after)) ∧
      acting (reader, other) action = (answer, (next, after')) ∧
      after.value? reader.key = after'.value? reader.key := by
  cases action with
  | read => exact ⟨_, _, context, other, rfl, rfl, same⟩
  | checkpoint =>
    simp only [acting]
    rcases checkpoint_congr same with
      ⟨error, failed, failed'⟩ | ⟨after, after', written, written', alike⟩
    · exact ⟨_, reader, context, other, by rw [failed], by rw [failed'], same⟩
    · exact ⟨_, reader, after, after', by rw [written], by rw [written'], alike⟩

omit [BEq α] [JsonDecode α] in
/-- A reader that does not save its state does the same on any context, and leaves it. -/
theorem acting_of_not_savesState (off : reader.savesState = false) (action : ReaderAction) :
    ∃ answer next, next.savesState = false ∧
      ∀ context, acting (reader, context) action = (answer, (next, context)) := by
  cases action with
  | read =>
    refine ⟨.item reader.read.1, reader.read.2, ?_, fun _ => rfl⟩
    exact (acting_keeps reader .empty .read).2.1.trans off
  | checkpoint =>
    exact ⟨.recorded (.ok ()), reader, off, fun context => by
      simp only [acting, checkpoint_of_not_savesState off]⟩

/-! ### From the opening to the closing -/

/-- The answer to a step and the reader after it go by the entry under the key of the name. -/
theorem working_congr (keyed : Keyed name reader?)
    (same : context.value? (keyOf name) = other.value? (keyOf name)) (step : ReaderStep σ) :
    ∃ answer next after after', working name (reader?, context) step = (answer, (next, after)) ∧
      working name (reader?, other) step = (answer, (next, after')) ∧
      after.value? (keyOf name) = after'.value? (keyOf name) ∧ Keyed name next := by
  cases step with
  | opening source savesState =>
    simp only [working, ← openOn_congr same]
    cases opened : openOn (α := α) source name context savesState with
    | error error => exact ⟨_, none, context, other, rfl, rfl, same, nofun⟩
    | ok reader =>
      refine ⟨_, some reader, context, other, rfl, rfl, same, ?_⟩
      rintro _ ⟨⟩
      exact (openOn_eq_ok opened).1
  | action action =>
    cases reader? with
    | none => exact ⟨.idle, none, context, other, rfl, rfl, same, nofun⟩
    | some reader =>
      have key : reader.key = keyOf name := keyed reader rfl
      rw [← key] at same ⊢
      obtain ⟨answer, next, after, after', acts, acts', alike⟩ := acting_congr same action
      refine ⟨.acted answer, some next, after, after', by simp only [working, acts],
        by simp only [working, acts'], alike, ?_⟩
      have kept := (acting_keeps reader context action).1
      rw [acts] at kept
      rintro _ ⟨⟩
      exact kept.trans key
  | closing =>
    cases reader? with
    | none => exact ⟨.idle, none, context, other, rfl, rfl, same, nofun⟩
    | some reader => exact ⟨.closed reader.source, none, context, other, rfl, rfl, same, nofun⟩

private theorem keyed_working (keyed : Keyed name reader?) (context : ExecutionContext)
    (step : ReaderStep σ) : Keyed name (working name (reader?, context) step).2.1 := by
  obtain ⟨answer, next, after, after', works, -, -, stillKeyed⟩ :=
    working_congr keyed (Eq.refl (context.value? (keyOf name))) step
  rwa [works]

/-- A step leaves the entries under other keys. -/
theorem value?_working (keyed : Keyed name reader?) (context : ExecutionContext)
    (step : ReaderStep σ) (differs : key ≠ keyOf name) :
    (working name (reader?, context) step).2.2.value? key = context.value? key := by
  cases step with
  | opening source savesState =>
    simp only [working]
    split <;> rfl
  | action action =>
    cases reader? with
    | none => rfl
    | some reader =>
      exact (acting_keeps reader context action).2.2 key (keyed reader rfl ▸ differs)
  | closing => cases reader? <;> rfl

/-- A reader that does not save its state works alike on any context, and leaves it. -/
theorem working_of_disregards (name : String) (off : Disregards reader? step) :
    ∃ answer next, (∀ reader ∈ next, reader.savesState = false) ∧
      ∀ context, working name (reader?, context) step = (answer, (next, context)) := by
  cases step with
  | opening source savesState =>
    obtain rfl : savesState = false := off
    refine ⟨.opened (.ok (fresh source name false)), some (fresh source name false), ?_,
      fun _ => rfl⟩
    rintro _ ⟨⟩
    rfl
  | action action =>
    cases reader? with
    | none => exact ⟨.idle, none, nofun, fun _ => rfl⟩
    | some reader =>
      obtain ⟨answer, next, stillOff, acts⟩ := acting_of_not_savesState (off reader rfl) action
      refine ⟨.acted answer, some next, ?_, fun context => by simp only [working, acts]⟩
      rintro _ ⟨⟩
      exact stillOff
  | closing =>
    cases reader? with
    | none => exact ⟨.idle, none, nofun, fun _ => rfl⟩
    | some reader => exact ⟨.closed reader.source, none, nofun, fun _ => rfl⟩

/-- The answers of a reader that is never opened to save its state are the same on any context. -/
theorem answers_of_never_saving (reader? : Option (TrackingReader σ α))
    {steps : List (ReaderStep σ)} (off : ∀ reader ∈ reader?, reader.savesState = false)
    (never : ∀ source, .opening source true ∉ steps) :
    ((working name).log (reader?, context) steps).map LogEntry.answer =
      ((working name).log (reader?, other) steps).map LogEntry.answer := by
  induction steps generalizing reader? with
  | nil => rfl
  | cons step rest ih =>
    have disregards : Disregards reader? step := by
      cases step with
      | opening source savesState =>
        cases savesState with
        | true => exact absurd (List.mem_cons_self ..) (never source)
        | false => rfl
      | action => exact off
      | closing => exact off
    obtain ⟨answer, next, stillOff, works⟩ := working_of_disregards name disregards
    simp only [Service.log, Service.entryOf, works, List.map_cons]
    rw [ih next stillOff fun source member => never source (List.mem_cons_of_mem _ member)]

end One

/-! ## Two readers -/

section Two

variable {σ α τ β : Type} [ItemSource σ α] [BEq α] [JsonEncode α] [JsonDecode α]
  [ItemSource τ β] [BEq β] [JsonEncode β] [JsonDecode β]

/-- Two readers, where they are open, and the context that they share. -/
structure Sharing (σ α τ β : Type) where
  first : Option (TrackingReader σ α)
  second : Option (TrackingReader τ β)
  context : ExecutionContext

namespace Sharing

variable {firstName secondName key : String} {state : Sharing σ α τ β}
  {alone : Option (TrackingReader σ α) × ExecutionContext} {context : ExecutionContext}

/-- The readers at work under these names. -/
def serving (firstName secondName : String) :
    Service (Sharing σ α τ β) (ReaderStep σ ⊕ ReaderStep τ) (StepAnswer σ α ⊕ StepAnswer τ β)
  | state, .inl step =>
    let result := working firstName (state.first, state.context) step
    (.inl result.1, { state with first := result.2.1, context := result.2.2 })
  | state, .inr step =>
    let result := working secondName (state.second, state.context) step
    (.inr result.1, { state with second := result.2.1, context := result.2.2 })

/-- No reader is open. -/
def begun (context : ExecutionContext) : Sharing σ α τ β := ⟨none, none, context⟩

/-- The same readers in the other order. -/
def swap (state : Sharing σ α τ β) : Sharing τ β σ α := ⟨state.second, state.first, state.context⟩

/-- The first reader is the one that works alone and finds the same in the context. -/
structure Mirrors (firstName secondName : String) (state : Sharing σ α τ β)
    (alone : Option (TrackingReader σ α) × ExecutionContext) : Prop where
  first : Keyed firstName state.first
  second : Keyed secondName state.second
  same : state.first = alone.1
  entry : state.context.value? (keyOf firstName) = alone.2.value? (keyOf firstName)

/-- A step of the first reader goes as if it were alone. -/
theorem Mirrors.own (mirrors : Mirrors firstName secondName state alone) (step : ReaderStep σ) :
    (serving firstName secondName state (.inl step)).1 = .inl (working firstName alone step).1 ∧
      Mirrors firstName secondName (serving firstName secondName state (.inl step)).2
        (working firstName alone step).2 := by
  obtain ⟨reader?, own⟩ := alone
  obtain rfl : state.first = reader? := mirrors.same
  obtain ⟨answer, next, after, after', works, works', alike, keyed⟩ :=
    working_congr mirrors.first mirrors.entry step
  simp only [serving, works, works']
  exact ⟨trivial, keyed, mirrors.second, rfl, alike⟩

/-- A step of the second reader leaves the first one where it is. -/
theorem Mirrors.foreign (apart : firstName ≠ secondName)
    (mirrors : Mirrors firstName secondName state alone) (step : ReaderStep τ) :
    Mirrors firstName secondName (serving firstName secondName state (.inr step)).2 alone := by
  have others : keyOf firstName ≠ keyOf secondName := fun same => apart (keyOf_injective same)
  refine ⟨mirrors.first, keyed_working mirrors.second state.context step, mirrors.same, ?_⟩
  exact (value?_working mirrors.second state.context step others).trans mirrors.entry

/-- The answers of the first reader are those that it gives alone. -/
theorem answers_first (apart : firstName ≠ secondName)
    (mirrors : Mirrors firstName secondName state alone)
    (steps : List (ReaderStep σ ⊕ ReaderStep τ)) :
    ((serving firstName secondName).log state steps).filterMap
        (fun entry => entry.answer.getLeft?) =
      ((working firstName).log alone (steps.filterMap Sum.getLeft?)).map LogEntry.answer := by
  refine Service.filterMap_log_of_part (Mirrors firstName secondName) ?_ ?_ mirrors steps
  · rintro state alone (step | step) own mirrors ⟨⟩
    obtain ⟨told, next⟩ := mirrors.own step
    exact ⟨congrArg Sum.getLeft? told, next⟩
  · rintro state alone (step | step) mirrors kind
    · contradiction
    · exact ⟨rfl, mirrors.foreign apart step⟩

/-- The answers of the second reader are those that it gives alone. -/
theorem answers_second {alone : Option (TrackingReader τ β) × ExecutionContext}
    (apart : firstName ≠ secondName) (mirrors : Mirrors secondName firstName state.swap alone)
    (steps : List (ReaderStep σ ⊕ ReaderStep τ)) :
    ((serving firstName secondName).log state steps).filterMap
        (fun entry => entry.answer.getRight?) =
      ((working secondName).log alone (steps.filterMap Sum.getRight?)).map LogEntry.answer := by
  refine Service.filterMap_log_of_part
    (fun state alone => Mirrors secondName firstName (swap state) alone) ?_ ?_ mirrors steps
  · rintro state alone (step | step) own mirrors ⟨⟩
    obtain ⟨told, next⟩ := mirrors.own step
    exact ⟨congrArg Sum.getLeft? told, next⟩
  · rintro state alone (step | step) mirrors kind
    · exact ⟨rfl, mirrors.foreign apart.symm step⟩
    · contradiction

/-- The readers have the keys of their names, and under other keys stands what stood there. -/
structure Confined (firstName secondName : String) (context : ExecutionContext)
    (state : Sharing σ α τ β) : Prop where
  first : Keyed firstName state.first
  second : Keyed secondName state.second
  others : ∀ key, key ≠ keyOf firstName → key ≠ keyOf secondName →
    state.context.value? key = context.value? key

private theorem Confined.serve (confined : Confined firstName secondName context state)
    (step : ReaderStep σ ⊕ ReaderStep τ) :
    Confined firstName secondName context (serving firstName secondName state step).2 := by
  cases step with
  | inl step =>
    refine ⟨keyed_working confined.first state.context step, confined.second, ?_⟩
    intro key notFirst notSecond
    exact (value?_working confined.first state.context step notFirst).trans
      (confined.others key notFirst notSecond)
  | inr step =>
    refine ⟨confined.first, keyed_working confined.second state.context step, ?_⟩
    intro key notFirst notSecond
    exact (value?_working confined.second state.context step notSecond).trans
      (confined.others key notFirst notSecond)

private theorem Confined.serveAll (confined : Confined firstName secondName context state)
    (steps : List (ReaderStep σ ⊕ ReaderStep τ)) :
    Confined firstName secondName context
      ((serving firstName secondName).afterAll state steps) := by
  induction steps using List.reverseRecOn with
  | nil => exact confined
  | append_singleton steps step ih =>
    rw [Service.afterAll_append]
    exact ih.serve step

/-- A step of a reader that does not save its state. -/
def Unconcerned (state : Sharing σ α τ β) : ReaderStep σ ⊕ ReaderStep τ → Prop
  | .inl step => Disregards state.first step
  | .inr step => Disregards state.second step

/-- Such a step leaves the context, and on any other context it comes to the same. -/
theorem serving_of_unconcerned {step : ReaderStep σ ⊕ ReaderStep τ}
    (unconcerned : Unconcerned state step) :
    (serving firstName secondName state step).2.context = state.context ∧
      ∀ other, serving firstName secondName { state with context := other } step =
        ((serving firstName secondName state step).1,
          { (serving firstName secondName state step).2 with context := other }) := by
  cases step with
  | inl step =>
    obtain ⟨answer, next, -, works⟩ := working_of_disregards firstName unconcerned
    simp only [serving, works]
    exact ⟨trivial, fun _ => trivial⟩
  | inr step =>
    obtain ⟨answer, next, -, works⟩ := working_of_disregards secondName unconcerned
    simp only [serving, works]
    exact ⟨trivial, fun _ => trivial⟩

/-- Readers of different names that share a context do not interfere, in whichever order they are
opened, used and closed. Each one gives the answers that it gives alone on a context with the same
entries, or on any context if it is never opened to save its state. Entries under other keys than
theirs stay as they are. A step of a reader that does not save its state leaves the context and does
not depend on it. -/
theorem readers_do_not_interfere (firstName secondName : String) (apart : firstName ≠ secondName)
    (context : ExecutionContext) (steps : List (ReaderStep σ ⊕ ReaderStep τ)) :
    let log := (serving firstName secondName).log (begun context : Sharing σ α τ β) steps
    (∀ own : ExecutionContext, own.entries = context.entries ∨
        (∀ source, .opening source true ∉ steps.filterMap Sum.getLeft?) →
      log.filterMap (fun entry => entry.answer.getLeft?) =
        ((working firstName).log (none, own) (steps.filterMap Sum.getLeft?)).map
          LogEntry.answer) ∧
    (∀ own : ExecutionContext, own.entries = context.entries ∨
        (∀ source, .opening source true ∉ steps.filterMap Sum.getRight?) →
      log.filterMap (fun entry => entry.answer.getRight?) =
        ((working secondName).log (none, own) (steps.filterMap Sum.getRight?)).map
          LogEntry.answer) ∧
    (∀ entry ∈ log, ∀ key, key ≠ keyOf firstName → key ≠ keyOf secondName →
      entry.after.context.value? key = context.value? key) ∧
    ∀ entry ∈ log, Unconcerned entry.before entry.operation →
      entry.after.context = entry.before.context ∧
      ∀ other, serving firstName secondName { entry.before with context := other }
          entry.operation =
        (entry.answer, { entry.after with context := other }) := by
  intro log
  refine ⟨?first, ?second, ?others, ?unconcerned⟩
  case first =>
    have begins (own : ExecutionContext) (same : own.entries = context.entries) :
        Mirrors firstName secondName (begun context : Sharing σ α τ β) (none, own) :=
      ⟨keyed_none _, keyed_none _, rfl, by simp only [begun, ExecutionContext.value?, same]⟩
    rintro own (same | never)
    · exact answers_first apart (begins own same) steps
    · rw [answers_of_never_saving none nofun never]
      exact answers_first apart (begins context rfl) steps
  case second =>
    have begins (own : ExecutionContext) (same : own.entries = context.entries) :
        Mirrors secondName firstName (begun context : Sharing σ α τ β).swap (none, own) :=
      ⟨keyed_none _, keyed_none _, rfl, by simp only [begun, swap, ExecutionContext.value?, same]⟩
    rintro own (same | never)
    · exact answers_second apart (begins own same) steps
    · rw [answers_of_never_saving none nofun never]
      exact answers_second apart (begins context rfl) steps
  case others =>
    intro entry member key notFirst notSecond
    obtain ⟨earlier, step, later, -, rfl⟩ := Service.exists_of_mem_log member
    have confined : Confined firstName secondName context (begun context : Sharing σ α τ β) :=
      ⟨keyed_none _, keyed_none _, fun _ _ _ => rfl⟩
    exact ((confined.serveAll earlier).serve step).others key notFirst notSecond
  case unconcerned =>
    intro entry member unconcerned
    obtain ⟨earlier, step, later, -, rfl⟩ := Service.exists_of_mem_log member
    exact serving_of_unconcerned unconcerned

/-- Both readers read the same names. The first one records the second name and is opened again on a
source that fails once, the second one records the first name in between and does not save its state
afterwards. -/
def alternating : List (ReaderStep (ListSource String) ⊕ ReaderStep (ListSource String)) :=
  [.inl (.opening (.ofItems names []) true), .inr (.opening (.ofItems names []) true),
    .inl (.action .read), .inr (.action .read), .inr (.action .checkpoint),
    .inl (.action .read), .inl (.action .checkpoint), .inr .closing, .inl .closing,
    .inr (.opening (.ofItems names []) false), .inl (.opening (.ofItems names [(2, "lost")]) true),
    .inr (.action .read), .inr (.action .checkpoint), .inl (.action .read), .inl (.action .read)]

/-- The first reader goes on after the second name, although the second reader has recorded another
one. -/
theorem readers_do_not_interfere_alternating :
    let log := (serving "left" "right").log (begun .empty) alternating
    let ended := (serving "left" "right").afterAll (begun .empty) alternating
    "left" ≠ "right" ∧ ended.first.bind (·.current) = some "c" ∧
      ended.context.string? (keyOf "left") = some "b" ∧
      ended.context.string? (keyOf "right") = some "a" ∧
      log.filterMap (fun entry => entry.answer.getLeft?) =
        ((working "left").log (none, .empty) (alternating.filterMap Sum.getLeft?)).map
          LogEntry.answer ∧
      log.filterMap (fun entry => entry.answer.getRight?) =
        ((working "right").log (none, .empty) (alternating.filterMap Sum.getRight?)).map
          LogEntry.answer := by
  have apart : "left" ≠ "right" := by decide
  obtain ⟨first, second, -⟩ := readers_do_not_interfere "left" "right" apart .empty alternating
  exact ⟨apart, by decide +kernel, by decide +kernel, by decide +kernel,
    first .empty (.inl rfl), second .empty (.inl rfl)⟩

end Sharing

end Two

end TrackingReader

end BatchRun
