import BatchRun.Proofs.Reader.Phases

/-! # Checkpoints at the end of a source

A reader that has come to the end has no current item, so a checkpoint that is taken there records
nothing: the context keeps the item that was recorded before. A reader that is opened on it goes on
right after that item. It finds nothing more to read just in case that the last item of the list
has been recorded; otherwise it hands out again what comes after the recorded item.
-/

namespace BatchRun.TrackingReader

open ItemSource (Hands Delivers readNext)

variable {σ α : Type} [ItemSource σ α] [BEq α] [JsonEncode α] [JsonDecode α]
  {ahead : σ → List α} {items : List α} {name : String} {record : Option α}
  {context : ExecutionContext} {source : σ} {reader : TrackingReader σ α}
  {state : TrackingReader σ α × ExecutionContext}

/-- However far the source is read, no reading fails. -/
def Reliable (source : σ) : Prop :=
  ∀ handed next, Hands source handed next → ∀ failure, (readNext next).1 ≠ .error failure

omit [BEq α] [JsonDecode α] in
/-- Without a current item there is nothing to record, however often this is tried. -/
theorem log_of_vacant (vacant : state.1.current = none) {actions : List ReaderAction}
    (checked : ∀ check ∈ acting.log state actions, check.operation = .checkpoint) :
    ∀ check ∈ acting.log state actions,
      check.answer = .recorded (.ok ()) ∧ check.after = check.before := by
  have kept : acting state .checkpoint = (.recorded (.ok ()), state) := by
    obtain ⟨reader, context⟩ := state
    have unwritten : reader.checkpoint context = .ok context := by
      unfold checkpoint
      rw [show reader.current = none from vacant, ite_self]
    simp only [acting, unwritten]
  induction actions with
  | nil => exact fun check member => absurd member List.not_mem_nil
  | cons first rest ih =>
    obtain ⟨isFirst, checkedRest⟩ := List.forall_mem_cons.1 checked
    obtain rfl : first = .checkpoint := isFirst
    rw [kept] at checkedRest
    rw [Service.log, kept]
    refine List.forall_mem_cons.2 ⟨?_, ih checkedRest⟩
    simp only [Service.entryOf, kept, and_self]

omit [BEq α] [JsonDecode α] in
/-- A reading that returns none leaves the reader without a current item. -/
theorem current_of_ended {action : ReaderAction}
    (ended : (acting state action).1 = .item (.ok none)) :
    (acting state action).2.1.current = none := by
  obtain ⟨reader, context⟩ := state
  cases action with
  | checkpoint =>
    simp only [acting] at ended
    split at ended <;> contradiction
  | read =>
    simp only [acting, read] at ended ⊢
    rcases taken : readNext reader.source with ⟨failure | item?, next⟩
    · simp [taken] at ended
    · simpa [taken] using ended

omit [BEq α] [JsonDecode α] in
/-- Checkpoints that follow on a reading that has returned none change nothing. -/
theorem checks_at_end {actions : List ReaderAction} {done checks : List (Action σ α)}
    {reading : Action σ α} (course : acting.log state actions = done ++ reading :: checks)
    (ended : reading.answer = .item (.ok none))
    (checked : ∀ check ∈ checks, check.operation = .checkpoint) :
    ∀ check ∈ checks, check.answer = .recorded (.ok ()) ∧ check.after = check.before := by
  obtain ⟨earlier, others, -, -, onward⟩ := Service.exists_of_log_eq_append course
  cases others with
  | nil => simp [Service.log] at onward
  | cons operation others =>
    obtain ⟨rfl, rfl⟩ := List.cons.inj onward
    exact log_of_vacant (current_of_ended ended) checked

omit [JsonEncode α] [JsonDecode α] [BEq α] in
/-- A reader of a source that does not fail returns the first item ahead, and none at the end. -/
theorem read_of_reliable (delivers : Delivers ahead) (reliable : Reliable reader.source) :
    reader.read.1 = .ok (ahead reader.source).head? := by
  rcases read_cases delivers reader with
    ⟨item, next, read, split⟩ | ⟨next, read, stopped, -⟩ | ⟨failure, next, read, -⟩
  · rw [read, split]
    rfl
  · rw [read, stopped]
    rfl
  · refine absurd ?_ (reliable [] _ (.none _) failure)
    unfold TrackingReader.read at read
    rcases taken : readNext reader.source with ⟨other | item?, after⟩
    · simp only [taken, Prod.mk.injEq] at read
      exact read.1
    · simp [taken] at read

omit [JsonEncode α] [JsonDecode α] [BEq α] in
private theorem Reliable.of_hands {handed : List α} {next : σ} (reliable : Reliable source)
    (hands : Hands source handed next) : Reliable next := by
  induction hands with
  | none => exact reliable
  | more read rest ih => exact ih fun later stuck onward => reliable _ stuck (.more read onward)

omit [JsonEncode α] [JsonDecode α] in
/-- Nothing is ahead after an item just in case that it is the last one of the list. -/
theorem StandsAfter.ahead_eq_nil_iff [ReflBEq α]
    (distinct : items.Pairwise fun first second => (first == second) = false)
    (stands : StandsAfter ahead items source record reader) :
    ahead reader.source = [] ↔ record = items.getLast? := by
  obtain ⟨passed, -, last, split⟩ := stands.position
  constructor
  · intro nothing
    rw [split, nothing, List.append_nil, last]
  · intro same
    cases left : ahead reader.source with
    | nil => rfl
    | cons item rest =>
      -- the last item would have been passed and be ahead as well
      rw [left] at split
      rw [split] at distinct same
      have isLast : (item :: rest).getLast? = some ((item :: rest).getLast (by simp)) :=
        List.getLast?_eq_some_getLast _
      rw [List.getLast?_append, isLast] at same
      have apart := (List.pairwise_append.1 distinct).2.2 _ (List.mem_of_getLast? (last.trans same))
        _ (List.mem_of_getLast? isLast)
      rw [BEq.rfl] at apart
      contradiction

omit [JsonEncode α] [JsonDecode α] [BEq α] [ItemSource σ α] in
/-- A list without planned failures does not fail. -/
theorem reliable_of_no_faults {source : ListSource α} (planned : source.faults = []) :
    Reliable source := by
  have next_of_read {source : ListSource α} (planned : source.faults = []) :
      (∀ failure, (readNext source).1 ≠ .error failure) ∧ (readNext source).2.faults = [] := by
    change (∀ failure, source.readNext.1 ≠ .error failure) ∧ source.readNext.2.faults = []
    unfold ListSource.readNext
    rw [planned]
    cases source.items <;> simp [planned]
  intro handed next hands
  induction hands with
  | none => exact (next_of_read planned).1
  | more read rest ih => exact ih (by simpa [read] using (next_of_read planned).2)

variable [ReflBEq α] {phases : List (Phase σ)}

/-- A checkpoint at the end changes nothing, so a reader that is opened afterwards goes on after the
item that was recorded before the end. It reports the end at once just in case that this was the
last item of the list. -/
theorem reopened_at_end_iff_last_recorded (restores : ExecutionContext.Restores α)
    (delivers : Delivers ahead)
    (distinct : items.Pairwise fun first second => (first == second) = false)
    (unused : context.value? (keyOf name) = none)
    (fresh : ∀ phase ∈ phases, ahead phase.source = items)
    (former : List (PhaseEntry σ α)) (entry : PhaseEntry σ α)
    (split : (phasing name).log context phases = former ++ [entry])
    (done : List (Action σ α)) (reading : Action σ α) (checks : List (Action σ α))
    (course : entry.answer.log = done ++ reading :: checks)
    (ended : reading.answer = .item (.ok none))
    (checked : ∀ check ∈ checks, check.operation = .checkpoint)
    (whole : ahead source = items) (reliable : Reliable source) :
    (∀ check ∈ checks, check.answer = .recorded (.ok ()) ∧ check.after = check.before) ∧
    ∃ reader next, openOn source name entry.after true = .ok reader ∧
      StandsAfter ahead items source (lastRecorded (former ++ [entry])) reader ∧
      reader.read.1 = .ok next ∧ next = (ahead reader.source).head? ∧
      (next = none ↔ lastRecorded (former ++ [entry]) = items.getLast?) := by
  obtain ⟨earlier, phase, others, rfl, rfl, rfl⟩ := Service.exists_of_log_eq split
  have noted : Noted items name
      (lastRecorded ((phasing name).log context (earlier ++ [phase]))) _ :=
    noted_afterAll delivers restores distinct unused fun other member =>
      fresh other (by
        rcases List.mem_append.1 member with before | last
        · exact List.mem_append_left _ before
        · exact List.mem_append_right _ (List.mem_singleton.1 last ▸ List.mem_cons_self ..))
  rw [Service.log_concat, Service.afterAll_append] at noted
  constructor
  · generalize (phasing (σ := σ) (α := α) name).afterAll context earlier = before at course
    simp only [Service.entryOf, phasing] at course
    cases opened : openOn (α := α) phase.source name before true with
    | error error => simp [opened] at course
    | ok reader =>
      simp only [opened] at course
      exact checks_at_end course ended checked
  · rcases openOn_cases delivers distinct noted whole with
      ⟨reader, opened, -, -, stands⟩ |
        ⟨error, -, failure, handed, left, stuck, item, -, hands, failed, -⟩
    · obtain ⟨passed, hands, -⟩ := stands.position
      refine ⟨reader, _, opened, stands,
        read_of_reliable delivers (reliable.of_hands hands), rfl, ?_⟩
      rw [List.head?_eq_none_iff]
      exact stands.ahead_eq_nil_iff distinct
    · exact absurd failed (reliable _ _ hands failure)

/-- The second of four names is recorded, the others are read to the end, and nothing is recorded
there. -/
def endedPhase : Phase (ListSource String) :=
  ⟨.ofItems names [], [.read, .read, .checkpoint, .read, .read, .read, .checkpoint]⟩

/-- The third name is handed out once more. -/
theorem reopened_at_end_iff_last_recorded_endedPhase :
    (names.Pairwise fun first second => (first == second) = false) ∧
      ExecutionContext.empty.value? (keyOf "names") = none ∧
      (∀ phase ∈ [endedPhase], phase.source.items = names) ∧
      Reliable (ListSource.ofItems names []) ∧
      ∃ entry done reading checks,
        (phasing "names").log .empty [endedPhase] = [entry] ∧
        entry.answer.log = done ++ reading :: checks ∧ reading.answer = .item (.ok none) ∧
        (∀ check ∈ checks, check.operation = .checkpoint) ∧
        returned entry.answer.log = names ∧ lastRecorded [entry] = some "b" ∧
        (∀ check ∈ checks, check.answer = .recorded (.ok ()) ∧ check.after = check.before) ∧
        ∃ reader item, openOn (ListSource.ofItems names []) "names" entry.after true =
          .ok reader ∧ reader.read.1 = .ok (some item) := by
  have distinct : names.Pairwise fun first second => (first == second) = false := by decide
  have unused : ExecutionContext.empty.value? (keyOf "names") = none := rfl
  have fresh : ∀ phase ∈ [endedPhase], phase.source.items = names := by
    simp [endedPhase, ListSource.ofItems]
  have reliable : Reliable (ListSource.ofItems names []) := reliable_of_no_faults rfl
  have split := Service.log_concat (phasing (σ := ListSource String) "names") .empty [] endedPhase
  let begun : TrackingReader (ListSource String) String × ExecutionContext :=
    (.fresh (.ofItems names []) "names" true, .empty)
  have course := acting.log_append begun
    [.read, .read, .checkpoint, .read, .read] [.read, .checkpoint]
  have checked (ended : TrackingReader (ListSource String) String × ExecutionContext) :
      ∀ check ∈ acting.log ended [.checkpoint], check.operation = .checkpoint :=
    List.forall_mem_singleton.2 rfl
  obtain ⟨kept, reader, next, opened, -, returns, -, ends⟩ :=
    reopened_at_end_iff_last_recorded ExecutionContext.restores_string ListSource.delivers distinct
      unused fresh [] _ split _ _ _ course rfl (checked _) rfl reliable
  refine ⟨distinct, unused, fresh, reliable, _, _, _, _, split, course, rfl, checked _, rfl, rfl,
    kept, reader, ?_⟩
  cases next with
  | none => exact absurd (ends.1 rfl) (by decide)
  | some item => exact ⟨item, opened, returns⟩

end BatchRun.TrackingReader
