import Mathlib.Data.List.Induction

/-! # Logs of operations

Something with a state carries out operations one after the other and answers each of them. The log
of a run has an entry for every operation, with the state before it, the answer and the state after
it. An entry is determined by the operations up to it, so what is to be shown of every entry is
shown of one operation after any others.
-/

namespace BatchRun

/-- What is answered to an operation in a state, and the state afterwards. -/
abbrev Service (σ ω ρ : Type) := σ → ω → ρ × σ

/-- An operation that has been carried out. -/
structure LogEntry (σ ω ρ : Type) where
  before : σ
  operation : ω
  answer : ρ
  after : σ

namespace Service

variable {σ ω ρ : Type} {service : Service σ ω ρ} {state : σ} {operation : ω}
  {operations : List ω} {former later : List (LogEntry σ ω ρ)} {entry : LogEntry σ ω ρ}

/-- The entry for an operation that is carried out in a state. -/
def entryOf (service : Service σ ω ρ) (state : σ) (operation : ω) : LogEntry σ ω ρ :=
  ⟨state, operation, (service state operation).1, (service state operation).2⟩

/-- The state after some operations. -/
def afterAll (service : Service σ ω ρ) (state : σ) (operations : List ω) : σ :=
  operations.foldl (fun state operation => (service state operation).2) state

/-- What operations come to when they are carried out one after the other. -/
def log (service : Service σ ω ρ) (state : σ) : List ω → List (LogEntry σ ω ρ)
  | [] => []
  | operation :: rest =>
    service.entryOf state operation :: service.log (service state operation).2 rest

theorem afterAll_append (service : Service σ ω ρ) (state : σ) (operations : List ω)
    (operation : ω) : service.afterAll state (operations ++ [operation]) =
      (service (service.afterAll state operations) operation).2 := by
  simp [afterAll]

theorem afterAll_afterAll (service : Service σ ω ρ) (state : σ) (earlier others : List ω) :
    service.afterAll (service.afterAll state earlier) others =
      service.afterAll state (earlier ++ others) :=
  List.foldl_append.symm

/-- The log of two runs is that of the first, and then that of the second. -/
theorem log_append (service : Service σ ω ρ) (state : σ) (earlier others : List ω) :
    service.log state (earlier ++ others) =
      service.log state earlier ++ service.log (service.afterAll state earlier) others := by
  induction earlier generalizing state with
  | nil => rfl
  | cons first rest ih =>
    rw [List.cons_append, log, ih]
    rfl

theorem log_concat (service : Service σ ω ρ) (state : σ) (earlier : List ω) (operation : ω) :
    service.log state (earlier ++ [operation]) = service.log state earlier ++
      [service.entryOf (service.afterAll state earlier) operation] :=
  service.log_append state earlier [operation]

/-- What a log tells grows by what its last entry tells. -/
theorem filterMap_log_concat {τ : Type} (told : LogEntry σ ω ρ → Option τ) (service : Service σ ω ρ)
    (state : σ) (earlier : List ω) (operation : ω) :
    (service.log state (earlier ++ [operation])).filterMap told =
      (service.log state earlier).filterMap told ++
        (told (service.entryOf (service.afterAll state earlier) operation)).toList := by
  rw [log_concat, List.filterMap_append, List.filterMap_cons]
  cases told (service.entryOf (service.afterAll state earlier) operation) <;> rfl

/-- There is one entry for each operation. -/
theorem length_log (service : Service σ ω ρ) (state : σ) (operations : List ω) :
    (service.log state operations).length = operations.length := by
  induction operations generalizing state with
  | nil => rfl
  | cons first rest ih => simp [log, ih]

/-- Before an entry stands the log of the operations before it. -/
theorem exists_of_log_eq (split : service.log state operations = former ++ entry :: later) :
    ∃ earlier operation others, operations = earlier ++ operation :: others ∧
      former = service.log state earlier ∧
      entry = service.entryOf (service.afterAll state earlier) operation := by
  induction operations generalizing state former with
  | nil => simp [log] at split
  | cons first rest ih =>
    cases former with
    | nil =>
      obtain ⟨same, -⟩ := List.cons.inj split
      exact ⟨[], first, rest, rfl, rfl, same.symm⟩
    | cons head former =>
      obtain ⟨same, tail⟩ := List.cons.inj split
      obtain ⟨earlier, operation, others, split, before, found⟩ := ih tail
      refine ⟨first :: earlier, operation, others, ?_, ?_, found⟩
      · rw [split, List.cons_append]
      · rw [before, ← same]
        rfl

/-- The parts of a log are the logs of some of the first operations and of the others. -/
theorem exists_of_log_eq_append (split : service.log state operations = former ++ later) :
    ∃ earlier others, operations = earlier ++ others ∧ former = service.log state earlier ∧
      later = service.log (service.afterAll state earlier) others := by
  induction operations generalizing state former with
  | nil =>
    obtain ⟨rfl, rfl⟩ := List.append_eq_nil_iff.1 split.symm
    exact ⟨[], [], rfl, rfl, rfl⟩
  | cons first rest ih =>
    cases former with
    | nil => exact ⟨[], first :: rest, rfl, rfl, split.symm⟩
    | cons head former =>
      obtain ⟨same, tail⟩ := List.cons.inj split
      obtain ⟨earlier, others, split, before, after⟩ := ih tail
      refine ⟨first :: earlier, others, ?_, ?_, after⟩
      · rw [split, List.cons_append]
      · rw [before, ← same]
        rfl

/-- An entry stands at the end of the log of some of the first operations. -/
theorem exists_of_mem_log (member : entry ∈ service.log state operations) :
    ∃ earlier operation others, operations = earlier ++ operation :: others ∧
      entry = service.entryOf (service.afterAll state earlier) operation := by
  obtain ⟨former, later, split⟩ := List.append_of_mem member
  obtain ⟨earlier, operation, others, same, -, found⟩ := exists_of_log_eq split
  exact ⟨earlier, operation, others, same, found⟩

/-- Where one service carries out some of the operations of another one as its own, and the others
leave alone what relates the states, it gives the answers that its operations get there. -/
theorem filterMap_log_of_part {τ ω' ρ' : Type} {part : Service τ ω' ρ'} {own? : ω → Option ω'}
    {told? : ρ → Option ρ'} (Related : σ → τ → Prop)
    (own : ∀ {state other operation step}, Related state other → own? operation = some step →
      told? (service state operation).1 = some (part other step).1 ∧
        Related (service state operation).2 (part other step).2)
    (foreign : ∀ {state other operation}, Related state other → own? operation = none →
      told? (service state operation).1 = none ∧ Related (service state operation).2 other)
    {other : τ} (related : Related state other) (operations : List ω) :
    (service.log state operations).filterMap (fun entry => told? entry.answer) =
      (part.log other (operations.filterMap own?)).map LogEntry.answer := by
  induction operations generalizing state other with
  | nil => rfl
  | cons operation rest ih =>
    rw [log]
    cases kind : own? operation with
    | none =>
      obtain ⟨silent, kept⟩ := foreign related kind
      rw [List.filterMap_cons_none kind]
      refine (List.filterMap_cons_none ?_).trans (ih kept)
      exact silent
    | some step =>
      obtain ⟨told, next⟩ := own related kind
      rw [List.filterMap_cons_some kind, log, List.map_cons, ← ih next]
      exact List.filterMap_cons_some told

end Service

end BatchRun
