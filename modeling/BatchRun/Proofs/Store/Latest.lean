import BatchRun.Proofs.Store.Steps

/-! # The last step of a name

Steps are ordered by the moments they were started at, and by their numbers if these are the same.
The step that is found for an instance and a name is the greatest one in this order. So it does not
matter in which order the groups and the steps in them are gone through.
-/

namespace BatchRun

/-- The order of steps by start, the number deciding between steps of the same moment. -/
def StepExecution.startOrder : StepExecution → StepExecution → Ordering :=
  compareLex (compareOn (·.startTime)) (compareOn (·.id))

instance : Std.TransCmp StepExecution.startOrder :=
  inferInstanceAs (Std.TransCmp (compareLex (compareOn StepExecution.startTime)
    (compareOn StepExecution.id)))

namespace StepStore

open StepExecution (startOrder)

variable {store : StepStore} {step : StepExecution} {known : JobInstanceId} {stepName : String}

/-- The order by start, and by number at the same moment. -/
theorem startOrder_eq (first second : StepExecution) : startOrder first second =
    (compare first.startTime second.startTime).then (compare first.id second.id) := rfl

private theorem startOrder_swap (first second : StepExecution) :
    startOrder second first = (startOrder first second).swap :=
  Std.OrientedCmp.eq_swap

/-- The later one of two steps is the greater one. -/
theorem later_eq (first second : StepExecution) :
    later first second = if (startOrder first second).isGT then first else second := by
  unfold later
  rw [startOrder_eq]
  cases compare first.startTime second.startTime <;> simp

private theorem isLE_later_left (first second : StepExecution) :
    (startOrder first (later first second)).isLE = true := by
  rw [later_eq]
  split
  · simp [Std.ReflCmp.compare_self]
  · rename_i notAbove
    exact Ordering.isLE_iff_ne_gt.2 fun above => notAbove (Ordering.isGT_iff_eq_gt.2 above)

private theorem isLE_later_right (first second : StepExecution) :
    (startOrder second (later first second)).isLE = true := by
  rw [later_eq]
  split
  · rename_i above
    rw [startOrder_swap, Ordering.isGT_iff_eq_gt.1 above]
    rfl
  · simp [Std.ReflCmp.compare_self]

/-- No step is above the one that is left when the later one is taken over and over. -/
theorem isLE_foldl_later (first : StepExecution) (rest : List StepExecution) :
    ∀ other ∈ first :: rest, (startOrder other (rest.foldl later first)).isLE = true := by
  induction rest generalizing first with
  | nil => simp [Std.ReflCmp.compare_self]
  | cons second rest ih =>
    intro other member
    rw [List.foldl_cons]
    have bound := ih (later first second) (later first second) (List.mem_cons_self ..)
    rcases List.mem_cons.1 member with rfl | member
    · exact Std.TransCmp.isLE_trans (isLE_later_left _ _) bound
    rcases List.mem_cons.1 member with rfl | inRest
    · exact Std.TransCmp.isLE_trans (isLE_later_right _ _) bound
    · exact ih (later first second) other (List.mem_cons_of_mem _ inRest)

/-- The last step of a name is picked from the list of them, one after the other. -/
theorem last?_cases (store : StepStore) (known : JobInstanceId) (stepName : String) :
    (store.ofName known stepName = [] ∧ store.last? known stepName = none) ∨
    ∃ first rest, store.ofName known stepName = first :: rest ∧
      store.last? known stepName = some (rest.foldl later first) := by
  unfold last?
  dsimp only
  rw [← ofName]
  cases store.ofName known stepName with
  | nil => exact .inl ⟨rfl, rfl⟩
  | cons first rest => exact .inr ⟨first, rest, rfl, rfl⟩

theorem last?_eq_none_iff :
    store.last? known stepName = none ↔ store.ofName known stepName = [] := by
  rcases store.last?_cases known stepName with ⟨vacant, last⟩ | ⟨first, rest, listed, last⟩
  · simp [vacant, last]
  · simp [listed, last]

/-- If steps of a name are told apart by their numbers, the last one is above all other ones. -/
theorem last?_eq_some_iff (apart : ∀ one ∈ store.ofName known stepName,
      ∀ other ∈ store.ofName known stepName, one.id = other.id → one = other) :
    store.last? known stepName = some step ↔ step ∈ store.ofName known stepName ∧
      ∀ other ∈ store.ofName known stepName, other ≠ step → startOrder other step = .lt := by
  constructor
  · intro last
    have member := mem_of_last? last
    refine ⟨member, fun other inside differs => ?_⟩
    rcases store.last?_cases known stepName with ⟨-, absent⟩ | ⟨first, rest, listed, greatest⟩
    · simp [absent] at last
    · obtain rfl : rest.foldl later first = step := Option.some.inj (greatest.symm.trans last)
      have bound := isLE_foldl_later first rest other (listed ▸ inside)
      rcases Ordering.isLE_iff_eq_lt_or_eq_eq.1 bound with below | same
      · exact below
      · have sameId : other.id = (rest.foldl later first).id :=
          Std.LawfulEqOrd.eq_of_compare (Ordering.then_eq_eq.1 same).2
        exact absurd (apart other inside _ member sameId) differs
  · rintro ⟨member, above⟩
    rcases store.last?_cases known stepName with ⟨vacant, -⟩ | ⟨first, rest, listed, greatest⟩
    · simp [vacant] at member
    · have bound := isLE_foldl_later first rest step (listed ▸ member)
      rw [greatest]
      by_contra differs
      have below := above _ (mem_of_last? greatest) fun same => differs (congrArg some same)
      rw [startOrder_swap, below] at bound
      contradiction

/-- Of steps that correspond to each other and come in the same order by start, the last ones
correspond as well. -/
theorem related_foldl_later {related : StepExecution → StepExecution → Prop}
    (sameOrder : ∀ {one other next another}, related one other → related next another →
      startOrder one next = startOrder other another)
    {first second : StepExecution} {rest others : List StepExecution}
    (heads : related first second) (tails : List.Forall₂ related rest others) :
    related (rest.foldl later first) (others.foldl later second) := by
  induction tails generalizing first second with
  | nil => exact heads
  | cons pair tails ih =>
    refine ih ?_
    rw [later_eq, later_eq, sameOrder heads pair]
    split
    · exact heads
    · exact pair

end StepStore

end BatchRun
