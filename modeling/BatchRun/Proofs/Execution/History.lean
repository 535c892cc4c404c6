import BatchRun.Execution.Job
import Mathlib.Data.List.Induction
import Mathlib.Data.List.Nodup

/-! # The step history of an execution

Steps are added to an execution one after the other. A step opens a place at the end of the history
if it has no number or one that no step before it had, and otherwise takes over the place of its
number. So the history lists the steps that opened a place, in the order in which they were added,
each of them as it was added last.
-/

namespace BatchRun.JobExecution

variable {execution : JobExecution} {steps added former later rest : List StepExecution}
  {step first other : StepExecution} {id : StepExecutionId}

/-- Adds steps one after the other. -/
def addSteps (execution : JobExecution) (added : List StepExecution) : JobExecution :=
  added.foldl addStep execution

/-- The numbers of the saved ones of some steps. -/
def numbers (steps : List StepExecution) : List StepExecutionId :=
  steps.filterMap StepExecution.id

/-- A step that is added after these has no number, or one that none of them has. -/
def Opens (former : List StepExecution) (step : StepExecution) : Prop :=
  ∀ id ∈ step.id, id ∉ numbers former

instance (former : List StepExecution) (step : StepExecution) : Decidable (Opens former step) :=
  inferInstanceAs (Decidable (∀ id ∈ step.id, id ∉ numbers former))

/-- The steps that open a place when they are added after others. -/
def openingsAfter (former : List StepExecution) : List StepExecution → List StepExecution
  | [] => []
  | step :: rest =>
    if Opens former step then step :: openingsAfter (former ++ [step]) rest
    else openingsAfter (former ++ [step]) rest

/-- The steps that open a place. -/
def openings (added : List StepExecution) : List StepExecution := openingsAfter [] added

/-- The last one of some steps that has the number of this one. A step without a number stands for
itself. -/
def latest (added : List StepExecution) (step : StepExecution) : StepExecution :=
  match step.id with
  | none => step
  | some id => (added.reverse.find? fun other => other.id = some id).getD step

/-! ## Numbers, places and latest copies -/

private theorem mem_numbers : id ∈ numbers steps ↔ ∃ step ∈ steps, step.id = some id :=
  List.mem_filterMap

private theorem numbers_append (former later : List StepExecution) :
    numbers (former ++ later) = numbers former ++ numbers later :=
  List.filterMap_append

private theorem opens_of_id_eq_none (unsaved : step.id = none) : Opens former step := by
  simp [Opens, unsaved]

private theorem opens_iff (saved : step.id = some id) :
    Opens former step ↔ id ∉ numbers former := by
  simp [Opens, saved]

/-- Whether a place is opened depends on the numbers that there are. -/
theorem opens_congr (same : ∀ id, id ∈ numbers former ↔ id ∈ numbers later) :
    Opens former step ↔ Opens later step :=
  forall₂_congr fun id _ => not_congr (same id)

private theorem openingsAfter_append (former added later : List StepExecution) :
    openingsAfter former (added ++ later) =
      openingsAfter former added ++ openingsAfter (former ++ added) later := by
  induction added generalizing former with
  | nil => simp [openingsAfter]
  | cons first rest ih =>
    simp only [List.cons_append, openingsAfter, ih, List.append_assoc, List.nil_append]
    split <;> rfl

private theorem openings_concat (added : List StepExecution) (step : StepExecution) :
    openings (added ++ [step]) =
      if Opens added step then openings added ++ [step] else openings added := by
  rw [openings, openingsAfter_append]
  simp only [openingsAfter, List.nil_append]
  split
  · rfl
  · exact List.append_nil _

private theorem openings_sublist (added : List StepExecution) : (openings added).Sublist added := by
  induction added using List.reverseRecOn with
  | nil => exact List.Sublist.slnil
  | append_singleton added step ih =>
    rw [openings_concat]
    split
    · exact ih.append_right [step]
    · exact ih.trans (List.sublist_append_left added [step])

/-- The step that opens a place stands behind those that have opened one before. -/
theorem exists_openings_eq (opens : Opens former first) (later : List StepExecution) :
    ∃ rest, openings (former ++ first :: later) = openings former ++ first :: rest := by
  rw [openings, openingsAfter_append]
  simp only [openingsAfter, List.nil_append, if_pos opens]
  exact ⟨_, rfl⟩

/-- Every number that is added has its place. -/
theorem mem_numbers_openings : id ∈ numbers (openings added) ↔ id ∈ numbers added := by
  induction added using List.reverseRecOn with
  | nil => rfl
  | append_singleton added step ih =>
    rw [openings_concat, numbers_append, List.mem_append, ← ih]
    by_cases opens : Opens added step
    · rw [if_pos opens, numbers_append, List.mem_append]
    · rw [if_neg opens]
      refine ⟨.inl, fun there => there.elim (fun before => before) fun own => ?_⟩
      have saved : step.id = some id := by simpa [mem_numbers] using own
      rw [opens_iff saved, not_not] at opens
      exact ih.2 opens

private theorem nodup_numbers_openings (added : List StepExecution) :
    (numbers (openings added)).Nodup := by
  induction added using List.reverseRecOn with
  | nil => exact List.nodup_nil
  | append_singleton added step ih =>
    rw [openings_concat]
    split
    · rename_i opens
      rw [numbers_append, List.nodup_append]
      refine ⟨ih, ?_, ?_⟩
      · cases saved : step.id <;> simp [numbers, saved]
      · rintro id before _ own rfl
        have saved : step.id = some id := by simpa [mem_numbers] using own
        exact (opens_iff saved).1 opens (mem_numbers_openings.1 before)
    · exact ih

private theorem latest_of_id_eq_none (unsaved : first.id = none) : latest added first = first := by
  simp [latest, unsaved]

private theorem latest_concat (saved : first.id = some id) :
    latest (added ++ [step]) first = if step.id = some id then step else latest added first := by
  simp only [latest, saved, List.reverse_append, List.reverse_singleton, List.singleton_append,
    List.find?_cons]
  by_cases own : step.id = some id <;> simp [own]

/-- The latest copy of a step has its number. -/
@[simp] theorem id_latest (added : List StepExecution) (first : StepExecution) :
    (latest added first).id = first.id := by
  cases saved : first.id with
  | none => rw [latest_of_id_eq_none saved, saved]
  | some id =>
    simp only [latest, saved]
    cases found : added.reverse.find? fun other => other.id = some id with
    | none => exact saved
    | some other => simpa using List.find?_some found

/-- A step is the last one with its number if that does not come up again. -/
theorem latest_eq_of_split (saved : first.id = some id) (own : step.id = some id)
    (since : id ∉ numbers later) : latest (former ++ step :: later) first = step := by
  have missing : later.reverse.find? (fun other => other.id = some id) = none := by
    refine List.find?_eq_none.2 fun other member => ?_
    have apart : other.id ≠ some id := fun same =>
      since (mem_numbers.2 ⟨other, List.mem_reverse.1 member, same⟩)
    simpa using apart
  simp [latest, saved, own, missing]

private theorem numbers_map_latest (steps : List StepExecution) :
    numbers (steps.map (latest added)) = numbers steps := by
  simp only [numbers, List.filterMap_map, Function.comp_def, id_latest]

/-! ## One addition -/

private theorem replaceStep_eq_none (absent : id ∉ numbers steps) :
    replaceStep id step steps = none := by
  induction steps with
  | nil => rfl
  | cons first rest ih =>
    have other : first.id ≠ some id := fun own => absent (mem_numbers.2 ⟨first, by simp, own⟩)
    have others : id ∉ numbers rest := fun own => by
      obtain ⟨step, member, saved⟩ := mem_numbers.1 own
      exact absent (mem_numbers.2 ⟨step, List.mem_cons_of_mem _ member, saved⟩)
    rw [replaceStep, if_neg other, ih others, Option.map_none]

/-- Where no number occurs twice, it does not matter that only the first one is replaced. -/
theorem replaceStep_eq_some (distinct : (numbers steps).Nodup) (present : id ∈ numbers steps) :
    replaceStep id step steps =
      some (steps.map fun old => if old.id = some id then step else old) := by
  induction steps with
  | nil => simp [numbers] at present
  | cons first rest ih =>
    by_cases own : first.id = some id
    · have others : ∀ old ∈ rest, old.id ≠ some id := by
        intro old member saved
        rw [numbers, List.filterMap_cons_some own] at distinct
        exact (List.nodup_cons.1 distinct).1 (mem_numbers.2 ⟨old, member, saved⟩)
      rw [replaceStep, if_pos own, List.map_cons, if_pos own,
        List.map_congr_left fun old member => if_neg (others old member), List.map_id']
    · have further : id ∈ numbers rest := by
        obtain ⟨old, member, saved⟩ := mem_numbers.1 present
        rcases List.mem_cons.1 member with rfl | later
        · exact absurd saved own
        · exact mem_numbers.2 ⟨old, later, saved⟩
      have apart : (numbers rest).Nodup :=
        distinct.sublist ((List.sublist_cons_self first rest).filterMap _)
      rw [replaceStep, if_neg own, ih apart further, List.map_cons, if_neg own, Option.map_some]

private theorem steps_addStep_of_opens (opens : Opens execution.steps step) :
    (execution.addStep step).steps = execution.steps ++ [step] := by
  have missing : (step.id.bind fun id => replaceStep id step execution.steps) = none := by
    cases saved : step.id with
    | none => rfl
    | some id => exact replaceStep_eq_none ((opens_iff saved).1 opens)
  simp only [addStep, missing, Option.getD_none]

private theorem steps_addStep_of_present (saved : step.id = some id)
    (distinct : (numbers execution.steps).Nodup) (present : id ∈ numbers execution.steps) :
    (execution.addStep step).steps =
      execution.steps.map fun old => if old.id = some id then step else old := by
  simp only [addStep, saved, Option.bind_some, replaceStep_eq_some distinct present,
    Option.getD_some]

/-! ## Many additions -/

private theorem addSteps_concat (execution : JobExecution) (added : List StepExecution)
    (step : StepExecution) :
    execution.addSteps (added ++ [step]) = (execution.addSteps added).addStep step := by
  simp [addSteps]

/-- The history lists the steps that opened a place, each as it was added last. -/
theorem steps_addSteps (empty : execution.steps = []) (added : List StepExecution) :
    (execution.addSteps added).steps = (openings added).map (latest added) := by
  induction added using List.reverseRecOn with
  | nil => exact empty
  | append_singleton added step ih =>
    have listed : numbers (execution.addSteps added).steps = numbers (openings added) := by
      rw [ih, numbers_map_latest]
    have alike : Opens (execution.addSteps added).steps step ↔ Opens added step :=
      opens_congr fun id => by rw [listed, mem_numbers_openings]
    rw [addSteps_concat, openings_concat]
    by_cases opens : Opens added step
    · -- no earlier place is the place of the new step
      have kept : ∀ first ∈ openings added,
          latest (added ++ [step]) first = latest added first := by
        intro first member
        cases saved : first.id with
        | none => rw [latest_of_id_eq_none saved, latest_of_id_eq_none saved]
        | some id =>
          refine (latest_concat saved).trans (if_neg fun own => (opens_iff own).1 opens ?_)
          exact mem_numbers_openings.1 (mem_numbers.2 ⟨first, member, saved⟩)
      have itself : latest (added ++ [step]) step = step := by
        cases saved : step.id with
        | none => exact latest_of_id_eq_none saved
        | some id => rw [latest_concat saved, if_pos saved]
      rw [steps_addStep_of_opens (alike.2 opens), if_pos opens, ih, List.map_append,
        List.map_congr_left kept, List.map_singleton, itself]
    · -- the step has a number, and its place is there
      obtain ⟨id, saved, present⟩ : ∃ id, step.id = some id ∧ id ∈ numbers added := by
        simpa [Opens] using opens
      have distinct := nodup_numbers_openings added
      rw [← mem_numbers_openings] at present
      rw [← listed] at distinct present
      rw [steps_addStep_of_present saved distinct present, if_neg opens, ih, List.map_map]
      refine List.map_congr_left fun first _ => ?_
      simp only [Function.comp_apply, id_latest]
      cases number : first.id with
      | none => simp [latest_of_id_eq_none number]
      | some other =>
        rw [latest_concat number, saved]
        by_cases own : other = id
        · rw [if_pos (congrArg some own), if_pos (congrArg some own.symm)]
        · rw [if_neg (by simpa using own), if_neg (by simpa [eq_comm] using own)]

/-- A step that opens a place has it for good. -/
theorem getElem?_steps_addSteps (empty : execution.steps = []) (opens : Opens former first) :
    let place := (execution.addSteps former).steps.length
    (execution.addSteps (former ++ first :: later)).steps[place]? =
      some (latest (former ++ first :: later) first) := by
  intro place
  obtain ⟨rest, listed⟩ := exists_openings_eq opens later
  unfold place
  rw [steps_addSteps empty, steps_addSteps empty, listed, List.map_append, List.map_cons,
    List.length_map, List.getElem?_append_right (by simp)]
  simp

/-- The steps without a number are kept as they come. -/
theorem filter_unsaved_openings (added : List StepExecution) :
    (openings added).filter (fun step => step.id = none) =
      added.filter fun step => step.id = none := by
  induction added using List.reverseRecOn with
  | nil => rfl
  | append_singleton added step ih =>
    rw [openings_concat, List.filter_append, ← ih]
    split
    · rw [List.filter_append]
    · rename_i taken
      have saved : step.id ≠ none := mt opens_of_id_eq_none taken
      simp [saved]

private theorem filter_unsaved_map_latest (steps : List StepExecution) :
    (steps.map (latest added)).filter (fun step => step.id = none) =
      steps.filter fun step => step.id = none := by
  rw [List.filter_map]
  simp only [Function.comp_def, id_latest]
  refine (List.map_congr_left fun step member => ?_).trans (List.map_id' _)
  exact latest_of_id_eq_none (by simpa using (List.mem_filter.1 member).2)

/-- However steps are added to an execution that has none, no two steps of its history have the same
number. Every number that was added is there, at the place where the history ended when it was added
first, and with the step that was added last under it. Steps without a number are all kept, each at
the place where the history ended when it was added. There are no other places, and they are in the
order in which they were opened. -/
theorem history_of_additions (execution : JobExecution) (empty : execution.steps = [])
    (added : List StepExecution) :
    let history := (execution.addSteps added).steps
    (numbers history).Nodup ∧
    (∀ id, id ∈ numbers history ↔ id ∈ numbers added) ∧
    (∀ former first later id, added = former ++ first :: later → first.id = some id →
      id ∉ numbers former → ∀ before last since, added = before ++ last :: since →
        last.id = some id → id ∉ numbers since →
          history[(execution.addSteps former).steps.length]? = some last) ∧
    (∀ former step later, added = former ++ step :: later → step.id = none →
      history[(execution.addSteps former).steps.length]? = some step) ∧
    history.filter (fun step => step.id = none) = added.filter (fun step => step.id = none) ∧
    history.map StepExecution.id = (openings added).map StepExecution.id ∧
    (openings added).Sublist added := by
  intro history
  have listed : history = (openings added).map (latest added) := steps_addSteps empty added
  refine ⟨?distinct, fun id => ?present, ?saved, ?unsaved, ?kept, ?order, openings_sublist added⟩
  case distinct =>
    rw [listed, numbers_map_latest]
    exact nodup_numbers_openings added
  case present => rw [listed, numbers_map_latest, mem_numbers_openings]
  case saved =>
    rintro former first later id rfl saved new before last since split own once
    refine (getElem?_steps_addSteps empty ((opens_iff saved).2 new)).trans ?_
    rw [split, latest_eq_of_split saved own once]
  case unsaved =>
    rintro former step later rfl unsaved
    refine (getElem?_steps_addSteps empty (opens_of_id_eq_none unsaved)).trans ?_
    rw [latest_of_id_eq_none unsaved]
  case kept => rw [listed, filter_unsaved_map_latest, filter_unsaved_openings]
  case order =>
    rw [listed, List.map_map]
    exact List.map_congr_left fun step _ => id_latest added step

/-- A step as it is saved under a number, when it has read so many items. -/
def loading (id : Option StepExecutionId) (read : UInt64) : StepExecution :=
  { StepExecution.start ⟨0, 0⟩ "load" ⟨1⟩ ⟨1⟩ with id, counts := { read } }

/-- An execution without steps. -/
def unstarted : JobExecution := .create ⟨0, 0⟩ ⟨⟨1⟩, "import", .empty⟩ .empty

/-- A step that is added again stays in front of those that were added in between. -/
theorem history_of_additions_again :
    let additions := [loading (some ⟨7⟩) 0, loading none 1, loading (some ⟨5⟩) 2,
      loading (some ⟨7⟩) 3]
    unstarted.steps = [] ∧
      (unstarted.addSteps additions).steps.map StepExecution.id = [some ⟨7⟩, none, some ⟨5⟩] ∧
      (unstarted.addSteps additions).steps[0]? = some (loading (some ⟨7⟩) 3) ∧
      (unstarted.addSteps additions).steps[1]? = some (loading none 1) := by
  intro additions
  obtain ⟨-, -, saved, unsaved, -, order, -⟩ := history_of_additions unstarted rfl additions
  refine ⟨rfl, order.trans (by decide), ?_, ?_⟩
  · exact saved [] _ _ ⟨7⟩ rfl rfl (by decide) (additions.take 3) _ [] rfl rfl (by decide)
  · exact unsaved [loading (some ⟨7⟩) 0] _ _ rfl rfl

end BatchRun.JobExecution
