import BatchRun.ExitStatus
import Mathlib.Data.List.Basic

/-! # What exit statuses keep

Of two codes the more severe one is kept, and descriptions only grow at their end. So however
statuses are combined, the code is that of the first one of the highest severity, and each
description can still be read in the outcome. A description that has been added before is recognised
only as long as it is all that the status says.
-/

namespace BatchRun.ExitStatus

variable {status other : ExitStatus} {addition : String}

/-! ## One further description -/

/-- A description leaves the code. -/
@[simp] theorem code_describe (addition : String) :
    (status.describe addition).code = status.code := by
  unfold describe
  split
  · rfl
  · split <;> rfl

/-- Of two outcomes the more severe code is kept, and the first one if they are equally severe. -/
theorem code_and : (status.and other).code =
    if status.severity < other.severity then other.code else status.code := by
  unfold ExitStatus.and
  simp only [code_describe]
  split <;> rfl

/-- The severity depends on the code only. -/
theorem severity_congr (same : status.code = other.code) : status.severity = other.severity := by
  unfold severity
  rw [same]

/-- What a status says after one more description. -/
theorem description_describe (status : ExitStatus) (addition : String) :
    (status.describe addition).description =
      if addition = "" ∨ status.description = addition then status.description
      else if status.description = "" then addition
      else status.description ++ "; " ++ addition := by
  unfold describe
  split
  · rfl
  · split <;> rfl

private theorem length_joined (first second : String) :
    (first ++ "; " ++ second).length = first.length + 2 + second.length := by
  simp only [String.length_append]
  rfl

/-- What has been said stays in front. -/
theorem prefix_describe (status : ExitStatus) (addition : String) :
    status.description.toList <+: (status.describe addition).description.toList := by
  rw [description_describe]
  split
  · exact List.prefix_refl _
  · split
    · rename_i vacant
      rw [vacant]
      exact List.nil_prefix
    · simp only [String.toList_append, List.append_assoc]
      exact List.prefix_append ..

/-- What is added is said last. -/
theorem suffix_describe (status : ExitStatus) (addition : String) :
    addition.toList <:+ (status.describe addition).description.toList := by
  rw [description_describe]
  split
  · rename_i ignored
    rcases ignored with rfl | rfl
    · exact List.nil_suffix
    · exact List.suffix_refl _
  · split
    · exact List.suffix_refl _
    · rw [String.toList_append]
      exact List.suffix_append ..

/-- A description adds nothing if there is nothing in it, or if it is what the status says. -/
theorem describe_eq_self_iff :
    status.describe addition = status ↔ addition = "" ∨ status.description = addition := by
  constructor
  · intro kept
    by_contra added
    have said := congrArg ExitStatus.description kept
    rw [description_describe, if_neg added] at said
    split at said
    · rename_i vacant
      exact added (.inl (said.trans vacant))
    · have lengths := congrArg String.length said
      rw [length_joined] at lengths
      omega
  · exact fun ignored => if_pos ignored

/-- A description that is added is all that the status says if there was none, or no other one. -/
theorem description_describe_eq_iff (added : addition ≠ "") :
    (status.describe addition).description = addition ↔
      status.description = "" ∨ status.description = addition := by
  rw [description_describe]
  by_cases vacant : status.description = ""
  · simp [vacant]
  · by_cases same : status.description = addition
    · simp [same]
    · have longer : status.description ++ "; " ++ addition ≠ addition := by
        intro joined
        have lengths := congrArg String.length joined
        rw [length_joined] at lengths
        omega
      simp [added, vacant, same, longer]

/-- Both outcomes are told, the first one first. -/
theorem prefix_and (status other : ExitStatus) :
    status.description.toList <+: (status.and other).description.toList := by
  unfold ExitStatus.and
  split
  · exact (status.withCode other.code).prefix_describe other.description
  · exact status.prefix_describe other.description

private theorem suffix_and (status other : ExitStatus) :
    other.description.toList <:+ (status.and other).description.toList :=
  suffix_describe ..

/-! ## Combinations -/

/-- Some statuses, at least one, in the order and grouping in which they are combined. -/
inductive Combination
  | single (status : ExitStatus)
  | both (first second : Combination)

namespace Combination

/-- The statuses in their order. -/
def statuses : Combination → List ExitStatus
  | single status => [status]
  | both first second => first.statuses ++ second.statuses

/-- The outcome. -/
def combined : Combination → ExitStatus
  | single status => status
  | both first second => first.combined.and second.combined

end Combination

/-- Of these statuses, this is the first one of the highest severity. -/
def FirstMostSevere (statuses : List ExitStatus) (status : ExitStatus) : Prop :=
  ∃ before after, statuses = before ++ status :: after ∧
    (∀ other ∈ before, other.severity < status.severity) ∧
    ∀ other ∈ after, other.severity ≤ status.severity

namespace FirstMostSevere

variable {statuses left right : List ExitStatus}

theorem singleton (status : ExitStatus) : FirstMostSevere [status] status :=
  ⟨[], [], rfl, by simp, by simp⟩

private theorem severity_le (first : FirstMostSevere statuses status) (member : other ∈ statuses) :
    other.severity ≤ status.severity := by
  obtain ⟨before, after, rfl, below, above⟩ := first
  rcases List.mem_append.1 member with earlier | later
  · exact Nat.le_of_lt (below other earlier)
  · rcases List.mem_cons.1 later with rfl | later
    · exact Nat.le_refl _
    · exact above other later

private theorem mem (first : FirstMostSevere statuses status) : status ∈ statuses := by
  obtain ⟨before, after, rfl, -⟩ := first
  simp

/-- In two lists one after the other it is that of the first list, unless that of the second list is
more severe. -/
theorem append (first : FirstMostSevere left status) (second : FirstMostSevere right other) :
    FirstMostSevere (left ++ right)
      (if status.severity < other.severity then other else status) := by
  split
  · rename_i more
    obtain ⟨before, after, rfl, below, above⟩ := second
    refine ⟨left ++ before, after, by simp, fun known member => ?_, above⟩
    rcases List.mem_append.1 member with inLeft | inRight
    · exact Nat.lt_of_le_of_lt (first.severity_le inLeft) more
    · exact below known inRight
  · rename_i notMore
    obtain ⟨before, after, rfl, below, above⟩ := first
    refine ⟨before, after ++ right, by simp, below, fun known member => ?_⟩
    rcases List.mem_append.1 member with inLeft | inRight
    · exact above known inLeft
    · exact Nat.le_trans (second.severity_le inRight) (Nat.le_of_not_lt notMore)

/-- There is no other one. -/
theorem unique (first : FirstMostSevere statuses status) (second : FirstMostSevere statuses other) :
    status = other := by
  have same : status.severity = other.severity :=
    Nat.le_antisymm (second.severity_le first.mem) (first.severity_le second.mem)
  obtain ⟨before, after, rfl, below, -⟩ := first
  obtain ⟨before', after', split, below', -⟩ := second
  rcases List.append_eq_append_iff.1 split with ⟨middle, rfl, rest⟩ | ⟨middle, rfl, rest⟩
  · cases middle with
    | nil => exact (List.cons.inj rest).1
    | cons head tail =>
      obtain ⟨rfl, -⟩ := List.cons.inj rest
      exact absurd (below' status (by simp)) (by omega)
  · cases middle with
    | nil => exact (List.cons.inj rest).1.symm
    | cons head tail =>
      obtain ⟨rfl, -⟩ := List.cons.inj rest
      exact absurd (below other (by simp)) (by omega)

end FirstMostSevere

namespace Combination

/-- The outcome has the code of the first one of the most severe statuses. -/
theorem exists_firstMostSevere (tree : Combination) :
    ∃ first, FirstMostSevere tree.statuses first ∧ tree.combined.code = first.code := by
  induction tree with
  | single status => exact ⟨status, .singleton status, rfl⟩
  | both left right ihLeft ihRight =>
    obtain ⟨first, firstOf, code⟩ := ihLeft
    obtain ⟨second, secondOf, code'⟩ := ihRight
    refine ⟨_, firstOf.append secondOf, ?_⟩
    rw [combined, code_and, severity_congr code, severity_congr code', code, code']
    split <;> rfl

/-- The outcome says what each of the statuses says. -/
theorem description_infix (tree : Combination) (member : status ∈ tree.statuses) :
    status.description.toList <:+: tree.combined.description.toList := by
  induction tree with
  | single known =>
    rw [List.mem_singleton.1 member]
    exact List.infix_refl _
  | both left right ihLeft ihRight =>
    rcases List.mem_append.1 member with inLeft | inRight
    · exact (ihLeft inLeft).trans (prefix_and ..).isInfix
    · exact (ihRight inRight).trans (suffix_and ..).isInfix

/-- However some statuses are grouped, the outcome has the code and the severity of the first one of
the highest severity, which does not depend on the grouping, and says what each of them says. -/
theorem combined_loses_nothing (tree : Combination) :
    (∃ first, FirstMostSevere tree.statuses first ∧ tree.combined.code = first.code ∧
      tree.combined.severity = first.severity) ∧
    (∀ status ∈ tree.statuses, status.severity ≤ tree.combined.severity ∧
      status.description.toList <:+: tree.combined.description.toList) ∧
    ∀ other : Combination, other.statuses = tree.statuses →
      other.combined.code = tree.combined.code ∧
        other.combined.severity = tree.combined.severity := by
  obtain ⟨first, firstOf, code⟩ := tree.exists_firstMostSevere
  have severity := severity_congr code
  refine ⟨⟨first, firstOf, code, severity⟩, fun status member => ⟨?_, ?_⟩, fun other same => ?_⟩
  · rw [severity]
    exact firstOf.severity_le member
  · exact tree.description_infix member
  · obtain ⟨first', firstOf', code'⟩ := other.exists_firstMostSevere
    obtain rfl := (same ▸ firstOf').unique firstOf
    have alike := code'.trans code.symm
    exact ⟨alike, severity_congr alike⟩

end Combination

/-- What the outcome says does depend on the grouping. -/
example :
    let said (text : String) := Combination.single ⟨"FAILED", text⟩
    (Combination.both (.both (said "a") (said "b")) (said "a; b")).combined.description = "a; b" ∧
      (Combination.both (said "a") (.both (said "b") (said "a; b"))).combined.description =
        "a; b; a; b" := by
  decide

/-! ## Descriptions that are added again -/

/-- The status with further descriptions, one after the other. -/
def describeAll (status : ExitStatus) (additions : List String) : ExitStatus :=
  additions.foldl describe status

variable {additions earlier between : List String}

private theorem describeAll_cons (status : ExitStatus) (addition : String)
    (additions : List String) :
    status.describeAll (addition :: additions) = (status.describe addition).describeAll additions :=
  rfl

private theorem describeAll_append (status : ExitStatus) (earlier additions : List String) :
    status.describeAll (earlier ++ additions) =
      (status.describeAll earlier).describeAll additions :=
  List.foldl_append

private theorem code_describeAll : (status.describeAll additions).code = status.code := by
  induction additions generalizing status with
  | nil => rfl
  | cons addition rest ih => rw [describeAll_cons, ih, code_describe]

private theorem prefix_describeAll (status : ExitStatus) (additions : List String) :
    status.description.toList <+: (status.describeAll additions).description.toList := by
  induction additions generalizing status with
  | nil => exact List.prefix_refl _
  | cons addition rest ih => exact (status.prefix_describe addition).trans (ih _)

/-- Two statuses of one code are the same if each of them says at its beginning what the other one
says. -/
theorem eq_of_prefix (code : status.code = other.code)
    (first : status.description.toList <+: other.description.toList)
    (second : other.description.toList <+: status.description.toList) : status = other := by
  have same := first.eq_of_length_le second.length_le
  cases status
  cases other
  simp_all [String.toList_inj]

/-- Some descriptions add nothing if there is nothing in them, or what the status says. -/
theorem describeAll_eq_self_iff :
    status.describeAll additions = status ↔
      ∀ addition ∈ additions, addition = "" ∨ addition = status.description := by
  induction additions with
  | nil => simp [describeAll]
  | cons addition rest ih =>
    rw [describeAll_cons, List.forall_mem_cons, ← ih, eq_comm (a := addition)
      (b := status.description), ← describe_eq_self_iff]
    constructor
    · intro kept
      -- what is said never shrinks, so it has not grown by the first description
      have later := (status.describe addition).prefix_describeAll rest
      rw [kept] at later
      have first := eq_of_prefix (code_describe addition) later (status.prefix_describe addition)
      rw [first] at kept
      exact ⟨first, kept⟩
    · rintro ⟨first, others⟩
      rw [first, others]

/-- A description that has been added is all that the status says if there was nothing else before,
and if nothing else has been added since. -/
theorem description_eq_iff (added : addition ≠ "") :
    ((status.describe addition).describeAll between).description = addition ↔
      (status.description = "" ∨ status.description = addition) ∧
        ∀ other ∈ between, other = "" ∨ other = addition := by
  constructor
  · intro all
    have later := (status.describe addition).prefix_describeAll between
    rw [all] at later
    have said : (status.describe addition).description = addition :=
      String.toList_inj.1
        ((status.suffix_describe addition).eq_of_length_le later.length_le).symm
    have kept : (status.describe addition).describeAll between = status.describe addition :=
      eq_of_prefix code_describeAll (all.trans said.symm ▸ List.prefix_refl _)
        (prefix_describeAll ..)
    have others := describeAll_eq_self_iff.1 kept
    rw [said] at others
    exact ⟨(description_describe_eq_iff added).1 said, others⟩
  · rintro ⟨before, others⟩
    have said := (description_describe_eq_iff added).2 before
    have kept : (status.describe addition).describeAll between = status.describe addition :=
      describeAll_eq_self_iff.2 (said.symm ▸ others)
    rw [kept, said]

/-- After any descriptions, one without text adds nothing. One that was added earlier adds nothing
exactly if it has stayed all that the status says: nothing else was said when it was added, and
nothing else has been added since. Otherwise it is said once more at the end. -/
theorem repeated_description_ignored_iff (status : ExitStatus) (earlier between : List String)
    (addition : String) :
    let current := status.describeAll (earlier ++ addition :: between)
    current.describe "" = current ∧
      (current.describe addition = current ↔ addition = "" ∨
        ((status.describeAll earlier).description = "" ∨
          (status.describeAll earlier).description = addition) ∧
        ∀ other ∈ between, other = "" ∨ other = addition) ∧
      (current.describe addition ≠ current → current.describe addition =
        { current with description := current.description ++ "; " ++ addition }) := by
  intro current
  have since : current =
      ((status.describeAll earlier).describe addition).describeAll between := by
    change status.describeAll (earlier ++ addition :: between) = _
    rw [describeAll_append, describeAll_cons]
  refine ⟨describe_eq_self_iff.2 (.inl rfl), ?_, fun changed => ?_⟩
  · rw [describe_eq_self_iff]
    by_cases vacant : addition = ""
    · simp [vacant]
    · rw [since, description_eq_iff vacant]
  · have added := mt describe_eq_self_iff.2 changed
    have spoken : current.description ≠ "" := by
      intro silent
      have within := ((status.describeAll earlier).suffix_describe addition).isInfix.trans
        (prefix_describeAll _ between).isInfix
      rw [← since, silent] at within
      exact added (.inl (String.toList_eq_nil_iff.1 (List.infix_nil.1 within)))
    unfold describe
    rw [if_neg added, if_neg spoken]

/-- The first description is said again after the second one. -/
example : ExitStatus.failed.describeAll ["first", "second", "first"] =
    ⟨"FAILED", "first; second; first"⟩ := by
  decide

end BatchRun.ExitStatus
