import BatchRun.Retry.Execute
import Mathlib.Algebra.Group.Nat.Defs

/-! # How often an operation is attempted

An operation that is known by the results of its attempts is attempted up to the first one that
succeeds, or as often as the policy allows. All that happens is noted as an event, so the list of
events shows that there are no other attempts, and a pause between any two of them but none at the
end.
-/

namespace BatchRun

/-- How often the policy allows an operation to be attempted. -/
def RetryPolicy.limit (policy : RetryPolicy) : Nat := max 1 policy.maxAttempts.toNat

/-- There is another attempt below the limit. -/
theorem RetryPolicy.allowsAfter_iff (policy : RetryPolicy) (attempts : UInt32) :
    policy.allowsAfter attempts = true ↔ attempts.toNat < policy.limit := by
  have highest : (max policy.maxAttempts 1).toNat = policy.limit := by
    change (if policy.maxAttempts ≤ 1 then (1 : UInt32) else policy.maxAttempts).toNat =
      max 1 policy.maxAttempts.toNat
    have compared : policy.maxAttempts ≤ 1 ↔ policy.maxAttempts.toNat ≤ 1 := UInt32.le_iff_toNat_le
    split
    · have below := compared.1 ‹_›
      change 1 = _
      omega
    · have above := mt compared.2 ‹_›
      omega
  rw [← highest]
  simp [allowsAfter, UInt32.lt_iff_toNat_lt]

private theorem RetryPolicy.limit_pos (policy : RetryPolicy) : 1 ≤ policy.limit :=
  Nat.le_max_left ..

private theorem RetryPolicy.limit_lt (policy : RetryPolicy) : policy.limit < 2 ^ 32 := by
  have bound : policy.maxAttempts.toNat < 2 ^ 32 := UInt32.toNat_lt _
  unfold limit
  omega

/-- Below the limit of a policy, numbers of attempts do not wrap around. -/
theorem RetryPolicy.toNat_next (policy : RetryPolicy) {number : UInt32} {count : Nat}
    (numbered : number.toNat = count) (below : count < policy.limit) :
    (number + 1).toNat = count + 1 := by
  have small := policy.limit_lt
  rw [UInt32.toNat_add, numbered]
  exact Nat.mod_eq_of_lt (by change count + 1 < 2 ^ 32; omega)

namespace Retry

variable {succeeds : Nat → Bool} {count limit : Nat}

/-! ## The last attempt -/

/-- The first of the numbers from 1 to the limit at which there is a success, or the limit if there
is none. -/
def firstSuccess (succeeds : Nat → Bool) (limit : Nat) : Nat :=
  ((List.range' 1 limit).find? succeeds).getD limit

/-- Where earlier numbers have failed, and this one succeeds or is the limit. -/
theorem firstSuccess_eq_succ (bound : count + 1 ≤ limit)
    (failed : ∀ earlier < count, succeeds (earlier + 1) = false)
    (decided : count + 1 = limit ∨ succeeds (count + 1) = true) :
    firstSuccess succeeds limit = count + 1 := by
  have before {number : Nat} (positive : 1 ≤ number) (below : number < count + 1) :
      succeeds number = false := by
    have known := failed (number - 1) (by omega)
    rwa [Nat.sub_add_cancel positive] at known
  unfold firstSuccess
  by_cases success : succeeds (count + 1) = true
  · have found : (List.range' 1 limit).find? succeeds = some (count + 1) := by
      refine List.find?_range'_eq_some.2 ⟨success, ?_, ?_⟩
      · rw [List.mem_range'_1]
        omega
      · intro number positive below
        simp [before positive below]
    rw [found, Option.getD_some]
  · have last : count + 1 = limit := decided.resolve_right success
    have none : (List.range' 1 limit).find? succeeds = none := by
      refine List.find?_range'_eq_none.2 fun number positive below => ?_
      rcases Nat.lt_or_ge number (count + 1) with earlier | same
      · simp [before positive earlier]
      · obtain rfl : number = count + 1 := by omega
        simp [success]
    rw [none, Option.getD_none, last]

/-- The last attempt is within the limit. -/
theorem firstSuccess_bounds (positive : 1 ≤ limit) :
    1 ≤ firstSuccess succeeds limit ∧ firstSuccess succeeds limit ≤ limit := by
  unfold firstSuccess
  cases found : (List.range' 1 limit).find? succeeds with
  | none => exact ⟨positive, Nat.le_refl _⟩
  | some number =>
    have member := List.mem_range'_1.1 (List.mem_of_find?_eq_some found)
    rw [Option.getD_some]
    omega

/-! ## Attempts and pauses as they happen -/

variable {α : Type}

/-- What happens while an operation is attempted. -/
inductive Event
  | attempt (number : UInt32)
  | pause (delay : Duration)

/-- The number of an attempt. -/
def Event.number? : Event → Option UInt32
  | attempt number => some number
  | pause _ => none

/-- An operation that is known by its results. That it is attempted is noted. -/
def noted (results : Nat → Except Failure α) (number : UInt32) :
    StateM (List Event) (Except Failure α) := do
  modify (· ++ [.attempt number])
  return results number.toNat

/-- A pause that is noted. -/
def notedPause (delay : Duration) : StateM (List Event) Unit := modify (· ++ [.pause delay])

/-- Attempts with the numbers from 1 to `count`, and the pause after each of them. -/
def pausing (policy : RetryPolicy) (count : Nat) : List Event :=
  (List.range' 1 count).flatMap fun number =>
    [.attempt (.ofNat number), .pause (policy.delayAfter (.ofNat number))]

/-- Attempts with the numbers from 1 to `last`, and a pause between any two of them. -/
def course (policy : RetryPolicy) (last : Nat) : List Event :=
  pausing policy (last - 1) ++ [.attempt (.ofNat last)]

/-- The result of all attempts, of which this is the last one. -/
def verdict (results : Nat → Except Failure α) (last : Nat) : Except RetryExhausted α :=
  match results last with
  | .ok value => .ok value
  | .error failure => .error ⟨.ofNat last, failure⟩

/-- The number of the last attempt. -/
def lastAttempt (results : Nat → Except Failure α) (policy : RetryPolicy) : Nat :=
  firstSuccess (fun number => (results number).isOk) policy.limit

variable {policy : RetryPolicy} {results : Nat → Except Failure α} {before : List Event}
  {number : UInt32}

theorem ofNat_eq (numbered : number.toNat = count) : UInt32.ofNat count = number :=
  numbered ▸ UInt32.ofNat_toNat

private theorem pausing_succ (numbered : number.toNat = count + 1) :
    pausing policy (count + 1) =
      pausing policy count ++ [.attempt number, .pause (policy.delayAfter number)] := by
  simp only [pausing, List.range'_1_concat, List.flatMap_append, List.flatMap_singleton,
    Nat.add_comm 1 count, ofNat_eq numbered]

private theorem course_succ (numbered : number.toNat = count + 1) :
    course policy (count + 1) = pausing policy count ++ [.attempt number] := by
  simp only [course, Nat.add_sub_cancel, ofNat_eq numbered]

private theorem exists_number (small : count < 2 ^ 32) : ∃ number : UInt32, number.toNat = count :=
  ⟨.ofNat count, UInt32.toNat_ofNat_of_lt' small⟩

/-- The numbers of the attempts are counted on, as long as they fit into 32 bits. -/
theorem numbers_pausing (small : count < 2 ^ 32) :
    ((pausing policy count).filterMap Event.number?).map UInt32.toNat = List.range' 1 count := by
  induction count with
  | zero => rfl
  | succ count ih =>
    obtain ⟨number, numbered⟩ := exists_number small
    rw [pausing_succ numbered, List.filterMap_append, List.map_append, ih (by omega),
      List.range'_1_concat, Nat.add_comm 1 count]
    simp [Event.number?, numbered]

private theorem numbers_course (positive : 1 ≤ count) (small : count < 2 ^ 32) :
    ((course policy count).filterMap Event.number?).map UInt32.toNat = List.range' 1 count := by
  obtain ⟨earlier, rfl⟩ : ∃ earlier, count = earlier + 1 := ⟨count - 1, by omega⟩
  obtain ⟨number, numbered⟩ := exists_number small
  rw [course_succ numbered, List.filterMap_append, List.map_append, numbers_pausing (by omega),
    List.range'_1_concat, Nat.add_comm 1 earlier]
  simp [Event.number?, numbered]

/-- An attempt ends all attempts, or is followed by a pause and the next attempt. -/
theorem run_attemptFrom_step (numbered : number.toNat = count + 1) :
    (attemptFrom notedPause policy (noted results) number).run (before ++ pausing policy count) =
      if (results (count + 1)).isOk ∨ ¬ count + 1 < policy.limit
      then (verdict results (count + 1), before ++ course policy (count + 1))
      else (attemptFrom notedPause policy (noted results) (number + 1)).run
        (before ++ pausing policy (count + 1)) := by
  have attempted : (noted results number).run (before ++ pausing policy count) =
      (results (count + 1), before ++ course policy (count + 1)) := by
    rw [course_succ numbered, ← List.append_assoc, ← numbered]
    rfl
  have paused : before ++ course policy (count + 1) ++ [.pause (policy.delayAfter number)] =
      before ++ pausing policy (count + 1) := by
    rw [course_succ numbered, pausing_succ numbered]
    simp
  rw [attemptFrom, StateT.run_bind, attempted]
  cases ended : results (count + 1) with
  | ok value =>
    rw [if_pos (.inl rfl)]
    simp only [verdict, ended]
    rfl
  | error failure =>
    by_cases allowed : policy.allowsAfter number = true
    · have below : count + 1 < policy.limit := numbered ▸ policy.allowsAfter_iff number |>.1 allowed
      rw [if_neg (by simp [Except.isOk, Except.toBool, below]), ← paused]
      simp only [allowed, dite_true]
      rfl
    · have reached : ¬ count + 1 < policy.limit :=
        numbered ▸ mt (policy.allowsAfter_iff number).2 allowed
      rw [if_pos (.inr reached)]
      simp only [allowed, verdict, ended, ofNat_eq numbered]
      rfl

/-- The attempts that are left end with the last one there is. -/
theorem run_attemptFrom (left : Nat) (numbered : number.toNat = count + 1)
    (total : count + 1 + left = policy.limit)
    (failed : ∀ earlier < count, (results (earlier + 1)).isOk = false) :
    (attemptFrom notedPause policy (noted results) number).run (before ++ pausing policy count) =
      (verdict results (lastAttempt results policy),
        before ++ course policy (lastAttempt results policy)) := by
  induction left generalizing count number with
  | zero =>
    have last : lastAttempt results policy = count + 1 :=
      firstSuccess_eq_succ (by omega) failed (.inl total)
    rw [run_attemptFrom_step numbered, if_pos (.inr (by omega)), last]
  | succ left ih =>
    rw [run_attemptFrom_step numbered]
    split
    · rename_i ended
      have success := ended.resolve_right (fun reached => reached (by omega))
      have last : lastAttempt results policy = count + 1 :=
        firstSuccess_eq_succ (by omega) failed (.inr success)
      rw [last]
    · rename_i goesOn
      apply ih (policy.toNat_next numbered (by omega)) (by omega)
      intro earlier below
      rcases Nat.lt_succ_iff_lt_or_eq.1 below with before | rfl
      · exact failed earlier before
      · simpa using (not_or.1 goesOn).1

/-- An operation is attempted with the numbers 1, 2, … up to the first one that succeeds, or up to
the limit of the policy if there is none, with the pauses of the policy in between and nothing else.
The numbers stay within 32 bits. The result is that of the last attempt. -/
theorem execute_attempts_exactly (policy : RetryPolicy) (results : Nat → Except Failure α)
    (before : List Event) :
    let last := lastAttempt results policy
    (execute notedPause policy (noted results)).run before =
        (verdict results last, before ++ course policy last) ∧
      ((course policy last).filterMap Event.number?).map UInt32.toNat = List.range' 1 last ∧
      1 ≤ last ∧ last ≤ policy.limit ∧ policy.limit < 2 ^ 32 := by
  intro last
  obtain ⟨positive, within⟩ : 1 ≤ last ∧ last ≤ policy.limit :=
    firstSuccess_bounds policy.limit_pos
  have small := policy.limit_lt
  have started : before ++ pausing policy 0 = before := by simp [pausing]
  have all : (attemptFrom notedPause policy (noted results) 1).run (before ++ pausing policy 0) =
      (verdict results last, before ++ course policy last) := by
    apply run_attemptFrom (policy.limit - 1) rfl
    · omega
    · intro earlier below
      omega
  rw [started] at all
  exact ⟨all, numbers_course positive (Nat.lt_of_le_of_lt within small), positive, within, small⟩

end Retry

end BatchRun
