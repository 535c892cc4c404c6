import BatchRun.Failure
import BatchRun.Retry.Policy

/-! # Repeated attempts

An operation is attempted until it succeeds or the policy allows no further attempt. Attempts are
numbered from 1, and only between two attempts there is a pause.
-/

namespace BatchRun

structure RetryExhausted where
  attempts : UInt32
  lastFailure : Failure
deriving DecidableEq, Repr

/-- The exhaustion in words, with the last failure and all its causes. -/
def RetryExhausted.message (exhausted : RetryExhausted) : String :=
  "retry exhausted after " ++ toString exhausted.attempts ++ " attempt(s): " ++
    exhausted.lastFailure.chain

namespace Retry

variable {m : Type → Type} [Monad m] {α : Type}

theorem attempts_left {policy : RetryPolicy} {attempt : UInt32}
    (allowed : policy.allowsAfter attempt) :
    (max policy.maxAttempts 1).toNat - (attempt + 1).toNat <
      (max policy.maxAttempts 1).toNat - attempt.toNat := by
  have below : attempt < max policy.maxAttempts 1 := by
    simpa [RetryPolicy.allowsAfter] using allowed
  have bound : (max policy.maxAttempts 1).toNat < 2 ^ 32 := UInt32.toNat_lt _
  have below : attempt.toNat < (max policy.maxAttempts 1).toNat := below
  have next : (attempt + 1).toNat = attempt.toNat + 1 := by
    rw [UInt32.toNat_add, Nat.mod_eq_of_lt]
    · rfl
    · change attempt.toNat + 1 < 2 ^ 32; omega
  omega

/-- Goes on with the attempt of this number. -/
def attemptFrom (pause : Duration → m Unit) (policy : RetryPolicy)
    (operation : UInt32 → m (Except Failure α)) (attempt : UInt32) :
    m (Except RetryExhausted α) := do
  match ← operation attempt with
  | .ok value => return .ok value
  | .error failure =>
    if _allowed : policy.allowsAfter attempt then
      pause (policy.delayAfter attempt)
      attemptFrom pause policy operation (attempt + 1)
    else return .error ⟨attempt, failure⟩
termination_by (max policy.maxAttempts 1).toNat - attempt.toNat
decreasing_by exact attempts_left _allowed

/-- Attempts an operation under a policy. -/
def execute (pause : Duration → m Unit) (policy : RetryPolicy)
    (operation : UInt32 → m (Except Failure α)) : m (Except RetryExhausted α) :=
  attemptFrom pause policy operation 1

end Retry

end BatchRun
