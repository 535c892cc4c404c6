import BatchRun.Number.DoubleText
import BatchRun.Retry.Delay
import BatchRun.Time.Timestamp

/-! # Retry policies

A retry policy says how often an operation is attempted and how long to wait in between. There is
always at least one attempt.
-/

namespace BatchRun

/-- How often to try, and how long to wait after a failed attempt. -/
structure RetryPolicy where
  /-- The number of attempts, the first one included; 0 counts as 1. -/
  maxAttempts : UInt32
  baseDelay : Duration
  maxDelay : Duration
  strategy : BackoffStrategy
  /-- The share of a delay by which it may be shifted. -/
  jitter : Float
deriving DecidableEq

namespace RetryPolicy

/-- The share by which delays are shifted unless something else is asked for. -/
def usualJitter : Float := Number.nearest 1 10

/-- Three attempts, half a second to begin with, doubled up to a minute. -/
def usual : RetryPolicy where
  maxAttempts := 3
  baseDelay := .ofMillis 500
  maxDelay := .ofMillis 60000
  strategy := .exponential
  jitter := usualJitter

instance : Inhabited RetryPolicy := ⟨usual⟩

def once : RetryPolicy := { usual with maxAttempts := 1 }

def fixed (maxAttempts : UInt32) (delay : Duration) : RetryPolicy where
  maxAttempts
  baseDelay := delay
  maxDelay := delay
  strategy := .fixed
  jitter := Number.nearest 0 1

def exponential (maxAttempts : UInt32) (baseDelay maxDelay : Duration) : RetryPolicy where
  maxAttempts
  baseDelay
  maxDelay
  strategy := .exponential
  jitter := usualJitter

/-- The policy with another jitter, brought into the range from 0 to 1. What is no number stays. -/
def withJitter (policy : RetryPolicy) (jitter : Float) : RetryPolicy :=
  let zero := Number.nearest 0 1
  let one := Number.nearest 1 1
  { policy with jitter := if jitter < zero then zero else if one < jitter then one else jitter }

/-- The delay after an attempt, counted from 1, computed in some arithmetic with this jitter. -/
def delayIn {α : Type} [DelayArithmetic α] (policy : RetryPolicy) (jitter : α)
    (attempt : UInt32) : Duration :=
  .ofMillis (Delay.millis policy.strategy policy.baseDelay.toMillis policy.maxDelay.toMillis
    jitter attempt.toNat)

/-- The delay after an attempt, computed with doubles and with the policy's own jitter. -/
def delayAfter (policy : RetryPolicy) (attempt : UInt32) : Duration :=
  policy.delayIn policy.jitter attempt

/-- Whether there is another attempt after so many. -/
def allowsAfter (policy : RetryPolicy) (attempts : UInt32) : Bool :=
  attempts < max policy.maxAttempts 1

end RetryPolicy

end BatchRun
