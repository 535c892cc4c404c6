import BatchRun.Number.Binary64

/-! # Delays between attempts

The delay after an attempt grows with the number of the attempt, up to a limit, and is then
shifted up or down by a share of itself that depends on the number of the attempt only. The rules
are stated for any arithmetic: programs use doubles, and exact numbers show what the rules mean.
-/

namespace BatchRun

/-- How the delay grows from one attempt to the next. -/
inductive BackoffStrategy
  | fixed
  | exponential
  | linear
deriving DecidableEq, Repr

namespace BackoffStrategy

def name : BackoffStrategy → String
  | fixed => "fixed"
  | exponential => "exponential"
  | linear => "linear"

def ofName? : String → Option BackoffStrategy
  | "fixed" => some fixed
  | "exponential" => some exponential
  | "linear" => some linear
  | _ => none

theorem ofName?_name (strategy : BackoffStrategy) : ofName? strategy.name = some strategy := by
  cases strategy <;> rfl

end BackoffStrategy

/-- An arithmetic that delays can be computed in. -/
class DelayArithmetic (α : Type) extends Add α, Sub α, Mul α, Div α, LT α where
  ofNat : Nat → α
  decidableLT : DecidableLT α
  /-- The whole part of a number, at least 0 and at most `2^64 - 1`. -/
  truncate : α → UInt64

instance instDecidableLTOfDelayArithmetic {α : Type} [DelayArithmetic α] : DecidableLT α :=
  DelayArithmetic.decidableLT

instance : DelayArithmetic Float where
  ofNat number := Number.nearest number 1
  decidableLT := inferInstance
  truncate := Float.toUInt64

instance : DelayArithmetic Rat where
  ofNat number := number
  decidableLT := inferInstance
  truncate number := UInt64.ofNat (min number.floor.toNat (UInt64.size - 1))

namespace Delay

variable {α : Type} [DelayArithmetic α]

open DelayArithmetic (ofNat truncate)

def smaller (first second : α) : α := if second < first then second else first

/-- The number, or zero if it is not above zero. -/
def atLeastZero (number : α) : α := if ofNat 0 < number then number else ofNat 0

/-- The delay before it is shifted, in milliseconds. The limit does not apply to fixed delays. -/
def nominal (strategy : BackoffStrategy) (base limit attempt : Nat) : α :=
  match strategy with
  | .fixed => ofNat base
  | .exponential => smaller (ofNat base * ofNat (Nat.pow 2 (min (attempt - 1) 62))) (ofNat limit)
  | .linear => smaller (ofNat base * ofNat attempt) (ofNat limit)

/-- How far a delay is shifted: by a share of at most `jitter`, up or down. -/
def shift (jitter delay : α) (attempt : Nat) : α :=
  let range := delay * jitter
  if ofNat 0 < range then
    range * (ofNat (17 * attempt % 100) / ofNat 100 - ofNat 1 / ofNat 2) * ofNat 2
  else ofNat 0

/-- The delay after an attempt, in whole milliseconds. -/
def millis (strategy : BackoffStrategy) (base limit : Nat) (jitter : α) (attempt : Nat) :
    UInt64 :=
  if attempt = 0 then 0
  else
    let delay := nominal strategy base limit attempt
    truncate (atLeastZero (delay + shift jitter delay attempt))

end Delay

end BatchRun
