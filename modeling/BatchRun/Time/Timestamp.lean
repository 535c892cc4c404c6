/-! # Moments and durations

A moment is counted in seconds from 1970 on, in universal time, with nanoseconds. During a leap
second the count of seconds stands still and the nanoseconds go on from one thousand million, so
moments are ordered by their seconds and then by their nanoseconds.
-/

namespace BatchRun

/-- A moment in universal time. -/
structure Timestamp where
  /-- Seconds since 1970-01-01T00:00:00. -/
  seconds : Int
  /-- Nanoseconds within the second, from `10^9` on in a leap second. -/
  nanos : Nat
deriving DecidableEq, Repr, Ord

namespace Timestamp

/-- Moments are compared by their seconds and then by their nanoseconds. -/
theorem compare_eq : (compare : Timestamp → Timestamp → Ordering) =
    compareLex (compareOn seconds) (compareOn nanos) := by
  funext first second
  change (compare first.seconds second.seconds).then
    ((compare first.nanos second.nanos).then .eq) = _
  rw [Ordering.then_eq]
  rfl

instance : Std.TransOrd Timestamp := by
  have lexicographic :
      Std.TransCmp (compareLex (compareOn Timestamp.seconds) (compareOn Timestamp.nanos)) :=
    inferInstance
  rw [← compare_eq] at lexicographic
  exact lexicographic

instance : Std.LawfulEqOrd Timestamp where
  compare_self := Std.ReflOrd.compare_self
  eq_of_compare := fun {first second} equal => by
    rw [compare_eq] at equal
    obtain ⟨seconds, nanos⟩ := Ordering.then_eq_eq.1 equal
    cases first; cases second
    simp_all [compareOn]

/-- The moment so many milliseconds after the beginning of 1970. -/
def ofMillis (millis : Int) : Timestamp := ⟨millis / 1000, (millis % 1000).toNat * 1000000⟩

/-- The whole milliseconds since the beginning of 1970. -/
def toMillis (moment : Timestamp) : Int := moment.seconds * 1000 + moment.nanos / 1000000

end Timestamp

/-- A length of time, less than `2^64` seconds. -/
structure Duration where
  /-- Whole seconds. -/
  seconds : UInt64
  /-- Nanoseconds beyond the whole seconds. -/
  nanos : Fin 1000000000
deriving DecidableEq, Repr

namespace Duration

/-- A number of seconds and any number of nanoseconds, if the sum is a duration. -/
def ofParts? (seconds nanos : Nat) : Option Duration :=
  let total := seconds + nanos / 1000000000
  if total < UInt64.size then some ⟨UInt64.ofNat total, Fin.ofNat _ nanos⟩ else none

def ofMillis (millis : UInt64) : Duration :=
  ⟨millis / 1000, Fin.ofNat _ (millis.toNat % 1000 * 1000000)⟩

def toMillis (duration : Duration) : Nat :=
  duration.seconds.toNat * 1000 + duration.nanos.val / 1000000

def zero : Duration := ⟨0, 0⟩

/-- A whole number and the `places` digits behind its point, without trailing zeros. -/
def decimalText (whole fraction places : Nat) : String :=
  let digits := (Nat.toDigits 10 fraction)
  let padded := List.replicate (places - digits.length) '0' ++ digits
  let kept := (padded.reverse.dropWhile (· == '0')).reverse
  toString whole ++ (if kept.isEmpty then "" else "." ++ String.ofList kept)

/-- The duration in the largest of seconds, milli-, micro- and nanoseconds that it fills. -/
def text (duration : Duration) : String :=
  let nanos := duration.nanos.val
  if 0 < duration.seconds then decimalText duration.seconds.toNat nanos 9 ++ "s"
  else if 1000000 ≤ nanos then decimalText (nanos / 1000000) (nanos % 1000000) 6 ++ "ms"
  else if 1000 ≤ nanos then decimalText (nanos / 1000) (nanos % 1000) 3 ++ "µs"
  else toString nanos ++ "ns"

end Duration

end BatchRun
