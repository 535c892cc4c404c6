import BatchRun.Proofs.Text.Numeral
import BatchRun.Proofs.Time.Calendar
import BatchRun.Time.Rfc3339
import Mathlib.Algebra.Group.Nat.Defs

/-! # The compact text of a moment reads back as the moment

Every part of the text is a number of digits that the reader takes as a whole: it either has as many
digits as may be taken, or something that is no digit follows. The parts give the date and the time
of day again. In a leap second the text shows second 60, which the reader counts as one second more
of nanoseconds.
-/

namespace BatchRun.Timestamp

open Text Time

variable {digits rest : List Char} {most number length : Nat} {moment : Timestamp} {c : Char}

/-! ## Digits -/

private theorem foldl_digit? (isDigits : ∀ c ∈ digits, c.isDigit = true) (value : Nat) :
    (digits.filterMap digit?).foldl (fun value digit => 10 * value + digit) value =
      Nat.ofDigitChars 10 digits value := by
  induction digits generalizing value with
  | nil => rfl
  | cons first others ih =>
    obtain ⟨digit, others⟩ := List.forall_mem_cons.1 isDigits
    rw [List.filterMap_cons_some (digit?_of_isDigit digit), List.foldl_cons, ih others,
      Nat.ofDigitChars_cons]

/-- Digits are taken as a whole if no more may be taken or none follows. -/
theorem number?_append (rest : List Char) (isDigits : ∀ c ∈ digits, c.isDigit = true)
    (nonempty : digits ≠ []) (fits : digits.length ≤ most)
    (ends : digits.length = most ∨ ∀ c ∈ rest.head?, c.isDigit = false) :
    number? most (digits ++ rest) = some (Nat.ofDigitChars 10 digits 0, rest) := by
  have taken : ((digits ++ rest).take most).takeWhile Char.isDigit = digits := by
    rw [List.take_append, List.take_of_length_le fits, List.takeWhile_append_of_pos isDigits]
    rcases ends with full | ends
    · simp [full]
    · cases rest with
      | nil => simp
      | cons next rest =>
        have stops : next.isDigit = false := ends next rfl
        cases most - digits.length <;> simp [stops]
  unfold number?
  simp only [taken]
  rw [if_neg (by simpa using nonempty), foldl_digit? isDigits, List.drop_left]

/-! ## Numbers with leading zeros -/

private theorem toList_padded (length number : Nat) : (padded length number).toList =
    List.replicate (length - (Nat.toDigits 10 number).length) '0' ++ Nat.toDigits 10 number :=
  String.toList_ofList

private theorem isDigit_of_mem_padded (member : c ∈ (padded length number).toList) :
    c.isDigit = true := by
  rw [toList_padded] at member
  rcases List.mem_append.1 member with zero | digit
  · rw [(List.mem_replicate.1 zero).2]
    rfl
  · exact Nat.isDigit_of_mem_toDigits (by decide) (by decide) digit

private theorem padded_ne_nil (length number : Nat) : (padded length number).toList ≠ [] := by
  rw [toList_padded]
  exact List.append_ne_nil_of_right_ne_nil _ Nat.toDigits_ne_nil

private theorem ofDigitChars_padded :
    Nat.ofDigitChars 10 (padded length number).toList 0 = number := by
  rw [toList_padded, Nat.ofDigitChars_append, Nat.ofDigitChars_replicate_zero, Nat.mul_zero,
    Nat.ofDigitChars_ten_toDigits]

private theorem length_padded (positive : 0 < length) (small : number < 10 ^ length) :
    (padded length number).toList.length = length := by
  have fits := (Nat.length_toDigits_le_iff (by decide) positive).2 small
  rw [toList_padded, List.length_append, List.length_replicate]
  omega

private theorem padded_eq_cons (length number : Nat) :
    ∃ first others, (padded length number).toList = first :: others ∧ first.isDigit = true := by
  obtain ⟨first, others, listed⟩ := List.exists_cons_of_ne_nil
    (padded_ne_nil length number)
  exact ⟨first, others, listed, isDigit_of_mem_padded (listed ▸ List.mem_cons_self ..)⟩

/-- A number with as many digits as may be taken. -/
theorem number?_padded (positive : 0 < length) (small : number < 10 ^ length) (rest : List Char) :
    number? length ((padded length number).toList ++ rest) = some (number, rest) := by
  have whole := length_padded positive small
  have read := number?_append rest
    (fun c (member : c ∈ (padded length number).toList) => isDigit_of_mem_padded member)
    (padded_ne_nil length number) (Nat.le_of_eq whole) (.inl whole)
  rwa [ofDigitChars_padded] at read

/-- A number that goes on up to something that is no digit. -/
theorem number?_padded_before (stop : c.isDigit = false)
    (fits : (padded length number).toList.length ≤ most) (rest : List Char) :
    number? most ((padded length number).toList ++ c :: rest) = some (number, c :: rest) := by
  have read := number?_append (c :: rest)
    (fun c (member : c ∈ (padded length number).toList) => isDigit_of_mem_padded member)
    (padded_ne_nil length number) fits (.inr (by simp [stop]))
  rwa [ofDigitChars_padded] at read

private theorem field?_padded (positive : 0 < length) (small : number < 10 ^ length)
    (rest : List Char) :
    field? length ((padded length number).toList ++ rest) = some (number, rest) := by
  have read := number?_padded positive small rest
  obtain ⟨first, others, listed, digit⟩ := padded_eq_cons length number
  unfold field?
  rw [listed, List.cons_append] at read ⊢
  rw [dropBlank_cons (isBlank_of_isDigit digit), read]

/-! ## The parts of the text -/

private theorem year?_of_isDigit (digit : c.isDigit = true) (rest : List Char) :
    year? (c :: rest) = (number? 4 (c :: rest)).map fun (year, rest) => ((year : Int), rest) := by
  unfold year?
  rw [dropBlank_cons (isBlank_of_isDigit digit)]
  split
  · rename_i dash
    obtain ⟨rfl, -⟩ := List.cons.inj dash
    exact absurd digit (by decide)
  · rename_i plus
    obtain ⟨rfl, -⟩ := List.cons.inj plus
    exact absurd digit (by decide)
  · rfl

private theorem year?_plus (rest : List Char) : year? ('+' :: rest) =
    (number? rest.length rest).map fun (year, rest) => ((year : Int), rest) := rfl

private theorem year?_minus (rest : List Char) : year? ('-' :: rest) =
    (number? rest.length rest).map fun (year, rest) => (-(year : Int), rest) := rfl

/-- The year ends before the first dash that is not its sign. -/
theorem year?_yearText (year : Int) (rest : List Char) :
    year? ((yearText year).toList ++ '-' :: rest) = some (year, '-' :: rest) := by
  have within (number : Nat) : (padded 4 number).toList.length ≤
      ((padded 4 number).toList ++ '-' :: rest).length := by simp
  have signed (sign : Char) (number : Nat) :
      (String.ofList [sign] ++ padded 4 number).toList ++ '-' :: rest =
        sign :: ((padded 4 number).toList ++ '-' :: rest) := by
    rw [String.toList_append, String.toList_ofList]
    rfl
  unfold yearText
  split
  · rename_i positive
    have same : (year.toNat : Int) = year := Int.toNat_of_nonneg positive
    split
    · have read : number? 4 ((padded 4 year.toNat).toList ++ '-' :: rest) =
          some (year.toNat, '-' :: rest) := number?_padded (by decide) (by omega) _
      obtain ⟨first, others, listed, digit⟩ := padded_eq_cons 4 year.toNat
      rw [String.empty_append]
      rw [listed, List.cons_append] at read ⊢
      rw [year?_of_isDigit digit, read]
      exact congrArg (fun year => some (year, '-' :: rest)) same
    · refine (congrArg year? (signed '+' year.toNat)).trans ?_
      rw [year?_plus, number?_padded_before rfl (within _)]
      exact congrArg (fun year => some (year, '-' :: rest)) same
  · have same : -((-year).toNat : Int) = year := by omega
    refine (congrArg year? (signed '-' (-year).toNat)).trans ?_
    rw [year?_minus, number?_padded_before rfl (within _)]
    exact congrArg (fun year => some (year, '-' :: rest)) same

/-- The fraction ends before the letter of the offset. -/
theorem fraction?_fractionText {nanos : Nat} (small : nanos < 1000000000) (rest : List Char) :
    fraction? ((fractionText nanos).toList ++ 'Z' :: rest) = some (nanos, 'Z' :: rest) := by
  have read (length value : Nat) (positive : 0 < length) (most : length ≤ 9)
      (fits : value < 10 ^ length) :
      fraction? (("." ++ padded length value).toList ++ 'Z' :: rest) =
        some (value * 10 ^ (9 - length), 'Z' :: rest) := by
    have whole := length_padded positive fits
    have taken := number?_padded_before (c := 'Z') rfl (Nat.le_trans (Nat.le_of_eq whole) most) rest
    have used : ((padded length value).toList ++ 'Z' :: rest).length - ('Z' :: rest).length =
        length := by
      rw [List.length_append, whole, Nat.add_sub_cancel]
    have spelled : ("." ++ padded length value).toList ++ 'Z' :: rest =
        '.' :: ((padded length value).toList ++ 'Z' :: rest) := by
      rw [String.toList_append]
      rfl
    rw [spelled, fraction?, taken]
    change some (value * Nat.pow 10 (9 - (_ - _)), _) = _
    rw [used]
    rfl
  unfold fractionText
  split
  · rename_i none
    rw [none]
    rfl
  · split
    · rw [read 3 _ (by decide) (by decide) (by omega)]
      exact congrArg (fun nanos => some (nanos, 'Z' :: rest)) (by omega)
    · split
      · rw [read 6 _ (by decide) (by decide) (by omega)]
        exact congrArg (fun nanos => some (nanos, 'Z' :: rest)) (by omega)
      · rw [read 9 _ (by decide) (by decide) (by omega)]
        exact congrArg (fun nanos => some (nanos, 'Z' :: rest)) (by omega)

private theorem guard_bind_eq_some {α : Type} {condition : Prop} [Decidable condition]
    {next : Unit → Option α} {found : α} :
    (guard condition >>= next) = some found ↔ condition ∧ next () = some found := by
  change ((if condition then some () else none).bind next) = _ ↔ _
  by_cases holds : condition
  · rw [if_pos holds, Option.bind_some, and_iff_right holds]
  · rw [if_neg holds, Option.bind_none]
    exact ⟨nofun, fun both => absurd both.1 holds⟩

/-- The moments that occur: their years are within the range, and only the last second of a minute
is followed by a leap second. -/
def Occurs (moment : Timestamp) : Prop := ofParts? moment.seconds moment.nanos = some moment

instance : DecidablePred Occurs := fun moment =>
  inferInstanceAs (Decidable (ofParts? moment.seconds moment.nanos = some moment))

private theorem occurs_iff : moment.Occurs ↔
    isYear (Date.ofDays (moment.seconds / 86400)).year = true ∧
      (moment.nanos < 1000000000 ∨ moment.nanos < 2000000000 ∧ moment.seconds % 60 = 59) := by
  unfold Occurs ofParts?
  rw [guard_bind_eq_some, guard_bind_eq_some]
  simp

/-! ## The whole text -/

/-- The moment of a date and a time of day in universal time. Its second may be that of a leap
second. -/
def ofFields? (date : Date) (hour minute second nanos : Nat) : Option Timestamp := do
  guard (isYear date.year && date.isValid && hour < 24 && minute < 60 && second ≤ 60)
  let leap := second / 60
  let seconds : Int :=
    date.toDays * 86400 + hour * 3600 + minute * 60 + (second - leap : Nat)
  guard (isYear (Date.ofDays (seconds / 86400)).year)
  return ⟨seconds, nanos + leap * 1000000000⟩

private theorem bind_of_some {α β : Type} {read : Option α} {found : α} {next : α → Option β}
    (taken : read = some found) : (read >>= next) = next found := by
  rw [taken]
  rfl

/-- A text of the parts is read as these parts. -/
theorem read?_parts (year : Int) {month day hour minute second nanos : Nat}
    (months : month < 100) (days : day < 100) (hours : hour < 100) (minutes : minute < 100)
    (seconds : second < 100) (small : nanos < 1000000000) :
    read? (yearText year ++ "-" ++ padded 2 month ++ "-" ++ padded 2 day ++ "T" ++
      padded 2 hour ++ ":" ++ padded 2 minute ++ ":" ++ padded 2 second ++ fractionText nanos ++
      "Z") = ofFields? ⟨year, month, day⟩ hour minute second nanos := by
  have field {number : Nat} (small : number < 100) (rest : List Char) :
      field? 2 ((padded 2 number).toList ++ rest) = some (number, rest) :=
    field?_padded (by decide) small rest
  have dash (rest : List Char) : expect? '-' (dropBlank ('-' :: rest)) = some rest := rfl
  have colon (rest : List Char) : expect? ':' (dropBlank (':' :: rest)) = some rest := rfl
  have spelled : (yearText year ++ "-" ++ padded 2 month ++ "-" ++ padded 2 day ++ "T" ++
      padded 2 hour ++ ":" ++ padded 2 minute ++ ":" ++ padded 2 second ++ fractionText nanos ++
      "Z").toList = (yearText year).toList ++ '-' :: ((padded 2 month).toList ++
        '-' :: ((padded 2 day).toList ++ 'T' :: ((padded 2 hour).toList ++
        ':' :: ((padded 2 minute).toList ++ ':' :: ((padded 2 second).toList ++
        ((fractionText nanos).toList ++ ['Z'])))))) := by
    simp [String.toList_append]
  unfold read?
  rw [spelled]
  refine (bind_of_some (year?_yearText year _)).trans ?_
  refine (bind_of_some (dash _)).trans ?_
  refine (bind_of_some (field months _)).trans ?_
  refine (bind_of_some (dash _)).trans ?_
  refine (bind_of_some (field days _)).trans ?_
  refine (bind_of_some rfl).trans ?_
  refine (bind_of_some (field hours _)).trans ?_
  refine (bind_of_some (colon _)).trans ?_
  refine (bind_of_some (field minutes _)).trans ?_
  refine (bind_of_some (colon _)).trans ?_
  refine (bind_of_some (field seconds _)).trans ?_
  refine (bind_of_some (fraction?_fractionText small _)).trans ?_
  refine (bind_of_some (rfl : offset? (dropBlank ['Z']) = some (0, []))).trans ?_
  dsimp only
  rw [Int.sub_zero]
  rfl

/-- The compact text of every moment that occurs reads back as the moment. -/
theorem read?_compactText (occurs : moment.Occurs) : read? moment.compactText = some moment := by
  obtain ⟨inRange, leaps⟩ := occurs_iff.1 occurs
  have valid := Date.isValid_ofDays (moment.seconds / 86400)
  have days := Date.toDays_ofDays (moment.seconds / 86400)
  unfold compactText textWithOffset
  dsimp only
  generalize dated : Date.ofDays (moment.seconds / 86400) = date at *
  obtain ⟨months, most⟩ := date.le_of_isValid valid
  rw [read?_parts date.year (by omega) (by omega) (by omega) (by omega) (by omega) (by omega)]
  -- the time of day adds up to the seconds, also where the text shows the second 60
  have leap : ((moment.seconds % 86400).toNat % 60 + moment.nanos / 1000000000) / 60 =
      moment.nanos / 1000000000 := by omega
  have total : date.toDays * 86400 + ((moment.seconds % 86400).toNat / 3600 : Nat) * 3600 +
      ((moment.seconds % 86400).toNat / 60 % 60 : Nat) * 60 +
      ((moment.seconds % 86400).toNat % 60 + moment.nanos / 1000000000 -
        moment.nanos / 1000000000 : Nat) = moment.seconds := by omega
  have nanos : moment.nanos % 1000000000 + moment.nanos / 1000000000 * 1000000000 =
      moment.nanos := by omega
  have hours : (moment.seconds % 86400).toNat / 3600 < 24 := by omega
  have minutes : (moment.seconds % 86400).toNat / 60 % 60 < 60 := by omega
  have seconds : (moment.seconds % 86400).toNat % 60 + moment.nanos / 1000000000 ≤ 60 := by omega
  refine guard_bind_eq_some.2 ⟨?_, guard_bind_eq_some.2 ⟨?_, ?_⟩⟩
  · simp [inRange, valid, hours, minutes, seconds]
  · rw [leap, total, dated, inRange]
  · rw [leap, total, nanos]
    rfl

end BatchRun.Timestamp
