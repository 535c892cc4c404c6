import BatchRun.Reader.Tracking

/-! # What a source has ahead

A source of a list hands out its items in order. A reading that fails takes nothing, so what the
source has ahead is the list without the items that it has handed out. Reading up to an item that is
ahead ends right after it or with the failure of one of the readings.
-/

namespace BatchRun

namespace ItemSource

variable {σ α : Type} [ItemSource σ α] {source next last : σ} {item : α} {items others : List α}

/-- Readings that succeed one after the other hand out these items. -/
inductive Hands : σ → List α → σ → Prop
  | none (source : σ) : Hands source [] source
  | more {source next last : σ} {item : α} {items : List α}
      (read : readNext source = (.ok (some item), next)) (rest : Hands next items last) :
      Hands source (item :: items) last

/-- What states of a source have ahead: the next item first, nothing at the end, and the same as
before when a reading fails. -/
structure Delivers (ahead : σ → List α) : Prop where
  item : ∀ {source next item}, readNext source = (.ok (some item), next) →
    ahead source = item :: ahead next
  stop : ∀ {source next}, readNext source = (.ok none, next) →
    ahead source = [] ∧ ahead next = []
  failure : ∀ {source next failure}, readNext source = (.error failure, next) →
    ahead next = ahead source

/-- The items that have been handed out are no longer ahead. -/
theorem Delivers.eq_append {ahead : σ → List α} (delivers : Delivers ahead)
    (hands : Hands source items last) : ahead source = items ++ ahead last := by
  induction hands with
  | none => rfl
  | more read rest ih => rw [delivers.item read, ih, List.cons_append]

/-- A source with items ahead hands out the first one, if the reading does not fail. -/
theorem Delivers.readNext_cases {ahead : σ → List α} (delivers : Delivers ahead)
    (split : ahead source = item :: items) :
    (∃ failure next, readNext source = (.error failure, next)) ∨
      ∃ next, readNext source = (.ok (some item), next) ∧ ahead next = items := by
  rcases read : readNext source with ⟨failure | item?, next⟩
  · exact .inl ⟨failure, next, rfl⟩
  · cases item? with
    | none => simp [(delivers.stop read).1] at split
    | some found =>
      obtain ⟨rfl, later⟩ := List.cons.inj ((delivers.item read).symm.trans split)
      exact .inr ⟨next, rfl, later⟩

end ItemSource

namespace ListSource

variable {α : Type}

private theorem readNext_cases (source : ListSource α) :
    (∃ failure next, source.readNext = (.error failure, next) ∧ next.items = source.items) ∨
      source.items = [] ∧ source.readNext = (.ok none, source) ∨
      ∃ item next, source.readNext = (.ok (some item), next) ∧
        source.items = item :: next.items := by
  unfold readNext
  split
  · exact .inl ⟨_, _, rfl, rfl⟩
  · cases listed : source.items with
    | nil => exact .inr (.inl ⟨rfl, rfl⟩)
    | cons item items => exact .inr (.inr ⟨item, _, rfl, rfl⟩)

/-- A list, whatever failures are planned for it, has the rest of the list ahead. -/
theorem delivers : ItemSource.Delivers (items (α := α)) := by
  constructor
  case item =>
    intro source next item read
    replace read : source.readNext = (.ok (some item), next) := read
    rcases source.readNext_cases with ⟨_, _, other, -⟩ | ⟨-, other⟩ | ⟨_, _, same, split⟩
    · simp [other] at read
    · simp [other] at read
    · simp only [same, Prod.mk.injEq, Except.ok.injEq, Option.some.injEq] at read
      rw [split, read.1, read.2]
  case stop =>
    intro source next read
    replace read : source.readNext = (.ok none, next) := read
    rcases source.readNext_cases with ⟨_, _, other, -⟩ | ⟨ended, same⟩ | ⟨_, _, other, -⟩
    · simp [other] at read
    · simp only [same, Prod.mk.injEq, true_and] at read
      exact ⟨ended, read ▸ ended⟩
    · simp [other] at read
  case failure =>
    intro source next failure read
    replace read : source.readNext = (.error failure, next) := read
    rcases source.readNext_cases with ⟨_, _, same, kept⟩ | ⟨-, other⟩ | ⟨_, _, other, -⟩
    · simp only [same, Prod.mk.injEq] at read
      rw [← read.2, kept]
    · simp [other] at read
    · simp [other] at read

end ListSource

namespace TrackingReader

open ItemSource (Hands Delivers readNext)

variable {σ α : Type} [ItemSource σ α] [BEq α] {reader : TrackingReader σ α} {source : σ}
  {item found : α} {failure : Failure}

private theorem jumpTo_of_failure (read : readNext reader.source = (.error failure, source)) :
    reader.jumpTo item = .error (.source failure) := by
  rw [jumpTo]
  split <;> simp_all

private theorem jumpTo_of_item (read : readNext reader.source = (.ok (some found), source)) :
    reader.jumpTo item =
      if found == item then .ok { reader with source, current := some found }
      else jumpTo { reader with source, current := some found } item := by
  rw [jumpTo]
  split <;> simp_all

/-- Reading up to an item that is ahead ends right after it, or with the failure of a reading that
comes before. -/
theorem jumpTo_cases {ahead : σ → List α} (delivers : Delivers ahead)
    (reader : TrackingReader σ α) {passed rest : List α}
    (split : ahead reader.source = passed ++ item :: rest)
    (apart : ∀ earlier ∈ passed, (earlier == item) = false) (same : (item == item) = true) :
    (∃ source, Hands reader.source (passed ++ [item]) source ∧
      reader.jumpTo item = .ok { reader with source, current := some item }) ∨
    ∃ failure handed left stuck, passed = handed ++ left ∧ Hands reader.source handed stuck ∧
      (readNext stuck).1 = .error failure ∧ reader.jumpTo item = .error (.source failure) := by
  -- along the items that are passed: each of them is read, and the reading goes on from there
  induction passed generalizing reader with
  | nil =>
    rcases delivers.readNext_cases split with ⟨failure, next, read⟩ | ⟨next, read, -⟩
    · exact .inr ⟨failure, [], [], reader.source, rfl, .none _, by rw [read],
        jumpTo_of_failure read⟩
    · exact .inl ⟨next, .more read (.none _), by rw [jumpTo_of_item read, if_pos same]⟩
  | cons first passed ih =>
    rcases delivers.readNext_cases split with ⟨failure, next, read⟩ | ⟨next, read, later⟩
    · exact .inr ⟨failure, [], first :: passed, reader.source, rfl, .none _, by rw [read],
        jumpTo_of_failure read⟩
    · have goesOn : reader.jumpTo item = _ := jumpTo_of_item read
      rw [apart first (List.mem_cons_self ..), if_neg Bool.false_ne_true] at goesOn
      rcases ih { reader with source := next, current := some first } later
          (fun earlier member => apart earlier (List.mem_cons_of_mem _ member)) with
        ⟨last, hands, found⟩ | ⟨failure, handed, left, stuck, equal, hands, failed, refused⟩
      · exact .inl ⟨last, .more read hands, goesOn.trans found⟩
      · exact .inr ⟨failure, first :: handed, left, stuck, congrArg _ equal, .more read hands,
          failed, goesOn.trans refused⟩

end TrackingReader

end BatchRun
