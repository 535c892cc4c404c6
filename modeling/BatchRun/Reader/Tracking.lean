import BatchRun.Context.Basic
import BatchRun.Reader.Source

/-! # Tracking readers

A tracking reader reads from a source and remembers the latest item. A checkpoint writes that item
into an execution context; a reader opened on such a context first reads up to that item. What is
remembered is the item and not its place, so resuming depends on items that differ from each other.
-/

namespace BatchRun

inductive ReaderError
  | domain (error : DomainError)
  | source (failure : Failure)

def ReaderError.message : ReaderError → String
  | domain error => error.message
  | source failure => failure.chain

/-- A reader over a source that remembers the latest item. -/
structure TrackingReader (σ α : Type) where
  source : σ
  /-- The entry of the context that belongs to this reader. -/
  key : String
  /-- The latest item; none before the first one and after the end. -/
  current : Option α
  /-- Whether the reader uses the context at all. -/
  savesState : Bool

namespace TrackingReader

variable {σ α : Type} [ItemSource σ α]

/-- The entry of a context that belongs to the reader of this name. -/
def keyOf (name : String) : String := name ++ ".item.current"

def fresh (source : σ) (name : String) (savesState : Bool) : TrackingReader σ α :=
  ⟨source, keyOf name, none, savesState⟩

/-- Reads the next item. A failure leaves the current item as it is. -/
def read (reader : TrackingReader σ α) : Except Failure (Option α) × TrackingReader σ α :=
  match ItemSource.readNext reader.source with
  | (.ok item, source) => (.ok item, { reader with source, current := item })
  | (.error failure, source) => (.error failure, { reader with source })

/-- Reads up to an item, which has to come. -/
def jumpTo [BEq α] (reader : TrackingReader σ α) (item : α) :
    Except ReaderError (TrackingReader σ α) :=
  match _result : ItemSource.readNext reader.source with
  | (.error failure, _) => .error (.source failure)
  | (.ok none, _) =>
    .error (.domain (.illegalState
      ("checkpointed item under '" ++ reader.key ++ "' not found in source")))
  | (.ok (some found), source) =>
    let reader := { reader with source, current := some found }
    if found == item then .ok reader else jumpTo reader item
termination_by ItemSource.remaining reader.source
decreasing_by exact ItemSource.remaining_lt _result

/-- Opens a reader. If it saves its state and the context has an item for it, it goes on after
that item. -/
def openOn [BEq α] [JsonDecode α] (source : σ) (name : String) (context : ExecutionContext)
    (savesState : Bool) : Except ReaderError (TrackingReader σ α) :=
  let reader := fresh source name savesState
  if savesState then
    match context.get (α := α) reader.key with
    | .error error => .error (.domain error)
    | .ok none => .ok reader
    | .ok (some item) => reader.jumpTo item
  else .ok reader

/-- Writes the current item into a context, if there is one and the reader saves its state. -/
def checkpoint [JsonEncode α] (reader : TrackingReader σ α) (context : ExecutionContext) :
    Except DomainError ExecutionContext :=
  if reader.savesState then
    match reader.current with
    | some item => context.put reader.key item
    | none => .ok context
  else .ok context

end TrackingReader

end BatchRun
