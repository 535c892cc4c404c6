import BatchRun.Codec.Records
import BatchRun.Proofs.Codec.Values
import BatchRun.Proofs.Context.Entries

/-! # Records that read back

What is written as JSON and read again is what has been written, in all fields, but for the flag of
a context that tells whether it has changed. Three things are asked of the values, and only those:
doubles are finite, moments occur, and the objects inside a context list their members in the order
of the names.
-/

namespace BatchRun

open Document

/-! ## Values that can be written -/

/-- Doubles are finite and moments occur. -/
def ParameterValue.Writable : ParameterValue → Prop
  | double number => number.isFinite
  | date moment => moment.Occurs
  | _ => True

/-- All values can be written. -/
def JobParameters.Writable (parameters : JobParameters) : Prop :=
  ∀ entry ∈ parameters.entries.toList, entry.2.value.Writable

/-- The members of all objects stand in the order of their names. -/
def ExecutionContext.Writable (context : ExecutionContext) : Prop :=
  ∀ entry ∈ context.entries.toList, entry.2.Ordered

/-- The moments of the step occur, and its context can be written. -/
structure StepExecution.Writable (step : StepExecution) : Prop where
  startTime : step.startTime.Occurs
  endTime : ∀ moment ∈ step.endTime, moment.Occurs
  lastUpdated : ∀ moment ∈ step.lastUpdated, moment.Occurs
  context : step.context.Writable

/-- The moments of the execution occur, and all its parts can be written. -/
structure JobExecution.Writable (execution : JobExecution) : Prop where
  jobInstance : execution.jobInstance.parameters.Writable
  parameters : execution.parameters.Writable
  createTime : execution.createTime.Occurs
  startTime : ∀ moment ∈ execution.startTime, moment.Occurs
  endTime : ∀ moment ∈ execution.endTime, moment.Occurs
  lastUpdated : ∀ moment ∈ execution.lastUpdated, moment.Occurs
  context : execution.context.Writable
  steps : ∀ step ∈ execution.steps, step.Writable

/-! ## Parameters -/

/-- A value is read back with its type. -/
theorem ParameterValue.reads {value : ParameterValue} (writable : value.Writable) :
    value.toJson.Reads value := by
  have tagged (kind : String) (json : Json) :
      (Json.ofMembers [("type", .string kind), ("value", json)]).toDocument.tagged?
        "type" "value" = some (kind, json.toDocument) :=
    tagged?_ofMembers (by simp) (by simp) (by simp [List.lookup_cons])
  change (value.toJson.toDocument.tagged? _ _ >>= _) = _
  cases value with
  | string text => simp [toJson, tagged]
  | long number => simp [toJson, tagged]
  | double number =>
    have finite : number.isFinite := by simpa [Writable] using writable
    simp [toJson, tagged, doubleJson_reads finite]
  | date moment =>
    have occurs : moment.Occurs := by simpa [Writable] using writable
    simp [toJson, tagged, Timestamp.reads occurs]

theorem JobParameter.reads {parameter : JobParameter} (writable : parameter.value.Writable) :
    parameter.toJson.Reads parameter := by
  refine Json.reads_of_fields (fun _ => rfl) (by simp) ?_
  simp [List.lookup_cons, ParameterValue.reads writable]

private theorem JobParameters.writable_ofList {entries : List (String × JobParameter)}
    (writable : ∀ entry ∈ entries, entry.2.value.Writable) : (ofList entries).Writable :=
  fun entry member => writable entry (SortedMap.mem_of_mem_ofList member)

/-- Parameters are read back under their names. -/
theorem JobParameters.reads {parameters : JobParameters} (writable : parameters.Writable) :
    parameters.toJson.Reads parameters :=
  congrArg (Option.map JobParameters.mk)
    (Json.reads_object fun entry member => JobParameter.reads (writable entry member))

/-! ## Contexts -/

/-- A context is read back as one that has not been changed. -/
theorem ExecutionContext.reads {context : ExecutionContext} (writable : context.Writable) :
    context.toJson.Reads context.clearDirty := by
  have entries : (Json.object context.entries.toList).Reads context.entries := by
    have reads : (Json.object (context.entries.toList.map fun entry =>
        (entry.1, id entry.2))).Reads context.entries :=
      Json.reads_object fun entry member => Json.reads_self (writable entry member)
    simpa using reads
  refine Json.reads_of_fields (fun _ => rfl) (by simp) ?_
  simp [List.lookup_cons, entries, ofEntries, clearDirty]

/-- Whatever is read as a context can be written again. -/
theorem ExecutionContext.writable_of_decode? {document : Document} {context : ExecutionContext}
    (read : decode? document = some context) : context.Writable := by
  change (document.fields? ["entries"] >>= _) = _ at read
  obtain ⟨fields, -, taken⟩ := Option.bind_eq_some_iff.1 read
  split at taken
  · obtain ⟨entries, wanted, made⟩ := Option.bind_eq_some_iff.1 taken
    obtain ⟨source, -, decoded⟩ := Option.bind_eq_some_iff.1 wanted
    rw [← Option.some.inj made]
    intro entry member
    obtain ⟨form, value⟩ := Json.decoded_of_mem decoded member
    exact Json.ordered_of_toJson? form value
  · contradiction

private theorem ExecutionContext.writable_empty : empty.Writable := nofun

theorem ExecutionContext.Writable.putValue {context : ExecutionContext}
    (writable : context.Writable) (name : String) {value : Json} (ordered : value.Ordered) :
    (context.putValue name value).Writable := by
  rcases context.putValue_cases name value with ⟨-, -, -, kept⟩ | ⟨-, written⟩
  · rwa [kept]
  · rw [written]
    intro entry member
    rcases SortedMap.mem_insertEntry member with rfl | old
    · exact ordered
    · exact writable entry old

/-! ## Instances and executions -/

/-- An instance is read back with its number. -/
theorem JobInstance.reads {record : JobInstance} (writable : record.parameters.Writable) :
    record.toJson.Reads record := by
  refine Json.reads_of_fields (fun _ => rfl) (by simp) ?_
  simp [List.lookup_cons, JobParameters.reads writable]

private theorem textsJson_reads (texts : List String) : (textsJson texts).Reads texts := by
  have reads : (textsJson texts).Reads (texts.map id) :=
    Json.reads_array fun text _ => Json.reads_string text
  rwa [List.map_id] at reads

/-- The step as it is after its context has been saved. -/
def StepExecution.restored (step : StepExecution) : StepExecution :=
  { step with context := step.context.clearDirty }

/-- A step is read back in all fields, with a context that has not been changed. -/
theorem StepExecution.reads {step : StepExecution} (writable : step.Writable) :
    step.toJson.Reads step.restored := by
  refine Json.reads_of_fields (fun _ => rfl) (by simp) ?_
  simp [List.lookup_cons, fieldNames, Timestamp.reads writable.startTime,
    Timestamp.omissible_optionalJson writable.endTime,
    Timestamp.omissible_optionalJson writable.lastUpdated,
    ExecutionContext.reads writable.context, textsJson_reads, restored]

/-- The execution as it is after its context and those of its steps have been saved. -/
def JobExecution.restored (execution : JobExecution) : JobExecution :=
  { execution with
    context := execution.context.clearDirty
    steps := execution.steps.map StepExecution.restored }

/-- An execution is read back in all fields, its steps included. -/
theorem JobExecution.reads {execution : JobExecution} (writable : execution.Writable) :
    execution.toJson.Reads execution.restored := by
  have steps := Json.reads_array fun step member => StepExecution.reads (writable.steps step member)
  refine Json.reads_of_fields (fun _ => rfl) (by simp) ?_
  simp [List.lookup_cons, fieldNames, JobInstance.reads writable.jobInstance,
    JobParameters.reads writable.parameters, Timestamp.reads writable.createTime,
    Timestamp.omissible_optionalJson writable.startTime,
    Timestamp.omissible_optionalJson writable.endTime,
    Timestamp.omissible_optionalJson writable.lastUpdated,
    ExecutionContext.reads writable.context, steps, textsJson_reads, restored]

/-! ## What is read back -/

/-- What is read from the JSON form of a value. -/
def readBack? {α : Type} [JsonEncode α] [JsonDecode α] (value : α) : Option α :=
  (encode? value).bind fun json => decode? json.toDocument

private theorem readBack?_of_reads {α : Type} [JsonEncode α] [JsonDecode α] {value again : α}
    {json : Json} (encoded : encode? value = some json) (reads : json.Reads again) :
    readBack? value = some again := by
  rw [readBack?, encoded, Option.bind_some, reads]

/-- Records and their parts read back as they have been written, in all fields, except that no
context has changed since. -/
theorem read_back_as_written :
    (∀ execution : JobExecution, execution.Writable →
      readBack? execution = some execution.restored) ∧
    (∀ step : StepExecution, step.Writable → readBack? step = some step.restored) ∧
    (∀ record : JobInstance, record.parameters.Writable → readBack? record = some record) ∧
    (∀ parameters : JobParameters, parameters.Writable →
      readBack? parameters = some parameters) ∧
    (∀ context : ExecutionContext, context.Writable →
      readBack? context = some context.clearDirty) ∧
    (∀ owner : ContextOwner, readBack? owner = some owner) ∧
    (∀ status : ExitStatus, readBack? status = some status) ∧
    ∀ policy : RetryPolicy, policy.jitter.isFinite → readBack? policy = some policy :=
  ⟨fun _ writable => readBack?_of_reads rfl (JobExecution.reads writable),
    fun _ writable => readBack?_of_reads rfl (StepExecution.reads writable),
    fun _ writable => readBack?_of_reads rfl (JobInstance.reads writable),
    fun _ writable => readBack?_of_reads rfl (JobParameters.reads writable),
    fun _ writable => readBack?_of_reads rfl (ExecutionContext.reads writable),
    fun owner => readBack?_of_reads rfl owner.reads,
    fun status => readBack?_of_reads rfl status.reads,
    fun _ finite => readBack?_of_reads rfl (RetryPolicy.reads finite)⟩

/-- A failed attempt with parameters of all types, a step, and contexts that have changed. -/
def importAttempt : JobExecution where
  id := some ⟨7⟩
  version := 3
  jobInstance := ⟨⟨2⟩, "import", .ofList [("limit", ⟨.long (-5), true⟩)]⟩
  parameters := .ofList [
    ("file", ⟨.string "rows.csv", false⟩), ("limit", ⟨.long (-5), true⟩),
    ("rate", ⟨.double RetryPolicy.usualJitter, false⟩),
    ("since", ⟨.date (.ofMillis (-62135596800001)), false⟩)]
  status := .failed
  exitStatus := ⟨"FAILED", "disk full"⟩
  createTime := .ofMillis 1709164800000
  startTime := some (.ofMillis 1709164800250)
  endTime := none
  lastUpdated := some ⟨1483228799, 1500000000⟩
  context := ExecutionContext.empty.putValue "shards" (.array [.null, .double 0.5])
  steps := [{
    StepExecution.start (.ofMillis 1709164800300) "load" ⟨7⟩ ⟨2⟩ with
    id := some ⟨11⟩
    counts := { read := 100, write := 90, readSkip := 10 }
    context := ExecutionContext.empty.putValue "mark"
      (.object [("done", .bool true), ("row", .integer 90)]) }]
  failures := ["disk full", "gave up"]

/-- The attempt comes back, its last update in a leap second included, with contexts that have not
changed. -/
theorem read_back_as_written_importAttempt :
    importAttempt.Writable ∧ RetryPolicy.usual.jitter.isFinite ∧
      importAttempt.context.dirty = true ∧ importAttempt.restored.context.dirty = false ∧
      readBack? importAttempt = some importAttempt.restored ∧
      (∀ step ∈ importAttempt.steps, readBack? step = some step.restored) ∧
      readBack? importAttempt.jobInstance = some importAttempt.jobInstance ∧
      readBack? importAttempt.parameters = some importAttempt.parameters ∧
      readBack? importAttempt.context = some importAttempt.context.clearDirty ∧
      readBack? RetryPolicy.usual = some RetryPolicy.usual := by
  have marked : (Json.object [("done", .bool true), ("row", .integer 90)]).Ordered :=
    ⟨by decide, trivial, trivial, trivial⟩
  have writable : importAttempt.Writable := {
    jobInstance := JobParameters.writable_ofList (by simp [ParameterValue.Writable])
    parameters := JobParameters.writable_ofList (by simp [ParameterValue.Writable]; decide)
    createTime := by decide
    startTime := by decide
    endTime := by decide
    lastUpdated := by decide
    context := ExecutionContext.writable_empty.putValue _ ⟨trivial, trivial, trivial⟩
    steps := List.forall_mem_singleton.2 {
      startTime := by decide
      endTime := by decide
      lastUpdated := by decide
      context := ExecutionContext.writable_empty.putValue _ marked } }
  have finite : RetryPolicy.usual.jitter.isFinite := by decide
  obtain ⟨executions, steps, instances, parameters, contexts, -, -, policies⟩ :=
    read_back_as_written
  exact ⟨writable, finite, rfl, rfl, executions _ writable,
    fun step member => steps step (writable.steps step member),
    instances _ writable.jobInstance, parameters _ writable.parameters,
    contexts _ writable.context, policies _ finite⟩

end BatchRun
