import BatchRun.Codec.Values
import BatchRun.Execution.Job

/-! # JSON forms of records

Parameters, contexts, instances and executions as JSON objects with one member per field. The flag
of a context that tells whether it has changed is not part of its JSON form.
-/

namespace BatchRun

open Document

namespace ParameterValue

def toJson : ParameterValue → Json
  | string text => .ofMembers [("type", .string "string"), ("value", .string text)]
  | long number => .ofMembers [("type", .string "long"), ("value", .integer number.toInt)]
  | double number => .ofMembers [("type", .string "double"), ("value", doubleJson number)]
  | date moment => .ofMembers [("type", .string "date"), ("value", moment.toJson)]

instance : JsonEncode ParameterValue := ⟨fun value => some value.toJson⟩
instance : JsonDecode ParameterValue where
  decode? document := do
    match ← document.tagged? "type" "value" with
    | ("string", value) => (decode? value).map string
    | ("long", value) => (decode? value).map long
    | ("double", value) => (decode? value).map double
    | ("date", value) => (decode? value).map date
    | _ => none

end ParameterValue

namespace JobParameter

def toJson (parameter : JobParameter) : Json :=
  .ofMembers [("identifying", .bool parameter.identifying), ("value", parameter.value.toJson)]

instance : JsonEncode JobParameter := ⟨fun parameter => some parameter.toJson⟩
instance : JsonDecode JobParameter where
  decode? document := do
    match ← document.fields? ["value", "identifying"] with
    | [value, identifying] => return ⟨← required value, ← required identifying⟩
    | _ => none

end JobParameter

namespace JobParameters

def toJson (parameters : JobParameters) : Json :=
  .object (parameters.entries.toList.map fun (name, parameter) => (name, parameter.toJson))

instance : JsonEncode JobParameters := ⟨fun parameters => some parameters.toJson⟩
instance : JsonDecode JobParameters where
  decode? document := (decode? document).map JobParameters.mk

end JobParameters

namespace ExecutionContext

def toJson (context : ExecutionContext) : Json :=
  .ofMembers [("entries", .object context.entries.toList)]

instance : JsonEncode ExecutionContext := ⟨fun context => some context.toJson⟩
instance : JsonDecode ExecutionContext where
  decode? document := do
    match ← document.fields? ["entries"] with
    | [entries] => return ofEntries (← required entries)
    | _ => none

end ExecutionContext

namespace JobInstance

def toJson (record : JobInstance) : Json :=
  .ofMembers [
    ("id", record.id.toJson),
    ("job_name", .string record.jobName),
    ("parameters", record.parameters.toJson)]

instance : JsonEncode JobInstance := ⟨fun record => some record.toJson⟩
instance : JsonDecode JobInstance where
  decode? document := do
    match ← document.fields? ["id", "job_name", "parameters"] with
    | [id, jobName, parameters] =>
      return ⟨← required id, ← required jobName, ← required parameters⟩
    | _ => none

end JobInstance

def textsJson (texts : List String) : Json := .array (texts.map .string)

namespace StepExecution

def toJson (step : StepExecution) : Json :=
  .ofMembers [
    ("commit_count", .integer step.counts.commit.toNat),
    ("end_time", Timestamp.optionalJson step.endTime),
    ("execution_context", step.context.toJson),
    ("exit_status", step.exitStatus.toJson),
    ("failures", textsJson step.failures),
    ("filter_count", .integer step.counts.filter.toNat),
    ("id", (step.id.map RecordId.toJson).getD .null),
    ("job_execution_id", step.jobExecutionId.toJson),
    ("job_instance_id", step.jobInstanceId.toJson),
    ("last_updated", Timestamp.optionalJson step.lastUpdated),
    ("process_skip_count", .integer step.counts.processSkip.toNat),
    ("read_count", .integer step.counts.read.toNat),
    ("read_skip_count", .integer step.counts.readSkip.toNat),
    ("rollback_count", .integer step.counts.rollback.toNat),
    ("start_time", step.startTime.toJson),
    ("status", step.status.toJson),
    ("step_name", .string step.stepName),
    ("terminate_only", .bool step.terminateOnly),
    ("version", .integer step.version.toNat),
    ("write_count", .integer step.counts.write.toNat),
    ("write_skip_count", .integer step.counts.writeSkip.toNat)]

/-- The fields in the order of an array. -/
def fieldNames : List String :=
  ["id", "version", "step_name", "job_execution_id", "job_instance_id", "status", "exit_status",
    "read_count", "write_count", "commit_count", "rollback_count", "filter_count",
    "read_skip_count", "process_skip_count", "write_skip_count", "start_time", "end_time",
    "last_updated", "execution_context", "terminate_only", "failures"]

instance : JsonEncode StepExecution := ⟨fun step => some step.toJson⟩
instance : JsonDecode StepExecution where
  decode? document := do
    match ← document.fields? fieldNames with
    | [id, version, stepName, jobExecutionId, jobInstanceId, status, exitStatus, read, write,
        commit, rollback, filter, readSkip, processSkip, writeSkip, startTime, endTime,
        lastUpdated, context, terminateOnly, failures] =>
      return {
        id := ← omissible id
        version := ← required version
        stepName := ← required stepName
        jobExecutionId := ← required jobExecutionId
        jobInstanceId := ← required jobInstanceId
        status := ← required status
        exitStatus := ← required exitStatus
        counts := {
          read := ← required read
          write := ← required write
          commit := ← required commit
          rollback := ← required rollback
          filter := ← required filter
          readSkip := ← required readSkip
          processSkip := ← required processSkip
          writeSkip := ← required writeSkip }
        startTime := ← required startTime
        endTime := ← omissible endTime
        lastUpdated := ← omissible lastUpdated
        context := ← required context
        terminateOnly := ← required terminateOnly
        failures := ← required failures }
    | _ => none

end StepExecution

namespace JobExecution

def toJson (execution : JobExecution) : Json :=
  .ofMembers [
    ("create_time", execution.createTime.toJson),
    ("end_time", Timestamp.optionalJson execution.endTime),
    ("execution_context", execution.context.toJson),
    ("exit_status", execution.exitStatus.toJson),
    ("failures", textsJson execution.failures),
    ("id", (execution.id.map RecordId.toJson).getD .null),
    ("job_instance", execution.jobInstance.toJson),
    ("job_parameters", execution.parameters.toJson),
    ("last_updated", Timestamp.optionalJson execution.lastUpdated),
    ("start_time", Timestamp.optionalJson execution.startTime),
    ("status", execution.status.toJson),
    ("step_executions", .array (execution.steps.map StepExecution.toJson)),
    ("version", .integer execution.version.toNat)]

def fieldNames : List String :=
  ["id", "version", "job_instance", "job_parameters", "status", "exit_status", "create_time",
    "start_time", "end_time", "last_updated", "execution_context", "step_executions", "failures"]

instance : JsonEncode JobExecution := ⟨fun execution => some execution.toJson⟩
instance : JsonDecode JobExecution where
  decode? document := do
    match ← document.fields? fieldNames with
    | [id, version, jobInstance, parameters, status, exitStatus, createTime, startTime, endTime,
        lastUpdated, context, steps, failures] =>
      return {
        id := ← omissible id
        version := ← required version
        jobInstance := ← required jobInstance
        parameters := ← required parameters
        status := ← required status
        exitStatus := ← required exitStatus
        createTime := ← required createTime
        startTime := ← omissible startTime
        endTime := ← omissible endTime
        lastUpdated := ← omissible lastUpdated
        context := ← required context
        steps := ← required steps
        failures := ← required failures }
    | _ => none

end JobExecution

end BatchRun
