import BatchRun.Retry.Policy
import BatchRun.Text.Blank
import BatchRun.Text.Numeral

/-! # Launcher settings

The settings of a launcher come from six variables. Each variable decides one setting and nothing
else; one that is not set, or whose text is not acceptable, leaves the usual setting in place.
Blanks around a text do not matter, nor does the case of the letters `A` to `Z` in a name.
-/

namespace BatchRun

/-- A word that names nothing known. -/
structure UnknownWord where
  /-- What the word should name. -/
  kind : String
  word : String
deriving DecidableEq, Repr

def UnknownWord.message (error : UnknownWord) : String :=
  "unknown " ++ error.kind ++ " '" ++ error.word ++ "'"

/-- Reads a word without regard to blanks around it and to case. -/
def parseWord {α : Type} (kind : String) (ofName? : String → Option α) (text : String) :
    Except UnknownWord α :=
  let word := Text.lowerAscii (Text.trim text)
  match ofName? word with
  | some value => .ok value
  | none => .error ⟨kind, word⟩

def BackoffStrategy.parse : String → Except UnknownWord BackoffStrategy :=
  parseWord "backoff strategy" ofName?

/-- Where launched jobs run. -/
inductive ExecutorKind
  /-- Where they are launched. -/
  | sync
  /-- On worker threads of their own. -/
  | thread
deriving DecidableEq, Repr

namespace ExecutorKind

def name : ExecutorKind → String
  | sync => "sync"
  | thread => "thread"

def ofName? : String → Option ExecutorKind
  | "sync" => some sync
  | "thread" => some thread
  | _ => none

def parse : String → Except UnknownWord ExecutorKind := parseWord "executor" ofName?

end ExecutorKind

structure LauncherConfig where
  retryPolicy : RetryPolicy
  executor : ExecutorKind
  /-- How many jobs may run on worker threads at the same time. -/
  maxConcurrent : UInt64
deriving DecidableEq

namespace LauncherConfig

/-- The settings without any variable. -/
def usual : LauncherConfig := ⟨.usual, .sync, 4⟩

def maxAttemptsVariable : String := "FORGEBATCH_RETRY_MAX_ATTEMPTS"
def baseDelayVariable : String := "FORGEBATCH_RETRY_BASE_DELAY_MS"
def maxDelayVariable : String := "FORGEBATCH_RETRY_MAX_DELAY_MS"
def backoffVariable : String := "FORGEBATCH_RETRY_BACKOFF"
def executorVariable : String := "FORGEBATCH_EXECUTOR"
def maxConcurrentVariable : String := "FORGEBATCH_EXECUTOR_MAX_CONCURRENT"

/-- The value of a setting: what the text of its variable says, or the usual one. -/
def settingOr {ε α : Type} (read : String → Except ε α) (usual : α) (text : Option String) : α :=
  match text with
  | none => usual
  | some text =>
    match read (Text.trim text) with
    | .ok value => value
    | .error _ => usual

/-- Whether a process can have such a variable in its environment. -/
def isVariable (name text : String) : Bool :=
  !name.isEmpty && !name.toList.contains '=' && !(name ++ text).toList.contains '\x00'

/-- The settings according to variables. -/
def ofVariables (lookup : String → Option String) : LauncherConfig where
  retryPolicy := {
    maxAttempts :=
      max (settingOr Text.readUInt32 RetryPolicy.usual.maxAttempts (lookup maxAttemptsVariable)) 1
    baseDelay := .ofMillis (settingOr Text.readUInt64
      (UInt64.ofNat RetryPolicy.usual.baseDelay.toMillis) (lookup baseDelayVariable))
    maxDelay := .ofMillis (settingOr Text.readUInt64
      (UInt64.ofNat RetryPolicy.usual.maxDelay.toMillis) (lookup maxDelayVariable))
    strategy :=
      settingOr BackoffStrategy.parse RetryPolicy.usual.strategy (lookup backoffVariable)
    jitter := RetryPolicy.usual.jitter }
  executor := settingOr ExecutorKind.parse usual.executor (lookup executorVariable)
  maxConcurrent := settingOr Text.readUInt64 usual.maxConcurrent (lookup maxConcurrentVariable)

end LauncherConfig

end BatchRun
