/-
# Execution records

An execution record follows one execution from the request to its outcome. It
can be made in a valid state or put together field by field and validated
afterwards. A time that is not set is the epoch; an execution that has not
finished has no end time.
-/

import AgentKit.Json.Decode
import AgentKit.Time.Timestamp

namespace AgentKit

/-- How far an execution has come. A number that stands for no status is kept as
`unlisted`. -/
inductive ExecutionStatus
  | pending
  | running
  | completed
  | failed
  | canceled
  | timeout
  | unlisted (index : Int)
  deriving DecidableEq

namespace ExecutionStatus

/-- The statuses in the order of their numbers. -/
def all : List ExecutionStatus := [pending, running, completed, failed, canceled, timeout]

def name : ExecutionStatus → String
  | pending => "pending"
  | running => "running"
  | completed => "completed"
  | failed => "failed"
  | canceled => "canceled"
  | timeout => "timeout"
  | unlisted _ => "invalid"

def index : ExecutionStatus → Int
  | pending => 0
  | running => 1
  | completed => 2
  | failed => 3
  | canceled => 4
  | timeout => 5
  | unlisted index => index

/-- The status with a number. -/
def ofIndex (index : Int) : ExecutionStatus :=
  (all.find? fun status => status.index = index).getD (unlisted index)

/-- The status with a name. -/
def ofName? (name : String) : Option ExecutionStatus :=
  all.find? fun status => status.name = name

def isValid (status : ExecutionStatus) : Bool :=
  all.contains status

/-- Nothing more happens to an execution with a terminal status. -/
def isTerminal : ExecutionStatus → Bool
  | completed | failed | canceled | timeout => true
  | pending | running | unlisted _ => false

def toJson (status : ExecutionStatus) : Json :=
  .str status.name

def ofJson : Json → Decoded ExecutionStatus
  | .str name =>
    match ofName? name with
    | some status => .ok status
    | none => .error (.invalid ("unknown execution status " ++ Text.quoted name))
  | _ => .error (.invalid "execution status must be a JSON string")

end ExecutionStatus

/-- The record of one execution. -/
structure Execution where
  id : String := ""
  identityId : String := ""
  intent : String := ""
  status : ExecutionStatus := .pending
  startTime : Instant := .epoch
  endTime : Option Instant := none
  podName : String := ""
  nameSpace : String := ""
  model : String := ""
  tokensUsed : Int := 0
  errorMessage : String := ""
  metadata : Json := .empty
  createdAt : Instant := .epoch
  updatedAt : Instant := .epoch

namespace Execution

/-- The version of the record and of its JSON form. -/
def schemaVersion : Nat := 1

/-- A pending execution with a given id, all its times set to now. -/
def create (id : String) (now : Instant) (identityId intent nameSpace : String) :
    Except Error Execution :=
  if identityId.isEmpty then
    .error (.make .validation "models: execution identity_id must not be empty")
  else if intent.isEmpty then
    .error (.make .validation "models: execution intent must not be empty")
  else if nameSpace.isEmpty then
    .error (.make .validation "models: execution namespace must not be empty")
  else
    .ok
      { id, identityId, intent, nameSpace
        startTime := now, createdAt := now, updatedAt := now }

/-- What a record lacks without a field. -/
def missing (field : String) : Except Error Unit :=
  .error (.make .validationRequired ("models: execution " ++ field ++ " is required"))

/-- Checks required fields, status and counter; the first fault is reported. -/
def validate (execution : Execution) : Except Error Unit :=
  if execution.id.isEmpty then missing "id"
  else if execution.identityId.isEmpty then missing "identity_id"
  else if execution.intent.isEmpty then missing "intent"
  else if execution.nameSpace.isEmpty then missing "namespace"
  else if !execution.status.isValid then
    .error (.make .validation "models: invalid execution status")
  else if execution.startTime = .epoch then missing "start_time"
  else if execution.createdAt = .epoch then missing "created_at"
  else if execution.updatedAt = .epoch then missing "updated_at"
  else if execution.tokensUsed < 0 then
    .error (.make .validationRange
      ("models: execution tokens_used must not be negative, got "
        ++ toString execution.tokensUsed))
  else .ok ()

def isTerminal (execution : Execution) : Bool :=
  execution.status.isTerminal

/-- The milliseconds from the start to the end, or to now while there is no end.
Without a start there are none. -/
def durationMillis (execution : Execution) (now : Instant) : Int :=
  if execution.startTime = .epoch then 0
  else execution.startTime.millisUntil (execution.endTime.getD now)

/-! ## JSON -/

/-- A text as a field that is left out if it is empty. -/
def textUnlessEmpty (text : String) : Option Json :=
  if text.isEmpty then none else some (.str text)

/-- A number as a field that is left out if it is zero. -/
def countUnlessZero (count : Int) : Option Json :=
  if count = 0 then none else some (.int count)

/-- The fields of a record as JSON has them. -/
def fields (execution : Execution) : List (String × Option Json) :=
  [("id", some (.str execution.id)),
    ("identity_id", some (.str execution.identityId)),
    ("intent", some (.str execution.intent)),
    ("status", some execution.status.toJson),
    ("start_time", some (.str execution.startTime.render)),
    ("namespace", some (.str execution.nameSpace)),
    ("metadata", some execution.metadata),
    ("created_at", some (.str execution.createdAt.render)),
    ("updated_at", some (.str execution.updatedAt.render)),
    ("end_time", execution.endTime.map fun time => .str time.render),
    ("pod_name", textUnlessEmpty execution.podName),
    ("model", textUnlessEmpty execution.model),
    ("tokens_used", countUnlessZero execution.tokensUsed),
    ("error_message", textUnlessEmpty execution.errorMessage)]

/-- An execution as JSON. Optional fields are left out if they are not set. -/
def toJson (execution : Execution) : Json :=
  .object (Fields.present execution.fields)

/-- The time under a key that has to be there. -/
def timeField (value : Json) (key : String) : Decoded Instant := do
  match Instant.parse (← value.requiredText key) with
  | .ok time => .ok time
  | .error error => .error (.invalid ("execution " ++ key ++ ": " ++ error.message))

/-- The time under a key that may be absent or null. -/
def optionalTimeField (value : Json) (key : String) : Decoded (Option Instant) :=
  match value.present? key with
  | some _ => some <$> timeField value key
  | none => pure none

/-- The 32-bit counter under a key, zero if the key is absent. -/
def countField (value : Json) (key : String) : Decoded Int :=
  match value.get? key with
  | some count => count.asInt32
  | none => pure 0

/-- Reads a record; its fields are checked by `validate`. -/
def ofJson (value : Json) : Decoded Execution := do
  let id ← value.requiredText "id"
  let identityId ← value.requiredText "identity_id"
  let intent ← value.requiredText "intent"
  let status ← ExecutionStatus.ofJson (← value.required "status")
  let startTime ← timeField value "start_time"
  let endTime ← optionalTimeField value "end_time"
  let podName ← value.optionalText "pod_name"
  let nameSpace ← value.requiredText "namespace"
  let model ← value.optionalText "model"
  let tokensUsed ← countField value "tokens_used"
  let errorMessage ← value.optionalText "error_message"
  let metadata := (value.present? "metadata").getD .empty
  let createdAt ← timeField value "created_at"
  let updatedAt ← timeField value "updated_at"
  return { id, identityId, intent, status, startTime, endTime, podName, nameSpace, model
           tokensUsed, errorMessage, metadata, createdAt, updatedAt }

end Execution

end AgentKit
