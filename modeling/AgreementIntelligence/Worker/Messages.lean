import AgreementIntelligence.Lib.Json
import AgreementIntelligence.UuidText

/-! The messages that the worker's two loops take from their queues, and the loops. Reading a body,
`json.loads`, and the text of a value, `str`, are parameters. A delivery is read outside the `try`
of a loop, handled inside. -/

namespace AgreementIntelligence.Worker
open Identity Lib Json

/-- Why receiving a message raises. -/
inductive Raised where
  | decode
  | attribute
  | missing (key : String)
  | badUuid (text : String)
  | tooManyDigits
  deriving DecidableEq, Repr

structure Texts (φ : Type) where
  loads : String → Option (Json φ)
  str : Json φ → String
  str_string : ∀ text, str (.string text) = text
  str_null : str .null = "None"

/-- A message of the queue. Of its attributes `SentTimestamp` counts where it is a text. -/
structure Delivery where
  body : String
  receiptHandle : String
  messageAttributes : List (String × List (String × String))
  sentTimestamp : Option String
  deriving DecidableEq, Repr

structure ProcessingMessage where
  jobId : Uuid
  organizationId : Uuid
  workspaceId : Uuid
  receiptHandle : String
  traceHeaders : List (String × String)
  queueAgeMs : Option Int
  messageType : String
  deletionId : Option Uuid
  deriving DecidableEq, Repr

structure WorkflowMessage where
  eventId : Uuid
  receiptHandle : String
  organizationId : Uuid
  workspaceId : Uuid
  deriving DecidableEq, Repr

def isDecimalDigit (c : Char) : Bool :=
  (48 ≤ c.toNat && c.toNat ≤ 57) ||
    UuidText.decimalZeros.any fun base => base ≤ c.toNat ∧ c.toNat < base + 10

/-- `text.isdecimal()` -/
def isDecimal (text : String) : Bool :=
  text ≠ "" && text.toList.all isDecimalDigit

/-- `int(text)`, for a text of decimal digits. -/
def decimalValue (text : String) : Nat :=
  text.toList.foldl (fun value c => 10 * value + (UuidText.digit? c).getD 0) 0

/-- The digits up to which `int` reads a text. -/
def maxDigits : Nat := 4300

/-- `_queue_age_ms` -/
def queueAgeMs (delivery : Delivery) (now : Int) : Except Raised (Option Int) :=
  match delivery.sentTimestamp with
  | none => .ok none
  | some sentAt =>
    if !isDecimal sentAt then .ok none
    else if maxDigits < sentAt.length then .error .tooManyDigits
    else .ok (some (max 0 (now - decimalValue sentAt)))

def traceHeaders (delivery : Delivery) : List (String × String) :=
  delivery.messageAttributes.filterMap fun item =>
    if item.1 ∈ ["traceparent", "tracestate"] then
      (item.2.lookup "StringValue").map (item.1, ·)
    else none

section Receivers
variable {φ : Type} (texts : Texts φ)

/-- The items of the body, which must be an object. -/
def readFields (body : String) : Except Raised (List (String × Json φ)) :=
  match texts.loads body with
  | none => .error .decode
  | some (.object fields) => .ok fields
  | some _ => .error .attribute

/-- `UUID(text)` -/
def readUuid (text : String) : Except Raised Uuid :=
  match UuidText.parse? text with
  | none => .error (.badUuid text)
  | some value => .ok value

/-- `UUID(str(body[key]))` -/
def uuidAt (fields : List (String × Json φ)) (key : String) : Except Raised Uuid :=
  match fields.lookup key with
  | none => .error (.missing key)
  | some value => readUuid (texts.str value)

/-- `str(body.get("message_type", "processing"))` -/
def messageType (fields : List (String × Json φ)) : String :=
  ((fields.lookup "message_type").map texts.str).getD "processing"

/-- The deletion that the message is about, where it is about one. -/
def readDeletionId (fields : List (String × Json φ)) : Except Raised (Option Uuid) :=
  if messageType texts fields = "agreement_deletion" then
    (uuidAt texts fields "deletion_id").map some
  else .ok none

/-- `str(body.get("job_id", deletion_id))` -/
def jobText (fields : List (String × Json φ)) (deletionId : Option Uuid) : String :=
  match fields.lookup "job_id", deletionId with
  | some value, _ => texts.str value
  | none, some id => id.str
  | none, none => texts.str .null

/-- `SQSProcessingMessageReceiver.receive`, for a message and the clock in milliseconds. -/
def receiveProcessing (delivery : Delivery) (now : Int) :
    Except Raised (Option ProcessingMessage) := do
  let fields ← readFields texts delivery.body
  let deletionId ← readDeletionId texts fields
  let jobId ← readUuid (jobText texts fields deletionId)
  let organizationId ← uuidAt texts fields "organization_id"
  let workspaceId ← uuidAt texts fields "workspace_id"
  let age ← queueAgeMs delivery now
  return some
    { jobId, organizationId, workspaceId, deletionId
      receiptHandle := delivery.receiptHandle
      traceHeaders := traceHeaders delivery
      queueAgeMs := age
      messageType := messageType texts fields }

/-- `SQSWorkflowMessageReceiver.receive`, for a message. -/
def receiveWorkflow (delivery : Delivery) : Except Raised (Option WorkflowMessage) := do
  let fields ← readFields texts delivery.body
  match fields.lookup "kind" with
  | some (.string "review-workflow") =>
    let eventId ← uuidAt texts fields "event_id"
    let organizationId ← uuidAt texts fields "organization_id"
    let workspaceId ← uuidAt texts fields "workspace_id"
    return some { eventId, organizationId, workspaceId, receiptHandle := delivery.receiptHandle }
  | _ => return none

end Receivers

/-! The loops. A poll is what one round finds: a message or none, the clock, and whether the
processor raises if it is called. -/

structure Poll where
  delivery : Option Delivery
  now : Int
  fails : Bool
  deriving DecidableEq, Repr

inductive Event (μ : Type) where
  | idle
  | skipped (message : μ)
  | acknowledged (message : μ)
  deriving DecidableEq, Repr

/-- What the loop has done until the stop event is set, or until something raises outside its
`try`. -/
structure Outcome (μ : Type) where
  events : List (Event μ)
  raised : Option Raised
  deriving DecidableEq, Repr

section Loops
variable {μ : Type} (receive : Delivery → Int → Except Raised (Option μ))
  (handles : μ → Bool → Bool)

def runLoop : List Poll → Outcome μ
  | [] => ⟨[], none⟩
  | poll :: rest =>
    match poll.delivery with
    | none => ⟨.idle :: (runLoop rest).events, (runLoop rest).raised⟩
    | some delivery =>
      match receive delivery poll.now with
      | .error raised => ⟨[], some raised⟩
      | .ok none => ⟨.idle :: (runLoop rest).events, (runLoop rest).raised⟩
      | .ok (some message) =>
        let event := if handles message poll.fails then .acknowledged message else .skipped message
        ⟨event :: (runLoop rest).events, (runLoop rest).raised⟩

end Loops

/-- What the processing loop does with a message inside its `try`, with or without a processor of
deletions; `fails` when the processor raises. -/
def handlesProcessing (deletions : Bool) (message : ProcessingMessage) (fails : Bool) : Bool :=
  if message.messageType = "agreement_deletion" then
    deletions && message.deletionId.isSome && !fails
  else !fails

def handlesWorkflow (_ : WorkflowMessage) (fails : Bool) : Bool :=
  !fails

section Worker
variable {φ : Type} (texts : Texts φ)

/-- `run_processing_loop` -/
def runProcessingLoop (deletions : Bool) (polls : List Poll) : Outcome ProcessingMessage :=
  runLoop (receiveProcessing texts) (handlesProcessing deletions) polls

/-- `run_workflow_loop` -/
def runWorkflowLoop (polls : List Poll) : Outcome WorkflowMessage :=
  runLoop (fun delivery _ => receiveWorkflow texts delivery) handlesWorkflow polls

end Worker

end AgreementIntelligence.Worker
