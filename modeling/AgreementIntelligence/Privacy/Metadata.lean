import AgreementIntelligence.Lib.Casing
import AgreementIntelligence.Lib.JsonPaths
import AgreementIntelligence.Lib.Text

/-! The classification of the keys of emitted metadata, and the two functions that make metadata
safe: one puts a mark in place of what may not be emitted, the other leaves it out. -/

namespace AgreementIntelligence.Privacy
open Lib Json

/-- `REDACTED` -/
def redactedMark : String := "[redacted]"

inductive DataClass where
  | prohibited
  | restricted
  | operational
  deriving DecidableEq, Repr

def prohibitedKeys : List String :=
  ["agreement_text", "api_key", "authorization", "credential", "credentials", "document_text",
    "email", "first_name", "last_name", "password", "prompt", "provider.output", "provider_output",
    "raw_text", "secret", "subject", "text", "username"]

def operationalKeys : List String :=
  ["archived", "application_log_retention_days", "attempt_count", "audit_retention_days",
    "duration_ms", "duration", "event", "input_tokens", "guardrail_policy_version",
    "guardrail_reason_codes", "guardrail_status", "immutable_business_audit_auto_delete",
    "latency_ms", "level", "limit", "message", "method", "model", "model_config_version",
    "model_configuration_version", "operation", "outcome", "output_tokens", "path",
    "processing_state", "query_present", "reason_code", "service", "state", "status", "status_code",
    "cost_usd", "endpoint_kind", "evaluation_outcome", "queue_age_ms", "provider",
    "retrieval_result_count", "retry_count", "tool_name", "workflow_state",
    "telemetry_retention_days", "token_count", "total_tokens", "traceparent"]

def allowedRestrictedKeys : List String :=
  ["agreement_id", "citation_id", "correlation_id", "job_id", "organization_id",
    "processing_job_id", "span_id", "tenant_id", "trace_id", "workflow_event_id", "workspace_id"]

def allowedLogMessages : List String :=
  ["processing job queued", "processing message handling failed", "request completed",
    "review workflow queued", "worker started", "worker stopped"]

def approvedReasonCodes : List String :=
  ["business_exception", "contractual_requirement", "jurisdictional_requirement", "risk_exception",
    "other"]

/-- `text.endswith(suffix)` -/
def endsWith (text suffix : String) : Bool :=
  suffix.toList.isSuffixOf text.toList

/-- `text.rsplit(".", 1)[-1]` -/
def lastComponent (text : String) : String :=
  String.ofList (text.toList.reverse.takeWhile (· ≠ '.')).reverse

section Classification
variable (table : Casing.CaseTable)

/-- `_normalize_key` -/
def normalizeKey (key : String) : String :=
  table.casefold (String.ofList
    ((Text.strip key).toList.map fun c => if c = '-' then '_' else c))

def leafName (key : String) : String :=
  lastComponent (normalizeKey table key)

def classifyKey (key : String) : DataClass :=
  let normalized := normalizeKey table key
  let leaf := leafName table key
  if normalized ∈ prohibitedKeys ∨ leaf ∈ prohibitedKeys ∨
      ["_password", "_secret", "_token"].any (endsWith leaf) then .prohibited
  else if normalized ∈ operationalKeys ∨ leaf ∈ operationalKeys then .operational
  else .restricted

def isAllowedRestricted (key : String) : Bool :=
  normalizeKey table key ∈ allowedRestrictedKeys || leafName table key ∈ allowedRestrictedKeys

/-- What the code asks of the key of a scalar. -/
def allows (key : String) : Bool :=
  classifyKey table key = .operational || isAllowedRestricted table key

end Classification

/-- `_join_key` -/
def joinKey (parentKey key : String) : String :=
  if parentKey = "" then key else parentKey ++ "." ++ key

section Nodes
variable {φ : Type} (table : Casing.CaseTable)

/-- `_unsafe_scalar` -/
def unsafeScalar (key : String) (value : Json φ) : Bool :=
  if leafName table key = "reason_code" then
    match value with
    | .string text => text ∉ approvedReasonCodes
    | _ => true
  else
    match value with
    | .string text =>
      '@' ∈ text.toList || (leafName table key = "message" && text ∉ allowedLogMessages)
    | _ => false

mutual
/-- `_redact_node` -/
def redactNode (parentKey : String) : Json φ → Json φ
  | .object fields => .object (redactFields parentKey fields)
  | .array items => .array (redactItems parentKey items)
  | node => node

def redactFields (parentKey : String) : List (String × Json φ) → List (String × Json φ)
  | [] => []
  | (key, value) :: rest =>
    let dottedKey := joinKey parentKey key
    let shown :=
      if classifyKey table dottedKey = .prohibited then .string redactedMark
      else if isContainer value then redactNode dottedKey value
      else if allows table dottedKey then
        if unsafeScalar table dottedKey value then .string redactedMark else value
      else .string redactedMark
    (key, shown) :: redactFields parentKey rest

def redactItems (parentKey : String) : List (Json φ) → List (Json φ)
  | [] => []
  | item :: rest =>
    let shown :=
      if isContainer item then redactNode parentKey item
      else if allows table parentKey && !unsafeScalar table parentKey item then item
      else .string redactedMark
    shown :: redactItems parentKey rest
end

/-- `redact_mapping` -/
def redactMapping (values : List (String × Json φ)) : List (String × Json φ) :=
  redactFields table "" values

mutual
/-- `_safe_node` -/
def safeNode (parentKey : String) : Json φ → Json φ
  | .object fields => .object (safeFields parentKey fields)
  | .array items => .array (safeItems parentKey items)
  | node => node

def safeFields (parentKey : String) : List (String × Json φ) → List (String × Json φ)
  | [] => []
  | (key, value) :: rest =>
    let dottedKey := joinKey parentKey key
    if classifyKey table dottedKey = .prohibited then safeFields parentKey rest
    else if isContainer value then
      let child := safeNode dottedKey value
      if isHollow child then safeFields parentKey rest
      else (key, child) :: safeFields parentKey rest
    else if allows table dottedKey && !unsafeScalar table dottedKey value then
      (key, value) :: safeFields parentKey rest
    else safeFields parentKey rest

def safeItems (parentKey : String) : List (Json φ) → List (Json φ)
  | [] => []
  | item :: rest =>
    if isContainer item then
      let child := safeNode parentKey item
      if isHollow child then safeItems parentKey rest
      else child :: safeItems parentKey rest
    else if allows table parentKey && !unsafeScalar table parentKey item then
      item :: safeItems parentKey rest
    else safeItems parentKey rest
end

/-- `safe_event_metadata` -/
def safeEventMetadata (values : List (String × Json φ)) : List (String × Json φ) :=
  safeFields table "" values

end Nodes

end AgreementIntelligence.Privacy
