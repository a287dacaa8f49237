import AgreementIntelligence.Evidence.Retrieval
import AgreementIntelligence.Lib.Results
import AgreementIntelligence.UuidText

/-! The turns of a question thread as they are stored and read again. What a row holds may have
any shape; a reader skips some malformed parts and raises at others. -/

namespace AgreementIntelligence.Evidence
open Identity Lib.Json Lib.Dict Lib.Results

structure QuestionTurn where
  id : Uuid
  question : String
  answer : GroundedAnswer
  createdAt : Nat
  citationSources : List (String × CitationSource)

structure QuestionTurnRecord (φ : Type) where
  id : Uuid
  question : String
  answerStatus : String
  answerMessage : String
  claims : Json φ
  retrievalProvenance : Json φ
  createdAt : Nat

/-- What reading a row raises. -/
inductive DecodeError where
  | typeError
  | attributeError
  | keyError (key : String)
  deriving DecidableEq, Repr

variable {φ : Type}

section Reading

/-- The items of `for item in value`: of an object its keys, of a text its characters. -/
def iterate : Json φ → Except DecodeError (List (Json φ))
  | .array items => .ok items
  | .object fields => .ok (fields.map fun field => .string field.1)
  | .string text => .ok (text.toList.map fun c => .string (String.singleton c))
  | _ => .error .typeError

/-- `fields[key]` -/
def item (fields : List (String × Json φ)) (key : String) : Except DecodeError (Json φ) :=
  match fields.lookup key with
  | none => .error (.keyError key)
  | some value => .ok value

/-- `str(value)`; how a value that is no text is shown is a parameter. -/
def showText (shown : Json φ → String) : Json φ → String
  | .string text => text
  | other => shown other

variable (shown : Json φ → String)

/-- A citation of a stored claim; what is no object is skipped. -/
def citationFromPayload : Json φ → Except DecodeError (Option Citation)
  | .object citation => do
    let anchorId ← item citation "anchor_id"
    let supportingQuote ← item citation "supporting_quote"
    .ok (some ⟨showText shown anchorId, showText shown supportingQuote⟩)
  | _ => .ok none

/-- A claim of a stored turn; what is no object with a text is skipped. -/
def claimFromPayload : Json φ → Except DecodeError (Option GroundedClaim)
  | .object payload =>
    match get payload "text" with
    | .string text => do
      let listed ← iterate ((payload.lookup "citations").getD (.array []))
      let citations ← listed.mapM (citationFromPayload shown)
      .ok (some ⟨text, citations.filterMap id⟩)
    | _ => .ok none
  | _ => .ok none

def claimsFromPayload (claims : Json φ) : Except DecodeError (List GroundedClaim) := do
  let payloads ← iterate claims
  let found ← payloads.mapM (claimFromPayload shown)
  .ok (found.filterMap id)

end Reading

section Provenance

def blockingReasons : List String :=
  ["unknown_anchor_id", "prompt_exfiltration_request", "encoded_exfiltration_request",
    "tool_or_write_action_request"]

def reviewReasons : List String := ["instruction_override_marker"]

def textItem : Json φ → Option String
  | .string text => some text
  | _ => none

/-- `status in {"allow", "review", "block"}`, which a value that cannot be hashed raises at. -/
def guardrailStatus : Json φ → Except DecodeError (Option GuardrailStatus)
  | .string "allow" => .ok (some .allow)
  | .string "review" => .ok (some .review)
  | .string "block" => .ok (some .block)
  | .array _ => .error .typeError
  | .object _ => .error .typeError
  | _ => .ok none

/-- The reasons that a status may stand with. -/
def reasonsFit (status : GuardrailStatus) (reasons : List String) : Bool :=
  match status with
  | .allow => reasons = []
  | .review => reasons ≠ [] && reasons.all (· ∈ reviewReasons)
  | .block => reasons.any (· ∈ blockingReasons)

/-- `_guardrail_decision_from_payload`, from the version on. -/
def guardrailDecisionFrom (value : List (String × Json φ)) :
    Except DecodeError (Option GuardrailDecision) :=
  match get value "policy_version" with
  | .string "untrusted-evidence.v1" => do
    let status ← guardrailStatus (get value "status")
    match status, get value "reason_codes" with
    | some status, .array listed =>
      let reasons := listed.filterMap textItem
      if reasons.length = listed.length ∧ reasons.Nodup ∧
          (∀ reason ∈ reasons, reason ∈ blockingReasons ++ reviewReasons) ∧
          reasonsFit status reasons = true then
        .ok (some ⟨status, reasons, "untrusted-evidence.v1"⟩)
      else .ok none
    | _, _ => .ok none
  | _ => .ok none

/-- `_guardrail_decision_from_payload` -/
def guardrailDecisionFromPayload (payload : List (String × Json φ)) :
    Except DecodeError (Option GuardrailDecision) :=
  match get payload "guardrail" with
  | .object value =>
    if hasKeys value ["policy_version", "status", "reason_codes"] then guardrailDecisionFrom value
    else .ok none
  | _ => .ok none

/-- One source of `_citation_sources_from_payload`. -/
def citationSourceFrom (rawSource : Json φ) : Option CitationSource :=
  match rawSource with
  | .object source =>
    match get source "agreement_id", get source "source_checksum", get source "source_version" with
    | .string agreementId, .string sourceChecksum, .string sourceVersion =>
      (UuidText.parse? agreementId).map fun id => ⟨id, sourceChecksum, sourceVersion⟩
    | _, _, _ => none
  | _ => none

/-- `_citation_sources_from_payload` -/
def citationSourcesFromPayload (payload : List (String × Json φ)) :
    List (String × CitationSource) :=
  match get payload "citation_sources" with
  | .object rawSources => rawSources.filterMap fun raw =>
      (citationSourceFrom raw.2).map fun source => (raw.1, source)
  | _ => []

end Provenance

/-- `_answer_status` -/
def answerStatusFrom (value : String) : AnswerStatus :=
  if value = "answered" then .answered
  else if value = "conflicting_evidence" then .conflictingEvidence
  else if value = "partial" then .partiallyAnswered
  else if value = "model_unavailable" then .modelUnavailable
  else .insufficientEvidence

/-- `record.retrieval_provenance.get(…)` wants an object. -/
def provenanceOf (record : QuestionTurnRecord φ) : Except DecodeError (List (String × Json φ)) :=
  match record.retrievalProvenance with
  | .object payload => .ok payload
  | _ => .error .attributeError

/-- The turn of a row whose claims and guardrail decision have been read. -/
def turnOf (record : QuestionTurnRecord φ) (claims : List GroundedClaim)
    (provenance : List (String × Json φ)) (decision : Option GuardrailDecision) : QuestionTurn :=
  match decision with
  | none =>
    { id := record.id
      question := record.question
      answer := ⟨.insufficientEvidence, [], "Prior evidence provenance is unavailable.",
        ⟨.review, ["invalid_persisted_guardrail_provenance"], "untrusted-evidence.v1"⟩⟩
      createdAt := record.createdAt
      citationSources := [] }
  | some decision =>
    { id := record.id
      question := record.question
      answer :=
        if decision.status = .allow then
          ⟨answerStatusFrom record.answerStatus, claims, record.answerMessage, decision⟩
        else ⟨.insufficientEvidence, [], "Prior evidence requires review.", decision⟩
      createdAt := record.createdAt
      citationSources := citationSourcesFromPayload provenance }

/-- `_turn_from_record` -/
def turnFromRecord (shown : Json φ → String) (record : QuestionTurnRecord φ) :
    Except DecodeError QuestionTurn := do
  let claims ← claimsFromPayload shown record.claims
  let provenance ← provenanceOf record
  let decision ← guardrailDecisionFromPayload provenance
  .ok (turnOf record claims provenance decision)

section Writing

/-- `_claims_payload` -/
def claimsPayload (answer : GroundedAnswer) : Json φ :=
  .array (answer.claims.map fun claim => .object
    [("text", .string claim.text),
      ("citations", .array (claim.citations.map fun citation => .object
        [("anchor_id", .string citation.anchorId),
          ("supporting_quote", .string citation.supportingQuote)]))])

/-- `_citation_sources_payload` -/
def citationSourcesPayload (sources : List (String × CitationSource)) : Json φ :=
  .object (sources.map fun entry => (entry.1, .object
    [("agreement_id", .string entry.2.agreementId.str),
      ("source_checksum", .string entry.2.sourceChecksum),
      ("source_version", .string entry.2.sourceVersion)]))

/-- `GuardrailDecision.provenance` -/
def guardrailProvenance (decision : GuardrailDecision) : Json φ :=
  .object
    [("policy_version", .string decision.policyVersion),
      ("status", .string decision.status.value),
      ("reason_codes", .array (decision.reasonCodes.map .string))]

def answerStatusValue : AnswerStatus → String
  | .answered => "answered"
  | .insufficientEvidence => "insufficient_evidence"
  | .conflictingEvidence => "conflicting_evidence"
  | .partiallyAnswered => "partial"
  | .modelUnavailable => "model_unavailable"

/-- The row that `ask` adds for a turn. -/
def recordOf (turn : QuestionTurn) (resultCount : Nat) : QuestionTurnRecord φ where
  id := turn.id
  question := turn.question
  answerStatus := answerStatusValue turn.answer.status
  answerMessage := turn.answer.message
  claims := claimsPayload turn.answer
  retrievalProvenance := .object
    [("result_count", .int resultCount),
      ("citation_sources", citationSourcesPayload turn.citationSources),
      ("guardrail", guardrailProvenance turn.answer.guardrailDecision)]
  createdAt := turn.createdAt

end Writing

end AgreementIntelligence.Evidence
