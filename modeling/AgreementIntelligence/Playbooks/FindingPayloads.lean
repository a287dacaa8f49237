import AgreementIntelligence.Playbooks.Evaluation

/-! What the worker stores with a finding: a risk payload, whose explanation a model may write, and
the language that a rule suggests, which a model may compare with the clause. A model is a function
that may raise; of what it answers only a text with citations of the finding is taken. The API reads
both back and shows something general, or nothing, where it would not have stored the same. -/

namespace AgreementIntelligence.Playbooks
open Identity Lib.Casing Lib.Json Lib.Text Lib.Results

/-- Floating-point numbers with the bounds of a confidence; a number that another one is compared
with is the same as itself. -/
structure RiskFloats (φ : Type) extends Floats φ where
  /-- `1.0` -/
  one : φ
  eq : φ → φ → Bool
  eq_zero : eq zero zero = true
  eq_one : eq one one = true
  eq_of_lt : ∀ a b, lt a b = true → eq a a = true ∧ eq b b = true

def FindingResult.value : FindingResult → String
  | .satisfied => "satisfied"
  | .missing => "missing"
  | .nonCompliant => "non_compliant"
  | .needsReview => "needs_review"

/-- `FindingResult(value)` -/
def FindingResult.ofValue? (value : String) : Option FindingResult :=
  [FindingResult.satisfied, .missing, .nonCompliant, .needsReview].find? fun result =>
    result.value = value

def Severity.value : Severity → String
  | .low => "low"
  | .medium => "medium"
  | .high => "high"
  | .critical => "critical"

variable {φ : Type}

/-- What a model answers to a request, `none` where the call raises. -/
abbrev Model (ρ φ : Type) := ρ → Option (Json φ)

/-! Risk payloads -/

def riskPayloadVersion : String := "playbook-risk.v1"

structure RiskExplanationRequest (φ : Type) where
  ruleSeverity : String
  ruleRationale : String
  deterministicResult : String
  confidence : φ
  citationIds : List String
  citedClauseText : Option String

structure RiskPayload (φ : Type) where
  version : String
  severity : String
  riskRationale : String
  riskConfidence : φ
  reviewStatus : String
  citationIds : List String
  modelExplanation : Option String
  deriving DecidableEq, Repr

def text? : Json φ → Option String
  | .string text => some text
  | _ => none

/-- `grounded_model_text` -/
def groundedModelText (response : Json φ) (textKey : String) (allowedCitationIds : List String) :
    Option String :=
  match response with
  | .object fields =>
    if !hasKeys fields [textKey, "citation_ids"] then none
    else
      match get fields textKey, get fields "citation_ids" with
      | .string rationale, .array items =>
        if strip rationale = "" then none
        else
          match items.mapM text? with
          | none => none
          | some citationIds =>
            if citationIds = [] || !citationIds.all (· ∈ allowedCitationIds) then none
            else some (strip rationale)
      | _, _ => none
  | _ => none

/-- `_model_explanation` -/
def modelExplanation (request : RiskExplanationRequest φ)
    (explainer : Option (Model (RiskExplanationRequest φ) φ)) : Option String :=
  match explainer with
  | none => none
  | some explain =>
    if request.citationIds = [] || request.citedClauseText.getD "" = "" then none
    else
      match explain request with
      | none => none
      | some response => groundedModelText response "rationale" request.citationIds

/-- `min(1.0, max(0.0, value))` -/
def clipped (floats : RiskFloats φ) (value : φ) : φ :=
  let low := if floats.lt floats.zero value then value else floats.zero
  if floats.lt low floats.one then low else floats.one

def reviewStatus (result : String) : String :=
  if result ∈ ["missing", "non_compliant", "needs_review"] then "review_required" else "complete"

def generalRationale : String :=
  "The deterministic finding requires reviewer assessment."

/-- `explain_risk` -/
def explainRisk (floats : RiskFloats φ) (request : RiskExplanationRequest φ)
    (explainer : Option (Model (RiskExplanationRequest φ) φ)) : RiskPayload φ where
  version := riskPayloadVersion
  severity := request.ruleSeverity
  riskRationale := if strip request.ruleRationale = "" then generalRationale
    else strip request.ruleRationale
  riskConfidence := clipped floats request.confidence
  reviewStatus := reviewStatus request.deterministicResult
  citationIds := request.citationIds
  modelExplanation := modelExplanation request explainer

/-! Fallback suggestions -/

def fallbackSuggestionPayloadVersion : String := "playbook-fallback-suggestion.v1"

def clauseDiffersFromApprovedPosition : String := "clause_differs_from_approved_position"

/-- `_COMPARISON_RENDERINGS` -/
def comparisonRenderings : List (String × String) :=
  [(clauseDiffersFromApprovedPosition, "The cited clause differs from the approved position.")]

structure FallbackSuggestionRequest where
  ruleId : String
  playbookVersionId : String
  findingResult : String
  citationIds : List String
  citedClauseText : Option String
  preferredLanguage : Option String
  fallbackLanguage : Option String

structure FallbackSuggestion where
  version : String
  ruleId : String
  playbookVersionId : String
  suggestedLanguage : Option String
  reviewRecommendation : String
  citationIds : List String
  comparisonKind : Option String
  comparison : Option String
  aiGenerated : Bool
  deriving DecidableEq, Repr

/-- `_approved_language` -/
def approvedLanguage (request : FallbackSuggestionRequest) : Option String :=
  [request.fallbackLanguage, request.preferredLanguage].findSome? fun language =>
    language.filter fun text => strip text ≠ ""

/-- `bounded_comparison_kind` -/
def boundedComparisonKind (request : FallbackSuggestionRequest)
    (comparisonKind citationIds : Json φ) : Option String :=
  (groundedModelText (.object [("comparison_kind", comparisonKind), ("citation_ids", citationIds)])
    "comparison_kind" request.citationIds).filter fun kind =>
      kind ∈ comparisonRenderings.map Prod.fst

/-- `_comparison_kind` -/
def comparisonKind (request : FallbackSuggestionRequest)
    (comparator : Option (Model FallbackSuggestionRequest φ)) : Option String :=
  match comparator with
  | none => none
  | some compare =>
    if request.citationIds = [] || request.citedClauseText.getD "" = "" then none
    else
      match compare request with
      | some (.object fields) =>
        boundedComparisonKind request (get fields "comparison_kind") (get fields "citation_ids")
      | _ => none

/-- `render_comparison` -/
def renderComparison (comparisonKind : Option String) : Option String :=
  comparisonKind.bind fun kind => comparisonRenderings.lookup kind

/-- `_suggestion` -/
def suggestion (request : FallbackSuggestionRequest) (approved comparisonKind : Option String) :
    FallbackSuggestion where
  version := fallbackSuggestionPayloadVersion
  ruleId := request.ruleId
  playbookVersionId := request.playbookVersionId
  suggestedLanguage := approved
  reviewRecommendation :=
    if approved.isSome then "Review the cited clause against the approved fallback language."
    else "No approved language is available; reviewer assessment is required."
  citationIds := request.citationIds
  comparisonKind := comparisonKind
  comparison := renderComparison comparisonKind
  aiGenerated := comparisonKind.isSome

/-- `suggest_fallback` -/
def suggestFallback (request : FallbackSuggestionRequest)
    (comparator : Option (Model FallbackSuggestionRequest φ)) : Option FallbackSuggestion :=
  if request.findingResult ∉ ["missing", "non_compliant"] then none
  else
    match approvedLanguage request with
    | none => some (suggestion request none none)
    | some language => some (suggestion request (some language) (comparisonKind request comparator))

/-! Findings with their payloads -/

structure EvaluatedFinding (φ : Type) extends Finding φ where
  ruleId : Uuid
  severity : Severity
  risk : RiskPayload φ
  fallbackSuggestions : List FallbackSuggestion

section Worker
variable (floats : RiskFloats φ) (explainer : Option (Model (RiskExplanationRequest φ) φ))
  (comparator : Option (Model FallbackSuggestionRequest φ)) (versionId : Uuid)

/-- `_with_risk_explanation`; no model is asked about a finding that a model has made. -/
def withRiskExplanation (rule : PlaybookRule) (finding : Finding φ)
    (clause : Option (Mapping φ)) : EvaluatedFinding φ :=
  let asked := finding.method = .deterministic
  let sourceText := clause.map fun fields => stringOr (get fields "source_text") ""
  { finding with
    ruleId := rule.id
    severity := rule.severity
    risk := explainRisk floats
      ⟨rule.severity.value, rule.legalRationale, finding.result.value, finding.confidence,
        finding.citationIds, sourceText⟩
      (if asked then explainer else none)
    fallbackSuggestions := (suggestFallback
      ⟨rule.id.str, versionId.str, finding.result.value, finding.citationIds, sourceText,
        rule.preferredLanguage, rule.fallbackLanguage⟩
      (if asked then comparator else none)).toList }

/-- `evaluate_playbook`, with the payloads. -/
def evaluateWithPayloads (casing : CaseTable) (assessor : Option (SemanticAssessor φ))
    (analysis : Mapping φ) :
    List PlaybookRule → Except EvaluationError (List (EvaluatedFinding φ))
  | [] => .ok []
  | rule :: rest => do
    let found ← deterministicFinding floats.toFloats casing rule
      (workerCandidates casing rule analysis)
    let findings ← evaluateWithPayloads casing assessor analysis rest
    .ok (withRiskExplanation floats explainer comparator versionId rule
      (assessed floats.toFloats assessor rule found) found.2 :: findings)

end Worker

/-! Rows -/

structure PlaybookFindingRecord (φ : Type) where
  ruleId : Uuid
  result : String
  severity : String
  confidence : φ
  citationIds : List String
  riskPayload : Json φ
  fallbackSuggestions : Json φ

def texts (items : List String) : Json φ :=
  .array (items.map .string)

def nullable (text : Option String) : Json φ :=
  text.elim .null .string

/-- `_risk_payload_value` -/
def riskPayloadValue (payload : RiskPayload φ) : Json φ :=
  .object [("version", .string payload.version), ("severity", .string payload.severity),
    ("risk_rationale", .string payload.riskRationale),
    ("risk_confidence", .float payload.riskConfidence),
    ("review_status", .string payload.reviewStatus), ("citation_ids", texts payload.citationIds),
    ("model_explanation", nullable payload.modelExplanation)]

/-- `_fallback_suggestion_value` -/
def fallbackSuggestionValue (suggestion : FallbackSuggestion) : Json φ :=
  .object [("version", .string suggestion.version), ("rule_id", .string suggestion.ruleId),
    ("playbook_version_id", .string suggestion.playbookVersionId),
    ("suggested_language", nullable suggestion.suggestedLanguage),
    ("review_recommendation", .string suggestion.reviewRecommendation),
    ("citation_ids", texts suggestion.citationIds),
    ("comparison_kind", nullable suggestion.comparisonKind),
    ("comparison", nullable suggestion.comparison), ("ai_generated", .bool suggestion.aiGenerated)]

/-- The row that the worker inserts. -/
def EvaluatedFinding.record (finding : EvaluatedFinding φ) : PlaybookFindingRecord φ where
  ruleId := finding.ruleId
  result := finding.result.value
  severity := finding.severity.value
  confidence := finding.confidence
  citationIds := finding.citationIds
  riskPayload := riskPayloadValue finding.risk
  fallbackSuggestions := .array (finding.fallbackSuggestions.map fallbackSuggestionValue)

/-! The API -/

/-- How the library that validates responses reads a value as one of a type. -/
structure Validation (φ : Type) where
  text : Json φ → Option String
  number : Json φ → Option φ
  flag : Json φ → Option Bool
  uuid : Json φ → Option Uuid
  text_string : ∀ value, text (.string value) = some value
  number_float : ∀ value, number (.float value) = some value
  flag_bool : ∀ value, flag (.bool value) = some value
  uuid_str : ∀ value, uuid (.string value.str) = some value

structure FallbackSuggestionResponse where
  ruleId : Uuid
  playbookVersionId : Uuid
  suggestedLanguage : Option String
  reviewRecommendation : String
  citationIds : List String
  comparisonKind : Option String
  comparison : Option String
  aiGenerated : Bool
  deriving DecidableEq, Repr

section Api
variable (floats : RiskFloats φ) (validation : Validation φ)

namespace Validation

def texts : Json φ → Option (List String)
  | .array items => items.mapM validation.text
  | _ => none

def optional : Json φ → Option (Option String)
  | .null => some none
  | value => (validation.text value).map some

/-- `RiskPayloadResponse.model_validate` -/
def riskPayload : Json φ → Option (RiskPayload φ)
  | .object fields =>
    if !hasKeys fields ["version", "severity", "risk_rationale", "risk_confidence", "review_status",
      "citation_ids", "model_explanation"] then none
    else do
      let version ← (validation.text (get fields "version")).filter (· = riskPayloadVersion)
      let severity ← validation.text (get fields "severity")
      let riskRationale ← validation.text (get fields "risk_rationale")
      let riskConfidence ← validation.number (get fields "risk_confidence")
      let reviewStatus ← validation.text (get fields "review_status")
      let citationIds ← validation.texts (get fields "citation_ids")
      let modelExplanation ← validation.optional (get fields "model_explanation")
      some { version, severity, riskRationale, riskConfidence, reviewStatus, citationIds,
             modelExplanation }
  | _ => none

/-- `FallbackSuggestionResponse.model_validate`; the kind of comparison may be left out. -/
def fallbackSuggestion : Json φ → Option FallbackSuggestionResponse
  | .object fields =>
    let required := ["version", "rule_id", "playbook_version_id", "suggested_language",
      "review_recommendation", "citation_ids", "comparison", "ai_generated"]
    if !hasKeys fields required && !hasKeys fields ("comparison_kind" :: required) then none
    else do
      let _ ← (validation.text (get fields "version")).filter
        (· = fallbackSuggestionPayloadVersion)
      let ruleId ← validation.uuid (get fields "rule_id")
      let playbookVersionId ← validation.uuid (get fields "playbook_version_id")
      let suggestedLanguage ← validation.optional (get fields "suggested_language")
      let reviewRecommendation ← validation.text (get fields "review_recommendation")
      let citationIds ← validation.texts (get fields "citation_ids")
      let comparisonKind ← (validation.optional (get fields "comparison_kind")).filter fun kind =>
        kind.all (· = clauseDiffersFromApprovedPosition)
      let comparison ← validation.optional (get fields "comparison")
      let aiGenerated ← validation.flag (get fields "ai_generated")
      some { ruleId, playbookVersionId, suggestedLanguage, reviewRecommendation, citationIds,
             comparisonKind, comparison, aiGenerated }
  | _ => none

end Validation

/-- `_fallback_risk_payload` -/
def fallbackRiskPayload (finding : PlaybookFindingRecord φ) : RiskPayload φ where
  version := riskPayloadVersion
  severity := finding.severity
  riskRationale := generalRationale
  riskConfidence := clipped floats finding.confidence
  reviewStatus := reviewStatus finding.result
  citationIds := finding.citationIds
  modelExplanation := none

/-- `_risk_response` -/
def riskResponse (finding : PlaybookFindingRecord φ) : RiskPayload φ :=
  let fallback := fallbackRiskPayload floats finding
  match validation.riskPayload finding.riskPayload with
  | none => fallback
  | some risk =>
    if risk.severity ≠ fallback.severity ||
      !floats.eq risk.riskConfidence fallback.riskConfidence ||
      risk.reviewStatus ≠ fallback.reviewStatus || risk.citationIds ≠ fallback.citationIds then
      fallback
    else risk

/-- `_fallback_suggestion_responses` -/
def fallbackSuggestionResponses (finding : PlaybookFindingRecord φ) (playbookVersionId : Uuid)
    (rule : Option PlaybookRule) : List FallbackSuggestionResponse :=
  match rule, finding.fallbackSuggestions, FindingResult.ofValue? finding.result with
  | some rule, .array [stored], some result =>
    let request : FallbackSuggestionRequest := ⟨rule.id.str, playbookVersionId.str, result.value,
      finding.citationIds, none, rule.preferredLanguage, rule.fallbackLanguage⟩
    match suggestFallback (φ := φ) request none, validation.fallbackSuggestion stored with
    | some expected, some suggestion =>
      if suggestion.ruleId ≠ finding.ruleId ||
        suggestion.playbookVersionId ≠ playbookVersionId ||
        suggestion.suggestedLanguage ≠ expected.suggestedLanguage ||
        suggestion.reviewRecommendation ≠ expected.reviewRecommendation ||
        suggestion.citationIds ≠ expected.citationIds ||
        suggestion.aiGenerated ≠ suggestion.comparisonKind.isSome ||
        suggestion.comparison ≠ renderComparison suggestion.comparisonKind then []
      else if suggestion.comparisonKind.any fun kind =>
          (boundedComparisonKind request (.string kind : Json φ)
            (texts suggestion.citationIds)).isNone then []
      else [suggestion]
    | _, _ => []
  | _, _, _ => []

end Api

end AgreementIntelligence.Playbooks
