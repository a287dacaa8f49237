import AgreementIntelligence.Lib.Dict
import AgreementIntelligence.Lib.Words
import AgreementIntelligence.Playbooks.Evaluation

/-! Validation of what an analysis provider answers: every list has a bound, every item cites
blocks of the document, and every text that is kept stands in a block that it cites. The clock
and the model behind the provider stay outside. -/

namespace AgreementIntelligence.Analysis
open Lib.Casing Lib.Json Lib.Text Lib.Results Playbooks

/-- The numbers and the texts of the platform that an analysis is written with. -/
structure Runtime (φ : Type) extends Floats φ where
  /-- `0.9` -/
  nineTenths : φ
  /-- `1.0` -/
  one : φ
  casing : CaseTable
  /-- `str.lower` -/
  lower : String → String

def maxStringLength : Nat := 4000

def maxClauses : Nat := 100

def maxRisks : Nat := 100

def maxNormalizedFields : Nat := 25

def maxNormalizedFieldNameLength : Nat := 64

def maxCitationAnchors : Nat := 20

def clauseCategories : List String :=
  ["termination", "confidentiality", "governing_law", "liability", "dispute_resolution",
    "other_needs_review"]

def riskSeverities : List String := ["low", "medium", "high", "critical"]

def summaryTypes : List String := ["business", "legal"]

def agreementFamilies : List String :=
  ["client_agreement", "liquidity_provider_agreement", "non_agreement_material",
    "unknown_needs_review"]

/-- What `validate_provider_analysis` raises: its own error with a message, or the
`OverflowError` of `float(value)`. -/
inductive ValidationError where
  | providerOutputValidationError (message : String)
  | overflowError
  deriving DecidableEq, Repr

variable {φ : Type}

structure GatewayProvenance (φ : Type) where
  provider : String
  endpointKind : String
  model : String
  configurationVersion : String
  latencyMs : Int
  inputTokens : Option Int
  outputTokens : Option Int
  totalTokens : Option Int
  costUsd : Option φ
  retryOutcome : String
  fallbackOutcome : String
  safeFailureReason : Option String

/-- What a provider answers, before any check. -/
structure ProviderAnalysis (φ : Type) where
  classification : Json φ
  clauses : Json φ
  risks : Json φ
  summaries : Json φ
  model : Json φ
  inputTokens : Json φ
  outputTokens : Json φ
  latencyMs : Json φ
  gatewayProvenance : Option (GatewayProvenance φ) := none

structure Classification (φ : Type) where
  family : String
  confidence : φ
  rationale : String
  citationAnchorIds : List String

structure NormalizedField where
  name : String
  value : String
  deriving DecidableEq, Repr

structure Clause (φ : Type) where
  category : String
  normalizedFields : List NormalizedField
  sourceExcerpt : String
  confidence : φ
  citationAnchorIds : List String

structure Risk (φ : Type) where
  severity : String
  explanation : String
  affectedCategory : String
  confidence : φ
  citationAnchorIds : List String

structure Summary where
  claim : String
  citationAnchorIds : List String
  deriving DecidableEq, Repr

/-- `Provenance`; its optional keys stand when there is a `gateway`. -/
structure Provenance (φ : Type) where
  model : String
  inputTokens : Option Int
  outputTokens : Option Int
  latencyMs : Int
  gateway : Option (GatewayProvenance φ)

structure ValidatedAnalysis (φ : Type) where
  classification : Classification φ
  clauses : List (Clause φ)
  risks : List (Risk φ)
  summaries : List (String × Summary)
  provenance : Provenance φ

def invalid {α : Type} (message : String) : Except ValidationError α :=
  .error (.providerOutputValidationError message)

section Values

/-- `_mapping` -/
def mapping (value : Json φ) (name : String) : Except ValidationError (Mapping φ) :=
  match value with
  | .object fields => .ok fields
  | _ => invalid ("Invalid " ++ name ++ " structure")

/-- `_list` -/
def list (value : Json φ) (name : String) : Except ValidationError (List (Json φ)) :=
  match value with
  | .array items => .ok items
  | _ => invalid ("Invalid " ++ name ++ " structure")

/-- `_required_keys` -/
def requiredKeys (payload : Mapping φ) (keys : List String) : Except ValidationError Unit :=
  if hasKeys payload keys then .ok ()
  else invalid "Provider response contains invalid fields"

/-- `_string` -/
def string (value : Json φ) (name : String) : Except ValidationError String :=
  match value with
  | .string text =>
    if maxStringLength < text.length then invalid (name ++ " exceeds maximum length") else .ok text
  | _ => invalid ("Invalid " ++ name)

/-- `_material_string` -/
def materialString (value : Json φ) (name : String) : Except ValidationError String := do
  let text ← string value name
  if strip text = "" then invalid ("Invalid " ++ name) else .ok text

/-- `_bounded_collection` -/
def boundedCollection {α : Type} (values : List α) (limit : Nat) (name : String) :
    Except ValidationError Unit :=
  if limit < values.length then invalid ("Too many " ++ name) else .ok ()

/-- `_nonnegative_integer` -/
def nonnegativeInteger (value : Json φ) (name : String) : Except ValidationError Int :=
  match value with
  | .int n => if n < 0 then invalid ("Invalid " ++ name) else .ok n
  | _ => invalid ("Invalid " ++ name)

/-- `_optional_nonnegative_integer` -/
def optionalNonnegativeInteger (value : Json φ) (name : String) :
    Except ValidationError (Option Int) :=
  match value with
  | .null => .ok none
  | other => do
    let n ← nonnegativeInteger other name
    .ok (some n)

/-- `0.0 <= confidence <= 1.0` -/
def boundedConfidence (runtime : Runtime φ) (confidence : φ) : Except ValidationError φ :=
  if runtime.le runtime.zero confidence && runtime.le confidence runtime.one then .ok confidence
  else invalid "Confidence must be between zero and one"

/-- `_confidence` -/
def numericConfidence (runtime : Runtime φ) (value : Json φ) : Except ValidationError φ :=
  match value with
  | .int n =>
    match runtime.ofInt n with
    | none => .error .overflowError
    | some x => boundedConfidence runtime x
  | .float x => boundedConfidence runtime x
  | _ => invalid "Confidence must be a number"

end Values

section Evidence

/-- `_allowed_anchors`, of a dictionary of blocks. -/
def allowedAnchors (anchors : List (String × String)) :
    Except ValidationError (List (String × String)) :=
  if maxCitationAnchors * maxClauses < anchors.length then
    invalid "Too many allowed citation anchors"
  else
    anchors.mapM fun block => do
      let anchor ← materialString (.string block.1 : Json Empty) "citation anchor"
      let text ← materialString (.string block.2 : Json Empty) "requested evidence"
      .ok (anchor, text)

/-- `_citations` -/
def citationAnchors (value : Json φ) (allowed : List (String × String)) :
    Except ValidationError (List String) := do
  let citations ← list value "citation anchors"
  boundedCollection citations maxCitationAnchors "citation anchors"
  let anchorIds ← citations.mapM fun anchor => string anchor "citation anchor"
  if anchorIds.all fun anchorId => anchorId ∈ allowed.map Prod.fst then .ok anchorIds
  else invalid "Provider referenced an unknown citation anchor"

def straightQuote (c : Char) : Char :=
  if c = '’' ∨ c = '‘' then '\'' else c

/-- `_normalized_evidence_text` -/
def normalizedEvidenceText (casing : CaseTable) (value : String) : String :=
  " ".intercalate ((Lib.Words.words ((casing.casefold value).toList.map straightQuote)).map
    String.ofList)

/-- `_require_evidence` -/
def requireEvidence (citationAnchorIds : List String) : Except ValidationError Unit :=
  if citationAnchorIds = [] then invalid "All claims require evidence" else .ok ()

/-- `_grounded_text` -/
def groundedText (casing : CaseTable) (value : Json φ) (name : String)
    (citationAnchorIds : List String) (allowed : List (String × String)) :
    Except ValidationError String := do
  let text ← materialString value name
  requireEvidence citationAnchorIds
  if citationAnchorIds.any fun anchorId =>
      (Lib.Dict.get? allowed anchorId).any fun evidence =>
        contains (normalizedEvidenceText casing evidence) (normalizedEvidenceText casing text) then
    .ok text
  else invalid ("Provider " ++ name ++ " is not supported by cited evidence")

end Evidence

section Items
variable (runtime : Runtime φ)

/-- `_classification` -/
def classification (value : Json φ) (allowed : List (String × String)) :
    Except ValidationError (Classification φ) := do
  let payload ← mapping value "classification"
  requiredKeys payload ["family", "confidence", "rationale", "citation_anchor_ids"]
  let family ← string (get payload "family") "classification family"
  if family ∉ agreementFamilies then invalid "Unsupported agreement family"
  else
    let citations ← citationAnchors (get payload "citation_anchor_ids") allowed
    let confidence ← numericConfidence runtime (get payload "confidence")
    let rationale ← groundedText runtime.casing (get payload "rationale")
      "classification rationale" citations allowed
    .ok ⟨family, confidence, rationale, citations⟩

def startsName (c : Char) : Bool :=
  ('A' ≤ c && c ≤ 'Z') || ('a' ≤ c && c ≤ 'z')

def separatesName (c : Char) : Bool :=
  c = ' ' || c = '_' || c = '-'

def staysInName (c : Char) : Bool :=
  startsName c || ('0' ≤ c && c ≤ '9') || separatesName c

/-- `NORMALIZED_FIELD_NAME_PATTERN.fullmatch(label)` -/
def matchesNamePattern (label : String) : Bool :=
  match label.toList with
  | [] => false
  | c :: rest => startsName c && rest.all staysInName && rest.length ≤ 63

/-- `_normalized_field_name` -/
def normalizedFieldName (casing : CaseTable) (value : Json φ) : Except ValidationError String := do
  let text ← materialString value "normalized field name"
  let label := strip text
  if maxNormalizedFieldNameLength < label.length || !matchesNamePattern label then
    invalid "Invalid normalized field name"
  else
    .ok (String.ofList
      (replaceRuns (fun c => !separatesName c) '_' false (casing.casefold label).toList))

/-- `_normalized_field` -/
def normalizedField (casing : CaseTable) (value : Json φ) (citations : List String)
    (allowed : List (String × String)) : Except ValidationError NormalizedField := do
  let payload ← mapping value "normalized field"
  requiredKeys payload ["name", "value"]
  let name ← normalizedFieldName casing (get payload "name")
  let text ← groundedText casing (get payload "value") "normalized field value" citations allowed
  .ok ⟨name, text⟩

/-- `_clause` -/
def clause (value : Json φ) (allowed : List (String × String)) :
    Except ValidationError (Clause φ) := do
  let payload ← mapping value "clause"
  requiredKeys payload
    ["category", "normalized_fields", "source_excerpt", "confidence", "citation_anchor_ids"]
  let category ← string (get payload "category") "clause category"
  if category ∉ clauseCategories then invalid "Unsupported clause category"
  else
    let fieldsValue ← list (get payload "normalized_fields") "normalized fields"
    boundedCollection fieldsValue maxNormalizedFields "normalized fields"
    let citations ← citationAnchors (get payload "citation_anchor_ids") allowed
    let sourceExcerpt ← groundedText runtime.casing (get payload "source_excerpt")
      "source excerpt" citations allowed
    let fields ← fieldsValue.mapM fun item =>
      normalizedField runtime.casing item citations allowed
    let confidence ← numericConfidence runtime (get payload "confidence")
    .ok ⟨category, fields, sourceExcerpt, confidence, citations⟩

/-- `_risk` -/
def risk (value : Json φ) (allowed : List (String × String)) :
    Except ValidationError (Risk φ) := do
  let payload ← mapping value "risk"
  requiredKeys payload
    ["severity", "explanation", "affected_category", "confidence", "citation_anchor_ids"]
  let severity ← string (get payload "severity") "risk severity"
  let category ← string (get payload "affected_category") "risk affected category"
  if severity ∉ riskSeverities then invalid "Unsupported risk severity"
  else if category ∉ clauseCategories then invalid "Unsupported risk category"
  else
    let citations ← citationAnchors (get payload "citation_anchor_ids") allowed
    let explanation ← groundedText runtime.casing (get payload "explanation")
      "risk explanation" citations allowed
    let confidence ← numericConfidence runtime (get payload "confidence")
    .ok ⟨severity, explanation, category, confidence, citations⟩

/-- `_claims` -/
def claims {α : Type} (values : Json φ) (limit : Nat)
    (validator : Json φ → List (String × String) → Except ValidationError α)
    (allowed : List (String × String)) (name : String) : Except ValidationError (List α) := do
  let items ← list values name
  boundedCollection items limit name
  items.mapM fun item => validator item allowed

/-- One summary of `_summaries`. -/
def summary (casing : CaseTable) (value : Json φ) (allowed : List (String × String)) :
    Except ValidationError Summary := do
  let claim ← mapping value "summary"
  requiredKeys claim ["claim", "citation_anchor_ids"]
  let citations ← citationAnchors (get claim "citation_anchor_ids") allowed
  let text ← groundedText casing (get claim "claim") "summary claim" citations allowed
  .ok ⟨text, citations⟩

/-- `_summaries` -/
def summaries (casing : CaseTable) (value : Json φ) (allowed : List (String × String)) :
    Except ValidationError (List (String × Summary)) := do
  let payload ← mapping value "summaries"
  if !hasKeys payload summaryTypes then
    invalid "Provider response is missing required summaries"
  else
    payload.mapM fun item => do
      if item.1 ∉ summaryTypes then invalid "Unsupported summary type"
      else
        let result ← summary casing item.2 allowed
        .ok (item.1, result)

/-- `_provenance`; what the gateway reports takes the place of what was checked. -/
def provenance (analysis : ProviderAnalysis φ) : Except ValidationError (Provenance φ) := do
  let model ← string analysis.model "model"
  let inputTokens ← optionalNonnegativeInteger analysis.inputTokens "input tokens"
  let outputTokens ← optionalNonnegativeInteger analysis.outputTokens "output tokens"
  let latencyMs ← nonnegativeInteger analysis.latencyMs "latency"
  match analysis.gatewayProvenance with
  | none => .ok ⟨model, inputTokens, outputTokens, latencyMs, none⟩
  | some gateway =>
    .ok ⟨gateway.model, gateway.inputTokens, gateway.outputTokens, gateway.latencyMs,
      some gateway⟩

end Items

/-- `validate_provider_analysis` -/
def validateProviderAnalysis (runtime : Runtime φ) (analysis : ProviderAnalysis φ)
    (blocks : List (String × String)) : Except ValidationError (ValidatedAnalysis φ) := do
  let allowed ← allowedAnchors blocks
  let family ← classification runtime analysis.classification allowed
  let found ← claims analysis.clauses maxClauses (clause runtime) allowed "clauses"
  let risky ← claims analysis.risks maxRisks (risk runtime) allowed "risks"
  let written ← summaries runtime.casing analysis.summaries allowed
  let origin ← provenance analysis
  .ok ⟨family, found, risky, written, origin⟩

end AgreementIntelligence.Analysis
