import AgreementIntelligence.Analysis.Manifest

/-! The manifest as the JSON document that is stored and read again. Keys stand in the order in
which `json.dumps` sorts them. -/

namespace AgreementIntelligence.Analysis
open Lib.Json Playbooks Evidence

variable {φ : Type}

def textsJson (texts : List String) : Json φ :=
  .array (texts.map .string)

def optionalIntJson : Option Int → Json φ
  | none => .null
  | some n => .int n

def optionalTextJson : Option String → Json φ
  | none => .null
  | some text => .string text

def optionalFloatJson : Option φ → Json φ
  | none => .null
  | some x => .float x

def BlockKind.value : BlockKind → String
  | .heading => "heading"
  | .paragraph => "paragraph"
  | .listItem => "list_item"
  | .table => "table"

def DocumentBlock.json (block : DocumentBlock) : Json φ :=
  .object
    [("anchor_id", .string block.anchorId), ("end_offset", .int block.endOffset),
      ("kind", .string block.kind.value), ("start_offset", .int block.startOffset),
      ("text", .string block.text), ("trust", .string block.trust)]

def DocumentPage.json (page : DocumentPage) : Json φ :=
  .object [("blocks", .array (page.blocks.map DocumentBlock.json)), ("number", .int page.number)]

def DocumentDiagnostic.json (diagnostic : DocumentDiagnostic) : Json φ :=
  .object
    [("code", .string diagnostic.code), ("message", .string diagnostic.message),
      ("page_numbers", .array (diagnostic.pageNumbers.map .int))]

def CitationAnchor.json (anchor : CitationAnchor) : Json φ :=
  .object
    [("anchor_id", .string anchor.anchorId), ("block_index", .int anchor.blockIndex),
      ("end_offset", .int anchor.endOffset), ("page_number", .int anchor.pageNumber),
      ("source_checksum", .string anchor.sourceChecksum),
      ("start_offset", .int anchor.startOffset)]

def AgreementClassification.json (found : AgreementClassification φ) : Json φ :=
  .object
    [("confidence", .float found.confidence), ("evidence_terms", textsJson found.evidenceTerms),
      ("family", .string found.family), ("rationale", .string found.rationale),
      ("version", .string found.version)]

def NormalizedField.json (field : NormalizedField) : Json φ :=
  .object [("name", .string field.name), ("value", .string field.value)]

def normalizedFieldsItem : Option (List NormalizedField) → Mapping φ
  | none => []
  | some fields => [("normalized_fields", .array (fields.map NormalizedField.json))]

def ExtractedClause.fields (clause : ExtractedClause φ) : Mapping φ :=
  [("category", .string clause.category),
    ("citation_anchor_ids", textsJson clause.citationAnchorIds),
    ("confidence", .float clause.confidence),
    ("extraction_version", .string clause.extractionVersion)] ++
  normalizedFieldsItem clause.normalizedFields ++
  [("source_text", .string clause.sourceText)]

def Risk.json (risk : Risk φ) : Json φ :=
  .object
    [("affected_category", .string risk.affectedCategory),
      ("citation_anchor_ids", textsJson risk.citationAnchorIds),
      ("confidence", .float risk.confidence), ("explanation", .string risk.explanation),
      ("severity", .string risk.severity)]

def SummaryClaim.json (claim : SummaryClaim) : Json φ :=
  .object
    [("citation_anchor_ids", textsJson claim.citationAnchorIds), ("text", .string claim.text)]

def ArtifactSummary.json (summary : ArtifactSummary) : Json φ :=
  .object
    [("claims", .array (summary.claims.map SummaryClaim.json)),
      ("version", .string summary.version)]

def SourceDocument.json (source : SourceDocument) : Json φ :=
  .object
    [("checksum", .string source.checksum), ("content_type", .string source.contentType),
      ("storage_key", .string source.storageKey)]

/-- `GuardrailDecision.provenance` -/
def guardrailJson (decision : GuardrailDecision) : Json φ :=
  .object
    [("policy_version", .string decision.policyVersion),
      ("reason_codes", textsJson decision.reasonCodes),
      ("status", .string decision.status.value)]

/-- A number of tokens stands in the provenance only when it is known. -/
def tokensItem (key : String) : Option Int → Mapping φ
  | none => []
  | some n => [(key, .int n)]

/-- `_deterministic_provenance` and `_provider_provenance` -/
def AnalysisProvenance.json : AnalysisProvenance φ → Json φ
  | .deterministic reason decision => .object
      [("fallback_reason", .string reason), ("guardrail", guardrailJson decision),
        ("mode", .string "deterministic")]
  | .hybrid enriched decision =>
    match enriched.gateway with
    | none => .object
        ([("guardrail", guardrailJson decision)] ++
        tokensItem "input_tokens" enriched.inputTokens ++
        [("latency_ms", .int enriched.latencyMs), ("mode", .string "hybrid"),
          ("model", .string enriched.model)] ++
        tokensItem "output_tokens" enriched.outputTokens ++
        [("prompt_version", .string providerPromptVersion), ("provider", .string "openai"),
          ("schema_version", .string providerSchemaVersion)])
    | some gateway => .object
        ([("configuration_version", .string gateway.configurationVersion),
          ("cost_usd", optionalFloatJson gateway.costUsd),
          ("endpoint_kind", .string gateway.endpointKind),
          ("fallback_outcome", .string gateway.fallbackOutcome),
          ("guardrail", guardrailJson decision)] ++
        tokensItem "input_tokens" enriched.inputTokens ++
        [("latency_ms", .int enriched.latencyMs), ("mode", .string "hybrid"),
          ("model", .string enriched.model)] ++
        tokensItem "output_tokens" enriched.outputTokens ++
        [("prompt_version", .string providerPromptVersion),
          ("provider", .string gateway.provider),
          ("retry_outcome", .string gateway.retryOutcome),
          ("safe_failure_reason", optionalTextJson gateway.safeFailureReason),
          ("schema_version", .string providerSchemaVersion),
          ("total_tokens", optionalIntJson gateway.totalTokens)])

def Manifest.fields (manifest : Manifest φ) : Mapping φ :=
  [("analysis_provenance", manifest.analysisProvenance.json),
    ("citations", .array (manifest.citations.map CitationAnchor.json)),
    ("classification", manifest.classification.json),
    ("clauses", .array (manifest.clauses.map fun clause => .object clause.fields)),
    ("diagnostics", .array (manifest.diagnostics.map DocumentDiagnostic.json)),
    ("document", .object [("pages", .array (manifest.pages.map DocumentPage.json))]),
    ("pipeline_version", .string pipelineVersion),
    ("risks", .array (manifest.risks.map Risk.json)),
    ("schema_version", .string schemaVersion),
    ("source", manifest.source.json),
    ("summaries", .object (manifest.summaries.map fun item => (item.1, item.2.json)))]

theorem get_clauses (manifest : Manifest φ) : get manifest.fields "clauses" =
    .array (manifest.clauses.map fun clause => .object clause.fields) := rfl

@[simp] theorem get_category (clause : ExtractedClause φ) :
    get clause.fields "category" = .string clause.category := rfl

@[simp] theorem get_extractionVersion (clause : ExtractedClause φ) :
    get clause.fields "extraction_version" = .string clause.extractionVersion := rfl

/-- The clauses that the evaluation finds in the stored document. -/
theorem clauses_fields (manifest : Manifest φ) :
    clauses manifest.fields = manifest.clauses.map ExtractedClause.fields := by
  simp [clauses, get_clauses, List.filterMap_map, Function.comp_def, mapping?]

end AgreementIntelligence.Analysis
