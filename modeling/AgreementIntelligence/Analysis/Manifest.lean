import AgreementIntelligence.Analysis.Validation
import AgreementIntelligence.Evidence.Answers
import Mathlib.Data.Char
import Mathlib.Data.List.Lex
import Mathlib.Data.List.Sort

/-! The analysis manifest of a document. Rules find clauses, a family and summaries in the blocks;
what a provider adds is merged behind them once it has passed validation. Parsing and the
guardrails are parameters, and telemetry is left out. -/

namespace AgreementIntelligence.Analysis
open Lib.Casing Lib.Json Lib.Text Lib.Results Playbooks Identity Evidence

inductive BlockKind where
  | heading
  | paragraph
  | listItem
  | table
  deriving DecidableEq, Repr

structure CitationAnchor where
  anchorId : String
  sourceChecksum : String
  pageNumber : Int
  blockIndex : Nat
  startOffset : Int
  endOffset : Int
  deriving DecidableEq, Repr

structure DocumentBlock where
  anchorId : String
  kind : BlockKind
  text : String
  startOffset : Int
  endOffset : Int
  trust : String := "untrusted"
  deriving DecidableEq, Repr

structure DocumentPage where
  number : Int
  blocks : List DocumentBlock
  deriving DecidableEq, Repr

structure DocumentDiagnostic where
  code : String
  message : String
  pageNumbers : List Int
  deriving DecidableEq, Repr

structure ParsedDocument where
  sourceChecksum : String
  pages : List DocumentPage
  diagnostics : List DocumentDiagnostic
  deriving DecidableEq, Repr

/-- `ParsedDocument.citations` -/
def ParsedDocument.citations (parsed : ParsedDocument) : List CitationAnchor :=
  parsed.pages.flatMap fun page => page.blocks.zipIdx.map fun block =>
    { anchorId := block.1.anchorId
      sourceChecksum := parsed.sourceChecksum
      pageNumber := page.number
      blockIndex := block.2
      startOffset := block.1.startOffset
      endOffset := block.1.endOffset }

structure SourceDocument where
  storageKey : String
  checksum : String
  contentType : String
  deriving DecidableEq, Repr

def schemaVersion : String := "document-analysis.v1"

def pipelineVersion : String := "sprint-2.v1"

def providerAnalysisVersion : String := "provider-hybrid.v1"

def providerSchemaVersion : String := "agreement-analysis.v1"

def providerPromptVersion : String := "agreement-analysis.v1"

def maxProviderBlocks : Nat := 100

def maxProviderBlockCharacters : Nat := 4000

variable {φ : Type}

/-- A clause of the manifest; only those of a provider have normalized fields. -/
structure ExtractedClause (φ : Type) where
  category : String
  normalizedFields : Option (List NormalizedField) := none
  sourceText : String
  citationAnchorIds : List String
  confidence : φ
  extractionVersion : String

structure SummaryClaim where
  text : String
  citationAnchorIds : List String
  deriving DecidableEq, Repr

structure ArtifactSummary where
  version : String
  claims : List SummaryClaim
  deriving DecidableEq, Repr

structure AgreementClassification (φ : Type) where
  family : String
  confidence : φ
  rationale : String
  evidenceTerms : List String
  version : String := "agreement-family-rules.v1"

section Rules
variable (runtime : Runtime φ)

def signalsOf : List (String × List String) :=
  [("termination", ["terminate", "termination"]), ("confidentiality", ["confidential"]),
    ("governing_law", ["governing law"]), ("liability", ["liability", "liable"]),
    ("dispute_resolution", ["dispute", "arbitration"])]

/-- The first category of which a signal stands in the text. -/
def categoryOf (lowered : String) : Option String :=
  (signalsOf.find? fun entry => entry.2.any (contains lowered)).map Prod.fst

/-- `extract_clauses` -/
def extractClauses (blocks : List (String × String)) : List (ExtractedClause φ) :=
  blocks.filterMap fun block => (categoryOf (runtime.lower block.2)).map fun category =>
    { category := category
      sourceText := block.2
      citationAnchorIds := [block.1]
      confidence := runtime.nineTenths
      extractionVersion := "clause-rules.v1" }

/-- `generate_summaries` -/
def generateSummaries (blocks : List (String × String)) : List (String × ArtifactSummary) :=
  let claims := (blocks.take 3).map fun block => SummaryClaim.mk block.2 [block.1]
  [("business", ⟨"summary-rules.v1", claims⟩), ("legal", ⟨"summary-rules.v1", claims⟩)]

def nonAgreementTerms : List String :=
  ["curriculum vitae", "resume", "work experience", "professional experience", "education",
    "skills"]

def specificAgreementTerms : List String :=
  ["agreement", "client assets", "margin", "liquidity provider", "executable prices",
    "market maker"]

def clientTerms : List String := ["client", "margin", "client assets"]

def providerTerms : List String := ["liquidity provider", "executable prices", "market maker"]

/-- `classify_document` -/
def classifyDocument (text : String) : AgreementClassification φ :=
  let normalized := runtime.lower text
  let nonAgreement := nonAgreementTerms.filter (contains normalized)
  let clientHits := clientTerms.countP (contains normalized)
  let providerHits := providerTerms.countP (contains normalized)
  if 2 ≤ nonAgreement.length ∧ ¬ specificAgreementTerms.any (contains normalized) then
    { family := "non_agreement_material"
      confidence := runtime.nineTenths
      rationale := "Resume/CV-style material detected without agreement terms"
      evidenceTerms := nonAgreement }
  else if providerHits < clientHits then
    { family := "client_agreement"
      confidence := runtime.minimumConfidence
      rationale := "Client agreement terms detected"
      evidenceTerms := ["client"] }
  else if clientHits < providerHits then
    { family := "liquidity_provider_agreement"
      confidence := runtime.minimumConfidence
      rationale := "Liquidity-provider terms detected"
      evidenceTerms := ["liquidity provider"] }
  else
    { family := "unknown_needs_review"
      confidence := runtime.zero
      rationale := "Insufficient agreement-family evidence"
      evidenceTerms := [] }

end Rules

/-- The manifest before its provenance is written. -/
structure ManifestBody (φ : Type) where
  source : SourceDocument
  pages : List DocumentPage
  diagnostics : List DocumentDiagnostic
  citations : List CitationAnchor
  classification : AgreementClassification φ
  clauses : List (ExtractedClause φ)
  risks : List (Risk φ)
  summaries : List (String × ArtifactSummary)

inductive AnalysisProvenance (φ : Type) where
  | deterministic (fallbackReason : String) (guardrail : GuardrailDecision)
  | hybrid (enriched : Provenance φ) (guardrail : GuardrailDecision)

structure Manifest (φ : Type) extends ManifestBody φ where
  analysisProvenance : AnalysisProvenance φ

/-- `_deterministic_manifest` -/
def deterministicManifest (runtime : Runtime φ) (parsed : ParsedDocument) (source : SourceDocument)
    (blocks : List (String × String)) : ManifestBody φ where
  source := source
  pages := parsed.pages
  diagnostics := parsed.diagnostics
  citations := parsed.citations
  classification := classifyDocument runtime ("\n".intercalate (blocks.map Prod.snd))
  clauses := extractClauses runtime blocks
  risks := []
  summaries := generateSummaries blocks

section Merge

/-- What makes two items the same: a category and the set of the blocks they cite. -/
abbrev CitedIdentity := Option String × List String

/-- `_cited_identity` -/
def citedIdentity (identity : Option String) (citations : List String) : CitedIdentity :=
  (identity, citations.eraseDups.insertionSort fun a b => a.toList ≤ b.toList)

/-- The loop of `_merge_cited_items`. -/
def mergeFrom {α : Type} (identity : α → CitedIdentity) (merged : List α)
    (identities : List CitedIdentity) : List α → List α
  | [] => merged
  | item :: rest =>
    if identity item ∈ identities then mergeFrom identity merged identities rest
    else mergeFrom identity (merged ++ [item]) (identity item :: identities) rest

/-- `_merge_cited_items` -/
def mergeCitedItems {α : Type} (identity : α → CitedIdentity) (deterministic enrichment : List α) :
    List α :=
  mergeFrom identity deterministic (deterministic.map identity) enrichment

def ExtractedClause.identity (clause : ExtractedClause φ) : CitedIdentity :=
  citedIdentity (some clause.category) clause.citationAnchorIds

def Risk.identity (risk : Risk φ) : CitedIdentity :=
  citedIdentity (some risk.affectedCategory) risk.citationAnchorIds

def SummaryClaim.identity (claim : SummaryClaim) : CitedIdentity :=
  citedIdentity none claim.citationAnchorIds

/-- The clauses of `_provider_artifact_fields`. -/
def providerClauses (enriched : ValidatedAnalysis φ) : List (ExtractedClause φ) :=
  enriched.clauses.map fun clause =>
    { category := clause.category
      normalizedFields := some clause.normalizedFields
      sourceText := clause.sourceExcerpt
      citationAnchorIds := clause.citationAnchorIds
      confidence := clause.confidence
      extractionVersion := providerAnalysisVersion }

/-- The summaries of `_provider_artifact_fields`. -/
def providerSummaries (enriched : ValidatedAnalysis φ) : List (String × ArtifactSummary) :=
  enriched.summaries.map fun item =>
    (item.1, ⟨providerAnalysisVersion, [⟨item.2.claim, item.2.citationAnchorIds⟩]⟩)

inductive ProcessingError where
  | transientProcessingError (message : String)
  | overflowError
  | keyError (key : String)
  deriving DecidableEq, Repr

/-- `_merge_summary_claims` -/
def mergeSummaryClaims (deterministic enrichment : List (String × ArtifactSummary)) :
    Except ProcessingError (List (String × ArtifactSummary)) :=
  deterministic.mapM fun item =>
    match Lib.Dict.get? enrichment item.1 with
    | none => .error (.keyError item.1)
    | some provided => .ok (item.1,
        ⟨item.2.version, mergeCitedItems SummaryClaim.identity item.2.claims provided.claims⟩)

/-- `_merge_provider_enrichment` -/
def mergeProviderEnrichment (manifest : ManifestBody φ) (enriched : ValidatedAnalysis φ) :
    Except ProcessingError (ManifestBody φ) := do
  let merged ← mergeSummaryClaims manifest.summaries (providerSummaries enriched)
  .ok { manifest with
    clauses := mergeCitedItems ExtractedClause.identity manifest.clauses (providerClauses enriched)
    risks := mergeCitedItems Risk.identity manifest.risks enriched.risks
    summaries := merged }

end Merge

/-- How a provider can fail: out of reach, so that the job is tried again, or in any other way. -/
inductive ProviderFailure where
  | transient
  | other
  deriving DecidableEq, Repr

/-- `AnalysisProvider.analyze`, of the blocks and the scope; a provider that takes no scope does
not look at it. -/
abbrev AnalysisProvider (φ : Type) := List (String × String) → Option Uuid → Option Uuid →
  Except ProviderFailure (ProviderAnalysis φ)

/-- `_provider_fallback` -/
def providerFallback (manifest : ManifestBody φ) (decision : GuardrailDecision) : Manifest φ where
  toManifestBody := { manifest with
    diagnostics := manifest.diagnostics ++
      [⟨"provider_fallback", "Provider enrichment was unavailable", []⟩] }
  analysisProvenance := .deterministic "provider_fallback" decision

def blocksOf (parsed : ParsedDocument) : List (String × String) :=
  parsed.pages.flatMap fun page => page.blocks.map fun block => (block.anchorId, block.text)

def providerBlocksOf (blocks : List (String × String)) : List (String × String) :=
  (blocks.take maxProviderBlocks).map fun block =>
    (block.1, String.ofList (block.2.toList.take maxProviderBlockCharacters))

/-- `dict(blocks)` -/
def dictOf (blocks : List (String × String)) : List (String × String) :=
  blocks.foldl (fun dict block => Lib.Dict.set dict block.1 block.2) []

/-- `_manifest` -/
def manifest (runtime : Runtime φ) (guardrail : Guardrail) (parsed : ParsedDocument)
    (source : SourceDocument) (analysisProvider : Option (AnalysisProvider φ))
    (organizationId workspaceId : Option Uuid) : Except ProcessingError (Manifest φ) :=
  let blocks := blocksOf parsed
  let providerBlocks := providerBlocksOf blocks
  let decision := guardrail blocks (blocks.map Prod.fst)
  let body := deterministicManifest runtime parsed source blocks
  match analysisProvider with
  | none => .ok ⟨body, .deterministic "provider_not_configured" decision⟩
  | some analyze =>
    if decision.status ≠ .allow then .ok (providerFallback body decision)
    else
      match analyze providerBlocks organizationId workspaceId with
      | .error .transient =>
        .error (.transientProcessingError "Provider enrichment temporarily unavailable")
      | .error .other => .ok (providerFallback body decision)
      | .ok analysis =>
        match validateProviderAnalysis runtime analysis (dictOf providerBlocks) with
        | .error .overflowError => .error .overflowError
        | .error (.providerOutputValidationError _) => .ok (providerFallback body decision)
        | .ok enriched => do
          let merged ← mergeProviderEnrichment body enriched
          .ok ⟨merged, .hybrid enriched.provenance decision⟩

end AgreementIntelligence.Analysis
