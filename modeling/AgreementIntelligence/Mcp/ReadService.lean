import AgreementIntelligence.Authorization
import AgreementIntelligence.Evidence.Answers
import AgreementIntelligence.Lib.Json
import AgreementIntelligence.Lib.Queries
import Mathlib.Data.Multiset.Basic
import Mathlib.Data.Prod.Lex

/-! The read tools that are offered over MCP. Each call is for one workspace, writes one audit
event about the attempt, and hides what the caller may not see behind one and the same error. The
matching of titles, the parser of JSON, the object storage, the guardrails and the sanitiser of
audit attributes are parameters; tracing is left out. -/

namespace AgreementIntelligence.Mcp
open Identity Lib.Text Lib.Json Lib.Queries Evidence

structure AgreementRecord where
  id : Uuid
  organizationId : Uuid
  workspaceId : Uuid
  title : String
  agreementType : String
  status : String
  processingState : String
  archivedAt : Option Time
  deletionRequestedAt : Option Time
  createdAt : Time
  updatedAt : Time
  deriving DecidableEq, Repr

structure ProcessingJobRecord where
  id : Uuid
  organizationId : Uuid
  workspaceId : Uuid
  state : String
  deriving DecidableEq, Repr

structure ProcessingArtifactRecord where
  jobId : Uuid
  organizationId : Uuid
  workspaceId : Uuid
  agreementId : Uuid
  artifactKey : String
  createdAt : Time
  deriving DecidableEq, Repr

structure PlaybookEvaluationRecord where
  id : Uuid
  organizationId : Uuid
  workspaceId : Uuid
  agreementId : Uuid
  state : String
  createdAt : Time
  deriving DecidableEq, Repr

structure PlaybookFindingRecord where
  organizationId : Uuid
  workspaceId : Uuid
  evaluationId : Uuid
  result : String
  reviewState : String
  deriving DecidableEq, Repr

/-- The tables that the tools read, with their primary keys and the foreign key that gives an
artifact the scope of its job. -/
structure Database where
  identity : IdentityTables
  agreements : List AgreementRecord
  jobs : List ProcessingJobRecord
  artifacts : List ProcessingArtifactRecord
  evaluations : List PlaybookEvaluationRecord
  findings : List PlaybookFindingRecord
  agreementKeys : (agreements.map (·.id)).Nodup
  evaluationKeys : (evaluations.map (·.id)).Nodup
  /-- `fk_processing_artifacts_processing_job_scope`, with the primary key of the jobs. -/
  artifactScope : ∀ artifact ∈ artifacts, ∀ job ∈ jobs, job.id = artifact.jobId →
    job.organizationId = artifact.organizationId ∧ job.workspaceId = artifact.workspaceId

structure StoredDocument where
  content : List UInt8
  contentType : String
  deriving DecidableEq, Repr

inductive ToolError where
  | valueError (message : String)
  | resourceNotFound
  /-- Any other exception. -/
  | raised (name : String)
  deriving DecidableEq, Repr

/-- `DocumentStorage.read` -/
abbrev Storage := String → Except ToolError (Option StoredDocument)

variable {φ : Type}

/-- What the tools are given by the platform. -/
structure Platform (φ : Type) where
  /-- `title ILIKE '%' || query || '%'` -/
  titleMatches : String → String → Bool
  /-- `json.loads`: the document, nothing for a text that is none, or another exception. -/
  loads : List UInt8 → Except ToolError (Option (Json φ))
  /-- A floating-point number equals an integer. -/
  equalsInt : φ → Int → Bool
  guardrail : Guardrail
  safeEventMetadata : List (String × Json φ) → List (String × Json φ)

structure State where
  database : Database
  storage : Storage

/-- A row of `mcp_audit_events`, without its id, its time and its place in a trace. -/
structure McpAuditEvent (φ : Type) where
  organizationId : Uuid
  workspaceId : Uuid
  agreementId : Option Uuid
  actorId : Uuid
  toolName : String
  outcome : String
  attributes : List (String × Json φ)

structure SearchItem where
  agreementId : Uuid
  title : String
  agreementType : String
  status : String
  processingState : String
  deriving DecidableEq, Repr

/-- What a tool returns. A `Counter` is a multiset. -/
inductive ToolValue (φ : Type) where
  | agreements (items : List SearchItem)
  | agreementStatus (status processingState : String) (archived : Bool) (updatedAt : Time)
  | citation (citationId : String) (pageNumber : Json φ) (excerpt : String)
  | reviewStatus (state : String) (findings : Multiset String) (reviewState : String)

/-- What a call comes to: what it returns or raises, and what it adds to the audit trail. -/
structure Outcome (φ : Type) where
  result : Except ToolError (ToolValue φ)
  events : List (McpAuditEvent φ)

section Scope

/-- A call in a workspace, about an agreement where the tool takes one. -/
structure Scope where
  organizationId : Uuid
  workspaceId : Uuid
  agreementId : Option Uuid
  deriving DecidableEq, Repr

/-- `_authorize` -/
def authorized (identity : IdentityTables) (userId : Uuid) (scope : Scope) : Bool :=
  [PermissionKey.agreementsRead, .searchQuery].all fun permission =>
    canAccessWorkspace identity userId scope.organizationId scope.workspaceId permission

def outcomeOf : Except ToolError (ToolValue φ) → String
  | .ok _ => "success"
  | .error (.raised _) => "error"
  | .error _ => "not_found"

/-- `_record_audit` -/
def auditEvent (platform : Platform φ) (userId : Uuid) (scope : Scope) (toolName outcome : String)
    (attributes : List (String × Json φ)) : McpAuditEvent φ where
  organizationId := scope.organizationId
  workspaceId := scope.workspaceId
  agreementId := scope.agreementId
  actorId := userId
  toolName := toolName
  outcome := outcome
  attributes := platform.safeEventMetadata attributes

/-- `_audit_scope` around a body that gives its result and the attributes it has added. -/
def auditScope (platform : Platform φ) (identity : IdentityTables) (userId : Uuid) (scope : Scope)
    (toolName : String) (attributes : List (String × Json φ))
    (body : Except ToolError (ToolValue φ) × List (String × Json φ)) : Outcome φ :=
  if authorized identity userId scope then
    { result := body.1
      events := [auditEvent platform userId scope toolName (outcomeOf body.1)
        (attributes ++ body.2)] }
  else
    { result := .error .resourceNotFound
      events := [auditEvent platform userId scope toolName "not_found" attributes] }

end Scope

section Queries
variable (database : Database) (organizationId workspaceId : Uuid)

/-- The order of `created_at` and the id. -/
def byAge (createdAt : Time) (id : Uuid) : Lex (Nat × Nat) :=
  toLex (createdAt, id.bits.toNat)

/-- The order of `created_at`, newest first, and the id. -/
def byNews (createdAt : Time) (id : Uuid) : Lex (Natᵒᵈ × Nat) :=
  toLex (OrderDual.toDual createdAt, id.bits.toNat)

def agreementsInScope : List AgreementRecord :=
  database.agreements.filter fun agreement =>
    agreement.organizationId = organizationId ∧ agreement.workspaceId = workspaceId

/-- `active_agreement_statement` -/
def activeAgreement (agreementId : Uuid) : Option AgreementRecord :=
  (agreementsInScope database organizationId workspaceId).find? fun agreement =>
    agreement.id = agreementId ∧ agreement.deletionRequestedAt = none

/-- The query of `search_agreements`. -/
def searchQuery (platform : Platform φ) (query : String) (limit : Nat) : List AgreementRecord :=
  (orderBy (fun agreement : AgreementRecord => byAge agreement.createdAt agreement.id)
    ((agreementsInScope database organizationId workspaceId).filter fun agreement =>
      agreement.archivedAt = none ∧ agreement.deletionRequestedAt = none ∧
        platform.titleMatches (strip query) agreement.title)).take limit

/-- The artifacts of the agreement whose jobs are completed ones of the workspace. -/
def completedArtifacts (agreementId : Uuid) : List ProcessingArtifactRecord :=
  database.artifacts.filter fun artifact =>
    artifact.agreementId = agreementId ∧ database.jobs.any fun job =>
      job.id = artifact.jobId ∧ job.organizationId = organizationId ∧
        job.workspaceId = workspaceId ∧ job.state = "completed"

/-- `_completed_artifact_key`; of artifacts of the same instant the first row is taken. -/
def completedArtifactKey (agreementId : Uuid) : Option String :=
  (orderBy (fun artifact : ProcessingArtifactRecord => OrderDual.toDual artifact.createdAt)
    (completedArtifacts database organizationId workspaceId agreementId)).head?.map
      (·.artifactKey)

/-- The evaluation that `get_review_status` reads. -/
def latestEvaluation (agreementId : Uuid) : Option PlaybookEvaluationRecord :=
  (orderBy (fun evaluation : PlaybookEvaluationRecord =>
      byNews evaluation.createdAt evaluation.id)
    (database.evaluations.filter fun evaluation => evaluation.organizationId = organizationId ∧
      evaluation.workspaceId = workspaceId ∧ evaluation.agreementId = agreementId)).head?

def findingsOf (evaluationId : Uuid) : List PlaybookFindingRecord :=
  database.findings.filter fun finding => finding.organizationId = organizationId ∧
    finding.workspaceId = workspaceId ∧ finding.evaluationId = evaluationId

end Queries

section Citations
variable (platform : Platform φ)

def maxCitationExcerptCharacters : Nat := 2000

/-- `isinstance(value, int)`, which a Boolean passes too. -/
def integer? : Json φ → Option Int
  | .int n => some n
  | .bool value => some value.toNat
  | _ => none

/-- `value == n` -/
def equalsInteger (value : Json φ) (n : Int) : Bool :=
  match value with
  | .float x => platform.equalsInt x n
  | other => integer? other = some n

def textIs (value : Json φ) (text : String) : Bool :=
  match value with
  | .string found => found = text
  | _ => false

def objectFields? : Json φ → Option (List (String × Json φ))
  | .object fields => some fields
  | _ => none

def arrayItems? : Json φ → Option (List (Json φ))
  | .array items => some items
  | _ => none

def textOf? : Json φ → Option String
  | .string text => some text
  | _ => none

/-- The text of a block of the page with this anchor. -/
def blockText? (citationId : String) (block : Json φ) : Option String := do
  let fields ← objectFields? block
  if textIs (get fields "anchor_id") citationId then textOf? (get fields "text") else none

/-- The loop of `_citation_from_artifact` over the pages. -/
def excerptFrom? (citationId : String) (pageNumber : Int) (pages : List (Json φ)) :
    Option String :=
  pages.findSome? fun page => do
    let fields ← objectFields? page
    if equalsInteger platform (get fields "number") pageNumber then
      let blocks ← arrayItems? (get fields "blocks")
      blocks.findSome? (blockText? citationId)
    else none

/-- `_citation_from_artifact`, from the parsed document on. -/
def citationFromJson? (citationId : String) (artifact : Json φ) : Option (Json φ × String) := do
  let fields ← objectFields? artifact
  let citations ← arrayItems? (get fields "citations")
  let document ← objectFields? (get fields "document")
  let citation ← (citations.filterMap objectFields?).find? fun item =>
    textIs (get item "anchor_id") citationId
  let pageNumber ← integer? (get citation "page_number")
  let pages ← arrayItems? (get document "pages")
  let text ← excerptFrom? platform citationId pageNumber pages
  some (get citation "page_number",
    String.ofList (text.toList.take maxCitationExcerptCharacters))

/-- `_citation_from_artifact` -/
def citationFromArtifact (stored : Option StoredDocument) (citationId : String) :
    Except ToolError (Option (Json φ × String)) :=
  match stored with
  | none => .ok none
  | some document =>
    if document.contentType ≠ "application/json" then .ok none
    else do
      let artifact ← platform.loads document.content
      .ok (artifact.bind (citationFromJson? platform citationId))

/-- The attributes that a guardrail decision adds to an audit event. -/
def guardrailAttributes (decision : GuardrailDecision) : List (String × Json φ) :=
  [("guardrail_policy_version", .string decision.policyVersion),
    ("guardrail_status", .string decision.status.value),
    ("guardrail_reason_codes", .array (decision.reasonCodes.map .string))]

/-- The end of `get_citation`, once the citation has been looked up. -/
def guardedCitation (citationId : String) :
    Except ToolError (Option (Json φ × String)) →
      Except ToolError (ToolValue φ) × List (String × Json φ)
  | .error error => (.error error, [])
  | .ok none => (.error .resourceNotFound, [])
  | .ok (some citation) =>
    let decision := platform.guardrail [(citationId, citation.2)] [citationId]
    (if decision.status = .allow then .ok (.citation citationId citation.1 citation.2)
      else .error .resourceNotFound, guardrailAttributes decision)

end Citations

section Tools
variable (platform : Platform φ) (state : State) (userId organizationId workspaceId : Uuid)

/-- `search_agreements` -/
def searchAgreements (query : String) (limit : Int) : Outcome φ :=
  if strip query = "" ∨ 500 < query.length ∨ ¬ (1 ≤ limit ∧ limit ≤ 25) then
    ⟨.error (.valueError "query and limit are outside the allowed bounds"), []⟩
  else
    auditScope platform state.database.identity userId ⟨organizationId, workspaceId, none⟩
      "search_agreements" [("query_present", .bool true), ("limit", .int limit)]
      (.ok (.agreements ((searchQuery state.database organizationId workspaceId platform query
        limit.toNat).map fun agreement =>
          ⟨agreement.id, agreement.title, agreement.agreementType, agreement.status,
            agreement.processingState⟩)), [])

/-- `get_agreement_status` -/
def getAgreementStatus (agreementId : Uuid) : Outcome φ :=
  auditScope platform state.database.identity userId
    ⟨organizationId, workspaceId, some agreementId⟩ "get_agreement_status" []
    (match activeAgreement state.database organizationId workspaceId agreementId with
      | none => .error .resourceNotFound
      | some agreement => .ok (.agreementStatus agreement.status agreement.processingState
          agreement.archivedAt.isSome agreement.updatedAt), [])

/-- `get_citation` -/
def getCitation (agreementId : Uuid) (citationId : String) : Outcome φ :=
  if ¬ startsWith citationId "citation-" ∨ 128 < citationId.length then
    ⟨.error (.valueError "citation_id is invalid"), []⟩
  else
    auditScope platform state.database.identity userId
      ⟨organizationId, workspaceId, some agreementId⟩ "get_citation"
      [("citation_id", .string citationId)]
      (match activeAgreement state.database organizationId workspaceId agreementId with
        | none => (.error .resourceNotFound, [])
        | some _ => guardedCitation platform citationId (do
            let document ← match completedArtifactKey state.database organizationId workspaceId
                agreementId with
              | none => .ok none
              | some key => if key = "" then .ok none else state.storage key
            citationFromArtifact platform document citationId))

/-- The review state that all findings have, if they agree. -/
def commonReviewState (states : List String) : String :=
  match states.dedup with
  | [] => "not_started"
  | [single] => single
  | _ => "mixed"

/-- `get_review_status` -/
def getReviewStatus (agreementId : Uuid) : Outcome φ :=
  auditScope platform state.database.identity userId
    ⟨organizationId, workspaceId, some agreementId⟩ "get_review_status" []
    (match activeAgreement state.database organizationId workspaceId agreementId with
      | none => .error .resourceNotFound
      | some _ =>
        match latestEvaluation state.database organizationId workspaceId agreementId with
        | none => .ok (.reviewStatus "not_started" 0 "not_started")
        | some evaluation =>
          let findings := findingsOf state.database organizationId workspaceId evaluation.id
          .ok (.reviewStatus evaluation.state (findings.map (·.result) : List String)
            (commonReviewState (findings.map (·.reviewState)))), [])

end Tools

/-- A call of one of the four tools. -/
inductive ToolCall where
  | searchAgreements (organizationId workspaceId : Uuid) (query : String) (limit : Int)
  | getAgreementStatus (organizationId workspaceId agreementId : Uuid)
  | getCitation (organizationId workspaceId agreementId : Uuid) (citationId : String)
  | getReviewStatus (organizationId workspaceId agreementId : Uuid)
  deriving DecidableEq, Repr

def ToolCall.scope : ToolCall → Scope
  | .searchAgreements organizationId workspaceId _ _ => ⟨organizationId, workspaceId, none⟩
  | .getAgreementStatus organizationId workspaceId agreementId =>
    ⟨organizationId, workspaceId, some agreementId⟩
  | .getCitation organizationId workspaceId agreementId _ =>
    ⟨organizationId, workspaceId, some agreementId⟩
  | .getReviewStatus organizationId workspaceId agreementId =>
    ⟨organizationId, workspaceId, some agreementId⟩

def ToolCall.run (platform : Platform φ) (state : State) (userId : Uuid) : ToolCall → Outcome φ
  | .searchAgreements organizationId workspaceId query limit =>
    Mcp.searchAgreements platform state userId organizationId workspaceId query limit
  | .getAgreementStatus organizationId workspaceId agreementId =>
    Mcp.getAgreementStatus platform state userId organizationId workspaceId agreementId
  | .getCitation organizationId workspaceId agreementId citationId =>
    Mcp.getCitation platform state userId organizationId workspaceId agreementId citationId
  | .getReviewStatus organizationId workspaceId agreementId =>
    Mcp.getReviewStatus platform state userId organizationId workspaceId agreementId

end AgreementIntelligence.Mcp
