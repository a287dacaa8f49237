import AgreementIntelligence.Lib.JsonValue
import AgreementIntelligence.Reviews.PackageDeliveries

/-! The migration 0035: the columns that it adds to the outbox of workflow events, the events that
it writes for workflows that have ended before, and its two triggers. After it stands the worker
that turns such an event into a package, with the triggers in the way of what it updates. -/

namespace AgreementIntelligence.Reviews.Backfill
open Identity Lib Lib.Json Lib.Sha256

/-! Tables -/

structure WorkflowRow where
  id : Uuid
  organizationId : Uuid
  workspaceId : Uuid
  reviewId : Uuid
  policyVersionId : Uuid
  state : String
  revision : Int
  createdAt : Time
  deriving DecidableEq, Repr

structure CaseRow where
  id : Uuid
  organizationId : Uuid
  workspaceId : Uuid
  agreementId : Uuid
  agreementVersionId : Option Uuid
  deriving DecidableEq, Repr

structure PackageRow extends FinalPackageRecord where
  createdAt : Time
  deriving DecidableEq, Repr

structure DecisionRow where
  id : Uuid
  workflowId : Uuid
  organizationId : Uuid
  workspaceId : Uuid
  actorId : Uuid
  action : String
  workflowStageId : Uuid
  occurredAt : Time
  deriving DecidableEq, Repr

structure StageRow where
  id : Uuid
  workflowId : Uuid
  organizationId : Uuid
  workspaceId : Uuid
  ordinal : Int
  state : String
  activatedAt : Option Time
  completedAt : Option Time
  deriving DecidableEq, Repr

structure AssignmentRow where
  id : Uuid
  reviewId : Uuid
  organizationId : Uuid
  workspaceId : Uuid
  assigneeId : Uuid
  status : String
  dueAt : Option Time
  createdAt : Time
  deriving DecidableEq, Repr

structure CommentRow where
  id : Uuid
  reviewId : Uuid
  organizationId : Uuid
  workspaceId : Uuid
  authorId : Uuid
  findingId : Option Uuid
  createdAt : Time
  deriving DecidableEq, Repr

structure EvaluationRow where
  id : Uuid
  organizationId : Uuid
  agreementId : Uuid
  deriving DecidableEq, Repr

structure FindingRow where
  id : Uuid
  evaluationId : Uuid
  organizationId : Uuid
  workspaceId : Uuid
  result : String
  severity : String
  citationIds : List String
  deriving DecidableEq, Repr

structure AuditRow where
  id : Uuid
  organizationId : Uuid
  workspaceId : Uuid
  resourceId : Option Uuid
  occurredAt : Time
  deriving DecidableEq, Repr

/-- A row of `review_workflow_outbox` at revision 0034. -/
structure EventRow where
  id : Uuid
  workflowId : Uuid
  organizationId : Uuid
  workspaceId : Uuid
  eventType : String
  correlationId : String
  idempotencyKey : String
  deliveredAt : Option Time
  processedAt : Option Time
  createdAt : Time
  deriving DecidableEq, Repr

/-- The row at revision 0035. -/
structure OutboxRow (φ : Type) extends EventRow where
  packageSnapshot : Option (Fields φ)
  packageManifestKey : Option String
  packagePdfKey : Option String
  attemptCount : Nat
  nextAttemptAt : Option Time
  leaseOwner : Option String
  leaseExpiresAt : Option Time
  lastError : Option String

/-- The tables that the migration reads, with an outbox of either revision. -/
structure Tables (ε : Type) where
  organizations : List Uuid
  workflows : List WorkflowRow
  reviews : List CaseRow
  packages : List PackageRow
  outbox : List ε
  decisions : List DecisionRow
  stages : List StageRow
  assignments : List AssignmentRow
  comments : List CommentRow
  evaluations : List EvaluationRow
  findings : List FindingRow
  auditEvents : List AuditRow

/-- What the language and the database make of values, with what is relied on: the database gives
back the document that it was given, and reads the text of an identifier. -/
structure BackfillCodec (φ : Type) extends PackageCodec φ where
  /-- `value.isoformat()` -/
  isoformat : Time → String
  /-- `->>` where the value is no text -/
  jsonText : Json φ → String
  /-- A document as it comes out of its column -/
  stored : Fields φ → Fields φ
  /-- `IS NOT DISTINCT FROM` on `jsonb` -/
  sameDocument : Option (Fields φ) → Option (Fields φ) → Bool
  stored_same : ∀ fields, Same (.object fields) (.object (stored fields))
  uuidIn_str : ∀ id, uuidIn id.str = some id

variable {φ ε : Type}

/-! `_backfill_terminal_package_events` -/

/-- A row of the join over terminal workflows. -/
structure Candidate where
  workflow : WorkflowRow
  review : CaseRow
  package : Option PackageRow
  deriving DecidableEq, Repr

/-- The packages of a left join. -/
def leftJoined (rows : List PackageRow) : List (Option PackageRow) :=
  if rows.isEmpty then [none] else rows.map some

def packagesOf (db : Tables ε) (workflow : WorkflowRow) : List PackageRow :=
  db.packages.filter fun package => package.reviewId = workflow.reviewId ∧
    package.organizationId = workflow.organizationId ∧ package.workspaceId = workflow.workspaceId

def reviewsOf (db : Tables ε) (workflow : WorkflowRow) : List CaseRow :=
  db.reviews.filter fun review => review.id = workflow.reviewId ∧
    review.organizationId = workflow.organizationId ∧ review.workspaceId = workflow.workspaceId

def candidatesOf (db : Tables ε) (workflow : WorkflowRow) : List Candidate :=
  (reviewsOf db workflow).flatMap fun review =>
    (leftJoined (packagesOf db workflow)).map fun package => ⟨workflow, review, package⟩

def Terminal (workflow : WorkflowRow) : Prop := workflow.state ∈ terminalStates

instance (workflow : WorkflowRow) : Decidable (Terminal workflow) :=
  inferInstanceAs (Decidable (_ ∈ _))

def candidates (db : Tables ε) (organizationId : Uuid) : List Candidate :=
  (orderedBy (·.createdAt) (·.id) (db.workflows.filter fun workflow =>
    workflow.organizationId = organizationId ∧ Terminal workflow)).flatMap (candidatesOf db)

/-! `_backfill_terminal_package_event` -/

/-- The collections of a manifest. -/
structure Contents (φ : Type) where
  decisions : List (Json φ)
  stages : List (Json φ)
  assignments : List (Json φ)
  comments : List (Json φ)
  findings : List (Json φ)
  auditEventIds : List (Json φ)

/-- `_isoformat` -/
def isoformat (codec : BackfillCodec φ) : Option Time → Json φ
  | none => .null
  | some time => .string (codec.isoformat time)

def uuidJson (id : Uuid) : Json φ := .string id.str

def optionalUuid : Option Uuid → Json φ
  | none => .null
  | some id => uuidJson id

def decisionJson (codec : BackfillCodec φ) (row : DecisionRow) : Json φ :=
  .object [("actor_id", uuidJson row.actorId), ("action", .string row.action),
    ("stage_id", uuidJson row.workflowStageId),
    ("occurred_at", isoformat codec (some row.occurredAt))]

def stageJson (codec : BackfillCodec φ) (row : StageRow) : Json φ :=
  .object [("id", uuidJson row.id), ("ordinal", .int row.ordinal), ("state", .string row.state),
    ("activated_at", isoformat codec row.activatedAt),
    ("completed_at", isoformat codec row.completedAt)]

def assignmentJson (codec : BackfillCodec φ) (row : AssignmentRow) : Json φ :=
  .object [("id", uuidJson row.id), ("assignee_id", uuidJson row.assigneeId),
    ("status", .string row.status), ("due_at", isoformat codec row.dueAt)]

def commentJson (codec : BackfillCodec φ) (row : CommentRow) : Json φ :=
  .object [("id", uuidJson row.id), ("author_id", uuidJson row.authorId),
    ("finding_id", optionalUuid row.findingId),
    ("created_at", isoformat codec (some row.createdAt))]

def findingJson (row : FindingRow) : Json φ :=
  .object [("id", uuidJson row.id), ("result", .string row.result),
    ("severity", .string row.severity), ("citation_ids", .array (row.citationIds.map .string))]

/-- The queries of one workflow. The scope that the migration has set shows evaluations of the
organization only. -/
def contentsOf (codec : BackfillCodec φ) (db : Tables ε) (candidate : Candidate) : Contents φ :=
  let workflow := candidate.workflow
  let own (organizationId workspaceId : Uuid) : Bool :=
    organizationId = workflow.organizationId ∧ workspaceId = workflow.workspaceId
  { decisions := (orderedBy (·.occurredAt) (·.id) (db.decisions.filter fun row =>
      row.workflowId = workflow.id ∧ own row.organizationId row.workspaceId)).map
        (decisionJson codec)
    stages := ((db.stages.filter fun row => row.workflowId = workflow.id ∧
      own row.organizationId row.workspaceId).insertionSort fun one other =>
        one.ordinal < other.ordinal ∨
          (one.ordinal = other.ordinal ∧ one.id.bits.toNat ≤ other.id.bits.toNat)).map
        (stageJson codec)
    assignments := (orderedBy (·.createdAt) (·.id) (db.assignments.filter fun row =>
      row.reviewId = workflow.reviewId ∧ own row.organizationId row.workspaceId)).map
        (assignmentJson codec)
    comments := (orderedBy (·.createdAt) (·.id) (db.comments.filter fun row =>
      row.reviewId = workflow.reviewId ∧ own row.organizationId row.workspaceId)).map
        (commentJson codec)
    findings := ((db.findings.filter fun row => own row.organizationId row.workspaceId ∧
      db.evaluations.any fun evaluation => evaluation.id = row.evaluationId ∧
        evaluation.organizationId = workflow.organizationId ∧
        evaluation.agreementId = candidate.review.agreementId).insertionSort fun one other =>
          one.id.bits.toNat ≤ other.id.bits.toNat).map findingJson
    auditEventIds := (orderedBy (·.occurredAt) (·.id) (db.auditEvents.filter fun row =>
      row.resourceId = some workflow.reviewId ∧ own row.organizationId row.workspaceId)).map
        fun row => uuidJson row.id }

/-- The last correlation of the workflow, if it is a text. -/
def correlationOf (db : Tables (OutboxRow φ)) (workflow : WorkflowRow) : String :=
  let events := db.outbox.filter fun event => event.workflowId = workflow.id ∧
    event.organizationId = workflow.organizationId ∧ event.workspaceId = workflow.workspaceId
  match (orderedBy (·.createdAt) (·.id) events).getLast? with
  | none => "migration-0035-" ++ workflow.id.str
  | some event =>
    if event.correlationId = "" then "migration-0035-" ++ workflow.id.str
    else event.correlationId

/-- `object_base` -/
def backfillBase (candidate : Candidate) : String :=
  let base := "reviews/" ++ candidate.workflow.organizationId.str ++ "/" ++
    candidate.workflow.workspaceId.str ++ "/" ++ candidate.workflow.reviewId.str ++ "/final-package"
  if candidate.package.isSome then base ++ "/recovery-0035" else base

def Candidate.manifestKey (candidate : Candidate) : String :=
  backfillBase candidate ++ "/manifest.json"

def Candidate.pdfKey (candidate : Candidate) : String :=
  backfillBase candidate ++ "/report.pdf"

def repairSource : String := "postgresql-terminal-migration-package-repair"

def provenanceOf (candidate : Candidate) (correlationId : String) (eventId : Uuid) : Fields φ :=
  [("generator", .string "review-final-package-worker"),
    ("source", .string (if candidate.package.isSome then repairSource
      else "postgresql-terminal-migration-snapshot")),
    ("workflow_correlation_id", .string correlationId),
    ("workflow_event_id", uuidJson eventId),
    ("workflow_revision", .int candidate.workflow.revision)]

def manifestOf (candidate : Candidate) (contents : Contents φ) (correlationId : String)
    (eventId : Uuid) : Fields φ :=
  [("organization_id", uuidJson candidate.workflow.organizationId),
    ("workspace_id", uuidJson candidate.workflow.workspaceId),
    ("review_id", uuidJson candidate.workflow.reviewId),
    ("agreement_id", uuidJson candidate.review.agreementId),
    ("agreement_version_id", optionalUuid candidate.review.agreementVersionId),
    ("workflow_id", uuidJson candidate.workflow.id),
    ("policy_version_id", uuidJson candidate.workflow.policyVersionId),
    ("manifest_key", .string candidate.manifestKey),
    ("pdf_key", .string candidate.pdfKey),
    ("state", .string candidate.workflow.state),
    ("revision", .int candidate.workflow.revision),
    ("decisions", .array contents.decisions),
    ("stages", .array contents.stages),
    ("assignments", .array contents.assignments),
    ("comments", .array contents.comments),
    ("findings", .array contents.findings),
    ("audit_event_ids", .array contents.auditEventIds),
    ("provenance", .object (provenanceOf candidate correlationId eventId))]

/-- The lines of the report. -/
def reportLines (candidate : Candidate) (manifestChecksum : String) : List String :=
  ["Agreement Intelligence - Final Review Package",
    "Agreement ID: " ++ candidate.review.agreementId.str,
    "Review ID: " ++ candidate.workflow.reviewId.str,
    "Outcome: " ++ candidate.workflow.state,
    "Manifest checksum: sha256:" ++ manifestChecksum]

def repairOf (package : PackageRow) (manifestChecksum pdfChecksum : String) : Fields φ :=
  [("source", .string repairSource),
    ("package_id", uuidJson package.id),
    ("legacy_workflow_id", uuidJson package.workflowId),
    ("legacy_state", .string package.state),
    ("legacy_manifest_key", .string package.manifestKey),
    ("legacy_pdf_key", .string package.pdfKey),
    ("legacy_manifest_checksum", .string package.manifestChecksum),
    ("legacy_pdf_checksum", .string package.pdfChecksum),
    ("manifest_checksum", .string manifestChecksum),
    ("pdf_checksum", .string pdfChecksum)]

def manifestChecksumOf (codec : BackfillCodec φ) (manifest : Fields φ) : String :=
  hexdigest (utf8 (dumps codec.floatText (.object manifest)))

/-- `snapshot` -/
def snapshotOf (codec : BackfillCodec φ) (candidate : Candidate) (manifest : Fields φ) :
    Except PackageError (Fields φ) :=
  match candidate.package with
  | none => .ok manifest
  | some package =>
    let manifestChecksum := manifestChecksumOf codec manifest
    match deterministicPdf (reportLines candidate manifestChecksum) with
    | none => .error .encoding
    | some pdfContent => .ok [("manifest", .object manifest),
        ("legacy_manifest_key", .string package.manifestKey),
        ("legacy_pdf_key", .string package.pdfKey),
        ("repair", .object (repairOf package manifestChecksum (hexdigest pdfContent)))]

def backfillKey (workflowId : Uuid) : String :=
  "workflow:" ++ workflowId.str ++ ":terminal-package-backfill:0035"

def backfillRow (codec : BackfillCodec φ) (candidate : Candidate) (correlationId : String)
    (eventId : Uuid) (snapshot : Fields φ) (now : Time) : OutboxRow φ where
  id := eventId
  workflowId := candidate.workflow.id
  organizationId := candidate.workflow.organizationId
  workspaceId := candidate.workflow.workspaceId
  eventType := terminalEvent
  correlationId := correlationId
  idempotencyKey := backfillKey candidate.workflow.id
  deliveredAt := none
  processedAt := none
  createdAt := now
  packageSnapshot := some (codec.stored snapshot)
  packageManifestKey := some candidate.manifestKey
  packagePdfKey := some candidate.pdfKey
  attemptCount := 0
  nextAttemptAt := none
  leaseOwner := none
  leaseExpiresAt := none
  lastError := none

/-- The row of a workflow, under the uuid4 that is drawn for it. -/
def backfillEvent (codec : BackfillCodec φ) (db : Tables (OutboxRow φ)) (uuid4 : Uuid → Uuid)
    (now : Time) (candidate : Candidate) : Except PackageError (OutboxRow φ) := do
  let eventId := uuid4 candidate.workflow.id
  let correlationId := correlationOf db candidate.workflow
  let manifest := manifestOf candidate (contentsOf codec db candidate) correlationId eventId
  let snapshot ← snapshotOf codec candidate manifest
  pure (backfillRow codec candidate correlationId eventId snapshot now)

/-- `INSERT … ON CONFLICT (idempotency_key) DO NOTHING` -/
def insertEvent (db : Tables (OutboxRow φ)) (row : OutboxRow φ) :
    Except PackageError (Tables (OutboxRow φ)) :=
  if ∃ old ∈ db.outbox, old.idempotencyKey = row.idempotencyKey then .ok db
  else if ∃ old ∈ db.outbox, old.id = row.id then .error .database
  else .ok { db with outbox := db.outbox ++ [row] }

def backfillEach (codec : BackfillCodec φ) (uuid4 : Uuid → Uuid) (now : Time) :
    Tables (OutboxRow φ) → List Candidate → Except PackageError (Tables (OutboxRow φ))
  | db, [] => .ok db
  | db, candidate :: rest => do
    let row ← backfillEvent codec db uuid4 now candidate
    let db ← insertEvent db row
    backfillEach codec uuid4 now db rest

def backfillOrganizations (codec : BackfillCodec φ) (uuid4 : Uuid → Uuid) (now : Time) :
    Tables (OutboxRow φ) → List Uuid → Except PackageError (Tables (OutboxRow φ))
  | db, [] => .ok db
  | db, organizationId :: rest => do
    let db ← backfillEach codec uuid4 now db (candidates db organizationId)
    backfillOrganizations codec uuid4 now db rest

/-! `upgrade` -/

/-- The added columns of an old row. -/
def addColumns (event : EventRow) : OutboxRow φ :=
  ⟨event, none, none, none, 0, none, none, none, none⟩

def Tables.withColumns (db : Tables EventRow) : Tables (OutboxRow φ) :=
  { db with outbox := db.outbox.map addColumns }

/-- `ck_review_workflow_outbox_terminal_package` -/
def checked (event : OutboxRow φ) : Bool :=
  event.eventType ≠ terminalEvent || event.processedAt.isSome ||
    (event.packageSnapshot.isSome && event.packageManifestKey.isSome && event.packagePdfKey.isSome)

def upgrade (codec : BackfillCodec φ) (uuid4 : Uuid → Uuid) (now : Time) (db : Tables EventRow) :
    Except PackageError (Tables (OutboxRow φ)) := do
  let db ← backfillOrganizations codec uuid4 now db.withColumns
    (db.organizations.insertionSort fun one other => one.bits.toNat ≤ other.bits.toNat)
  if db.outbox.all checked then pure db else .error .database

/-! The triggers -/

/-- `value -> key` -/
def arrow (value : Option (Json φ)) (key : String) : Option (Json φ) :=
  match value with
  | some (.object fields) => fields.lookup key
  | _ => none

/-- `value ->> key` -/
def arrowText (codec : BackfillCodec φ) (value : Option (Json φ)) (key : String) :
    Option String :=
  match arrow value key with
  | none | some .null => none
  | some (.string text) => some text
  | some other => some (codec.jsonText other)

/-- `prevent_review_final_package_mutation` on an update: what the one exception asks of an event
and its workflow. -/
def repairs (codec : BackfillCodec φ) (setting : Option String) (event : OutboxRow φ)
    (workflow : WorkflowRow) (old new : PackageRow) : Bool :=
  let snapshot := event.packageSnapshot.map Json.object
  let repair := arrow snapshot "repair"
  some event.id.str = setting && event.eventType = terminalEvent && event.processedAt.isNone &&
    event.idempotencyKey = backfillKey event.workflowId &&
    event.organizationId = old.organizationId && event.workspaceId = old.workspaceId &&
    workflow.reviewId = old.reviewId &&
    arrowText codec repair "source" = some repairSource &&
    arrowText codec repair "package_id" = some old.id.str &&
    arrowText codec repair "legacy_workflow_id" = some old.workflowId.str &&
    arrowText codec repair "legacy_state" = some old.state &&
    arrowText codec repair "legacy_manifest_key" = some old.manifestKey &&
    arrowText codec repair "legacy_pdf_key" = some old.pdfKey &&
    arrowText codec repair "legacy_manifest_checksum" = some old.manifestChecksum &&
    arrowText codec repair "legacy_pdf_checksum" = some old.pdfChecksum &&
    event.packageManifestKey = some new.manifestKey && event.packagePdfKey = some new.pdfKey &&
    arrowText codec repair "manifest_checksum" = some new.manifestChecksum &&
    arrowText codec repair "pdf_checksum" = some new.pdfChecksum &&
    new.id = old.id && new.organizationId = old.organizationId &&
    new.workspaceId = old.workspaceId && new.reviewId = old.reviewId &&
    new.workflowId = event.workflowId &&
    some new.state = arrowText codec (arrow snapshot "manifest") "state" &&
    new.createdAt = old.createdAt

def admitsPackageUpdate (codec : BackfillCodec φ) (db : Tables (OutboxRow φ))
    (setting : Option String) (old new : PackageRow) : Bool :=
  db.outbox.any fun event => db.workflows.any fun workflow =>
    workflow.id = event.workflowId && repairs codec setting event workflow old new

/-- The fields of an event that its delivery does not touch. -/
def sameBusiness (codec : BackfillCodec φ) (old new : OutboxRow φ) : Bool :=
  new.id = old.id && new.workflowId = old.workflowId &&
    new.organizationId = old.organizationId && new.workspaceId = old.workspaceId &&
    new.eventType = old.eventType && new.correlationId = old.correlationId &&
    new.idempotencyKey = old.idempotencyKey &&
    codec.sameDocument new.packageSnapshot old.packageSnapshot &&
    new.packageManifestKey = old.packageManifestKey && new.packagePdfKey = old.packagePdfKey &&
    new.createdAt = old.createdAt

/-- `prevent_terminal_package_snapshot_mutation` on an update. -/
def admitsEventUpdate (codec : BackfillCodec φ) (old new : OutboxRow φ) : Bool :=
  (old.eventType ≠ terminalEvent && new.eventType ≠ terminalEvent) || sameBusiness codec old new

/-! `TerminalReviewPackageGenerator` -/

/-- What the worker writes to. -/
structure Store (φ : Type) where
  tables : Tables (OutboxRow φ)
  objects : Keyed fun object : PackageObject => object.key
  audit : List PackageAudit

/-- The event as the worker reads it, with the agreement that its joins find. -/
def OutboxRow.packageEvent (event : OutboxRow φ) (agreementId : Uuid) : PackageEvent φ where
  id := event.id
  workflowId := event.workflowId
  organizationId := event.organizationId
  workspaceId := event.workspaceId
  agreementId := agreementId
  eventType := event.eventType
  correlationId := event.correlationId
  packageSnapshot := event.packageSnapshot
  packageManifestKey := event.packageManifestKey
  packagePdfKey := event.packagePdfKey
  processedAt := event.processedAt

def OutboxRow.prepare (codec : BackfillCodec φ) (event : OutboxRow φ) (agreementId : Uuid) :
    Except PackageError (PreparedFinalPackage φ) :=
  prepareEvent codec.toPackageCodec (event.packageEvent agreementId) event.workflowId
    event.correlationId

/-- `_ensure_object`, while nobody else writes. -/
def ensureObject (objects : Keyed fun object : PackageObject => object.key)
    (object : PackageObject) :
    Except PackageError (Keyed fun object : PackageObject => object.key) :=
  match objects.rows.find? fun stored => stored.key = object.key with
  | some stored =>
    if PackageSystem.asExpected object stored then .ok objects
    else .error (.conflict ("immutable object conflict: " ++ object.key))
  | none =>
    match objects.insert object with
    | some grown => .ok grown
    | none => .error (.conflict ("immutable object conflict: " ++ object.key))

def ensureObjects (objects : Keyed fun object : PackageObject => object.key) :
    List PackageObject → Except PackageError (Keyed fun object : PackageObject => object.key)
  | [] => .ok objects
  | object :: rest => do
    let objects ← ensureObject objects object
    ensureObjects objects rest

/-- The `INSERT` of `commit`, with the keys of the table. -/
def insertPackage (db : Tables (OutboxRow φ)) (row : PackageRow) :
    Except PackageError (Tables (OutboxRow φ)) :=
  if ∃ old ∈ db.packages, old.Clashes row.toFinalPackageRecord then .error .database
  else .ok { db with packages := db.packages ++ [row] }

/-- The update of `_repair_metadata` on a row. -/
def repaired (codec : BackfillCodec φ) (prepared : PreparedFinalPackage φ) (row : PackageRow) :
    PackageRow :=
  { row with
    toFinalPackageRecord := repairedRow codec.toPackageCodec prepared row.toFinalPackageRecord }

/-- An update of a row of `review_final_packages`. -/
structure PackageUpdate where
  old : PackageRow
  new : PackageRow
  deriving DecidableEq, Repr

/-- `_repair_metadata`, with the updates that it comes to; the trigger looks at each of them. -/
def repairMetadata (codec : BackfillCodec φ) (db : Tables (OutboxRow φ))
    (prepared : PreparedFinalPackage φ) (existing : FinalPackageRecord) :
    Except PackageError (Tables (OutboxRow φ) × List PackageUpdate) :=
  let hit (row : PackageRow) : Bool := ToRepair prepared existing row.toFinalPackageRecord
  let updates := (db.packages.filter hit).map fun row => ⟨row, repaired codec prepared row⟩
  let packages := db.packages.map fun row => if hit row then repaired codec prepared row else row
  if updates.all fun update =>
      admitsPackageUpdate codec db (some prepared.eventId.str) update.old update.new then
    if packages.Pairwise fun one other =>
        ¬ one.Clashes other.toFinalPackageRecord then
      if updates.length = 1 then .ok ({ db with packages }, updates)
      else .error (.conflict "legacy final package metadata changed during repair")
    else .error .database
  else .error .database

/-- `commit`, with the updates of package rows that it comes to. -/
def commitPackage (codec : BackfillCodec φ) (store : Store φ) (prepared : PreparedFinalPackage φ)
    (packageId : Uuid) (now : Time) : Except PackageError (Store φ × List PackageUpdate) := do
  let rows := store.tables.packages.map (·.toFinalPackageRecord)
  let existing ← existingPackage codec.toPackageCodec rows prepared
  let objects ← ensureObjects store.objects prepared.objects
  match existing with
  | none => do
    let row ← packageRow codec.toPackageCodec prepared packageId
    let tables ← insertPackage store.tables ⟨row, now⟩
    pure (⟨tables, objects, PackageSystem.recordAudit store.audit prepared packageId⟩, [])
  | some existing => do
    let (tables, updates) ←
      if metadataMatches codec.toPackageCodec existing prepared then pure (store.tables, [])
      else repairMetadata codec store.tables prepared existing
    pure (⟨tables, objects, PackageSystem.recordAudit store.audit prepared existing.id⟩, updates)

/-! `SQLAlchemyWorkflowEventProcessor` -/

/-- The agreement that the joins of the worker find. -/
def agreementOf (db : Tables (OutboxRow φ)) (event : OutboxRow φ) : Option Uuid := do
  let workflow ← db.workflows.find? fun row => row.id = event.workflowId
  let review ← db.reviews.find? fun row => row.id = workflow.reviewId
  some review.agreementId

def markProcessed (db : Tables (OutboxRow φ)) (eventId : Uuid) (now : Time) :
    Tables (OutboxRow φ) :=
  { db with outbox := db.outbox.map fun event =>
      if event.id = eventId ∧ event.processedAt = none then
        { event with processedAt := some now }
      else event }

structure Delivery where
  eventId : Uuid
  packageId : Uuid
  now : Time
  deriving DecidableEq, Repr

/-- `process` of one event at a time, with the uuid4 and the clock that it draws. Nobody asks for
the deletion of the agreement. -/
def process (codec : BackfillCodec φ) (store : Store φ) (delivery : Delivery) :
    Except PackageError (Store φ × List PackageUpdate) :=
  match store.tables.outbox.find? fun event => event.id = delivery.eventId with
  | none => .ok (store, [])
  | some event =>
    match agreementOf store.tables event with
    | none => .ok (store, [])
    | some agreementId =>
      let marked (store : Store φ) : Store φ :=
        { store with tables := markProcessed store.tables event.id delivery.now }
      if event.processedAt.isSome then .ok (store, [])
      else if event.eventType = terminalEvent then do
        let prepared ← event.prepare codec agreementId
        let (store, updates) ← commitPackage codec store prepared delivery.packageId delivery.now
        pure (marked store, updates)
      else .ok (marked store, [])

/-- Deliveries one after another, each with the updates of package rows that it comes to. -/
def runDeliveries (codec : BackfillCodec φ) : Store φ → List Delivery →
    Except PackageError (Store φ × List (Delivery × List PackageUpdate))
  | store, [] => .ok (store, [])
  | store, delivery :: rest => do
    let (store, updates) ← process codec store delivery
    let (store, log) ← runDeliveries codec store rest
    pure (store, (delivery, updates) :: log)

end AgreementIntelligence.Reviews.Backfill
