import AgreementIntelligence.Agreements.ObjectKeys
import AgreementIntelligence.Agreements.Submissions
import AgreementIntelligence.Agreements.System
import AgreementIntelligence.Reviews.Workflow

/-! Everything that writes the key of a stored object into the database: agreements that are
created with files, versions that are uploaded, jobs that go through the workers, review
cases with their terminal events and final packages, and the migration that writes terminal
events for the workflows it finds. A review case, its workflow and its package are known
here by their identifiers and by the agreement; a call that replays an earlier one under
its idempotency key writes nothing and is no event. -/

namespace AgreementIntelligence.Agreements
open Identity Lib.Table Lib.Results Lib.Runs

/-! Agreements -/

/-- The lengths that the `AgreementFile` schema asks for. -/
def AgreementFile.Accepted (file : AgreementFile) : Prop :=
  (1 ≤ file.storageKey.length ∧ file.storageKey.length ≤ 1024) ∧
    (1 ≤ file.checksum.length ∧ file.checksum.length ≤ 255) ∧
      1 ≤ file.contentType.length ∧ file.contentType.length ≤ 100

instance (file : AgreementFile) : Decidable file.Accepted :=
  inferInstanceAs (Decidable (_ ∧ _))

/-- `CreateAgreementRequest`, validated. -/
structure CreateAgreementRequest where
  files : List AgreementFile
  processingState : ProcessingState
  accepted : ∀ file ∈ files, file.Accepted
  notDeleted : processingState ≠ .deleted

def createdAgreement (organizationId workspaceId : Uuid) (request : CreateAgreementRequest)
    (agreementId : Uuid) : AgreementRecord where
  id := agreementId
  organizationId := organizationId
  workspaceId := workspaceId
  files := request.files
  processingState := request.processingState
  currentVersionId := none
  archivedAt := none
  deletionRequestedAt := none

/-- The version that stands for the last file of a new agreement. -/
def initialVersion (agreement : AgreementRecord) (source : AgreementFile) (versionId : Uuid) :
    AgreementVersionRecord where
  id := versionId
  agreementId := agreement.id
  organizationId := agreement.organizationId
  workspaceId := agreement.workspaceId
  versionNumber := 1
  storageKey := source.storageKey
  checksum := source.checksum
  contentType := source.contentType
  processingState := agreement.processingState
  processingJobId := none
  idempotencyKey := "initial:" ++ agreement.id.str

/-- `AgreementService.create` -/
def createAgreement (db : Database) (organizationId workspaceId : Uuid)
    (request : CreateAgreementRequest) (agreementId versionId : Uuid) :
    Except Raised Database :=
  if db.agreements.any fun agreement => agreement.id = agreementId then
    .error (.runtime "IntegrityError")
  else
    let agreement := createdAgreement organizationId workspaceId request agreementId
    let created := { db with agreements := db.agreements ++ [agreement] }
    match request.files.getLast? with
    | none => .ok created
    | some source => do
      let inserted ← insertVersion created (initialVersion agreement source versionId)
      .ok { inserted with agreements := update (·.id) inserted.agreements agreementId fun row =>
        { row with currentVersionId := some versionId } }

def DocumentExtension.contentType : DocumentExtension → String
  | .pdf => "application/pdf"
  | .docx => "application/vnd.openxmlformats-officedocument.wordprocessingml.document"

/-- `DocumentService.upload_validated` -/
def uploadedDocument (organizationId workspaceId : Uuid) (sha256 : Sha256)
    (extension : DocumentExtension) : UploadedDocument where
  objectKey := documentKey organizationId workspaceId sha256 extension
  sha256 := sha256.text
  contentType := extension.contentType

/-! Reviews and packages -/

structure ReviewCaseRecord where
  id : Uuid
  organizationId : Uuid
  workspaceId : Uuid
  agreementId : Uuid
  deriving DecidableEq, Repr

def ReviewCaseRecord.packageBase (review : ReviewCaseRecord) : String :=
  Agreements.packageBase review.organizationId review.workspaceId review.id

/-- The new case of `ReviewCollaborationService.start`. -/
def startReview (db : Database) (reviews : List ReviewCaseRecord)
    (organizationId workspaceId agreementId reviewId : Uuid) :
    Except Raised (List ReviewCaseRecord) := do
  let agreement ← agreementInScope db agreementId organizationId workspaceId
  if reviews.any fun review => review.id = reviewId then .error (.runtime "IntegrityError")
  else .ok (reviews ++ [⟨reviewId, organizationId, workspaceId, agreement.id⟩])

/-- The row that `_emit` adds. -/
def emittedEvent (review : ReviewCaseRecord) (eventType : String) :
    ReviewWorkflowOutboxRecord :=
  let terminal := eventType = terminalEventType
  { organizationId := review.organizationId
    workspaceId := review.workspaceId
    reviewId := review.id
    agreementId := review.agreementId
    eventType := eventType
    packageManifestKey := if terminal then some (manifestKey review.packageBase) else none
    packagePdfKey := if terminal then some (pdfKey review.packageBase) else none
    packageSnapshot := if terminal then some ⟨none, none, none⟩ else none }

/-- The workflow of a case emits its rows with these keys. -/
theorem emittedEvent_keys {env : Reviews.CallEnv} {db : Reviews.ReviewDb}
    {workflow : Reviews.ReviewWorkflow} {review : ReviewCaseRecord} {eventId : Uuid}
    {eventType correlationId idempotencyKey : String} {row : Reviews.ReviewWorkflowOutboxEvent}
    (organization : review.organizationId = workflow.organizationId)
    (workspace : review.workspaceId = workflow.workspaceId) (id : review.id = workflow.reviewId)
    (done : Reviews.emit env db workflow eventId eventType correlationId idempotencyKey =
      .ok row) :
    row.packageManifestKey = (emittedEvent review eventType).packageManifestKey ∧
      row.packagePdfKey = (emittedEvent review eventType).packagePdfKey := by
  have base : review.packageBase = Reviews.packageBase workflow workflow.reviewId := by
    rw [ReviewCaseRecord.packageBase, organization, workspace, id]
    rfl
  unfold Reviews.emit at done
  by_cases terminal : eventType = terminalEventType
  · rw [if_pos (show eventType = Reviews.terminalEvent from terminal)] at done
    obtain ⟨package, -, rest⟩ := bind_ok.mp done
    cases rest
    simp [emittedEvent, terminal, manifestKey, pdfKey, base]
  · rw [if_neg (show eventType ≠ Reviews.terminalEvent from terminal)] at done
    cases done
    simp [emittedEvent, terminal]

/-- A transition of the workflow of a case; it looks the case up under its agreement. -/
def emit (db : Database) (review : ReviewCaseRecord) (eventType : String) :
    Except Raised Database := do
  let _ ← agreementInScope db review.agreementId review.organizationId review.workspaceId
  .ok { db with workflowOutbox := db.workflowOutbox ++ [emittedEvent review eventType] }

def Database.packageOf (db : Database) (reviewId : Uuid) : Option ReviewFinalPackageRecord :=
  db.finalPackages.find? fun package => package.reviewId = reviewId

/-- The insert of a package, with the keys of the table. -/
def insertPackage (db : Database) (package : ReviewFinalPackageRecord) : Except Raised Database :=
  if db.finalPackages.any fun row => row.id = package.id ∨ row.reviewId = package.reviewId ∨
      row.manifestKey = package.manifestKey ∨ row.pdfKey = package.pdfKey then
    .error (.runtime "IntegrityError")
  else .ok { db with finalPackages := db.finalPackages ++ [package] }

/-- `reserve_final_package_intent` for a terminal workflow; `agrees` tells whether the columns
of an existing package that are left out here are the ones of the call. -/
def reserveFinalPackageIntent (db : Database) (review : ReviewCaseRecord)
    (manifestKey pdfKey : String) (packageId : Uuid) (agrees : Bool) : Except Raised Database := do
  let _ ← agreementInScope db review.agreementId review.organizationId review.workspaceId
  match db.packageOf review.id with
  | some existing =>
    if existing.manifestKey ≠ manifestKey ∨ existing.pdfKey ≠ pdfKey ∨ agrees = false then
      .error (.runtime "final_package_intent_conflict")
    else .ok db
  | none =>
    insertPackage db ⟨packageId, review.organizationId, review.workspaceId, review.id,
      review.agreementId, manifestKey, pdfKey⟩

/-- The row of `_backfill_terminal_package_event` for a terminal workflow: it finds the
package of an earlier release to be repaired, or none. -/
def backfilledEvent (review : ReviewCaseRecord) (package : Option ReviewFinalPackageRecord) :
    ReviewWorkflowOutboxRecord :=
  let objectBase :=
    if package.isSome then recoveryBase review.organizationId review.workspaceId review.id
    else review.packageBase
  { organizationId := review.organizationId
    workspaceId := review.workspaceId
    reviewId := review.id
    agreementId := review.agreementId
    eventType := terminalEventType
    packageManifestKey := some (manifestKey objectBase)
    packagePdfKey := some (pdfKey objectBase)
    packageSnapshot := some {
      legacyManifestKey := package.map (·.manifestKey)
      legacyPdfKey := package.map (·.pdfKey)
      repairPackageId := package.map (·.id) } }

/-- The package that the migration joins to a workflow. -/
def Database.packageToRepair (db : Database) (review : ReviewCaseRecord) :
    Option ReviewFinalPackageRecord :=
  db.finalPackages.find? fun package => package.reviewId = review.id ∧
    package.organizationId = review.organizationId ∧ package.workspaceId = review.workspaceId

def backfillTerminalPackageEvent (db : Database) (review : ReviewCaseRecord) : Database :=
  { db with
    workflowOutbox := db.workflowOutbox ++ [backfilledEvent review (db.packageToRepair review)] }

def finalPackageConflict {α : Type} : Except Raised α :=
  .error (.runtime "FinalPackageConflictError")

/-- The keys of `TerminalReviewPackageGenerator.prepare`, for an event whose other entries
are in order. -/
def preparedKeys (event : ReviewWorkflowOutboxRecord) :
    Except Raised (PackageSnapshot × String × String) :=
  match event.packageSnapshot with
  | none => finalPackageConflict
  | some snapshot =>
    let base := if snapshot.repairPackageId.isSome then
      recoveryBase event.organizationId event.workspaceId event.reviewId
    else packageBase event.organizationId event.workspaceId event.reviewId
    if event.eventType ≠ terminalEventType ∨ event.packageManifestKey ≠ some (manifestKey base) ∨
        event.packagePdfKey ≠ some (pdfKey base) then finalPackageConflict
    else .ok (snapshot, manifestKey base, pdfKey base)

/-- The package row of a review after `_repair_metadata`. -/
def repairedPackage (manifestKey pdfKey : String) (package : ReviewFinalPackageRecord) :
    ReviewFinalPackageRecord :=
  { package with manifestKey := manifestKey, pdfKey := pdfKey }

/-- `TerminalReviewPackageGenerator.commit`, behind the lock on the active agreement; `agrees`
tells whether the columns of an existing package that are left out here are the ones of the
event. -/
def generatePackage (db : Database) (event : ReviewWorkflowOutboxRecord) (packageId : Uuid)
    (agrees : Bool) : Except Raised Database := do
  let (snapshot, manifestKey, pdfKey) ← preparedKeys event
  let _ ← agreementInScope db event.agreementId event.organizationId event.workspaceId
  match db.packageOf event.reviewId, snapshot.repairPackageId with
  | some existing, none =>
    if existing.manifestKey ≠ manifestKey ∨ existing.pdfKey ≠ pdfKey ∨ agrees = false then
      finalPackageConflict
    else .ok db
  | some existing, some repairPackageId =>
    if repairPackageId ≠ existing.id ∨ snapshot.legacyManifestKey ≠ some existing.manifestKey ∨
        snapshot.legacyPdfKey ≠ some existing.pdfKey then finalPackageConflict
    else .ok { db with
      finalPackages := update (·.id) db.finalPackages repairPackageId
        (repairedPackage manifestKey pdfKey) }
  | none, none =>
    insertPackage db ⟨packageId, event.organizationId, event.workspaceId, event.reviewId,
      event.agreementId, manifestKey, pdfKey⟩
  | none, some _ => finalPackageConflict

/-! The machine -/

structure CatalogWorld where
  system : World
  reviews : List ReviewCaseRecord

inductive CatalogEvent where
  /-- A worker, a retry, or a deletion. -/
  | system (event : Event)
  | createAgreement (organizationId workspaceId : Uuid) (request : CreateAgreementRequest)
      (agreementId versionId : Uuid)
  | createVersion (organizationId workspaceId agreementId : Uuid) (expectedCurrentVersion : Nat)
      (idempotencyKey : String) (sha256 : Sha256) (extension : DocumentExtension)
      (versionId : Uuid)
  | submit (organizationId workspaceId agreementId : Uuid) (versionId : Option Uuid)
      (idempotencyKey profile : String) (now : Time) (jobId : Uuid)
  | submitComparison (organizationId workspaceId agreementId : Uuid)
      (baselineId targetId : Option Uuid) (idempotencyKey analysisVersion : String) (now : Time)
      (comparisonId jobId : Uuid)
  | enqueueEmbeddingReindexJob (organizationId workspaceId agreementId : Uuid)
      (configurationId buildId : Uuid) (sourceChecksum : String) (now : Time) (jobId : Uuid)
  | startReview (organizationId workspaceId agreementId reviewId : Uuid)
  | emit (review : ReviewCaseRecord) (eventType : String)
  | reserveFinalPackageIntent (review : ReviewCaseRecord) (manifestKey pdfKey : String)
      (packageId : Uuid) (agrees : Bool)
  | backfill (review : ReviewCaseRecord)
  | generatePackage (event : ReviewWorkflowOutboxRecord) (packageId : Uuid) (agrees : Bool)

/-- The identifiers that a `uuid4()` draws and that somebody has to draw only once: the one of
a deletion request, and the one of a job that a worker may still hold a claim on. -/
def CatalogEvent.Redraws (w : World) : CatalogEvent → Prop
  | .system (.acceptDeletion _ _ _ deletionId _) =>
    ∃ request ∈ w.db.deletionRequests, request.id = deletionId
  | .submit _ _ _ _ _ _ _ jobId => ∃ claim ∈ w.claims, claim.id = jobId
  | .submitComparison _ _ _ _ _ _ _ _ _ jobId => ∃ claim ∈ w.claims, claim.id = jobId
  | .enqueueEmbeddingReindexJob _ _ _ _ _ _ _ jobId => ∃ claim ∈ w.claims, claim.id = jobId
  | _ => False

instance (w : World) (event : CatalogEvent) : Decidable (event.Redraws w) := by
  unfold CatalogEvent.Redraws
  split <;> infer_instance

/-- The world after a transaction of the API or of a package worker. -/
def CatalogWorld.transact (w : CatalogWorld) (outcome : Except Raised Database) : CatalogWorld :=
  { w with system := w.system.transact outcome }

def catalogCall (w : CatalogWorld) : CatalogEvent → CatalogWorld
  | .system event => { w with system := step w.system event }
  | .createAgreement organizationId workspaceId request agreementId versionId =>
    w.transact (createAgreement w.system.db organizationId workspaceId request agreementId versionId)
  | .createVersion organizationId workspaceId agreementId expectedCurrentVersion idempotencyKey
      sha256 extension versionId =>
    w.transact (createVersion w.system.db organizationId workspaceId agreementId
      expectedCurrentVersion idempotencyKey
      (uploadedDocument organizationId workspaceId sha256 extension) versionId)
  | .submit organizationId workspaceId agreementId versionId idempotencyKey profile now jobId =>
    w.transact ((submit w.system.db organizationId workspaceId agreementId versionId
      idempotencyKey profile now jobId).map (·.db))
  | .submitComparison organizationId workspaceId agreementId baselineId targetId idempotencyKey
      analysisVersion now comparisonId jobId =>
    w.transact ((submitComparison w.system.db organizationId workspaceId agreementId baselineId
      targetId idempotencyKey analysisVersion now comparisonId jobId).map Prod.snd)
  | .enqueueEmbeddingReindexJob organizationId workspaceId agreementId configurationId buildId
      sourceChecksum now jobId =>
    w.transact ((enqueueEmbeddingReindexJob w.system.db organizationId workspaceId agreementId
      configurationId buildId sourceChecksum now jobId).map Prod.snd)
  | .startReview organizationId workspaceId agreementId reviewId =>
    match startReview w.system.db w.reviews organizationId workspaceId agreementId reviewId with
    | .error _ => w
    | .ok reviews => { w with reviews := reviews }
  | .emit review eventType =>
    if review ∈ w.reviews then w.transact (emit w.system.db review eventType) else w
  | .reserveFinalPackageIntent review manifestKey pdfKey packageId agrees =>
    if review ∈ w.reviews then
      w.transact (reserveFinalPackageIntent w.system.db review manifestKey pdfKey packageId agrees)
    else w
  | .backfill review =>
    if review ∈ w.reviews then
      w.transact (.ok (backfillTerminalPackageEvent w.system.db review))
    else w
  | .generatePackage event packageId agrees =>
    if event ∈ w.system.db.workflowOutbox then
      w.transact (generatePackage w.system.db event packageId agrees)
    else w

def catalogStep (w : CatalogWorld) (event : CatalogEvent) : CatalogWorld :=
  if event.Redraws w.system then w else catalogCall w event

/-- Nothing has been created yet. -/
structure CatalogWorld.Empty (w : CatalogWorld) : Prop where
  agreements : w.system.db.agreements = []
  versions : w.system.db.versions = []
  jobs : w.system.db.jobs = []
  artifacts : w.system.db.artifacts = []
  intents : w.system.db.intents = []
  finalPackages : w.system.db.finalPackages = []
  workflowOutbox : w.system.db.workflowOutbox = []
  deletionRequests : w.system.db.deletionRequests = []
  deletionObjects : w.system.db.deletionObjects = []
  claims : w.system.claims = []
  expected : w.system.expected = []
  reviews : w.reviews = []

/-- Every object that an inventory would list or has listed has a key that the worker accepts
for the deletion. -/
structure Database.Deletable (db : Database) : Prop where
  listed : ∀ agreement ∈ db.agreements, ∀ object ∈ Agreements.deletionObjects db agreement,
    validateOwnedKey agreement.organizationId agreement.workspaceId agreement.id object.1
      object.2 = true
  inventoried : ∀ object ∈ db.deletionObjects, ∀ request ∈ db.deletionRequests,
    request.id = object.deletionId →
      validateOwnedKey request.organizationId request.workspaceId request.agreementId
        object.category object.objectKey = true

end AgreementIntelligence.Agreements
