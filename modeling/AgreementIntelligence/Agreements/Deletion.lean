import AgreementIntelligence.Agreements.Processing

/-! The deletion of an agreement: the request that the API accepts with an inventory of the
objects to remove, the worker's repository behind the lease of the request, the grammar of
the keys that the worker is willing to remove, and the purge. As in processing, a call is
one transaction on the request row; `delete_source_if_unreferenced` also removes an object
from storage inside its transaction. -/

namespace AgreementIntelligence.Agreements
open Identity Lib.Table Lib.Text UuidText

/-! The inventory of the API -/

/-- `_artifact_category` of the API's agreement repository. -/
def artifactCategory (profile : String) : Option ObjectCategory :=
  if profile = versionComparisonProfile then some .comparison
  else if startsWith profile embeddingReindexProfilePrefix then none
  else some .analysis

def terminalEventType : String := "review.workflow.terminal"

/-- The artifact rows of an agreement joined with their jobs. -/
def artifactObjects (db : Database) (agreementId : Uuid) : List (ObjectCategory × String) :=
  (db.artifacts.filter fun row => row.agreementId = agreementId).flatMap fun row =>
    (db.jobs.filter fun job => job.id = row.jobId).filterMap fun job =>
      (artifactCategory job.profile).map fun category => (category, row.artifactKey)

def artifactIntents (db : Database) (agreementId : Uuid) : List (ObjectCategory × String) :=
  (db.intents.filter fun intent => intent.agreementId = agreementId).map fun intent =>
    (intent.category, intent.artifactKey)

def sourceKeys (db : Database) (agreement : AgreementRecord) : List String :=
  ((db.versions.filter fun version => version.agreementId = agreement.id).mergeSort
    fun a b => a.versionNumber ≤ b.versionNumber).map (·.storageKey) ++
  agreement.files.map (·.storageKey)

def comparisonKeys (db : Database) (agreementId : Uuid) : List String :=
  (db.comparisonRuns.filter fun run => run.agreementId = agreementId).map fun run =>
    comparisonArtifactKey run.id

def packageObjects (db : Database) (agreementId : Uuid) : List (ObjectCategory × String) :=
  (db.finalPackages.filter fun package => package.agreementId = agreementId).flatMap
    fun package => [(.reviewManifest, package.manifestKey), (.reviewPdf, package.pdfKey)]

/-- The keys of one terminal event, the ones of its package and of the package before it. -/
def eventObjects (event : ReviewWorkflowOutboxRecord) : List (ObjectCategory × String) :=
  let legacy := event.packageSnapshot
  [(ObjectCategory.reviewManifest, event.packageManifestKey),
    (.reviewPdf, event.packagePdfKey),
    (.reviewManifest, legacy.bind (·.legacyManifestKey)),
    (.reviewPdf, legacy.bind (·.legacyPdfKey))].filterMap
      fun (category, key) => key.map fun key => (category, key)

def terminalPackageIntents (db : Database) (agreementId : Uuid) :
    List (ObjectCategory × String) :=
  (db.workflowOutbox.filter fun event => event.agreementId = agreementId ∧
    event.eventType = terminalEventType ∧ event.packageSnapshot.isSome).flatMap eventObjects

/-- `deletion_objects`, without repetition as `dict.fromkeys` leaves it. -/
def deletionObjects (db : Database) (agreement : AgreementRecord) :
    List (ObjectCategory × String) :=
  ((sourceKeys db agreement).map (fun key => (ObjectCategory.source, key)) ++
    artifactObjects db agreement.id ++ artifactIntents db agreement.id ++
    (comparisonKeys db agreement.id).map (fun key => (ObjectCategory.comparison, key)) ++
    packageObjects db agreement.id ++ terminalPackageIntents db agreement.id).eraseDups

/-- The inventory rows of an accepted deletion, all pending. -/
def inventoryRows (deletionId agreementId : Uuid) (nextObjectId : Nat)
    (objects : List (ObjectCategory × String)) : List AgreementDeletionObjectRecord :=
  objects.mapIdx fun i object => {
    id := nextObjectId + i, deletionId := deletionId, agreementId := agreementId
    category := object.1, objectKey := object.2, state := .pending, lastError := none }

/-- The repository's `accept_deletion`; `deletionId` is the uuid4 key of the request. -/
def insertDeletion (db : Database) (agreement : AgreementRecord) (deletionId : Uuid)
    (now : Time) : Database :=
  let objects := deletionObjects db agreement
  { db with
    deletionRequests := db.deletionRequests ++ [{
      id := deletionId, organizationId := agreement.organizationId
      workspaceId := agreement.workspaceId, agreementId := agreement.id, state := .accepted
      attemptCount := 0, retryCycle := 1, claimToken := none, leaseExpiresAt := none
      nextAttemptAt := now, failureCategory := none, failureMessage := none, acceptedAt := now
      processingStartedAt := none, completedAt := none, failedAt := none }]
    deletionObjects :=
      db.deletionObjects ++ inventoryRows deletionId agreement.id db.nextObjectId objects
    nextObjectId := db.nextObjectId + objects.length
    deletionOutbox := db.deletionOutbox ++ [{
      deletionId := deletionId, agreementId := agreement.id, attemptCount := 0
      nextAttemptAt := now, leaseToken := none, leaseExpiresAt := none, lastError := none
      deliveredAt := none }]
    agreements := update (·.id) db.agreements agreement.id fun row =>
      { row with deletionRequestedAt := some now } }

/-- `redrive_deletion` -/
def redriveDeletion (db : Database) (request : AgreementDeletionRequestRecord) (now : Time) :
    Database :=
  if request.state ≠ .failed then db else
  { db with
    deletionRequests := update (·.id) db.deletionRequests request.id fun row => { row with
      state := .accepted, retryCycle := row.retryCycle + 1, attemptCount := 0
      claimToken := none, leaseExpiresAt := none, nextAttemptAt := now
      failureCategory := none, failureMessage := none, failedAt := none }
    deletionOutbox := update (·.deletionId) db.deletionOutbox request.id fun row => { row with
      deliveredAt := none, leaseToken := none, leaseExpiresAt := none, nextAttemptAt := now
      lastError := none } }

/-- `AgreementService.accept_deletion`: a second call answers with the first request, and
drives it again if it has failed. -/
def acceptDeletion (db : Database) (organizationId workspaceId agreementId deletionId : Uuid)
    (now : Time) : Except Raised Database :=
  match db.deletionRequest? agreementId organizationId workspaceId with
  | some request => .ok (redriveDeletion db request now)
  | none =>
    match db.agreement? agreementId organizationId workspaceId with
    | none => .error (.runtime "AgreementNotFoundError")
    | some agreement =>
      if agreement.deletionRequestedAt.isSome then
        .error (.runtime "agreement deletion cannot be accepted twice")
      else .ok (insertDeletion db agreement deletionId now)

/-! The key grammar of the worker -/

/-- `_is_uuid` -/
def isUuid (value : String) : Bool :=
  (parse? value).isSome

/-- `_is_sha256` -/
def isSha256 (value : String) : Bool :=
  value.length = 64 && value.toList.all fun character => character ∈ "0123456789abcdef".toList

/-- `_validate_owned_key`; `false` when it raises `ObjectCleanupError`. -/
def validateOwnedKey (organizationId workspaceId agreementId : Uuid)
    (category : ObjectCategory) (objectKey : String) : Bool :=
  let parts := splitPath objectKey
  match category with
  | .source => parts.length = 7 &&
      parts.take 5 = ["tenants", organizationId.str, "workspaces", workspaceId.str, "documents"] &&
      isSha256 (parts.getD 5 "") && parts.getD 6 "" ∈ ["original.pdf", "original.docx"]
  | .analysis => parts.length = 9 &&
      parts.take 7 = ["tenants", organizationId.str, "workspaces", workspaceId.str, "agreements",
        agreementId.str, "analysis"] &&
      isSha256 (parts.getD 7 "") && parts.getD 8 "" = "document-analysis.v1.json"
  | .comparison => parts.length = 3 && parts.getD 0 "" = "comparisons" &&
      isUuid (parts.getD 1 "") && parts.getD 2 "" = "version-comparison.v1.json"
  | .reviewManifest => packageKey parts "manifest.json"
  | .reviewPdf => packageKey parts "report.pdf"
where
  packageKey (parts : List String) (expectedFile : String) : Bool :=
    parts.length = 6 && parts.take 3 = ["reviews", organizationId.str, workspaceId.str] &&
      isUuid (parts.getD 3 "") && parts.drop 4 = ["final-package", expectedFile]

/-! The worker's deletion repository -/

/-- `lease_seconds` -/
def deletionLease : Time := 120

/-- `_claim_is_current` -/
def AgreementDeletionRequestRecord.ClaimedBy (request : AgreementDeletionRequestRecord)
    (deletion : AgreementDeletion) : Prop :=
  request.id = deletion.id ∧ request.organizationId = deletion.organizationId ∧
    request.workspaceId = deletion.workspaceId ∧ request.state = .processing ∧
    request.claimToken = some deletion.claimToken

instance (request : AgreementDeletionRequestRecord) (deletion : AgreementDeletion) :
    Decidable (request.ClaimedBy deletion) :=
  inferInstanceAs (Decidable (_ ∧ _))

/-- `_locked_claim` -/
def Database.lockedClaim? (db : Database) (deletion : AgreementDeletion) :
    Option AgreementDeletionRequestRecord :=
  db.deletionRequests.find? fun request => request.ClaimedBy deletion

/-- `UPDATE agreement_deletion_requests … WHERE id = … AND claim_token = …` -/
def Database.updateClaimed (db : Database) (deletion : AgreementDeletion)
    (change : AgreementDeletionRequestRecord → AgreementDeletionRequestRecord) : Database :=
  { db with
    deletionRequests := db.deletionRequests.map fun request =>
      if request.id = deletion.id ∧ request.claimToken = some deletion.claimToken then
        change request
      else request }

/-- The request can be claimed at a time: due, and open or with an expired lease. -/
def AgreementDeletionRequestRecord.Claimable (request : AgreementDeletionRequestRecord)
    (now : Time) : Prop :=
  request.nextAttemptAt ≤ now ∧ (request.state = .accepted ∨ request.state = .retrying ∨
    request.state = .processing ∧ request.leaseExpiresAt.any (· ≤ now))

instance (request : AgreementDeletionRequestRecord) (now : Time) :
    Decidable (request.Claimable now) :=
  inferInstanceAs (Decidable (_ ∧ _))

/-- `SQLAlchemyAgreementDeletionRepository.claim` -/
def claimDeletion (db : Database) (deletionId organizationId workspaceId : Uuid) (now : Time)
    (claimToken : Uuid) : Option AgreementDeletion × Database :=
  match db.deletionRequests.find? fun request => request.id = deletionId ∧
      request.organizationId = organizationId ∧ request.workspaceId = workspaceId ∧
      request.Claimable now with
  | none => (none, db)
  | some request => (some {
      id := deletionId, organizationId := organizationId, workspaceId := workspaceId
      agreementId := request.agreementId, attemptCount := request.attemptCount + 1
      claimToken := claimToken },
    { db with
      deletionRequests := update (·.id) db.deletionRequests deletionId fun row => { row with
        state := .processing, attemptCount := row.attemptCount + 1, claimToken := some claimToken
        leaseExpiresAt := some (now + deletionLease)
        processingStartedAt := some (row.processingStartedAt.getD now)
        failureCategory := none, failureMessage := none } })

/-- `pending_objects` -/
def pendingObjects (db : Database) (deletion : AgreementDeletion) :
    List AgreementDeletionObject :=
  if (db.lockedClaim? deletion).isSome then
    (db.deletionObjects.filter fun object =>
      object.deletionId = deletion.id ∧ object.state = .pending).map fun object =>
        ⟨object.id, object.category, object.objectKey⟩
  else []

/-- `_finish_object` -/
def finishObject (db : Database) (deletion : AgreementDeletion) (objectId : Nat)
    (state : DeletionObjectState) (now : Time) : Database :=
  let finished : Database := { db with
    deletionObjects := db.deletionObjects.map fun object =>
      if object.id = objectId ∧ object.deletionId = deletion.id ∧ object.state = .pending then
        { object with state := state, lastError := none }
      else object }
  finished.updateClaimed deletion fun request =>
    { request with leaseExpiresAt := some (now + deletionLease) }

/-- `mark_deleted` -/
def markDeleted (db : Database) (deletion : AgreementDeletion) (item : AgreementDeletionObject)
    (now : Time) : Except Raised Database :=
  match db.lockedClaim? deletion with
  | none => .error (.runtime "agreement deletion lease was lost")
  | some _ => .ok (finishObject db deletion item.id .deleted now)

/-- The three reasons to preserve a source object: a version or a file of another agreement
of the workspace that is not deletion-requested, or a registration after the request. -/
def sourceIsShared (db : Database) (deletion : AgreementDeletion) (objectKey : String) : Bool :=
  (db.versions.any fun version => version.storageKey = objectKey ∧
    version.agreementId ≠ deletion.agreementId ∧
    version.organizationId = deletion.organizationId ∧
    version.workspaceId = deletion.workspaceId ∧
    db.agreements.any fun agreement => agreement.id = version.agreementId ∧
      agreement.deletionRequestedAt = none) ||
  (db.agreements.any fun agreement => agreement.id ≠ deletion.agreementId ∧
    agreement.organizationId = deletion.organizationId ∧
    agreement.workspaceId = deletion.workspaceId ∧ agreement.deletionRequestedAt = none ∧
    agreement.files.any fun file => file.storageKey = objectKey) ||
  (db.registry.any fun entry => entry.organizationId = deletion.organizationId ∧
    entry.workspaceId = deletion.workspaceId ∧ entry.objectKey = objectKey ∧
    entry.state = .available ∧
    db.deletionRequests.any fun request => request.id = deletion.id ∧
      request.acceptedAt < entry.updatedAt)

/-- The registry entry of a key set to `deleted`, inserted if there is none. -/
def registerDeleted (registry : List DocumentObjectRegistryRecord)
    (organizationId workspaceId : Uuid) (objectKey : String) (now : Time) :
    List DocumentObjectRegistryRecord :=
  let isEntry := fun entry : DocumentObjectRegistryRecord =>
    entry.organizationId = organizationId ∧ entry.workspaceId = workspaceId ∧
      entry.objectKey = objectKey
  if registry.any fun entry => isEntry entry then
    registry.map fun entry =>
      if isEntry entry then { entry with state := .deleted, updatedAt := now } else entry
  else registry ++ [⟨organizationId, workspaceId, objectKey, .deleted, now⟩]

/-- `delete_source_if_unreferenced`: what it leaves of object storage, and its outcome. -/
def deleteSourceIfUnreferenced (db : Database) (storage : List String)
    (deletion : AgreementDeletion) (item : AgreementDeletionObject) (now : Time) :
    List String × Except Raised Database :=
  match db.lockedClaim? deletion with
  | none => (storage, .error (.runtime "agreement deletion lease was lost"))
  | some _ =>
    if ¬ db.deletionObjects.any fun object => object.id = item.id ∧
        object.deletionId = deletion.id ∧ object.state = .pending then
      (storage, .ok db)
    else if sourceIsShared db deletion item.objectKey then
      (storage, .ok (finishObject db deletion item.id .preserved now))
    else
      let registry := registerDeleted db.registry deletion.organizationId deletion.workspaceId
        item.objectKey now
      (storage.filter (· ≠ item.objectKey),
        .ok (finishObject { db with registry := registry } deletion item.id .deleted now))

/-- The outbox row of a deletion made due again. -/
def Database.scheduleOutbox (db : Database) (deletionIds : List Uuid) (nextAttemptAt : Time)
    (message : String) : Database :=
  { db with
    deletionOutbox := db.deletionOutbox.map fun row =>
      if row.deletionId ∈ deletionIds then
        { row with
          deliveredAt := none, leaseToken := none, leaseExpiresAt := none
          nextAttemptAt := nextAttemptAt, lastError := some message }
      else row }

/-- The error of one inventory row. -/
def Database.noteObjectError (db : Database) (deletion : AgreementDeletion) (objectId : Nat)
    (message : String) : Database :=
  { db with
    deletionObjects := db.deletionObjects.map fun object =>
      if object.id = objectId ∧ object.deletionId = deletion.id then
        { object with lastError := some message }
      else object }

/-- The request given up by its claimant, to be tried again. -/
def Database.retryClaim (db : Database) (deletion : AgreementDeletion)
    (category message : String) (nextRetryAt : Time) : Database :=
  (db.updateClaimed deletion fun request => { request with
    state := .retrying, claimToken := none, leaseExpiresAt := none, nextAttemptAt := nextRetryAt
    failureCategory := some category, failureMessage := some message }).scheduleOutbox
      [deletion.id] nextRetryAt message

/-- The request given up by its claimant for good. -/
def Database.failClaim (db : Database) (deletion : AgreementDeletion)
    (category message : String) (now : Time) : Database :=
  (db.updateClaimed deletion fun request => { request with
    state := .failed, claimToken := none, leaseExpiresAt := none
    failureCategory := some category, failureMessage := some message
    failedAt := some now }).scheduleOutbox [deletion.id] now message

/-- `retry` -/
def retryObject (db : Database) (deletion : AgreementDeletion) (objectId : Nat)
    (message : String) (nextRetryAt : Time) : Database :=
  if (db.lockedClaim? deletion).isSome then
    (db.noteObjectError deletion objectId message).retryClaim deletion "object_storage" message
      nextRetryAt
  else db

/-- `fail` -/
def failObject (db : Database) (deletion : AgreementDeletion) (objectId : Nat)
    (message : String) (now : Time) : Database :=
  if (db.lockedClaim? deletion).isSome then
    (db.noteObjectError deletion objectId message).failClaim deletion "object_storage" message now
  else db

/-- `retry_database_cleanup` -/
def retryDatabaseCleanup (db : Database) (deletion : AgreementDeletion) (message : String)
    (nextRetryAt : Time) : Database :=
  if (db.lockedClaim? deletion).isSome then
    db.retryClaim deletion "database_cleanup" message nextRetryAt
  else db

/-- `fail_database_cleanup` -/
def failDatabaseCleanup (db : Database) (deletion : AgreementDeletion) (message : String)
    (now : Time) : Database :=
  if (db.lockedClaim? deletion).isSome then db.failClaim deletion "database_cleanup" message now
  else db

/-- The lease of a request has run out under its claimant. -/
def AgreementDeletionRequestRecord.Stale (request : AgreementDeletionRequestRecord)
    (organizationId : Uuid) (now : Time) : Prop :=
  request.organizationId = organizationId ∧ request.state = .processing ∧
    request.leaseExpiresAt.any (· ≤ now)

instance (request : AgreementDeletionRequestRecord) (organizationId : Uuid) (now : Time) :
    Decidable (request.Stale organizationId now) :=
  inferInstanceAs (Decidable (_ ∧ _))

/-- `recover_stale_deletions` -/
def recoverStaleDeletions (db : Database) (organizationId : Uuid) (now : Time) : Database :=
  let staleIds :=
    (db.deletionRequests.filter fun request => request.Stale organizationId now).map (·.id)
  let recovered : Database := { db with
    deletionRequests := db.deletionRequests.map fun request =>
      if request.id ∈ staleIds then
        { request with
          state := .retrying, claimToken := none, leaseExpiresAt := none, nextAttemptAt := now
          failureCategory := some "database_cleanup"
          failureMessage := some "Expired deletion lease recovered" }
      else request }
  recovered.scheduleOutbox staleIds now "Expired deletion lease recovered"

/-- A thread is scoped to an agreement: the containment test of the purge, which a thread on
the whole workspace (`agreement_ids` null) never passes. -/
def QuestionThreadRecord.scopedTo (thread : QuestionThreadRecord) (deletion : AgreementDeletion) :
    Bool :=
  thread.organizationId = deletion.organizationId && thread.workspaceId = deletion.workspaceId &&
    thread.agreementIds.any fun ids => deletion.agreementId ∈ ids

/-- The row of the agreement that stays, once its deletion has been requested. -/
def AgreementRecord.isTombstone (agreement : AgreementRecord) (deletion : AgreementDeletion) :
    Bool :=
  agreement.id = deletion.agreementId ∧ agreement.organizationId = deletion.organizationId ∧
    agreement.workspaceId = deletion.workspaceId ∧ agreement.deletionRequestedAt.isSome

/-- The statements of `_purge_owned_rows` on the tables that this model keeps. -/
def purgedRows (db : Database) (deletion : AgreementDeletion) : Database :=
  let threads := db.questionThreads.filter fun thread => thread.scopedTo deletion
  { db with
    questionTurns := db.questionTurns.filter fun turn =>
      ¬ threads.any fun thread => thread.id = turn.threadId
    questionThreads := db.questionThreads.filter fun thread => ¬ thread.scopedTo deletion
    finalPackages := db.finalPackages.filter fun row => row.agreementId ≠ deletion.agreementId
    workflowOutbox := db.workflowOutbox.filter fun row => row.agreementId ≠ deletion.agreementId
    comparisonRuns := db.comparisonRuns.filter fun row => row.agreementId ≠ deletion.agreementId
    artifacts := db.artifacts.filter fun row => row.agreementId ≠ deletion.agreementId
    intents := db.intents.filter fun row => row.agreementId ≠ deletion.agreementId
    jobs := db.jobs.filter fun row => row.agreementId ≠ deletion.agreementId
    versions := db.versions.filter fun row => row.agreementId ≠ deletion.agreementId
    deletionObjects := db.deletionObjects.filter fun row => row.deletionId ≠ deletion.id
    deletionOutbox := db.deletionOutbox.filter fun row => row.deletionId ≠ deletion.id
    agreements := db.agreements.map fun agreement =>
      if agreement.isTombstone deletion then
        { agreement with
          files := [], processingState := .deleted, currentVersionId := none, archivedAt := none }
      else agreement }

/-- `_purge_owned_rows`, which checks that its last statement has met one tombstone. -/
def purgeOwnedRows (db : Database) (deletion : AgreementDeletion) : Except Raised Database :=
  if (db.agreements.filter fun agreement => agreement.isTombstone deletion).length = 1 then
    .ok (purgedRows db deletion)
  else .error (.runtime "agreement deletion tombstone is missing")

/-- An intent that blocks the purge: expected, or without a finished inventory row. -/
def unresolvedIntent (db : Database) (deletion : AgreementDeletion)
    (intent : ProcessingArtifactIntentRecord) : Bool :=
  let objects := db.deletionObjects.filter fun object => object.deletionId = deletion.id ∧
    object.category = intent.category ∧ object.objectKey = intent.artifactKey
  intent.agreementId = deletion.agreementId && intent.organizationId = deletion.organizationId &&
    intent.workspaceId = deletion.workspaceId &&
    (intent.state = .expected || objects.isEmpty ||
      objects.any fun object => object.state ≠ .deleted ∧ object.state ≠ .preserved)

/-- The request after the purge. -/
def completeRequest (now : Time) (request : AgreementDeletionRequestRecord) :
    AgreementDeletionRequestRecord :=
  { request with
    state := .completed, claimToken := none, leaseExpiresAt := none
    failureCategory := none, failureMessage := none, completedAt := some now }

/-- `complete_and_purge` -/
def completeAndPurge (db : Database) (deletion : AgreementDeletion) (now : Time) :
    Except Raised Database :=
  match db.agreement? deletion.agreementId deletion.organizationId deletion.workspaceId with
  | none => .error (.runtime "No row was found when one was required")
  | some _ =>
    match db.lockedClaim? deletion with
    | none => .ok db
    | some _ =>
      if db.deletionObjects.any fun object => object.deletionId = deletion.id ∧
          object.state = .pending then
        .error (.runtime "agreement deletion inventory is not complete")
      else if db.intents.any fun intent => unresolvedIntent db deletion intent then
        .error (.runtime "processing artifact intent is not reconciled")
      else (purgeOwnedRows db deletion).map fun purged =>
        purged.updateClaimed deletion (completeRequest now)

end AgreementIntelligence.Agreements
