import AgreementIntelligence.Agreements.Models
import AgreementIntelligence.Lib.Text
import AgreementIntelligence.UuidText

/-! The worker's processing repository and the processors behind it. A call is one
transaction: every one of them locks the agreement row before it reads or writes anything
else of the agreement, so calls are functions from database to database, and a call that
raises leaves the database alone. `commit_prepared` also writes object storage, and that
write stays when the transaction does not. -/

namespace AgreementIntelligence.Agreements
open Identity Lib.Table Lib.Text UuidText

/-- `_PROCESSING_CLAIM_LEASE` -/
def processingClaimLease : Time := 14 * 60

def embeddingReindexProfilePrefix : String := "embedding-reindex:"

def versionComparisonProfile : String := "version-comparison"

/-- The columns that scope an artifact to a job: what `_inventory_late_artifact` reads. -/
structure ArtifactContext where
  agreementId : Uuid
  organizationId : Uuid
  workspaceId : Uuid
  profile : String
  deriving DecidableEq, Repr

def ProcessingJobRecord.context (job : ProcessingJobRecord) : ArtifactContext :=
  ⟨job.agreementId, job.organizationId, job.workspaceId, job.profile⟩

def ProcessingArtifactIntentRecord.context (intent : ProcessingArtifactIntentRecord) :
    ArtifactContext :=
  ⟨intent.agreementId, intent.organizationId, intent.workspaceId, intent.profile⟩

def ProcessingJob.context (job : ProcessingJob) : ArtifactContext :=
  ⟨job.agreementId, job.organizationId, job.workspaceId, job.profile⟩

/-! Lookups. Primary keys make each of them find at most one row. -/

def Database.job? (db : Database) (jobId : Uuid) : Option ProcessingJobRecord :=
  db.jobs.find? fun job => job.id = jobId

/-- `_agreement_for_update` -/
def Database.agreement? (db : Database) (agreementId organizationId workspaceId : Uuid) :
    Option AgreementRecord :=
  db.agreements.find? fun agreement => agreement.id = agreementId ∧
    agreement.organizationId = organizationId ∧ agreement.workspaceId = workspaceId

/-- `_artifact_intent` -/
def Database.intent? (db : Database) (jobId organizationId workspaceId : Uuid) :
    Option ProcessingArtifactIntentRecord :=
  db.intents.find? fun intent => intent.jobId = jobId ∧
    intent.organizationId = organizationId ∧ intent.workspaceId = workspaceId

def Database.deletionRequest? (db : Database) (agreementId organizationId workspaceId : Uuid) :
    Option AgreementDeletionRequestRecord :=
  db.deletionRequests.find? fun request => request.agreementId = agreementId ∧
    request.organizationId = organizationId ∧ request.workspaceId = workspaceId

def Database.hasArtifact (db : Database) (jobId : Uuid) : Bool :=
  db.artifacts.any fun artifact => artifact.jobId = jobId

/-! Claims -/

/-- `_has_live_claim` -/
def ProcessingJobRecord.hasLiveClaim (job : ProcessingJobRecord) (now : Time) : Bool :=
  match job.claimToken, job.claimLeaseExpiresAt with
  | some _, some leaseExpiresAt => now < leaseExpiresAt
  | _, _ => false

/-- `_owns_claim`, for the claims that `handle` passes. -/
def ProcessingJobRecord.OwnedBy (job : ProcessingJobRecord) (claimedJob : ProcessingJob) : Prop :=
  job.state = .processing ∧ job.claimToken = some claimedJob.claimToken

instance (job : ProcessingJobRecord) (claimedJob : ProcessingJob) :
    Decidable (job.OwnedBy claimedJob) :=
  inferInstanceAs (Decidable (_ ∧ _))

/-- `_matches_tenant_scope`; a message without a tenant scope raises before it gets here. -/
def ProcessingJobRecord.MatchesTenantScope (job : ProcessingJobRecord)
    (organizationId workspaceId : Uuid) : Prop :=
  job.organizationId = organizationId ∧ job.workspaceId = workspaceId

instance (job : ProcessingJobRecord) (organizationId workspaceId : Uuid) :
    Decidable (job.MatchesTenantScope organizationId workspaceId) :=
  inferInstanceAs (Decidable (_ ∧ _))

/-- `_late_artifact_category` -/
def lateArtifactCategory (profile key : String) : Option ObjectCategory :=
  if startsWith profile embeddingReindexProfilePrefix || startsWith key "embedding-reindex/" then
    none
  else if profile = versionComparisonProfile then some .comparison
  else some .analysis

/-! Writes -/

def Database.updateJob (db : Database) (jobId : Uuid)
    (change : ProcessingJobRecord → ProcessingJobRecord) : Database :=
  { db with jobs := update (·.id) db.jobs jobId change }

def Database.insertIntent (db : Database) (intent : ProcessingArtifactIntentRecord) : Database :=
  { db with intents := db.intents ++ [intent] }

def Database.deleteIntent (db : Database) (jobId : Uuid) : Database :=
  { db with intents := db.intents.filter fun intent => intent.jobId ≠ jobId }

/-- `_update_agreement_processing_state` -/
def updateAgreementProcessingState (db : Database) (job : ProcessingJobRecord)
    (state : JobState) : Database :=
  if startsWith job.profile embeddingReindexProfilePrefix then db
  else { db with
    versions := db.versions.map fun version =>
      if job.versionId = some version.id ∧ version.agreementId = job.agreementId ∧
          version.organizationId = job.organizationId ∧ version.workspaceId = job.workspaceId
      then { version with processingState := .job state } else version
    agreements := db.agreements.map fun agreement =>
      if agreement.id = job.agreementId ∧ agreement.organizationId = job.organizationId ∧
          (job.versionId = none ∨ agreement.currentVersionId = job.versionId)
      then { agreement with processingState := .job state } else agreement }

/-- The inventory row of a late artifact: inserted, or pending again. -/
def recordLateObject (objects : List AgreementDeletionObjectRecord) (nextObjectId : Nat)
    (request : AgreementDeletionRequestRecord) (context : ArtifactContext)
    (category : ObjectCategory) (key : String) : List AgreementDeletionObjectRecord :=
  if objects.any fun object => object.deletionId = request.id ∧ object.category = category ∧
      object.objectKey = key then
    objects.map fun object =>
      if object.deletionId = request.id ∧ object.category = category ∧ object.objectKey = key ∧
          object.state ≠ .pending
      then { object with state := .pending, lastError := none } else object
  else objects ++ [{
    id := nextObjectId, deletionId := request.id, agreementId := context.agreementId,
    category := category, objectKey := key, state := .pending, lastError := none }]

/-- The request after a late artifact: open again, in a new retry cycle if it had ended. -/
def reopen (now : Time) (request : AgreementDeletionRequestRecord) :
    AgreementDeletionRequestRecord :=
  let terminal := request.state = .completed ∨ request.state = .failed
  { request with
    state := .retrying
    attemptCount := if terminal then 0 else request.attemptCount
    retryCycle := request.retryCycle + if terminal then 1 else 0
    claimToken := none
    leaseExpiresAt := none
    nextAttemptAt := now
    failureCategory := some "artifact_race"
    failureMessage := some "Processing completed after deletion was accepted"
    completedAt := none
    failedAt := none }

/-- The outbox row of a deletion, due now; inserted when the purge has taken it away. -/
def wakeOutbox (outbox : List AgreementDeletionOutboxRecord) (deletionId agreementId : Uuid)
    (now : Time) : List AgreementDeletionOutboxRecord :=
  if outbox.any fun row => row.deletionId = deletionId then
    update (·.deletionId) outbox deletionId fun row => { row with
      attemptCount := 0, nextAttemptAt := now, leaseToken := none, leaseExpiresAt := none,
      lastError := none, deliveredAt := none }
  else outbox ++ [{
    deletionId := deletionId, agreementId := agreementId, attemptCount := 0, nextAttemptAt := now,
    leaseToken := none, leaseExpiresAt := none, lastError := none, deliveredAt := none }]

/-- `_inventory_late_artifact` -/
def inventoryLateArtifact (db : Database) (context : ArtifactContext) (key : String)
    (now : Time) : Except Raised Database :=
  match db.deletionRequest? context.agreementId context.organizationId context.workspaceId with
  | none => .error (.runtime "tombstoned agreement has no active deletion request")
  | some request =>
    match lateArtifactCategory context.profile key with
    | none => .ok db
    | some category => .ok { db with
        deletionObjects :=
          recordLateObject db.deletionObjects db.nextObjectId request context category key
        nextObjectId := db.nextObjectId + 1
        deletionRequests := update (·.id) db.deletionRequests request.id (reopen now)
        deletionOutbox := wakeOutbox db.deletionOutbox request.id context.agreementId now }

/-- `_reconcile_artifact_intent` -/
def reconcileArtifactIntent (db : Database) (intent : ProcessingArtifactIntentRecord)
    (now : Time) : Except Raised Database :=
  (inventoryLateArtifact db intent.context intent.artifactKey now).map
    (·.deleteIntent intent.jobId)

/-- The intent of a job, if there is one, reconciled. -/
def reconcileIntentOf (db : Database) (jobId organizationId workspaceId : Uuid) (now : Time) :
    Except Raised Database :=
  match db.intent? jobId organizationId workspaceId with
  | none => .ok db
  | some intent => reconcileArtifactIntent db intent now

/-- The job row after it is completed, by a commit or by a claim that finds its artifact. -/
def completeJob (now : Time) (job : ProcessingJobRecord) : ProcessingJobRecord :=
  { job with
    state := .completed, completedAt := some now, failureCategory := none
    failureMessage := none, nextRetryAt := none, claimToken := none, claimLeaseExpiresAt := none }

/-- The job row after a claim. -/
def startAttempt (now : Time) (claimToken : Uuid) (job : ProcessingJobRecord) :
    ProcessingJobRecord :=
  { job with
    state := .processing, attemptCount := job.attemptCount + 1, processingStartedAt := some now
    failureCategory := none, failureMessage := none, nextRetryAt := none
    claimToken := some claimToken, claimLeaseExpiresAt := some (now + processingClaimLease) }

/-- The claim handed to the worker. -/
def claimedJob (now : Time) (claimToken : Uuid) (job : ProcessingJobRecord) : ProcessingJob where
  id := job.id
  agreementId := job.agreementId
  attemptCount := job.attemptCount + 1
  organizationId := job.organizationId
  workspaceId := job.workspaceId
  profile := job.profile
  sourceStorageKey := job.sourceStorageKey
  sourceChecksum := job.sourceChecksum
  sourceContentType := job.sourceContentType
  claimToken := claimToken
  claimLeaseExpiresAt := now + processingClaimLease

/-- The job row after a requeue. -/
def queueAgain (category message : String) (nextRetryAt : Time) (job : ProcessingJobRecord) :
    ProcessingJobRecord :=
  { job with
    state := .queued, failureCategory := some category, failureMessage := some message
    nextRetryAt := some nextRetryAt, claimToken := none, claimLeaseExpiresAt := none }

/-- The job row after a failure. -/
def failJob (category message : String) (now : Time) (job : ProcessingJobRecord) :
    ProcessingJobRecord :=
  { job with
    state := .failed, failureCategory := some category, failureMessage := some message
    failedAt := some now, claimToken := none, claimLeaseExpiresAt := none }

/-! The transactions -/

/-- `SQLAlchemyProcessingJobRepository.claim`; `claimToken` is the `uuid4()` it draws. -/
def claim (db : Database) (jobId organizationId workspaceId : Uuid) (now : Time)
    (claimToken : Uuid) : Except Raised (Option ProcessingJob × Database) :=
  match db.job? jobId with
  | none =>
    match db.intent? jobId organizationId workspaceId with
    | none => .ok (none, db)
    | some intent =>
      match (db.agreement? intent.agreementId intent.organizationId intent.workspaceId).bind
          (·.deletionRequestedAt) with
      | none => .error (.runtime "orphaned processing artifact intent")
      | some _ => (reconcileArtifactIntent db intent now).map fun db => (none, db)
  | some job =>
    if ¬ job.MatchesTenantScope organizationId workspaceId then .ok (none, db) else
    match db.agreement? job.agreementId job.organizationId job.workspaceId with
    | none => .ok (none, db)
    | some agreement =>
      if agreement.deletionRequestedAt.isSome then
        if job.state = .processing ∧ job.hasLiveClaim now then
          .error (.processingLeaseHeld "processing job lease is held")
        else (reconcileIntentOf db jobId organizationId workspaceId now).map fun db => (none, db)
      else if db.hasArtifact jobId then
        .ok (none, updateAgreementProcessingState
          (if job.state = .completed then db else db.updateJob jobId (completeJob now))
          job .completed)
      else if job.state = .processing ∧ job.hasLiveClaim now then
        .error (.processingLeaseHeld "processing job lease is held")
      else if job.state = .processing ∨ job.state = .queued then
        .ok (some (claimedJob now claimToken job),
          updateAgreementProcessingState (db.updateJob jobId (startAttempt now claimToken))
            job .processing)
      else .ok (none, db)

/-- The intent that `expect` inserts. -/
def reservation (job : ProcessingJob) (category : ObjectCategory) (key : String) :
    ProcessingArtifactIntentRecord where
  jobId := job.id
  organizationId := job.organizationId
  workspaceId := job.workspaceId
  agreementId := job.agreementId
  profile := job.profile
  category := category
  artifactKey := key
  state := .expected

/-- `expect` -/
def expect (db : Database) (job : ProcessingJob) (artifact : CompletedArtifact) (now : Time) :
    Except Raised (Bool × Database) :=
  match lateArtifactCategory job.profile artifact.key with
  | none => .ok (true, db)
  | some category =>
    match db.agreement? job.agreementId job.organizationId job.workspaceId with
    | none => .ok (false, db)
    | some agreement =>
      match db.job? job.id with
      | none => .ok (false, db)
      | some jobRecord =>
        if ¬ jobRecord.OwnedBy job then .ok (false, db) else
        match db.intent? job.id job.organizationId job.workspaceId with
        | none =>
          let intent := reservation job category artifact.key
          if agreement.deletionRequestedAt.isSome then
            (reconcileArtifactIntent (db.insertIntent intent) intent now).map fun db => (false, db)
          else .ok (true, db.insertIntent intent)
        | some intent =>
          if intent.artifactKey ≠ artifact.key ∨ intent.category ≠ category then
            .error (.runtime "processing artifact intent changed after reservation")
          else if agreement.deletionRequestedAt.isSome then
            (reconcileArtifactIntent db intent now).map fun db => (false, db)
          else .ok (true, { db with
            intents := update (·.jobId) db.intents job.id fun row =>
              { row with state := .expected } })

/-- The processors read a canonical content that `finalize` checks; `verdict` is the outcome
of these checks. A comparison is then written to its run. -/
def finalize (db : Database) (job : ProcessingJob) (verdict : Except Raised Unit) :
    Except Raised Database :=
  match verdict with
  | .error raised => .error raised
  | .ok () =>
    if job.profile = versionComparisonProfile then
      match db.comparisonRuns.find? fun run => run.processingJobId = some job.id with
      | none => .error (.permanentProcessing "Version comparison run is unavailable")
      | some run => .ok { db with
          comparisonRuns := update (·.id) db.comparisonRuns run.id fun row =>
            { row with state := .completed, failureCategory := none, failureMessage := none } }
    else .ok db

/-- The rows that a successful commit writes after `finalize`. -/
def commitRows (db : Database) (claimed : ProcessingJob) (job : ProcessingJobRecord)
    (category : Option ObjectCategory) (key : String) (now : Time) : Database :=
  let stored : Database :=
    if category.isSome ∧ ¬ db.artifacts.any fun row => row.jobId = claimed.id ∧
        row.artifactKey = key then
      { db with artifacts := db.artifacts ++ [{
          jobId := claimed.id, organizationId := job.organizationId
          workspaceId := job.workspaceId, agreementId := job.agreementId, artifactKey := key }] }
    else db
  (updateAgreementProcessingState (stored.updateJob claimed.id (completeJob now))
    job .completed).deleteIntent claimed.id

/-- What `commit_prepared` decides before it touches object storage. -/
inductive CommitDecision where
  | stops (result : Except Raised (Bool × Database))
  | writes (job : ProcessingJobRecord)

def decideCommit (db : Database) (claimed : ProcessingJob) (prepared : PreparedArtifact)
    (now : Time) : CommitDecision :=
  let category := lateArtifactCategory claimed.profile prepared.artifact.key
  let inventory := fun context : ArtifactContext =>
    (inventoryLateArtifact db context prepared.artifact.key now).map fun db => (false, db)
  if prepared.artifact.jobId ≠ claimed.id then
    .stops (.error (.runtime "prepared artifact belongs to another processing job"))
  else match db.agreement? claimed.agreementId claimed.organizationId claimed.workspaceId with
  | none => .stops (.ok (false, db))
  | some agreement =>
    match db.job? claimed.id with
    | none =>
      if agreement.deletionRequestedAt.isSome ∧ category.isSome then
        .stops (inventory claimed.context)
      else .stops (.ok (false, db))
    | some job =>
      if ¬ job.MatchesTenantScope claimed.organizationId claimed.workspaceId then
        .stops (.ok (false, db))
      else if ¬ job.OwnedBy claimed then
        if agreement.deletionRequestedAt.isSome ∧ category.isSome then
          .stops (inventory job.context)
        else .stops (.error (.processingLeaseHeld "processing job lease is no longer owned"))
      else
        let intent := db.intent? claimed.id claimed.organizationId claimed.workspaceId
        if category.isSome ∧ ¬ intent.any fun row => row.artifactKey = prepared.artifact.key ∧
            some row.category = category ∧ row.state = .expected then
          .stops (.error (.runtime "prepared artifact has no current durable intent"))
        else if agreement.deletionRequestedAt.isSome then
          match intent with
          | none => .stops (.ok (false, db))
          | some intent =>
            .stops ((reconcileArtifactIntent db intent now).map fun db => (false, db))
        else .writes job

/-- `put_immutable` on the keys of object storage. -/
def putImmutable (storage : List String) (key : String) : List String :=
  if key ∈ storage then storage else storage ++ [key]

/-- `commit_prepared`: the storage it leaves and the outcome of its transaction. -/
def commitPrepared (db : Database) (storage : List String) (claimed : ProcessingJob)
    (prepared : PreparedArtifact) (verdict : Except Raised Unit) (now : Time) :
    List String × Except Raised (Bool × Database) :=
  match decideCommit db claimed prepared now with
  | .stops result => (storage, result)
  | .writes job =>
    (if prepared.content.isSome then putImmutable storage prepared.artifact.key else storage,
      (finalize db claimed verdict).map fun db =>
        (true, commitRows db claimed job
          (lateArtifactCategory claimed.profile prepared.artifact.key) prepared.artifact.key now))

/-- `_inventory_failed_artifact_after_purge` -/
def inventoryFailedArtifactAfterPurge (db : Database) (claimed : ProcessingJob)
    (expectedArtifact : Option CompletedArtifact) (now : Time) : Except Raised Database :=
  match expectedArtifact with
  | none => .ok db
  | some artifact =>
    if ((db.agreement? claimed.agreementId claimed.organizationId claimed.workspaceId).bind
        (·.deletionRequestedAt)).isSome then
      inventoryLateArtifact db claimed.context artifact.key now
    else .ok db

/-- The late inventory of an expected artifact, if the worker got as far as computing one. -/
def inventoryExpected (db : Database) (context : ArtifactContext)
    (expectedArtifact : Option CompletedArtifact) (now : Time) : Except Raised Database :=
  match expectedArtifact with
  | none => .ok db
  | some artifact => inventoryLateArtifact db context artifact.key now

/-- `requeue` -/
def requeue (db : Database) (claimed : ProcessingJob) (category message : String)
    (nextRetryAt : Time) (expectedArtifact : Option CompletedArtifact) (now : Time) :
    Except Raised (Bool × Database) :=
  match db.job? claimed.id with
  | none =>
    (inventoryFailedArtifactAfterPurge db claimed expectedArtifact now).map fun db => (false, db)
  | some job =>
    if ¬ job.MatchesTenantScope claimed.organizationId claimed.workspaceId then
      .ok (false, db)
    else match db.agreement? job.agreementId job.organizationId job.workspaceId with
    | none => .ok (false, db)
    | some agreement =>
      if agreement.deletionRequestedAt.isSome then
        (inventoryExpected db job.context expectedArtifact now).bind fun db =>
          if job.OwnedBy claimed then
            (reconcileIntentOf db claimed.id claimed.organizationId claimed.workspaceId now).map
              fun db => (false, db)
          else .ok (false, db)
      else if ¬ job.OwnedBy claimed then .ok (false, db)
      else .ok (true, updateAgreementProcessingState
        (db.updateJob claimed.id (queueAgain category message nextRetryAt)) job .queued)

/-- The rows that `fail` writes for the owner of the claim. -/
def failRows (db : Database) (jobId : Uuid) (job : ProcessingJobRecord)
    (category message : String) (now : Time) : Database :=
  let failed := db.updateJob jobId (failJob category message now)
  let compared : Database :=
    if job.profile = versionComparisonProfile then
      { failed with comparisonRuns := failed.comparisonRuns.map fun run =>
          if run.processingJobId = some jobId then
            { run with state := .failed, failureCategory := some category
                       failureMessage := some message }
          else run }
    else failed
  updateAgreementProcessingState compared job .failed

/-- `fail` -/
def fail (db : Database) (claimed : ProcessingJob) (category message : String)
    (expectedArtifact : Option CompletedArtifact) (now : Time) : Except Raised Database :=
  match db.job? claimed.id with
  | none => inventoryFailedArtifactAfterPurge db claimed expectedArtifact now
  | some job =>
    if ¬ job.MatchesTenantScope claimed.organizationId claimed.workspaceId then .ok db
    else match db.agreement? job.agreementId job.organizationId job.workspaceId with
    | none => .ok db
    | some agreement =>
      if ¬ job.OwnedBy claimed then
        if agreement.deletionRequestedAt.isSome then
          inventoryExpected db job.context expectedArtifact now
        else .ok db
      else
        (if agreement.deletionRequestedAt.isSome then
          reconcileIntentOf db claimed.id claimed.organizationId claimed.workspaceId now
        else .ok { db with
          intents := update (·.jobId) db.intents claimed.id fun row =>
            { row with state := .settled } }).map
          fun db => failRows db claimed.id job category message now

/-! Retrying a failed job through the API -/

/-- `_can_retry_failure` -/
def canRetryFailure (category : Option String) : Bool :=
  category = some "transient" || category = some "transient_exhausted"

/-- The job row after a retry through the API. -/
def retriedJob (now : Time) (job : ProcessingJobRecord) : ProcessingJobRecord :=
  { job with
    state := .queued, failureCategory := none, failureMessage := none, nextRetryAt := none
    claimToken := none, claimLeaseExpiresAt := none, queuedAt := now }

/-- `ProcessingService.retry` -/
def retryJob (db : Database) (organizationId workspaceId agreementId jobId : Uuid)
    (now : Time) : Except Raised Database :=
  match db.agreement? agreementId organizationId workspaceId with
  | none => .error (.runtime "AgreementNotFoundError")
  | some agreement =>
    if agreement.deletionRequestedAt.isSome then .error (.runtime "AgreementNotFoundError")
    else match db.job? jobId with
    | none => .error (.runtime "AgreementNotFoundError")
    | some job =>
      if job.agreementId ≠ agreementId ∨ ¬ job.MatchesTenantScope organizationId workspaceId then
        .error (.runtime "AgreementNotFoundError")
      else if job.state ≠ .failed ∨ ¬ canRetryFailure job.failureCategory then
        .error (.runtime "RetryNotPermittedError")
      else .ok { db.updateJob jobId (retriedJob now) with
        agreements := update (·.id) db.agreements agreementId fun row =>
          { row with processingState := .job .queued } }

/-! The processors -/

/-- `embedding_reindex_configuration_id` -/
def embeddingReindexConfigurationId (profile : String) : Option Uuid :=
  if startsWith profile embeddingReindexProfilePrefix then
    parse? (removeLead profile embeddingReindexProfilePrefix)
  else none

/-- `document_processor._artifact_key` -/
def documentArtifactKey (job : ProcessingJob) (checksum : String) : String :=
  "tenants/" ++ job.organizationId.str ++ "/workspaces/" ++ job.workspaceId.str ++
    "/agreements/" ++ job.agreementId.str ++ "/analysis/" ++ checksum ++
    "/document-analysis.v1.json"

def comparisonArtifactKey (runId : Uuid) : String :=
  "comparisons/" ++ runId.str ++ "/version-comparison.v1.json"

/-- A value that Python's `not value` refuses. -/
def falsy (value : Option String) : Bool :=
  value = none || value = some ""

/-- `DocumentUnderstandingProcessor.expected_artifact`, with `_source_from`. -/
def documentExpectedArtifact (job : ProcessingJob) : Except Raised CompletedArtifact :=
  if falsy job.sourceStorageKey || falsy job.sourceContentType then
    .error (.permanentProcessing "The processing job has no source document")
  else match job.sourceChecksum with
  | none => .error (.permanentProcessing "The processing job has no source document")
  | some checksum =>
    if checksum = "" then
      .error (.permanentProcessing "The processing job has no source document")
    else .ok ⟨job.id, documentArtifactKey job checksum⟩

/-- `VersionComparisonProcessor.expected_artifact` -/
def comparisonExpectedArtifact (db : Database) (job : ProcessingJob) :
    Except Raised CompletedArtifact :=
  match db.comparisonRuns.find? fun run => run.processingJobId = some job.id with
  | none => .error (.permanentProcessing "Version comparison run is unavailable")
  | some run => .ok ⟨job.id, comparisonArtifactKey run.id⟩

/-- `ProfileProcessor.expected_artifact` -/
def expectedArtifact (db : Database) (job : ProcessingJob) : Except Raised CompletedArtifact :=
  if job.profile = versionComparisonProfile then comparisonExpectedArtifact db job
  else match embeddingReindexConfigurationId job.profile with
  | some configurationId => .ok ⟨job.id, "embedding-reindex/" ++ configurationId.str ++ ".json"⟩
  | none => documentExpectedArtifact job

/-- `ProfileProcessor.prepare`, for an artifact that `handle` accepts: a re-index job has no
content, the other processors always have one. -/
def prepare (job : ProcessingJob) (artifact : CompletedArtifact) (content : String) :
    PreparedArtifact :=
  ⟨artifact, if job.profile ≠ versionComparisonProfile ∧
    (embeddingReindexConfigurationId job.profile).isSome then none else some content⟩

end AgreementIntelligence.Agreements
