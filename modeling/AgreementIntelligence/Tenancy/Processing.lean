import AgreementIntelligence.Tenancy.Tables

/-! The processing services of the API statement by statement: the outbox dispatcher, submissions,
retries and requeues of jobs, and comparisons of versions. -/

namespace AgreementIntelligence.Tenancy
open Identity Lib.Sessions Lib.Sessions.Program Agreements Reviews

variable {φ : Type}

/-! The repositories -/

/-- `active_agreement_statement` -/
def activeAgreement (agreementId organizationId workspaceId : Uuid) (db : Database φ) :
    Option (AgreementRow φ) :=
  db.agreements.find? fun row => row.id = agreementId ∧ row.organizationId = organizationId ∧
    row.workspaceId = workspaceId ∧ row.deletionRequestedAt = none

/-- The join with `agreements` of the queries that leave out deletion-requested ones. -/
def keptAgreement (agreementId : Uuid) (db : Database φ) : Bool :=
  db.agreements.any fun row => row.id = agreementId ∧ row.deletionRequestedAt = none

/-- `SQLAlchemyAgreementRepository.get` -/
def getAgreement (agreementId : Uuid) : Transaction φ (Option (AgreementRow φ)) :=
  select [.agreements] fun db => db.agreements.find? fun row =>
    row.id = agreementId ∧ row.deletionRequestedAt = none

/-- `get_version` -/
def getVersion (versionId : Uuid) : Transaction φ (Option AgreementVersionRecord) :=
  select [.agreementVersions, .agreements] fun db => db.versions.find? fun version =>
    version.id = versionId ∧ keptAgreement version.agreementId db

/-- `list_versions` -/
def listVersions (agreementId : Uuid) : Transaction φ (List AgreementVersionRecord) :=
  select [.agreementVersions, .agreements] fun db =>
    (db.versions.filter fun version =>
      version.agreementId = agreementId ∧ keptAgreement version.agreementId db).mergeSort
        fun one other => one.versionNumber ≤ other.versionNumber

/-- `SQLAlchemyAgreementRepository.replace` -/
def replaceAgreement (row : AgreementRow φ) : Transaction φ Unit := do
  match ← select [.agreements] (activeAgreement row.id row.organizationId row.workspaceId) with
  | none => raise (.runtime "cannot replace a missing agreement")
  | some record => do
    add .agreements record.organizationId
    flush

/-- `SQLAlchemyProcessingJobRepository.create` -/
def createJob (job : ProcessingJobRecord) : Transaction φ ProcessingJobRecord := do
  match ← select [.agreements]
      (activeAgreement job.agreementId job.organizationId job.workspaceId) with
  | none => raise (.runtime "cannot process a deleted agreement")
  | some _ => do
    add .processingJobs job.organizationId
    flush
    pure job

/-- `SQLAlchemyProcessingJobRepository.get` -/
def getJob (jobId : Uuid) : Transaction φ (Option ProcessingJobRecord) :=
  select [.processingJobs, .agreements] fun db => db.jobs.find? fun job =>
    job.id = jobId ∧ keptAgreement job.agreementId db

def jobByKey (agreementId : Uuid) (idempotencyKey : String) (db : Database φ) :
    Option ProcessingJobRecord :=
  db.jobs.find? fun job => job.agreementId = agreementId ∧ job.idempotencyKey = idempotencyKey ∧
    keptAgreement job.agreementId db

/-- `by_idempotency_key` -/
def byIdempotencyKey (agreementId : Uuid) (idempotencyKey : String) :
    Transaction φ (Option ProcessingJobRecord) :=
  select [.processingJobs, .agreements] (jobByKey agreementId idempotencyKey)

/-- `response` -/
def jobResponse (job : ProcessingJobRecord) : Transaction φ ProcessingJobRecord := do
  flush
  pure job

/-- `enqueue_outbox` -/
def enqueueOutbox (job : ProcessingJobRecord) : Transaction φ Unit := do
  add .processingOutbox job.organizationId
  flush

/-! The dispatcher -/

/-- The loop of `dispatch_pending`. Reading a message and publishing it stand in one `try`;
`publisher` says whose publishing goes through. -/
def publishEach (publisher : OutboxRow → Bool) (organizationId : Uuid) (delivered : Nat) :
    List (Loaded OutboxRow) → Transaction φ Nat
  | [] => pure delivered
  | message :: rest => do
    match ← attempt do
        let row ← attributes message .processingOutbox fun db : Database φ =>
          db.outbox.find? (·.id = message.value.id)
        if publisher row then pure row else raise .publishing with
    | .error _ => do
      rollback
      pure delivered
    | .ok row => do
      add .processingOutbox row.organizationId
      commit
      setScope organizationId
      publishEach publisher organizationId (delivered + 1) rest

/-- `ProcessingOutboxDispatcher.dispatch_pending` -/
def dispatchPending (publisher : OutboxRow → Bool) (organizationId workspaceId : Uuid)
    (limit : Nat) : Transaction φ Nat := do
  setScope organizationId
  let pending ← select [.processingOutbox] fun db : Database φ =>
    (orderedBy (·.createdAt) (·.id) (db.outbox.filter fun message =>
      message.organizationId = organizationId ∧ message.workspaceId = workspaceId ∧
        message.deliveredAt = none)).take limit
  let loaded ← load pending
  publishEach publisher organizationId 0 (loaded.value.map (⟨·, loaded.transaction⟩))

/-! Jobs -/

/-- A caller with the publisher of the queue. -/
structure ServiceCaller extends TenantCaller where
  publisher : OutboxRow → Bool

/-- `_dispatch_pending` -/
def dispatchFor (caller : ServiceCaller) (limit : Nat) : Transaction φ Nat :=
  dispatchPending caller.publisher caller.organizationId caller.workspaceId limit

/-- `_agreement_in_scope` -/
def agreementInTenant (caller : ServiceCaller) (agreementId : Uuid) :
    Transaction φ (AgreementRow φ) := do
  match ← getAgreement agreementId with
  | none => raise .agreementNotFound
  | some agreement =>
    if agreement.organizationId ≠ caller.organizationId ∨
        agreement.workspaceId ≠ caller.workspaceId then raise .agreementNotFound
    else pure agreement

/-- `_job_in_scope` -/
def jobInTenant (caller : ServiceCaller) (agreementId jobId : Uuid) :
    Transaction φ ProcessingJobRecord := do
  match ← getJob jobId with
  | none => raise .agreementNotFound
  | some job =>
    if job.agreementId ≠ agreementId ∨ job.organizationId ≠ caller.organizationId ∨
        job.workspaceId ≠ caller.workspaceId then raise .agreementNotFound
    else pure job

/-- `_set_agreement_state` -/
def setAgreementState (agreementId : Uuid) (updateAgreement : Bool) : Transaction φ Unit := do
  if updateAgreement then do
    match ← getAgreement agreementId with
    | none => raise .agreementNotFound
    | some agreement => replaceAgreement agreement
  else pure ()

/-- The answer to a key that is taken. -/
def replayJob (existing : ProcessingJobRecord) (versionId : Option Uuid) (profile : String) :
    Transaction φ (ProcessingJobRecord × Bool) := do
  if existing.profile ≠ profile ∨ (versionId.isSome ∧ existing.versionId ≠ versionId) then
    raise .idempotencyKeyConflict
  else do
    let response ← jobResponse existing
    pure (response, false)

/-- The version of a submission: the one of the request, else the current one, if any. -/
def submittedVersion (caller : ServiceCaller) (agreement : AgreementRow φ) (agreementId : Uuid)
    (versionId : Option Uuid) : Transaction φ (Option AgreementVersionRecord) := do
  match versionId.or agreement.currentVersionId with
  | none => pure none
  | some resolved => do
    match ← getVersion resolved with
    | none => raise .agreementNotFound
    | some version =>
      if version.agreementId ≠ agreementId ∨ version.organizationId ≠ caller.organizationId ∨
          version.workspaceId ≠ caller.workspaceId then raise .agreementNotFound
      else pure (some version)

structure SubmitRequest where
  agreementId : Uuid
  versionId : Option Uuid
  idempotencyKey : String
  profile : String
  deriving DecidableEq, Repr

/-- What `submit` does once the row of its job is in. -/
def finishSubmission (caller : ServiceCaller) (request : SubmitRequest)
    (agreement : AgreementRow φ) (version : Option AgreementVersionRecord)
    (response : ProcessingJobRecord) : Transaction φ (ProcessingJobRecord × Bool) := do
  match version with
  | none => pure ()
  | some version => add .agreementVersions version.organizationId
  setAgreementState request.agreementId
    (response.versionId = none ∨ response.versionId = agreement.currentVersionId)
  enqueueOutbox response
  commit
  let _ ← dispatchFor caller 50
  pure (response, true)

/-- The `except IntegrityError` of `submit`. -/
def resolveLostRace (request : SubmitRequest) : Transaction φ (ProcessingJobRecord × Bool) := do
  rollback
  match ← byIdempotencyKey request.agreementId request.idempotencyKey with
  | none => fail .integrityError
  | some existing => replayJob existing request.versionId request.profile

/-- `ProcessingJobService.submit`, with the uuid4 of the job. -/
def submit (caller : ServiceCaller) (request : SubmitRequest) (jobId : Uuid) (now : Time) :
    Transaction φ (ProcessingJobRecord × Bool) := do
  authorizeCaller caller.toTenantCaller .agreementsUpdate .agreementNotFound
  let agreement ← agreementInTenant caller request.agreementId
  match ← byIdempotencyKey request.agreementId request.idempotencyKey with
  | some existing => replayJob existing request.versionId request.profile
  | none => do
    let version ← submittedVersion caller agreement request.agreementId request.versionId
    match ← attempt (createJob (queuedJob agreement.toAgreementRecord jobId (version.map (·.id))
        request.idempotencyKey request.profile
        (submittedSource agreement.toAgreementRecord version) now)) with
    | .error .integrityError => resolveLostRace request
    | .error failure => fail failure
    | .ok response => finishSubmission caller request agreement version response

def canRetryFailure (category : Option String) : Bool :=
  category = some "transient" || category = some "transient_exhausted"

/-- `ProcessingJobService.retry` -/
def retry (caller : ServiceCaller) (agreementId jobId : Uuid) (now : Time) :
    Transaction φ ProcessingJobRecord := do
  authorizeCaller caller.toTenantCaller .agreementsUpdate .agreementNotFound
  match ← select [.agreements]
      (activeAgreement agreementId caller.organizationId caller.workspaceId) with
  | none => raise .agreementNotFound
  | some _ => do
    let job ← jobInTenant caller agreementId jobId
    if job.state ≠ .failed ∨ ¬ canRetryFailure job.failureCategory then raise .retryNotPermitted
    else do
      add .processingJobs job.organizationId
      let response ← jobResponse { job with
        state := .queued
        failureCategory := none
        failureMessage := none
        nextRetryAt := none
        claimToken := none
        claimLeaseExpiresAt := none
        queuedAt := now }
      setAgreementState agreementId true
      enqueueOutbox response
      commit
      let _ ← dispatchFor caller 50
      pure response

/-- `ProcessingJobService.requeue` -/
def requeue (caller : ServiceCaller) (agreementId jobId : Uuid) :
    Transaction φ ProcessingJobRecord := do
  authorizeCaller caller.toTenantCaller .agreementsUpdate .agreementNotFound
  let job ← jobInTenant caller agreementId jobId
  if job.state ≠ .queued then raise .retryNotPermitted
  else do
    let response ← jobResponse job
    enqueueOutbox response
    commit
    let _ ← dispatchFor caller 50
    pure response

/-! Comparisons -/

structure ComparisonRequest where
  agreementId : Uuid
  baselineVersionId : Option Uuid
  targetVersionId : Option Uuid
  idempotencyKey : String
  analysisVersion : String
  deriving DecidableEq, Repr

/-- The versions a comparison names, or the last two that are completed. -/
def namedByRequest (request : ComparisonRequest) :
    Transaction φ (AgreementVersionRecord × AgreementVersionRecord) := do
  let versions ← listVersions request.agreementId
  match request.baselineVersionId, request.targetVersionId with
  | none, none =>
    match (versions.filter (·.processingState = .job .completed)).reverse with
    | target :: baseline :: _ => pure (baseline, target)
    | _ => raise .comparisonConflict
  | some baselineId, some targetId => do
    let baseline ← getVersion baselineId
    let target ← getVersion targetId
    match baseline, target with
    | some baseline, some target => pure (baseline, target)
    | _, _ => raise .comparisonConflict
  | _, _ => raise .comparisonConflict

/-- `_resolve_versions` -/
def resolveComparedVersions (request : ComparisonRequest) : Transaction φ (Uuid × Uuid) := do
  let (baseline, target) ← namedByRequest request
  if baseline.agreementId ≠ request.agreementId ∨ target.agreementId ≠ request.agreementId ∨
      baseline.processingState ≠ .job .completed ∨ target.processingState ≠ .job .completed ∨
      target.versionNumber ≤ baseline.versionNumber then raise .comparisonConflict
  else pure (baseline.id, target.id)

/-- `SQLAlchemyVersionComparisonRepository.by_idempotency_key` -/
def comparisonByKey (agreementId : Uuid) (idempotencyKey : String) :
    Transaction φ (Option VersionComparisonRunRecord) :=
  select [.versionComparisonRuns, .agreements] fun db => (db.comparisons.find? fun run =>
    run.row.agreementId = agreementId ∧ run.row.idempotencyKey = idempotencyKey ∧
      keptAgreement run.row.agreementId db).map (·.row)

/-- `by_identity` -/
def comparisonByIdentity (agreementId baselineId targetId : Uuid) (analysisVersion : String) :
    Transaction φ (Option VersionComparisonRunRecord) :=
  select [.versionComparisonRuns, .agreements] fun db => (db.comparisons.find? fun run =>
    run.row.agreementId = agreementId ∧ run.row.baselineVersionId = baselineId ∧
      run.row.targetVersionId = targetId ∧ run.row.analysisVersion = analysisVersion ∧
      keptAgreement run.row.agreementId db).map (·.row)

/-- `SQLAlchemyVersionComparisonRepository.get` -/
def getComparison (comparisonId : Uuid) : Transaction φ (Option VersionComparisonRunRecord) :=
  select [.versionComparisonRuns, .agreements] fun db => (db.comparisons.find? fun run =>
    run.row.id = comparisonId ∧ keptAgreement run.row.agreementId db).map (·.row)

/-- `SQLAlchemyVersionComparisonRepository.create` -/
def createComparison (caller : ServiceCaller) (agreementId : Uuid) : Transaction φ Unit := do
  match ← select [.agreements]
      (activeAgreement agreementId caller.organizationId caller.workspaceId) with
  | none => raise (.runtime "cannot compare a deleted agreement")
  | some _ => do
    add .versionComparisonRuns caller.organizationId
    flush

/-- What `create` does once both rows are in. -/
def finishComparison (caller : ServiceCaller) (comparisonId : Uuid) (response : ProcessingJobRecord) :
    Transaction φ (VersionComparisonRunRecord × Bool) := do
  enqueueOutbox response
  commit
  let _ ← dispatchFor caller 50
  setScope caller.organizationId
  match ← getComparison comparisonId with
  | none => raise .agreementNotFound
  | some found => pure (found, true)

/-- `VersionComparisonService.create`, with the uuid4 keys of the comparison and of its job. -/
def compareVersions (caller : ServiceCaller) (request : ComparisonRequest)
    (comparisonId jobId : Uuid) (now : Time) :
    Transaction φ (VersionComparisonRunRecord × Bool) := do
  authorizeCaller caller.toTenantCaller .agreementsRead .agreementNotFound
  let agreement ← agreementInTenant caller request.agreementId
  let (baselineId, targetId) ← resolveComparedVersions request
  match ← comparisonByKey request.agreementId request.idempotencyKey with
  | some existing =>
    if existing.baselineVersionId ≠ baselineId ∨ existing.targetVersionId ≠ targetId ∨
        existing.analysisVersion ≠ request.analysisVersion then raise .comparisonConflict
    else pure (existing, false)
  | none => do
    match ← comparisonByIdentity request.agreementId baselineId targetId
        request.analysisVersion with
    | some existing => pure (existing, false)
    | none => do
      match ← getVersion targetId with
      | none => raise (.runtime "AssertionError")
      | some target => do
        match ← attempt do
            let response ← createJob (queuedJob agreement.toAgreementRecord jobId (some targetId)
              ("comparison:" ++ comparisonId.str) versionComparisonProfile
              (some target.storageKey, some target.checksum, some target.contentType) now)
            createComparison caller request.agreementId
            pure response with
        | .error .integrityError => do
          rollback
          setScope caller.organizationId
          match ← comparisonByIdentity request.agreementId baselineId targetId
              request.analysisVersion with
          | some existing => pure (existing, false)
          | none => fail .integrityError
        | .error failure => fail failure
        | .ok response => finishComparison caller comparisonId response

end AgreementIntelligence.Tenancy
