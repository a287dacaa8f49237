import AgreementIntelligence.Agreements.ProcessingCalls
import AgreementIntelligence.Lib.Results

/-! What the API writes about processing: submissions of jobs for analysis, for a comparison
of versions and for a new embedding index, retries of failed jobs, new versions, and the row
of the processing outbox that goes with each job it queues. A call holds the lock of the
agreement row when it writes, and the worker takes the same lock, so a call is a function
from database to database. Primary and unique keys stand as the checks that the database
makes; an identifier that is drawn as a `uuid4()` is a parameter. -/

namespace AgreementIntelligence.Agreements
open Identity Lib.Table Lib.Text Lib.Results

/-- `ProcessingOutboxRecord`; nothing names its uuid4 key, so a row is known by its place. -/
structure ProcessingOutboxRecord where
  jobId : Uuid
  organizationId : Uuid
  workspaceId : Uuid
  agreementId : Uuid
  idempotencyKey : String
  profile : String
  attemptCount : Nat
  queuedAt : Time
  deliveredAt : Option Time
  deriving DecidableEq, Repr

/-- The row that `enqueue_outbox` inserts for a job. -/
def outboxRow (job : ProcessingJobRecord) : ProcessingOutboxRecord where
  jobId := job.id
  organizationId := job.organizationId
  workspaceId := job.workspaceId
  agreementId := job.agreementId
  idempotencyKey := job.idempotencyKey
  profile := job.profile
  attemptCount := job.attemptCount
  queuedAt := job.queuedAt
  deliveredAt := none

def agreementNotFound {α : Type} : Except Raised α :=
  .error (.runtime "AgreementNotFoundError")

/-- `_agreement_in_scope`, and `AgreementService.get` -/
def agreementInScope (db : Database) (agreementId organizationId workspaceId : Uuid) :
    Except Raised AgreementRecord :=
  match db.agreement? agreementId organizationId workspaceId with
  | none => agreementNotFound
  | some agreement =>
    if agreement.deletionRequestedAt.isSome then agreementNotFound else .ok agreement

/-- `by_idempotency_key`, of an agreement that is not deletion-requested. -/
def Database.jobByIdempotencyKey (db : Database) (agreementId : Uuid) (idempotencyKey : String) :
    Option ProcessingJobRecord :=
  db.jobs.find? fun job => job.agreementId = agreementId ∧ job.idempotencyKey = idempotencyKey

def Database.version? (db : Database) (versionId : Uuid) : Option AgreementVersionRecord :=
  db.versions.find? fun version => version.id = versionId

/-- The version belongs to the agreement, in its tenant. -/
def AgreementVersionRecord.InScope (version : AgreementVersionRecord)
    (agreement : AgreementRecord) : Prop :=
  version.agreementId = agreement.id ∧ version.organizationId = agreement.organizationId ∧
    version.workspaceId = agreement.workspaceId

instance (version : AgreementVersionRecord) (agreement : AgreementRecord) :
    Decidable (version.InScope agreement) :=
  inferInstanceAs (Decidable (_ ∧ _))

/-- The version a submission is for: the one of the request, else the current one, if any. -/
def resolvedVersion (db : Database) (agreement : AgreementRecord) (versionId : Option Uuid) :
    Except Raised (Option AgreementVersionRecord) :=
  match versionId.or agreement.currentVersionId with
  | none => .ok none
  | some resolvedVersionId =>
    match db.version? resolvedVersionId with
    | none => agreementNotFound
    | some version => if version.InScope agreement then .ok (some version) else agreementNotFound

/-- A job as every submission queues it. -/
def queuedJob (agreement : AgreementRecord) (jobId : Uuid) (versionId : Option Uuid)
    (idempotencyKey profile : String) (source : Option String × Option String × Option String)
    (now : Time) : ProcessingJobRecord where
  id := jobId
  organizationId := agreement.organizationId
  workspaceId := agreement.workspaceId
  agreementId := agreement.id
  versionId := versionId
  idempotencyKey := idempotencyKey
  profile := profile
  sourceStorageKey := source.1
  sourceChecksum := source.2.1
  sourceContentType := source.2.2
  state := .queued
  attemptCount := 0
  failureCategory := none
  failureMessage := none
  nextRetryAt := none
  claimToken := none
  claimLeaseExpiresAt := none
  queuedAt := now
  processingStartedAt := none
  completedAt := none
  failedAt := none

/-- The source of a submission: its version, else the first file of the agreement. -/
def submittedSource (agreement : AgreementRecord) (version : Option AgreementVersionRecord) :
    Option String × Option String × Option String :=
  match version with
  | some version => (some version.storageKey, some version.checksum, some version.contentType)
  | none =>
    let sourceFile := agreement.files.head?
    (sourceFile.map (·.storageKey), sourceFile.map (·.checksum), sourceFile.map (·.contentType))

/-- The insert of a job, with the keys of the table. -/
def insertJob (db : Database) (job : ProcessingJobRecord) : Except Raised Database :=
  if (db.jobs.any fun row => row.id = job.id) ∨
      (db.jobByIdempotencyKey job.agreementId job.idempotencyKey).isSome then
    .error (.runtime "IntegrityError")
  else .ok { db with jobs := db.jobs ++ [job] }

/-- The version and the agreement after a submission; the agreement only follows when the
job is for its current version, or for none. -/
def markSubmitted (db : Database) (agreement : AgreementRecord) (job : ProcessingJobRecord) :
    Database :=
  { db with
    versions := db.versions.map fun version =>
      if job.versionId = some version.id then
        { version with processingState := .job .queued, processingJobId := some job.id }
      else version
    agreements :=
      if job.versionId = none ∨ job.versionId = agreement.currentVersionId then
        update (·.id) db.agreements agreement.id fun row =>
          { row with processingState := .job .queued }
      else db.agreements }

/-- A call that submits a job answers with the job and says whether it is a new one. -/
structure Submission where
  job : ProcessingJobRecord
  created : Bool
  db : Database

/-- The replay of an earlier submission under the same idempotency key. -/
def replaySubmission (db : Database) (existing : ProcessingJobRecord) (versionId : Option Uuid)
    (profile : String) : Except Raised Submission :=
  if existing.profile ≠ profile ∨ (versionId.isSome ∧ existing.versionId ≠ versionId) then
    .error (.runtime "IdempotencyKeyConflictError")
  else .ok ⟨existing, false, db⟩

/-- `ProcessingJobService.submit` -/
def submit (db : Database) (organizationId workspaceId agreementId : Uuid)
    (versionId : Option Uuid) (idempotencyKey profile : String) (now : Time) (jobId : Uuid) :
    Except Raised Submission := do
  let agreement ← agreementInScope db agreementId organizationId workspaceId
  match db.jobByIdempotencyKey agreementId idempotencyKey with
  | some existing => replaySubmission db existing versionId profile
  | none =>
    let version ← resolvedVersion db agreement versionId
    let job := queuedJob agreement jobId (version.map (·.id)) idempotencyKey profile
      (submittedSource agreement version) now
    let inserted ← insertJob db job
    .ok ⟨job, true, markSubmitted inserted agreement job⟩

/-- `requeue`: it queues no job, it only looks for a queued one to wake up. -/
def requeueableJob (db : Database) (organizationId workspaceId agreementId jobId : Uuid) :
    Except Raised ProcessingJobRecord := do
  let agreement ← agreementInScope db agreementId organizationId workspaceId
  match db.job? jobId with
  | none => agreementNotFound
  | some job =>
    if job.agreementId ≠ agreement.id ∨ ¬ job.MatchesTenantScope organizationId workspaceId then
      agreementNotFound
    else if job.state ≠ .queued then .error (.runtime "RetryNotPermittedError")
    else .ok job

/-! Comparisons -/

/-- `list_versions` -/
def Database.versionsOf (db : Database) (agreementId : Uuid) : List AgreementVersionRecord :=
  (db.versions.filter (·.agreementId = agreementId)).mergeSort
    fun one other => one.versionNumber ≤ other.versionNumber

def comparisonConflict {α : Type} : Except Raised α :=
  .error (.runtime "VersionComparisonConflictError")

/-- The versions a comparison names, or the last two that are completed. -/
def namedVersions (db : Database) (agreementId : Uuid) (baselineId targetId : Option Uuid) :
    Except Raised (AgreementVersionRecord × AgreementVersionRecord) :=
  match baselineId, targetId with
  | none, none =>
    match ((db.versionsOf agreementId).filter (·.processingState = .job .completed)).reverse with
    | target :: baseline :: _ => .ok (baseline, target)
    | _ => comparisonConflict
  | some baselineId, some targetId =>
    match db.version? baselineId, db.version? targetId with
    | some baseline, some target => .ok (baseline, target)
    | _, _ => comparisonConflict
  | _, _ => comparisonConflict

/-- `_resolve_versions` -/
def resolveVersions (db : Database) (agreementId : Uuid) (baselineId targetId : Option Uuid) :
    Except Raised (AgreementVersionRecord × AgreementVersionRecord) := do
  let (baseline, target) ← namedVersions db agreementId baselineId targetId
  if baseline.agreementId ≠ agreementId ∨ target.agreementId ≠ agreementId ∨
      baseline.processingState ≠ .job .completed ∨ target.processingState ≠ .job .completed ∨
      target.versionNumber ≤ baseline.versionNumber then comparisonConflict
  else .ok (baseline, target)

/-- The run that a comparison replays: under its key, else of the same versions. -/
def existingComparison (db : Database) (agreementId baselineId targetId : Uuid)
    (idempotencyKey analysisVersion : String) :
    Except Raised (Option VersionComparisonRunRecord) :=
  match db.comparisonRuns.find? fun run =>
      run.agreementId = agreementId ∧ run.idempotencyKey = idempotencyKey with
  | some run =>
    if run.baselineVersionId ≠ baselineId ∨ run.targetVersionId ≠ targetId ∨
        run.analysisVersion ≠ analysisVersion then comparisonConflict
    else .ok (some run)
  | none => .ok (db.comparisonRuns.find? fun run => run.agreementId = agreementId ∧
      run.baselineVersionId = baselineId ∧ run.targetVersionId = targetId ∧
      run.analysisVersion = analysisVersion)

/-- `VersionComparisonService.create`: the job it queues, when it is not a replay. -/
def submitComparison (db : Database) (organizationId workspaceId agreementId : Uuid)
    (baselineId targetId : Option Uuid) (idempotencyKey analysisVersion : String) (now : Time)
    (comparisonId jobId : Uuid) : Except Raised (Option ProcessingJobRecord × Database) := do
  let agreement ← agreementInScope db agreementId organizationId workspaceId
  let (baseline, target) ← resolveVersions db agreementId baselineId targetId
  match ← existingComparison db agreementId baseline.id target.id idempotencyKey
      analysisVersion with
  | some _ => .ok (none, db)
  | none =>
    let job := queuedJob agreement jobId (some target.id) ("comparison:" ++ comparisonId.str)
      versionComparisonProfile
      (some target.storageKey, some target.checksum, some target.contentType) now
    let inserted ← insertJob db job
    .ok (some job, { inserted with comparisonRuns := inserted.comparisonRuns ++ [{
      id := comparisonId, agreementId := agreementId, baselineVersionId := baseline.id
      targetVersionId := target.id, processingJobId := some jobId
      idempotencyKey := idempotencyKey, analysisVersion := analysisVersion, state := .queued
      failureCategory := none, failureMessage := none }] })

/-! Embedding re-index -/

/-- One job of `_enqueue_embedding_reindex_jobs`, for an active index build that the query
has returned with its agreement; jobs of an earlier promotion are left alone. -/
def enqueueEmbeddingReindexJob (db : Database) (organizationId workspaceId agreementId : Uuid)
    (configurationId buildId : Uuid) (sourceChecksum : String) (now : Time) (jobId : Uuid) :
    Except Raised (Option ProcessingJobRecord × Database) := do
  let agreement ← agreementInScope db agreementId organizationId workspaceId
  let idempotencyKey :=
    "ai-config:" ++ configurationId.str ++ ":embedding-reindex:" ++ buildId.str
  if agreement.archivedAt.isSome ∨ (db.jobByIdempotencyKey agreementId idempotencyKey).isSome
  then .ok (none, db)
  else
    let job := queuedJob agreement jobId none idempotencyKey
      (embeddingReindexProfilePrefix ++ configurationId.str) (none, some sourceChecksum, none) now
    let inserted ← insertJob db job
    .ok (some job, inserted)

/-! Versions -/

/-- `UploadedDocument` -/
structure UploadedDocument where
  objectKey : String
  sha256 : String
  contentType : String
  deriving DecidableEq, Repr

/-- The insert of a version, with the check of its source object and the keys of the table. -/
def insertVersion (db : Database) (record : AgreementVersionRecord) : Except Raised Database :=
  if db.registry.any fun entry => entry.organizationId = record.organizationId ∧
      entry.workspaceId = record.workspaceId ∧ entry.objectKey = record.storageKey ∧
      entry.state ≠ .available then
    .error (.runtime "source object is not available; upload it again")
  else if db.versions.any fun version => version.id = record.id ∨
      (version.agreementId = record.agreementId ∧
        (version.versionNumber = record.versionNumber ∨ version.checksum = record.checksum ∨
          version.idempotencyKey = record.idempotencyKey)) then
    .error (.runtime "IntegrityError")
  else .ok { db with versions := db.versions ++ [record] }

/-- The version that a call creates. -/
def newVersion (agreement : AgreementRecord) (versionId : Uuid) (versionNumber : Nat)
    (idempotencyKey : String) (uploaded : UploadedDocument) : AgreementVersionRecord where
  id := versionId
  agreementId := agreement.id
  organizationId := agreement.organizationId
  workspaceId := agreement.workspaceId
  versionNumber := versionNumber
  storageKey := uploaded.objectKey
  checksum := uploaded.sha256
  contentType := uploaded.contentType
  processingState := .pending
  processingJobId := none
  idempotencyKey := idempotencyKey

/-- `AgreementVersionService.create` -/
def createVersion (db : Database) (organizationId workspaceId agreementId : Uuid)
    (expectedCurrentVersion : Nat) (idempotencyKey : String) (uploaded : UploadedDocument)
    (versionId : Uuid) : Except Raised Database := do
  let agreement ← agreementInScope db agreementId organizationId workspaceId
  match db.versions.find? fun version =>
      version.agreementId = agreementId ∧ version.idempotencyKey = idempotencyKey with
  | some existing =>
    if existing.checksum ≠ uploaded.sha256 then
      .error (.runtime "VersionIdempotencyConflictError")
    else .ok db
  | none =>
    let currentNumber := ((db.versionsOf agreementId).getLast?.map (·.versionNumber)).getD 0
    if expectedCurrentVersion ≠ currentNumber then .error (.runtime "StaleCurrentVersionError")
    else if db.versions.any fun version =>
        version.agreementId = agreementId ∧ version.checksum = uploaded.sha256 then
      .error (.runtime "DuplicateAgreementVersionError")
    else
      let record := newVersion agreement versionId (currentNumber + 1) idempotencyKey uploaded
      let inserted ← insertVersion db record
      .ok { inserted with agreements := update (·.id) inserted.agreements agreementId fun row =>
        { row with
          files := [⟨uploaded.objectKey, uploaded.sha256, uploaded.contentType⟩]
          currentVersionId := some versionId
          processingState := .pending } }

/-! What the calls can do -/

theorem agreementInScope_ok {db : Database} {agreementId organizationId workspaceId : Uuid}
    {agreement : AgreementRecord}
    (found : agreementInScope db agreementId organizationId workspaceId = .ok agreement) :
    agreement ∈ db.agreements ∧ agreement.id = agreementId ∧
      agreement.organizationId = organizationId ∧ agreement.workspaceId = workspaceId ∧
      agreement.deletionRequestedAt = none := by
  unfold agreementInScope at found
  split at found
  · cases found
  rename_i row stored
  split at found
  · cases found
  rename_i active
  cases found
  obtain ⟨member, named, organization, workspace⟩ := Database.agreement?_eq_some stored
  exact ⟨member, named, organization, workspace, by simpa using active⟩

theorem version?_eq_some {db : Database} {versionId : Uuid} {version : AgreementVersionRecord}
    (found : db.version? versionId = some version) :
    version ∈ db.versions ∧ version.id = versionId := by
  have holds := List.find?_some found
  exact ⟨List.mem_of_find?_eq_some found, of_decide_eq_true holds⟩

theorem resolvedVersion_ok {db : Database} {agreement : AgreementRecord}
    {versionId : Option Uuid} {resolved : Option AgreementVersionRecord}
    (done : resolvedVersion db agreement versionId = .ok resolved) :
    resolved.map (·.id) = versionId.or agreement.currentVersionId ∧
      ∀ version ∈ resolved, version ∈ db.versions ∧ version.InScope agreement := by
  unfold resolvedVersion at done
  split at done
  · rename_i unresolved
    cases done
    exact ⟨unresolved.symm, nofun⟩
  rename_i resolvedId named
  split at done
  · cases done
  rename_i version found
  obtain ⟨member, rfl⟩ := version?_eq_some found
  split at done
  · rename_i scope
    cases done
    refine ⟨named.symm, fun other same => ?_⟩
    cases same
    exact ⟨member, scope⟩
  · cases done

theorem insertJob_ok {db after : Database} {job : ProcessingJobRecord}
    (done : insertJob db job = .ok after) :
    (∀ row ∈ db.jobs, row.id ≠ job.id) ∧ after = { db with jobs := db.jobs ++ [job] } := by
  unfold insertJob at done
  split at done
  · cases done
  rename_i fresh
  cases done
  rw [not_or] at fresh
  exact ⟨by simpa using fresh.1, rfl⟩

/-- A new job of an agreement, for one of its versions or for none. -/
structure Queues (db : Database) (agreement : AgreementRecord) (job : ProcessingJobRecord) :
    Prop where
  member : agreement ∈ db.agreements
  active : agreement.deletionRequestedAt = none
  fresh : ∀ row ∈ db.jobs, row.id ≠ job.id
  queued : job.state = .queued
  agreementId : job.agreementId = agreement.id
  organizationId : job.organizationId = agreement.organizationId
  workspaceId : job.workspaceId = agreement.workspaceId
  version : ∀ versionId, job.versionId = some versionId →
    ∃ version ∈ db.versions, version.id = versionId ∧ version.agreementId = agreement.id

/-- A submission replays, or queues a job for the version it resolves to. -/
theorem submit_ok {db : Database} {organizationId workspaceId agreementId jobId : Uuid}
    {versionId : Option Uuid} {idempotencyKey profile : String} {now : Time}
    {submission : Submission}
    (done : submit db organizationId workspaceId agreementId versionId idempotencyKey profile now
      jobId = .ok submission) :
    (submission.created = false ∧ submission.db = db) ∨
      submission.created = true ∧ submission.job.id = jobId ∧
        ∃ agreement, Queues db agreement submission.job ∧
        (submission.job.versionId = none → agreement.currentVersionId = none) ∧
        submission.db = markSubmitted { db with jobs := db.jobs ++ [submission.job] } agreement
          submission.job := by
  obtain ⟨agreement, found, rest⟩ := bind_ok.mp done
  split at rest
  · refine .inl ?_
    unfold replaySubmission at rest
    split at rest
    · cases rest
    · cases rest
      exact ⟨rfl, rfl⟩
  obtain ⟨version, resolved, rest⟩ := bind_ok.mp rest
  obtain ⟨inserted, inserts, rest⟩ := bind_ok.mp rest
  obtain ⟨fresh, rfl⟩ := insertJob_ok inserts
  obtain ⟨named, inScope⟩ := resolvedVersion_ok resolved
  obtain ⟨member, -, -, -, active⟩ := agreementInScope_ok found
  cases rest
  refine .inr ⟨rfl, rfl, agreement, ⟨member, active, fresh, rfl, rfl, rfl, rfl, ?_⟩, ?_, rfl⟩
  · intro resolvedId same
    obtain ⟨row, here, rfl⟩ := Option.map_eq_some_iff.mp same
    obtain ⟨stored, scope⟩ := inScope row here
    exact ⟨row, stored, rfl, scope.1⟩
  · intro unresolved
    have both : versionId.or agreement.currentVersionId = none := named.symm.trans unresolved
    exact (Option.or_eq_none_iff.mp both).2

theorem resolveVersions_ok {db : Database} {agreementId : Uuid} {baselineId targetId : Option Uuid}
    {versions : AgreementVersionRecord × AgreementVersionRecord}
    (done : resolveVersions db agreementId baselineId targetId = .ok versions) :
    versions.2 ∈ db.versions ∧ versions.2.agreementId = agreementId := by
  obtain ⟨named, names, rest⟩ := bind_ok.mp done
  simp only at rest
  split at rest
  · cases rest
  rename_i accepted
  cases rest
  simp only [not_or, not_not] at accepted
  refine ⟨?_, accepted.2.1⟩
  unfold namedVersions at names
  split at names
  · split at names
    · rename_i target baseline _ last
      cases names
      have listed : target ∈
          ((db.versionsOf agreementId).filter (·.processingState = .job .completed)).reverse := by
        rw [last]
        exact List.mem_cons_self
      have sorted := List.mem_of_mem_filter (List.mem_reverse.mp listed)
      exact List.mem_of_mem_filter (List.mem_mergeSort.mp sorted)
    · cases names
  · split at names
    · rename_i found
      cases names
      exact (version?_eq_some found).1
    · cases names
  · cases names

/-- A comparison replays, or queues a job for its target version. -/
theorem submitComparison_ok {db after : Database}
    {organizationId workspaceId agreementId comparisonId jobId : Uuid}
    {baselineId targetId : Option Uuid} {idempotencyKey analysisVersion : String} {now : Time}
    {queued : Option ProcessingJobRecord}
    (done : submitComparison db organizationId workspaceId agreementId baselineId targetId
      idempotencyKey analysisVersion now comparisonId jobId = .ok (queued, after)) :
    (queued = none ∧ after = db) ∨ ∃ agreement job comparisonRuns, queued = some job ∧
      job.id = jobId ∧ Queues db agreement job ∧
      after = { db with jobs := db.jobs ++ [job], comparisonRuns := comparisonRuns } := by
  obtain ⟨agreement, found, rest⟩ := bind_ok.mp done
  obtain ⟨⟨baseline, target⟩, resolved, rest⟩ := bind_ok.mp rest
  obtain ⟨existing, -, rest⟩ := bind_ok.mp rest
  obtain ⟨stored, owned⟩ := resolveVersions_ok resolved
  obtain ⟨member, named, -, -, active⟩ := agreementInScope_ok found
  cases existing with
  | some run =>
    cases rest
    exact .inl ⟨rfl, rfl⟩
  | none =>
    obtain ⟨inserted, inserts, rest⟩ := bind_ok.mp rest
    obtain ⟨fresh, rfl⟩ := insertJob_ok inserts
    cases rest
    refine .inr ⟨agreement, _, _, rfl, rfl, ⟨member, active, fresh, rfl, rfl, rfl, rfl, ?_⟩, rfl⟩
    intro versionId same
    cases same
    exact ⟨target, stored, rfl, owned.trans named.symm⟩

theorem enqueueEmbeddingReindexJob_ok {db after : Database}
    {organizationId workspaceId agreementId configurationId buildId jobId : Uuid}
    {sourceChecksum : String} {now : Time} {queued : Option ProcessingJobRecord}
    (done : enqueueEmbeddingReindexJob db organizationId workspaceId agreementId configurationId
      buildId sourceChecksum now jobId = .ok (queued, after)) :
    (queued = none ∧ after = db) ∨ ∃ agreement job, queued = some job ∧
      job.id = jobId ∧ Queues db agreement job ∧ after = { db with jobs := db.jobs ++ [job] } := by
  obtain ⟨agreement, found, rest⟩ := bind_ok.mp done
  obtain ⟨member, -, -, -, active⟩ := agreementInScope_ok found
  simp only at rest
  split at rest
  · cases rest
    exact .inl ⟨rfl, rfl⟩
  · obtain ⟨inserted, inserts, rest⟩ := bind_ok.mp rest
    obtain ⟨fresh, rfl⟩ := insertJob_ok inserts
    cases rest
    exact .inr ⟨agreement, _, rfl, rfl, ⟨member, active, fresh, rfl, rfl, rfl, rfl, nofun⟩, rfl⟩

/-- A new version becomes the current one of its agreement, not yet submitted. -/
theorem createVersion_ok {db after : Database}
    {organizationId workspaceId agreementId versionId : Uuid} {expectedCurrentVersion : Nat}
    {idempotencyKey : String} {uploaded : UploadedDocument}
    (done : createVersion db organizationId workspaceId agreementId expectedCurrentVersion
      idempotencyKey uploaded versionId = .ok after) :
    after = db ∨ ∃ agreement ∈ db.agreements, ∃ record,
      record.id = versionId ∧ record.InScope agreement ∧ record.processingJobId = none ∧
      record.storageKey = uploaded.objectKey ∧
      (agreement.organizationId = organizationId ∧ agreement.workspaceId = workspaceId) ∧
      (∀ version ∈ db.versions, version.id ≠ versionId) ∧
      after = { db with
        versions := db.versions ++ [record]
        agreements := update (·.id) db.agreements agreement.id fun row =>
          { row with files := [⟨uploaded.objectKey, uploaded.sha256, uploaded.contentType⟩],
                     currentVersionId := some versionId, processingState := .pending } } := by
  obtain ⟨agreement, found, rest⟩ := bind_ok.mp done
  obtain ⟨member, named, organization, workspace, -⟩ := agreementInScope_ok found
  split at rest
  · split at rest
    · cases rest
    · cases rest
      exact .inl rfl
  simp only at rest
  split at rest
  · cases rest
  split at rest
  · cases rest
  obtain ⟨inserted, inserts, rest⟩ := bind_ok.mp rest
  unfold insertVersion at inserts
  split at inserts
  · cases inserts
  split at inserts
  · cases inserts
  rename_i fresh
  cases inserts
  cases rest
  refine .inr ⟨agreement, member, _, rfl, ⟨rfl, rfl, rfl⟩, rfl, rfl, ⟨organization, workspace⟩, ?_,
    by rw [named]⟩
  intro version stored same
  refine fresh (List.any_eq_true.mpr ⟨version, stored, ?_⟩)
  exact decide_eq_true (.inl same)

/-- What a retry through the API writes. -/
structure Retried (before : Database) (agreementId : Uuid) (job : ProcessingJobRecord) (now : Time)
    (after : Database) : Prop where
  member : job ∈ before.jobs
  failed : job.state = .failed
  jobs : after.jobs = update (·.id) before.jobs job.id (retriedJob now)
  versions : after.versions = before.versions
  agreements : after.agreements = update (·.id) before.agreements agreementId fun row =>
    { row with processingState := .job .queued }

theorem retryJob_ok {db after : Database} {organizationId workspaceId agreementId jobId : Uuid}
    {now : Time}
    (done : retryJob db organizationId workspaceId agreementId jobId now = .ok after) :
    ∃ job, job.id = jobId ∧ Retried db agreementId job now after := by
  unfold retryJob at done
  split at done
  · cases done
  split at done
  · cases done
  split at done
  · cases done
  rename_i job found
  obtain ⟨member, named⟩ := Database.job?_eq_some found
  split at done
  · cases done
  split at done
  · cases done
  rename_i permitted
  cases done
  rw [not_or, not_not] at permitted
  exact ⟨job, named, member, permitted.1, by rw [named]; rfl, rfl, rfl⟩

end AgreementIntelligence.Agreements
