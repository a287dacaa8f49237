import AgreementIntelligence.Lib.Runs
import AgreementIntelligence.Agreements.Deletion

/-! The processing workers, the deletion workers and the API on one database and one object
storage. A worker is known by what its calls have returned to it: the claims of jobs with
the artifact that the processor expects of each, the claims of deletion requests with the
objects listed under each, and the listed objects whose removal from storage has returned.
A worker makes any of its remaining calls at any time, in any order, any number of times, or
never again, so crashes, expired leases, duplicated and re-ordered deliveries are runs like
any other. A call with a value that no worker has been given does nothing. -/

namespace AgreementIntelligence.Agreements
open Identity Lib.Runs

structure World where
  db : Database
  storage : List String
  claims : List ProcessingJob
  expected : List (ProcessingJob × CompletedArtifact)
  deletions : List AgreementDeletion
  listed : List (AgreementDeletion × AgreementDeletionObject)
  removed : List (AgreementDeletion × AgreementDeletionObject)

/-- The calls that `JobProcessor.handle` makes on the processing repository. -/
inductive WorkerCall where
  | claim (jobId organizationId workspaceId : Uuid) (now : Time) (claimToken : Uuid)
  | expect (job : ProcessingJob) (artifact : CompletedArtifact) (now : Time)
  | commitPrepared (job : ProcessingJob) (artifact : CompletedArtifact) (content : String)
      (verdict : Except Raised Unit) (now : Time)
  | requeue (job : ProcessingJob) (expected : Option CompletedArtifact)
      (category message : String) (nextRetryAt now : Time)
  | fail (job : ProcessingJob) (expected : Option CompletedArtifact)
      (category message : String) (now : Time)

/-- The claim a call is made with. -/
def WorkerCall.claimed? : WorkerCall → Option ProcessingJob
  | .claim .. => none
  | .expect job .. => some job
  | .commitPrepared job .. => some job
  | .requeue job .. => some job
  | .fail job .. => some job

instance : LawfulBEq (ProcessingJob × CompletedArtifact) := inferInstance

/-- The values of a call have been given to some worker. -/
def WorkerCall.Held (w : World) : WorkerCall → Prop
  | .claim .. => True
  | .expect job artifact _ => (job, artifact) ∈ w.expected
  | .commitPrepared job artifact .. => (job, artifact) ∈ w.expected
  | .requeue job expected .. => job ∈ w.claims ∧ ∀ artifact ∈ expected, (job, artifact) ∈ w.expected
  | .fail job expected .. => job ∈ w.claims ∧ ∀ artifact ∈ expected, (job, artifact) ∈ w.expected

instance (w : World) (call : WorkerCall) : Decidable (call.Held w) := by
  cases call <;> unfold WorkerCall.Held <;> infer_instance

/-- The database that a transaction leaves. -/
def committed (db : Database) : Except Raised Database → Database
  | .ok after => after
  | .error _ => db

theorem eq_ok_committed (db : Database) {outcome : Except Raised Database}
    (returns : outcome.isOk = true) : outcome = .ok (committed db outcome) := by
  cases outcome with
  | error raised => cases returns
  | ok after => rfl

/-- The world after a transaction that writes the database only. -/
def World.transact (w : World) (outcome : Except Raised Database) : World :=
  { w with db := committed w.db outcome }

/-- The outcome of `commit_prepared` for a held claim. -/
def World.commit (w : World) (job : ProcessingJob) (artifact : CompletedArtifact)
    (content : String) (verdict : Except Raised Unit) (now : Time) :
    List String × Except Raised (Bool × Database) :=
  commitPrepared w.db w.storage job (prepare job artifact content) verdict now

/-- A worker call, whoever makes it. -/
def World.call (w : World) : WorkerCall → World
  | .claim jobId organizationId workspaceId now claimToken =>
    match claim w.db jobId organizationId workspaceId now claimToken with
    | .error _ => w
    | .ok (result, db) => { w with db := db, claims := w.claims ++ result.toList }
  | .expect job artifact now =>
    w.transact ((expect w.db job artifact now).map Prod.snd)
  | .commitPrepared job artifact content verdict now =>
    let (storage, outcome) := w.commit job artifact content verdict now
    { w.transact (outcome.map Prod.snd) with storage := storage }
  | .requeue job expected category message nextRetryAt now =>
    w.transact ((requeue w.db job category message nextRetryAt expected now).map Prod.snd)
  | .fail job expected category message now =>
    w.transact (fail w.db job category message expected now)

inductive Event where
  | call (worker : WorkerCall)
  /-- `expected_artifact` of the processor, on a held claim. -/
  | expectArtifact (job : ProcessingJob)
  /-- `commit_prepared` up to the write of the object, and then the worker dies. -/
  | crashInCommit (job : ProcessingJob) (artifact : CompletedArtifact) (content : String)
      (now : Time)
  | retryJob (organizationId workspaceId agreementId jobId : Uuid) (now : Time)
  | acceptDeletion (organizationId workspaceId agreementId deletionId : Uuid) (now : Time)
  | claimDeletion (deletionId organizationId workspaceId : Uuid) (now : Time) (claimToken : Uuid)
  | listPending (deletion : AgreementDeletion)
  /-- Storage removes an object that the worker has validated; sources go another way. -/
  | removeObject (deletion : AgreementDeletion) (item : AgreementDeletionObject)
  | markDeleted (deletion : AgreementDeletion) (item : AgreementDeletionObject) (now : Time)
  | deleteSource (deletion : AgreementDeletion) (item : AgreementDeletionObject) (now : Time)
  | retryObject (deletion : AgreementDeletion) (item : AgreementDeletionObject) (message : String)
      (nextRetryAt : Time)
  | failObject (deletion : AgreementDeletion) (item : AgreementDeletionObject) (message : String)
      (now : Time)
  | retryDatabaseCleanup (deletion : AgreementDeletion) (message : String) (nextRetryAt : Time)
  | failDatabaseCleanup (deletion : AgreementDeletion) (message : String) (now : Time)
  | recoverStaleDeletions (organizationId : Uuid) (now : Time)
  | completeAndPurge (deletion : AgreementDeletion) (now : Time)

/-- `handle` passes an object on only after `_validate_owned_key`. -/
def validates (deletion : AgreementDeletion) (item : AgreementDeletionObject) : Bool :=
  validateOwnedKey deletion.organizationId deletion.workspaceId deletion.agreementId item.category
    item.objectKey

def step (w : World) : Event → World
  | .call worker => if worker.Held w then w.call worker else w
  | .expectArtifact job =>
    if job ∈ w.claims then
      match expectedArtifact w.db job with
      | .error _ => w
      | .ok artifact => { w with expected := w.expected ++ [(job, artifact)] }
    else w
  | .crashInCommit job artifact content now =>
    if (job, artifact) ∈ w.expected then
      { w with storage := (w.commit job artifact content (.ok ()) now).1 }
    else w
  | .retryJob organizationId workspaceId agreementId jobId now =>
    w.transact (retryJob w.db organizationId workspaceId agreementId jobId now)
  | .acceptDeletion organizationId workspaceId agreementId deletionId now =>
    w.transact (acceptDeletion w.db organizationId workspaceId agreementId deletionId now)
  | .claimDeletion deletionId organizationId workspaceId now claimToken =>
    let (result, db) := claimDeletion w.db deletionId organizationId workspaceId now claimToken
    { w with db := db, deletions := w.deletions ++ result.toList }
  | .listPending deletion =>
    if deletion ∈ w.deletions then
      { w with listed := w.listed ++ (pendingObjects w.db deletion).map fun item =>
          (deletion, item) }
    else w
  | .removeObject deletion item =>
    if (deletion, item) ∈ w.listed ∧ item.category ≠ .source ∧ validates deletion item then
      { w with storage := w.storage.filter (· ≠ item.objectKey)
               removed := w.removed ++ [(deletion, item)] }
    else w
  | .markDeleted deletion item now =>
    if (deletion, item) ∈ w.removed then
      w.transact (markDeleted w.db deletion item now)
    else w
  | .deleteSource deletion item now =>
    if (deletion, item) ∈ w.listed ∧ item.category = .source ∧ validates deletion item then
      let (storage, outcome) := deleteSourceIfUnreferenced w.db w.storage deletion item now
      { w.transact outcome with storage := storage }
    else w
  | .retryObject deletion item message nextRetryAt =>
    if (deletion, item) ∈ w.listed then
      w.transact (.ok (retryObject w.db deletion item.id message nextRetryAt))
    else w
  | .failObject deletion item message now =>
    if (deletion, item) ∈ w.listed then
      w.transact (.ok (failObject w.db deletion item.id message now))
    else w
  | .retryDatabaseCleanup deletion message nextRetryAt =>
    if deletion ∈ w.deletions then
      w.transact (.ok (retryDatabaseCleanup w.db deletion message nextRetryAt))
    else w
  | .failDatabaseCleanup deletion message now =>
    if deletion ∈ w.deletions then
      w.transact (.ok (failDatabaseCleanup w.db deletion message now))
    else w
  | .recoverStaleDeletions organizationId now =>
    w.transact (.ok (recoverStaleDeletions w.db organizationId now))
  | .completeAndPurge deletion now =>
    if deletion ∈ w.deletions then
      w.transact (completeAndPurge w.db deletion now)
    else w

/-- A database before any delivery: jobs wait in the queue, nothing has been claimed,
reserved or produced, and no deletion has been requested. Jobs that the API submits later
can stand in the table from here on, since nothing happens to a job before its delivery. -/
structure Database.Initial (db : Database) : Prop where
  jobIds : (db.jobs.map (·.id)).Nodup
  queued : ∀ job ∈ db.jobs,
    job.state = .queued ∧ job.claimToken = none ∧ job.claimLeaseExpiresAt = none
  artifacts : db.artifacts = []
  intents : db.intents = []
  active : ∀ agreement ∈ db.agreements, agreement.deletionRequestedAt = none
  deletionRequests : db.deletionRequests = []
  deletionObjects : db.deletionObjects = []

structure World.Initial (w : World) : Prop where
  db : w.db.Initial
  claims : w.claims = []
  expected : w.expected = []
  deletions : w.deletions = []
  listed : w.listed = []
  removed : w.removed = []

/-! A small world: one agreement with one queued comparison of its versions. -/

def sampleAgreement : AgreementRecord where
  id := .ofNat 3
  organizationId := .ofNat 1
  workspaceId := .ofNat 2
  files := []
  processingState := .job .queued
  currentVersionId := none
  archivedAt := none
  deletionRequestedAt := none

def sampleJob : ProcessingJobRecord where
  id := .ofNat 5
  organizationId := .ofNat 1
  workspaceId := .ofNat 2
  agreementId := .ofNat 3
  versionId := none
  idempotencyKey := "comparison"
  profile := versionComparisonProfile
  sourceStorageKey := none
  sourceChecksum := none
  sourceContentType := none
  state := .queued
  attemptCount := 0
  failureCategory := none
  failureMessage := none
  nextRetryAt := none
  claimToken := none
  claimLeaseExpiresAt := none
  queuedAt := 0
  processingStartedAt := none
  completedAt := none
  failedAt := none

def sampleComparison : VersionComparisonRunRecord where
  id := .ofNat 6
  agreementId := .ofNat 3
  baselineVersionId := .ofNat 8
  targetVersionId := .ofNat 9
  processingJobId := some (.ofNat 5)
  idempotencyKey := "comparison"
  analysisVersion := "v1"
  state := .queued
  failureCategory := none
  failureMessage := none

def sampleDatabase : Database where
  agreements := [sampleAgreement]
  versions := []
  jobs := [sampleJob]
  artifacts := []
  intents := []
  comparisonRuns := [sampleComparison]
  finalPackages := []
  workflowOutbox := []
  deletionRequests := []
  deletionObjects := []
  nextObjectId := 0
  deletionOutbox := []
  registry := []
  questionThreads := []
  questionTurns := []

def sampleWorld : World where
  db := sampleDatabase
  storage := []
  claims := []
  expected := []
  deletions := []
  listed := []
  removed := []

theorem sampleWorld_initial : sampleWorld.Initial where
  db := by constructor <;> decide
  claims := rfl
  expected := rfl
  deletions := rfl
  listed := rfl
  removed := rfl

def sampleClaim : ProcessingJob := claimedJob 100 (.ofNat 50) sampleJob

def sampleArtifact : CompletedArtifact := ⟨.ofNat 5, comparisonArtifactKey (.ofNat 6)⟩

def sampleDeletion : AgreementDeletion where
  id := .ofNat 7
  organizationId := .ofNat 1
  workspaceId := .ofNat 2
  agreementId := .ofNat 3
  attemptCount := 1
  claimToken := .ofNat 70

/-- A worker takes the job and commits its artifact. -/
def sampleProcessing : List Event :=
  [.call (.claim (.ofNat 5) (.ofNat 1) (.ofNat 2) 100 (.ofNat 50)), .expectArtifact sampleClaim,
    .call (.expect sampleClaim sampleArtifact 101),
    .call (.commitPrepared sampleClaim sampleArtifact "{}" (.ok ()) 102)]

end AgreementIntelligence.Agreements
