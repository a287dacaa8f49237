import AgreementIntelligence.Identity
import AgreementIntelligence.Lib.Table

/-! The rows that processing and deletion of agreements share: agreements and their
versions, processing jobs with their artifacts and artifact intents, comparison runs, final
packages, and the deletion request with its inventory and its outbox row. The API and the
worker declare these tables twice with the same columns. Columns that nothing here reads
(titles, parties, audit texts, creation times) are left out. The uuid4 keys of inventory
rows, which no call ever names before it has read them, are numbers of a sequence; every
other identifier is a `Uuid`. -/

namespace AgreementIntelligence.Agreements
open Identity Lib

/-- `JobState` -/
inductive JobState where
  | queued
  | processing
  | completed
  | failed
  deriving DecidableEq, Repr

/-- The `processing_state` of agreements and versions; `deleted` marks a tombstone. -/
inductive ProcessingState where
  | pending
  | job (state : JobState)
  | deleted
  deriving DecidableEq, Repr

structure AgreementFile where
  storageKey : String
  checksum : String
  contentType : String
  deriving DecidableEq, Repr

structure AgreementRecord where
  id : Uuid
  organizationId : Uuid
  workspaceId : Uuid
  files : List AgreementFile
  processingState : ProcessingState
  currentVersionId : Option Uuid
  archivedAt : Option Time
  deletionRequestedAt : Option Time
  deriving DecidableEq, Repr

structure AgreementVersionRecord where
  id : Uuid
  agreementId : Uuid
  organizationId : Uuid
  workspaceId : Uuid
  versionNumber : Nat
  storageKey : String
  checksum : String
  contentType : String
  processingState : ProcessingState
  processingJobId : Option Uuid
  idempotencyKey : String
  deriving DecidableEq, Repr

structure ProcessingJobRecord where
  id : Uuid
  organizationId : Uuid
  workspaceId : Uuid
  agreementId : Uuid
  versionId : Option Uuid
  idempotencyKey : String
  profile : String
  sourceStorageKey : Option String
  sourceChecksum : Option String
  sourceContentType : Option String
  state : JobState
  attemptCount : Nat
  failureCategory : Option String
  failureMessage : Option String
  nextRetryAt : Option Time
  claimToken : Option Uuid
  claimLeaseExpiresAt : Option Time
  queuedAt : Time
  processingStartedAt : Option Time
  completedAt : Option Time
  failedAt : Option Time
  deriving DecidableEq, Repr

structure ProcessingArtifactRecord where
  jobId : Uuid
  organizationId : Uuid
  workspaceId : Uuid
  agreementId : Uuid
  artifactKey : String
  deriving DecidableEq, Repr

/-- The categories of `agreement_deletion_objects`; artifact intents use two of them. -/
inductive ObjectCategory where
  | source
  | analysis
  | comparison
  | reviewManifest
  | reviewPdf
  deriving DecidableEq, Repr

inductive IntentState where
  | expected
  | settled
  deriving DecidableEq, Repr

structure ProcessingArtifactIntentRecord where
  jobId : Uuid
  organizationId : Uuid
  workspaceId : Uuid
  agreementId : Uuid
  profile : String
  category : ObjectCategory
  artifactKey : String
  state : IntentState
  deriving DecidableEq, Repr

structure VersionComparisonRunRecord where
  id : Uuid
  agreementId : Uuid
  baselineVersionId : Uuid
  targetVersionId : Uuid
  processingJobId : Option Uuid
  idempotencyKey : String
  analysisVersion : String
  state : JobState
  failureCategory : Option String
  failureMessage : Option String
  deriving DecidableEq, Repr

/-- A final package row joined with the agreement of its review case. -/
structure ReviewFinalPackageRecord where
  id : Uuid
  organizationId : Uuid
  workspaceId : Uuid
  reviewId : Uuid
  agreementId : Uuid
  manifestKey : String
  pdfKey : String
  deriving DecidableEq, Repr

/-- The entries of a package snapshot that are read: by the inventory the two legacy keys, by
the worker the package to repair. -/
structure PackageSnapshot where
  legacyManifestKey : Option String
  legacyPdfKey : Option String
  repairPackageId : Option Uuid
  deriving DecidableEq, Repr

/-- A workflow outbox row joined with the agreement of its review case. -/
structure ReviewWorkflowOutboxRecord where
  organizationId : Uuid
  workspaceId : Uuid
  reviewId : Uuid
  agreementId : Uuid
  eventType : String
  packageManifestKey : Option String
  packagePdfKey : Option String
  packageSnapshot : Option PackageSnapshot
  deriving DecidableEq, Repr

inductive DeletionState where
  | accepted
  | processing
  | retrying
  | completed
  | failed
  deriving DecidableEq, Repr

structure AgreementDeletionRequestRecord where
  id : Uuid
  organizationId : Uuid
  workspaceId : Uuid
  agreementId : Uuid
  state : DeletionState
  attemptCount : Nat
  retryCycle : Nat
  claimToken : Option Uuid
  leaseExpiresAt : Option Time
  nextAttemptAt : Time
  failureCategory : Option String
  failureMessage : Option String
  acceptedAt : Time
  processingStartedAt : Option Time
  completedAt : Option Time
  failedAt : Option Time
  deriving DecidableEq, Repr

inductive DeletionObjectState where
  | pending
  | deleted
  | preserved
  deriving DecidableEq, Repr

structure AgreementDeletionObjectRecord where
  id : Nat
  deletionId : Uuid
  agreementId : Uuid
  category : ObjectCategory
  objectKey : String
  state : DeletionObjectState
  lastError : Option String
  deriving DecidableEq, Repr

structure AgreementDeletionOutboxRecord where
  deletionId : Uuid
  agreementId : Uuid
  attemptCount : Nat
  nextAttemptAt : Time
  leaseToken : Option Uuid
  leaseExpiresAt : Option Time
  lastError : Option String
  deliveredAt : Option Time
  deriving DecidableEq, Repr

inductive RegistryState where
  | available
  | deleting
  | deleted
  deriving DecidableEq, Repr

structure DocumentObjectRegistryRecord where
  organizationId : Uuid
  workspaceId : Uuid
  objectKey : String
  state : RegistryState
  updatedAt : Time
  deriving DecidableEq, Repr

structure QuestionThreadRecord where
  id : Uuid
  organizationId : Uuid
  workspaceId : Uuid
  agreementIds : Option (List Uuid)
  deriving DecidableEq, Repr

structure CitationSource where
  agreementId : Uuid
  sourceChecksum : String
  sourceVersion : String
  deriving DecidableEq, Repr

/-- A persisted turn: the anchors that its claims cite, claim by claim, and the stored
citation source of every anchor that the search returned. -/
structure QuestionTurnRecord where
  organizationId : Uuid
  workspaceId : Uuid
  threadId : Uuid
  claims : List (List String)
  citationSources : List (String × CitationSource)
  deriving DecidableEq, Repr

structure Database where
  agreements : List AgreementRecord
  versions : List AgreementVersionRecord
  jobs : List ProcessingJobRecord
  artifacts : List ProcessingArtifactRecord
  intents : List ProcessingArtifactIntentRecord
  comparisonRuns : List VersionComparisonRunRecord
  finalPackages : List ReviewFinalPackageRecord
  workflowOutbox : List ReviewWorkflowOutboxRecord
  deletionRequests : List AgreementDeletionRequestRecord
  deletionObjects : List AgreementDeletionObjectRecord
  nextObjectId : Nat
  deletionOutbox : List AgreementDeletionOutboxRecord
  registry : List DocumentObjectRegistryRecord
  questionThreads : List QuestionThreadRecord
  questionTurns : List QuestionTurnRecord
  deriving Repr

/-- What a transaction raises; the session rolls back. -/
inductive Raised where
  | processingLeaseHeld (message : String)
  | permanentProcessing (message : String)
  | transientProcessing (message : String)
  | objectCleanup (message : String)
  | runtime (message : String)
  deriving DecidableEq, Repr

/-- `processing_types.CompletedArtifact` -/
structure CompletedArtifact where
  jobId : Uuid
  key : String
  deriving DecidableEq, Repr

/-- `ProcessingJob` as `claim` returns it, so with every field that `claim` fills. -/
structure ProcessingJob where
  id : Uuid
  agreementId : Uuid
  attemptCount : Nat
  organizationId : Uuid
  workspaceId : Uuid
  profile : String
  sourceStorageKey : Option String
  sourceChecksum : Option String
  sourceContentType : Option String
  claimToken : Uuid
  claimLeaseExpiresAt : Time
  deriving DecidableEq, Repr

/-- `artifact_commit.PreparedArtifact`; of the content type only its presence matters, and
the processors give it exactly when they give content. -/
structure PreparedArtifact where
  artifact : CompletedArtifact
  content : Option String
  deriving DecidableEq, Repr

/-- `AgreementDeletion` -/
structure AgreementDeletion where
  id : Uuid
  organizationId : Uuid
  workspaceId : Uuid
  agreementId : Uuid
  attemptCount : Nat
  claimToken : Uuid
  deriving DecidableEq, Repr

/-- `AgreementDeletionObject` -/
structure AgreementDeletionObject where
  id : Nat
  category : ObjectCategory
  objectKey : String
  deriving DecidableEq, Repr

end AgreementIntelligence.Agreements
