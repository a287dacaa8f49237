import AgreementIntelligence.Agreements.Attempts
import AgreementIntelligence.Agreements.Submissions

/-! The way of a job from the API to the workers: the transactions that queue it, each with
a row of the processing outbox; the dispatcher, which publishes rows and then marks them
delivered; the queue; and `handle`, with the loop around it that acknowledges a delivery
when `handle` has returned. The queue delivers at least once. Each delivery stands for
itself until it is acknowledged: it is handled by one worker at a time, it is received again
when its handling has raised or died, and the queue may deliver the same message once more
at any time, as another delivery. Deliveries that are alike are interchangeable. -/

namespace AgreementIntelligence.Agreements
open Identity

/-- How far the handling of a delivery has come. -/
inductive HandlingStage where
  /-- In the queue, or back in it after its handling has raised or died. -/
  | waiting
  | received
  | claimed (job : ProcessingJob)
  /-- The job is queued again and its retry is about to be enqueued. -/
  | requeued (job : ProcessingJob)
  /-- `handle` has returned, the acknowledgement comes next. -/
  | returned
  deriving DecidableEq, Repr

/-- A delivery that has not been acknowledged. -/
structure Delivery where
  jobId : Uuid
  organizationId : Uuid
  workspaceId : Uuid
  stage : HandlingStage
  deriving DecidableEq, Repr

/-- `published` holds the places of the outbox rows that a dispatcher has published, and
`lookedUp` the jobs that a `requeue` through the API has found queued. -/
structure QueueWorld where
  db : Database
  storage : List String
  outbox : List ProcessingOutboxRecord
  published : List Nat
  lookedUp : List ProcessingJobRecord
  queue : List Delivery

inductive QueueEvent where
  | submit (organizationId workspaceId agreementId : Uuid) (versionId : Option Uuid)
      (idempotencyKey profile : String) (now : Time) (jobId : Uuid)
  | submitComparison (organizationId workspaceId agreementId : Uuid)
      (baselineId targetId : Option Uuid) (idempotencyKey analysisVersion : String) (now : Time)
      (comparisonId jobId : Uuid)
  | enqueueEmbeddingReindexJob (organizationId workspaceId agreementId : Uuid)
      (configurationId buildId : Uuid) (sourceChecksum : String) (now : Time) (jobId : Uuid)
  | retry (organizationId workspaceId agreementId jobId : Uuid) (now : Time)
  /-- `requeue` reads the job without a lock, and inserts its row later. -/
  | lookUp (organizationId workspaceId agreementId jobId : Uuid)
  | requeue (job : ProcessingJobRecord)
  | acceptDeletion (organizationId workspaceId agreementId deletionId : Uuid) (now : Time)
  /-- A dispatcher publishes a row it has read as pending, maybe a while ago. -/
  | publish (place : Nat)
  | markDelivered (place : Nat) (now : Time)
  | redeliver (jobId organizationId workspaceId : Uuid)
  | receive (delivery : Delivery)
  | claim (delivery : Delivery) (now : Time) (claimToken : Uuid)
  | expect (delivery : Delivery) (artifact : CompletedArtifact) (now : Time)
  | commitPrepared (delivery : Delivery) (artifact : CompletedArtifact) (content : String)
      (verdict : Except Raised Unit) (now : Time)
  | transientFailure (delivery : Delivery) (expected : Option CompletedArtifact)
      (message : String) (now : Time)
  | permanentFailure (delivery : Delivery) (expected : Option CompletedArtifact)
      (category message : String) (now : Time)
  | enqueue (delivery : Delivery)
  | acknowledge (delivery : Delivery)
  /-- The handling of the delivery raises, or its worker dies. -/
  | stop (delivery : Delivery)

/-- The outbox with the row of a job, if there is one to wake. -/
def wake (outbox : List ProcessingOutboxRecord) : Option ProcessingJobRecord →
    List ProcessingOutboxRecord
  | none => outbox
  | some job => outbox ++ [outboxRow job]

/-- The handling of a delivery comes to a stage, over a database. -/
def QueueWorld.proceed (w : QueueWorld) (delivery : Delivery) (stage : HandlingStage)
    (db : Database) : QueueWorld :=
  { w with db := db, queue := w.queue.erase delivery ++ [{ delivery with stage := stage }] }

/-- The end of an attempt that has failed: `fail` and return, or `requeue` and enqueue if it
answers `True`. What raises leaves the delivery to the queue. -/
def QueueWorld.settle (w : QueueWorld) (delivery : Delivery) : WorkerCall → QueueWorld
  | .fail job expected category message now =>
    match fail w.db job category message expected now with
    | .error _ => w.proceed delivery .waiting w.db
    | .ok db => w.proceed delivery .returned db
  | .requeue job expected category message nextRetryAt now =>
    match requeue w.db job category message nextRetryAt expected now with
    | .error _ => w.proceed delivery .waiting w.db
    | .ok (false, db) => w.proceed delivery .returned db
    | .ok (true, db) => w.proceed delivery (.requeued job) db
  | _ => w

/-- `commit_prepared` and what `handle` does with its outcome: a lost lease is raised again,
any other error goes on to the failure handling. -/
def QueueWorld.commit (w : QueueWorld) (delivery : Delivery) (job : ProcessingJob)
    (artifact : CompletedArtifact) (content : String) (verdict : Except Raised Unit)
    (now : Time) : QueueWorld :=
  let (storage, outcome) :=
    commitPrepared w.db w.storage job (prepare job artifact content) verdict now
  match outcome with
  | .error (.processingLeaseHeld _) =>
    { w.proceed delivery .waiting w.db with storage := storage }
  | .error _ => { w.proceed delivery (.claimed job) w.db with storage := storage }
  | .ok (_, db) => { w.proceed delivery .returned db with storage := storage }

/-- The steps of `handle` on a delivery. -/
def handleDelivery (policy : RetryPolicy) (w : QueueWorld) (delivery : Delivery) :
    HandlingStage → QueueEvent → QueueWorld
  | .waiting, .receive _ => w.proceed delivery .received w.db
  | .received, .claim _ now claimToken =>
    match claim w.db delivery.jobId delivery.organizationId delivery.workspaceId now
        claimToken with
    | .error _ => w.proceed delivery .waiting w.db
    | .ok (none, db) => w.proceed delivery .returned db
    | .ok (some job, db) => w.proceed delivery (.claimed job) db
  | .claimed job, .expect _ artifact now =>
    match expect w.db job artifact now with
    | .error _ => w.proceed delivery (.claimed job) w.db
    | .ok (false, db) => w.proceed delivery .returned db
    | .ok (true, db) => w.proceed delivery (.claimed job) db
  | .claimed job, .commitPrepared _ artifact content verdict now =>
    w.commit delivery job artifact content verdict now
  | .claimed job, .transientFailure _ expected message now =>
    match handleTransientFailure policy job expected message now with
    | none => w.proceed delivery .waiting w.db
    | some call => w.settle delivery call
  | .claimed job, .permanentFailure _ expected category message now =>
    w.settle delivery (.fail job expected category message now)
  | .requeued job, .enqueue _ =>
    let w := w.proceed delivery .returned w.db
    { w with queue :=
        w.queue ++ [⟨job.id, job.organizationId, job.workspaceId, .waiting⟩] }
  | .returned, .acknowledge _ => { w with queue := w.queue.erase delivery }
  | _, .stop _ => w.proceed delivery .waiting w.db
  | _, _ => w

/-- The delivery that an event is about. -/
def QueueEvent.delivery? : QueueEvent → Option Delivery
  | .receive delivery => some delivery
  | .claim delivery .. => some delivery
  | .expect delivery .. => some delivery
  | .commitPrepared delivery .. => some delivery
  | .transientFailure delivery .. => some delivery
  | .permanentFailure delivery .. => some delivery
  | .enqueue delivery => some delivery
  | .acknowledge delivery => some delivery
  | .stop delivery => some delivery
  | _ => none

/-- The steps of the API, of the dispatcher and of the queue itself. -/
def apiStep (w : QueueWorld) : QueueEvent → QueueWorld
  | .submit organizationId workspaceId agreementId versionId idempotencyKey profile now jobId =>
    match submit w.db organizationId workspaceId agreementId versionId idempotencyKey profile now
        jobId with
    | .error _ => w
    | .ok submission => { w with
        db := submission.db
        outbox := wake w.outbox (if submission.created then some submission.job else none) }
  | .submitComparison organizationId workspaceId agreementId baselineId targetId idempotencyKey
      analysisVersion now comparisonId jobId =>
    match submitComparison w.db organizationId workspaceId agreementId baselineId targetId
        idempotencyKey analysisVersion now comparisonId jobId with
    | .error _ => w
    | .ok (queued, db) => { w with db := db, outbox := wake w.outbox queued }
  | .enqueueEmbeddingReindexJob organizationId workspaceId agreementId configurationId buildId
      sourceChecksum now jobId =>
    match enqueueEmbeddingReindexJob w.db organizationId workspaceId agreementId configurationId
        buildId sourceChecksum now jobId with
    | .error _ => w
    | .ok (queued, db) => { w with db := db, outbox := wake w.outbox queued }
  | .retry organizationId workspaceId agreementId jobId now =>
    match retryJob w.db organizationId workspaceId agreementId jobId now with
    | .error _ => w
    | .ok db => { w with db := db, outbox := wake w.outbox (db.job? jobId) }
  | .lookUp organizationId workspaceId agreementId jobId =>
    match requeueableJob w.db organizationId workspaceId agreementId jobId with
    | .error _ => w
    | .ok job => { w with lookedUp := w.lookedUp ++ [job] }
  | .requeue job =>
    if job ∈ w.lookedUp then { w with outbox := wake w.outbox (some job) } else w
  | .acceptDeletion organizationId workspaceId agreementId deletionId now =>
    match acceptDeletion w.db organizationId workspaceId agreementId deletionId now with
    | .error _ => w
    | .ok db => { w with db := db }
  | .publish place =>
    match w.outbox[place]? with
    | none => w
    | some row => { w with
        published := w.published ++ [place]
        queue := w.queue ++ [⟨row.jobId, row.organizationId, row.workspaceId, .waiting⟩] }
  | .markDelivered place now =>
    if place ∈ w.published then
      { w with outbox := w.outbox.modify place fun row => { row with deliveredAt := some now } }
    else w
  | .redeliver jobId organizationId workspaceId =>
    { w with queue := w.queue ++ [⟨jobId, organizationId, workspaceId, .waiting⟩] }
  | _ => w

def queueStep (policy : RetryPolicy) (w : QueueWorld) (event : QueueEvent) : QueueWorld :=
  match event.delivery? with
  | some delivery =>
    if delivery ∈ w.queue then handleDelivery policy w delivery delivery.stage event else w
  | none => apiStep w event

/-- Nothing has been submitted yet. -/
structure QueueWorld.Initial (w : QueueWorld) : Prop where
  jobs : w.db.jobs = []
  outbox : w.outbox = []
  published : w.published = []
  queue : w.queue = []

/-! Jobs that somebody has to come for -/

def ProcessingJobRecord.Unfinished (job : ProcessingJobRecord) : Prop :=
  job.state = .queued ∨ job.state = .processing

/-- The agreement of the job is there and not deletion-requested. -/
def Database.IsActive (db : Database) (context : ArtifactContext) : Prop :=
  ∃ agreement, db.Active context agreement

def ProcessingOutboxRecord.Names (row : ProcessingOutboxRecord) (job : ProcessingJobRecord) :
    Prop :=
  row.jobId = job.id ∧ row.organizationId = job.organizationId ∧
    row.workspaceId = job.workspaceId

def Delivery.Names (delivery : Delivery) (job : ProcessingJobRecord) : Prop :=
  delivery.jobId = job.id ∧ delivery.organizationId = job.organizationId ∧
    delivery.workspaceId = job.workspaceId

/-- Every unfinished job of an active agreement has an undelivered outbox row, or a delivery
that has not been acknowledged. -/
def QueueWorld.LosesNoJob (w : QueueWorld) : Prop :=
  ∀ job ∈ w.db.jobs, job.Unfinished → w.db.IsActive job.context →
    (∃ row ∈ w.outbox, row.Names job ∧ row.deliveredAt = none) ∨
      ∃ delivery ∈ w.queue, delivery.Names job

end AgreementIntelligence.Agreements
