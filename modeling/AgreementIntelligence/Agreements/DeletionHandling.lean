import AgreementIntelligence.Agreements.DeletionOutbox

/-! The way of a deletion from its request to the purge: the sweeper, which recovers stale requests,
leases rows of the outbox, publishes their messages and marks the rows, and `handle` on each
delivery, from the claim over the objects to the purge or to the next attempt. Everybody reads one
clock, some time before the write that uses the reading. The queue delivers at least once, as in
the way of a job: a delivery stands until it is acknowledged, and goes back into the queue when its
handling raises or dies. A statement that skips locked rows may find a row locked at any time. -/

namespace AgreementIntelligence.Agreements
open Identity Lib.Table

/-- `DeletionRetryPolicy` -/
structure DeletionRetryPolicy where
  maxAttempts : Nat := 5
  baseDelaySeconds : Nat := 2
  maxDelaySeconds : Nat := 300

def DeletionRetryPolicy.mayRetry (policy : DeletionRetryPolicy) (attemptCount : Nat) : Bool :=
  attemptCount < policy.maxAttempts

def DeletionRetryPolicy.delaySeconds (policy : DeletionRetryPolicy) (attemptCount : Nat) : Nat :=
  min (policy.baseDelaySeconds * 2 ^ (attemptCount - 1)) policy.maxDelaySeconds

/-! Statements that leave out the rows that others have locked -/

/-- `recover_stale_deletions`, but for the requests that are locked. -/
def recoverUnlockedDeletions (db : Database) (organizationId : Uuid) (locked : List Uuid)
    (now : Time) : Database :=
  let staleIds := (db.deletionRequests.filter fun request =>
    request.Stale organizationId now ∧ request.id ∉ locked).map (·.id)
  let recovered : Database := { db with
    deletionRequests := db.deletionRequests.map fun request =>
      if request.id ∈ staleIds then
        { request with
          state := .retrying, claimToken := none, leaseExpiresAt := none, nextAttemptAt := now
          failureCategory := some "database_cleanup"
          failureMessage := some "Expired deletion lease recovered" }
      else request }
  recovered.scheduleOutbox staleIds now "Expired deletion lease recovered"

theorem recoverUnlockedDeletions_nil (db : Database) (organizationId : Uuid) (now : Time) :
    recoverUnlockedDeletions db organizationId [] now =
      recoverStaleDeletions db organizationId now := by
  simp only [recoverUnlockedDeletions, recoverStaleDeletions, List.not_mem_nil, not_false_eq_true,
    and_true]

/-- `claim_due_outbox`, but for the rows that are locked. -/
def claimUnlockedOutbox (db : Database) (organizationId : Uuid) (locked : List Uuid) (now : Time)
    (token : Uuid) : Option ClaimedDeletionOutbox × Database :=
  match (dueOutbox db organizationId now).find? fun due => due.1.deletionId ∉ locked with
  | none => (none, db)
  | some (row, request) => (some {
      deletionId := row.deletionId, agreementId := row.agreementId
      organizationId := request.organizationId, workspaceId := request.workspaceId
      leaseToken := token, attemptCount := row.attemptCount + 1 },
    { db with
      deletionOutbox := update (·.deletionId) db.deletionOutbox row.deletionId fun row => { row with
        leaseToken := some token, leaseExpiresAt := some (now + deletionLease)
        attemptCount := row.attemptCount + 1 } })

theorem claimUnlockedOutbox_nil (db : Database) (organizationId : Uuid) (now : Time)
    (token : Uuid) : claimUnlockedOutbox db organizationId [] now token =
      claimDueOutbox db organizationId now token := by
  have first : ((dueOutbox db organizationId now).find? fun due => due.1.deletionId ∉ []) =
      (dueOutbox db organizationId now).head? := by
    cases dueOutbox db organizationId now <;> simp
  rw [claimUnlockedOutbox, first]
  rfl

/-! Deliveries and sweeps -/

/-- How far `handle` has come on a delivery. -/
inductive DeletionStage where
  | waiting
  | received
  /-- `claim` has read the clock, and executes its statement next. -/
  | clocked (now : Time)
  | claimed (deletion : AgreementDeletion)
  /-- The loop over the pending objects, with those that are left. -/
  | cleaning (deletion : AgreementDeletion) (rest : List AgreementDeletionObject)
  /-- An object is removed from storage and is marked next. -/
  | removed (deletion : AgreementDeletion) (item : AgreementDeletionObject)
      (rest : List AgreementDeletionObject)
  | objectFailed (deletion : AgreementDeletion) (item : AgreementDeletionObject)
  | purgeFailed (deletion : AgreementDeletion)
  | returned
  deriving DecidableEq, Repr

/-- A delivery of a deletion that has not been acknowledged. -/
structure DeletionDelivery where
  deletionId : Uuid
  organizationId : Uuid
  workspaceId : Uuid
  stage : DeletionStage
  deriving DecidableEq, Repr

/-- A row that a sweeper has leased, and whether its message is in the queue. -/
structure Sweep where
  message : ClaimedDeletionOutbox
  published : Bool
  deriving DecidableEq, Repr

structure DeletionWorld where
  db : Database
  storage : List String
  clock : Time
  sweeps : List Sweep
  deliveries : List DeletionDelivery

/-- What comes of the removal of an object from storage. -/
inductive Removal where
  | done
  | fails
  /-- The object is removed, and the worker dies. -/
  | dies
  deriving DecidableEq, Repr

inductive DeletionEvent where
  | tick (seconds : Nat)
  | acceptDeletion (organizationId workspaceId agreementId deletionId : Uuid) (now : Time)
  /-- A worker of the agreement's jobs finds that it is being deleted. -/
  | lateArtifact (context : ArtifactContext) (key : String) (now : Time)
  | recover (organizationId : Uuid) (locked : List Uuid) (now : Time)
  | claimDue (organizationId : Uuid) (locked : List Uuid) (now : Time) (token : Uuid)
  | publish (sweep : Sweep)
  | markDelivered (sweep : Sweep) (now : Time)
  /-- `enqueue_deletion` has raised. -/
  | release (sweep : Sweep) (now : Time)
  | redeliver (deletionId organizationId workspaceId : Uuid)
  | receive (delivery : DeletionDelivery)
  | readClock (delivery : DeletionDelivery)
  | claim (delivery : DeletionDelivery) (claimToken : Uuid)
  /-- The claim finds the row of the request locked. -/
  | skip (delivery : DeletionDelivery)
  | listObjects (delivery : DeletionDelivery)
  | removeObject (delivery : DeletionDelivery) (removal : Removal) (now : Time)
  | markObject (delivery : DeletionDelivery) (now : Time)
  /-- `raises` when the database does. -/
  | purge (delivery : DeletionDelivery) (raises : Bool) (now : Time)
  /-- The next attempt is scheduled, or the deletion given up. -/
  | settle (delivery : DeletionDelivery) (now : Time)
  | acknowledge (delivery : DeletionDelivery)
  | stop (delivery : DeletionDelivery)

namespace DeletionWorld

/-- The handling of a delivery comes to a stage. -/
def proceed (w : DeletionWorld) (delivery : DeletionDelivery) (stage : DeletionStage)
    (db : Database) : DeletionWorld :=
  { w with db, deliveries := w.deliveries.erase delivery ++ [{ delivery with stage }] }

/-- The branch of a source object: what is raised but for a failed removal leaves the delivery to
the queue. -/
def removeSource (w : DeletionWorld) (delivery : DeletionDelivery) (deletion : AgreementDeletion)
    (item : AgreementDeletionObject) (rest : List AgreementDeletionObject) (removal : Removal)
    (now : Time) : DeletionWorld :=
  let (storage, outcome) := deleteSourceIfUnreferenced w.db w.storage deletion item now
  let touches := (w.db.lockedClaim? deletion).isSome ∧
    (w.db.deletionObjects.any fun object =>
      object.id = item.id ∧ object.deletionId = deletion.id ∧ object.state = .pending) ∧
    ¬ sourceIsShared w.db deletion item.objectKey
  match outcome with
  | .error _ => w.proceed delivery .waiting w.db
  | .ok db =>
    if touches ∧ removal = .fails then w.proceed delivery (.objectFailed deletion item) w.db
    else if removal = .dies then { w.proceed delivery .waiting w.db with storage }
    else { w.proceed delivery (.cleaning deletion rest) db with storage }

/-- One round of the loop over the objects, up to the mark of an object that is no source. -/
def removeObject (w : DeletionWorld) (delivery : DeletionDelivery) (deletion : AgreementDeletion)
    (item : AgreementDeletionObject) (rest : List AgreementDeletionObject) (removal : Removal)
    (now : Time) : DeletionWorld :=
  if ¬ validateOwnedKey deletion.organizationId deletion.workspaceId deletion.agreementId
      item.category item.objectKey then
    w.proceed delivery (.objectFailed deletion item) w.db
  else if item.category = .source then w.removeSource delivery deletion item rest removal now
  else match removal with
    | .fails => w.proceed delivery (.objectFailed deletion item) w.db
    | .dies => { w.proceed delivery .waiting w.db with
        storage := w.storage.filter (· ≠ item.objectKey) }
    | .done => { w.proceed delivery (.removed deletion item rest) w.db with
        storage := w.storage.filter (· ≠ item.objectKey) }

/-- What `handle` does about an object that could not be removed. -/
def settleObject (policy : DeletionRetryPolicy) (db : Database) (deletion : AgreementDeletion)
    (item : AgreementDeletionObject) (now : Time) : Database :=
  let message := "Agreement object cleanup failed"
  if ¬ policy.mayRetry deletion.attemptCount then failObject db deletion item.id message now
  else retryObject db deletion item.id message (now + policy.delaySeconds deletion.attemptCount)

/-- What `handle` does about a purge that has raised. -/
def settlePurge (policy : DeletionRetryPolicy) (db : Database) (deletion : AgreementDeletion)
    (now : Time) : Database :=
  let message := "Agreement database cleanup failed"
  if ¬ policy.mayRetry deletion.attemptCount then failDatabaseCleanup db deletion message now
  else retryDatabaseCleanup db deletion message
    (now + policy.delaySeconds deletion.attemptCount)

/-- The steps of `handle` on a delivery. -/
def handle (policy : DeletionRetryPolicy) (w : DeletionWorld) (delivery : DeletionDelivery) :
    DeletionStage → DeletionEvent → DeletionWorld
  | .waiting, .receive _ => w.proceed delivery .received w.db
  | .received, .readClock _ => w.proceed delivery (.clocked w.clock) w.db
  | .clocked now, .claim _ claimToken =>
    match claimDeletion w.db delivery.deletionId delivery.organizationId delivery.workspaceId now
        claimToken with
    | (none, db) => w.proceed delivery .returned db
    | (some deletion, db) => w.proceed delivery (.claimed deletion) db
  | .clocked _, .skip _ => w.proceed delivery .returned w.db
  | .claimed deletion, .listObjects _ =>
    w.proceed delivery (.cleaning deletion (pendingObjects w.db deletion)) w.db
  | .cleaning deletion (item :: rest), .removeObject _ removal now =>
    w.removeObject delivery deletion item rest removal now
  | .removed deletion item rest, .markObject _ now =>
    match markDeleted w.db deletion item now with
    | .error _ => w.proceed delivery .waiting w.db
    | .ok db => w.proceed delivery (.cleaning deletion rest) db
  | .cleaning deletion [], .purge _ raises now =>
    if raises then w.proceed delivery (.purgeFailed deletion) w.db
    else match completeAndPurge w.db deletion now with
      | .error _ => w.proceed delivery (.purgeFailed deletion) w.db
      | .ok db => w.proceed delivery .returned db
  | .objectFailed deletion item, .settle _ now =>
    w.proceed delivery .returned (settleObject policy w.db deletion item now)
  | .purgeFailed deletion, .settle _ now =>
    w.proceed delivery .returned (settlePurge policy w.db deletion now)
  | .returned, .acknowledge _ => { w with deliveries := w.deliveries.erase delivery }
  | _, .stop _ => w.proceed delivery .waiting w.db
  | _, _ => w

/-- The message of a row in the queue. -/
def messageOf (message : ClaimedDeletionOutbox) : DeletionDelivery :=
  ⟨message.deletionId, message.organizationId, message.workspaceId, .waiting⟩

/-- The steps of everybody else. -/
def serve (policy : DeletionRetryPolicy) (w : DeletionWorld) : DeletionEvent → DeletionWorld
  | .tick seconds => { w with clock := w.clock + seconds }
  | .acceptDeletion organizationId workspaceId agreementId deletionId now =>
    -- a key that is taken is refused
    if w.db.deletionRequests.any fun request => request.id = deletionId then w
    else match acceptDeletion w.db organizationId workspaceId agreementId deletionId now with
      | .error _ => w
      | .ok db => { w with db }
  | .lateArtifact context key now =>
    match inventoryLateArtifact w.db context key now with
    | .error _ => w
    | .ok db => { w with db }
  | .recover organizationId locked now =>
    { w with db := recoverUnlockedDeletions w.db organizationId locked now }
  | .claimDue organizationId locked now token =>
    -- a uuid4 is drawn once
    if w.sweeps.any fun sweep => sweep.message.leaseToken = token then w
    else match claimUnlockedOutbox w.db organizationId locked now token with
      | (none, _) => w
      | (some message, db) => { w with db, sweeps := w.sweeps ++ [⟨message, false⟩] }
  | .publish sweep =>
    if sweep ∈ w.sweeps ∧ ¬ sweep.published then
      { w with
        sweeps := w.sweeps.erase sweep ++ [⟨sweep.message, true⟩]
        deliveries := w.deliveries ++ [messageOf sweep.message] }
    else w
  | .markDelivered sweep now =>
    if sweep ∈ w.sweeps ∧ sweep.published then
      { w with db := markOutboxDelivered w.db sweep.message now }
    else w
  | .release sweep now =>
    if sweep ∈ w.sweeps ∧ ¬ sweep.published then
      let nextAttemptAt := now + policy.delaySeconds sweep.message.attemptCount
      { w with db := releaseOutbox w.db sweep.message nextAttemptAt }
    else w
  | .redeliver deletionId organizationId workspaceId =>
    { w with deliveries := w.deliveries ++ [⟨deletionId, organizationId, workspaceId, .waiting⟩] }
  | _ => w

end DeletionWorld

/-- The delivery that an event is about. -/
def DeletionEvent.delivery? : DeletionEvent → Option DeletionDelivery
  | .receive delivery | .readClock delivery | .claim delivery _ | .skip delivery
  | .listObjects delivery | .removeObject delivery .. | .markObject delivery _
  | .purge delivery .. | .settle delivery _ | .acknowledge delivery | .stop delivery =>
    some delivery
  | _ => none

/-- The reading of the clock that an event uses. -/
def DeletionEvent.now? : DeletionEvent → Option Time
  | .acceptDeletion _ _ _ _ now | .lateArtifact _ _ now | .recover _ _ now
  | .claimDue _ _ now _ | .markDelivered _ now | .release _ now | .removeObject _ _ now
  | .markObject _ now | .purge _ _ now | .settle _ now => some now
  | _ => none

def deletionStep (policy : DeletionRetryPolicy) (w : DeletionWorld) (event : DeletionEvent) :
    DeletionWorld :=
  if event.now?.any (w.clock < ·) then w
  else match event.delivery? with
    | some delivery =>
      if delivery ∈ w.deliveries then w.handle policy delivery delivery.stage event else w
    | none => w.serve policy event

end AgreementIntelligence.Agreements
