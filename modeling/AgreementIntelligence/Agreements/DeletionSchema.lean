import AgreementIntelligence.Agreements.DeletionOutbox
import AgreementIntelligence.Agreements.System

/-! The four tables of a deletion with the constraints that the schema declares on them, and the
calls of both applications as the writes that they make on these tables, one after another. -/

namespace AgreementIntelligence.Agreements
open Identity Lib.Table Lib.Runs

inductive DeletionAuditEventType where
  | requested
  | redriven
  | failed
  | completed
  deriving DecidableEq, Repr

structure AgreementDeletionAuditEventRecord where
  organizationId : Uuid
  workspaceId : Uuid
  agreementId : Uuid
  /-- Events from before deletions were durable have none. -/
  deletionId : Option Uuid
  eventType : DeletionAuditEventType
  retryCycle : Nat
  deriving DecidableEq, Repr

structure AuditedDatabase where
  db : Database
  auditEvents : List AgreementDeletionAuditEventRecord

/-! The constraints -/

/-- The `CHECK` constraints of `agreement_deletion_requests`. -/
structure AgreementDeletionRequestRecord.Checked (row : AgreementDeletionRequestRecord) :
    Prop where
  attempts : 0 ≤ row.attemptCount
  retryCycle : 1 ≤ row.retryCycle
  leasePair : row.claimToken = none ↔ row.leaseExpiresAt = none
  processingLease : row.state = .processing ↔ row.claimToken ≠ none
  completedAt : row.state = .completed ↔ row.completedAt ≠ none
  failedAt : row.state = .failed ↔ row.failedAt ≠ none

/-- The `CHECK` constraints of `agreement_deletion_outbox`. -/
structure AgreementDeletionOutboxRecord.Checked (row : AgreementDeletionOutboxRecord) : Prop where
  attempts : 0 ≤ row.attemptCount
  leasePair : row.leaseToken = none ↔ row.leaseExpiresAt = none
  deliveredUnleased : row.deliveredAt = none ∨ row.leaseToken = none

def AgreementDeletionObjectRecord.listing (row : AgreementDeletionObjectRecord) :
    Uuid × ObjectCategory × String :=
  (row.deletionId, row.category, row.objectKey)

/-- The key of `uq_agreement_deletion_audit_terminal_cycle`; a null is like no other null. -/
def AgreementDeletionAuditEventRecord.cycle? (event : AgreementDeletionAuditEventRecord) :
    Option (Uuid × DeletionAuditEventType × Nat) :=
  event.deletionId.map fun deletionId => (deletionId, event.eventType, event.retryCycle)

/-- The `CHECK` and `UNIQUE` constraints of the four tables. The states and categories that the
schema lists are the constructors of their types. -/
structure RequestsLawful (rows : List AgreementDeletionRequestRecord) : Prop where
  checked : ∀ row ∈ rows, row.Checked
  ids : (rows.map (·.id)).Nodup
  agreements : (rows.map (·.agreementId)).Nodup
  scopes : (rows.map fun row => (row.id, row.scope)).Nodup

def ObjectsLawful (rows : List AgreementDeletionObjectRecord) : Prop :=
  (rows.map (·.listing)).Nodup

structure OutboxLawful (rows : List AgreementDeletionOutboxRecord) : Prop where
  checked : ∀ row ∈ rows, row.Checked
  deletions : (rows.map (·.deletionId)).Nodup

def AuditLawful (rows : List AgreementDeletionAuditEventRecord) : Prop :=
  (rows.filterMap (·.cycle?)).Nodup

structure AuditedDatabase.Lawful (s : AuditedDatabase) : Prop where
  requests : RequestsLawful s.db.deletionRequests
  objects : ObjectsLawful s.db.deletionObjects
  outbox : OutboxLawful s.db.deletionOutbox
  auditEvents : AuditLawful s.auditEvents

/-! Calls as sequences of writes -/

/-- One statement: what it leaves of the table that it writes. -/
inductive Write where
  | requests (rows : List AgreementDeletionRequestRecord)
  | objects (after : Database)
  | outbox (rows : List AgreementDeletionOutboxRecord)
  | auditEvents (rows : List AgreementDeletionAuditEventRecord)
  /-- Statements on the other tables. -/
  | others (db : Database)

def AuditedDatabase.write (s : AuditedDatabase) : Write → AuditedDatabase
  | .requests rows => { s with db := { s.db with deletionRequests := rows } }
  | .objects after => { s with db := { s.db with
      deletionObjects := after.deletionObjects, nextObjectId := after.nextObjectId } }
  | .outbox rows => { s with db := { s.db with deletionOutbox := rows } }
  | .auditEvents rows => { s with auditEvents := rows }
  | .others db => { s with db := { db with
      deletionRequests := s.db.deletionRequests
      deletionObjects := s.db.deletionObjects
      nextObjectId := s.db.nextObjectId
      deletionOutbox := s.db.deletionOutbox } }

/-- The writes of a call in their order, and whether its transaction commits. -/
structure Transaction where
  writes : List Write
  commits : Bool

/-- A call that raises or returns before its first write. -/
def Transaction.idle : Transaction := ⟨[], true⟩

/-- The database after a transaction; one that does not commit leaves nothing. -/
def Transaction.result (t : Transaction) (s : AuditedDatabase) : AuditedDatabase :=
  if t.commits then t.writes.foldl .write s else s

inductive DeletionCall where
  | acceptDeletion (organizationId workspaceId agreementId deletionId : Uuid) (now : Time)
  | redriveDeletion (deletionId : Uuid) (now : Time)
  | claim (deletionId organizationId workspaceId : Uuid) (now : Time) (claimToken : Uuid)
  | markDeleted (deletion : AgreementDeletion) (item : AgreementDeletionObject) (now : Time)
  | deleteSource (storage : List String) (deletion : AgreementDeletion)
      (item : AgreementDeletionObject) (now : Time)
  | retry (deletion : AgreementDeletion) (objectId : Nat) (message : String) (nextRetryAt : Time)
  | fail (deletion : AgreementDeletion) (objectId : Nat) (message : String) (now : Time)
  | retryDatabaseCleanup (deletion : AgreementDeletion) (message : String) (nextRetryAt : Time)
  | failDatabaseCleanup (deletion : AgreementDeletion) (message : String) (now : Time)
  | recoverStaleDeletions (organizationId : Uuid) (now : Time)
  | completeAndPurge (deletion : AgreementDeletion) (now : Time)
  | inventoryLateArtifact (context : ArtifactContext) (key : String) (now : Time)
  | claimDueOutbox (organizationId : Uuid) (now : Time) (token : Uuid)
  | markOutboxDelivered (message : ClaimedDeletionOutbox) (now : Time)
  | releaseOutbox (message : ClaimedDeletionOutbox) (nextAttemptAt : Time)

/-- An audit event of a request. -/
def auditEvent (request : AgreementDeletionRequestRecord) (eventType : DeletionAuditEventType)
    (retryCycle : Nat) : AgreementDeletionAuditEventRecord where
  organizationId := request.organizationId
  workspaceId := request.workspaceId
  agreementId := request.agreementId
  deletionId := some request.id
  eventType := eventType
  retryCycle := retryCycle

/-- `_insert_terminal_audit` -/
def AuditedDatabase.insertTerminalAudit (s : AuditedDatabase)
    (record : AgreementDeletionRequestRecord) (eventType : DeletionAuditEventType) : Write :=
  .auditEvents (s.auditEvents ++ [auditEvent record eventType record.retryCycle])

/-- The writes of `accept_deletion` of the repository. -/
def acceptWrites (s : AuditedDatabase) (agreement : AgreementRecord) (deletionId : Uuid)
    (now : Time) : List Write :=
  let after := insertDeletion s.db agreement deletionId now
  [.requests after.deletionRequests, .objects after,
    .auditEvents (s.auditEvents ++ [{
      organizationId := agreement.organizationId, workspaceId := agreement.workspaceId
      agreementId := agreement.id, deletionId := some deletionId, eventType := .requested
      retryCycle := 1 }]),
    .outbox after.deletionOutbox, .others after]

/-- The writes of `redrive_deletion`. -/
def redriveWrites (s : AuditedDatabase) (request : AgreementDeletionRequestRecord) (now : Time) :
    List Write :=
  if request.state ≠ .failed then [] else
  let after := redriveDeletion s.db request now
  [.requests after.deletionRequests, .outbox after.deletionOutbox,
    .auditEvents (s.auditEvents ++ [auditEvent request .redriven (request.retryCycle + 1)])]

/-- The writes of `_finish_object`, on the database that a source's registration leaves. -/
def finishWrites (after : Database) : List Write :=
  [.others after, .objects after, .requests after.deletionRequests]

/-- The writes of `complete_and_purge` once its checks have passed. -/
def purgeWrites (s : AuditedDatabase) (deletion : AgreementDeletion)
    (record : AgreementDeletionRequestRecord) (now : Time) : Transaction :=
  let purged := purgedRows s.db deletion
  let deletes := [Write.others purged, .objects purged,
    .outbox purged.deletionOutbox]
  match purgeOwnedRows s.db deletion with
  | .error _ => ⟨deletes, false⟩
  | .ok purged => ⟨deletes ++
      [.requests (purged.updateClaimed deletion (completeRequest now)).deletionRequests,
        s.insertTerminalAudit record .completed], true⟩

def transaction (s : AuditedDatabase) : DeletionCall → Transaction
  | .acceptDeletion organizationId workspaceId agreementId deletionId now =>
    match s.db.deletionRequest? agreementId organizationId workspaceId with
    | some request => ⟨redriveWrites s request now, true⟩
    | none =>
      match s.db.agreement? agreementId organizationId workspaceId with
      | none => .idle
      | some agreement =>
        if agreement.deletionRequestedAt.isSome then .idle
        else ⟨acceptWrites s agreement deletionId now, true⟩
  | .redriveDeletion deletionId now =>
    match s.db.deletionRequests.find? fun request => request.id = deletionId with
    | none => .idle
    | some request => ⟨redriveWrites s request now, true⟩
  | .claim deletionId organizationId workspaceId now claimToken =>
    match claimDeletion s.db deletionId organizationId workspaceId now claimToken with
    | (none, _) => .idle
    | (some _, after) => ⟨[.requests after.deletionRequests], true⟩
  | .markDeleted deletion item now =>
    match markDeleted s.db deletion item now with
    | .error _ => .idle
    | .ok after => ⟨finishWrites after, true⟩
  | .deleteSource storage deletion item now =>
    if ¬ s.db.deletionObjects.any fun object => object.id = item.id ∧
        object.deletionId = deletion.id ∧ object.state = .pending then .idle else
    match (deleteSourceIfUnreferenced s.db storage deletion item now).2 with
    | .error _ => .idle
    | .ok after => ⟨finishWrites after, true⟩
  | .retry deletion objectId message nextRetryAt =>
    if (s.db.lockedClaim? deletion).isNone then .idle else
    let after := retryObject s.db deletion objectId message nextRetryAt
    ⟨[.objects after, .requests after.deletionRequests,
      .outbox after.deletionOutbox], true⟩
  | .fail deletion objectId message now =>
    match s.db.lockedClaim? deletion with
    | none => .idle
    | some record =>
      let after := failObject s.db deletion objectId message now
      ⟨[.objects after, .requests after.deletionRequests,
        .outbox after.deletionOutbox, s.insertTerminalAudit record .failed], true⟩
  | .retryDatabaseCleanup deletion message nextRetryAt =>
    if (s.db.lockedClaim? deletion).isNone then .idle else
    let after := retryDatabaseCleanup s.db deletion message nextRetryAt
    ⟨[.requests after.deletionRequests, .outbox after.deletionOutbox], true⟩
  | .failDatabaseCleanup deletion message now =>
    match s.db.lockedClaim? deletion with
    | none => .idle
    | some record =>
      let after := failDatabaseCleanup s.db deletion message now
      ⟨[.requests after.deletionRequests, .outbox after.deletionOutbox,
        s.insertTerminalAudit record .failed], true⟩
  | .recoverStaleDeletions organizationId now =>
    if ¬ s.db.deletionRequests.any fun request => request.Stale organizationId now then .idle else
    let after := recoverStaleDeletions s.db organizationId now
    ⟨[.requests after.deletionRequests, .outbox after.deletionOutbox], true⟩
  | .completeAndPurge deletion now =>
    match s.db.agreement? deletion.agreementId deletion.organizationId deletion.workspaceId,
        s.db.lockedClaim? deletion with
    | some _, some record =>
      if (s.db.deletionObjects.any fun object => object.deletionId = deletion.id ∧
          object.state = .pending) ∨ s.db.intents.any fun intent =>
            unresolvedIntent s.db deletion intent then .idle
      else purgeWrites s deletion record now
    | _, _ => .idle
  | .inventoryLateArtifact context key now =>
    if lateArtifactCategory context.profile key = none then .idle else
    match inventoryLateArtifact s.db context key now with
    | .error _ => .idle
    | .ok after => ⟨[.objects after, .requests after.deletionRequests,
        .outbox after.deletionOutbox], true⟩
  | .claimDueOutbox organizationId now token =>
    match claimDueOutbox s.db organizationId now token with
    | (none, _) => .idle
    | (some _, after) => ⟨[.outbox after.deletionOutbox], true⟩
  | .markOutboxDelivered message now =>
    ⟨[.outbox (markOutboxDelivered s.db message now).deletionOutbox], true⟩
  | .releaseOutbox message nextAttemptAt =>
    ⟨[.outbox (releaseOutbox s.db message nextAttemptAt).deletionOutbox], true⟩

/-- What a call leaves of the database when it is taken as a whole. -/
def callOutcome (db : Database) : DeletionCall → Except Raised Database
  | .acceptDeletion organizationId workspaceId agreementId deletionId now =>
    acceptDeletion db organizationId workspaceId agreementId deletionId now
  | .redriveDeletion deletionId now =>
    .ok (((db.deletionRequests.find? fun request => request.id = deletionId).map fun request =>
      redriveDeletion db request now).getD db)
  | .claim deletionId organizationId workspaceId now claimToken =>
    .ok (claimDeletion db deletionId organizationId workspaceId now claimToken).2
  | .markDeleted deletion item now => markDeleted db deletion item now
  | .deleteSource storage deletion item now =>
    (deleteSourceIfUnreferenced db storage deletion item now).2
  | .retry deletion objectId message nextRetryAt =>
    .ok (retryObject db deletion objectId message nextRetryAt)
  | .fail deletion objectId message now => .ok (failObject db deletion objectId message now)
  | .retryDatabaseCleanup deletion message nextRetryAt =>
    .ok (retryDatabaseCleanup db deletion message nextRetryAt)
  | .failDatabaseCleanup deletion message now =>
    .ok (failDatabaseCleanup db deletion message now)
  | .recoverStaleDeletions organizationId now => .ok (recoverStaleDeletions db organizationId now)
  | .completeAndPurge deletion now => completeAndPurge db deletion now
  | .inventoryLateArtifact context key now => inventoryLateArtifact db context key now
  | .claimDueOutbox organizationId now token => .ok (claimDueOutbox db organizationId now token).2
  | .markOutboxDelivered message now => .ok (markOutboxDelivered db message now)
  | .releaseOutbox message nextAttemptAt => .ok (releaseOutbox db message nextAttemptAt)

def auditedStep (s : AuditedDatabase) (call : DeletionCall) : AuditedDatabase :=
  (transaction s call).result s

theorem redriveWrites_db (s : AuditedDatabase) (request : AgreementDeletionRequestRecord)
    (now : Time) : ((⟨redriveWrites s request now, true⟩ : Transaction).result s).db =
      redriveDeletion s.db request now := by
  by_cases failed : request.state = .failed
  · simp only [redriveWrites, redriveDeletion, failed, ne_eq, not_true_eq_false, if_false]
    rfl
  · simp only [redriveWrites, redriveDeletion, ne_eq, failed, not_false_eq_true, if_true]
    rfl

theorem purgeWrites_db (s : AuditedDatabase) (deletion : AgreementDeletion)
    (record : AgreementDeletionRequestRecord) (now : Time) :
    ((purgeWrites s deletion record now).result s).db = committed s.db
      ((purgeOwnedRows s.db deletion).map fun purged =>
        purged.updateClaimed deletion (completeRequest now)) := by
  unfold purgeWrites purgeOwnedRows
  by_cases tombstone :
      (s.db.agreements.filter fun agreement => agreement.isTombstone deletion).length = 1
  · rw [if_pos tombstone]
    rfl
  · rw [if_neg tombstone]
    rfl

/-- What the removal of a source can do: nothing, or finish its row. -/
theorem deleteSource_ok {db after : Database} {storage : List String}
    {deletion : AgreementDeletion} {item : AgreementDeletionObject} {now : Time}
    (done : (deleteSourceIfUnreferenced db storage deletion item now).2 = .ok after) :
    let pending := db.deletionObjects.any fun object => object.id = item.id ∧
      object.deletionId = deletion.id ∧ object.state = .pending
    (db.lockedClaim? deletion).isSome = true ∧ (¬ pending = true ∧ after = db ∨
      pending = true ∧ ∃ registry state,
        after = finishObject { db with registry := registry } deletion item.id state now) := by
  intro pending
  unfold deleteSourceIfUnreferenced at done
  split at done
  · cases done
  rename_i record claimed
  refine ⟨by rw [claimed]; rfl, ?_⟩
  split at done
  · rename_i finished
    cases done
    exact .inl ⟨finished, rfl⟩
  rename_i waiting
  refine .inr ⟨not_not.mp waiting, ?_⟩
  split at done
  · cases done
    exact ⟨db.registry, .preserved, rfl⟩
  · cases done
    exact ⟨_, .deleted, rfl⟩

/-- The writes of a call make up the call. -/
theorem auditedStep_db (s : AuditedDatabase) (call : DeletionCall) :
    (auditedStep s call).db = committed s.db (callOutcome s.db call) := by
  cases call with
  | acceptDeletion organizationId workspaceId agreementId deletionId now =>
      simp only [auditedStep, transaction, callOutcome, acceptDeletion]
      cases s.db.deletionRequest? agreementId organizationId workspaceId with
      | some request => exact redriveWrites_db s request now
      | none =>
          cases s.db.agreement? agreementId organizationId workspaceId with
          | none => rfl
          | some agreement =>
              by_cases requested : agreement.deletionRequestedAt.isSome = true
              · simp only [requested, if_true]
                rfl
              · simp only [requested]
                rfl
  | redriveDeletion deletionId now =>
      simp only [auditedStep, transaction, callOutcome]
      cases s.db.deletionRequests.find? fun request => request.id = deletionId with
      | none => rfl
      | some request => exact redriveWrites_db s request now
  | claim deletionId organizationId workspaceId now claimToken =>
      simp only [auditedStep, transaction, callOutcome, claimDeletion]
      cases s.db.deletionRequests.find? fun request => request.id = deletionId ∧
          request.organizationId = organizationId ∧ request.workspaceId = workspaceId ∧
          request.Claimable now with
      | none => rfl
      | some request => rfl
  | markDeleted deletion item now =>
      simp only [auditedStep, transaction, callOutcome, markDeleted]
      cases s.db.lockedClaim? deletion with
      | none => rfl
      | some record => rfl
  | deleteSource storage deletion item now =>
      simp only [auditedStep, transaction, callOutcome]
      cases outcome : (deleteSourceIfUnreferenced s.db storage deletion item now).2 with
      | error raised => split <;> rfl
      | ok after =>
          obtain ⟨-, ⟨done, rfl⟩ | ⟨pending, registry, state, rfl⟩⟩ := deleteSource_ok outcome
          · rw [if_pos done]
            rfl
          · rw [if_neg (not_not_intro pending)]
            rfl
  | retry deletion objectId message nextRetryAt =>
      simp only [auditedStep, transaction, callOutcome, retryObject]
      cases s.db.lockedClaim? deletion <;> rfl
  | fail deletion objectId message now =>
      simp only [auditedStep, transaction, callOutcome, failObject]
      cases s.db.lockedClaim? deletion <;> rfl
  | retryDatabaseCleanup deletion message nextRetryAt =>
      simp only [auditedStep, transaction, callOutcome, retryDatabaseCleanup]
      cases s.db.lockedClaim? deletion <;> rfl
  | failDatabaseCleanup deletion message now =>
      simp only [auditedStep, transaction, callOutcome, failDatabaseCleanup]
      cases s.db.lockedClaim? deletion <;> rfl
  | recoverStaleDeletions organizationId now =>
      simp only [auditedStep, transaction, callOutcome]
      split
      · rename_i quiet
        have none_ : (s.db.deletionRequests.filter fun request =>
            request.Stale organizationId now) = [] := by simpa using quiet
        simp [recoverStaleDeletions, none_, Database.scheduleOutbox, Transaction.result,
          Transaction.idle, committed]
      · rfl
  | completeAndPurge deletion now =>
      simp only [auditedStep, transaction, callOutcome, completeAndPurge]
      cases s.db.agreement? deletion.agreementId deletion.organizationId deletion.workspaceId with
      | none => rfl
      | some agreement =>
          cases s.db.lockedClaim? deletion with
          | none => rfl
          | some record =>
              by_cases pending : (s.db.deletionObjects.any fun object =>
                  object.deletionId = deletion.id ∧ object.state = .pending) = true
              · simp only [pending, true_or, if_true]
                rfl
              by_cases unresolved : (s.db.intents.any fun intent =>
                  unresolvedIntent s.db deletion intent) = true
              · simp only [pending, unresolved, or_true, if_true]
                rfl
              simp only [pending, unresolved, or_self]
              exact purgeWrites_db s deletion record now
  | inventoryLateArtifact context key now =>
      simp only [auditedStep, transaction, callOutcome]
      cases outcome : inventoryLateArtifact s.db context key now with
      | error raised => split <;> rfl
      | ok after =>
          obtain ⟨request, -, ⟨unlisted, rfl⟩ | ⟨category, listed, rfl⟩⟩ :=
            inventoryLateArtifact_ok outcome
          · rw [if_pos unlisted]
            rfl
          · rw [if_neg (by rw [listed]; exact Option.some_ne_none category)]
            rfl
  | claimDueOutbox organizationId now token =>
      simp only [auditedStep, transaction, callOutcome, claimDueOutbox]
      cases (dueOutbox s.db organizationId now).head? <;> rfl
  | markOutboxDelivered message now => rfl
  | releaseOutbox message nextAttemptAt => rfl

end AgreementIntelligence.Agreements
