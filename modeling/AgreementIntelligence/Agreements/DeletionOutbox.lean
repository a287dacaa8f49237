import AgreementIntelligence.Agreements.DeletionCalls

/-! The outbox of deletions as the sweeper of the worker uses it. A row is known by its deletion;
the sweeper leases a row, publishes the message and marks the row, or gives it back. -/

namespace AgreementIntelligence.Agreements
open Identity Lib.Table

structure ClaimedDeletionOutbox where
  deletionId : Uuid
  agreementId : Uuid
  organizationId : Uuid
  workspaceId : Uuid
  leaseToken : Uuid
  attemptCount : Nat
  deriving DecidableEq, Repr

/-- The sweeper may take a row: undelivered, due and not under a lease. -/
def AgreementDeletionOutboxRecord.Due (row : AgreementDeletionOutboxRecord) (now : Time) : Prop :=
  row.deliveredAt = none ∧ row.nextAttemptAt ≤ now ∧
    (row.leaseToken = none ∨ row.leaseExpiresAt.any (· ≤ now))

instance (row : AgreementDeletionOutboxRecord) (now : Time) : Decidable (row.Due now) :=
  inferInstanceAs (Decidable (_ ∧ _))

/-- The request of a row, if it waits for a delivery. -/
def Database.waitingRequest? (db : Database) (organizationId : Uuid)
    (row : AgreementDeletionOutboxRecord) : Option AgreementDeletionRequestRecord :=
  db.deletionRequests.find? fun request => request.id = row.deletionId ∧
    request.organizationId = organizationId ∧
    (request.state = .accepted ∨ request.state = .retrying)

/-- The rows that the sweeper may take, the earliest first. -/
def dueOutbox (db : Database) (organizationId : Uuid) (now : Time) :
    List (AgreementDeletionOutboxRecord × AgreementDeletionRequestRecord) :=
  ((db.deletionOutbox.filter fun row => row.Due now).mergeSort
    fun a b => a.nextAttemptAt ≤ b.nextAttemptAt).filterMap fun row =>
      (db.waitingRequest? organizationId row).map fun request => (row, request)

/-- `claim_due_outbox` -/
def claimDueOutbox (db : Database) (organizationId : Uuid) (now : Time) (token : Uuid) :
    Option ClaimedDeletionOutbox × Database :=
  match (dueOutbox db organizationId now).head? with
  | none => (none, db)
  | some (row, request) => (some {
      deletionId := row.deletionId, agreementId := row.agreementId
      organizationId := request.organizationId, workspaceId := request.workspaceId
      leaseToken := token, attemptCount := row.attemptCount + 1 },
    { db with
      deletionOutbox := update (·.deletionId) db.deletionOutbox row.deletionId fun row => { row with
        leaseToken := some token, leaseExpiresAt := some (now + deletionLease)
        attemptCount := row.attemptCount + 1 } })

/-- `UPDATE agreement_deletion_outbox … WHERE id = … AND lease_token = … AND delivered_at IS NULL` -/
def Database.updateLeased (db : Database) (message : ClaimedDeletionOutbox)
    (change : AgreementDeletionOutboxRecord → AgreementDeletionOutboxRecord) : Database :=
  { db with
    deletionOutbox := db.deletionOutbox.map fun row =>
      if row.deletionId = message.deletionId ∧ row.leaseToken = some message.leaseToken ∧
          row.deliveredAt = none then change row
      else row }

/-- `mark_outbox_delivered` -/
def markOutboxDelivered (db : Database) (message : ClaimedDeletionOutbox) (now : Time) : Database :=
  db.updateLeased message fun row => { row with
    deliveredAt := some now, leaseToken := none, leaseExpiresAt := none, lastError := none }

/-- `release_outbox` -/
def releaseOutbox (db : Database) (message : ClaimedDeletionOutbox) (nextAttemptAt : Time) :
    Database :=
  db.updateLeased message fun row => { row with
    leaseToken := none, leaseExpiresAt := none, nextAttemptAt := nextAttemptAt
    lastError := some "Agreement deletion outbox delivery failed" }

theorem claimDueOutbox_some {db after : Database} {organizationId token : Uuid} {now : Time}
    {message : ClaimedDeletionOutbox}
    (taken : claimDueOutbox db organizationId now token = (some message, after)) :
    ∃ row ∈ db.deletionOutbox, row.Due now ∧ row.deletionId = message.deletionId ∧
      message.leaseToken = token ∧
      (∃ request ∈ db.deletionRequests, request.id = row.deletionId ∧
        request.organizationId = organizationId ∧
        (request.state = .accepted ∨ request.state = .retrying)) ∧
      after.deletionRequests = db.deletionRequests ∧
      after.deletionOutbox = update (·.deletionId) db.deletionOutbox row.deletionId fun row =>
        { row with
          leaseToken := some token, leaseExpiresAt := some (now + deletionLease)
          attemptCount := row.attemptCount + 1 } := by
  unfold claimDueOutbox at taken
  split at taken
  · cases taken
  · rename_i row request first
    obtain ⟨rfl, rfl⟩ := Prod.mk.inj taken |>.imp Option.some.inj id
    have listed := List.mem_of_mem_head? first
    obtain ⟨due, sorted, joined⟩ := List.mem_filterMap.mp listed
    obtain ⟨found, waiting, same⟩ := Option.map_eq_some_iff.mp joined
    cases same
    have member := List.mem_filter.mp (List.mem_mergeSort.mp sorted)
    have facts := List.find?_some waiting
    simp only [decide_eq_true_eq] at facts member
    exact ⟨row, member.1, member.2, rfl, rfl, ⟨request, List.mem_of_find?_eq_some waiting, facts⟩,
      rfl, rfl⟩

end AgreementIntelligence.Agreements
