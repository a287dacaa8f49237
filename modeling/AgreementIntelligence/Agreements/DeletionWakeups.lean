import AgreementIntelligence.Agreements.DeletionHandling

/-! Who comes for a deletion that waits: its outbox row, as long as nobody has published a message
under the row's lease, or a delivery that will claim the request when it gets there. A row that is
delivered or leased belongs to a request that is due by the clock, so a delivery that reads the
clock from then on finds the request claimable. -/

namespace AgreementIntelligence.Agreements
open Identity Lib.Table

/-- The request waits for a claim. -/
def AgreementDeletionRequestRecord.Waiting (request : AgreementDeletionRequestRecord) : Prop :=
  request.state = .accepted ∨ request.state = .retrying

instance (request : AgreementDeletionRequestRecord) : Decidable request.Waiting :=
  inferInstanceAs (Decidable (_ ∨ _))

/-- The rows of deletions, apart from who comes for them. -/
structure Database.Scheduled (db : Database) : Prop where
  requestIds : (db.deletionRequests.map (·.id)).Nodup
  outboxIds : (db.deletionOutbox.map (·.deletionId)).Nodup
  ofRequest : ∀ row ∈ db.deletionOutbox, ∃ request ∈ db.deletionRequests,
    request.id = row.deletionId
  rows : ∀ request ∈ db.deletionRequests, request.state ≠ .completed →
    ∃ row ∈ db.deletionOutbox, row.deletionId = request.id
  leases : ∀ request ∈ db.deletionRequests, request.state = .processing →
    request.leaseExpiresAt.isSome

/-- The row is due again, under no lease. -/
def AgreementDeletionOutboxRecord.Reset (row : AgreementDeletionOutboxRecord)
    (request : AgreementDeletionRequestRecord) : Prop :=
  row.deliveredAt = none ∧ row.leaseToken = none ∧ request.nextAttemptAt ≤ row.nextAttemptAt

/-- A request that goes on waiting as it was. -/
structure AgreementDeletionRequestRecord.WaitsOn (old new : AgreementDeletionRequestRecord) :
    Prop where
  waiting : old.Waiting
  id : old.id = new.id
  organizationId : old.organizationId = new.organizationId
  workspaceId : old.workspaceId = new.workspaceId
  nextAttemptAt : old.nextAttemptAt = new.nextAttemptAt

/-- A write to the tables of deletions resets the outbox row of each request that it makes wait,
or leaves both as they are. -/
structure Reschedules (before after : Database) : Prop where
  scheduled : after.Scheduled
  kept : ∀ request ∈ before.deletionRequests, ∃ row ∈ after.deletionRequests,
    row.id = request.id ∧ row.organizationId = request.organizationId ∧
      row.workspaceId = request.workspaceId
  waiting : ∀ request ∈ after.deletionRequests, request.Waiting →
    ∀ row ∈ after.deletionOutbox, row.deletionId = request.id →
      (∃ old ∈ before.deletionRequests, old.WaitsOn request ∧ row ∈ before.deletionOutbox) ∨
        row.Reset request
  leased : ∀ row ∈ after.deletionOutbox, row.leaseToken.isSome →
    ∃ old ∈ before.deletionOutbox, old.deletionId = row.deletionId ∧
      old.leaseToken = row.leaseToken ∧ old.leaseExpiresAt = row.leaseExpiresAt

section Rules

variable {db after : Database}

/-- Nothing is written to these tables. -/
theorem Reschedules.of_same (scheduled : db.Scheduled)
    (requests : after.deletionRequests = db.deletionRequests)
    (outbox : after.deletionOutbox = db.deletionOutbox) : Reschedules db after where
  scheduled := by
    obtain ⟨requestIds, outboxIds, ofRequest, rows, leases⟩ := scheduled
    constructor <;> simp only [requests, outbox] <;> assumption
  kept request member := ⟨request, requests ▸ member, rfl, rfl, rfl⟩
  waiting request member waits row there _ :=
    .inl ⟨request, requests ▸ member, ⟨waits, rfl, rfl, rfl, rfl⟩, outbox ▸ there⟩
  leased row there _ := ⟨row, outbox ▸ there, rfl, rfl, rfl⟩

/-- Requests and outbox rows changed one by one. -/
theorem Reschedules.map (scheduled : db.Scheduled)
    (change : AgreementDeletionRequestRecord → AgreementDeletionRequestRecord)
    (touch : AgreementDeletionOutboxRecord → AgreementDeletionOutboxRecord)
    (requests : after.deletionRequests = db.deletionRequests.map change)
    (outbox : after.deletionOutbox = db.deletionOutbox.map touch)
    (scope : ∀ request, (change request).id = request.id ∧
      (change request).organizationId = request.organizationId ∧
        (change request).workspaceId = request.workspaceId)
    (rowIds : ∀ row, (touch row).deletionId = row.deletionId)
    (ended : ∀ request ∈ db.deletionRequests, request.state = .completed →
      (change request).state ≠ .completed →
        ∃ row ∈ db.deletionOutbox, row.deletionId = request.id)
    (leases : ∀ request ∈ db.deletionRequests, (change request).state = .processing →
      (change request).leaseExpiresAt.isSome)
    (leased : ∀ row, (touch row).leaseToken.isSome → row.leaseToken = (touch row).leaseToken ∧
      row.leaseExpiresAt = (touch row).leaseExpiresAt)
    (waiting : ∀ request ∈ db.deletionRequests, (change request).Waiting →
      ∀ row ∈ db.deletionOutbox, row.deletionId = request.id →
        (request.WaitsOn (change request) ∧ touch row = row) ∨ (touch row).Reset (change request)) :
    Reschedules db after where
  scheduled := {
    requestIds := by
      rw [requests, map_map_of_keeps fun request _ => (scope request).1]
      exact scheduled.requestIds
    outboxIds := by
      rw [outbox, map_map_of_keeps fun row _ => rowIds row]
      exact scheduled.outboxIds
    ofRequest := by
      intro row member
      rw [outbox] at member
      obtain ⟨old, there, rfl⟩ := List.mem_map.mp member
      obtain ⟨request, held, named⟩ := scheduled.ofRequest old there
      exact ⟨change request, requests ▸ List.mem_map_of_mem held, by
        rw [(scope request).1, named, rowIds]⟩
    rows := by
      intro request member open_
      rw [requests] at member
      obtain ⟨old, held, rfl⟩ := List.mem_map.mp member
      have found : ∃ row ∈ db.deletionOutbox, row.deletionId = old.id := by
        by_cases done : old.state = .completed
        · exact ended old held done open_
        · exact scheduled.rows old held done
      obtain ⟨row, there, named⟩ := found
      exact ⟨touch row, outbox ▸ List.mem_map_of_mem there, by
        rw [rowIds, named, (scope old).1]⟩
    leases := by
      intro request member
      rw [requests] at member
      obtain ⟨old, held, rfl⟩ := List.mem_map.mp member
      exact leases old held }
  kept request member := ⟨change request, requests ▸ List.mem_map_of_mem member, scope request⟩
  waiting := by
    intro request member waits row there named
    rw [requests] at member
    rw [outbox] at there
    obtain ⟨old, held, rfl⟩ := List.mem_map.mp member
    obtain ⟨former, earlier, rfl⟩ := List.mem_map.mp there
    rw [rowIds, (scope old).1] at named
    refine (waiting old held waits former earlier named).imp ?_ id
    rintro ⟨same, untouched⟩
    exact ⟨old, held, same, untouched.symm ▸ earlier⟩
  leased := by
    intro row there held
    rw [outbox] at there
    obtain ⟨old, earlier, rfl⟩ := List.mem_map.mp there
    exact ⟨old, earlier, (rowIds old).symm, leased old held⟩

/-- Requests and outbox rows changed by their deletion. -/
theorem Reschedules.address (scheduled : db.Scheduled) (hit : Uuid → Prop) [DecidablePred hit]
    (change : AgreementDeletionRequestRecord → AgreementDeletionRequestRecord)
    (touch : AgreementDeletionOutboxRecord → AgreementDeletionOutboxRecord)
    (requests : after.deletionRequests =
      db.deletionRequests.map fun request => if hit request.id then change request else request)
    (outbox : after.deletionOutbox =
      db.deletionOutbox.map fun row => if hit row.deletionId then touch row else row)
    (scope : ∀ request, (change request).id = request.id ∧
      (change request).organizationId = request.organizationId ∧
        (change request).workspaceId = request.workspaceId)
    (rowIds : ∀ row, (touch row).deletionId = row.deletionId)
    (ended : ∀ request ∈ db.deletionRequests, hit request.id → request.state = .completed →
      (change request).state ≠ .completed →
        ∃ row ∈ db.deletionOutbox, row.deletionId = request.id)
    (leases : ∀ request ∈ db.deletionRequests, hit request.id →
      (change request).state = .processing → (change request).leaseExpiresAt.isSome)
    (leased : ∀ row, (touch row).leaseToken.isSome → row.leaseToken = (touch row).leaseToken ∧
      row.leaseExpiresAt = (touch row).leaseExpiresAt)
    (waiting : ∀ request ∈ db.deletionRequests, hit request.id → (change request).Waiting →
      ∀ row, (touch row).Reset (change request)) :
    Reschedules db after := by
  refine Reschedules.map scheduled _ _ requests outbox ?_ ?_ ?_ ?_ ?_ ?_
  · intro request
    split
    · exact scope request
    · exact ⟨rfl, rfl, rfl⟩
  · intro row
    split
    · exact rowIds row
    · rfl
  · intro request member done open_
    split at open_
    · rename_i here
      exact ended request member here done open_
    · exact absurd done open_
  · intro request member
    split
    · rename_i here
      exact leases request member here
    · exact scheduled.leases request member
  · intro row
    split
    · exact leased row
    · exact fun _ => ⟨rfl, rfl⟩
  · intro request member waits row _ named
    rw [named]
    split at waits
    · rename_i here
      rw [if_pos here, if_pos here]
      exact .inr (waiting request member here waits row)
    · rename_i apart
      rw [if_neg apart, if_neg apart]
      exact .inl ⟨⟨waits, rfl, rfl, rfl, rfl⟩, rfl⟩

theorem Reschedules.trans {last : Database} (first : Reschedules db after)
    (second : Reschedules after last) : Reschedules db last where
  scheduled := second.scheduled
  kept := by
    intro request member
    obtain ⟨row, there, id, organizationId, workspaceId⟩ := first.kept request member
    obtain ⟨next, held, id', organizationId', workspaceId'⟩ := second.kept row there
    exact ⟨next, held, id'.trans id, organizationId'.trans organizationId,
      workspaceId'.trans workspaceId⟩
  waiting := by
    intro request member waits row there named
    obtain ⟨old, held, on, earlier⟩ | reset := second.waiting request member waits row there named
    · obtain ⟨older, first_held, before, first_row⟩ | reset :=
        first.waiting old held on.waiting row earlier (named.trans on.id.symm)
      · exact .inl ⟨older, first_held, ⟨before.waiting, before.id.trans on.id,
          before.organizationId.trans on.organizationId, before.workspaceId.trans on.workspaceId,
          before.nextAttemptAt.trans on.nextAttemptAt⟩, first_row⟩
      · exact .inr ⟨reset.1, reset.2.1, on.nextAttemptAt ▸ reset.2.2⟩
    · exact .inr reset
  leased := by
    intro row there held
    obtain ⟨old, earlier, id, token, expires⟩ := second.leased row there held
    obtain ⟨older, first_row, id', token', expires'⟩ := first.leased old earlier (token ▸ held)
    exact ⟨older, first_row, id'.trans id, token'.trans token, expires'.trans expires⟩

/-- Rows of requests that have ended are taken away. -/
theorem Reschedules.of_filter (scheduled : db.Scheduled)
    {keep : AgreementDeletionOutboxRecord → Bool}
    (requests : after.deletionRequests = db.deletionRequests)
    (outbox : after.deletionOutbox = db.deletionOutbox.filter keep)
    (rows : ∀ request ∈ db.deletionRequests, request.state ≠ .completed →
      ∀ row ∈ db.deletionOutbox, row.deletionId = request.id → keep row = true) :
    Reschedules db after where
  scheduled := {
    requestIds := requests ▸ scheduled.requestIds
    outboxIds := outbox ▸ scheduled.outboxIds.sublist (List.filter_sublist.map _)
    ofRequest := fun row member =>
      requests ▸ scheduled.ofRequest row (List.mem_of_mem_filter (outbox ▸ member))
    rows := by
      intro request member open_
      rw [requests] at member
      obtain ⟨row, there, named⟩ := scheduled.rows request member open_
      exact ⟨row, outbox ▸ List.mem_filter.mpr ⟨there, rows request member open_ row there named⟩,
        named⟩
    leases := requests ▸ scheduled.leases }
  kept request member := ⟨request, requests ▸ member, rfl, rfl, rfl⟩
  waiting request member waits row there _ :=
    .inl ⟨request, requests ▸ member, ⟨waits, rfl, rfl, rfl, rfl⟩,
      List.mem_of_mem_filter (outbox ▸ there)⟩
  leased row there _ := ⟨row, List.mem_of_mem_filter (outbox ▸ there), rfl, rfl, rfl⟩

end Rules

/-! The calls -/

section Calls

variable {db after : Database} {deletion : AgreementDeletion}

theorem Database.Scheduled.eq_of_id (scheduled : db.Scheduled)
    {one other : AgreementDeletionRequestRecord} (first : one ∈ db.deletionRequests)
    (second : other ∈ db.deletionRequests) (same : one.id = other.id) : one = other :=
  List.inj_on_of_nodup_map scheduled.requestIds first second same

/-- The request under a claim that holds. -/
theorem Database.Scheduled.claimed (scheduled : db.Scheduled)
    (holds : (db.lockedClaim? deletion).isSome) {request : AgreementDeletionRequestRecord}
    (member : request ∈ db.deletionRequests) (named : request.id = deletion.id) :
    request.ClaimedBy deletion := by
  obtain ⟨found, locked⟩ := Option.isSome_iff_exists.mp holds
  have claimed : found.ClaimedBy deletion := by
    simpa [Database.lockedClaim?] using List.find?_some locked
  have same := scheduled.eq_of_id member (List.mem_of_find?_eq_some locked)
    (named.trans claimed.1.symm)
  exact same ▸ claimed

theorem updateClaimed_lease (scheduled : db.Scheduled) (requests : after.deletionRequests =
      db.deletionRequests) (outbox : after.deletionOutbox = db.deletionOutbox) (now : Time) :
    Reschedules db (after.updateClaimed deletion fun request =>
      { request with leaseExpiresAt := some (now + deletionLease) }) := by
  refine Reschedules.map scheduled (fun request =>
      if request.id = deletion.id ∧ request.claimToken = some deletion.claimToken then
        { request with leaseExpiresAt := some (now + deletionLease) } else request) id
    (by rw [← requests]; rfl) (by rw [List.map_id, ← outbox]; rfl) ?_ ?_ ?_ ?_ ?_ ?_
  · intro request
    split <;> exact ⟨rfl, rfl, rfl⟩
  · exact fun _ => rfl
  · intro request _ done open_
    split at open_ <;> exact absurd done open_
  · intro request member
    split
    · exact fun _ => rfl
    · exact scheduled.leases request member
  · exact fun _ _ => ⟨rfl, rfl⟩
  · intro request _ waits row _ _
    refine .inl ⟨?_, rfl⟩
    split at waits
    · rename_i here
      rw [if_pos here]
      exact ⟨waits, rfl, rfl, rfl, rfl⟩
    · rename_i apart
      rw [if_neg apart]
      exact ⟨waits, rfl, rfl, rfl, rfl⟩

theorem finishObject_reschedules (scheduled : db.Scheduled)
    (requests : after.deletionRequests = db.deletionRequests)
    (outbox : after.deletionOutbox = db.deletionOutbox) (objectId : Nat)
    (state : DeletionObjectState) (now : Time) :
    Reschedules db (finishObject after deletion objectId state now) := by
  unfold finishObject
  exact updateClaimed_lease scheduled (by simp only [requests]) (by simp only [outbox]) now

theorem markDeleted_reschedules (scheduled : db.Scheduled) {item : AgreementDeletionObject}
    {now : Time} (done : markDeleted db deletion item now = .ok after) : Reschedules db after := by
  unfold markDeleted at done
  split at done
  · cases done
  · cases done
    exact finishObject_reschedules scheduled rfl rfl _ _ now

theorem deleteSource_reschedules (scheduled : db.Scheduled) {storage : List String}
    {item : AgreementDeletionObject} {now : Time}
    (done : (deleteSourceIfUnreferenced db storage deletion item now).2 = .ok after) :
    Reschedules db after := by
  unfold deleteSourceIfUnreferenced at done
  split at done
  · cases done
  split at done
  · cases done
    exact .of_same scheduled rfl rfl
  split at done
  · cases done
    exact finishObject_reschedules scheduled rfl rfl _ _ now
  · cases done
    exact finishObject_reschedules scheduled (by rfl) (by rfl) _ _ now

/-- A claimant lets its request go, to be tried again or not. -/
theorem release_reschedules (scheduled : db.Scheduled)
    (holds : (db.lockedClaim? deletion).isSome)
    (requests : after.deletionRequests = db.deletionRequests)
    (outbox : after.deletionOutbox = db.deletionOutbox)
    (change : AgreementDeletionRequestRecord → AgreementDeletionRequestRecord) (until_ : Time)
    (message : String)
    (scope : ∀ request, (change request).id = request.id ∧
      (change request).organizationId = request.organizationId ∧
        (change request).workspaceId = request.workspaceId)
    (released : ∀ request, (change request).state ≠ .processing)
    (due : ∀ request, (change request).Waiting → (change request).nextAttemptAt ≤ until_) :
    Reschedules db
      ((after.updateClaimed deletion change).scheduleOutbox [deletion.id] until_ message) := by
  refine Reschedules.address scheduled (· = deletion.id) change (fun row => { row with
      deliveredAt := none, leaseToken := none, leaseExpiresAt := none
      nextAttemptAt := until_, lastError := some message }) ?_ ?_ scope (fun _ => rfl) ?_ ?_ ?_ ?_
  · rw [← requests]
    refine List.map_congr_left fun request member => ?_
    rw [requests] at member
    by_cases named : request.id = deletion.id
    · rw [if_pos named, if_pos ⟨named, (scheduled.claimed holds member named).2.2.2.2⟩]
    · rw [if_neg named, if_neg fun hit => named hit.1]
  · rw [← outbox]
    refine List.map_congr_left fun row _ => ?_
    simp only [List.mem_singleton]
  · intro request member named done
    have processing := (scheduled.claimed holds member named).2.2.2.1
    rw [processing] at done
    cases done
  · exact fun request _ _ busy => absurd busy (released request)
  · exact fun _ held => absurd held (by simp)
  · exact fun request _ _ waits _ => ⟨rfl, rfl, due request waits⟩

theorem retryClaim_reschedules (scheduled : db.Scheduled)
    (holds : (db.lockedClaim? deletion).isSome)
    (requests : after.deletionRequests = db.deletionRequests)
    (outbox : after.deletionOutbox = db.deletionOutbox) (category message : String)
    (nextRetryAt : Time) :
    Reschedules db (after.retryClaim deletion category message nextRetryAt) :=
  release_reschedules scheduled holds requests outbox (fun request => { request with
    state := .retrying, claimToken := none, leaseExpiresAt := none, nextAttemptAt := nextRetryAt
    failureCategory := some category, failureMessage := some message }) nextRetryAt message
    (fun _ => ⟨rfl, rfl, rfl⟩) (fun _ => by simp) fun _ _ => Nat.le_refl _

theorem failClaim_reschedules (scheduled : db.Scheduled)
    (holds : (db.lockedClaim? deletion).isSome)
    (requests : after.deletionRequests = db.deletionRequests)
    (outbox : after.deletionOutbox = db.deletionOutbox) (category message : String) (now : Time) :
    Reschedules db (after.failClaim deletion category message now) :=
  release_reschedules scheduled holds requests outbox (fun request => { request with
    state := .failed, claimToken := none, leaseExpiresAt := none
    failureCategory := some category, failureMessage := some message
    failedAt := some now }) now message
    (fun _ => ⟨rfl, rfl, rfl⟩) (fun _ => by simp) fun _ waits => absurd waits (by
      simp [AgreementDeletionRequestRecord.Waiting])

theorem settleObject_reschedules (scheduled : db.Scheduled) (policy : DeletionRetryPolicy)
    (item : AgreementDeletionObject) (now : Time) :
    Reschedules db (DeletionWorld.settleObject policy db deletion item now) := by
  unfold DeletionWorld.settleObject failObject retryObject
  dsimp only
  split <;> split
  · rename_i holds
    exact failClaim_reschedules scheduled holds (by rfl) (by rfl) _ _ now
  · exact .of_same scheduled rfl rfl
  · rename_i holds
    exact retryClaim_reschedules scheduled holds (by rfl) (by rfl) _ _ _
  · exact .of_same scheduled rfl rfl

theorem settlePurge_reschedules (scheduled : db.Scheduled) (policy : DeletionRetryPolicy)
    (now : Time) : Reschedules db (DeletionWorld.settlePurge policy db deletion now) := by
  unfold DeletionWorld.settlePurge failDatabaseCleanup retryDatabaseCleanup
  dsimp only
  split <;> split
  · rename_i holds
    exact failClaim_reschedules scheduled holds (by rfl) (by rfl) _ _ now
  · exact .of_same scheduled rfl rfl
  · rename_i holds
    exact retryClaim_reschedules scheduled holds (by rfl) (by rfl) _ _ _
  · exact .of_same scheduled rfl rfl

theorem claimDeletion_reschedules (scheduled : db.Scheduled)
    {deletionId organizationId workspaceId claimToken : Uuid} {now : Time}
    (done : claimDeletion db deletionId organizationId workspaceId now claimToken =
      (some deletion, after)) : Reschedules db after := by
  unfold claimDeletion at done
  split at done
  · cases done
  rename_i request found
  obtain ⟨rfl, rfl⟩ := Prod.mk.inj done |>.imp Option.some.inj id
  have facts := List.find?_some found
  rw [decide_eq_true_eq] at facts
  refine Reschedules.address scheduled (· = deletionId) (fun row => { row with
      state := .processing, attemptCount := row.attemptCount + 1, claimToken := some claimToken
      leaseExpiresAt := some (now + deletionLease)
      processingStartedAt := some (row.processingStartedAt.getD now)
      failureCategory := none, failureMessage := none }) id rfl (by simp)
    (fun _ => ⟨rfl, rfl, rfl⟩) (fun _ => rfl) ?_ (fun _ _ _ _ => rfl) (fun _ _ => ⟨rfl, rfl⟩)
    fun _ _ _ waits => absurd waits (by simp [AgreementDeletionRequestRecord.Waiting])
  intro other member named done _
  have same := scheduled.eq_of_id member (List.mem_of_find?_eq_some found)
    (named.trans facts.1.symm)
  have claimable := facts.2.2.2.2
  rw [← same, done] at claimable
  simp at claimable

theorem redriveDeletion_reschedules (scheduled : db.Scheduled)
    {request : AgreementDeletionRequestRecord} (member : request ∈ db.deletionRequests)
    (now : Time) : Reschedules db (redriveDeletion db request now) := by
  unfold redriveDeletion
  split
  · exact .of_same scheduled rfl rfl
  rename_i failed
  refine Reschedules.address scheduled (· = request.id) (fun row => { row with
      state := .accepted, retryCycle := row.retryCycle + 1, attemptCount := 0
      claimToken := none, leaseExpiresAt := none, nextAttemptAt := now
      failureCategory := none, failureMessage := none, failedAt := none })
    (fun row => { row with
      deliveredAt := none, leaseToken := none, leaseExpiresAt := none, nextAttemptAt := now
      lastError := none }) rfl rfl (fun _ => ⟨rfl, rfl, rfl⟩) (fun _ => rfl) ?_
    (fun _ _ _ busy => absurd busy (by simp)) (fun _ held => absurd held (by simp))
    fun _ _ _ _ _ => ⟨rfl, rfl, Nat.le_refl _⟩
  intro other there named done _
  have same := scheduled.eq_of_id there member named
  rw [same] at done
  simp [done] at failed

theorem recoverUnlockedDeletions_reschedules (scheduled : db.Scheduled) (organizationId : Uuid)
    (locked : List Uuid) (now : Time) :
    Reschedules db (recoverUnlockedDeletions db organizationId locked now) := by
  refine Reschedules.address scheduled
    (· ∈ (db.deletionRequests.filter fun request =>
      request.Stale organizationId now ∧ request.id ∉ locked).map (·.id))
    (fun request => { request with
      state := .retrying, claimToken := none, leaseExpiresAt := none, nextAttemptAt := now
      failureCategory := some "database_cleanup"
      failureMessage := some "Expired deletion lease recovered" })
    (fun row => { row with
      deliveredAt := none, leaseToken := none, leaseExpiresAt := none
      nextAttemptAt := now, lastError := some "Expired deletion lease recovered" }) rfl rfl
    (fun _ => ⟨rfl, rfl, rfl⟩) (fun _ => rfl) ?_
    (fun _ _ _ busy => absurd busy (by simp)) (fun _ held => absurd held (by simp))
    fun _ _ _ _ _ => ⟨rfl, rfl, Nat.le_refl _⟩
  intro other there stale done _
  obtain ⟨request, listed, named⟩ := List.mem_map.mp stale
  obtain ⟨member, facts⟩ := List.mem_filter.mp listed
  rw [decide_eq_true_eq] at facts
  have processing := facts.1.2.1
  rw [scheduled.eq_of_id member there named, done] at processing
  cases processing

/-- A new request comes with its row. -/
theorem insertDeletion_reschedules (scheduled : db.Scheduled) (agreement : AgreementRecord)
    {deletionId : Uuid} (fresh : ∀ request ∈ db.deletionRequests, request.id ≠ deletionId)
    (now : Time) : Reschedules db (insertDeletion db agreement deletionId now) where
  scheduled := {
    requestIds := nodup_map_concat scheduled.requestIds fresh
    outboxIds := nodup_map_concat scheduled.outboxIds fun row member same => by
      obtain ⟨request, there, named⟩ := scheduled.ofRequest row member
      exact fresh request there (named.trans same)
    ofRequest := by
      intro row member
      cases List.mem_append.mp member with
      | inl old =>
          obtain ⟨request, there, named⟩ := scheduled.ofRequest row old
          exact ⟨request, List.mem_append_left _ there, named⟩
      | inr new =>
          rw [List.mem_singleton.mp new]
          exact ⟨_, List.mem_append_right _ (List.mem_singleton_self _), rfl⟩
    rows := by
      intro request member open_
      cases List.mem_append.mp member with
      | inl old =>
          obtain ⟨row, there, named⟩ := scheduled.rows request old open_
          exact ⟨row, List.mem_append_left _ there, named⟩
      | inr new =>
          rw [List.mem_singleton.mp new]
          exact ⟨_, List.mem_append_right _ (List.mem_singleton_self _), rfl⟩
    leases := by
      intro request member busy
      cases List.mem_append.mp member with
      | inl old => exact scheduled.leases request old busy
      | inr new =>
          rw [List.mem_singleton.mp new] at busy
          cases busy }
  kept request member := ⟨request, List.mem_append_left _ member, rfl, rfl, rfl⟩
  waiting := by
    intro request member waits row there named
    cases List.mem_append.mp there with
    | inl old =>
        cases List.mem_append.mp member with
        | inl known => exact .inl ⟨request, known, ⟨waits, rfl, rfl, rfl, rfl⟩, old⟩
        | inr new =>
            obtain ⟨other, held, same⟩ := scheduled.ofRequest row old
            rw [List.mem_singleton.mp new] at named
            exact absurd (same.trans named) (fresh other held)
    | inr new =>
        rw [List.mem_singleton.mp new] at named ⊢
        cases List.mem_append.mp member with
        | inl known => exact absurd named.symm (fresh request known)
        | inr last =>
            rw [List.mem_singleton.mp last]
            exact .inr ⟨rfl, rfl, Nat.le_refl _⟩
  leased := by
    intro row there held
    cases List.mem_append.mp there with
    | inl old => exact ⟨row, old, rfl, rfl, rfl⟩
    | inr new =>
        rw [List.mem_singleton.mp new] at held
        cases held

theorem acceptDeletion_reschedules (scheduled : db.Scheduled)
    {organizationId workspaceId agreementId deletionId : Uuid} {now : Time}
    (fresh : ∀ request ∈ db.deletionRequests, request.id ≠ deletionId)
    (done : acceptDeletion db organizationId workspaceId agreementId deletionId now = .ok after) :
    Reschedules db after := by
  obtain ⟨request, member, rfl⟩ | ⟨agreement, -, -, -, -, rfl⟩ := acceptDeletion_ok done
  · exact redriveDeletion_reschedules scheduled member now
  · exact insertDeletion_reschedules scheduled agreement fresh now

/-- A row comes back for a request that has ended. -/
theorem append_reschedules (scheduled : db.Scheduled) {request : AgreementDeletionRequestRecord}
    (member : request ∈ db.deletionRequests) {row : AgreementDeletionOutboxRecord}
    (named : row.deletionId = request.id) (free : row.leaseToken = none)
    (absent : ∀ old ∈ db.deletionOutbox, old.deletionId ≠ request.id)
    (requests : after.deletionRequests = db.deletionRequests)
    (outbox : after.deletionOutbox = db.deletionOutbox ++ [row]) : Reschedules db after where
  scheduled := {
    requestIds := requests ▸ scheduled.requestIds
    outboxIds := by
      rw [outbox]
      exact nodup_map_concat scheduled.outboxIds fun old there same =>
        absent old there (same.trans named)
    ofRequest := by
      intro other there
      rw [outbox, List.mem_append, List.mem_singleton] at there
      rw [requests]
      obtain old | rfl := there
      · exact scheduled.ofRequest other old
      · exact ⟨request, member, named.symm⟩
    rows := by
      intro other held open_
      rw [requests] at held
      obtain ⟨old, there, same⟩ := scheduled.rows other held open_
      exact ⟨old, outbox ▸ List.mem_append_left _ there, same⟩
    leases := requests ▸ scheduled.leases }
  kept other held := ⟨other, requests ▸ held, rfl, rfl, rfl⟩
  waiting := by
    intro other held waits last there same
    rw [requests] at held
    rw [outbox, List.mem_append, List.mem_singleton] at there
    obtain old | rfl := there
    · exact .inl ⟨other, held, ⟨waits, rfl, rfl, rfl, rfl⟩, old⟩
    · -- the request had no row, so it does not wait
      have equal := scheduled.eq_of_id held member (same.symm.trans named)
      have ended : other.state = .completed := by
        by_contra open_
        obtain ⟨old, earlier, id⟩ := scheduled.rows other held open_
        exact absent old earlier (id.trans (congrArg (·.id) equal))
      simp [AgreementDeletionRequestRecord.Waiting, ended] at waits
  leased := by
    intro other there held
    rw [outbox, List.mem_append, List.mem_singleton] at there
    obtain old | rfl := there
    · exact ⟨other, old, rfl, rfl, rfl⟩
    · rw [free] at held
      cases held

/-- A request is opened again, and its row is reset. -/
theorem reopen_reschedules (scheduled : db.Scheduled) {request : AgreementDeletionRequestRecord}
    (known : ∃ row ∈ db.deletionOutbox, row.deletionId = request.id) (now : Time)
    (requests : after.deletionRequests = update (·.id) db.deletionRequests request.id (reopen now))
    (outbox : after.deletionOutbox = update (·.deletionId) db.deletionOutbox request.id
      fun row => { row with
        attemptCount := 0, nextAttemptAt := now, leaseToken := none, leaseExpiresAt := none
        lastError := none, deliveredAt := none }) : Reschedules db after := by
  refine Reschedules.address scheduled (· = request.id) (reopen now) _ requests outbox
    (fun _ => ⟨rfl, rfl, rfl⟩) (fun _ => rfl) ?_ (fun _ _ _ busy => absurd busy (by simp [reopen]))
    (fun _ held => absurd held (by simp)) fun _ _ _ _ _ => ⟨rfl, rfl, Nat.le_refl _⟩
  intro other _ named _ _
  obtain ⟨row, there, same⟩ := known
  exact ⟨row, there, same.trans named.symm⟩

theorem inventoryLateArtifact_reschedules (scheduled : db.Scheduled) {context : ArtifactContext}
    {key : String} {now : Time} (done : inventoryLateArtifact db context key now = .ok after) :
    Reschedules db after := by
  obtain ⟨request, found, ⟨-, rfl⟩ | ⟨category, -, rfl⟩⟩ := inventoryLateArtifact_ok done
  · exact .of_same scheduled rfl rfl
  have member : request ∈ db.deletionRequests := List.mem_of_find?_eq_some found
  by_cases known : db.deletionOutbox.any fun row => row.deletionId = request.id
  · obtain ⟨row, there, same⟩ := List.any_eq_true.mp known
    exact reopen_reschedules scheduled ⟨row, there, of_decide_eq_true same⟩ now rfl (if_pos known)
  · let row : AgreementDeletionOutboxRecord := {
      deletionId := request.id, agreementId := context.agreementId, attemptCount := 0
      nextAttemptAt := now, leaseToken := none, leaseExpiresAt := none, lastError := none
      deliveredAt := none }
    have absent : ∀ old ∈ db.deletionOutbox, old.deletionId ≠ request.id := fun old there same =>
      known (List.any_eq_true.mpr ⟨old, there, decide_eq_true same⟩)
    have appended : Reschedules db { db with deletionOutbox := db.deletionOutbox ++ [row] } :=
      append_reschedules scheduled member rfl rfl absent rfl rfl
    refine appended.trans (reopen_reschedules appended.scheduled
      ⟨row, List.mem_append_right _ (List.mem_singleton_self _), rfl⟩ now rfl ?_)
    have unchanged : update (·.deletionId) db.deletionOutbox request.id (fun row => { row with
        attemptCount := 0, nextAttemptAt := now, leaseToken := none, leaseExpiresAt := none
        lastError := none, deliveredAt := none }) = db.deletionOutbox :=
      (List.map_congr_left fun old there => if_neg (absent old there)).trans (List.map_id _)
    refine (if_neg known).trans ?_
    rw [update] at unchanged
    rw [update, List.map_append, unchanged]
    simp [row]

theorem completeAndPurge_reschedules (scheduled : db.Scheduled) {now : Time}
    (done : completeAndPurge db deletion now = .ok after) : Reschedules db after := by
  obtain ⟨-, rfl⟩ | ⟨holds, -, -, rfl⟩ := completeAndPurge_ok done
  · exact .of_same scheduled rfl rfl
  -- first the request ends, then its row goes
  have ends : Reschedules db { db with
      deletionRequests := ((purgedRows db deletion).updateClaimed deletion
        (completeRequest now)).deletionRequests } := by
    refine Reschedules.address scheduled (· = deletion.id) (completeRequest now) id ?_ (by simp)
      (fun _ => ⟨rfl, rfl, rfl⟩) (fun _ => rfl) ?_
      (fun _ _ _ busy => absurd busy (by simp [completeRequest]))
      (fun _ _ => ⟨rfl, rfl⟩) fun _ _ _ waits => absurd waits (by
        simp [AgreementDeletionRequestRecord.Waiting, completeRequest])
    · refine List.map_congr_left fun request member => ?_
      by_cases named : request.id = deletion.id
      · rw [if_pos named, if_pos ⟨named, (scheduled.claimed holds member named).2.2.2.2⟩]
      · rw [if_neg named, if_neg fun hit => named hit.1]
    · exact fun _ _ _ _ open_ => absurd rfl open_
  refine ends.trans (Reschedules.of_filter ends.scheduled rfl rfl ?_)
  intro request member open_ row _ named
  refine decide_eq_true fun same => open_ ?_
  obtain ⟨old, held, rfl⟩ := List.mem_map.mp member
  split
  · rfl
  · rename_i spared
    rw [if_neg spared] at named
    have here : old.id = deletion.id := named.symm.trans same
    exact absurd ⟨here, (scheduled.claimed holds held here).2.2.2.2⟩ spared

end Calls

end AgreementIntelligence.Agreements
