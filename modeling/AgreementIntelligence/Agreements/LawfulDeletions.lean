import AgreementIntelligence.Agreements.DeletionSchema
import AgreementIntelligence.Agreements.Frame

/-! No call of a deletion violates the constraints of its tables. A request ends a retry cycle at
most once and opens the next one before it can end again, which keeps the audit events apart. -/

namespace AgreementIntelligence.Agreements
open Identity Lib.Table Lib.Runs

/-- What an update may make of a request: an ended request stays as it is within its cycle. -/
structure AgreementDeletionRequestRecord.Continues (old new : AgreementDeletionRequestRecord) :
    Prop where
  id : new.id = old.id
  scope : new.scope = old.scope
  checked : new.Checked
  cycle : old.retryCycle ≤ new.retryCycle
  failed : old.state = .failed → new.state = .failed ∨ old.retryCycle < new.retryCycle
  completed : old.state = .completed → new.state = .completed ∨ old.retryCycle < new.retryCycle

theorem AgreementDeletionRequestRecord.Continues.refl {row : AgreementDeletionRequestRecord}
    (checked : row.Checked) : row.Continues row :=
  ⟨rfl, rfl, checked, Nat.le_refl _, .inl, .inl⟩

/-- The event belongs to the history of the request: an end in the current cycle is its state. -/
structure AgreementDeletionAuditEventRecord.Precedes (event : AgreementDeletionAuditEventRecord)
    (request : AgreementDeletionRequestRecord) : Prop where
  cycle : event.retryCycle ≤ request.retryCycle
  failed : event.eventType = .failed → event.retryCycle = request.retryCycle →
    request.state = .failed
  completed : event.eventType = .completed → event.retryCycle = request.retryCycle →
    request.state = .completed

theorem AgreementDeletionAuditEventRecord.Precedes.continues
    {event : AgreementDeletionAuditEventRecord} {old new : AgreementDeletionRequestRecord}
    (precedes : event.Precedes old) (continues : old.Continues new) : event.Precedes new := by
  have grown := continues.cycle
  have before := precedes.cycle
  refine ⟨Nat.le_trans before grown, fun failed current => ?_, fun completed current => ?_⟩
  · have ended := precedes.failed failed (by omega)
    exact (continues.failed ended).resolve_right (by omega)
  · have ended := precedes.completed completed (by omega)
    exact (continues.completed ended).resolve_right (by omega)

/-- The constraints, the foreign keys to the request, and the history of each request. -/
structure AuditedDatabase.Ordered (s : AuditedDatabase) : Prop extends s.Lawful where
  objectOwners : ∀ object ∈ s.db.deletionObjects,
    ∃ request ∈ s.db.deletionRequests, request.id = object.deletionId
  outboxOwners : ∀ row ∈ s.db.deletionOutbox,
    ∃ request ∈ s.db.deletionRequests, request.id = row.deletionId
  events : ∀ event ∈ s.auditEvents, ∀ deletionId, event.deletionId = some deletionId →
    ∃ request ∈ s.db.deletionRequests, request.id = deletionId ∧ event.Precedes request

/-- Every statement of a list leaves the tables in order. -/
def OrderedWrites (s : AuditedDatabase) : List Write → Prop
  | [] => True
  | write :: rest => (s.write write).Ordered ∧ OrderedWrites (s.write write) rest

theorem OrderedWrites.result {s : AuditedDatabase} {writes : List Write} (ordered : s.Ordered)
    (each : OrderedWrites s writes) : (writes.foldl .write s).Ordered := by
  induction writes generalizing s with
  | nil => exact ordered
  | cons write rest ih => exact ih each.1 each.2

/-! One statement -/

section Statements
variable {s : AuditedDatabase}

theorem RequestsLawful.map {rows : List AgreementDeletionRequestRecord}
    (lawful : RequestsLawful rows)
    {change : AgreementDeletionRequestRecord → AgreementDeletionRequestRecord}
    (continues : ∀ row ∈ rows, row.Continues (change row)) : RequestsLawful (rows.map change) := by
  have scopes (row) (member : row ∈ rows) := (continues row member).scope
  have ids (row) (member : row ∈ rows) := (continues row member).id
  have agreements (row) (member : row ∈ rows) : (change row).agreementId = row.agreementId :=
    congrArg Scope.agreementId (scopes row member)
  refine ⟨fun row member => ?_, ?_, ?_, ?_⟩
  · obtain ⟨old, there, rfl⟩ := List.mem_map.mp member
    exact (continues old there).checked
  · rw [map_map_of_keeps ids]
    exact lawful.ids
  · rw [map_map_of_keeps agreements]
    exact lawful.agreements
  · rw [map_map_of_keeps fun row member => Prod.ext (ids row member) (scopes row member)]
    exact lawful.scopes

theorem AuditedDatabase.Ordered.writeRequests (ordered : s.Ordered)
    {rows : List AgreementDeletionRequestRecord} (lawful : RequestsLawful rows)
    (continues : ∀ row ∈ s.db.deletionRequests, ∃ new ∈ rows, row.Continues new) :
    (s.write (.requests rows)).Ordered where
  requests := lawful
  objects := ordered.objects
  outbox := ordered.outbox
  auditEvents := ordered.auditEvents
  objectOwners object member := by
    obtain ⟨request, there, same⟩ := ordered.objectOwners object member
    obtain ⟨new, here, becomes⟩ := continues request there
    exact ⟨new, here, becomes.id.trans same⟩
  outboxOwners row member := by
    obtain ⟨request, there, same⟩ := ordered.outboxOwners row member
    obtain ⟨new, here, becomes⟩ := continues request there
    exact ⟨new, here, becomes.id.trans same⟩
  events event member deletionId named := by
    obtain ⟨request, there, same, precedes⟩ := ordered.events event member deletionId named
    obtain ⟨new, here, becomes⟩ := continues request there
    exact ⟨new, here, becomes.id.trans same, precedes.continues becomes⟩

theorem AuditedDatabase.Ordered.mapRequests (ordered : s.Ordered)
    {change : AgreementDeletionRequestRecord → AgreementDeletionRequestRecord}
    (continues : ∀ row ∈ s.db.deletionRequests, row.Continues (change row)) :
    (s.write (.requests (s.db.deletionRequests.map change))).Ordered :=
  ordered.writeRequests (ordered.requests.map continues) fun row member =>
    ⟨change row, List.mem_map_of_mem member, continues row member⟩

/-- The request of an id is the only row that an update of that id changes. -/
theorem AuditedDatabase.Ordered.changeRequest (ordered : s.Ordered)
    {request : AgreementDeletionRequestRecord} (member : request ∈ s.db.deletionRequests)
    {chosen : AgreementDeletionRequestRecord → Prop} [DecidablePred chosen]
    {change : AgreementDeletionRequestRecord → AgreementDeletionRequestRecord}
    (named : ∀ row, chosen row → row.id = request.id)
    (continues : request.Continues (change request)) :
    (s.write (.requests (s.db.deletionRequests.map fun row =>
      if chosen row then change row else row))).Ordered := by
  refine ordered.mapRequests fun row there => ?_
  split
  · rename_i hit
    rw [List.inj_on_of_nodup_map ordered.requests.ids there member (named row hit)]
    exact continues
  · exact .refl (ordered.requests.checked row there)

theorem AuditedDatabase.Ordered.writeObjects (ordered : s.Ordered) {after : Database}
    (lawful : ObjectsLawful after.deletionObjects)
    (owners : ∀ object ∈ after.deletionObjects,
      ∃ request ∈ s.db.deletionRequests, request.id = object.deletionId) :
    (s.write (.objects after)).Ordered :=
  { ordered with objects := lawful, objectOwners := owners }

/-- An update of inventory rows keeps what they list. -/
theorem AuditedDatabase.Ordered.mapObjects (ordered : s.Ordered) {after : Database}
    {change : AgreementDeletionObjectRecord → AgreementDeletionObjectRecord}
    (keeps : ∀ row, (change row).listing = row.listing)
    (mapped : after.deletionObjects = s.db.deletionObjects.map change) :
    (s.write (.objects after)).Ordered := by
  refine ordered.writeObjects ?_ fun object member => ?_
  · rw [ObjectsLawful, mapped, map_map_of_keeps fun row _ => keeps row]
    exact ordered.objects
  · rw [mapped] at member
    obtain ⟨old, there, rfl⟩ := List.mem_map.mp member
    obtain ⟨request, here, same⟩ := ordered.objectOwners old there
    exact ⟨request, here, same.trans (congrArg Prod.fst (keeps old)).symm⟩

theorem AuditedDatabase.Ordered.writeOutbox (ordered : s.Ordered)
    {rows : List AgreementDeletionOutboxRecord} (lawful : OutboxLawful rows)
    (owners : ∀ row ∈ rows, ∃ request ∈ s.db.deletionRequests, request.id = row.deletionId) :
    (s.write (.outbox rows)).Ordered :=
  { ordered with outbox := lawful, outboxOwners := owners }

theorem AuditedDatabase.Ordered.mapOutbox (ordered : s.Ordered)
    {change : AgreementDeletionOutboxRecord → AgreementDeletionOutboxRecord}
    (keeps : ∀ row, (change row).deletionId = row.deletionId)
    (checked : ∀ row ∈ s.db.deletionOutbox, (change row).Checked) :
    (s.write (.outbox (s.db.deletionOutbox.map change))).Ordered := by
  refine ordered.writeOutbox ⟨fun row member => ?_, ?_⟩ fun row member => ?_
  · obtain ⟨old, there, rfl⟩ := List.mem_map.mp member
    exact checked old there
  · rw [map_map_of_keeps fun row _ => keeps row]
    exact ordered.outbox.deletions
  · obtain ⟨old, there, rfl⟩ := List.mem_map.mp member
    obtain ⟨request, here, same⟩ := ordered.outboxOwners old there
    exact ⟨request, here, same.trans (keeps old).symm⟩

theorem AuditedDatabase.Ordered.writeOthers (ordered : s.Ordered) (db : Database) :
    (s.write (.others db)).Ordered :=
  { ordered with }

/-- An event may be added that no event of the request equals in type and cycle. -/
theorem AuditedDatabase.Ordered.insertEvent (ordered : s.Ordered)
    {event : AgreementDeletionAuditEventRecord} {request : AgreementDeletionRequestRecord}
    (member : request ∈ s.db.deletionRequests) (named : event.deletionId = some request.id)
    (precedes : event.Precedes request)
    (first : ∀ other ∈ s.auditEvents, other.cycle? ≠ event.cycle?) :
    (s.write (.auditEvents (s.auditEvents ++ [event]))).Ordered :=
  { ordered with
    auditEvents := by
      have key : event.cycle? = some (request.id, event.eventType, event.retryCycle) := by
        rw [AgreementDeletionAuditEventRecord.cycle?, named]
        rfl
      simp only [AuditLawful, AuditedDatabase.write, List.filterMap_append, List.filterMap_cons,
        key, List.filterMap_nil]
      refine List.nodup_append.mpr ⟨ordered.auditEvents, List.nodup_singleton _, ?_⟩
      intro cycle earlier other last
      obtain ⟨old, there, same⟩ := List.mem_filterMap.mp earlier
      rintro rfl
      rw [List.mem_singleton.mp last] at same
      exact first old there (same.trans key.symm)
    events := fun other inside deletionId known => by
      rcases List.mem_append.mp inside with old | new
      · exact ordered.events other old deletionId known
      · rw [List.mem_singleton.mp new] at known ⊢
        exact ⟨request, member, Option.some.inj (named.symm.trans known), precedes⟩ }

end Statements

/-! One call -/

section Calls
variable {s : AuditedDatabase}

theorem Database.lockedClaim?_eq_some {db : Database} {deletion : AgreementDeletion}
    {record : AgreementDeletionRequestRecord} (found : db.lockedClaim? deletion = some record) :
    record ∈ db.deletionRequests ∧ record.ClaimedBy deletion := by
  unfold Database.lockedClaim? at found
  have claimed := List.find?_some found
  exact ⟨List.mem_of_find?_eq_some found, of_decide_eq_true claimed⟩

theorem AgreementDeletionRequestRecord.Checked.open_ {request : AgreementDeletionRequestRecord}
    (checked : request.Checked) (open_ : request.state ≠ .completed ∧ request.state ≠ .failed) :
    request.completedAt = none ∧ request.failedAt = none :=
  ⟨by_contra fun some_ => open_.1 (checked.completedAt.mpr some_),
    by_contra fun some_ => open_.2 (checked.failedAt.mpr some_)⟩

theorem AuditedDatabase.Ordered.updateClaimed (ordered : s.Ordered)
    {deletion : AgreementDeletion} {record : AgreementDeletionRequestRecord}
    (found : s.db.lockedClaim? deletion = some record)
    {change : AgreementDeletionRequestRecord → AgreementDeletionRequestRecord}
    (continues : record.Continues (change record)) :
    (s.write (.requests (s.db.updateClaimed deletion change).deletionRequests)).Ordered := by
  obtain ⟨member, claimed⟩ := Database.lockedClaim?_eq_some found
  exact ordered.changeRequest member (fun row hit => hit.1.trans claimed.1.symm) continues

/-- A claimed request given up, for now or for good. -/
theorem AgreementDeletionRequestRecord.Continues.release
    {record : AgreementDeletionRequestRecord} (checked : record.Checked)
    (processing : record.state = .processing) (category message : String) (nextRetryAt : Time) :
    record.Continues { record with
      state := .retrying, claimToken := none, leaseExpiresAt := none
      nextAttemptAt := nextRetryAt, failureCategory := some category
      failureMessage := some message } := by
  obtain ⟨uncompleted, unfailed⟩ := checked.open_ (by simp [processing])
  refine ⟨rfl, rfl, ⟨Nat.zero_le _, checked.retryCycle, by simp, by simp, ?_, ?_⟩, Nat.le_refl _,
    fun failed => ?_, fun completed => ?_⟩
  · simp [uncompleted]
  · simp [unfailed]
  · rw [processing] at failed
    cases failed
  · rw [processing] at completed
    cases completed

theorem AgreementDeletionRequestRecord.Continues.fail
    {record : AgreementDeletionRequestRecord} (checked : record.Checked)
    (processing : record.state = .processing) (category message : String) (now : Time) :
    record.Continues { record with
      state := .failed, claimToken := none, leaseExpiresAt := none
      failureCategory := some category, failureMessage := some message, failedAt := some now } := by
  obtain ⟨uncompleted, -⟩ := checked.open_ (by simp [processing])
  refine ⟨rfl, rfl, ⟨Nat.zero_le _, checked.retryCycle, by simp, by simp, ?_, by simp⟩,
    Nat.le_refl _, fun _ => .inl rfl, fun completed => ?_⟩
  · simp [uncompleted]
  · rw [processing] at completed
    cases completed

theorem AgreementDeletionRequestRecord.Continues.complete
    {record : AgreementDeletionRequestRecord} (checked : record.Checked)
    (processing : record.state = .processing) (now : Time) :
    record.Continues (completeRequest now record) := by
  obtain ⟨-, unfailed⟩ := checked.open_ (by simp [processing])
  refine ⟨rfl, rfl, ⟨Nat.zero_le _, checked.retryCycle, by simp [completeRequest],
    by simp [completeRequest], by simp [completeRequest], ?_⟩, Nat.le_refl _, fun failed => ?_,
    fun _ => .inl rfl⟩
  · simp [completeRequest, unfailed]
  · rw [processing] at failed
    cases failed

/-- A late artifact opens the request again, in a new cycle if it had ended. -/
theorem AgreementDeletionRequestRecord.Continues.reopen
    {record : AgreementDeletionRequestRecord} (checked : record.Checked) (now : Time) :
    record.Continues (reopen now record) := by
  have positive := checked.retryCycle
  refine ⟨rfl, rfl, ⟨Nat.zero_le _, ?_, by simp [Agreements.reopen], by simp [Agreements.reopen],
    by simp [Agreements.reopen], by simp [Agreements.reopen]⟩, ?_, fun failed => .inr ?_,
    fun completed => .inr ?_⟩
  · simp only [Agreements.reopen]
    omega
  · simp only [Agreements.reopen]
    omega
  · simp [Agreements.reopen, failed]
  · simp [Agreements.reopen, completed]

theorem AgreementDeletionRequestRecord.Continues.redrive
    {record : AgreementDeletionRequestRecord} (checked : record.Checked)
    (failed : record.state = .failed) (now : Time) :
    record.Continues { record with
      state := .accepted, retryCycle := record.retryCycle + 1, attemptCount := 0
      claimToken := none, leaseExpiresAt := none, nextAttemptAt := now
      failureCategory := none, failureMessage := none, failedAt := none } := by
  have uncompleted : record.completedAt = none := by
    by_contra some_
    have completed := checked.completedAt.mpr some_
    rw [failed] at completed
    cases completed
  refine ⟨rfl, rfl, ⟨Nat.zero_le _, Nat.le_add_left 1 _, by simp, by simp, ?_, by simp⟩,
    Nat.le_succ _, fun _ => .inr (Nat.lt_succ_self _), fun _ => .inr (Nat.lt_succ_self _)⟩
  simp [uncompleted]

theorem AgreementDeletionRequestRecord.Continues.claim
    {record : AgreementDeletionRequestRecord} (checked : record.Checked) {now : Time}
    (claimable : record.Claimable now) (claimToken : Uuid) :
    record.Continues { record with
      state := .processing, attemptCount := record.attemptCount + 1, claimToken := some claimToken
      leaseExpiresAt := some (now + deletionLease)
      processingStartedAt := some (record.processingStartedAt.getD now)
      failureCategory := none, failureMessage := none } := by
  have open_ : record.state ≠ .completed ∧ record.state ≠ .failed := by
    rcases claimable.2 with accepted | retrying | ⟨processing, -⟩
    · simp [accepted]
    · simp [retrying]
    · simp [processing]
  obtain ⟨uncompleted, unfailed⟩ := checked.open_ open_
  refine ⟨rfl, rfl, ⟨Nat.zero_le _, checked.retryCycle, by simp, by simp, ?_, ?_⟩, Nat.le_refl _,
    fun failed => absurd failed open_.2, fun completed => absurd completed open_.1⟩
  · simp [uncompleted]
  · simp [unfailed]

/-- An event that cannot precede a request in its state has no like among its events. -/
theorem AuditedDatabase.Ordered.unheard (ordered : s.Ordered)
    {record : AgreementDeletionRequestRecord} (member : record ∈ s.db.deletionRequests)
    {eventType : DeletionAuditEventType} {retryCycle : Nat}
    (impossible : ∀ event : AgreementDeletionAuditEventRecord, event.Precedes record →
      event.eventType = eventType → event.retryCycle ≠ retryCycle) :
    ∀ other ∈ s.auditEvents, other.cycle? ≠ (auditEvent record eventType retryCycle).cycle? := by
  intro other inside same
  obtain ⟨deletionId, named, same⟩ := Option.map_eq_some_iff.mp same
  obtain ⟨rfl, type, cycle⟩ : deletionId = record.id ∧ other.eventType = eventType ∧
      other.retryCycle = retryCycle := by simpa [auditEvent] using same
  obtain ⟨request, there, id, precedes⟩ := ordered.events other inside record.id named
  cases List.inj_on_of_nodup_map ordered.requests.ids there member id
  exact impossible other precedes type cycle

/-- The event of a call that has changed its request, after its other statements. -/
theorem AuditedDatabase.Ordered.audit {t : AuditedDatabase} (ordered : s.Ordered)
    (written : t.Ordered) (unwritten : t.auditEvents = s.auditEvents)
    {record new : AgreementDeletionRequestRecord} (member : record ∈ s.db.deletionRequests)
    (changed : new ∈ t.db.deletionRequests) (id : new.id = record.id)
    {eventType : DeletionAuditEventType} {retryCycle : Nat}
    (precedes : (auditEvent record eventType retryCycle).Precedes new)
    (impossible : ∀ event : AgreementDeletionAuditEventRecord, event.Precedes record →
      event.eventType = eventType → event.retryCycle ≠ retryCycle) :
    (t.write (.auditEvents (s.auditEvents ++
      [auditEvent record eventType retryCycle]))).Ordered := by
  rw [← unwritten]
  refine written.insertEvent changed (congrArg some id.symm) precedes ?_
  rw [unwritten]
  exact ordered.unheard member impossible

theorem AuditedDatabase.Ordered.scheduleOutbox (ordered : s.Ordered) (deletionIds : List Uuid)
    (nextAttemptAt : Time) (message : String) :
    (s.write (.outbox (s.db.scheduleOutbox deletionIds nextAttemptAt
      message).deletionOutbox)).Ordered := by
  refine ordered.mapOutbox (fun row => ?_) fun row member => ?_
  · split <;> rfl
  · split
    · exact ⟨Nat.zero_le _, by simp, by simp⟩
    · exact ordered.outbox.checked row member

theorem AuditedDatabase.Ordered.noteObjectError (ordered : s.Ordered) {after : Database}
    {deletion : AgreementDeletion} {objectId : Nat} {message : String}
    (noted : after.deletionObjects = (s.db.noteObjectError deletion objectId
      message).deletionObjects) : (s.write (.objects after)).Ordered := by
  refine ordered.mapObjects (fun row => ?_) noted
  split <;> rfl

theorem redriveWrites_ordered (ordered : s.Ordered) {request : AgreementDeletionRequestRecord}
    (member : request ∈ s.db.deletionRequests) (now : Time) :
    OrderedWrites s (redriveWrites s request now) := by
  unfold redriveWrites
  by_cases failed : request.state = .failed
  case neg =>
    rw [if_pos failed]
    trivial
  rw [if_neg (not_not_intro failed)]
  have opened : (s.write (.requests (redriveDeletion s.db request now).deletionRequests)).Ordered := by
    rw [redriveDeletion, if_neg (not_not_intro failed)]
    refine ordered.changeRequest member (fun row hit => hit) ?_
    exact .redrive (ordered.requests.checked request member) failed now
  have woken : ((s.write (.requests (redriveDeletion s.db request now).deletionRequests)).write
      (.outbox (redriveDeletion s.db request now).deletionOutbox)).Ordered := by
    rw [redriveDeletion, if_neg (not_not_intro failed)] at opened ⊢
    refine opened.mapOutbox (fun row => ?_) fun row there => ?_
    · split <;> rfl
    · split
      · exact ⟨Nat.zero_le _, by simp, by simp⟩
      · exact ordered.outbox.checked row there
  refine ⟨opened, woken, ?_, trivial⟩
  rw [redriveDeletion, if_neg (not_not_intro failed)] at woken ⊢
  refine ordered.audit woken rfl member (mem_update.mpr ⟨request, member, if_pos rfl⟩) rfl
    ⟨Nat.le_refl _, by intros; contradiction, by intros; contradiction⟩
    fun event precedes _ => ?_
  have known := precedes.cycle
  omega

theorem inventoryRows_listings (deletionId agreementId : Uuid) (next : Nat)
    {objects : List (ObjectCategory × String)} (distinct : objects.Nodup) :
    ((inventoryRows deletionId agreementId next objects).map (·.listing)).Nodup := by
  refine List.pairwise_iff_getElem.mpr fun i j first second earlier same => ?_
  simp only [inventoryRows, List.getElem_map, List.getElem_mapIdx,
    AgreementDeletionObjectRecord.listing, Prod.mk.injEq, true_and] at same
  exact List.pairwise_iff_getElem.mp distinct i j _ _ earlier (Prod.ext same.1 same.2)

theorem acceptWrites_ordered (ordered : s.Ordered) {agreement : AgreementRecord}
    {deletionId : Uuid} (fresh : ∀ request ∈ s.db.deletionRequests, request.id ≠ deletionId)
    (unrequested : ∀ request ∈ s.db.deletionRequests, request.agreementId ≠ agreement.id)
    (now : Time) : OrderedWrites s (acceptWrites s agreement deletionId now) := by
  have lawful := ordered.requests
  have rows : RequestsLawful (insertDeletion s.db agreement deletionId now).deletionRequests := by
    refine ⟨fun row member => ?_, ?_, ?_, ?_⟩
    · rcases List.mem_append.mp member with old | new
      · exact lawful.checked row old
      · rw [List.mem_singleton.mp new]
        exact ⟨Nat.le_refl 0, Nat.le_refl 1, by simp, by simp, by simp, by simp⟩
    · refine nodup_map_concat lawful.ids fun row member => fresh row member
    · refine nodup_map_concat lawful.agreements fun row member => unrequested row member
    · refine nodup_map_concat lawful.scopes fun row member same => ?_
      exact fresh row member (congrArg Prod.fst same)
  have inserted : (s.write (.requests (insertDeletion s.db agreement deletionId
      now).deletionRequests)).Ordered := by
    refine ordered.writeRequests rows fun row member => ?_
    exact ⟨row, List.mem_append_left _ member, .refl (lawful.checked row member)⟩
  have owner : ∃ request ∈ (insertDeletion s.db agreement deletionId now).deletionRequests,
      request.id = deletionId :=
    ⟨_, List.mem_append_right _ (List.mem_singleton_self _), rfl⟩
  have objects : ObjectsLawful (insertDeletion s.db agreement deletionId now).deletionObjects := by
    rw [ObjectsLawful, insertDeletion, List.map_append]
    refine List.nodup_append.mpr ⟨ordered.objects,
      inventoryRows_listings _ _ _ (nodup_eraseDups _), fun listing old other new same => ?_⟩
    obtain ⟨object, there, listed⟩ := List.mem_map.mp old
    obtain ⟨row, made, lists⟩ := List.mem_map.mp new
    obtain ⟨i, _, rfl⟩ := List.mem_mapIdx.mp made
    obtain ⟨request, member, named⟩ := ordered.objectOwners object there
    have owner : object.deletionId = deletionId :=
      congrArg Prod.fst (listed.trans (same.trans lists.symm))
    exact fresh request member (named.trans owner)
  have listed : ((s.write (.requests (insertDeletion s.db agreement deletionId
      now).deletionRequests)).write (.objects (insertDeletion s.db agreement deletionId
        now))).Ordered := by
    refine inserted.writeObjects objects fun object member => ?_
    rcases List.mem_append.mp member with old | new
    · exact inserted.objectOwners object old
    · obtain ⟨i, -, rfl⟩ := List.mem_mapIdx.mp new
      exact owner
  obtain ⟨request, member, named⟩ := owner
  let event : AgreementDeletionAuditEventRecord := {
    organizationId := agreement.organizationId, workspaceId := agreement.workspaceId
    agreementId := agreement.id, deletionId := some deletionId, eventType := .requested
    retryCycle := 1 }
  have positive : 1 ≤ request.retryCycle := (rows.checked request member).retryCycle
  have requested := listed.insertEvent (show request ∈ _ from member)
    (show event.deletionId = some request.id from congrArg some named.symm)
    ⟨positive, nofun, nofun⟩ fun other there same => by
      obtain ⟨id, known, cycle⟩ := Option.map_eq_some_iff.mp same
      obtain ⟨old, present, of_, -⟩ := ordered.events other there id known
      exact fresh old present (of_.trans (congrArg Prod.fst cycle))
  have outbox : OutboxLawful (insertDeletion s.db agreement deletionId now).deletionOutbox := by
    refine ⟨fun row inside => ?_, nodup_map_concat ordered.outbox.deletions fun row inside same => ?_⟩
    · rcases List.mem_append.mp inside with old | new
      · exact ordered.outbox.checked row old
      · rw [List.mem_singleton.mp new]
        exact ⟨Nat.le_refl 0, by simp, by simp⟩
    · obtain ⟨old, present, of_⟩ := ordered.outboxOwners row inside
      exact fresh old present (of_.trans same)
  have woken := requested.writeOutbox outbox fun row inside => by
    rcases List.mem_append.mp inside with old | new
    · exact requested.outboxOwners row old
    · rw [List.mem_singleton.mp new]
      exact ⟨request, member, named⟩
  exact ⟨inserted, listed, requested, woken, woken.writeOthers _, trivial⟩

theorem finishWrites_ordered (ordered : s.Ordered) {deletion : AgreementDeletion}
    (claimed : (s.db.lockedClaim? deletion).isSome = true) (objectId : Nat)
    (state : DeletionObjectState) (now : Time) (registry : List DocumentObjectRegistryRecord) :
    OrderedWrites s (finishWrites
      (finishObject { s.db with registry := registry } deletion objectId state now)) := by
  obtain ⟨record, found⟩ := Option.isSome_iff_exists.mp claimed
  obtain ⟨member, held⟩ := Database.lockedClaim?_eq_some found
  have checked := ordered.requests.checked record member
  have others := ordered.writeOthers
    (finishObject { s.db with registry := registry } deletion objectId state now)
  have finished : ((s.write (.others (finishObject { s.db with registry := registry } deletion
      objectId state now))).write (.objects (finishObject { s.db with registry := registry }
        deletion objectId state now))).Ordered := by
    refine others.mapObjects (fun row => ?_) rfl
    split <;> rfl
  refine ⟨others, finished, finished.updateClaimed found ⟨rfl, rfl, ?_, Nat.le_refl _, .inl, .inl⟩,
    trivial⟩
  exact { checked with
    leasePair := by simp [held.2.2.2.2]
    processingLease := by simp [held.2.2.2.1, held.2.2.2.2] }

/-- The writes of a claimant that gives up its request for now. -/
theorem release_ordered {t : AuditedDatabase} (written : t.Ordered) {deletion : AgreementDeletion}
    {record : AgreementDeletionRequestRecord} (found : t.db.lockedClaim? deletion = some record)
    (category message : String) (nextRetryAt : Time) :
    OrderedWrites t [
      .requests (t.db.retryClaim deletion category message nextRetryAt).deletionRequests,
      .outbox (t.db.retryClaim deletion category message nextRetryAt).deletionOutbox] := by
  obtain ⟨member, held⟩ := Database.lockedClaim?_eq_some found
  have released : (t.write (.requests (t.db.retryClaim deletion category message
      nextRetryAt).deletionRequests)).Ordered := by
    refine written.updateClaimed found ?_
    exact .release (written.requests.checked record member) held.2.2.2.1 category message nextRetryAt
  exact ⟨released, released.scheduleOutbox [deletion.id] nextRetryAt message, trivial⟩

/-- The writes of a claimant that gives up its request for good, with the event. -/
theorem fail_ordered {t : AuditedDatabase} (written : t.Ordered) {deletion : AgreementDeletion}
    {record : AgreementDeletionRequestRecord} (found : t.db.lockedClaim? deletion = some record)
    (category message : String) (now : Time) :
    OrderedWrites t [
      .requests (t.db.failClaim deletion category message now).deletionRequests,
      .outbox (t.db.failClaim deletion category message now).deletionOutbox,
      t.insertTerminalAudit record .failed] := by
  obtain ⟨member, held⟩ := Database.lockedClaim?_eq_some found
  have ended : (t.write (.requests (t.db.failClaim deletion category message
      now).deletionRequests)).Ordered := by
    refine written.updateClaimed found ?_
    exact .fail (written.requests.checked record member) held.2.2.2.1 category message now
  have woken := ended.scheduleOutbox [deletion.id] now message
  refine ⟨ended, woken, ?_, trivial⟩
  refine written.audit woken rfl member
    (List.mem_map.mpr ⟨record, member, if_pos ⟨held.1, held.2.2.2.2⟩⟩) rfl
    ⟨Nat.le_refl _, fun _ _ => rfl, nofun⟩ fun event precedes type cycle => ?_
  have state := precedes.failed type cycle
  rw [held.2.2.2.1] at state
  cases state

theorem claim_ordered (ordered : s.Ordered) {deletionId organizationId workspaceId : Uuid}
    {now : Time} {claimToken : Uuid} {claimed : AgreementDeletion} {after : Database}
    (outcome : claimDeletion s.db deletionId organizationId workspaceId now claimToken =
      (some claimed, after)) : OrderedWrites s [.requests after.deletionRequests] := by
  unfold claimDeletion at outcome
  split at outcome
  · cases outcome
  rename_i request found
  cases outcome
  have member := List.mem_of_find?_eq_some found
  have facts := List.find?_some found
  simp only [decide_eq_true_eq] at facts
  obtain ⟨rfl, -, -, claimable⟩ := facts
  refine ⟨ordered.changeRequest member (fun row hit => hit) ?_, trivial⟩
  exact .claim (ordered.requests.checked request member) claimable claimToken

theorem recover_ordered (ordered : s.Ordered) (organizationId : Uuid) (now : Time) :
    OrderedWrites s [.requests (recoverStaleDeletions s.db organizationId now).deletionRequests,
      .outbox (recoverStaleDeletions s.db organizationId now).deletionOutbox] := by
  have recovered : (s.write (.requests (recoverStaleDeletions s.db organizationId
      now).deletionRequests)).Ordered := by
    refine ordered.mapRequests fun row member => ?_
    have checked := ordered.requests.checked row member
    split
    · rename_i listed
      obtain ⟨other, stale, same⟩ := List.mem_map.mp listed
      obtain ⟨there, -, processing, -⟩ : other ∈ s.db.deletionRequests ∧
        other.Stale organizationId now := by simpa using List.mem_filter.mp stale
      cases List.inj_on_of_nodup_map ordered.requests.ids there member same
      exact .release checked processing "database_cleanup" "Expired deletion lease recovered" now
    · exact .refl checked
  exact ⟨recovered, recovered.scheduleOutbox _ now "Expired deletion lease recovered", trivial⟩

theorem purgeWrites_ordered (ordered : s.Ordered) {deletion : AgreementDeletion}
    {record : AgreementDeletionRequestRecord} (found : s.db.lockedClaim? deletion = some record)
    (now : Time) : OrderedWrites s (purgeWrites s deletion record now).writes := by
  obtain ⟨member, held⟩ := Database.lockedClaim?_eq_some found
  have others := ordered.writeOthers (purgedRows s.db deletion)
  have objects : ((s.write (.others (purgedRows s.db deletion))).write
      (.objects (purgedRows s.db deletion))).Ordered := by
    refine others.writeObjects ?_ fun object there => ?_
    · exact ordered.objects.sublist (List.filter_sublist.map _)
    · exact ordered.objectOwners object (List.mem_of_mem_filter there)
  have outbox : (((s.write (.others (purgedRows s.db deletion))).write
      (.objects (purgedRows s.db deletion))).write
        (.outbox (purgedRows s.db deletion).deletionOutbox)).Ordered := by
    refine objects.writeOutbox ⟨fun row there => ?_, ?_⟩ fun row there => ?_
    · exact ordered.outbox.checked row (List.mem_of_mem_filter there)
    · exact ordered.outbox.deletions.sublist (List.filter_sublist.map _)
    · exact ordered.outboxOwners row (List.mem_of_mem_filter there)
  unfold purgeWrites purgeOwnedRows
  by_cases tombstone :
      (s.db.agreements.filter fun agreement => agreement.isTombstone deletion).length = 1
  case neg =>
    rw [if_neg tombstone]
    exact ⟨others, objects, outbox, trivial⟩
  rw [if_pos tombstone]
  have completed : ((((s.write (.others (purgedRows s.db deletion))).write
      (.objects (purgedRows s.db deletion))).write
        (.outbox (purgedRows s.db deletion).deletionOutbox)).write (.requests
          ((purgedRows s.db deletion).updateClaimed deletion
            (completeRequest now)).deletionRequests)).Ordered := by
    refine outbox.updateClaimed found ?_
    exact .complete (ordered.requests.checked record member) held.2.2.2.1 now
  refine ⟨others, objects, outbox, completed, ?_, trivial⟩
  refine ordered.audit completed rfl member
    (List.mem_map.mpr ⟨record, member, if_pos ⟨held.1, held.2.2.2.2⟩⟩) rfl
    ⟨Nat.le_refl _, nofun, fun _ _ => rfl⟩ fun event precedes type cycle => ?_
  have state := precedes.completed type cycle
  rw [held.2.2.2.1] at state
  cases state

theorem recordLateObject_lawful (ordered : s.Ordered) {request : AgreementDeletionRequestRecord}
    (member : request ∈ s.db.deletionRequests) (context : ArtifactContext)
    (category : ObjectCategory) (key : String) :
    let rows := recordLateObject s.db.deletionObjects s.db.nextObjectId request context category key
    ObjectsLawful rows ∧ ∀ object ∈ rows,
      ∃ request ∈ s.db.deletionRequests, request.id = object.deletionId := by
  unfold recordLateObject
  split
  · have keeps : ∀ row ∈ s.db.deletionObjects, AgreementDeletionObjectRecord.listing
        (if row.deletionId = request.id ∧ row.category = category ∧ row.objectKey = key ∧
          row.state ≠ .pending
        then { row with state := .pending, lastError := none } else row) = row.listing := by
      intro row _
      split <;> rfl
    refine ⟨?_, fun object there => ?_⟩
    · rw [ObjectsLawful, map_map_of_keeps keeps]
      exact ordered.objects
    · obtain ⟨old, present, rfl⟩ := List.mem_map.mp there
      obtain ⟨owner, here, same⟩ := ordered.objectOwners old present
      exact ⟨owner, here, same.trans (congrArg Prod.fst (keeps old present)).symm⟩
  · rename_i absent
    refine ⟨nodup_map_concat ordered.objects fun row there same => absent ?_, fun object there => ?_⟩
    · refine List.any_eq_true.mpr ⟨row, there, ?_⟩
      simpa [AgreementDeletionObjectRecord.listing] using same
    · rcases List.mem_append.mp there with old | new
      · exact ordered.objectOwners object old
      · rw [List.mem_singleton.mp new]
        exact ⟨request, member, rfl⟩

theorem AuditedDatabase.Ordered.wakeOutbox (ordered : s.Ordered)
    {request : AgreementDeletionRequestRecord} (member : request ∈ s.db.deletionRequests)
    (agreementId : Uuid) (now : Time) :
    (s.write (.outbox (wakeOutbox s.db.deletionOutbox request.id agreementId now))).Ordered := by
  unfold Agreements.wakeOutbox
  split
  · refine ordered.mapOutbox (fun row => ?_) fun row there => ?_
    · split <;> rfl
    · split
      · exact ⟨Nat.zero_le _, by simp, by simp⟩
      · exact ordered.outbox.checked row there
  · rename_i absent
    refine ordered.writeOutbox ⟨fun row there => ?_, ?_⟩ fun row there => ?_
    · rcases List.mem_append.mp there with old | new
      · exact ordered.outbox.checked row old
      · rw [List.mem_singleton.mp new]
        exact ⟨Nat.le_refl 0, by simp, by simp⟩
    · refine nodup_map_concat ordered.outbox.deletions fun row there same => absent ?_
      exact List.any_eq_true.mpr ⟨row, there, by simpa using same⟩
    · rcases List.mem_append.mp there with old | new
      · exact ordered.outboxOwners row old
      · rw [List.mem_singleton.mp new]
        exact ⟨request, member, rfl⟩

theorem inventoryLate_ordered (ordered : s.Ordered) {context : ArtifactContext} {key : String}
    {now : Time} {after : Database}
    (outcome : inventoryLateArtifact s.db context key now = .ok after) :
    OrderedWrites s [.objects after, .requests after.deletionRequests,
      .outbox after.deletionOutbox] := by
  obtain ⟨request, found, ⟨-, rfl⟩ | ⟨category, -, rfl⟩⟩ := inventoryLateArtifact_ok outcome
  · exact ⟨{ ordered with }, { ordered with }, { ordered with }, trivial⟩
  have member : request ∈ s.db.deletionRequests := List.mem_of_find?_eq_some found
  obtain ⟨lawful, owners⟩ := recordLateObject_lawful ordered member context category key
  have listed : (s.write (.objects { s.db with
      deletionObjects :=
        recordLateObject s.db.deletionObjects s.db.nextObjectId request context category key
      nextObjectId := s.db.nextObjectId + 1
      deletionRequests := update (·.id) s.db.deletionRequests request.id (reopen now)
      deletionOutbox :=
        wakeOutbox s.db.deletionOutbox request.id context.agreementId now })).Ordered :=
    ordered.writeObjects lawful owners
  have reopened := listed.changeRequest member (fun row (hit : row.id = request.id) => hit)
    (.reopen (ordered.requests.checked request member) now)
  have inside : reopen now request ∈ update (·.id) s.db.deletionRequests request.id (reopen now) :=
    mem_update.mpr ⟨request, member, if_pos rfl⟩
  exact ⟨listed, reopened, reopened.wakeOutbox inside context.agreementId now, trivial⟩

/-! Requests and the mark on their agreements -/

/-- The agreement of a request is marked as deletion-requested. -/
def AuditedDatabase.Requested (s : AuditedDatabase) : Prop :=
  ∀ request ∈ s.db.deletionRequests, ∀ agreement ∈ s.db.agreements,
    agreement.id = request.agreementId → agreement.deletionRequestedAt.isSome = true

/-- A call that adds no request and takes no mark away. -/
structure KeepsMarks (before after : Database) : Prop where
  requests : ∀ row ∈ after.deletionRequests,
    ∃ old ∈ before.deletionRequests, old.agreementId = row.agreementId
  agreements : ∀ row ∈ after.agreements, ∃ old ∈ before.agreements, old.Becomes row

theorem KeepsMarks.refl (db : Database) : KeepsMarks db db :=
  ⟨fun row member => ⟨row, member, rfl⟩, fun row member => ⟨row, member, .refl row⟩⟩

theorem KeepsMarks.map {before after : Database}
    {change : AgreementDeletionRequestRecord → AgreementDeletionRequestRecord}
    (requests : after.deletionRequests = before.deletionRequests.map change)
    (keeps : ∀ row, (change row).agreementId = row.agreementId)
    (agreements : ∀ row ∈ after.agreements, ∃ old ∈ before.agreements, old.Becomes row) :
    KeepsMarks before after := by
  refine ⟨fun row member => ?_, agreements⟩
  rw [requests] at member
  obtain ⟨old, there, rfl⟩ := List.mem_map.mp member
  exact ⟨old, there, (keeps old).symm⟩

theorem AuditedDatabase.Requested.keeps {t : AuditedDatabase} (requested : s.Requested)
    (keeps : KeepsMarks s.db t.db) : t.Requested := by
  intro request member agreement inside same
  obtain ⟨old, there, named⟩ := keeps.requests request member
  obtain ⟨before, present, becomes⟩ := keeps.agreements agreement inside
  refine becomes.requested (requested old there before present ?_)
  have id : agreement.id = before.id := congrArg Scope.agreementId becomes.scope
  rw [← id, same, named]

theorem redriveDeletion_keeps (db : Database) (request : AgreementDeletionRequestRecord)
    (now : Time) : KeepsMarks db (redriveDeletion db request now) := by
  unfold redriveDeletion
  split
  · exact .refl db
  · refine .map rfl (fun row => ?_) fun row member => ⟨row, member, .refl row⟩
    split <;> rfl

theorem insertDeletion_requested {t : AuditedDatabase} (requested : s.Requested)
    {agreement : AgreementRecord} {deletionId : Uuid} {now : Time}
    (inserted : t.db = insertDeletion s.db agreement deletionId now) : t.Requested := by
  intro request member row inside same
  rw [inserted] at member inside
  obtain ⟨old, there, rfl⟩ := mem_update.mp inside
  by_cases here : old.id = agreement.id
  · rw [if_pos here]
    rfl
  rw [if_neg here] at same ⊢
  rcases List.mem_append.mp member with known | new
  · exact requested request known old there same
  · rw [List.mem_singleton.mp new] at same
    exact absurd same here

/-- Every call but an acceptance keeps the marks as they are. -/
theorem callOutcome_keeps {db after : Database} {call : DeletionCall}
    (later : ∀ organizationId workspaceId agreementId deletionId now,
      call ≠ .acceptDeletion organizationId workspaceId agreementId deletionId now)
    (outcome : callOutcome db call = .ok after) : KeepsMarks db after := by
  have still {rows : List AgreementRecord} (same : rows = db.agreements) :
      ∀ row ∈ rows, ∃ old ∈ db.agreements, old.Becomes row :=
    fun row member => ⟨row, same ▸ member, .refl row⟩
  cases call with
  | acceptDeletion organizationId workspaceId agreementId deletionId now =>
      exact absurd rfl (later organizationId workspaceId agreementId deletionId now)
  | redriveDeletion deletionId now =>
      cases outcome
      cases db.deletionRequests.find? fun request => request.id = deletionId with
      | none => exact .refl db
      | some request => exact redriveDeletion_keeps db request now
  | claim deletionId organizationId workspaceId now claimToken =>
      cases outcome
      unfold claimDeletion
      split
      · exact .refl db
      · refine .map rfl (fun row => ?_) (still rfl)
        split <;> rfl
  | markDeleted deletion item now =>
      simp only [callOutcome, markDeleted] at outcome
      split at outcome
      · cases outcome
      · cases outcome
        refine .map rfl (fun row => ?_) (still rfl)
        split <;> rfl
  | deleteSource storage deletion item now =>
      obtain ⟨-, ⟨-, rfl⟩ | ⟨-, registry, state, rfl⟩⟩ := deleteSource_ok outcome
      · exact .refl _
      · refine .map rfl (fun row => ?_) (still rfl)
        split <;> rfl
  | retry deletion objectId message nextRetryAt =>
      cases outcome
      unfold retryObject
      split
      · refine .map rfl (fun row => ?_) (still rfl)
        split <;> rfl
      · exact .refl db
  | fail deletion objectId message now =>
      cases outcome
      unfold failObject
      split
      · refine .map rfl (fun row => ?_) (still rfl)
        split <;> rfl
      · exact .refl db
  | retryDatabaseCleanup deletion message nextRetryAt =>
      cases outcome
      unfold retryDatabaseCleanup
      split
      · refine .map rfl (fun row => ?_) (still rfl)
        split <;> rfl
      · exact .refl db
  | failDatabaseCleanup deletion message now =>
      cases outcome
      unfold failDatabaseCleanup
      split
      · refine .map rfl (fun row => ?_) (still rfl)
        split <;> rfl
      · exact .refl db
  | recoverStaleDeletions organizationId now =>
      cases outcome
      refine .map rfl (fun row => ?_) (still rfl)
      split <;> rfl
  | completeAndPurge deletion now =>
      have agreements := (Frame.completeAndPurge outcome).agreements
      rcases completeAndPurge_ok outcome with ⟨-, rfl⟩ | ⟨-, -, -, rfl⟩
      · exact .refl _
      · refine .map rfl (fun row => ?_) agreements
        split <;> rfl
  | inventoryLateArtifact context key now =>
      obtain ⟨request, -, ⟨-, rfl⟩ | ⟨category, -, rfl⟩⟩ := inventoryLateArtifact_ok outcome
      · exact .refl _
      · refine .map rfl (fun row => ?_) (still rfl)
        split <;> rfl
  | claimDueOutbox organizationId now token =>
      cases outcome
      unfold claimDueOutbox
      split <;> exact ⟨fun row member => ⟨row, member, rfl⟩, still rfl⟩
  | markOutboxDelivered message now =>
      cases outcome
      exact ⟨fun row member => ⟨row, member, rfl⟩, still rfl⟩
  | releaseOutbox message nextAttemptAt =>
      cases outcome
      exact ⟨fun row member => ⟨row, member, rfl⟩, still rfl⟩

/-- `uuid4` draws an id that no request has. -/
def DrawsFreshId (s : AuditedDatabase) : DeletionCall → Prop
  | .acceptDeletion _ _ _ deletionId _ => ∀ request ∈ s.db.deletionRequests, request.id ≠ deletionId
  | _ => True

instance (s : AuditedDatabase) (call : DeletionCall) : Decidable (DrawsFreshId s call) := by
  cases call <;> unfold DrawsFreshId <;> infer_instance

theorem claimDueOutbox_ordered (ordered : s.Ordered) {organizationId token : Uuid} {now : Time}
    {message : ClaimedDeletionOutbox} {after : Database}
    (outcome : claimDueOutbox s.db organizationId now token = (some message, after)) :
    (s.write (.outbox after.deletionOutbox)).Ordered := by
  obtain ⟨taken, there, due, -, -, -, -, outbox⟩ := claimDueOutbox_some outcome
  rw [outbox]
  refine ordered.mapOutbox (fun row => ?_) fun row member => ?_
  · split <;> rfl
  · split
    · rename_i same
      cases List.inj_on_of_nodup_map ordered.outbox.deletions member there same
      exact ⟨Nat.zero_le _, by simp, .inl due.1⟩
    · exact ordered.outbox.checked row member

theorem transaction_ordered (ordered : s.Ordered) (requested : s.Requested) {call : DeletionCall}
    (fresh : DrawsFreshId s call) : OrderedWrites s (transaction s call).writes := by
  cases call with
  | acceptDeletion organizationId workspaceId agreementId deletionId now =>
      simp only [transaction]
      cases found : s.db.deletionRequest? agreementId organizationId workspaceId with
      | some request => exact redriveWrites_ordered ordered (List.mem_of_find?_eq_some found) now
      | none =>
          cases known : s.db.agreement? agreementId organizationId workspaceId with
          | none => trivial
          | some agreement =>
              by_cases marked : agreement.deletionRequestedAt.isSome = true
              · simp only [marked, if_true]
                trivial
              · simp only [marked]
                refine acceptWrites_ordered ordered fresh (fun request member same => marked ?_) now
                exact requested request member agreement
                  (Database.agreement?_eq_some known).1 same.symm
  | redriveDeletion deletionId now =>
      simp only [transaction]
      cases found : s.db.deletionRequests.find? fun request => request.id = deletionId with
      | none => trivial
      | some request => exact redriveWrites_ordered ordered (List.mem_of_find?_eq_some found) now
  | claim deletionId organizationId workspaceId now claimToken =>
      simp only [transaction]
      cases outcome : claimDeletion s.db deletionId organizationId workspaceId now claimToken with
      | mk claimed after =>
          cases claimed with
          | none => trivial
          | some deletion => exact claim_ordered ordered outcome
  | markDeleted deletion item now =>
      simp only [transaction, markDeleted]
      cases found : s.db.lockedClaim? deletion with
      | none => trivial
      | some record =>
          exact finishWrites_ordered ordered (by rw [found]; rfl) item.id .deleted now s.db.registry
  | deleteSource storage deletion item now =>
      simp only [transaction]
      split
      · trivial
      cases outcome : (deleteSourceIfUnreferenced s.db storage deletion item now).2 with
      | error raised => trivial
      | ok after =>
          obtain ⟨claimed, ⟨finished, -⟩ | ⟨-, registry, state, rfl⟩⟩ := deleteSource_ok outcome
          · rename_i waiting
            exact absurd finished waiting
          · exact finishWrites_ordered ordered claimed item.id state now registry
  | retry deletion objectId message nextRetryAt =>
      simp only [transaction, retryObject]
      cases found : s.db.lockedClaim? deletion with
      | none => trivial
      | some record =>
          have noted : (s.write (.objects (s.db.noteObjectError deletion objectId message))).Ordered :=
            ordered.noteObjectError rfl
          exact ⟨noted, release_ordered noted found "object_storage" message nextRetryAt⟩
  | fail deletion objectId message now =>
      simp only [transaction, failObject]
      cases found : s.db.lockedClaim? deletion with
      | none => trivial
      | some record =>
          have noted : (s.write (.objects (s.db.noteObjectError deletion objectId message))).Ordered :=
            ordered.noteObjectError rfl
          exact ⟨noted, fail_ordered noted found "object_storage" message now⟩
  | retryDatabaseCleanup deletion message nextRetryAt =>
      simp only [transaction, retryDatabaseCleanup]
      cases found : s.db.lockedClaim? deletion with
      | none => trivial
      | some record => exact release_ordered ordered found "database_cleanup" message nextRetryAt
  | failDatabaseCleanup deletion message now =>
      simp only [transaction, failDatabaseCleanup]
      cases found : s.db.lockedClaim? deletion with
      | none => trivial
      | some record => exact fail_ordered ordered found "database_cleanup" message now
  | recoverStaleDeletions organizationId now =>
      simp only [transaction]
      split
      · trivial
      · exact recover_ordered ordered organizationId now
  | completeAndPurge deletion now =>
      simp only [transaction]
      split
      · rename_i found
        split
        · trivial
        · exact purgeWrites_ordered ordered found now
      · trivial
  | inventoryLateArtifact context key now =>
      simp only [transaction]
      split
      · trivial
      cases outcome : inventoryLateArtifact s.db context key now with
      | error raised => trivial
      | ok after => exact inventoryLate_ordered ordered outcome
  | claimDueOutbox organizationId now token =>
      simp only [transaction]
      cases outcome : claimDueOutbox s.db organizationId now token with
      | mk message after =>
          cases message with
          | none => trivial
          | some message => exact ⟨claimDueOutbox_ordered ordered outcome, trivial⟩
  | markOutboxDelivered message now =>
      refine ⟨ordered.mapOutbox (fun row => ?_) fun row member => ?_, trivial⟩
      · split <;> rfl
      · split
        · exact ⟨Nat.zero_le _, by simp, by simp⟩
        · exact ordered.outbox.checked row member
  | releaseOutbox message nextAttemptAt =>
      refine ⟨ordered.mapOutbox (fun row => ?_) fun row member => ?_, trivial⟩
      · split <;> rfl
      · split
        · exact ⟨Nat.zero_le _, by simp, by simp⟩
        · exact ordered.outbox.checked row member

theorem auditedStep_ordered (ordered : s.Ordered) (requested : s.Requested) {call : DeletionCall}
    (fresh : DrawsFreshId s call) : (auditedStep s call).Ordered := by
  have writes := transaction_ordered ordered requested fresh
  unfold auditedStep Transaction.result
  split
  · exact writes.result ordered
  · exact ordered

theorem auditedStep_requested (requested : s.Requested) (call : DeletionCall) :
    (auditedStep s call).Requested := by
  cases outcome : callOutcome s.db call with
  | error raised =>
      refine requested.keeps ?_
      rw [auditedStep_db, outcome]
      exact .refl s.db
  | ok after =>
      have same : (auditedStep s call).db = after := by
        rw [auditedStep_db, outcome]
        rfl
      by_cases accepts : ∃ organizationId workspaceId agreementId deletionId now,
          call = .acceptDeletion organizationId workspaceId agreementId deletionId now
      · obtain ⟨organizationId, workspaceId, agreementId, deletionId, now, rfl⟩ := accepts
        rcases acceptDeletion_ok outcome with ⟨request, -, rfl⟩ | ⟨agreement, -, -, -, -, rfl⟩
        · exact requested.keeps (same ▸ redriveDeletion_keeps s.db request now)
        · exact insertDeletion_requested requested same
      · refine requested.keeps (same ▸ callOutcome_keeps ?_ outcome)
        exact fun organizationId workspaceId agreementId deletionId now equal =>
          accepts ⟨organizationId, workspaceId, agreementId, deletionId, now, equal⟩

end Calls

/-! Runs -/

/-- Every statement of a list leaves the constraints satisfied. -/
def LawfulWrites (s : AuditedDatabase) : List Write → Prop
  | [] => True
  | write :: rest => (s.write write).Lawful ∧ LawfulWrites (s.write write) rest

theorem OrderedWrites.lawful {s : AuditedDatabase} {writes : List Write}
    (ordered : OrderedWrites s writes) : LawfulWrites s writes := by
  induction writes generalizing s with
  | nil => trivial
  | cons write rest ih => exact ⟨ordered.1.toLawful, ih ordered.2⟩

/-- A database before any deletion is requested; older events have no deletion. -/
structure AuditedDatabase.Undeleted (s : AuditedDatabase) : Prop where
  requests : s.db.deletionRequests = []
  objects : s.db.deletionObjects = []
  outbox : s.db.deletionOutbox = []
  auditEvents : ∀ event ∈ s.auditEvents, event.deletionId = none

theorem AuditedDatabase.Undeleted.ordered {s : AuditedDatabase} (undeleted : s.Undeleted) :
    s.Ordered := by
  obtain ⟨requests, objects, outbox, events⟩ := undeleted
  have silent : s.auditEvents.filterMap (·.cycle?) = [] := by
    rw [List.filterMap_eq_nil_iff]
    intro event member
    rw [AgreementDeletionAuditEventRecord.cycle?, events event member]
    rfl
  refine ⟨⟨⟨?_, ?_, ?_, ?_⟩, ?_, ⟨?_, ?_⟩, ?_⟩, ?_, ?_, fun event member deletionId known => ?_⟩
  · simp [requests]
  · simp [requests]
  · simp [requests]
  · simp [requests]
  · simp [ObjectsLawful, objects]
  · simp [outbox]
  · simp [outbox]
  · simp [AuditLawful, silent]
  · simp [objects]
  · simp [outbox]
  · rw [events event member] at known
    cases known

/-- No statement of any call violates a constraint, in any order of the calls, and every
processing request has a lease. -/
theorem run_lawful {s : AuditedDatabase} {calls : List DeletionCall} (undeleted : s.Undeleted)
    (fresh : meetsAlong auditedStep DrawsFreshId s calls) :
    (∀ pre call post, calls = pre ++ call :: post →
      LawfulWrites (run auditedStep s pre) (transaction (run auditedStep s pre) call).writes) ∧
    (run auditedStep s calls).Lawful ∧
    ∀ request ∈ (run auditedStep s calls).db.deletionRequests, request.state = .processing →
      request.leaseExpiresAt.isSome = true := by
  have draws := meetsAlong_iff.mp fresh
  have start : s.Ordered ∧ s.Requested := by
    refine ⟨undeleted.ordered, fun request member => ?_⟩
    rw [undeleted.requests] at member
    cases member
  have along {before : List DeletionCall} (begins : before <+: calls) :
      (run auditedStep s before).Ordered ∧ (run auditedStep s before).Requested := by
    obtain ⟨after, rfl⟩ := begins
    refine run_invariant_along DrawsFreshId (fun s => s.Ordered ∧ s.Requested) start
      (fun s call fresh kept => ⟨auditedStep_ordered kept.1 kept.2 fresh,
        auditedStep_requested kept.2 call⟩) fun pre call post split => ?_
    exact draws pre call (post ++ after) (by rw [split, List.append_assoc, List.cons_append])
  have final := (along (List.prefix_refl calls)).1
  refine ⟨fun pre call post split => ?_, final.toLawful, fun request member processing => ?_⟩
  · have kept := along ⟨call :: post, split.symm⟩
    exact (transaction_ordered kept.1 kept.2 (draws pre call post split)).lawful
  · have checked := final.requests.checked request member
    have claimed := checked.processingLease.mp processing
    rw [Option.isSome_iff_ne_none]
    exact fun unleased => claimed (checked.leasePair.mpr unleased)

def sampleAudited : AuditedDatabase := ⟨sampleDatabase, []⟩

/-- A deletion that fails, is driven again and is opened once more by a late artifact. -/
def sampleDeletionCalls : List DeletionCall :=
  [.acceptDeletion (.ofNat 1) (.ofNat 2) (.ofNat 3) (.ofNat 7) 100,
    .claim (.ofNat 7) (.ofNat 1) (.ofNat 2) 110 (.ofNat 70),
    .failDatabaseCleanup sampleDeletion "stuck" 120,
    .acceptDeletion (.ofNat 1) (.ofNat 2) (.ofNat 3) (.ofNat 8) 130,
    .claimDueOutbox (.ofNat 1) 140 (.ofNat 71),
    .inventoryLateArtifact sampleJob.context "late.json" 150]

theorem run_lawful_sample :
    (∀ pre call post, sampleDeletionCalls = pre ++ call :: post →
      LawfulWrites (run auditedStep sampleAudited pre)
        (transaction (run auditedStep sampleAudited pre) call).writes) ∧
    (run auditedStep sampleAudited sampleDeletionCalls).Lawful ∧
    ∀ request ∈ (run auditedStep sampleAudited sampleDeletionCalls).db.deletionRequests,
      request.state = .processing → request.leaseExpiresAt.isSome = true :=
  run_lawful ⟨rfl, rfl, rfl, by simp [sampleAudited]⟩ (by decide +kernel)

end AgreementIntelligence.Agreements
