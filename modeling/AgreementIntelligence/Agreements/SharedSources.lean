import AgreementIntelligence.Agreements.SourceSessions
import AgreementIntelligence.Lib.Locks

/-! Who refers to a source object. A call on deletions adds no reference, and takes none from an
agreement but by marking it; what a version refers to is checked under the lock of the object. -/

namespace AgreementIntelligence.Agreements
open Identity Lib.Table Lib.Locks

namespace Database

variable {db after : Database} {organizationId workspaceId : Uuid} {key : String}

/-- The agreement is there, and its deletion has been requested. -/
def Marked (db : Database) (agreementId : Uuid) : Prop :=
  ∃ agreement ∈ db.agreements, agreement.id = agreementId ∧ agreement.deletionRequestedAt.isSome

/-- A version row of an agreement that is not marked refers to the object. -/
def VersionRefers (db : Database) (organizationId workspaceId : Uuid) (key : String) : Prop :=
  ∃ version ∈ db.versions, version.organizationId = organizationId ∧
    version.workspaceId = workspaceId ∧ version.storageKey = key ∧
    ∃ agreement ∈ db.agreements, agreement.id = version.agreementId ∧
      agreement.deletionRequestedAt = none

/-- The last file of an agreement that is not marked is the object. -/
def LastFileRefers (db : Database) (organizationId workspaceId : Uuid) (key : String) : Prop :=
  ∃ agreement ∈ db.agreements, agreement.organizationId = organizationId ∧
    agreement.workspaceId = workspaceId ∧ agreement.deletionRequestedAt = none ∧
    agreement.files.getLast?.map (·.storageKey) = some key

/-- Nobody refers to the object. -/
def Spared (db : Database) (organizationId workspaceId : Uuid) (key : String) : Prop :=
  ¬ db.VersionRefers organizationId workspaceId key ∧
    ¬ db.LastFileRefers organizationId workspaceId key

/-- A write that adds no reference. -/
structure Quiet (db after : Database) : Prop where
  scopes : after.agreements.map AgreementRecord.scope = db.agreements.map AgreementRecord.scope
  live : ∀ row ∈ after.agreements, row.deletionRequestedAt = none → row ∈ db.agreements
  marked : ∀ agreementId, db.Marked agreementId → after.Marked agreementId
  versions : after.versions ⊆ db.versions
  registry : after.registry = db.registry
  requests : ∀ request ∈ after.deletionRequests, (∃ old ∈ db.deletionRequests,
    old.agreementId = request.agreementId) ∨ after.Marked request.agreementId

/-- Neither agreements nor versions are written. -/
theorem Quiet.of_same (agreements : after.agreements = db.agreements)
    (versions : after.versions = db.versions) (registry : after.registry = db.registry)
    (requests : ∀ request ∈ after.deletionRequests, ∃ old ∈ db.deletionRequests,
      old.agreementId = request.agreementId) : db.Quiet after where
  scopes := by rw [agreements]
  live row member _ := agreements ▸ member
  marked agreementId marked := by
    rw [Marked, agreements]
    exact marked
  versions := versions ▸ List.Subset.refl _
  registry := registry
  requests request member := .inl (requests request member)

/-- Agreements are marked, or marked ones changed. -/
theorem Quiet.of_marks {change : AgreementRecord → AgreementRecord}
    (agreements : after.agreements = db.agreements.map change)
    (changes : ∀ row, change row = row ∨ (change row).deletionRequestedAt.isSome)
    (scopes : ∀ row, (change row).scope = row.scope) (versions : after.versions ⊆ db.versions)
    (registry : after.registry = db.registry)
    (requests : ∀ request ∈ after.deletionRequests, (∃ old ∈ db.deletionRequests,
      old.agreementId = request.agreementId) ∨ after.Marked request.agreementId) :
    db.Quiet after where
  scopes := by
    rw [agreements, map_map_of_keeps fun row _ => scopes row]
  live := by
    intro row member live
    rw [agreements] at member
    obtain ⟨old, there, rfl⟩ := List.mem_map.mp member
    obtain same | marked := changes old
    · rwa [same]
    · rw [live] at marked
      cases marked
  marked := by
    rintro agreementId ⟨row, member, id, marked⟩
    refine ⟨change row, agreements ▸ List.mem_map_of_mem member, ?_, ?_⟩
    · exact (congrArg Scope.agreementId (scopes row)).trans id
    · obtain same | still := changes row
      · exact same.symm ▸ marked
      · exact still
  versions := versions
  registry := registry
  requests := requests

theorem Quiet.versionRefers (quiet : db.Quiet after)
    (refers : after.VersionRefers organizationId workspaceId key) :
    db.VersionRefers organizationId workspaceId key := by
  obtain ⟨version, member, organization, workspace, same, agreement, there, id, live⟩ := refers
  exact ⟨version, quiet.versions member, organization, workspace, same, agreement,
    quiet.live agreement there live, id, live⟩

theorem Quiet.lastFileRefers (quiet : db.Quiet after)
    (refers : after.LastFileRefers organizationId workspaceId key) :
    db.LastFileRefers organizationId workspaceId key := by
  obtain ⟨agreement, member, organization, workspace, live, last⟩ := refers
  exact ⟨agreement, quiet.live agreement member live, organization, workspace, live, last⟩

theorem Quiet.spared (quiet : db.Quiet after)
    (spared : db.Spared organizationId workspaceId key) :
    after.Spared organizationId workspaceId key :=
  ⟨fun refers => spared.1 (quiet.versionRefers refers),
    fun refers => spared.2 (quiet.lastFileRefers refers)⟩

end Database

theorem redriveDeletion_quiet (db : Database) (request : AgreementDeletionRequestRecord)
    (now : Time) : db.Quiet (redriveDeletion db request now) := by
  refine .of_same ?_ ?_ ?_ (redriveDeletion_keeps db request now).requests <;>
    unfold redriveDeletion <;> split <;> rfl

/-- Every call on deletions but the removal of a source is quiet. -/
theorem callOutcome_quiet {db after : Database} {call : DeletionCall}
    (others : ∀ storage deletion item now, call ≠ .deleteSource storage deletion item now)
    (outcome : callOutcome db call = .ok after) : db.Quiet after := by
  have kept : (∀ organizationId workspaceId agreementId deletionId now,
      call ≠ .acceptDeletion organizationId workspaceId agreementId deletionId now) →
      ∀ row ∈ after.deletionRequests, ∃ old ∈ db.deletionRequests,
        old.agreementId = row.agreementId :=
    fun later => (callOutcome_keeps later outcome).requests
  cases call with
  | acceptDeletion organizationId workspaceId agreementId deletionId now =>
      obtain ⟨request, -, rfl⟩ | ⟨agreement, member, -, -, -, rfl⟩ := acceptDeletion_ok outcome
      · exact redriveDeletion_quiet db request now
      · refine .of_marks rfl (fun row => ?_) (fun row => ?_) (List.Subset.refl _) rfl
          fun request there => ?_
        · split
          · exact .inr rfl
          · exact .inl rfl
        · split <;> rfl
        · obtain old | new := List.mem_append.mp there
          · exact .inl ⟨request, old, rfl⟩
          · rw [List.mem_singleton.mp new]
            exact .inr ⟨_, List.mem_map_of_mem member, by rw [if_pos rfl], by rw [if_pos rfl]; rfl⟩
  | redriveDeletion deletionId now =>
      cases outcome
      cases db.deletionRequests.find? fun request => request.id = deletionId with
      | none => exact .of_same rfl rfl rfl fun row there => ⟨row, there, rfl⟩
      | some request => exact redriveDeletion_quiet db request now
  | deleteSource storage deletion item now => exact absurd rfl (others storage deletion item now)
  | completeAndPurge deletion now =>
      have same := kept (by simp)
      obtain ⟨-, rfl⟩ | ⟨-, -, -, rfl⟩ := completeAndPurge_ok outcome
      · exact .of_same rfl rfl rfl same
      · refine .of_marks rfl (fun row => ?_) (fun row => ?_) (List.filter_subset_self _) rfl
          fun request there => .inl (same request there)
        · split
          · rename_i tombstone
            simp only [AgreementRecord.isTombstone, decide_eq_true_eq] at tombstone
            exact .inr tombstone.2.2.2
          · exact .inl rfl
        · split <;> rfl
  | claim deletionId organizationId workspaceId now claimToken =>
      have same := kept (by simp)
      cases outcome
      refine .of_same ?_ ?_ ?_ same <;> unfold claimDeletion <;> split <;> rfl
  | markDeleted deletion item now =>
      have same := kept (by simp)
      simp only [callOutcome, markDeleted] at outcome
      split at outcome
      · cases outcome
      · cases outcome
        exact .of_same rfl rfl rfl same
  | retry deletion objectId message nextRetryAt =>
      have same := kept (by simp)
      cases outcome
      refine .of_same ?_ ?_ ?_ same <;> unfold retryObject <;> split <;> rfl
  | fail deletion objectId message now =>
      have same := kept (by simp)
      cases outcome
      refine .of_same ?_ ?_ ?_ same <;> unfold failObject <;> split <;> rfl
  | retryDatabaseCleanup deletion message nextRetryAt =>
      have same := kept (by simp)
      cases outcome
      refine .of_same ?_ ?_ ?_ same <;> unfold retryDatabaseCleanup <;> split <;> rfl
  | failDatabaseCleanup deletion message now =>
      have same := kept (by simp)
      cases outcome
      refine .of_same ?_ ?_ ?_ same <;> unfold failDatabaseCleanup <;> split <;> rfl
  | recoverStaleDeletions organizationId now =>
      have same := kept (by simp)
      cases outcome
      exact .of_same rfl rfl rfl same
  | inventoryLateArtifact context key now =>
      have same := kept (by simp)
      obtain ⟨request, -, ⟨-, rfl⟩ | ⟨category, -, rfl⟩⟩ := inventoryLateArtifact_ok outcome
      · exact .of_same rfl rfl rfl same
      · exact .of_same rfl rfl rfl same
  | claimDueOutbox organizationId now token =>
      have same := kept (by simp)
      cases outcome
      refine .of_same ?_ ?_ ?_ same <;> unfold claimDueOutbox <;> split <;> rfl
  | markOutboxDelivered message now =>
      have same := kept (by simp)
      cases outcome
      exact .of_same rfl rfl rfl same
  | releaseOutbox message nextAttemptAt =>
      have same := kept (by simp)
      cases outcome
      exact .of_same rfl rfl rfl same

/-! The commits of `AgreementService.create` and `AgreementVersionService.create` -/

/-- The version refers to the object. -/
def AgreementVersionRecord.Names (record : AgreementVersionRecord)
    (organizationId workspaceId : Uuid) (key : String) : Prop :=
  record.organizationId = organizationId ∧ record.workspaceId = workspaceId ∧
    record.storageKey = key

namespace Database

variable {db after : Database} {agreement : AgreementRecord} {record : AgreementVersionRecord}

/-- Keys and references of agreements and versions. -/
structure Keyed (db : Database) : Prop where
  ids : (db.agreements.map (·.id)).Nodup
  owned : ∀ version ∈ db.versions, ∃ agreement ∈ db.agreements, agreement.id = version.agreementId

theorem Keyed.quiet (keyed : db.Keyed) (quiet : db.Quiet after) : after.Keyed where
  ids := by
    have same := congrArg (List.map Scope.agreementId) quiet.scopes
    rw [List.map_map, List.map_map] at same
    exact same ▸ keyed.ids
  owned := by
    intro version member
    obtain ⟨agreement, there, id⟩ := keyed.owned version (quiet.versions member)
    obtain ⟨row, inside, same⟩ := exists_mem_of_map_eq quiet.scopes.symm there
    exact ⟨row, inside, (congrArg Scope.agreementId same).trans id⟩

/-- A commit that refers to the object of its version and to no other. -/
structure Adds (db after : Database) (version : Option AgreementVersionRecord) : Prop where
  keyed : after.Keyed
  scopes : ∀ row ∈ db.agreements, ∃ later ∈ after.agreements, later.scope = row.scope
  marked : ∀ agreementId, db.Marked agreementId → after.Marked agreementId
  requests : after.deletionRequests = db.deletionRequests
  registry : after.registry = db.registry
  versions : ∀ organizationId workspaceId key, after.VersionRefers organizationId workspaceId key →
    db.VersionRefers organizationId workspaceId key ∨
      ∃ record ∈ version, record.Names organizationId workspaceId key
  files : ∀ organizationId workspaceId key, after.LastFileRefers organizationId workspaceId key →
    db.LastFileRefers organizationId workspaceId key ∨
      ∃ record ∈ version, record.Names organizationId workspaceId key

theorem insertVersionRow_ok (outcome : db.insertVersionRow record = .ok after) :
    after = { db with versions := db.versions ++ [record] } := by
  unfold insertVersionRow at outcome
  split at outcome
  · cases outcome
  · cases outcome
    rfl

/-- The version of a new agreement stands for its last file. -/
structure Fits (agreement : AgreementRecord) (version : Option AgreementVersionRecord) : Prop where
  last : agreement.files.getLast?.map (·.storageKey) = version.map (·.storageKey)
  scope : ∀ record ∈ version, record.agreementId = agreement.id ∧
    record.organizationId = agreement.organizationId ∧ record.workspaceId = agreement.workspaceId

/-- Agreements after one more is inserted, with its version or without. -/
theorem Adds.of_new {version : Option AgreementVersionRecord} (keyed : db.Keyed)
    (fits : Fits agreement version) (free : ∀ other ∈ db.agreements, other.id ≠ agreement.id)
    {change : AgreementRecord → AgreementRecord}
    (agreements : after.agreements = (db.agreements ++ [agreement]).map change)
    (same : ∀ row, (change row).scope = row.scope ∧ (change row).files = row.files ∧
      (change row).deletionRequestedAt = row.deletionRequestedAt)
    (versions : after.versions = db.versions ++ version.toList)
    (requests : after.deletionRequests = db.deletionRequests)
    (registry : after.registry = db.registry) : db.Adds after version := by
  have id : ∀ row, (change row).id = row.id := fun row => congrArg Scope.agreementId (same row).1
  have rows : ∀ row ∈ after.agreements, ∃ old, (old ∈ db.agreements ∨ old = agreement) ∧
      change old = row := by
    intro row member
    rw [agreements] at member
    obtain ⟨old, there, rfl⟩ := List.mem_map.mp member
    rw [List.mem_append, List.mem_singleton] at there
    exact ⟨old, there, rfl⟩
  have kept : ∀ row ∈ db.agreements, change row ∈ after.agreements := fun row member =>
    agreements ▸ List.mem_map_of_mem (List.mem_append_left _ member)
  exact {
    keyed := {
      ids := by
        rw [agreements, map_map_of_keeps fun row _ => id row]
        exact nodup_map_concat keyed.ids free
      owned := by
        intro row member
        rw [versions, List.mem_append, Option.mem_toList] at member
        obtain old | new := member
        · obtain ⟨owner, there, named⟩ := keyed.owned row old
          exact ⟨change owner, kept owner there, (id owner).trans named⟩
        · exact ⟨change agreement, agreements ▸ List.mem_map_of_mem (by simp),
            (id agreement).trans (fits.scope row new).1.symm⟩ }
    scopes := fun row member => ⟨change row, kept row member, (same row).1⟩
    marked := by
      rintro agreementId ⟨row, member, named, marked⟩
      exact ⟨change row, kept row member, (id row).trans named, (same row).2.2 ▸ marked⟩
    requests := requests
    registry := registry
    versions := by
      rintro organizationId workspaceId key ⟨row, member, organization, workspace, here, owner,
        there, named, live⟩
      rw [versions, List.mem_append, Option.mem_toList] at member
      obtain old | new := member
      · refine .inl ⟨row, old, organization, workspace, here, ?_⟩
        obtain ⟨before, held | rfl, rfl⟩ := rows owner there
        · exact ⟨before, held, (id before).symm.trans named, (same before).2.2 ▸ live⟩
        · obtain ⟨other, known, ofVersion⟩ := keyed.owned row old
          exact absurd (ofVersion.trans (named.symm.trans (id before))) (free other known)
      · exact .inr ⟨row, new, organization, workspace, here⟩
    files := by
      rintro organizationId workspaceId key ⟨row, member, organization, workspace, live, last⟩
      obtain ⟨before, held | rfl, rfl⟩ := rows row member
      · have columns := (same before).1
        simp only [AgreementRecord.scope, Scope.mk.injEq] at columns
        exact .inl ⟨before, held, columns.2.1 ▸ organization, columns.2.2 ▸ workspace,
          (same before).2.2 ▸ live, (same before).2.1 ▸ last⟩
      · have columns := (same before).1
        simp only [AgreementRecord.scope, Scope.mk.injEq] at columns
        rw [(same before).2.1, fits.last] at last
        obtain ⟨record, made, key_⟩ := Option.map_eq_some_iff.mp last
        obtain ⟨-, organization', workspace'⟩ := fits.scope record made
        exact .inr ⟨record, made, organization'.trans (columns.2.1 ▸ organization),
          workspace'.trans (columns.2.2 ▸ workspace), key_⟩ }

theorem insertCreated_adds {version : Option AgreementVersionRecord} (keyed : db.Keyed)
    (fits : Fits agreement version) (outcome : db.insertCreated agreement version = .ok after) :
    db.Adds after version := by
  unfold insertCreated at outcome
  split at outcome
  · cases outcome
  rename_i taken
  have free : ∀ other ∈ db.agreements, other.id ≠ agreement.id := fun other member same =>
    taken (List.any_eq_true.mpr ⟨other, member, decide_eq_true same⟩)
  cases version with
  | none =>
      cases outcome
      exact .of_new keyed fits free (List.map_id _).symm (fun _ => ⟨rfl, rfl, rfl⟩) (by simp) rfl
        rfl
  | some record =>
      obtain ⟨inserted, inserts, done⟩ := Lib.Results.bind_ok.mp outcome
      cases done
      cases insertVersionRow_ok inserts
      refine .of_new keyed fits free rfl (fun row => ?_) rfl rfl rfl
      split <;> exact ⟨rfl, rfl, rfl⟩

theorem insertPlanned_adds (keyed : db.Keyed)
    (scope : record.agreementId = agreement.id ∧ record.organizationId = agreement.organizationId ∧
      record.workspaceId = agreement.workspaceId)
    (known : agreement.scope ∈ db.agreements.map AgreementRecord.scope)
    (outcome : db.insertPlanned agreement record = .ok after) : db.Adds after (some record) := by
  obtain ⟨inserted, inserts, done⟩ := Lib.Results.bind_ok.mp outcome
  cases done
  cases insertVersionRow_ok inserts
  obtain ⟨owner, there, named⟩ := List.mem_map.mp known
  simp only [AgreementRecord.scope, Scope.mk.injEq] at named
  have rows : ∀ row ∈ update (·.id) db.agreements agreement.id (fun row => { row with
      files := [⟨record.storageKey, record.checksum, record.contentType⟩]
      currentVersionId := some record.id, processingState := ProcessingState.pending
      archivedAt := agreement.archivedAt }),
      ∃ old ∈ db.agreements, row.scope = old.scope ∧
        row.deletionRequestedAt = old.deletionRequestedAt ∧
        (row.files = old.files ∨ old.id = agreement.id ∧
          row.files = [⟨record.storageKey, record.checksum, record.contentType⟩]) := by
    intro row member
    obtain ⟨old, held, rfl⟩ := mem_update.mp member
    split
    · rename_i here
      exact ⟨old, held, rfl, rfl, .inr ⟨here, rfl⟩⟩
    · exact ⟨old, held, rfl, rfl, .inl rfl⟩
  have kept : ∀ row ∈ db.agreements, ∃ later ∈ update (·.id) db.agreements agreement.id
      (fun row => { row with
        files := [⟨record.storageKey, record.checksum, record.contentType⟩]
        currentVersionId := some record.id, processingState := ProcessingState.pending
        archivedAt := agreement.archivedAt }),
      later.scope = row.scope ∧ later.deletionRequestedAt = row.deletionRequestedAt := by
    intro row member
    refine ⟨_, List.mem_map_of_mem member, ?_⟩
    split <;> exact ⟨rfl, rfl⟩
  exact {
    keyed := {
      ids := nodup_update (fun _ => rfl) keyed.ids
      owned := by
        intro row member
        obtain old | new := List.mem_append.mp member
        · obtain ⟨before, held, id⟩ := keyed.owned row old
          obtain ⟨later, inside, same, -⟩ := kept before held
          exact ⟨later, inside, (congrArg Scope.agreementId same).trans id⟩
        · obtain ⟨later, inside, same, -⟩ := kept owner there
          rw [List.mem_singleton.mp new]
          exact ⟨later, inside, (congrArg Scope.agreementId same).trans
            (named.1.trans scope.1.symm)⟩ }
    scopes := fun row member => by
      obtain ⟨later, inside, same, -⟩ := kept row member
      exact ⟨later, inside, same⟩
    marked := by
      rintro agreementId ⟨row, member, id, marked⟩
      obtain ⟨later, inside, same, still⟩ := kept row member
      exact ⟨later, inside, (congrArg Scope.agreementId same).trans id, still ▸ marked⟩
    requests := rfl
    registry := rfl
    versions := by
      rintro organizationId workspaceId key ⟨row, member, organization, workspace, here, later,
        inside, id, live⟩
      obtain old | new := List.mem_append.mp member
      · obtain ⟨before, held, same, still, -⟩ := rows later inside
        exact .inl ⟨row, old, organization, workspace, here, before, held,
          (congrArg Scope.agreementId same).symm.trans id, still ▸ live⟩
      · cases List.mem_singleton.mp new
        exact .inr ⟨record, rfl, organization, workspace, here⟩
    files := by
      rintro organizationId workspaceId key ⟨row, member, organization, workspace, live, last⟩
      obtain ⟨before, held, same, still, files⟩ := rows row member
      simp only [AgreementRecord.scope, Scope.mk.injEq] at same
      obtain untouched | ⟨here, new⟩ := files
      · exact .inl ⟨before, held, same.2.1 ▸ organization, same.2.2 ▸ workspace, still ▸ live,
          untouched ▸ last⟩
      · have equal : before = owner :=
          List.inj_on_of_nodup_map keyed.ids held there (here.trans named.1.symm)
        rw [new] at last
        refine .inr ⟨record, rfl, ?_, ?_, by simpa using last⟩
        · rw [scope.2.1, ← named.2.1, ← equal, ← same.2.1, organization]
        · rw [scope.2.2, ← named.2.2, ← equal, ← same.2.2, workspace] }

end Database

end AgreementIntelligence.Agreements
