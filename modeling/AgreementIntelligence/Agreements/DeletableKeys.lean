import AgreementIntelligence.Agreements.Catalog
import AgreementIntelligence.Agreements.Attempts
import AgreementIntelligence.Agreements.Frame
import AgreementIntelligence.Agreements.Ledger

/-! Every recorded key is one that the deletion worker accepts, as long as three producers keep
to the grammar: requests that create agreements, callers that reserve a package, and the
migration, which must not find a package to repair. The rows of the workers follow: an
analysis key is accepted when the checksum in it is a digest, and the other keys are made
of identifiers. -/

namespace AgreementIntelligence.Agreements
open Identity Lib.Table Lib.Runs Lib.Text

/-! The agreement of a row -/

def ProcessingArtifactRecord.scope (row : ProcessingArtifactRecord) : Scope :=
  ⟨row.agreementId, row.organizationId, row.workspaceId⟩

def ReviewFinalPackageRecord.scope (package : ReviewFinalPackageRecord) : Scope :=
  ⟨package.agreementId, package.organizationId, package.workspaceId⟩

def ReviewWorkflowOutboxRecord.scope (event : ReviewWorkflowOutboxRecord) : Scope :=
  ⟨event.agreementId, event.organizationId, event.workspaceId⟩

def ReviewCaseRecord.scope (review : ReviewCaseRecord) : Scope :=
  ⟨review.agreementId, review.organizationId, review.workspaceId⟩

/-- The rows of the known agreements, with accepted keys. -/
structure Rows (scopes : List Scope) (w : CatalogWorld) : Prop where
  versions : ∀ version ∈ w.system.db.versions, version.columns.scope ∈ scopes ∧
    version.columns.scope.Accepts .source version.storageKey
  jobs : ∀ one ∈ w.system.db.jobs, ∀ other ∈ w.system.db.jobs, one.id = other.id →
    one.context = other.context
  jobScopes : ∀ job ∈ w.system.db.jobs, job.context.scope ∈ scopes
  claims : ∀ claim ∈ w.system.claims, claim.context.scope ∈ scopes ∧
    ∀ job ∈ w.system.db.jobs, job.id = claim.id → job.context = claim.context
  expected : ∀ pair ∈ w.system.expected, pair.1 ∈ w.system.claims ∧
    pair.1.context.Keyed pair.2.key
  intents : ∀ intent ∈ w.system.db.intents, intent.context.scope ∈ scopes ∧
    lateArtifactCategory intent.profile intent.artifactKey = some intent.category ∧
    intent.context.Keyed intent.artifactKey
  artifacts : ∀ row ∈ w.system.db.artifacts, row.scope ∈ scopes ∧
    ∃ claim ∈ w.system.claims, claim.id = row.jobId ∧
      ∀ category, artifactCategory claim.profile = some category →
        row.scope.Accepts category row.artifactKey
  packages : ∀ package ∈ w.system.db.finalPackages, package.scope ∈ scopes ∧
    package.scope.Accepts .reviewManifest package.manifestKey ∧
    package.scope.Accepts .reviewPdf package.pdfKey
  events : ∀ event ∈ w.system.db.workflowOutbox, event.scope ∈ scopes ∧
    (∀ object ∈ eventObjects event, event.scope.Accepts object.1 object.2) ∧
    ∀ snapshot ∈ event.packageSnapshot, snapshot.repairPackageId = none
  reviews : ∀ review ∈ w.reviews, review.scope ∈ scopes

/-- The inventories of the accepted deletions, with accepted keys. -/
structure Database.Inventory (db : Database) : Prop where
  requestIds : (db.deletionRequests.map (·.id)).Nodup
  owners : ∀ object ∈ db.deletionObjects, ∃ request ∈ db.deletionRequests,
    request.id = object.deletionId
  accepted : ∀ object ∈ db.deletionObjects, ∀ request ∈ db.deletionRequests,
    request.id = object.deletionId → request.scope.Accepts object.category object.objectKey

structure CatalogWorld.Sound (w : CatalogWorld) : Prop where
  agreementIds : (w.system.db.agreements.map (·.id)).Nodup
  files : ∀ agreement ∈ w.system.db.agreements, ∀ file ∈ agreement.files,
    agreement.scope.Accepts .source file.storageKey
  rows : Rows (w.system.db.agreements.map AgreementRecord.scope) w
  inventory : w.system.db.Inventory

/-! What an inventory lists -/

section Listed
variable {w : CatalogWorld} {agreement : AgreementRecord}

/-- A row of the agreement has its tenant, too. -/
theorem CatalogWorld.Sound.scope_eq (sound : w.Sound) (member : agreement ∈ w.system.db.agreements)
    {scope : Scope} (known : scope ∈ w.system.db.agreements.map AgreementRecord.scope)
    (named : scope.agreementId = agreement.id) : scope = agreement.scope := by
  obtain ⟨other, there, rfl⟩ := List.mem_map.mp known
  rw [List.inj_on_of_nodup_map sound.agreementIds there member named]

theorem Rows.artifactObjects {scopes : List Scope} (rows : Rows scopes w)
    {object : ObjectCategory × String} {agreementId : Uuid}
    (listed : object ∈ artifactObjects w.system.db agreementId) :
    ∃ scope ∈ scopes, scope.agreementId = agreementId ∧ scope.Accepts object.1 object.2 := by
  obtain ⟨row, filtered, joined⟩ := List.mem_flatMap.mp listed
  obtain ⟨job, matching, categorised⟩ := List.mem_filterMap.mp joined
  obtain ⟨category, known, rfl⟩ := Option.map_eq_some_iff.mp categorised
  obtain ⟨present, owned⟩ := List.mem_filter.mp filtered
  obtain ⟨there, named⟩ := List.mem_filter.mp matching
  obtain ⟨scope, claim, held, sameId, accepts⟩ := rows.artifacts row present
  have context := (rows.claims claim held).2 job there ((of_decide_eq_true named).trans sameId.symm)
  have profile : job.profile = claim.profile := congrArg ArtifactContext.profile context
  exact ⟨row.scope, scope, of_decide_eq_true owned, accepts category (profile ▸ known)⟩

theorem CatalogWorld.Sound.listed (sound : w.Sound) (member : agreement ∈ w.system.db.agreements)
    {object : ObjectCategory × String}
    (listed : object ∈ deletionObjects w.system.db agreement) :
    agreement.scope.Accepts object.1 object.2 := by
  rw [deletionObjects, List.mem_eraseDups] at listed
  simp only [List.mem_append, or_assoc] at listed
  rcases listed with source | artifact | intent | comparison | package | event
  · obtain ⟨key, there, rfl⟩ := List.mem_map.mp source
    rcases List.mem_append.mp there with versioned | filed
    · obtain ⟨version, sorted, rfl⟩ := List.mem_map.mp versioned
      obtain ⟨present, owned⟩ := List.mem_filter.mp (List.mem_mergeSort.mp sorted)
      obtain ⟨known, accepts⟩ := sound.rows.versions version present
      exact sound.scope_eq member known (of_decide_eq_true owned) ▸ accepts
    · obtain ⟨file, present, rfl⟩ := List.mem_map.mp filed
      exact sound.files agreement member file present
  · obtain ⟨scope, known, named, accepts⟩ := sound.rows.artifactObjects artifact
    exact sound.scope_eq member known named ▸ accepts
  · obtain ⟨row, filtered, rfl⟩ := List.mem_map.mp intent
    obtain ⟨present, owned⟩ := List.mem_filter.mp filtered
    obtain ⟨known, category, keyed⟩ := sound.rows.intents row present
    exact sound.scope_eq member known (of_decide_eq_true owned) ▸ keyed row.category category
  · obtain ⟨key, there, rfl⟩ := List.mem_map.mp comparison
    obtain ⟨run, -, rfl⟩ := List.mem_map.mp there
    exact validateOwnedKey_comparison ..
  · obtain ⟨row, filtered, here⟩ := List.mem_flatMap.mp package
    obtain ⟨present, owned⟩ := List.mem_filter.mp filtered
    obtain ⟨known, manifest, pdf⟩ := sound.rows.packages row present
    have same := sound.scope_eq member known (of_decide_eq_true owned)
    simp only [List.mem_cons, List.not_mem_nil, or_false] at here
    rcases here with rfl | rfl
    · exact same ▸ manifest
    · exact same ▸ pdf
  · obtain ⟨row, filtered, here⟩ := List.mem_flatMap.mp event
    obtain ⟨present, holds⟩ := List.mem_filter.mp filtered
    obtain ⟨known, accepts, -⟩ := sound.rows.events row present
    exact sound.scope_eq member known (of_decide_eq_true holds).1 ▸ accepts object here

theorem CatalogWorld.Sound.deletable (sound : w.Sound) : w.system.db.Deletable where
  listed _ member _ listed := sound.listed member listed
  inventoried object member request held named :=
    sound.inventory.accepted object member request held named
end Listed

/-! The steps of the workers -/

/-- Job and context of a claim or a row with the same origin. -/
theorem origin_context {id other : Uuid} {one two : ArtifactContext} {first second : Option String}
    (same : (id, one, first) = (other, two, second)) : id = other ∧ one = two := by
  simp only [Prod.mk.injEq] at same
  exact ⟨same.1, same.2.1⟩

theorem Rows.traced {scopes : List Scope} {w : CatalogWorld} {next : World} (rows : Rows scopes w)
    (traced : Traced w.system next) (claims : w.system.claims ⊆ next.claims)
    (expected : ∀ pair ∈ next.expected, pair ∈ w.system.expected ∨
      pair.1 ∈ w.system.claims ∧ pair.1.context.Keyed pair.2.key) :
    Rows scopes { w with system := next } where
  versions version present := by
    obtain ⟨old, there, same⟩ := traced.versions version present
    obtain ⟨known, accepts⟩ := rows.versions old there
    have key : old.storageKey = version.storageKey := congrArg VersionColumns.storageKey same
    rw [same] at known accepts
    exact ⟨known, key ▸ accepts⟩
  jobs one here other there same := by
    obtain ⟨first, held, origin⟩ := traced.jobs one here
    obtain ⟨second, stored, source⟩ := traced.jobs other there
    obtain ⟨id, context⟩ := origin_context origin
    obtain ⟨otherId, otherContext⟩ := origin_context source
    exact context.symm.trans ((rows.jobs first held second stored
      (id.trans (same.trans otherId.symm))).trans otherContext)
  jobScopes job present := by
    obtain ⟨old, there, origin⟩ := traced.jobs job present
    rw [← (origin_context origin).2]
    exact rows.jobScopes old there
  claims claim member := by
    rcases traced.claims claim member with old | ⟨source, held, origin⟩
    · obtain ⟨known, agrees⟩ := rows.claims claim old
      refine ⟨known, fun job present named => ?_⟩
      obtain ⟨before, there, same⟩ := traced.jobs job present
      obtain ⟨id, context⟩ := origin_context same
      exact context.symm.trans (agrees before there (id.trans named))
    · obtain ⟨id, context⟩ := origin_context origin
      refine ⟨context ▸ rows.jobScopes source held, fun job present named => ?_⟩
      obtain ⟨before, there, same⟩ := traced.jobs job present
      obtain ⟨beforeId, beforeContext⟩ := origin_context same
      have alike : before.context = source.context :=
        rows.jobs before there source held (beforeId.trans (named.trans id.symm))
      exact beforeContext.symm.trans (alike.trans context)
  expected pair member := by
    rcases expected pair member with old | ⟨held, keyed⟩
    · exact ⟨claims (rows.expected pair old).1, (rows.expected pair old).2⟩
    · exact ⟨claims held, keyed⟩
  intents intent member := by
    rcases traced.intents intent member with ⟨old, there, same⟩ | ⟨pair, held, category, known, same⟩
    · have facts := rows.intents old there
      simp only [ProcessingArtifactIntentRecord.reserved, ProcessingArtifactIntentRecord.mk.injEq]
        at same
      obtain ⟨-, organization, workspace, agreement, profile, category, key, -⟩ := same
      have context : old.context = intent.context := by
        simp [ProcessingArtifactIntentRecord.context, organization, workspace, agreement, profile]
      rwa [context, profile, category, key] at facts
    · simp only [ProcessingArtifactIntentRecord.reserved, reservation,
        ProcessingArtifactIntentRecord.mk.injEq] at same
      obtain ⟨-, organization, workspace, agreement, profile, sameCategory, key, -⟩ := same
      have context : intent.context = pair.1.context := by
        simp [ProcessingArtifactIntentRecord.context, ProcessingJob.context, organization, workspace,
          agreement, profile]
      obtain ⟨claimed, keyed⟩ := rows.expected pair held
      rw [context, profile, sameCategory, key]
      exact ⟨(rows.claims pair.1 claimed).1, known, keyed⟩
  artifacts row member := by
    rcases traced.artifacts row member with old | ⟨pair, held, job, present, named, known, rfl⟩
    · obtain ⟨scope, claim, there, same⟩ := rows.artifacts row old
      exact ⟨scope, claim, claims there, same⟩
    · obtain ⟨claimed, keyed⟩ := rows.expected pair held
      obtain ⟨scope, agrees⟩ := rows.claims pair.1 claimed
      have context : job.context = pair.1.context := agrees job present named
      have same : (artifactRow pair.1.id job pair.2.key).scope = pair.1.context.scope := by
        rw [← context]
        rfl
      refine ⟨same ▸ scope, pair.1, claims claimed, rfl, fun category categorised => ?_⟩
      obtain ⟨late, isLate⟩ := Option.isSome_iff_exists.mp known
      have one := (lateArtifactCategory_some isLate).1
      rw [categorised] at one
      cases one
      exact same ▸ keyed category isLate
  packages package member := rows.packages package (traced.finalPackages member)
  events event member := rows.events event (traced.workflowOutbox member)
  reviews := rows.reviews

theorem Rows.keyedIntents {scopes : List Scope} {w : CatalogWorld} (rows : Rows scopes w) :
    w.system.db.KeyedIntents :=
  fun intent member => (rows.intents intent member).2.2

theorem Database.Inventory.ledger {before after : Database} (inventory : before.Inventory)
    (ledger : Ledger before after) : after.Inventory where
  requestIds := by
    have ids := congrArg (List.map Prod.fst) ledger.requests
    rw [List.map_map, List.map_map] at ids
    have distinct := inventory.requestIds
    exact ids ▸ distinct
  owners object member := by
    have owned : ∃ request ∈ before.deletionRequests, request.id = object.deletionId := by
      rcases ledger.objects object member with ⟨old, there, id, -, -⟩ | ⟨request, held, named, -⟩
      · exact id ▸ inventory.owners old there
      · exact ⟨request, held, named⟩
    obtain ⟨request, held, named⟩ := owned
    obtain ⟨other, there, same⟩ := exists_mem_of_map_eq ledger.requests.symm held
    exact ⟨other, there, (congrArg Prod.fst same).trans named⟩
  accepted object member request held named := by
    obtain ⟨source, there, same⟩ := exists_mem_of_map_eq ledger.requests held
    have scope : source.scope = request.scope := congrArg Prod.snd same
    have sourceNamed : source.id = object.deletionId := (congrArg Prod.fst same).trans named
    rw [← scope]
    rcases ledger.objects object member with ⟨old, here, id, category, key⟩ |
      ⟨other, known, otherNamed, accepts⟩
    · have accepts := inventory.accepted old here source there (sourceNamed.trans id.symm)
      rwa [category, key] at accepts
    · have alike : other = source := List.inj_on_of_nodup_map inventory.requestIds known there
        (otherNamed.trans sourceNamed.symm)
      exact alike ▸ accepts

section Steps
variable {scopes : List Scope} {w : CatalogWorld}

theorem Ledger.transact {system : World} {outcome : Except Raised Database}
    (ledger : ∀ after, outcome = .ok after → Ledger system.db after) :
    Ledger system.db (system.transact outcome).db := by
  cases outcome with
  | error raised => exact .refl _
  | ok after => exact ledger after rfl

/-- The contexts under which the artifact of a claim can become late are the one it has. -/
theorem Rows.known_context (rows : Rows scopes w) {claim : ProcessingJob}
    {artifact : CompletedArtifact} {context : ArtifactContext}
    (held : (claim, artifact) ∈ w.system.expected)
    (known : w.system.db.KnowsContext claim context) : context.Keyed artifact.key := by
  obtain ⟨claimed, keyed⟩ := rows.expected _ held
  rcases known with rfl | ⟨job, found, rfl⟩
  · exact keyed
  · obtain ⟨present, named⟩ := Database.job?_eq_some found
    rw [(rows.claims claim claimed).2 job present named]
    exact keyed

theorem call_ledger (rows : Rows scopes w) {call : WorkerCall} (held : call.Held w.system) :
    Ledger w.system.db (w.system.call call).db := by
  have intents := rows.keyedIntents
  cases call with
  | claim jobId organizationId workspaceId now claimToken =>
    simp only [World.call]
    split
    · exact .refl _
    · rename_i result after done
      exact .claimed intents (claim_ok done)
  | expect job artifact now =>
    refine Ledger.transact fun after returned => ?_
    obtain ⟨answer, done⟩ := map_snd_ok returned
    exact .expected intents (rows.expected _ held).2 (expect_ok done)
  | commitPrepared job artifact content verdict now =>
    have outcome := w.system.commit_committed job artifact content verdict now
    have expected : (job, (prepare job artifact content).artifact) ∈ w.system.expected := held
    simp only [World.call]
    refine Ledger.transact fun after returned => ?_
    obtain ⟨answer, done⟩ := map_snd_ok returned
    rw [done] at outcome
    exact .committed intents (fun context known => rows.known_context expected known) outcome
  | requeue job expected category message nextRetryAt now =>
    refine Ledger.transact fun after returned => ?_
    obtain ⟨answer, done⟩ := map_snd_ok returned
    refine .requeued intents (fun context artifact known computed => ?_) (requeue_ok done)
    exact rows.known_context (held.2 artifact computed) known
  | fail job expected category message now =>
    refine Ledger.transact fun after returned => ?_
    refine .failed intents (fun context artifact known computed => ?_) (fail_ok returned)
    exact rows.known_context (held.2 artifact computed) known

/-- Every step but the acceptance of a deletion. -/
theorem step_ledger (rows : Rows scopes w) {event : Event}
    (accepts : ∀ organizationId workspaceId agreementId deletionId now,
      event ≠ .acceptDeletion organizationId workspaceId agreementId deletionId now) :
    Ledger w.system.db (step w.system event).db := by
  cases event with
  | call worker =>
    simp only [step]
    split
    · exact call_ledger rows ‹_›
    · exact .refl _
  | expectArtifact job =>
    simp only [step]
    split
    · split <;> exact .refl _
    · exact .refl _
  | crashInCommit job artifact content now =>
    simp only [step]
    split <;> exact .refl _
  | retryJob organizationId workspaceId agreementId jobId now =>
    exact Ledger.transact fun after done => (Quiet.retryJob done).ledger
  | acceptDeletion => exact absurd rfl (accepts _ _ _ _ _)
  | claimDeletion deletionId organizationId workspaceId now claimToken =>
    exact (Quiet.claimDeletion ..).ledger
  | listPending deletion =>
    simp only [step]
    split <;> exact .refl _
  | removeObject deletion item =>
    simp only [step]
    split <;> exact .refl _
  | markDeleted deletion item now =>
    simp only [step]
    split
    · refine Ledger.transact fun after done => ?_
      unfold markDeleted at done
      split at done
      · cases done
      · cases done
        exact .finishObject ..
    · exact .refl _
  | deleteSource deletion item now =>
    simp only [step]
    split
    · refine Ledger.transact fun after done => ?_
      unfold deleteSourceIfUnreferenced at done
      split at done
      · cases done
      split at done
      · cases done
        exact .refl _
      split at done
      · cases done
        exact .finishObject ..
      · cases done
        have registered : Ledger w.system.db { w.system.db with
            registry := registerDeleted w.system.db.registry deletion.organizationId
              deletion.workspaceId item.objectKey now } := .of_subset rfl (List.Subset.refl _)
        exact registered.trans (.finishObject ..)
    · exact .refl _
  | retryObject deletion item message nextRetryAt =>
    simp only [step]
    split
    · refine Ledger.transact fun after done => ?_
      cases done
      unfold retryObject
      split
      · exact ((Quiet.noteObjectError ..).trans (Quiet.giveUp ..).1).ledger
      · exact .refl _
    · exact .refl _
  | failObject deletion item message now =>
    simp only [step]
    split
    · refine Ledger.transact fun after done => ?_
      cases done
      unfold failObject
      split
      · exact ((Quiet.noteObjectError ..).trans (Quiet.giveUp ..).2).ledger
      · exact .refl _
    · exact .refl _
  | retryDatabaseCleanup deletion message nextRetryAt =>
    simp only [step]
    split
    · refine Ledger.transact fun after done => ?_
      cases done
      unfold retryDatabaseCleanup
      split
      · exact (Quiet.giveUp ..).1.ledger
      · exact .refl _
    · exact .refl _
  | failDatabaseCleanup deletion message now =>
    simp only [step]
    split
    · refine Ledger.transact fun after done => ?_
      cases done
      unfold failDatabaseCleanup
      split
      · exact (Quiet.giveUp ..).2.ledger
      · exact .refl _
    · exact .refl _
  | recoverStaleDeletions organizationId now =>
    exact Ledger.transact fun after done => by
      cases done
      exact (Quiet.recoverStale ..).ledger
  | completeAndPurge deletion now =>
    simp only [step]
    split
    · exact Ledger.transact fun after done => .completeAndPurge done
    · exact .refl _

/-- Workers forget no claim. -/
theorem step_claims_subset (system : World) (event : Event) :
    system.claims ⊆ (step system event).claims := by
  by_cases claims : ∃ jobId organizationId workspaceId now claimToken,
      event = .call (.claim jobId organizationId workspaceId now claimToken)
  · obtain ⟨jobId, organizationId, workspaceId, now, claimToken, rfl⟩ := claims
    simp only [step, World.call]
    split
    · split
      · exact List.Subset.refl _
      · exact List.subset_append_left _ _
    · exact List.Subset.refl _
  · rw [step_claims system fun jobId organizationId workspaceId now claimToken same =>
      claims ⟨jobId, organizationId, workspaceId, now, claimToken, same⟩]
    exact List.Subset.refl _

/-- Only the processor computes expected artifacts. -/
theorem step_expected (system : World) (event : Event) :
    ∀ pair ∈ (step system event).expected, pair ∈ system.expected ∨
      event = .expectArtifact pair.1 ∧ pair.1 ∈ system.claims ∧
        expectedArtifact system.db pair.1 = .ok pair.2 := by
  intro pair member
  cases event with
  | expectArtifact job =>
    simp only [step] at member
    split at member
    · rename_i held
      split at member
      · exact .inl member
      · rename_i artifact computed
        rcases List.mem_append.mp member with old | new
        · exact .inl old
        · rw [List.mem_singleton.mp new]
          exact .inr ⟨rfl, held, computed⟩
    · exact .inl member
  | call worker =>
    simp only [step] at member
    split at member
    · cases worker with
      | claim jobId organizationId workspaceId now claimToken =>
        simp only [World.call] at member
        split at member <;> exact .inl member
      | _ => exact .inl member
    · exact .inl member
  | retryJob => exact .inl member
  | acceptDeletion => exact .inl member
  | claimDeletion => exact .inl member
  | recoverStaleDeletions => exact .inl member
  | _ =>
    simp only [step] at member
    split at member <;> exact .inl member
end Steps

/-- An analysis job whose source checksum is no SHA-256 digest gets an artifact key outside
the grammar. -/
def ProcessingJob.Hashed (job : ProcessingJob) : Prop :=
  artifactCategory job.profile = some .analysis →
    ∀ checksum, job.sourceChecksum = some checksum → isSha256 checksum = true

theorem expectedArtifact_keyed {db : Database} {job : ProcessingJob}
    {artifact : CompletedArtifact} (done : expectedArtifact db job = .ok artifact)
    (hashed : job.Hashed) : job.context.Keyed artifact.key := by
  intro category known
  obtain ⟨categorised, -, plain⟩ := lateArtifactCategory_some known
  have profile : job.context.profile = job.profile := rfl
  rw [profile] at categorised plain
  unfold expectedArtifact at done
  split at done
  · rename_i comparison
    unfold comparisonExpectedArtifact at done
    split at done
    · cases done
    cases done
    rw [artifactCategory, if_pos comparison] at categorised
    cases categorised
    exact validateOwnedKey_comparison ..
  rename_i other
  have unindexed : embeddingReindexConfigurationId job.profile = none := by
    rw [embeddingReindexConfigurationId, plain]
    rfl
  simp only [unindexed] at done
  have analysis : artifactCategory job.profile = some .analysis := by
    rw [artifactCategory, if_neg other, plain]
    rfl
  rw [analysis] at categorised
  cases categorised
  unfold documentExpectedArtifact at done
  split at done
  · cases done
  split at done
  · cases done
  rename_i checksum source
  split at done
  · cases done
  cases done
  exact validateOwnedKey_analysis job (hashed analysis checksum source)

end AgreementIntelligence.Agreements
