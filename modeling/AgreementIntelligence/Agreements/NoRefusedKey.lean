import AgreementIntelligence.Agreements.DeletableKeys

/-! The producers of keys in the API, the package worker and the migration, one lemma for each
kind of row they write, and the runs in which no inventoried key is refused. -/

namespace AgreementIntelligence.Agreements
open Identity Lib.Table Lib.Runs Lib.Results

/-! Rows that the API and the package workers add -/

section Writes
variable {w : CatalogWorld}

/-- A step of the workers. -/
theorem CatalogWorld.Sound.traced (sound : w.Sound) {next : World}
    (traced : Traced w.system next) (claims : w.system.claims ⊆ next.claims)
    (expected : ∀ pair ∈ next.expected, pair ∈ w.system.expected ∨
      pair.1 ∈ w.system.claims ∧ pair.1.context.Keyed pair.2.key)
    (inventory : next.db.Inventory) : CatalogWorld.Sound { w with system := next } where
  agreementIds := by
    have ids := congrArg (List.map Scope.agreementId) traced.scopes
    rw [List.map_map, List.map_map] at ids
    have distinct := sound.agreementIds
    exact ids ▸ distinct
  files agreement member file filed := by
    obtain ⟨old, there, becomes⟩ := traced.agreements agreement member
    rw [becomes.scope]
    exact sound.files old there file (becomes.files filed)
  rows := by
    have rows := sound.rows.traced traced claims expected
    rwa [← traced.scopes] at rows
  inventory := inventory

/-- A write that leaves jobs, keys and inventories as they are. -/
theorem CatalogWorld.Sound.frame (sound : w.Sound) {after : Database}
    (frame : Frame w.system.db after) (ledger : Ledger w.system.db after) :
    CatalogWorld.Sound { w with system := { w.system with db := after } } :=
  sound.traced frame.db (List.Subset.refl _) (fun _ => .inl) (sound.inventory.ledger ledger)

theorem Frame.markSubmitted (db : Database) (agreement : AgreementRecord)
    (job : ProcessingJobRecord) : Frame db (markSubmitted db agreement job) where
  scopes := by
    unfold Agreements.markSubmitted
    simp only
    split
    · exact map_update fun _ => rfl
    · rfl
  agreements row member := by
    unfold Agreements.markSubmitted at member
    simp only at member
    split at member
    · obtain ⟨old, there, rfl⟩ := mem_update.mp member
      refine ⟨old, there, ?_⟩
      split <;> exact ⟨rfl, fun requested => requested, List.Subset.refl _⟩
    · exact ⟨row, member, .refl row⟩
  versions row member := by
    obtain ⟨old, there, rfl⟩ := List.mem_map.mp member
    refine ⟨old, there, ?_⟩
    split <;> rfl
  jobs row member := ⟨row, member, rfl⟩
  artifacts := List.Subset.refl _
  intents row member := ⟨row, member, rfl⟩
  finalPackages := List.Subset.refl _
  workflowOutbox := List.Subset.refl _

theorem CatalogWorld.Sound.queue (sound : w.Sound) {agreement : AgreementRecord}
    {job : ProcessingJobRecord} (queues : Queues w.system.db agreement job)
    (fresh : ∀ claim ∈ w.system.claims, claim.id ≠ job.id) :
    CatalogWorld.Sound { w with system := { w.system with
      db := { w.system.db with jobs := w.system.db.jobs ++ [job] } } } :=
  { sound with
    rows := { sound.rows with
      jobs := fun one here other there same => by
        rcases List.mem_append.mp here with first | first
        · rcases List.mem_append.mp there with second | second
          · exact sound.rows.jobs one first other second same
          · rw [List.mem_singleton.mp second] at same
            exact absurd same (queues.fresh one first)
        · rw [List.mem_singleton.mp first] at same ⊢
          rcases List.mem_append.mp there with second | second
          · exact absurd same.symm (queues.fresh other second)
          · rw [List.mem_singleton.mp second]
      jobScopes := fun row present => by
        rcases List.mem_append.mp present with old | new
        · exact sound.rows.jobScopes row old
        · rw [List.mem_singleton.mp new]
          refine List.mem_map.mpr ⟨agreement, queues.member, ?_⟩
          simp [AgreementRecord.scope, ProcessingJobRecord.context, ArtifactContext.scope,
            queues.agreementId, queues.organizationId, queues.workspaceId]
      claims := fun claim held => by
        obtain ⟨known, agrees⟩ := sound.rows.claims claim held
        refine ⟨known, fun row present named => ?_⟩
        rcases List.mem_append.mp present with old | new
        · exact agrees row old named
        · rw [List.mem_singleton.mp new] at named
          exact absurd named.symm (fresh claim held) }
    inventory := sound.inventory.ledger (.of_subset rfl (List.Subset.refl _)) }

/-- One more version, which becomes the current one of its agreement. -/
theorem CatalogWorld.Sound.version (sound : w.Sound) {agreement : AgreementRecord}
    {record : AgreementVersionRecord}
    {current : AgreementRecord → AgreementRecord} (member : agreement ∈ w.system.db.agreements)
    (scope : record.InScope agreement)
    (accepts : agreement.scope.Accepts .source record.storageKey)
    (keeps : ∀ row, (current row).scope = row.scope)
    (files : ∀ row ∈ w.system.db.agreements, row.id = agreement.id →
      ∀ file ∈ (current row).files, row.scope.Accepts .source file.storageKey) :
    CatalogWorld.Sound { w with system := { w.system with db := { w.system.db with
      versions := w.system.db.versions ++ [record]
      agreements := update (·.id) w.system.db.agreements agreement.id current } } } := by
  have scopes : (update (·.id) w.system.db.agreements agreement.id current).map
      AgreementRecord.scope = w.system.db.agreements.map AgreementRecord.scope := map_update keeps
  have recordScope : record.columns.scope = agreement.scope := by
    simp [AgreementVersionRecord.columns, AgreementRecord.scope, scope.1, scope.2.1, scope.2.2]
  refine ⟨?_, fun row present other filed => ?_, ?_, sound.inventory.ledger (.of_subset rfl
    (List.Subset.refl _))⟩
  · exact nodup_update (fun row => congrArg Scope.agreementId (keeps row)) sound.agreementIds
  · obtain ⟨old, there, rfl⟩ := mem_update.mp present
    by_cases hit : old.id = agreement.id
    · rw [if_pos hit] at filed ⊢
      rw [keeps]
      exact files old there hit other filed
    · rw [if_neg hit] at filed ⊢
      exact sound.files old there other filed
  · have rows : Rows (w.system.db.agreements.map AgreementRecord.scope) { w with
        system := { w.system with db := { w.system.db with
          versions := w.system.db.versions ++ [record]
          agreements := update (·.id) w.system.db.agreements agreement.id current } } } :=
      { sound.rows with
        versions := fun version present => by
          rcases List.mem_append.mp present with old | new
          · exact sound.rows.versions version old
          · rw [List.mem_singleton.mp new, recordScope]
            exact ⟨List.mem_map_of_mem member, accepts⟩ }
    rwa [← scopes] at rows

/-- More agreements know more rows. -/
theorem Rows.mono {scopes more : List Scope} (rows : Rows scopes w) (sub : scopes ⊆ more) :
    Rows more w where
  versions version member := ⟨sub (rows.versions version member).1, (rows.versions version member).2⟩
  jobs := rows.jobs
  jobScopes job member := sub (rows.jobScopes job member)
  claims claim member := ⟨sub (rows.claims claim member).1, (rows.claims claim member).2⟩
  expected := rows.expected
  intents intent member := ⟨sub (rows.intents intent member).1, (rows.intents intent member).2⟩
  artifacts row member := ⟨sub (rows.artifacts row member).1, (rows.artifacts row member).2⟩
  packages package member :=
    ⟨sub (rows.packages package member).1, (rows.packages package member).2⟩
  events event member := ⟨sub (rows.events event member).1, (rows.events event member).2⟩
  reviews review member := sub (rows.reviews review member)

theorem CatalogWorld.Sound.agreement (sound : w.Sound) {agreement : AgreementRecord}
    (fresh : ∀ row ∈ w.system.db.agreements, row.id ≠ agreement.id)
    (files : ∀ file ∈ agreement.files, agreement.scope.Accepts .source file.storageKey) :
    CatalogWorld.Sound { w with system := { w.system with
      db := { w.system.db with agreements := w.system.db.agreements ++ [agreement] } } } where
  agreementIds := by
    rw [List.map_append, List.map_singleton]
    refine List.nodup_append.mpr
      ⟨sound.agreementIds, List.nodup_singleton _, fun id here other last => ?_⟩
    obtain ⟨row, member, rfl⟩ := List.mem_map.mp here
    rw [List.mem_singleton.mp last]
    exact fresh row member
  files row member := by
    rcases List.mem_append.mp member with old | new
    · exact sound.files row old
    · rw [List.mem_singleton.mp new]
      exact files
  rows := by
    have rows : Rows (w.system.db.agreements.map AgreementRecord.scope ++ [agreement.scope]) w :=
      sound.rows.mono (List.subset_append_left _ _)
    rw [List.map_append, List.map_singleton]
    exact { rows with }
  inventory := sound.inventory.ledger (.of_subset rfl (List.Subset.refl _))

theorem CatalogWorld.Sound.event (sound : w.Sound) {event : ReviewWorkflowOutboxRecord}
    (known : event.scope ∈ w.system.db.agreements.map AgreementRecord.scope)
    (accepts : ∀ object ∈ eventObjects event, event.scope.Accepts object.1 object.2)
    (repairs : ∀ snapshot ∈ event.packageSnapshot, snapshot.repairPackageId = none) :
    CatalogWorld.Sound { w with system := { w.system with
      db := { w.system.db with workflowOutbox := w.system.db.workflowOutbox ++ [event] } } } :=
  { sound with
    rows := { sound.rows with
      events := fun row member => by
        rcases List.mem_append.mp member with old | new
        · exact sound.rows.events row old
        · rw [List.mem_singleton.mp new]
          exact ⟨known, accepts, repairs⟩ }
    inventory := sound.inventory.ledger (.of_subset rfl (List.Subset.refl _)) }

theorem CatalogWorld.Sound.packages (sound : w.Sound) {packages : List ReviewFinalPackageRecord}
    (accepted : ∀ package ∈ packages, package ∈ w.system.db.finalPackages ∨
      package.scope ∈ w.system.db.agreements.map AgreementRecord.scope ∧
        package.scope.Accepts .reviewManifest package.manifestKey ∧
        package.scope.Accepts .reviewPdf package.pdfKey) :
    CatalogWorld.Sound { w with system := { w.system with
      db := { w.system.db with finalPackages := packages } } } :=
  { sound with
    rows := { sound.rows with
      packages := fun row member => by
        rcases accepted row member with old | new
        · exact sound.rows.packages row old
        · exact new }
    inventory := sound.inventory.ledger (.of_subset rfl (List.Subset.refl _)) }
end Writes

/-! The steps -/

/-- A key that `DocumentService` gives to an upload of the tenant. -/
def IsDocumentKey (organizationId workspaceId : Uuid) (key : String) : Prop :=
  ∃ sha256 extension, key = documentKey organizationId workspaceId sha256 extension

/-- A new agreement has uploaded documents for its files, an analysis starts from a digest, a
reserved package has the keys of a review of its tenant, and the migration finds no package to repair. -/
def Regular (w : CatalogWorld) : CatalogEvent → Prop
  | .system (.expectArtifact job) => job.Hashed
  | .createAgreement organizationId workspaceId request _ _ =>
    ∀ file ∈ request.files, IsDocumentKey organizationId workspaceId file.storageKey
  | .reserveFinalPackageIntent review manifest pdf _ _ =>
    IsPackageKey review.organizationId review.workspaceId "manifest.json" manifest ∧
      IsPackageKey review.organizationId review.workspaceId "report.pdf" pdf
  | .backfill review => w.system.db.packageToRepair review = none
  | _ => True

theorem IsDocumentKey.accepted {organizationId workspaceId : Uuid} {key : String}
    (uploaded : IsDocumentKey organizationId workspaceId key) (agreementId : Uuid) :
    Scope.Accepts ⟨agreementId, organizationId, workspaceId⟩ .source key := by
  obtain ⟨sha256, extension, rfl⟩ := uploaded
  exact validateOwnedKey_document ..

/-- A deletion is accepted with an inventory of accepted keys. -/
theorem Database.Inventory.accept {db after : Database}
    {organizationId workspaceId agreementId deletionId : Uuid} {now : Time}
    (inventory : db.Inventory)
    (listed : ∀ agreement ∈ db.agreements, ∀ object ∈ Agreements.deletionObjects db agreement,
      agreement.scope.Accepts object.1 object.2)
    (fresh : ∀ request ∈ db.deletionRequests, request.id ≠ deletionId)
    (done : acceptDeletion db organizationId workspaceId agreementId deletionId now = .ok after) :
    after.Inventory := by
  unfold acceptDeletion at done
  split at done
  · cases done
    exact inventory.ledger (Quiet.redrive ..).ledger
  split at done
  · cases done
  rename_i agreement found
  split at done
  · cases done
  cases done
  obtain ⟨member, -⟩ := Database.agreement?_eq_some found
  refine ⟨?_, fun object present => ?_, fun object present request held named => ?_⟩
  · simp only [insertDeletion, List.map_append, List.map_singleton]
    refine List.nodup_append.mpr
      ⟨inventory.requestIds, List.nodup_singleton _, fun id here other last => ?_⟩
    obtain ⟨row, there, rfl⟩ := List.mem_map.mp here
    rw [List.mem_singleton.mp last]
    exact fresh row there
  · rcases List.mem_append.mp present with old | new
    · obtain ⟨request, held, named⟩ := inventory.owners object old
      exact ⟨request, List.mem_append_left _ held, named⟩
    · exact ⟨_, List.mem_append_right _ (List.mem_singleton_self _), (mem_inventoryRows new).1.symm⟩
  · rcases List.mem_append.mp present with old | new
    · rcases List.mem_append.mp held with known | accepted
      · exact inventory.accepted object old request known named
      · rw [List.mem_singleton.mp accepted] at named
        obtain ⟨owner, there, same⟩ := inventory.owners object old
        exact absurd (same.trans named.symm) (fresh owner there)
    · obtain ⟨deletion, -, -, inside⟩ := mem_inventoryRows new
      rcases List.mem_append.mp held with known | accepted
      · exact absurd (named.trans deletion) (fresh request known)
      · rw [List.mem_singleton.mp accepted]
        exact listed agreement member _ inside

section Steps
variable {w : CatalogWorld}

theorem CatalogWorld.Sound.transact (sound : w.Sound) {outcome : Except Raised Database}
    (returns : ∀ after, outcome = .ok after →
      CatalogWorld.Sound { w with system := { w.system with db := after } }) :
    (w.transact outcome).Sound := by
  cases outcome with
  | error raised => exact sound
  | ok after => exact returns after rfl

theorem CatalogWorld.Sound.step (sound : w.Sound) {event : Event}
    (regular : Regular w (.system event)) (once : ¬ (CatalogEvent.system event).Redraws w.system) :
    CatalogWorld.Sound { w with system := Agreements.step w.system event } := by
  refine sound.traced (step_traced w.system event) (step_claims_subset w.system event) ?_ ?_
  · intro pair member
    rcases step_expected w.system event pair member with old | ⟨rfl, held, computed⟩
    · exact .inl old
    · exact .inr ⟨held, expectedArtifact_keyed computed regular⟩
  · by_cases accepts : ∃ organizationId workspaceId agreementId deletionId now,
        event = .acceptDeletion organizationId workspaceId agreementId deletionId now
    · obtain ⟨organizationId, workspaceId, agreementId, deletionId, now, rfl⟩ := accepts
      cases done : acceptDeletion w.system.db organizationId workspaceId agreementId deletionId
          now with
      | error raised =>
        simp only [Agreements.step, done]
        exact sound.inventory
      | ok after =>
        simp only [Agreements.step, done]
        refine sound.inventory.accept (fun _ member _ listed => sound.listed member listed) ?_ done
        exact fun request held same => once ⟨request, held, same⟩
    · refine sound.inventory.ledger (step_ledger sound.rows fun _ _ _ _ _ same => ?_)
      exact accepts ⟨_, _, _, _, _, same⟩

theorem CatalogWorld.Sound.createAgreement (sound : w.Sound)
    {organizationId workspaceId agreementId versionId : Uuid} {request : CreateAgreementRequest}
    (uploaded : ∀ file ∈ request.files, IsDocumentKey organizationId workspaceId file.storageKey)
    {after : Database}
    (done : createAgreement w.system.db organizationId workspaceId request agreementId versionId =
      .ok after) : CatalogWorld.Sound { w with system := { w.system with db := after } } := by
  unfold Agreements.createAgreement at done
  split at done
  · cases done
  rename_i fresh
  simp only [List.any_eq_true, decide_eq_true_eq, not_exists, not_and] at fresh
  have created := @CatalogWorld.Sound.agreement w sound
    (createdAgreement organizationId workspaceId request agreementId) fresh
    fun file filed => (uploaded file filed).accepted agreementId
  simp only at done
  split at done
  · cases done
    exact created
  rename_i source last
  obtain ⟨inserted, inserts, rest⟩ := bind_ok.mp done
  unfold insertVersion at inserts
  split at inserts
  · cases inserts
  split at inserts
  · cases inserts
  cases inserts
  cases rest
  have filed : source ∈ request.files := List.mem_of_getLast? last
  exact created.version (List.mem_append_right _ (List.mem_singleton_self _)) ⟨rfl, rfl, rfl⟩
    ((uploaded source filed).accepted agreementId) (fun _ => rfl)
    fun row present _ file inside => created.files row present file inside

theorem CatalogWorld.Sound.createVersion (sound : w.Sound)
    {organizationId workspaceId agreementId versionId : Uuid} {expectedCurrentVersion : Nat}
    {idempotencyKey : String} {sha256 : Sha256} {extension : DocumentExtension} {after : Database}
    (done : createVersion w.system.db organizationId workspaceId agreementId
      expectedCurrentVersion idempotencyKey
      (uploadedDocument organizationId workspaceId sha256 extension) versionId = .ok after) :
    CatalogWorld.Sound { w with system := { w.system with db := after } } := by
  rcases createVersion_ok done with rfl |
    ⟨agreement, member, record, -, scope, -, key, ⟨rfl, rfl⟩, -, rfl⟩
  · exact sound
  have uploaded : IsDocumentKey agreement.organizationId agreement.workspaceId
      (uploadedDocument agreement.organizationId agreement.workspaceId sha256 extension).objectKey :=
    ⟨sha256, extension, rfl⟩
  refine sound.version member scope ?_ (fun _ => rfl) fun row present named file filed => ?_
  · rw [key]
    exact uploaded.accepted agreement.id
  · have alike : row = agreement :=
      List.inj_on_of_nodup_map sound.agreementIds present member named
    rw [List.mem_singleton.mp filed, alike]
    exact uploaded.accepted agreement.id

theorem CatalogWorld.Sound.submit (sound : w.Sound)
    {organizationId workspaceId agreementId jobId : Uuid} {versionId : Option Uuid}
    {idempotencyKey profile : String} {now : Time} {submission : Submission}
    (fresh : ∀ claim ∈ w.system.claims, claim.id ≠ jobId)
    (done : submit w.system.db organizationId workspaceId agreementId versionId idempotencyKey
      profile now jobId = .ok submission) :
    CatalogWorld.Sound { w with system := { w.system with db := submission.db } } := by
  rcases submit_ok done with ⟨-, same⟩ | ⟨-, named, agreement, queues, -, same⟩
  · rw [same]
    exact sound
  · rw [same]
    have queued := sound.queue queues (named ▸ fresh)
    have unwritten : Ledger { w.system.db with jobs := w.system.db.jobs ++ [submission.job] }
        (markSubmitted { w.system.db with jobs := w.system.db.jobs ++ [submission.job] }
          agreement submission.job) := .of_subset rfl (List.Subset.refl _)
    exact queued.frame (.markSubmitted ..) unwritten

theorem CatalogWorld.Sound.submitComparison (sound : w.Sound)
    {organizationId workspaceId agreementId comparisonId jobId : Uuid}
    {baselineId targetId : Option Uuid} {idempotencyKey analysisVersion : String} {now : Time}
    {queued : Option ProcessingJobRecord} {after : Database}
    (fresh : ∀ claim ∈ w.system.claims, claim.id ≠ jobId)
    (done : submitComparison w.system.db organizationId workspaceId agreementId baselineId
      targetId idempotencyKey analysisVersion now comparisonId jobId = .ok (queued, after)) :
    CatalogWorld.Sound { w with system := { w.system with db := after } } := by
  rcases submitComparison_ok done with ⟨-, rfl⟩ | ⟨agreement, job, runs, -, named, queues, rfl⟩
  · exact sound
  · exact (sound.queue queues (named ▸ fresh)).frame (.comparisonRuns _ runs)
      (.of_subset rfl (List.Subset.refl _))

theorem CatalogWorld.Sound.reindex (sound : w.Sound)
    {organizationId workspaceId agreementId configurationId buildId jobId : Uuid}
    {sourceChecksum : String} {now : Time} {queued : Option ProcessingJobRecord}
    {after : Database} (fresh : ∀ claim ∈ w.system.claims, claim.id ≠ jobId)
    (done : enqueueEmbeddingReindexJob w.system.db organizationId workspaceId agreementId
      configurationId buildId sourceChecksum now jobId = .ok (queued, after)) :
    CatalogWorld.Sound { w with system := { w.system with db := after } } := by
  rcases enqueueEmbeddingReindexJob_ok done with ⟨-, rfl⟩ | ⟨agreement, job, -, named, queues, rfl⟩
  · exact sound
  · exact sound.queue queues (named ▸ fresh)

theorem CatalogWorld.Sound.startReview (sound : w.Sound)
    {organizationId workspaceId agreementId reviewId : Uuid} {reviews : List ReviewCaseRecord}
    (done : startReview w.system.db w.reviews organizationId workspaceId agreementId reviewId =
      .ok reviews) : CatalogWorld.Sound { w with reviews := reviews } := by
  obtain ⟨agreement, found, rest⟩ := bind_ok.mp done
  obtain ⟨member, -, rfl, rfl, -⟩ := agreementInScope_ok found
  split at rest
  · cases rest
  cases rest
  exact { sound with
    rows := { sound.rows with
      reviews := fun review held => by
        rcases List.mem_append.mp held with old | new
        · exact sound.rows.reviews review old
        · rw [List.mem_singleton.mp new]
          exact List.mem_map_of_mem member }
    inventory := sound.inventory }

/-- The keys of a package under its own base. -/
theorem ReviewCaseRecord.accepts (review : ReviewCaseRecord) :
    review.scope.Accepts .reviewManifest (manifestKey review.packageBase) ∧
      review.scope.Accepts .reviewPdf (pdfKey review.packageBase) :=
  ⟨validateOwnedKey_package (isPackageKey_manifest ..), validateOwnedKey_package (isPackageKey_pdf ..)⟩

theorem CatalogWorld.Sound.emit (sound : w.Sound) {review : ReviewCaseRecord}
    (held : review ∈ w.reviews) {eventType : String} {after : Database}
    (done : emit w.system.db review eventType = .ok after) :
    CatalogWorld.Sound { w with system := { w.system with db := after } } := by
  obtain ⟨agreement, -, rest⟩ := bind_ok.mp done
  cases rest
  refine sound.event (sound.rows.reviews review held) (fun object listed => ?_)
    fun snapshot stored => ?_
  · by_cases terminal : eventType = terminalEventType
    · simp only [eventObjects, emittedEvent, if_pos terminal] at listed
      simp only [Option.bind_some, List.filterMap_cons, Option.map_some, Option.map_none,
        List.filterMap_nil, List.mem_cons, List.not_mem_nil, or_false] at listed
      rcases listed with rfl | rfl
      · exact review.accepts.1
      · exact review.accepts.2
    · simp [eventObjects, emittedEvent, terminal] at listed
  · by_cases terminal : eventType = terminalEventType
    · simp only [emittedEvent, if_pos terminal, Option.mem_some_iff] at stored
      rw [← stored]
    · simp [emittedEvent, terminal] at stored

theorem CatalogWorld.Sound.backfill (sound : w.Sound) {review : ReviewCaseRecord}
    (held : review ∈ w.reviews) (unpackaged : w.system.db.packageToRepair review = none) :
    CatalogWorld.Sound { w with system := { w.system with
      db := backfillTerminalPackageEvent w.system.db review } } := by
  rw [backfillTerminalPackageEvent, unpackaged]
  refine sound.event (sound.rows.reviews review held) (fun object listed => ?_)
    fun snapshot stored => ?_
  · simp only [eventObjects, backfilledEvent, Option.isSome_none, Bool.false_eq_true, if_false,
      Option.map_none, Option.bind_some, List.filterMap_cons, Option.map_some,
      List.filterMap_nil, List.mem_cons, List.not_mem_nil, or_false] at listed
    rcases listed with rfl | rfl
    · exact review.accepts.1
    · exact review.accepts.2
  · simp only [backfilledEvent, Option.map_none, Option.mem_some_iff] at stored
    rw [← stored]

theorem CatalogWorld.Sound.insertPackage (sound : w.Sound) (package : ReviewFinalPackageRecord)
    (known : package.scope ∈ w.system.db.agreements.map AgreementRecord.scope)
    (manifest : package.scope.Accepts .reviewManifest package.manifestKey)
    (pdf : package.scope.Accepts .reviewPdf package.pdfKey) {after : Database}
    (done : insertPackage w.system.db package = .ok after) :
    CatalogWorld.Sound { w with system := { w.system with db := after } } := by
  unfold Agreements.insertPackage at done
  split at done
  · cases done
  cases done
  refine sound.packages fun row member => ?_
  rcases List.mem_append.mp member with old | new
  · exact .inl old
  · rw [List.mem_singleton.mp new]
    exact .inr ⟨known, manifest, pdf⟩

theorem CatalogWorld.Sound.reserve (sound : w.Sound) {review : ReviewCaseRecord}
    (held : review ∈ w.reviews) {manifest pdf : String}
    (manifestKey : IsPackageKey review.organizationId review.workspaceId "manifest.json" manifest)
    (pdfKey : IsPackageKey review.organizationId review.workspaceId "report.pdf" pdf)
    {packageId : Uuid} {agrees : Bool} {after : Database}
    (done : reserveFinalPackageIntent w.system.db review manifest pdf packageId agrees =
      .ok after) :
    CatalogWorld.Sound { w with system := { w.system with db := after } } := by
  obtain ⟨agreement, -, rest⟩ := bind_ok.mp done
  split at rest
  · split at rest
    · cases rest
    · cases rest
      exact sound
  · exact sound.insertPackage ⟨packageId, review.organizationId, review.workspaceId, review.id,
      review.agreementId, manifest, pdf⟩ (sound.rows.reviews review held)
      (validateOwnedKey_package manifestKey) (validateOwnedKey_package pdfKey) rest

/-- A package has the keys of the event it is generated for. -/
theorem preparedKeys_ok {event : ReviewWorkflowOutboxRecord} {snapshot : PackageSnapshot}
    {manifest pdf : String} (done : preparedKeys event = .ok (snapshot, manifest, pdf)) :
    snapshot ∈ event.packageSnapshot ∧ (.reviewManifest, manifest) ∈ eventObjects event ∧
      (.reviewPdf, pdf) ∈ eventObjects event := by
  unfold preparedKeys at done
  split at done
  · cases done
  rename_i stored found
  generalize (if stored.repairPackageId.isSome then
    recoveryBase event.organizationId event.workspaceId event.reviewId
    else packageBase event.organizationId event.workspaceId event.reviewId) = base at done
  simp only at done
  split at done
  · cases done
  rename_i agree
  cases done
  simp only [not_or, not_not] at agree
  obtain ⟨-, manifestKey, pdfKey⟩ := agree
  simp [eventObjects, manifestKey, pdfKey, found]

theorem CatalogWorld.Sound.generatePackage (sound : w.Sound)
    {event : ReviewWorkflowOutboxRecord} (held : event ∈ w.system.db.workflowOutbox)
    {packageId : Uuid} {agrees : Bool} {after : Database}
    (done : generatePackage w.system.db event packageId agrees = .ok after) :
    CatalogWorld.Sound { w with system := { w.system with db := after } } := by
  obtain ⟨⟨snapshot, manifest, pdf⟩, prepared, rest⟩ := bind_ok.mp done
  obtain ⟨agreement, -, rest⟩ := bind_ok.mp rest
  obtain ⟨known, accepts, repairs⟩ := sound.rows.events event held
  obtain ⟨stored, first, second⟩ := preparedKeys_ok prepared
  have fresh : snapshot.repairPackageId = none := repairs snapshot stored
  rw [fresh] at rest
  split at rest
  · split at rest
    · cases rest
    · cases rest
      exact sound
  · rename_i wanted
    cases wanted
  · exact sound.insertPackage ⟨packageId, event.organizationId, event.workspaceId, event.reviewId,
      event.agreementId, manifest, pdf⟩ known (accepts _ first) (accepts _ second) rest
  · cases rest
theorem catalogCall_sound (sound : w.Sound) {event : CatalogEvent} (regular : Regular w event)
    (once : ¬ event.Redraws w.system) : (catalogCall w event).Sound := by
  cases event with
  | system event => exact sound.step regular once
  | createAgreement => exact sound.transact fun after done => sound.createAgreement regular done
  | createVersion => exact sound.transact fun after done => sound.createVersion done
  | submit =>
    refine sound.transact fun after done => ?_
    obtain ⟨submission, submitted, rfl⟩ := map_ok done
    exact sound.submit (fun claim held same => once ⟨claim, held, same⟩) submitted
  | submitComparison =>
    refine sound.transact fun after done => ?_
    obtain ⟨⟨queued, written⟩, submitted, rfl⟩ := map_ok done
    exact sound.submitComparison (fun claim held same => once ⟨claim, held, same⟩) submitted
  | enqueueEmbeddingReindexJob =>
    refine sound.transact fun after done => ?_
    obtain ⟨⟨queued, written⟩, submitted, rfl⟩ := map_ok done
    exact sound.reindex (fun claim held same => once ⟨claim, held, same⟩) submitted
  | startReview organizationId workspaceId agreementId reviewId =>
    simp only [catalogCall]
    split
    · exact sound
    · rename_i reviews started
      exact sound.startReview started
  | emit review eventType =>
    simp only [catalogCall]
    split
    · rename_i held
      exact sound.transact fun after done => sound.emit held done
    · exact sound
  | reserveFinalPackageIntent review manifest pdf packageId agrees =>
    simp only [catalogCall]
    split
    · rename_i held
      exact sound.transact fun after done => sound.reserve held regular.1 regular.2 done
    · exact sound
  | backfill review =>
    simp only [catalogCall]
    split
    · rename_i held
      exact sound.backfill held regular
    · exact sound
  | generatePackage event packageId agrees =>
    simp only [catalogCall]
    split
    · rename_i held
      exact sound.transact fun after done => sound.generatePackage held done
    · exact sound

theorem catalogStep_sound (sound : w.Sound) {event : CatalogEvent} (regular : Regular w event) :
    (catalogStep w event).Sound := by
  unfold catalogStep
  split
  · exact sound
  · exact catalogCall_sound sound regular ‹_›

theorem CatalogWorld.Empty.sound (empty : w.Empty) : w.Sound where
  agreementIds := by simp [empty.agreements]
  files := by simp [empty.agreements]
  rows :=
    { versions := by simp [empty.versions]
      jobs := by simp [empty.jobs]
      jobScopes := by simp [empty.jobs]
      claims := by simp [empty.claims]
      expected := by simp [empty.expected]
      intents := by simp [empty.intents]
      artifacts := by simp [empty.artifacts]
      packages := by simp [empty.finalPackages]
      events := by simp [empty.workflowOutbox]
      reviews := by simp [empty.reviews] }
  inventory :=
    { requestIds := by simp [empty.deletionRequests]
      owners := by simp [empty.deletionObjects]
      accepted := by simp [empty.deletionObjects] }

/-- From an empty database, no regular run records a key that the deletion worker would refuse. -/
theorem run_deletable (empty : w.Empty) (events : List CatalogEvent)
    (regular : meetsAlong catalogStep Regular w events) :
    (run catalogStep w events).system.db.Deletable := by
  refine CatalogWorld.Sound.deletable ?_
  exact run_invariant_along Regular CatalogWorld.Sound empty.sound
    (fun w event regular sound => catalogStep_sound sound regular) (meetsAlong_iff.mp regular)
end Steps

/-! An agreement over one uploaded document, its review and its deletion. -/

def emptyCatalog : CatalogWorld where
  system := { sampleWorld with
    db := { sampleDatabase with agreements := [], jobs := [], comparisonRuns := [] } }
  reviews := []

theorem emptyCatalog_empty : emptyCatalog.Empty := by
  constructor <;> rfl

def sampleDigest : Sha256 where
  text := "0000000000000000000000000000000000000000000000000000000000000000"
  hex := by decide +kernel

def sampleFile : AgreementFile where
  storageKey := documentKey (.ofNat 1) (.ofNat 2) sampleDigest .pdf
  checksum := sampleDigest.text
  contentType := "application/pdf"

def sampleRequest : CreateAgreementRequest where
  files := [sampleFile]
  processingState := .pending
  accepted file filed := by
    rw [List.mem_singleton.mp filed]
    decide +kernel
  notDeleted := by decide

def sampleReview : ReviewCaseRecord :=
  ⟨.ofNat 4, .ofNat 1, .ofNat 2, .ofNat 3⟩

def reviewSample : List CatalogEvent :=
  [.createAgreement (.ofNat 1) (.ofNat 2) sampleRequest (.ofNat 3) (.ofNat 9),
    .startReview (.ofNat 1) (.ofNat 2) (.ofNat 3) (.ofNat 4)]

def reviewedAndDeleted : List CatalogEvent :=
  reviewSample ++ [.emit sampleReview terminalEventType,
    .system (.acceptDeletion (.ofNat 1) (.ofNat 2) (.ofNat 3) (.ofNat 6) 10)]

theorem run_deletable_sample :
    (run catalogStep emptyCatalog reviewedAndDeleted).system.db.deletionObjects.length = 3 ∧
      (run catalogStep emptyCatalog reviewedAndDeleted).system.db.Deletable := by
  refine ⟨by decide +kernel, run_deletable emptyCatalog_empty reviewedAndDeleted ?_⟩
  refine ⟨fun file filed => ⟨sampleDigest, .pdf, ?_⟩, trivial, trivial, trivial, trivial⟩
  rw [List.mem_singleton.mp filed]
  rfl

/-- Whatever is called, every key that is listed for a deletion is accepted. -/
def NeverRefused : Prop :=
  ∀ (w : CatalogWorld) (events : List CatalogEvent), w.Empty →
    (run catalogStep w events).system.db.Deletable

/-- The migration finds a package of the reviewed agreement. -/
def recoverySample : List CatalogEvent :=
  reviewSample ++ [.reserveFinalPackageIntent sampleReview (manifestKey sampleReview.packageBase)
    (pdfKey sampleReview.packageBase) (.ofNat 7) true, .backfill sampleReview]

theorem not_neverRefused : ¬ NeverRefused := by
  intro never
  have deletable := never emptyCatalog recoverySample emptyCatalog_empty
  have refused : ∃ agreement ∈ (run catalogStep emptyCatalog recoverySample).system.db.agreements,
      ∃ object ∈ deletionObjects (run catalogStep emptyCatalog recoverySample).system.db agreement,
        object.1 = .reviewManifest ∧
          validateOwnedKey agreement.organizationId agreement.workspaceId agreement.id object.1
            object.2 = false := by
    decide +kernel
  obtain ⟨agreement, member, object, listed, -, refusal⟩ := refused
  have accepted := deletable.listed agreement member object listed
  rw [refusal] at accepted
  cases accepted

end AgreementIntelligence.Agreements
