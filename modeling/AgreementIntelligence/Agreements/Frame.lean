import AgreementIntelligence.Agreements.Fencing

/-! What processing and deletion leave of the rows that the API has written, and where the
rows of processing come from. No step adds an agreement, a version, a job, a package or a
terminal event, changes the columns that identify them, or withdraws a deletion request;
and every claim, artifact, intent and artifact row goes back to a job. -/

namespace AgreementIntelligence.Agreements
open Identity Lib.Table Lib.Runs

/-- The columns of a version that no step changes. -/
structure VersionColumns where
  id : Uuid
  scope : Scope
  storageKey : String
  checksum : String

def AgreementVersionRecord.columns (version : AgreementVersionRecord) : VersionColumns :=
  ⟨version.id, ⟨version.agreementId, version.organizationId, version.workspaceId⟩,
    version.storageKey, version.checksum⟩

/-- The columns of a job that no step changes, as far as keys are concerned. -/
def ProcessingJobRecord.origin (job : ProcessingJobRecord) :
    Uuid × ArtifactContext × Option String :=
  (job.id, job.context, job.sourceChecksum)

def ProcessingJob.origin (job : ProcessingJob) : Uuid × ArtifactContext × Option String :=
  (job.id, job.context, job.sourceChecksum)

/-- An intent without its state. -/
def ProcessingArtifactIntentRecord.reserved (intent : ProcessingArtifactIntentRecord) :
    ProcessingArtifactIntentRecord :=
  { intent with state := .expected }

/-- An agreement row has become another one: requested stays requested, and files only go. -/
structure AgreementRecord.Becomes (before after : AgreementRecord) : Prop where
  scope : after.scope = before.scope
  requested : before.deletionRequestedAt.isSome = true → after.deletionRequestedAt.isSome = true
  files : after.files ⊆ before.files

theorem AgreementRecord.Becomes.refl (row : AgreementRecord) : row.Becomes row :=
  ⟨rfl, fun requested => requested, List.Subset.refl _⟩

theorem AgreementRecord.Becomes.trans {first second third : AgreementRecord}
    (one : first.Becomes second) (two : second.Becomes third) : first.Becomes third :=
  ⟨two.scope.trans one.scope, fun requested => two.requested (one.requested requested),
    List.Subset.trans two.files one.files⟩

/-- The rows of one database come from rows of another. -/
structure Frame (before after : Database) : Prop where
  scopes : after.agreements.map AgreementRecord.scope =
    before.agreements.map AgreementRecord.scope
  agreements : ∀ row ∈ after.agreements, ∃ old ∈ before.agreements, old.Becomes row
  versions : ∀ row ∈ after.versions, ∃ old ∈ before.versions, old.columns = row.columns
  jobs : ∀ row ∈ after.jobs, ∃ old ∈ before.jobs, old.origin = row.origin
  artifacts : after.artifacts ⊆ before.artifacts
  intents : ∀ row ∈ after.intents, ∃ old ∈ before.intents, old.reserved = row.reserved
  finalPackages : after.finalPackages ⊆ before.finalPackages
  workflowOutbox : after.workflowOutbox ⊆ before.workflowOutbox

theorem Frame.refl (db : Database) : Frame db db where
  scopes := rfl
  agreements row member := ⟨row, member, .refl row⟩
  versions row member := ⟨row, member, rfl⟩
  jobs row member := ⟨row, member, rfl⟩
  artifacts := List.Subset.refl _
  intents row member := ⟨row, member, rfl⟩
  finalPackages := List.Subset.refl _
  workflowOutbox := List.Subset.refl _

theorem Frame.trans {first second third : Database} (one : Frame first second)
    (two : Frame second third) : Frame first third where
  scopes := two.scopes.trans one.scopes
  agreements row member := by
    obtain ⟨middle, there, becomes⟩ := two.agreements row member
    obtain ⟨old, present, became⟩ := one.agreements middle there
    exact ⟨old, present, became.trans becomes⟩
  versions row member := by
    obtain ⟨middle, there, same⟩ := two.versions row member
    obtain ⟨old, present, equal⟩ := one.versions middle there
    exact ⟨old, present, equal.trans same⟩
  jobs row member := by
    obtain ⟨middle, there, same⟩ := two.jobs row member
    obtain ⟨old, present, equal⟩ := one.jobs middle there
    exact ⟨old, present, equal.trans same⟩
  artifacts := List.Subset.trans two.artifacts one.artifacts
  intents row member := by
    obtain ⟨middle, there, same⟩ := two.intents row member
    obtain ⟨old, present, equal⟩ := one.intents middle there
    exact ⟨old, present, equal.trans same⟩
  finalPackages := List.Subset.trans two.finalPackages one.finalPackages
  workflowOutbox := List.Subset.trans two.workflowOutbox one.workflowOutbox

/-- An update of agreement rows that each become another one. -/
theorem Frame.mapAgreements (db : Database) (change : AgreementRecord → AgreementRecord)
    (becomes : ∀ row ∈ db.agreements, row.Becomes (change row)) :
    Frame db { db with agreements := db.agreements.map change } :=
  { Frame.refl db with
    scopes := by
      rw [List.map_map]
      exact List.map_congr_left fun row member => (becomes row member).scope
    agreements := fun row member => by
      obtain ⟨old, there, rfl⟩ := List.mem_map.mp member
      exact ⟨old, there, becomes old there⟩ }

theorem Frame.updateJob (db : Database) (jobId : Uuid)
    (change : ProcessingJobRecord → ProcessingJobRecord)
    (keeps : ∀ job, (change job).origin = job.origin) : Frame db (db.updateJob jobId change) :=
  { Frame.refl db with
    jobs := fun row member => by
      obtain ⟨old, there, rfl⟩ := mem_update.mp member
      refine ⟨old, there, ?_⟩
      split
      · exact (keeps old).symm
      · rfl }

theorem Frame.updateState (db : Database) (job : ProcessingJobRecord) (state : JobState) :
    Frame db (updateAgreementProcessingState db job state) := by
  unfold updateAgreementProcessingState
  split
  · exact .refl db
  · have agreements := Frame.mapAgreements db (fun agreement =>
      if agreement.id = job.agreementId ∧ agreement.organizationId = job.organizationId ∧
          (job.versionId = none ∨ agreement.currentVersionId = job.versionId)
      then { agreement with processingState := .job state } else agreement) fun row _ => by
        split <;> exact ⟨rfl, fun requested => requested, List.Subset.refl _⟩
    refine { agreements with versions := fun row member => ?_ }
    obtain ⟨old, there, rfl⟩ := List.mem_map.mp member
    refine ⟨old, there, ?_⟩
    split <;> rfl

theorem Frame.fewerIntents (db : Database) {intents : List ProcessingArtifactIntentRecord}
    (from_ : ∀ row ∈ intents, ∃ old ∈ db.intents, old.reserved = row.reserved) :
    Frame db { db with intents := intents } :=
  { Frame.refl db with intents := from_ }

theorem Frame.intentState (db : Database) (jobId : Uuid) (state : IntentState) :
    Frame db { db with
      intents := update (·.jobId) db.intents jobId fun row => { row with state := state } } := by
  refine .fewerIntents db fun row member => ?_
  obtain ⟨old, there, rfl⟩ := mem_update.mp member
  refine ⟨old, there, ?_⟩
  split <;> rfl

theorem Frame.deleteIntent (db : Database) (jobId : Uuid) : Frame db (db.deleteIntent jobId) :=
  .fewerIntents db fun row member => ⟨row, List.mem_of_mem_filter member, rfl⟩

theorem Frame.comparisonRuns (db : Database) (runs : List VersionComparisonRunRecord) :
    Frame db { db with comparisonRuns := runs } :=
  { Frame.refl db with }

/-! Processing -/

theorem Frame.inventoryLate {db after : Database} {context : ArtifactContext} {key : String}
    {now : Time} (done : inventoryLateArtifact db context key now = .ok after) :
    Frame db after := by
  obtain ⟨request, -, ⟨-, rfl⟩ | ⟨category, -, rfl⟩⟩ := inventoryLateArtifact_ok done
  · exact .refl _
  · exact { Frame.refl db with }

theorem Frame.reconcile {db after : Database} {intent : ProcessingArtifactIntentRecord}
    {now : Time} (done : reconcileArtifactIntent db intent now = .ok after) : Frame db after := by
  obtain ⟨inventoried, listed, rfl⟩ := reconcileArtifactIntent_ok done
  exact (Frame.inventoryLate listed).trans (.deleteIntent _ _)

theorem Frame.reconciled {db after : Database} {jobId : Uuid} {now : Time}
    (reconciled : Reconciled db jobId now after) : Frame db after := by
  cases reconciled with
  | none => exact .refl db
  | intent member named done => exact .reconcile done

theorem Frame.inventoried {db after : Database} {claimed : ProcessingJob}
    {expected : Option CompletedArtifact} {now : Time}
    (inventoried : Inventoried db claimed expected now after) : Frame db after := by
  cases inventoried with
  | none => exact .refl db
  | late computed known requested done => exact .inventoryLate done

theorem Frame.failRows (db : Database) (jobId : Uuid) (job : ProcessingJobRecord)
    (category message : String) (now : Time) :
    Frame db (failRows db jobId job category message now) := by
  have failed : Frame db (db.updateJob jobId (failJob category message now)) :=
    .updateJob db jobId _ fun _ => rfl
  unfold Agreements.failRows
  split
  · exact (failed.trans (.comparisonRuns _ _)).trans (.updateState _ job .failed)
  · exact failed.trans (.updateState _ job .failed)

theorem Frame.requeued {db after : Database} {claimed : ProcessingJob}
    {expected : Option CompletedArtifact} {category message : String} {nextRetryAt now : Time}
    {answer : Bool}
    (requeued : Requeued db claimed expected category message nextRetryAt now answer after) :
    Frame db after := by
  cases requeued with
  | idle => exact .refl db
  | inventoried late done requested => exact (Frame.inventoried late).trans (.reconciled done)
  | @queued job agreement found owned active =>
    exact (Frame.updateJob db claimed.id (queueAgain category message nextRetryAt)
      fun _ => rfl).trans (.updateState _ job .queued)

theorem Frame.failed {db after : Database} {claimed : ProcessingJob}
    {expected : Option CompletedArtifact} {category message : String} {now : Time}
    (failed : Failed db claimed expected category message now after) : Frame db after := by
  cases failed with
  | inventoried late => exact .inventoried late
  | reconciled found owned requested done => exact (Frame.reconciled done).trans (.failRows ..)
  | settled found owned active =>
    exact (Frame.intentState db claimed.id .settled).trans (.failRows ..)

theorem Frame.retryJob {db after : Database}
    {organizationId workspaceId agreementId jobId : Uuid} {now : Time}
    (done : retryJob db organizationId workspaceId agreementId jobId now = .ok after) :
    Frame db after := by
  unfold Agreements.retryJob at done
  split at done
  · cases done
  split at done
  · cases done
  split at done
  · cases done
  split at done
  · cases done
  split at done
  · cases done
  cases done
  exact (Frame.updateJob db jobId (retriedJob now) fun _ => rfl).trans
    (.mapAgreements _ _ fun row _ => by
      split <;> exact ⟨rfl, fun requested => requested, List.Subset.refl _⟩)

/-! Deletion -/

theorem Frame.acceptDeletion {db after : Database}
    {organizationId workspaceId agreementId deletionId : Uuid} {now : Time}
    (done : acceptDeletion db organizationId workspaceId agreementId deletionId now = .ok after) :
    Frame db after := by
  unfold Agreements.acceptDeletion at done
  split at done
  · cases done
    unfold redriveDeletion
    split
    · exact .refl db
    · exact { Frame.refl db with }
  split at done
  · cases done
  split at done
  · cases done
  · cases done
    exact { Frame.mapAgreements db _ (fun row _ => by
      split
      · exact ⟨rfl, fun _ => rfl, List.Subset.refl _⟩
      · exact .refl row) with }

theorem Frame.purgedRows (db : Database) (deletion : AgreementDeletion) :
    Frame db (purgedRows db deletion) := by
  have agreements : Frame db { db with
      agreements := (Agreements.purgedRows db deletion).agreements } :=
    .mapAgreements db _ fun row _ => by
      split
      · exact ⟨rfl, fun requested => requested, List.nil_subset _⟩
      · exact .refl row
  exact { agreements with
    versions := fun row member => ⟨row, List.mem_of_mem_filter member, rfl⟩
    jobs := fun row member => ⟨row, List.mem_of_mem_filter member, rfl⟩
    artifacts := List.filter_subset_self _
    intents := fun row member => ⟨row, List.mem_of_mem_filter member, rfl⟩
    finalPackages := List.filter_subset_self _
    workflowOutbox := List.filter_subset_self _ }

theorem Frame.completeAndPurge {db after : Database} {deletion : AgreementDeletion} {now : Time}
    (done : completeAndPurge db deletion now = .ok after) : Frame db after := by
  rcases completeAndPurge_ok done with ⟨-, rfl⟩ | ⟨-, -, -, rfl⟩
  · exact .refl _
  · exact (Frame.purgedRows db deletion).trans { Frame.refl _ with }

/-! Where the rows of processing come from -/

/-- What a step adds: claims of stored jobs, artifacts that the processor computes for held
claims, and the intent and the artifact row of an expected artifact. -/
structure Traced (before after : World) : Prop where
  scopes : after.db.agreements.map AgreementRecord.scope =
    before.db.agreements.map AgreementRecord.scope
  agreements : ∀ row ∈ after.db.agreements, ∃ old ∈ before.db.agreements, old.Becomes row
  versions : ∀ row ∈ after.db.versions, ∃ old ∈ before.db.versions, old.columns = row.columns
  jobs : ∀ row ∈ after.db.jobs, ∃ old ∈ before.db.jobs, old.origin = row.origin
  finalPackages : after.db.finalPackages ⊆ before.db.finalPackages
  workflowOutbox : after.db.workflowOutbox ⊆ before.db.workflowOutbox
  claims : ∀ claim ∈ after.claims, claim ∈ before.claims ∨
    ∃ job ∈ before.db.jobs, job.origin = claim.origin
  expected : ∀ pair ∈ after.expected, pair ∈ before.expected ∨
    pair.1 ∈ before.claims ∧ expectedArtifact before.db pair.1 = .ok pair.2
  intents : ∀ row ∈ after.db.intents, (∃ old ∈ before.db.intents, old.reserved = row.reserved) ∨
    ∃ pair ∈ before.expected, ∃ category,
      lateArtifactCategory pair.1.profile pair.2.key = some category ∧
        row.reserved = reservation pair.1 category pair.2.key
  artifacts : ∀ row ∈ after.db.artifacts, row ∈ before.db.artifacts ∨
    ∃ pair ∈ before.expected, ∃ job ∈ before.db.jobs, job.id = pair.1.id ∧
      (lateArtifactCategory pair.1.profile pair.2.key).isSome = true ∧
        row = artifactRow pair.1.id job pair.2.key

/-- A step that changes the database within its frame, and storage and what is known of
deletions in any way. -/
theorem Frame.traced {before after : World} (frame : Frame before.db after.db)
    (claims : after.claims = before.claims) (expected : after.expected = before.expected) :
    Traced before after where
  scopes := frame.scopes
  agreements := frame.agreements
  versions := frame.versions
  jobs := frame.jobs
  finalPackages := frame.finalPackages
  workflowOutbox := frame.workflowOutbox
  claims _ member := .inl (claims ▸ member)
  expected _ member := .inl (expected ▸ member)
  intents row member := .inl (frame.intents row member)
  artifacts _ member := .inl (frame.artifacts member)

theorem Traced.refl (w : World) : Traced w w := (Frame.refl w.db).traced rfl rfl

section Steps

variable {w : World}

theorem Frame.db {db : Database} (frame : Frame w.db db) : Traced w { w with db := db } :=
  frame.traced rfl rfl

theorem Frame.transact {outcome : Except Raised Database}
    (frame : ∀ after, outcome = .ok after → Frame w.db after) : Traced w (w.transact outcome) := by
  cases outcome with
  | error raised => exact .refl w
  | ok after => exact (frame after rfl).db

theorem Claimed.traced {jobId claimToken : Uuid} {now : Time} {result : Option ProcessingJob}
    {after : Database} (claimed : Claimed w.db jobId now claimToken result after) :
    Traced w { w with db := after, claims := w.claims ++ result.toList } := by
  cases claimed with
  | idle => exact Frame.traced (.refl w.db) (List.append_nil _) rfl
  | reconciled requested done => exact Frame.traced (.reconciled done) (List.append_nil _) rfl
  | @settled job agreement found active stored =>
    refine Frame.traced (.trans ?_ (.updateState _ job .completed)) (List.append_nil _) rfl
    split
    · exact .refl w.db
    · exact .updateJob w.db jobId _ fun _ => rfl
  | @started job agreement found active unstored takeable =>
    have frame := (Frame.updateJob w.db jobId (startAttempt now claimToken) fun _ => rfl).trans
      (.updateState _ job .processing)
    refine { frame.db with claims := fun claim member => ?_ }
    rcases List.mem_append.mp member with old | new
    · exact .inl old
    · rw [List.mem_singleton.mp new]
      exact .inr ⟨job, (Database.job?_eq_some found).1, rfl⟩

/-- A row of an expected artifact's reservation, or of a database after it. -/
theorem reservation_traced {job : ProcessingJob} {artifact : CompletedArtifact}
    {category : ObjectCategory} {after : Database} (held : (job, artifact) ∈ w.expected)
    (known : lateArtifactCategory job.profile artifact.key = some category)
    (frame : Frame (w.db.insertIntent (reservation job category artifact.key)) after) :
    Traced w { w with db := after } where
  scopes := frame.scopes
  agreements := frame.agreements
  versions := frame.versions
  jobs := frame.jobs
  finalPackages := frame.finalPackages
  workflowOutbox := frame.workflowOutbox
  claims _ member := .inl member
  expected _ member := .inl member
  intents row member := by
    obtain ⟨old, there, same⟩ := frame.intents row member
    rcases List.mem_append.mp there with before | new
    · exact .inl ⟨old, before, same⟩
    · rw [List.mem_singleton.mp new] at same
      exact .inr ⟨_, held, category, known, same.symm⟩
  artifacts _ member := .inl (frame.artifacts member)

theorem Expected.traced {job : ProcessingJob} {artifact : CompletedArtifact} {now : Time}
    {answer : Bool} {after : Database} (held : (job, artifact) ∈ w.expected)
    (expected : Expected w.db job artifact now answer after) :
    Traced w { w with db := after } := by
  cases expected with
  | idle => exact .refl w
  | reserved active found owned known absent => exact reservation_traced held known (.refl _)
  | renewed active => exact (Frame.intentState w.db job.id .expected).db
  | reconciled requested done => exact (Frame.reconciled done).db
  | inventoried requested known absent done =>
    exact reservation_traced held known (.reconcile done)

theorem commitRows_traced {claimed : ProcessingJob} {artifact : CompletedArtifact}
    {job : ProcessingJobRecord} {runs : List VersionComparisonRunRecord} {now : Time}
    (held : (claimed, artifact) ∈ w.expected) (found : w.db.job? claimed.id = some job) :
    Traced w { w with
      db := commitRows { w.db with comparisonRuns := runs } claimed job
        (lateArtifactCategory claimed.profile artifact.key) artifact.key now } := by
  obtain ⟨member, named⟩ := Database.job?_eq_some found
  have frame : ∀ db : Database, Frame db ((updateAgreementProcessingState
      (db.updateJob claimed.id (completeJob now)) job .completed).deleteIntent claimed.id) :=
    fun db => ((Frame.updateJob db claimed.id (completeJob now) fun _ => rfl).trans
      (.updateState _ job .completed)).trans (.deleteIntent _ _)
  unfold commitRows
  split
  · rename_i fresh
    have grown := frame { w.db with
      comparisonRuns := runs
      artifacts := w.db.artifacts ++ [artifactRow claimed.id job artifact.key] }
    exact {
      scopes := grown.scopes
      agreements := grown.agreements
      versions := grown.versions
      jobs := grown.jobs
      finalPackages := grown.finalPackages
      workflowOutbox := grown.workflowOutbox
      claims := fun _ there => .inl there
      expected := fun _ there => .inl there
      intents := fun row there => .inl (grown.intents row there)
      artifacts := fun row there => by
        rcases List.mem_append.mp (grown.artifacts there) with old | new
        · exact .inl old
        · exact .inr ⟨_, held, job, member, named, fresh.1, List.mem_singleton.mp new⟩ }
  · exact ((Frame.comparisonRuns w.db runs).trans (frame _)).db

theorem Committed.traced {claimed : ProcessingJob} {prepared : PreparedArtifact} {now : Time}
    {left : List String} {result : Except Raised (Bool × Database)}
    (held : (claimed, prepared.artifact) ∈ w.expected)
    (outcome : Committed w.db w.storage claimed prepared now left result) :
    Traced w { w.transact (result.map Prod.snd) with storage := left } := by
  cases outcome with
  | stopped returns =>
    refine Frame.transact fun after returned => ?_
    obtain ⟨answer, done⟩ := map_snd_ok returned
    cases (returns answer after done).2 with
    | inventoried late => exact .inventoried late
    | reconciled requested reconciled => exact .reconciled reconciled
  | rolledBack writes => exact Frame.traced (.refl w.db) rfl rfl
  | @committed job finalized writes runs =>
    obtain ⟨comparisonRuns, rfl⟩ := runs
    have traced : Traced w { w with
        db := commitRows { w.db with comparisonRuns := comparisonRuns } claimed job
          (lateArtifactCategory claimed.profile prepared.artifact.key) prepared.artifact.key
          now } := commitRows_traced held writes.found
    exact { traced with }

theorem call_traced {call : WorkerCall} (held : call.Held w) : Traced w (w.call call) := by
  cases call with
  | claim jobId organizationId workspaceId now claimToken =>
    unfold World.call
    simp only
    split
    · exact .refl w
    · rename_i result after done
      exact (claim_ok done).traced
  | expect job artifact now =>
    cases outcome : expect w.db job artifact now with
    | error raised =>
      simp only [World.call, outcome]
      exact .refl w
    | ok result =>
      simp only [World.call, outcome]
      exact (expect_ok outcome).traced held
  | commitPrepared job artifact content verdict now =>
    have expected : (job, (prepare job artifact content).artifact) ∈ w.expected := held
    exact (w.commit_committed job artifact content verdict now).traced expected
  | requeue job expected category message nextRetryAt now =>
    refine Frame.transact fun after returned => ?_
    obtain ⟨answer, done⟩ := map_snd_ok returned
    exact .requeued (requeue_ok done)
  | fail job expected category message now =>
    exact Frame.transact fun after returned => .failed (fail_ok returned)

theorem step_traced (w : World) (event : Event) : Traced w (step w event) := by
  cases event with
  | call worker =>
    simp only [step]
    split
    · exact call_traced ‹_›
    · exact .refl w
  | expectArtifact job =>
    simp only [step]
    split
    · rename_i held
      split
      · exact .refl w
      · rename_i artifact expected
        refine { Traced.refl w with expected := fun pair member => ?_ }
        rcases List.mem_append.mp member with old | new
        · exact .inl old
        · rw [List.mem_singleton.mp new]
          exact .inr ⟨held, expected⟩
    · exact .refl w
  | crashInCommit job artifact content now =>
    simp only [step]
    split
    · exact Frame.traced (.refl w.db) rfl rfl
    · exact .refl w
  | retryJob organizationId workspaceId agreementId jobId now =>
    exact Frame.transact fun after done => .retryJob done
  | acceptDeletion organizationId workspaceId agreementId deletionId now =>
    exact Frame.transact fun after done => .acceptDeletion done
  | claimDeletion deletionId organizationId workspaceId now claimToken =>
    simp only [step, claimDeletion]
    split
    · exact Frame.traced (.refl w.db) rfl rfl
    · exact Frame.traced { Frame.refl w.db with } rfl rfl
  | listPending deletion =>
    simp only [step]
    split
    · exact Frame.traced (.refl w.db) rfl rfl
    · exact .refl w
  | removeObject deletion item =>
    simp only [step]
    split
    · exact Frame.traced (.refl w.db) rfl rfl
    · exact .refl w
  | markDeleted deletion item now =>
    simp only [step]
    split
    · refine Frame.transact fun after done => ?_
      unfold markDeleted at done
      split at done
      · cases done
      · cases done
        exact { Frame.refl w.db with }
    · exact .refl w
  | deleteSource deletion item now =>
    simp only [step, deleteSourceIfUnreferenced]
    split
    · split
      · exact Frame.traced (.refl w.db) rfl rfl
      split
      · exact Frame.traced (.refl w.db) rfl rfl
      split <;> exact Frame.traced { Frame.refl w.db with } rfl rfl
    · exact .refl w
  | retryObject deletion item message nextRetryAt =>
    simp only [step, retryObject]
    split
    · split <;> exact Frame.db { Frame.refl w.db with }
    · exact .refl w
  | failObject deletion item message now =>
    simp only [step, failObject]
    split
    · split <;> exact Frame.db { Frame.refl w.db with }
    · exact .refl w
  | retryDatabaseCleanup deletion message nextRetryAt =>
    simp only [step, retryDatabaseCleanup]
    split
    · split <;> exact Frame.db { Frame.refl w.db with }
    · exact .refl w
  | failDatabaseCleanup deletion message now =>
    simp only [step, failDatabaseCleanup]
    split
    · split <;> exact Frame.db { Frame.refl w.db with }
    · exact .refl w
  | recoverStaleDeletions organizationId now => exact Frame.db { Frame.refl w.db with }
  | completeAndPurge deletion now =>
    simp only [step]
    split
    · exact Frame.transact fun after done => .completeAndPurge done
    · exact .refl w

end Steps

end AgreementIntelligence.Agreements
