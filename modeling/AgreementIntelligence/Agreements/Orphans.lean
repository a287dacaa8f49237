import AgreementIntelligence.Agreements.Fencing
import AgreementIntelligence.Agreements.InventoryWrites

/-! No orphaned artifact after a deletion. Every step of the workers and of the API keeps the
books of the agreement; since a completed deletion has neither inventory rows nor intents, the
books then say that no reserved key is in storage, and nothing is stored after the request. -/

namespace AgreementIntelligence.Agreements
open Identity Lib.Table Lib.Runs Lib.Text

/-! Writes to columns that the books leave open -/

theorem Quiet.updateState (db : Database) (job : ProcessingJobRecord) (state : JobState) :
    Quiet db (updateAgreementProcessingState db job state) where
  agreements := updateAgreementProcessingState_standing db job state
  jobs := by rw [updateAgreementProcessingState_jobs]
  artifacts := updateAgreementProcessingState_artifacts db job state
  intents := by rw [updateAgreementProcessingState_intents]
  objects := by unfold updateAgreementProcessingState; split <;> rfl
  nextObjectId := by unfold updateAgreementProcessingState; split <;> rfl
  requests := by unfold updateAgreementProcessingState; split <;> rfl
  completed done := by
    unfold updateAgreementProcessingState at done
    split at done
    · exact done
    · exact done

theorem Quiet.updateJob (db : Database) (jobId : Uuid)
    (change : ProcessingJobRecord → ProcessingJobRecord)
    (keeps : ∀ job, (change job).identity = job.identity) : Quiet db (db.updateJob jobId change) :=
  { Quiet.refl db with jobs := map_update keeps }

theorem Quiet.comparisonRuns (db : Database) (runs : List VersionComparisonRunRecord) :
    Quiet db { db with comparisonRuns := runs } :=
  { Quiet.refl db with }

theorem Quiet.intentState (db : Database) (jobId : Uuid) (state : IntentState) :
    Quiet db { db with
      intents := update (·.jobId) db.intents jobId fun row => { row with state := state } } :=
  { Quiet.refl db with intents := map_update fun _ => rfl }

theorem Quiet.failRows (db : Database) (jobId : Uuid) (job : ProcessingJobRecord)
    (category message : String) (now : Time) :
    Quiet db (failRows db jobId job category message now) := by
  have failed : Quiet db (db.updateJob jobId (failJob category message now)) :=
    .updateJob db jobId _ fun _ => rfl
  unfold Agreements.failRows
  split
  · exact (failed.trans (.comparisonRuns _ _)).trans (.updateState _ job .failed)
  · exact failed.trans (.updateState _ job .failed)

theorem Quiet.retryJob {db after : Database}
    {organizationId workspaceId agreementId jobId : Uuid} {now : Time}
    (done : retryJob db organizationId workspaceId agreementId jobId now = .ok after) :
    Quiet db after := by
  unfold Agreements.retryJob at done
  split at done
  · cases done
  split at done
  · cases done
  split at done
  · cases done
  split at done
  · cases done
  split at done
  · cases done
  cases done
  have queued : Quiet db (db.updateJob jobId (retriedJob now)) := .updateJob db jobId _ fun _ => rfl
  exact { queued with agreements := map_update fun _ => rfl }

/-- Requests may change as long as none completes. -/
theorem Quiet.updateRequests (db : Database)
    {change : AgreementDeletionRequestRecord → AgreementDeletionRequestRecord}
    (outbox : List AgreementDeletionOutboxRecord)
    (keeps : ∀ request, (change request).identity = request.identity)
    (stays : ∀ request, (change request).state = .completed → request.state = .completed) :
    Quiet db { db with
      deletionRequests := db.deletionRequests.map change, deletionOutbox := outbox } :=
  { Quiet.refl db with
    requests := by
      rw [List.map_map]
      exact List.map_congr_left fun request _ => keeps request
    completed := fun ⟨request, member, done⟩ => by
      obtain ⟨old, there, rfl⟩ := List.mem_map.mp member
      exact ⟨old, there, stays old done⟩ }

theorem Quiet.redrive (db : Database) (request : AgreementDeletionRequestRecord) (now : Time) :
    Quiet db (redriveDeletion db request now) := by
  unfold redriveDeletion
  split
  · exact .refl db
  · refine .updateRequests db _ (fun row => ?_) fun row => ?_
    · split <;> rfl
    · split
      · intro done
        cases done
      · exact id

theorem Quiet.claimDeletion (db : Database) (deletionId organizationId workspaceId : Uuid)
    (now : Time) (claimToken : Uuid) :
    Quiet db (claimDeletion db deletionId organizationId workspaceId now claimToken).2 := by
  unfold Agreements.claimDeletion
  split
  · exact .refl db
  · refine .updateRequests db _ (fun row => ?_) fun row => ?_
    · split <;> rfl
    · split
      · exact fun done => nomatch done
      · exact id

theorem Quiet.noteObjectError (db : Database) (deletion : AgreementDeletion) (objectId : Nat)
    (message : String) : Quiet db (db.noteObjectError deletion objectId message) :=
  { Quiet.refl db with
    objects := by
      simp only [Database.noteObjectError, List.map_map]
      refine List.map_congr_left fun object _ => ?_
      rw [Function.comp_apply]
      split <;> rfl }

/-- A claimant gives the request up, to be retried or as failed. -/
theorem Quiet.giveUp (db : Database) (deletion : AgreementDeletion) (category message : String)
    (at_ : Time) : Quiet db (db.retryClaim deletion category message at_) ∧
      Quiet db (db.failClaim deletion category message at_) := by
  constructor
  · refine .updateRequests db _ (fun row => ?_) fun row => ?_
    · split <;> rfl
    · split
      · exact fun done => nomatch done
      · exact id
  · refine .updateRequests db _ (fun row => ?_) fun row => ?_
    · split <;> rfl
    · split
      · exact fun done => nomatch done
      · exact id

theorem Quiet.recoverStale (db : Database) (organizationId : Uuid) (now : Time) :
    Quiet db (recoverStaleDeletions db organizationId now) := by
  refine .updateRequests db _ (fun row => ?_) fun row => ?_
  · split <;> rfl
  · split
    · exact fun done => nomatch done
    · exact id

/-! The calls of the workers -/

section Calls

variable {a : Scope} {w : World}

theorem Keeps.transact (sound : Sound a w) {outcome : Except Raised Database}
    (keeps : ∀ after, outcome = .ok after → Keeps a w { w with db := after }) :
    Keeps a w (w.transact outcome) := by
  cases outcome with
  | error raised => exact .refl sound
  | ok after => exact keeps after rfl

/-- The context of a claim is the one of its job. -/
theorem Sound.job_context (sound : Sound a w) {claim : ProcessingJob}
    {job : ProcessingJobRecord} (held : claim ∈ w.claims)
    (found : w.db.job? claim.id = some job) : job.context = claim.context := by
  obtain ⟨member, named⟩ := Database.job?_eq_some found
  exact sound.claims claim held job member named

theorem Keeps.claimed (sound : Sound a w) {jobId claimToken : Uuid} {now : Time}
    {result : Option ProcessingJob} {after : Database}
    (claimed : Claimed w.db jobId now claimToken result after) :
    Keeps a w { w with db := after, claims := w.claims ++ result.toList } := by
  cases claimed with
  | idle =>
    rw [Option.toList_none, List.append_nil]
    exact .refl sound
  | reconciled requested done =>
    rw [Option.toList_none, List.append_nil]
    exact .reconciled sound done
  | @settled job agreement found active stored =>
    rw [Option.toList_none, List.append_nil]
    refine .of_quiet sound (Quiet.trans ?_ (.updateState _ job .completed))
    split
    · exact .refl w.db
    · exact .updateJob w.db jobId _ fun _ => rfl
  | @started job agreement found active unstored takeable =>
    have quiet := (Quiet.updateJob w.db jobId (startAttempt now claimToken) fun _ => rfl).trans (.updateState _ job .processing)
    refine (Keeps.of_quiet sound quiet).trans (.learn ?_ rfl rfl)
    refine (Sound.of_quiet quiet sound).addClaim fun other there named => ?_
    obtain ⟨old, present, id, context⟩ := quiet.job there
    obtain ⟨member, -⟩ := Database.job?_eq_some found
    have one := find?_of_mem sound.jobIds member
    have two := find?_of_mem sound.jobIds present
    rw [id.trans named] at two
    rw [← context, Option.some.inj (two.symm.trans one)]
    rfl

theorem Keeps.expected (sound : Sound a w) {job : ProcessingJob} {artifact : CompletedArtifact}
    {now : Time} {answer : Bool} {after : Database} (held : job ∈ w.claims)
    (expected : Expected w.db job artifact now answer after) :
    Keeps a w { w with db := after } := by
  cases expected with
  | idle => exact .refl sound
  | reserved active found owned known absent =>
    obtain ⟨unrequested, scope⟩ := sound.of_active active
    exact .write (sound.reserve unrequested scope held known (sound.no_intent scope absent))
      (fun key accounted => accounted.reserve _) rfl
  | renewed active => exact .of_quiet sound (.intentState w.db job.id .expected)
  | reconciled requested done => exact .reconciled sound done
  | inventoried requested known absent done =>
    exact .reserveLate sound (sound.no_intent (sound.of_requested requested).2 absent) done

/-- The rows of a commit: the artifact row takes over from the intent. -/
theorem Keeps.commitRows (sound : Sound a w) {claimed : ProcessingJob}
    {artifact : CompletedArtifact} {job : ProcessingJobRecord}
    (held : (claimed, artifact) ∈ w.expected) (writes : Writes w.db claimed artifact job)
    (runs : List VersionComparisonRunRecord) (now : Time) :
    Keeps a w { w with
      db := commitRows { w.db with comparisonRuns := runs } claimed job
        (lateArtifactCategory claimed.profile artifact.key) artifact.key now } := by
  obtain ⟨holder, categorised⟩ := sound.expected _ held
  have context := sound.job_context holder writes.found
  obtain ⟨member, named⟩ := Database.job?_eq_some writes.found
  obtain ⟨agreement, active⟩ := writes.active
  obtain ⟨unrequested, scope⟩ := sound.of_active active
  have compared : Keeps a w { w with db := { w.db with comparisonRuns := runs } } :=
    .of_quiet sound (.comparisonRuns w.db runs)
  -- the artifact row
  let stored := ({ w.db with comparisonRuns := runs } : Database)
  have produced : ∃ rows, Keeps a w { w with db := { stored with artifacts := rows } } ∧
      (∀ category, lateArtifactCategory claimed.profile artifact.key = some category →
        ∃ row ∈ rows, row.artifactKey = artifact.key) ∧
      Agreements.commitRows stored claimed job
        (lateArtifactCategory claimed.profile artifact.key) artifact.key now =
          (updateAgreementProcessingState (({ stored with artifacts := rows } : Database).updateJob
            claimed.id (completeJob now)) job .completed).deleteIntent claimed.id := by
    unfold Agreements.commitRows
    split
    · rename_i fresh
      obtain ⟨category, known⟩ := Option.isSome_iff_exists.mp fresh.1
      refine ⟨_, compared.trans (.write (compared.sound.appendArtifact
        (artifactRow claimed.id job artifact.key) ?_ ⟨job, member, named, ?_⟩)
        (fun key accounted => accounted.appendArtifact _) rfl), fun _ _ => ⟨_,
          List.mem_append_right _ (List.mem_singleton_self _), rfl⟩, rfl⟩
      · have owner : job.context.scope = a := by rw [context, scope]
        exact congrArg Scope.agreementId owner
      · have profile : job.profile = claimed.profile := congrArg ArtifactContext.profile context
        rw [profile, (lateArtifactCategory_some known).1]
        rfl
    · rename_i present
      refine ⟨w.db.artifacts, compared, fun category known => ?_, rfl⟩
      simp only [known, Option.isSome_some, true_and, not_not] at present
      obtain ⟨row, there, same⟩ := List.any_eq_true.mp present
      exact ⟨row, there, (of_decide_eq_true same).2⟩
  obtain ⟨rows, appended, kept, same⟩ := produced
  rw [show ({ w.db with comparisonRuns := runs } : Database) = stored from rfl, same]
  have quiet := (Quiet.updateJob { stored with artifacts := rows } claimed.id
    (completeJob now) fun _ => rfl).trans (.updateState _ job .completed)
  have completed := appended.trans (.of_quiet appended.sound quiet)
  refine completed.trans (.write (completed.sound.deleteIntent claimed.id)
    (fun key accounted => accounted.deleteIntent fun intent there ofJob keyed =>
      .inl ⟨?_, ?_⟩) rfl)
  · simp only [updateAgreementProcessingState_intents, Database.updateJob, stored] at there
    have reserved := sound.intents intent there
    -- the intent of the job is the one that the commit has checked
    cases known : lateArtifactCategory claimed.profile artifact.key with
    | none =>
      have profile : claimed.profile = intent.profile :=
        (congrArg ArtifactContext.profile context).symm.trans
          (reserved.2.2 job member (named.trans ofJob.symm))
      have plain := (lateArtifactCategory_some reserved.2.1).2.2
      rw [← profile, categorised known] at plain
      cases plain
    | some category =>
      obtain ⟨current, present, currentJob, currentKey⟩ := writes.intent category known
      have one := find?_of_mem sound.intentJobs there
      have two := find?_of_mem sound.intentJobs present
      rw [ofJob, ← currentJob] at one
      obtain ⟨row, inside, rowKey⟩ := kept category known
      rw [← keyed, Option.some.inj (one.symm.trans two), currentKey]
      refine ⟨row, ?_, rowKey⟩
      simpa only [updateAgreementProcessingState_artifacts, Database.updateJob] using inside
  · exact fun requested => unrequested (quiet.requested_iff.mp requested)

theorem Keeps.storedAndCommitted (sound : Sound a w) {claimed : ProcessingJob}
    {prepared : PreparedArtifact} {now : Time} {left : List String}
    {result : Except Raised (Bool × Database)}
    (held : (claimed, prepared.artifact) ∈ w.expected)
    (outcome : Committed w.db w.storage claimed prepared now left result) :
    Keeps a w { w with storage := left } ∧
      Keeps a w { w.transact (result.map Prod.snd) with storage := left } := by
  have stores : ∀ job storage, Writes w.db claimed prepared.artifact job →
      Keeps a w { w with storage := storage } := fun job storage writes => by
    obtain ⟨agreement, active⟩ := writes.active
    have unrequested := (sound.of_active active).1
    exact ⟨sound.store unrequested storage,
      fun key accounted => accounted.store unrequested storage,
      fun requested => absurd requested unrequested⟩
  cases outcome with
  | stopped returns =>
    refine ⟨.refl sound, Keeps.transact sound fun after returned => ?_⟩
    obtain ⟨answer, done⟩ := map_snd_ok returned
    cases (returns answer after done).2 with
    | inventoried late => exact .inventoried sound late
    | reconciled requested reconciled => exact .reconciled sound reconciled
  | rolledBack writes => exact ⟨stores _ _ writes, stores _ _ writes⟩
  | @committed job finalized writes runs =>
    obtain ⟨comparisonRuns, rfl⟩ := runs
    have stored := stores job (if prepared.content.isSome then
      putImmutable w.storage prepared.artifact.key else w.storage) writes
    refine ⟨stored, stored.trans ?_⟩
    exact .commitRows stored.sound held writes comparisonRuns now

theorem Keeps.requeued (sound : Sound a w) {claimed : ProcessingJob}
    {expected : Option CompletedArtifact} {category message : String} {nextRetryAt now : Time}
    {answer : Bool} {after : Database}
    (requeued : Requeued w.db claimed expected category message nextRetryAt now answer after) :
    Keeps a w { w with db := after } := by
  cases requeued with
  | idle => exact .refl sound
  | inventoried late done requested =>
    have inventoried := Keeps.inventoried sound late
    exact inventoried.trans (.reconciled inventoried.sound done)
  | @queued job agreement found owned active =>
    exact .of_quiet sound ((Quiet.updateJob w.db claimed.id
      (queueAgain category message nextRetryAt) fun _ => rfl).trans (.updateState _ job .queued))

theorem Keeps.failed (sound : Sound a w) {claimed : ProcessingJob}
    {expected : Option CompletedArtifact} {category message : String} {now : Time}
    {after : Database} (failed : Failed w.db claimed expected category message now after) :
    Keeps a w { w with db := after } := by
  cases failed with
  | inventoried late => exact .inventoried sound late
  | @reconciled job scope agreement middle found owned requested done =>
    have reconciled := Keeps.reconciled sound done
    exact reconciled.trans (.of_quiet reconciled.sound (.failRows _ _ job category message now))
  | @settled job agreement found owned active =>
    exact .of_quiet sound ((Quiet.intentState w.db claimed.id .settled).trans
      (.failRows _ _ job category message now))

theorem call_keeps (sound : Sound a w) {call : WorkerCall} (held : call.Held w) :
    Keeps a w (w.call call) := by
  cases call with
  | claim jobId organizationId workspaceId now claimToken =>
    unfold World.call
    simp only
    split
    · exact .refl sound
    · rename_i result after done
      exact .claimed sound (claim_ok done)
  | expect job artifact now =>
    refine .transact sound fun after returned => ?_
    obtain ⟨answer, done⟩ := map_snd_ok returned
    exact .expected sound (sound.expected _ held).1 (expect_ok done)
  | commitPrepared job artifact content verdict now =>
    have outcome := w.commit_committed job artifact content verdict now
    have expected : (job, (prepare job artifact content).artifact) ∈ w.expected := held
    exact (Keeps.storedAndCommitted sound expected outcome).2
  | requeue job expected category message nextRetryAt now =>
    refine .transact sound fun after returned => ?_
    obtain ⟨answer, done⟩ := map_snd_ok returned
    exact .requeued sound (requeue_ok done)
  | fail job expected category message now =>
    exact .transact sound fun after returned => .failed sound (fail_ok returned)

/-! The other steps -/

/-- Only the keys of a re-index job have no category. -/
theorem expectedArtifact_categorised {db : Database} {job : ProcessingJob}
    {artifact : CompletedArtifact} (expected : expectedArtifact db job = .ok artifact)
    (uncategorised : lateArtifactCategory job.profile artifact.key = none) :
    startsWith job.profile embeddingReindexProfilePrefix = true := by
  by_contra other
  rw [Bool.not_eq_true] at other
  have keyed : startsWith artifact.key "embedding-reindex/" = true := by
    unfold lateArtifactCategory at uncategorised
    split at uncategorised
    · rename_i either
      simpa only [other, Bool.false_or] using either
    · split at uncategorised <;> cases uncategorised
  unfold expectedArtifact at expected
  split at expected
  · unfold comparisonExpectedArtifact at expected
    split at expected
    · cases expected
    · rename_i run found
      cases expected
      have lead : startsWith (comparisonArtifactKey run.id) "comparisons/" = true :=
        startsWith_append_of (startsWith_append_of (startsWith_self _) _) _
      rw [startsWith_disjoint lead (by decide)] at keyed
      cases keyed
  · rw [embeddingReindexConfigurationId, other] at expected
    simp only [Bool.false_eq_true, if_false] at expected
    unfold documentExpectedArtifact at expected
    split at expected
    · cases expected
    split at expected
    · cases expected
    split at expected
    · cases expected
    rename_i checksum _ _
    cases expected
    have lead : startsWith (documentArtifactKey job checksum) "tenants/" = true := by
      unfold documentArtifactKey
      iterate 8 refine startsWith_append_of ?_ _
      exact startsWith_self _
    rw [startsWith_disjoint lead (by decide)] at keyed
    cases keyed

theorem Keeps.acceptDeletion (sound : Sound a w)
    {organizationId workspaceId agreementId deletionId : Uuid} {now : Time} {after : Database}
    (done : acceptDeletion w.db organizationId workspaceId agreementId deletionId now =
      .ok after) : Keeps a w { w with db := after } := by
  unfold Agreements.acceptDeletion at done
  split at done
  · cases done
    exact .of_quiet sound (.redrive w.db _ now)
  split at done
  · cases done
  rename_i agreement found
  split at done
  · cases done
  rename_i active
  cases done
  have member := (Database.agreement?_eq_some found).1
  exact .accept sound member (by simpa using active) deletionId now

theorem Keeps.claimDeletion (sound : Sound a w) (deletionId organizationId workspaceId : Uuid)
    (now : Time) (claimToken : Uuid) :
    Keeps a w (step w (.claimDeletion deletionId organizationId workspaceId now claimToken)) := by
  have quiet := Quiet.claimDeletion w.db deletionId organizationId workspaceId now claimToken
  refine (Keeps.of_quiet sound quiet).trans (.learn ?_ rfl rfl)
  have claimed : ∀ deletion ∈ (Agreements.claimDeletion w.db deletionId organizationId workspaceId
      now claimToken).1, ∃ request ∈ w.db.deletionRequests,
        request.id = deletion.id ∧ request.scope = deletion.scope := by
    intro deletion result
    unfold Agreements.claimDeletion at result
    split at result
    · cases result
    · rename_i request found
      cases result
      have facts := List.find?_some found
      obtain ⟨id, organization, workspace, -⟩ := of_decide_eq_true facts
      refine ⟨request, List.mem_of_find?_eq_some found, id, ?_⟩
      rw [AgreementDeletionRequestRecord.scope, organization, workspace]
      rfl
  cases result : (Agreements.claimDeletion w.db deletionId organizationId workspaceId now
      claimToken).1 with
  | none =>
    simp only [step, result, Option.toList_none, List.append_nil]
    exact Sound.of_quiet quiet sound
  | some deletion =>
    obtain ⟨request, member, id, scope⟩ := claimed deletion result
    obtain ⟨-, -, inScope⟩ := sound.request member
    obtain ⟨new, there, same⟩ := quiet.request member
    simp only [step, result, Option.toList_some]
    exact (Sound.of_quiet quiet sound).addDeletion (scope.symm.trans inScope)
      ⟨new, there, same.trans id⟩

theorem Sound.pendingObjects {deletion : AgreementDeletion} :
    ∀ item ∈ pendingObjects w.db deletion, ∃ object ∈ w.db.deletionObjects, object.id = item.id ∧
      object.objectKey = item.objectKey ∧ object.category = item.category := by
  intro item member
  unfold Agreements.pendingObjects at member
  split at member
  · obtain ⟨object, inside, rfl⟩ := List.mem_map.mp member
    exact ⟨object, List.mem_of_mem_filter inside, rfl, rfl, rfl⟩
  · cases member

theorem Keeps.deleteSource (sound : Sound a w) {deletion : AgreementDeletion}
    {item : AgreementDeletionObject} (now : Time) (listed : (deletion, item) ∈ w.listed)
    (source : item.category = .source) :
    Keeps a w { w.transact (deleteSourceIfUnreferenced w.db w.storage deletion item now).2 with
      storage := (deleteSourceIfUnreferenced w.db w.storage deletion item now).1 } := by
  have ofSource : ∀ object ∈ w.db.deletionObjects, object.id = item.id →
      object.category = .source := fun object there named =>
    ((sound.listed _ listed).2.2 object there named).2.trans source
  unfold deleteSourceIfUnreferenced
  split
  · exact .refl sound
  split
  · exact .refl sound
  split
  · exact .finish sound deletion .preserved now fun object there named category =>
      absurd (ofSource object there named) category
  · have removed := Keeps.remove sound item.objectKey
    have quiet : Quiet w.db { w.db with
        registry := registerDeleted w.db.registry deletion.organizationId deletion.workspaceId
          item.objectKey now } := { Quiet.refl w.db with }
    have registered := removed.trans (.of_quiet removed.sound quiet)
    exact registered.trans (.finish registered.sound deletion .deleted now
      fun object there named category => absurd (ofSource object there named) category)

theorem step_keeps (sound : Sound a w) (event : Event) : Keeps a w (step w event) := by
  cases event with
  | call worker =>
    simp only [step]
    split
    · exact call_keeps sound ‹_›
    · exact .refl sound
  | expectArtifact job =>
    simp only [step]
    split
    · rename_i held
      split
      · exact .refl sound
      · rename_i artifact expected
        have categorised := expectedArtifact_categorised expected
        exact .learn (sound.addExpected held categorised) rfl rfl
    · exact .refl sound
  | crashInCommit job artifact content now =>
    simp only [step]
    split
    · rename_i held
      have outcome := w.commit_committed job artifact content (.ok ()) now
      have expected : (job, (prepare job artifact content).artifact) ∈ w.expected := held
      exact (Keeps.storedAndCommitted sound expected outcome).1
    · exact .refl sound
  | retryJob organizationId workspaceId agreementId jobId now =>
    exact .transact sound fun after done => .of_quiet sound (.retryJob done)
  | acceptDeletion organizationId workspaceId agreementId deletionId now =>
    exact .transact sound fun after done => .acceptDeletion sound done
  | claimDeletion deletionId organizationId workspaceId now claimToken =>
    exact .claimDeletion sound deletionId organizationId workspaceId now claimToken
  | listPending deletion =>
    simp only [step]
    split
    · exact .learn (sound.addListed ‹_› Sound.pendingObjects) rfl rfl
    · exact .refl sound
  | removeObject deletion item =>
    simp only [step]
    split
    · rename_i listed
      have removed := Keeps.remove sound item.objectKey
      have gone : item.objectKey ∉ w.storage.filter (· ≠ item.objectKey) := by simp
      exact removed.trans (.learn (removed.sound.addRemoved listed.1 gone) rfl rfl)
    · exact .refl sound
  | markDeleted deletion item now =>
    simp only [step]
    split
    · rename_i removed
      obtain ⟨listed, gone⟩ := sound.removed _ removed
      refine .transact sound fun after done => ?_
      unfold markDeleted at done
      split at done
      · cases done
      · cases done
        refine .finish sound deletion .deleted now fun object there named _ => ?_
        rw [((sound.listed _ listed).2.2 object there named).1]
        exact gone
    · exact .refl sound
  | deleteSource deletion item now =>
    simp only [step]
    split
    · rename_i listed
      exact .deleteSource sound now listed.1 listed.2.1
    · exact .refl sound
  | retryObject deletion item message nextRetryAt =>
    simp only [step]
    split
    · refine .of_quiet sound ?_
      unfold retryObject
      split
      · exact (Quiet.noteObjectError w.db deletion item.id message).trans
          (Quiet.giveUp _ deletion "object_storage" message nextRetryAt).1
      · exact .refl w.db
    · exact .refl sound
  | failObject deletion item message now =>
    simp only [step]
    split
    · refine .of_quiet sound ?_
      unfold failObject
      split
      · exact (Quiet.noteObjectError w.db deletion item.id message).trans
          (Quiet.giveUp _ deletion "object_storage" message now).2
      · exact .refl w.db
    · exact .refl sound
  | retryDatabaseCleanup deletion message nextRetryAt =>
    simp only [step]
    split
    · refine .of_quiet sound ?_
      unfold retryDatabaseCleanup
      split
      · exact (Quiet.giveUp w.db deletion "database_cleanup" message nextRetryAt).1
      · exact .refl w.db
    · exact .refl sound
  | failDatabaseCleanup deletion message now =>
    simp only [step]
    split
    · refine .of_quiet sound ?_
      unfold failDatabaseCleanup
      split
      · exact (Quiet.giveUp w.db deletion "database_cleanup" message now).2
      · exact .refl w.db
    · exact .refl sound
  | recoverStaleDeletions organizationId now =>
    exact .of_quiet sound (.recoverStale w.db organizationId now)
  | completeAndPurge deletion now =>
    simp only [step]
    split
    · exact .transact sound fun after done => .purge sound ‹_› done
    · exact .refl sound

theorem run_keeps (sound : Sound a w) (events : List Event) : Keeps a w (run step w events) := by
  induction events generalizing w with
  | nil => exact .refl sound
  | cons event rest ih =>
      have next := step_keeps sound event
      exact next.trans (ih next.sound)

end Calls

/-! The books of the initial world, and what they say about a completed deletion -/

theorem World.Initial.sound {w : World} {agreement : AgreementRecord} (initial : w.Initial)
    (one : w.db.agreements = [agreement]) : Sound agreement.scope w where
  one := ⟨agreement.deletionRequestedAt, by rw [one]; rfl⟩
  jobIds := initial.db.jobIds
  claims := by simp [initial.claims]
  expected := by simp [initial.expected]
  intents := by simp [initial.db.intents]
  intentJobs := by simp [initial.db.intents]
  artifacts := by simp [initial.db.artifacts]
  requests := by
    have active := initial.db.active agreement (one ▸ List.mem_singleton_self _)
    refine .inl ⟨?_, initial.db.deletionRequests⟩
    simp [Database.Requested, one, AgreementRecord.standing, active]
  deletions := by simp [initial.deletions]
  objects := by simp [initial.db.deletionObjects]
  objectIds := by simp [initial.db.deletionObjects]
  listed := by simp [initial.listed]
  removed := by simp [initial.removed]
  completed := by simp [Database.DeletionCompleted, initial.db.deletionRequests]

/-- A key is reserved: by an intent or, when the agreement is already deletion-requested, by
the inventory row that the same transaction puts in the place of the intent. -/
def Database.Reserved (db : Database) (key : String) : Prop :=
  (∃ intent ∈ db.intents, intent.artifactKey = key) ∨
    ∃ object ∈ db.deletionObjects, object.objectKey = key ∧
      (object.category = .analysis ∨ object.category = .comparison) ∧ object.state = .pending

theorem Sound.accounted {a : Scope} {w : World} {key : String} (sound : Sound a w)
    (reserved : w.db.Reserved key) : Accounted key w := by
  rcases reserved with intent | ⟨object, member, keyed, category, pending⟩
  · exact ⟨fun _ => .inl intent, fun _ _ => .inl intent⟩
  · have nonSource : object.category ≠ .source := by
      rcases category with analysis | comparison
      · simp [analysis]
      · simp [comparison]
    refine ⟨fun active => ?_, fun _ _ => .inr ⟨object, member, keyed, nonSource, pending⟩⟩
    rw [(sound.untouched active).2.1] at member
    cases member

theorem Sound.completed_storage {a : Scope} {w : World} {key : String} (sound : Sound a w)
    (accounted : Accounted key w) (completed : w.db.DeletionCompleted) :
    w.db.Requested ∧ key ∉ w.storage := by
  obtain ⟨objects, intents⟩ := sound.completed completed
  obtain ⟨request, member, -⟩ := completed
  have requested := (sound.request member).1
  refine ⟨requested, fun stored => ?_⟩
  rcases accounted.after requested stored with ⟨intent, there, -⟩ | ⟨object, there, -⟩
  · rw [intents] at there
    cases there
  · rw [objects] at there
    cases there

/-- No orphans: whatever a run does, a key reserved at any point of it is not in storage once
the deletion is completed, and nothing that follows stores it again. -/
theorem run_leavesNoOrphan {w : World} {agreement : AgreementRecord} (initial : w.Initial)
    (one : w.db.agreements = [agreement]) (before rest : List Event) {key : String}
    (reserved : (run step w before).db.Reserved key)
    (completed : (run step w (before ++ rest)).db.DeletionCompleted) :
    key ∉ (run step w (before ++ rest)).storage ∧
      ∀ later, key ∉ (run step w (before ++ rest ++ later)).storage := by
  have first := run_keeps (initial.sound one) before
  have second := run_keeps first.sound rest
  rw [← run_append] at second
  have accounted := second.accounted key (first.sound.accounted reserved)
  obtain ⟨requested, absent⟩ := second.sound.completed_storage accounted completed
  refine ⟨absent, fun later stored => ?_⟩
  rw [run_append step w (before ++ rest) later] at stored
  exact absent (((run_keeps second.sound later).requested requested).2 stored)

def sampleItem : AgreementDeletionObject := ⟨0, .comparison, sampleArtifact.key⟩

/-- A deletion worker takes the request through to the purge. -/
def sampleDeleting : List Event :=
  [.acceptDeletion (.ofNat 1) (.ofNat 2) (.ofNat 3) (.ofNat 7) 200,
    .claimDeletion (.ofNat 7) (.ofNat 1) (.ofNat 2) 201 (.ofNat 70), .listPending sampleDeletion,
    .removeObject sampleDeletion sampleItem, .markDeleted sampleDeletion sampleItem 202,
    .completeAndPurge sampleDeletion 203]

theorem run_leavesNoOrphan_sample :
    sampleArtifact.key ∈ (run step sampleWorld sampleProcessing).storage ∧
      sampleArtifact.key ∉ (run step sampleWorld (sampleProcessing ++ sampleDeleting)).storage := by
  have reserved : (run step sampleWorld (sampleProcessing.take 3)).db.Reserved
      sampleArtifact.key := .inl (by decide +kernel)
  have completed : (run step sampleWorld (sampleProcessing.take 3 ++
      (sampleProcessing.drop 3 ++ sampleDeleting))).db.DeletionCompleted := by
    unfold Database.DeletionCompleted
    decide +kernel
  exact ⟨by decide +kernel, (run_leavesNoOrphan sampleWorld_initial rfl _ _ reserved completed).1⟩

end AgreementIntelligence.Agreements
