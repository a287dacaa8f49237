import AgreementIntelligence.Agreements.Fencing
import AgreementIntelligence.Agreements.Submissions

/-! The one write that a worker call makes to the state of a job, and to the version and the
agreement that show it. Which job and which state a call writes is decided by its guards, on
the database it finds; what it writes next to them is `_update_agreement_processing_state`.
With it stands the machine of the API and the workers on the jobs of agreements. -/

namespace AgreementIntelligence.Agreements
open Identity Lib.Table Lib.Runs Lib.Text

/-- The columns of a job that say what it is for, and its state. -/
structure JobFace where
  id : Uuid
  organizationId : Uuid
  workspaceId : Uuid
  agreementId : Uuid
  versionId : Option Uuid
  profile : String
  state : JobState

def ProcessingJobRecord.face (job : ProcessingJobRecord) : JobFace :=
  ⟨job.id, job.organizationId, job.workspaceId, job.agreementId, job.versionId, job.profile,
    job.state⟩

/-- The face of a row after a write of the state of a job. -/
def JobFace.moved (jobId : Uuid) (state : JobState) (face : JobFace) : JobFace :=
  if face.id = jobId then { face with state := state } else face

structure Unwritten (before after : Database) : Prop where
  jobs : after.jobs.map (·.face) = before.jobs.map (·.face)
  versions : after.versions = before.versions
  agreements : after.agreements = before.agreements

structure Written (before : Database) (job : ProcessingJobRecord) (state : JobState)
    (after : Database) : Prop where
  member : job ∈ before.jobs
  jobs : after.jobs.map (·.face) = before.jobs.map fun row => row.face.moved job.id state
  versions : after.versions = (updateAgreementProcessingState before job state).versions
  agreements : after.agreements = (updateAgreementProcessingState before job state).agreements

/-- What a call leaves, given what it writes. -/
def Effect (before : Database) (write : Option (ProcessingJobRecord × JobState))
    (after : Database) : Prop :=
  match write with
  | none => Unwritten before after
  | some (job, state) => Written before job state after

theorem Unwritten.refl (db : Database) : Unwritten db db := ⟨rfl, rfl, rfl⟩

theorem SameRows.unwritten {before after : Database} (same : SameRows before after) :
    Unwritten before after :=
  ⟨congrArg _ same.jobs, same.versions, same.agreements⟩

/-- `_update_agreement_processing_state` reads the two tables it writes, and no other. -/
theorem updateAgreementProcessingState_congr {one other : Database}
    (versions : one.versions = other.versions) (agreements : one.agreements = other.agreements)
    (job : ProcessingJobRecord) (state : JobState) :
    (updateAgreementProcessingState one job state).versions =
        (updateAgreementProcessingState other job state).versions ∧
      (updateAgreementProcessingState one job state).agreements =
        (updateAgreementProcessingState other job state).agreements := by
  unfold updateAgreementProcessingState
  split
  · exact ⟨versions, agreements⟩
  · simp only [versions, agreements, and_self]

theorem map_face_update (jobs : List ProcessingJobRecord) (jobId : Uuid) (state : JobState)
    {change : ProcessingJobRecord → ProcessingJobRecord}
    (moves : ∀ row, (change row).face = { row.face with state := state }) :
    (update (·.id) jobs jobId change).map (·.face) =
      jobs.map fun row => row.face.moved jobId state := by
  rw [update, List.map_map]
  apply List.map_congr_left
  intro row _
  by_cases hit : row.id = jobId
  · have named : row.face.id = jobId := hit
    rw [Function.comp_apply, if_pos hit, moves, JobFace.moved, if_pos named]
  · have other : ¬ row.face.id = jobId := hit
    rw [Function.comp_apply, if_neg hit, JobFace.moved, if_neg other]

/-- An update of a job and then the states that show it: what a write looks like. -/
theorem Written.of_update {before updated : Database} {job : ProcessingJobRecord}
    {state : JobState} (change : ProcessingJobRecord → ProcessingJobRecord)
    (member : job ∈ before.jobs) (jobs : updated.jobs = update (·.id) before.jobs job.id change)
    (moves : ∀ row, (change row).face = { row.face with state := state })
    (versions : updated.versions = before.versions)
    (agreements : updated.agreements = before.agreements) :
    Written before job state (updateAgreementProcessingState updated job state) where
  member := member
  jobs := by rw [updateAgreementProcessingState_jobs, jobs, map_face_update _ _ _ moves]
  versions := (updateAgreementProcessingState_congr versions agreements job state).1
  agreements := (updateAgreementProcessingState_congr versions agreements job state).2

/-! What the calls write -/

def Database.hasActiveAgreement (db : Database) (job : ProcessingJobRecord) : Bool :=
  (db.agreement? job.agreementId job.organizationId job.workspaceId).any
    (·.deletionRequestedAt.isNone)

/-- `claim` writes `completed` to a job whose artifact is stored, else `processing` to one
that waits or whose lease has lapsed. -/
def claimWrites (db : Database) (jobId organizationId workspaceId : Uuid) (now : Time) :
    Option (ProcessingJobRecord × JobState) :=
  match db.job? jobId with
  | none => none
  | some job =>
    if ¬ job.MatchesTenantScope organizationId workspaceId then none
    else if db.hasActiveAgreement job = false then none
    else if db.hasArtifact jobId then some (job, .completed)
    else if job.state = .processing ∧ job.hasLiveClaim now then none
    else if job.state = .processing ∨ job.state = .queued then some (job, .processing)
    else none

/-- `commit_prepared` writes `completed` to a job that its claim owns, when the artifact has
its intent and `finalize` passes. -/
def commitWrites (db : Database) (claimed : ProcessingJob) (prepared : PreparedArtifact)
    (verdict : Except Raised Unit) (now : Time) : Option (ProcessingJobRecord × JobState) :=
  match decideCommit db claimed prepared now with
  | .stops _ => none
  | .writes job => if (finalize db claimed verdict).isOk then some (job, .completed) else none

/-- `requeue` writes `queued` to a job that its claim owns. -/
def requeueWrites (db : Database) (claimed : ProcessingJob) :
    Option (ProcessingJobRecord × JobState) :=
  match db.job? claimed.id with
  | none => none
  | some job =>
    if ¬ job.MatchesTenantScope claimed.organizationId claimed.workspaceId then none
    else if db.hasActiveAgreement job = false then none
    else if job.OwnedBy claimed then some (job, .queued)
    else none

/-- `fail` writes `failed` to a job that its claim owns. -/
def failWrites (db : Database) (claimed : ProcessingJob) (now : Time) :
    Option (ProcessingJobRecord × JobState) :=
  match db.job? claimed.id with
  | none => none
  | some job =>
    if ¬ job.MatchesTenantScope claimed.organizationId claimed.workspaceId then none
    else match db.agreement? job.agreementId job.organizationId job.workspaceId with
    | none => none
    | some agreement =>
      if ¬ job.OwnedBy claimed then none
      else if agreement.deletionRequestedAt.isSome ∧ (reconcileIntentOf db claimed.id
          claimed.organizationId claimed.workspaceId now).isOk = false then none
      else some (job, .failed)

def WorkerCall.writes? (db : Database) : WorkerCall → Option (ProcessingJobRecord × JobState)
  | .claim jobId organizationId workspaceId now _ =>
    claimWrites db jobId organizationId workspaceId now
  | .expect .. => none
  | .commitPrepared job artifact content verdict now =>
    commitWrites db job (prepare job artifact content) verdict now
  | .requeue job .. => requeueWrites db job
  | .fail job _ _ _ now => failWrites db job now

theorem hasActiveAgreement_of {db : Database} {job : ProcessingJobRecord}
    {agreement : AgreementRecord}
    (found : db.agreement? job.agreementId job.organizationId job.workspaceId = some agreement) :
    db.hasActiveAgreement job = agreement.deletionRequestedAt.isNone := by
  rw [Database.hasActiveAgreement, found, Option.any_some]

/-- A job whose artifact is stored: the row is settled unless it is completed already. -/
theorem settled_written {db : Database} {job : ProcessingJobRecord} {jobId : Uuid} (now : Time)
    (distinct : (db.jobs.map (·.id)).Nodup) (found : db.job? jobId = some job) :
    Written db job .completed (updateAgreementProcessingState
      (if job.state = .completed then db else db.updateJob jobId (completeJob now))
      job .completed) := by
  obtain ⟨member, rfl⟩ := Database.job?_eq_some found
  by_cases completed : job.state = .completed
  · rw [if_pos completed]
    refine ⟨member, ?_, rfl, rfl⟩
    rw [updateAgreementProcessingState_jobs]
    apply List.map_congr_left
    intro row present
    by_cases hit : row.id = job.id
    · have same := find?_of_mem distinct present
      rw [hit] at same
      have alike : row = job := Option.some.inj (same.symm.trans found)
      simp [JobFace.moved, ProcessingJobRecord.face, alike, completed]
    · simp [JobFace.moved, ProcessingJobRecord.face, hit]
  · rw [if_neg completed]
    exact .of_update (completeJob now) member rfl (fun _ => rfl) rfl rfl

theorem claim_effect {db : Database} (distinct : (db.jobs.map (·.id)).Nodup)
    (jobId organizationId workspaceId : Uuid) (now : Time) (claimToken : Uuid) :
    Effect db (claimWrites db jobId organizationId workspaceId now)
      (committed db ((claim db jobId organizationId workspaceId now claimToken).map Prod.snd)) := by
  unfold claim claimWrites
  cases found : db.job? jobId with
  | none =>
    simp only
    cases db.intent? jobId organizationId workspaceId with
    | none => exact Unwritten.refl db
    | some intent =>
      simp only
      split
      · exact Unwritten.refl db
      · cases done : reconcileArtifactIntent db intent now with
        | error raised => exact Unwritten.refl db
        | ok after => exact (reconcileArtifactIntent_sameRows done).unwritten
  | some job =>
    simp only
    by_cases scope : job.MatchesTenantScope organizationId workspaceId
    · rw [if_neg (not_not.mpr scope), if_neg (not_not.mpr scope)]
      cases stored : db.agreement? job.agreementId job.organizationId job.workspaceId with
      | none =>
        rw [if_pos (by rw [Database.hasActiveAgreement, stored]; rfl)]
        exact Unwritten.refl db
      | some agreement =>
        rw [hasActiveAgreement_of stored]
        simp only
        by_cases requested : agreement.deletionRequestedAt.isSome = true
        · rw [if_pos (by simpa using requested), if_pos requested]
          split
          · exact Unwritten.refl db
          · cases done : reconcileIntentOf db jobId organizationId workspaceId now with
            | error raised => exact Unwritten.refl db
            | ok after => exact (reconcileIntentOf_ok done).sameRows.unwritten
        · rw [if_neg (by simpa using requested), if_neg requested]
          by_cases artifact : db.hasArtifact jobId = true
          · rw [if_pos artifact, if_pos artifact]
            exact settled_written now distinct found
          · rw [if_neg artifact, if_neg artifact]
            by_cases live : job.state = .processing ∧ job.hasLiveClaim now = true
            · rw [if_pos live, if_pos live]
              exact Unwritten.refl db
            · rw [if_neg live, if_neg live]
              by_cases takeable : job.state = .processing ∨ job.state = .queued
              · rw [if_pos takeable, if_pos takeable]
                obtain ⟨member, rfl⟩ := Database.job?_eq_some found
                exact Written.of_update (startAttempt now claimToken) member rfl (fun _ => rfl) rfl rfl
              · rw [if_neg takeable, if_neg takeable]
                exact Unwritten.refl db
    · rw [if_pos scope, if_pos scope]
      exact Unwritten.refl db

theorem expect_effect (db : Database) (job : ProcessingJob) (artifact : CompletedArtifact)
    (now : Time) :
    Unwritten db (committed db ((expect db job artifact now).map Prod.snd)) := by
  cases done : expect db job artifact now with
  | error raised => exact Unwritten.refl db
  | ok result => exact (expect_ok done).sameRows.unwritten

theorem commitRows_written {db : Database} {job : ProcessingJobRecord}
    (comparisonRuns : List VersionComparisonRunRecord) (claimed : ProcessingJob)
    (found : db.job? claimed.id = some job) (category : Option ObjectCategory) (key : String)
    (now : Time) : Written db job .completed
      (commitRows { db with comparisonRuns := comparisonRuns } claimed job category key now) := by
  obtain ⟨member, named⟩ := Database.job?_eq_some found
  have written : ∀ stored : Database, stored.jobs = db.jobs → stored.versions = db.versions →
      stored.agreements = db.agreements → Written db job .completed
        ((updateAgreementProcessingState (stored.updateJob claimed.id (completeJob now)) job
          .completed).deleteIntent claimed.id) := by
    intro stored jobs versions agreements
    have update : Written db job .completed (updateAgreementProcessingState
        (stored.updateJob claimed.id (completeJob now)) job .completed) :=
      .of_update (completeJob now) member (by rw [Database.updateJob, named, jobs])
        (fun _ => rfl) versions agreements
    exact ⟨member, update.jobs, update.versions, update.agreements⟩
  unfold commitRows
  simp only
  split
  · exact written _ rfl rfl rfl
  · exact written _ rfl rfl rfl

theorem commit_effect (db : Database) (storage : List String) (claimed : ProcessingJob)
    (prepared : PreparedArtifact) (verdict : Except Raised Unit) (now : Time) :
    Effect db (commitWrites db claimed prepared verdict now) (committed db
      ((commitPrepared db storage claimed prepared verdict now).2.map Prod.snd)) := by
  unfold commitPrepared commitWrites
  cases decided : decideCommit db claimed prepared now with
  | stops result =>
    cases result with
    | error raised => exact Unwritten.refl db
    | ok after => exact (decideCommit_stops decided rfl).2.sameRows.unwritten
  | writes job =>
    simp only
    cases finalized : finalize db claimed verdict with
    | error raised => exact Unwritten.refl db
    | ok after =>
      obtain ⟨comparisonRuns, rfl⟩ := finalize_ok finalized
      exact commitRows_written comparisonRuns claimed (decideCommit_writes decided).found _ _ now

theorem requeue_effect (db : Database) (claimed : ProcessingJob)
    (expected : Option CompletedArtifact) (category message : String) (nextRetryAt now : Time) :
    Effect db (requeueWrites db claimed) (committed db
      ((requeue db claimed category message nextRetryAt expected now).map Prod.snd)) := by
  unfold requeue requeueWrites
  cases found : db.job? claimed.id with
  | none =>
    simp only
    cases done : inventoryFailedArtifactAfterPurge db claimed expected now with
    | error raised => exact Unwritten.refl db
    | ok after => exact (inventoryFailedArtifactAfterPurge_ok done).sameRows.unwritten
  | some job =>
    simp only
    by_cases scope : job.MatchesTenantScope claimed.organizationId claimed.workspaceId
    · rw [if_neg (not_not.mpr scope), if_neg (not_not.mpr scope)]
      cases stored : db.agreement? job.agreementId job.organizationId job.workspaceId with
      | none =>
        rw [if_pos (by rw [Database.hasActiveAgreement, stored]; rfl)]
        exact Unwritten.refl db
      | some agreement =>
        rw [hasActiveAgreement_of stored]
        simp only
        by_cases requested : agreement.deletionRequestedAt.isSome = true
        · rw [if_pos (by simpa using requested), if_pos requested]
          have isRequested : db.DeletionRequested job.context agreement := ⟨stored, requested⟩
          cases listed : inventoryExpected db job.context expected now with
          | error raised => exact Unwritten.refl db
          | ok middle =>
            have late := (inventoryExpected_ok (.inr ⟨job, found, rfl⟩) isRequested listed).sameRows
            simp only [Except.bind]
            split
            · cases done : reconcileIntentOf middle claimed.id claimed.organizationId
                claimed.workspaceId now with
              | error raised => exact Unwritten.refl db
              | ok after => exact (late.trans (reconcileIntentOf_ok done).sameRows).unwritten
            · exact late.unwritten
        · rw [if_neg (by simpa using requested), if_neg requested]
          by_cases owned : job.OwnedBy claimed
          · rw [if_pos owned, if_neg (not_not.mpr owned)]
            obtain ⟨member, named⟩ := Database.job?_eq_some found
            exact Written.of_update (queueAgain category message nextRetryAt) member
              (by rw [named]; rfl) (fun _ => rfl) rfl rfl
          · rw [if_neg owned, if_pos owned]
            exact Unwritten.refl db
    · rw [if_pos scope, if_pos scope]
      exact Unwritten.refl db

theorem failRows_written {before middle : Database} {job : ProcessingJobRecord} {jobId : Uuid}
    (category message : String) (now : Time) (found : before.job? jobId = some job)
    (jobs : middle.jobs = before.jobs) (versions : middle.versions = before.versions)
    (agreements : middle.agreements = before.agreements) :
    Written before job .failed (failRows middle jobId job category message now) := by
  obtain ⟨member, rfl⟩ := Database.job?_eq_some found
  unfold failRows
  simp only
  split
  · exact .of_update (failJob category message now) member (by rw [← jobs]; rfl) (fun _ => rfl)
      versions agreements
  · exact .of_update (failJob category message now) member (by rw [← jobs]; rfl) (fun _ => rfl)
      versions agreements

theorem fail_effect (db : Database) (claimed : ProcessingJob)
    (expected : Option CompletedArtifact) (category message : String) (now : Time) :
    Effect db (failWrites db claimed now)
      (committed db (fail db claimed category message expected now)) := by
  unfold fail failWrites
  cases found : db.job? claimed.id with
  | none =>
    simp only
    cases done : inventoryFailedArtifactAfterPurge db claimed expected now with
    | error raised => exact Unwritten.refl db
    | ok after => exact (inventoryFailedArtifactAfterPurge_ok done).sameRows.unwritten
  | some job =>
    simp only
    by_cases scope : job.MatchesTenantScope claimed.organizationId claimed.workspaceId
    · rw [if_neg (not_not.mpr scope), if_neg (not_not.mpr scope)]
      cases stored : db.agreement? job.agreementId job.organizationId job.workspaceId with
      | none => exact Unwritten.refl db
      | some agreement =>
        simp only
        by_cases owned : job.OwnedBy claimed
        · rw [if_neg (not_not.mpr owned), if_neg (not_not.mpr owned)]
          by_cases requested : agreement.deletionRequestedAt.isSome = true
          · rw [if_pos requested]
            cases done : reconcileIntentOf db claimed.id claimed.organizationId
                claimed.workspaceId now with
            | error raised =>
              rw [if_pos ⟨requested, rfl⟩]
              exact Unwritten.refl db
            | ok middle =>
              have same := (reconcileIntentOf_ok done).sameRows
              rw [if_neg (fun refused => Bool.noConfusion refused.2)]
              exact failRows_written category message now found same.jobs same.versions
                same.agreements
          · rw [if_neg requested, if_neg fun refused => requested refused.1]
            exact failRows_written category message now found rfl rfl rfl
        · rw [if_pos owned, if_pos owned]
          split
          · rename_i requested
            have isRequested : db.DeletionRequested job.context agreement := ⟨stored, requested⟩
            cases listed : inventoryExpected db job.context expected now with
            | error raised => exact Unwritten.refl db
            | ok after =>
              exact (inventoryExpected_ok (.inr ⟨job, found, rfl⟩) isRequested
                listed).sameRows.unwritten
          · exact Unwritten.refl db
    · rw [if_pos scope, if_pos scope]
      exact Unwritten.refl db

/-- A worker call writes what its guards say, and nothing else of jobs, versions and
agreements. -/
theorem call_effect {w : World} (distinct : (w.db.jobs.map (·.id)).Nodup) (call : WorkerCall) :
    Effect w.db (call.writes? w.db) (w.call call).db := by
  cases call with
  | claim jobId organizationId workspaceId now claimToken =>
    have effect := claim_effect distinct jobId organizationId workspaceId now claimToken
    unfold World.call
    simp only
    cases done : claim w.db jobId organizationId workspaceId now claimToken with
    | error raised =>
      rw [done] at effect
      exact effect
    | ok result =>
      rw [done] at effect
      exact effect
  | expect job artifact now => exact expect_effect w.db job artifact now
  | commitPrepared job artifact content verdict now =>
    exact commit_effect w.db w.storage job (prepare job artifact content) verdict now
  | requeue job expected category message nextRetryAt now =>
    exact requeue_effect w.db job expected category message nextRetryAt now
  | fail job expected category message now =>
    exact fail_effect w.db job expected category message now

end AgreementIntelligence.Agreements
