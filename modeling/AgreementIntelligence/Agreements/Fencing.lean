import AgreementIntelligence.Agreements.DeletionCalls
import AgreementIntelligence.Agreements.System

/-! Fencing of processing jobs. Every write of a worker call to a job goes through the claim
token that the row carries at that moment, whether or not the lease has run out and whoever
else has been given a claim before. From one lemma on what a step can do to the tables of
jobs and artifacts follow the discipline of tokens, that a stale claim writes nothing, that
a completed job stays completed, and that a job is committed at most once. -/

namespace AgreementIntelligence.Agreements
open Identity Lib.Table Lib.Runs

/-- Token and lease come and go together, and only a job in processing carries them. -/
structure ProcessingJobRecord.Disciplined (job : ProcessingJobRecord) : Prop where
  paired : job.claimToken = none ↔ job.claimLeaseExpiresAt = none
  processing : job.claimToken ≠ none → job.state = .processing

def ProcessingArtifactRecord.key (row : ProcessingArtifactRecord) : Uuid × String :=
  (row.jobId, row.artifactKey)

/-- What one step can do to a job: change one row, with a change that keeps the discipline
and never takes a job out of `completed`. -/
structure ChangesJob (job : ProcessingJobRecord)
    (change : ProcessingJobRecord → ProcessingJobRecord) : Prop where
  keepsId : ∀ row, (change row).id = row.id
  disciplined : ∀ row, (change row).Disciplined
  final : job.state = .completed → ∀ row, (change row).state = .completed

/-- What one step can do to the tables of jobs and artifacts. -/
inductive JobsMove (before after : Database) : Prop where
  | same (jobs : after.jobs = before.jobs) (artifacts : after.artifacts = before.artifacts)
  | changed {job : ProcessingJobRecord} {change : ProcessingJobRecord → ProcessingJobRecord}
      (member : job ∈ before.jobs) (changes : ChangesJob job change)
      (jobs : after.jobs = update (·.id) before.jobs job.id change)
      (artifacts : after.artifacts = before.artifacts ∨ ∃ row : ProcessingArtifactRecord,
        row.key ∉ before.artifacts.map (·.key) ∧ after.artifacts = before.artifacts ++ [row])

theorem SameRows.jobsMove {before after : Database} (rows : SameRows before after) :
    JobsMove before after :=
  .same rows.jobs rows.artifacts

theorem completeJob_changes (now : Time) (job : ProcessingJobRecord) :
    ChangesJob job (completeJob now) where
  keepsId _ := rfl
  disciplined row := ⟨by simp [completeJob], by simp [completeJob]⟩
  final _ _ := rfl

theorem startAttempt_changes (now : Time) (claimToken : Uuid) {job : ProcessingJobRecord}
    (takeable : job.state = .processing ∨ job.state = .queued) :
    ChangesJob job (startAttempt now claimToken) where
  keepsId _ := rfl
  disciplined row := ⟨by simp [startAttempt], fun _ => rfl⟩
  final completed := by simp [completed] at takeable

theorem queueAgain_changes (category message : String) (nextRetryAt : Time)
    {job : ProcessingJobRecord} {claimed : ProcessingJob} (owned : job.OwnedBy claimed) :
    ChangesJob job (queueAgain category message nextRetryAt) where
  keepsId _ := rfl
  disciplined row := ⟨by simp [queueAgain], by simp [queueAgain]⟩
  final completed := by
    have processing := owned.1
    simp [completed] at processing

theorem failJob_changes (category message : String) (now : Time) {job : ProcessingJobRecord}
    {claimed : ProcessingJob} (owned : job.OwnedBy claimed) :
    ChangesJob job (failJob category message now) where
  keepsId _ := rfl
  disciplined row := ⟨by simp [failJob], by simp [failJob]⟩
  final completed := by
    have processing := owned.1
    simp [completed] at processing

theorem Claimed.jobsMove {db after : Database} {jobId claimToken : Uuid} {now : Time}
    {result : Option ProcessingJob} (claimed : Claimed db jobId now claimToken result after) :
    JobsMove db after := by
  cases claimed with
  | idle => exact .same rfl rfl
  | reconciled requested done => exact done.sameRows.jobsMove
  | @settled job agreement found active stored =>
    obtain ⟨member, rfl⟩ := Database.job?_eq_some found
    by_cases completed : job.state = .completed
    · exact .same (by simp [completed]) (by simp [completed])
    · refine .changed member (completeJob_changes now job) ?_ (.inl ?_)
      · simp [completed, Database.updateJob]
      · simp [completed, Database.updateJob]
  | @started job agreement found active unstored takeable =>
    obtain ⟨member, rfl⟩ := Database.job?_eq_some found
    refine .changed member (startAttempt_changes now claimToken takeable) ?_ (.inl ?_)
    · simp [Database.updateJob]
    · simp [Database.updateJob]

theorem commitRows_jobs (db : Database) (claimed : ProcessingJob) (job : ProcessingJobRecord)
    (category : Option ObjectCategory) (key : String) (now : Time) :
    (commitRows db claimed job category key now).jobs =
      update (·.id) db.jobs claimed.id (completeJob now) := by
  simp only [commitRows, Database.deleteIntent, updateAgreementProcessingState_jobs,
    Database.updateJob]
  split <;> rfl

/-- The artifact row of a commit. -/
def artifactRow (jobId : Uuid) (job : ProcessingJobRecord) (key : String) :
    ProcessingArtifactRecord where
  jobId := jobId
  organizationId := job.organizationId
  workspaceId := job.workspaceId
  agreementId := job.agreementId
  artifactKey := key

theorem commitRows_artifacts (db : Database) (claimed : ProcessingJob)
    (job : ProcessingJobRecord) (category : Option ObjectCategory) (key : String) (now : Time) :
    (commitRows db claimed job category key now).artifacts =
      if category.isSome ∧ (claimed.id, key) ∉ db.artifacts.map (·.key) then
        db.artifacts ++ [artifactRow claimed.id job key]
      else db.artifacts := by
  have absent : (¬ db.artifacts.any fun row => row.jobId = claimed.id ∧ row.artifactKey = key) ↔
      (claimed.id, key) ∉ db.artifacts.map (·.key) := by
    simp [ProcessingArtifactRecord.key]
  simp only [commitRows, Database.deleteIntent, updateAgreementProcessingState_artifacts,
    Database.updateJob, absent]
  split <;> rfl

theorem Committed.jobsMove {db after : Database} {storage left : List String}
    {claimed : ProcessingJob} {prepared : PreparedArtifact} {now : Time} {answer : Bool}
    (outcome : Committed db storage claimed prepared now left (.ok (answer, after))) :
    JobsMove db after := by
  cases outcome with
  | stopped returns => exact (returns _ _ rfl).2.sameRows.jobsMove
  | @committed job finalized writes runs =>
    obtain ⟨comparisonRuns, rfl⟩ := runs
    obtain ⟨member, named⟩ := Database.job?_eq_some writes.found
    refine .changed member (completeJob_changes now job) ?_ ?_
    · rw [commitRows_jobs, named]
    · rw [commitRows_artifacts]
      split
      · rename_i fresh
        exact .inr ⟨artifactRow claimed.id job prepared.artifact.key, fresh.2, rfl⟩
      · exact .inl rfl

theorem Requeued.jobsMove {db after : Database} {claimed : ProcessingJob}
    {expected : Option CompletedArtifact} {category message : String} {nextRetryAt now : Time}
    {answer : Bool}
    (requeued : Requeued db claimed expected category message nextRetryAt now answer after) :
    JobsMove db after := by
  cases requeued with
  | idle => exact .same rfl rfl
  | inventoried late done requested => exact (late.sameRows.trans done.sameRows).jobsMove
  | queued found owned active =>
    obtain ⟨member, named⟩ := Database.job?_eq_some found
    refine .changed member (queueAgain_changes category message nextRetryAt owned) ?_ (.inl ?_)
    · simp [Database.updateJob, named]
    · simp [Database.updateJob]

@[simp] theorem failRows_jobs (db : Database) (jobId : Uuid) (job : ProcessingJobRecord)
    (category message : String) (now : Time) :
    (failRows db jobId job category message now).jobs =
      update (·.id) db.jobs jobId (failJob category message now) := by
  simp only [failRows, updateAgreementProcessingState_jobs]
  split <;> rfl

@[simp] theorem failRows_artifacts (db : Database) (jobId : Uuid) (job : ProcessingJobRecord)
    (category message : String) (now : Time) :
    (failRows db jobId job category message now).artifacts = db.artifacts := by
  simp only [failRows, updateAgreementProcessingState_artifacts]
  split <;> rfl

theorem Failed.jobsMove {db after : Database} {claimed : ProcessingJob}
    {expected : Option CompletedArtifact} {category message : String} {now : Time}
    (failed : Failed db claimed expected category message now after) : JobsMove db after := by
  cases failed with
  | inventoried late => exact late.sameRows.jobsMove
  | reconciled found owned requested done =>
    obtain ⟨member, named⟩ := Database.job?_eq_some found
    refine .changed member (failJob_changes category message now owned) ?_ (.inl ?_)
    · rw [failRows_jobs, done.sameRows.jobs, named]
    · rw [failRows_artifacts, done.sameRows.artifacts]
  | settled found owned active =>
    obtain ⟨member, named⟩ := Database.job?_eq_some found
    refine .changed member (failJob_changes category message now owned) ?_ (.inl ?_)
    · rw [failRows_jobs, named]
    · rw [failRows_artifacts]

/-- A transaction that returns leaves what its outcome says, one that raises leaves all. -/
theorem transact_db_cases (w : World) (outcome : Except Raised Database) :
    (∃ after, outcome = .ok after ∧ (w.transact outcome).db = after) ∨
      (w.transact outcome).db = w.db := by
  cases outcome with
  | error raised => exact .inr rfl
  | ok after => exact .inl ⟨after, rfl, rfl⟩

theorem map_snd_ok {outcome : Except Raised (Bool × Database)} {after : Database}
    (done : outcome.map Prod.snd = .ok after) : ∃ answer, outcome = .ok (answer, after) := by
  obtain ⟨⟨answer, inner⟩, returned, rfl⟩ := map_ok done
  exact ⟨answer, returned⟩

theorem transact_jobsMove {w : World} {outcome : Except Raised Database}
    (moves : ∀ after, outcome = .ok after → JobsMove w.db after) :
    JobsMove w.db (w.transact outcome).db := by
  rcases transact_db_cases w outcome with ⟨after, returned, same⟩ | same
  · rw [same]
    exact moves after returned
  · rw [same]
    exact .same rfl rfl

theorem World.commit_committed (w : World) (job : ProcessingJob) (artifact : CompletedArtifact)
    (content : String) (verdict : Except Raised Unit) (now : Time) :
    Committed w.db w.storage job (prepare job artifact content) now
      (w.commit job artifact content verdict now).1
      (w.commit job artifact content verdict now).2 :=
  commitPrepared_committed w.db w.storage job (prepare job artifact content) verdict now

theorem call_jobsMove (w : World) (call : WorkerCall) : JobsMove w.db (w.call call).db := by
  cases call with
  | claim jobId organizationId workspaceId now claimToken =>
    unfold World.call
    simp only
    split
    · exact .same rfl rfl
    · rename_i result after done
      exact (claim_ok done).jobsMove
  | expect job artifact now =>
    refine transact_jobsMove fun after returned => ?_
    obtain ⟨answer, done⟩ := map_snd_ok returned
    exact (expect_ok done).sameRows.jobsMove
  | commitPrepared job artifact content verdict now =>
    refine transact_jobsMove fun after returned => ?_
    obtain ⟨answer, done⟩ := map_snd_ok returned
    have outcome := w.commit_committed job artifact content verdict now
    rw [show (w.commit job artifact content verdict now).2 = .ok (answer, after) from done] at outcome
    exact outcome.jobsMove
  | requeue job expected category message nextRetryAt now =>
    refine transact_jobsMove fun after returned => ?_
    obtain ⟨answer, done⟩ := map_snd_ok returned
    exact (requeue_ok done).jobsMove
  | fail job expected category message now =>
    exact transact_jobsMove fun after returned => (fail_ok returned).jobsMove

/-! The other steps change jobs by a retry through the API and by the purge only. -/

/-- A purge keeps some rows. -/
structure Purges (before after : Database) : Prop where
  jobs : ∃ keep, after.jobs = before.jobs.filter keep
  artifacts : ∃ keep, after.artifacts = before.artifacts.filter keep

theorem retriedJob_changes (now : Time) {job : ProcessingJobRecord} {category : Option String}
    (permitted : job.state = .failed ∧ canRetryFailure category = true) :
    ChangesJob job (retriedJob now) where
  keepsId _ := rfl
  disciplined row := ⟨by simp [retriedJob], by simp [retriedJob]⟩
  final completed := by simp [completed] at permitted

theorem retryJob_jobsMove {db after : Database}
    {organizationId workspaceId agreementId jobId : Uuid} {now : Time}
    (done : retryJob db organizationId workspaceId agreementId jobId now = .ok after) :
    JobsMove db after := by
  unfold retryJob at done
  split at done
  · cases done
  split at done
  · cases done
  split at done
  · cases done
  rename_i job found
  obtain ⟨member, rfl⟩ := Database.job?_eq_some found
  split at done
  · cases done
  split at done
  · cases done
  rename_i permitted
  cases done
  exact .changed member (retriedJob_changes now (by simpa using permitted)) rfl (.inl rfl)

theorem acceptDeletion_jobs {db after : Database}
    {organizationId workspaceId agreementId deletionId : Uuid} {now : Time}
    (done : acceptDeletion db organizationId workspaceId agreementId deletionId now = .ok after) :
    after.jobs = db.jobs ∧ after.artifacts = db.artifacts ∧ after.versions = db.versions := by
  unfold acceptDeletion at done
  split at done
  · cases done
    unfold redriveDeletion
    split <;> exact ⟨rfl, rfl, rfl⟩
  split at done
  · cases done
  split at done
  · cases done
  · cases done
    exact ⟨rfl, rfl, rfl⟩

theorem completeAndPurge_jobs {db after : Database} {deletion : AgreementDeletion} {now : Time}
    (done : completeAndPurge db deletion now = .ok after) : after = db ∨ Purges db after := by
  rcases completeAndPurge_ok done with ⟨-, same⟩ | ⟨-, -, -, rfl⟩
  · exact .inl same
  · exact .inr ⟨⟨_, rfl⟩, ⟨_, rfl⟩⟩

theorem claimDeletion_jobs (db : Database) (deletionId organizationId workspaceId : Uuid)
    (now : Time) (claimToken : Uuid) :
    (claimDeletion db deletionId organizationId workspaceId now claimToken).2.jobs = db.jobs ∧
      (claimDeletion db deletionId organizationId workspaceId now claimToken).2.artifacts =
        db.artifacts ∧
      (claimDeletion db deletionId organizationId workspaceId now claimToken).2.versions =
        db.versions := by
  unfold claimDeletion
  split <;> exact ⟨rfl, rfl, rfl⟩

theorem markDeleted_jobs {db after : Database} {deletion : AgreementDeletion}
    {item : AgreementDeletionObject} {now : Time}
    (done : markDeleted db deletion item now = .ok after) :
    after.jobs = db.jobs ∧ after.artifacts = db.artifacts ∧ after.versions = db.versions := by
  unfold markDeleted at done
  split at done
  · cases done
  · cases done
    exact ⟨rfl, rfl, rfl⟩

theorem deleteSource_jobs {db after : Database} {storage : List String}
    {deletion : AgreementDeletion} {item : AgreementDeletionObject} {now : Time}
    (done : (deleteSourceIfUnreferenced db storage deletion item now).2 = .ok after) :
    after.jobs = db.jobs ∧ after.artifacts = db.artifacts ∧ after.versions = db.versions := by
  unfold deleteSourceIfUnreferenced at done
  split at done
  · cases done
  split at done
  · cases done
    exact ⟨rfl, rfl, rfl⟩
  split at done
  · cases done
    exact ⟨rfl, rfl, rfl⟩
  · cases done
    exact ⟨rfl, rfl, rfl⟩

/-- The steps of deletion workers, and what a worker does between its calls. -/
def Event.Aside : Event → Prop
  | .call _ => False
  | .retryJob .. => False
  | _ => True

/-- Such a step leaves jobs, artifacts and versions alone, unless it is the purge. -/
theorem step_aside_keeps (w : World) {event : Event} (aside : event.Aside)
    (stays : ∀ deletion now, event ≠ .completeAndPurge deletion now) :
    (step w event).db.jobs = w.db.jobs ∧ (step w event).db.artifacts = w.db.artifacts ∧
      (step w event).db.versions = w.db.versions := by
  have same : ∀ {outcome : Except Raised Database}, (∀ after, outcome = .ok after →
      after.jobs = w.db.jobs ∧ after.artifacts = w.db.artifacts ∧
        after.versions = w.db.versions) →
      (w.transact outcome).db.jobs = w.db.jobs ∧
        (w.transact outcome).db.artifacts = w.db.artifacts ∧
        (w.transact outcome).db.versions = w.db.versions := by
    intro outcome keeps
    rcases transact_db_cases w outcome with ⟨after, returned, here⟩ | here
    · rw [here]
      exact keeps after returned
    · rw [here]
      exact ⟨rfl, rfl, rfl⟩
  cases event with
  | call worker => exact aside.elim
  | retryJob organizationId workspaceId agreementId jobId now => exact aside.elim
  | expectArtifact job =>
    simp only [step]
    split
    · split <;> exact ⟨rfl, rfl, rfl⟩
    · exact ⟨rfl, rfl, rfl⟩
  | crashInCommit job artifact content now =>
    simp only [step]
    split <;> exact ⟨rfl, rfl, rfl⟩
  | acceptDeletion organizationId workspaceId agreementId deletionId now =>
    exact same fun after returned => acceptDeletion_jobs returned
  | claimDeletion deletionId organizationId workspaceId now claimToken =>
    exact claimDeletion_jobs w.db deletionId organizationId workspaceId now claimToken
  | listPending deletion =>
    simp only [step]
    split <;> exact ⟨rfl, rfl, rfl⟩
  | removeObject deletion item =>
    simp only [step]
    split <;> exact ⟨rfl, rfl, rfl⟩
  | markDeleted deletion item now =>
    simp only [step]
    split
    · exact same fun after returned => markDeleted_jobs returned
    · exact ⟨rfl, rfl, rfl⟩
  | deleteSource deletion item now =>
    simp only [step]
    split
    · exact same fun after returned => deleteSource_jobs returned
    · exact ⟨rfl, rfl, rfl⟩
  | retryObject deletion item message nextRetryAt =>
    simp only [step, retryObject]
    split
    · split <;> exact ⟨rfl, rfl, rfl⟩
    · exact ⟨rfl, rfl, rfl⟩
  | failObject deletion item message now =>
    simp only [step, failObject]
    split
    · split <;> exact ⟨rfl, rfl, rfl⟩
    · exact ⟨rfl, rfl, rfl⟩
  | retryDatabaseCleanup deletion message nextRetryAt =>
    simp only [step, retryDatabaseCleanup]
    split
    · split <;> exact ⟨rfl, rfl, rfl⟩
    · exact ⟨rfl, rfl, rfl⟩
  | failDatabaseCleanup deletion message now =>
    simp only [step, failDatabaseCleanup]
    split
    · split <;> exact ⟨rfl, rfl, rfl⟩
    · exact ⟨rfl, rfl, rfl⟩
  | recoverStaleDeletions organizationId now => exact ⟨rfl, rfl, rfl⟩
  | completeAndPurge deletion now => exact absurd rfl (stays deletion now)

/-- Such a step leaves jobs and artifacts alone, or purges some of them. -/
theorem step_aside (w : World) {event : Event} (aside : event.Aside) :
    ((step w event).db.jobs = w.db.jobs ∧ (step w event).db.artifacts = w.db.artifacts) ∨
      Purges w.db (step w event).db := by
  cases event with
  | completeAndPurge deletion now =>
    simp only [step]
    split
    · rcases transact_db_cases w (completeAndPurge w.db deletion now) with
        ⟨after, returned, here⟩ | here
      · rw [here]
        rcases completeAndPurge_jobs returned with rfl | purges
        · exact .inl ⟨rfl, rfl⟩
        · exact .inr purges
      · rw [here]
        exact .inl ⟨rfl, rfl⟩
    · exact .inl ⟨rfl, rfl⟩
  | _ =>
    have keeps := step_aside_keeps w aside nofun
    exact .inl ⟨keeps.1, keeps.2.1⟩

theorem step_jobsMove (w : World) (event : Event) :
    JobsMove w.db (step w event).db ∨ Purges w.db (step w event).db := by
  by_cases aside : event.Aside
  · exact (step_aside w aside).imp_left fun same => .same same.1 same.2
  · refine .inl ?_
    cases event with
    | call worker =>
      simp only [step]
      split
      · exact call_jobsMove w worker
      · exact .same rfl rfl
    | retryJob organizationId workspaceId agreementId jobId now =>
      exact transact_jobsMove fun after returned => retryJob_jobsMove returned
    | _ => exact absurd trivial aside

/-! What every run keeps -/

structure Database.Disciplined (db : Database) : Prop where
  jobIds : (db.jobs.map (·.id)).Nodup
  jobs : ∀ job ∈ db.jobs, job.Disciplined
  artifacts : (db.artifacts.map (·.key)).Nodup

theorem Database.Initial.disciplined {db : Database} (initial : db.Initial) : db.Disciplined where
  jobIds := initial.jobIds
  jobs job member := by
    obtain ⟨-, tokenless, leaseless⟩ := initial.queued job member
    exact ⟨by simp [tokenless, leaseless], fun token => absurd tokenless token⟩
  artifacts := by simp [initial.artifacts]

theorem JobsMove.disciplined {before after : Database} (move : JobsMove before after)
    (holds : before.Disciplined) : after.Disciplined := by
  cases move with
  | same jobs artifacts =>
    exact ⟨jobs ▸ holds.jobIds, jobs ▸ holds.jobs, artifacts ▸ holds.artifacts⟩
  | @changed job change member changes jobs artifacts =>
    refine ⟨?_, ?_, ?_⟩
    · rw [jobs]
      exact nodup_update changes.keepsId holds.jobIds
    · rw [jobs]
      intro row present
      obtain ⟨old, there, rfl⟩ := mem_update.mp present
      split
      · exact changes.disciplined old
      · exact holds.jobs old there
    · rcases artifacts with same | ⟨row, fresh, appended⟩
      · rw [same]
        exact holds.artifacts
      · rw [appended, List.map_append, List.map_singleton]
        exact List.nodup_append.mpr ⟨holds.artifacts, List.nodup_singleton _, fun key here other
          last => by rw [List.mem_singleton.mp last]; exact fun same => fresh (same ▸ here)⟩

theorem Purges.disciplined {before after : Database} (purges : Purges before after)
    (holds : before.Disciplined) : after.Disciplined := by
  obtain ⟨⟨keep, jobs⟩, keepArtifact, artifacts⟩ := purges
  refine ⟨?_, fun job member => ?_, ?_⟩
  · rw [jobs]
    exact holds.jobIds.sublist (List.filter_sublist.map _)
  · rw [jobs] at member
    exact holds.jobs job (List.mem_of_mem_filter member)
  · rw [artifacts]
    exact holds.artifacts.sublist (List.filter_sublist.map _)

theorem step_disciplined (w : World) (event : Event) (holds : w.db.Disciplined) :
    (step w event).db.Disciplined := by
  rcases step_jobsMove w event with move | purges
  · exact move.disciplined holds
  · exact purges.disciplined holds

/-- The row of a job, while there is one, is completed. -/
def Database.Finished (db : Database) (jobId : Uuid) : Prop :=
  ∀ job ∈ db.jobs, job.id = jobId → job.state = .completed

theorem JobsMove.finished {before after : Database} {jobId : Uuid}
    (move : JobsMove before after) (finished : before.Finished jobId) :
    after.Finished jobId := by
  cases move with
  | same jobs artifacts =>
    rw [Database.Finished, jobs]
    exact finished
  | @changed job change member changes jobs artifacts =>
    rw [Database.Finished, jobs]
    intro row present named
    obtain ⟨old, there, rfl⟩ := mem_update.mp present
    split at named
    · rename_i hit
      rw [changes.keepsId] at named
      rw [if_pos hit]
      exact changes.final (finished job member (hit ▸ named)) old
    · rename_i miss
      rw [if_neg miss]
      exact finished old there named

theorem step_finished {w : World} {jobId : Uuid} (event : Event)
    (finished : w.db.Finished jobId) : (step w event).db.Finished jobId := by
  rcases step_jobsMove w event with move | ⟨⟨keep, jobs⟩, -⟩
  · exact move.finished finished
  · rw [Database.Finished, jobs]
    exact fun job member => finished job (List.mem_of_mem_filter member)

/-- A job that is there and completed. -/
def Database.Completed (db : Database) (jobId : Uuid) : Prop :=
  ∃ job ∈ db.jobs, job.id = jobId ∧ job.state = .completed

theorem JobsMove.completed {before after : Database} {jobId : Uuid}
    (move : JobsMove before after) (distinct : (before.jobs.map (·.id)).Nodup)
    (completed : before.Completed jobId) : after.Completed jobId := by
  obtain ⟨row, present, named, done⟩ := completed
  cases move with
  | same jobs artifacts => exact ⟨row, jobs ▸ present, named, done⟩
  | @changed job change member changes jobs artifacts =>
    refine ⟨if row.id = job.id then change row else row, ?_, ?_, ?_⟩
    · rw [jobs]
      exact mem_update.mpr ⟨row, present, rfl⟩
    · split
      · rw [changes.keepsId, named]
      · exact named
    · split
      · rename_i hit
        have same : row = job := by
          have found := find?_of_mem distinct member
          have alike := find?_of_mem distinct present
          rw [hit] at alike
          exact Option.some.inj (alike.symm.trans found)
        exact changes.final (same ▸ done) row
      · exact done

/-! Stale claims -/

/-- The call is made with a claim whose token the job does not carry any more. -/
def WorkerCall.Stale (db : Database) (call : WorkerCall) : Prop :=
  ∃ claimed, call.claimed? = some claimed ∧
    ∀ job ∈ db.jobs, job.id = claimed.id → job.claimToken ≠ some claimed.claimToken

theorem transact_sameRows {w : World} {outcome : Except Raised Database}
    (same : ∀ after, outcome = .ok after → SameRows w.db after) :
    SameRows w.db (w.transact outcome).db := by
  rcases transact_db_cases w outcome with ⟨after, returned, here⟩ | here
  · rw [here]
    exact same after returned
  · rw [here]
    exact SameRows.refl w.db

/-- A call with a stale claim writes no row of jobs, versions, agreements or artifacts. -/
theorem stale_call_sameRows {w : World} {call : WorkerCall} (stale : call.Stale w.db) :
    SameRows w.db (w.call call).db := by
  obtain ⟨claimed, made, lost⟩ := stale
  have unowned : ∀ {job : ProcessingJobRecord}, w.db.job? claimed.id = some job →
      ¬ job.OwnedBy claimed := fun found owned => by
    obtain ⟨member, named⟩ := Database.job?_eq_some found
    exact lost _ member named owned.2
  cases call with
  | claim => cases made
  | expect job artifact now =>
    refine transact_sameRows fun after returned => ?_
    obtain ⟨answer, done⟩ := map_snd_ok returned
    exact (expect_ok done).sameRows
  | commitPrepared job artifact content verdict now =>
    cases made
    refine transact_sameRows fun after returned => ?_
    obtain ⟨answer, done⟩ := map_snd_ok returned
    have outcome := w.commit_committed claimed artifact content verdict now
    rw [show (w.commit claimed artifact content verdict now).2 = .ok (answer, after) from done]
      at outcome
    generalize (w.commit claimed artifact content verdict now).1 = left at outcome
    cases outcome with
    | stopped returns => exact (returns _ _ rfl).2.sameRows
    | committed writes runs => exact absurd writes.owned (unowned writes.found)
  | requeue job expected category message nextRetryAt now =>
    cases made
    refine transact_sameRows fun after returned => ?_
    obtain ⟨answer, done⟩ := map_snd_ok returned
    cases requeue_ok done with
    | idle => exact SameRows.refl w.db
    | inventoried late done requested => exact late.sameRows.trans done.sameRows
    | queued found owned active => exact absurd owned (unowned found)
  | fail job expected category message now =>
    cases made
    refine transact_sameRows fun after returned => ?_
    cases fail_ok returned with
    | inventoried late => exact late.sameRows
    | reconciled found owned requested done => exact absurd owned (unowned found)
    | settled found owned active => exact absurd owned (unowned found)

/-! Commits -/

/-- The step is a worker's `commit_prepared` of the job that answers `True`. -/
def Event.CommitsJob (w : World) (jobId : Uuid) : Event → Prop
  | .call (.commitPrepared job artifact content verdict now) =>
    job.id = jobId ∧ (job, artifact) ∈ w.expected ∧
      ((w.commit job artifact content verdict now).2.toOption.map Prod.fst) = some true
  | _ => False

instance (w : World) (jobId : Uuid) (event : Event) : Decidable (event.CommitsJob w jobId) := by
  unfold Event.CommitsJob
  split <;> infer_instance

/-- How often a run commits a job. -/
def commitsOf (jobId : Uuid) : World → List Event → Nat
  | _, [] => 0
  | w, event :: rest =>
    (if event.CommitsJob w jobId then 1 else 0) + commitsOf jobId (step w event) rest

/-- A commit finds the job in processing and leaves it completed. -/
theorem commitsJob_completes {w : World} {jobId : Uuid} {event : Event}
    (commits : event.CommitsJob w jobId) :
    ¬ w.db.Finished jobId ∧ (step w event).db.Finished jobId := by
  unfold Event.CommitsJob at commits
  split at commits
  case h_2 => exact commits.elim
  rename_i job artifact content verdict now
  obtain ⟨rfl, held, answered⟩ := commits
  have outcome := w.commit_committed job artifact content verdict now
  have here : (step w (.call (.commitPrepared job artifact content verdict now))).db =
      committed w.db ((w.commit job artifact content verdict now).2.map Prod.snd) := by
    simp only [step]
    rw [if_pos (show (WorkerCall.commitPrepared job artifact content verdict now).Held w from held)]
    rfl
  rw [here]
  generalize (w.commit job artifact content verdict now).1 = left at outcome
  generalize (w.commit job artifact content verdict now).2 = result at outcome answered
  cases outcome with
  | stopped returns =>
    cases result with
    | error raised => cases answered
    | ok value =>
      have refused := (returns value.1 value.2 rfl).1
      simp only [Except.toOption, Option.map_some, refused] at answered
      cases answered
  | rolledBack writes => cases answered
  | @committed row finalized writes runs =>
    obtain ⟨member, named⟩ := Database.job?_eq_some writes.found
    constructor
    · intro finished
      have processing := writes.owned.1
      rw [finished row member named] at processing
      cases processing
    · intro after present same
      obtain ⟨comparisonRuns, rfl⟩ := runs
      simp only [Except.map, committed, commitRows_jobs] at present
      obtain ⟨old, there, rfl⟩ := mem_update.mp present
      split at same
      · rename_i hit
        rw [if_pos hit]
        rfl
      · rename_i miss
        exact absurd same miss

theorem commitsOf_of_finished {w : World} {jobId : Uuid} (events : List Event)
    (finished : w.db.Finished jobId) : commitsOf jobId w events = 0 := by
  induction events generalizing w with
  | nil => rfl
  | cons event rest ih =>
      have silent : ¬ event.CommitsJob w jobId := fun commits =>
        (commitsJob_completes commits).1 finished
      rw [commitsOf, if_neg silent, ih (step_finished event finished)]

theorem commitsOf_le_one (w : World) (jobId : Uuid) (events : List Event) :
    commitsOf jobId w events ≤ 1 := by
  induction events generalizing w with
  | nil => exact Nat.zero_le 1
  | cons event rest ih =>
      rw [commitsOf]
      by_cases commits : event.CommitsJob w jobId
      · rw [if_pos commits, commitsOf_of_finished rest (commitsJob_completes commits).2]
      · rw [if_neg commits, Nat.zero_add]
        exact ih (step w event)

/-- The discipline of one state: tokens and artifacts, and what a call of any worker, with
any claim, can do from here. -/
structure World.Fenced (w : World) : Prop where
  paired : ∀ job ∈ w.db.jobs, job.claimToken = none ↔ job.claimLeaseExpiresAt = none
  processing : ∀ job ∈ w.db.jobs, job.claimToken ≠ none → job.state = .processing
  artifactsOnce : (w.db.artifacts.map fun row => (row.jobId, row.artifactKey)).Nodup
  stale : ∀ call : WorkerCall, call.Stale w.db → SameRows w.db (w.call call).db
  final : ∀ (call : WorkerCall) (jobId : Uuid),
    w.db.Completed jobId → (w.call call).db.Completed jobId

theorem Database.Disciplined.fenced {w : World} (holds : w.db.Disciplined) : w.Fenced where
  paired job member := (holds.jobs job member).paired
  processing job member := (holds.jobs job member).processing
  artifactsOnce := holds.artifacts
  stale _ stale := stale_call_sameRows stale
  final call _ completed := (call_jobsMove w call).completed holds.jobIds completed

/-- Fencing: every state of every run is disciplined, and no run commits a job twice. -/
theorem run_fenced {w : World} (initial : w.Initial) (events : List Event) :
    (run step w events).Fenced ∧ ∀ jobId, commitsOf jobId w events ≤ 1 := by
  have holds : (run step w events).db.Disciplined :=
    run_invariant (fun w : World => w.db.Disciplined) initial.db.disciplined step_disciplined
  exact ⟨holds.fenced, fun jobId => commitsOf_le_one w jobId events⟩

theorem run_fenced_sample :
    (run step sampleWorld sampleProcessing).Fenced ∧
      commitsOf (.ofNat 5) sampleWorld sampleProcessing = 1 := by
  obtain ⟨fenced, atMostOnce⟩ := run_fenced sampleWorld_initial sampleProcessing
  have bound := atMostOnce (.ofNat 5)
  have once : 1 ≤ commitsOf (.ofNat 5) sampleWorld sampleProcessing := by decide +kernel
  exact ⟨fenced, by omega⟩

end AgreementIntelligence.Agreements
