import AgreementIntelligence.Agreements.Processing

/-! What each call of the worker's processing repository can do, stated once: the outcomes
of a call that returns are a short list, each with the guards that lead to it, and nothing
below looks into the bodies of the calls again. -/

namespace AgreementIntelligence.Agreements
open Identity Lib.Table Lib.Text

/-- Some agreement of the database is deletion-requested under these identifiers. -/
structure Database.DeletionRequested (db : Database) (context : ArtifactContext)
    (agreement : AgreementRecord) : Prop where
  found : db.agreement? context.agreementId context.organizationId context.workspaceId =
    some agreement
  requested : agreement.deletionRequestedAt.isSome = true

structure Database.Active (db : Database) (context : ArtifactContext)
    (agreement : AgreementRecord) : Prop where
  found : db.agreement? context.agreementId context.organizationId context.workspaceId =
    some agreement
  active : agreement.deletionRequestedAt = none

theorem Database.job?_eq_some {db : Database} {jobId : Uuid} {job : ProcessingJobRecord}
    (found : db.job? jobId = some job) : job ∈ db.jobs ∧ job.id = jobId := by
  have holds := List.find?_some found
  exact ⟨List.mem_of_find?_eq_some found, of_decide_eq_true holds⟩

theorem Database.agreement?_eq_some {db : Database} {agreementId organizationId workspaceId : Uuid}
    {agreement : AgreementRecord}
    (found : db.agreement? agreementId organizationId workspaceId = some agreement) :
    agreement ∈ db.agreements ∧ agreement.id = agreementId ∧
      agreement.organizationId = organizationId ∧ agreement.workspaceId = workspaceId := by
  have holds := List.find?_some found
  exact ⟨List.mem_of_find?_eq_some found, of_decide_eq_true holds⟩

theorem Database.intent?_eq_some {db : Database} {jobId organizationId workspaceId : Uuid}
    {intent : ProcessingArtifactIntentRecord}
    (found : db.intent? jobId organizationId workspaceId = some intent) :
    intent ∈ db.intents ∧ intent.jobId = jobId := by
  have holds := List.find?_some found
  have facts := of_decide_eq_true holds
  exact ⟨List.mem_of_find?_eq_some found, facts.1⟩

theorem Database.deletionRequest?_eq_some {db : Database}
    {agreementId organizationId workspaceId : Uuid} {request : AgreementDeletionRequestRecord}
    (found : db.deletionRequest? agreementId organizationId workspaceId = some request) :
    request ∈ db.deletionRequests ∧ request.agreementId = agreementId ∧
      request.organizationId = organizationId ∧ request.workspaceId = workspaceId := by
  have holds := List.find?_some found
  exact ⟨List.mem_of_find?_eq_some found, of_decide_eq_true holds⟩

theorem map_ok {α β : Type} {f : α → β} {result : Except Raised α} {value : β}
    (done : result.map f = .ok value) : ∃ inner, result = .ok inner ∧ f inner = value := by
  cases result with
  | error raised => cases done
  | ok inner => exact ⟨inner, rfl, Except.ok.inj done⟩

/-! Writes and the tables they leave alone -/

@[simp] theorem updateAgreementProcessingState_jobs (db : Database) (job : ProcessingJobRecord)
    (state : JobState) : (updateAgreementProcessingState db job state).jobs = db.jobs := by
  unfold updateAgreementProcessingState
  split <;> rfl

@[simp] theorem updateAgreementProcessingState_artifacts (db : Database)
    (job : ProcessingJobRecord) (state : JobState) :
    (updateAgreementProcessingState db job state).artifacts = db.artifacts := by
  unfold updateAgreementProcessingState
  split <;> rfl

@[simp] theorem updateAgreementProcessingState_intents (db : Database)
    (job : ProcessingJobRecord) (state : JobState) :
    (updateAgreementProcessingState db job state).intents = db.intents := by
  unfold updateAgreementProcessingState
  split <;> rfl

/-- The identifiers of an agreement in its tenant. -/
structure Scope where
  agreementId : Uuid
  organizationId : Uuid
  workspaceId : Uuid
  deriving DecidableEq, Repr

def AgreementRecord.scope (agreement : AgreementRecord) : Scope :=
  ⟨agreement.id, agreement.organizationId, agreement.workspaceId⟩

/-- The columns of an agreement that processing never changes. -/
def AgreementRecord.standing (agreement : AgreementRecord) : Scope × Option Time :=
  (agreement.scope, agreement.deletionRequestedAt)

theorem updateAgreementProcessingState_standing (db : Database) (job : ProcessingJobRecord)
    (state : JobState) :
    (updateAgreementProcessingState db job state).agreements.map AgreementRecord.standing =
      db.agreements.map AgreementRecord.standing := by
  unfold updateAgreementProcessingState
  split
  · rfl
  · rw [List.map_map]
    refine List.map_congr_left fun agreement _ => ?_
    simp only [Function.comp_apply]
    split <;> rfl

/-- The rows that nobody writes while an artifact is reserved or inventoried are the same in
both databases. -/
structure SameRows (before after : Database) : Prop where
  jobs : after.jobs = before.jobs
  versions : after.versions = before.versions
  agreements : after.agreements = before.agreements
  artifacts : after.artifacts = before.artifacts
  questionThreads : after.questionThreads = before.questionThreads
  questionTurns : after.questionTurns = before.questionTurns

theorem SameRows.refl (db : Database) : SameRows db db := ⟨rfl, rfl, rfl, rfl, rfl, rfl⟩

theorem SameRows.trans {first second third : Database} (one : SameRows first second)
    (two : SameRows second third) : SameRows first third :=
  ⟨two.jobs.trans one.jobs, two.versions.trans one.versions,
    two.agreements.trans one.agreements, two.artifacts.trans one.artifacts,
    two.questionThreads.trans one.questionThreads, two.questionTurns.trans one.questionTurns⟩

/-- A late artifact enters the inventory of the request of its agreement. -/
theorem inventoryLateArtifact_ok {db after : Database} {context : ArtifactContext}
    {key : String} {now : Time} (done : inventoryLateArtifact db context key now = .ok after) :
    ∃ request, db.deletionRequest? context.agreementId context.organizationId
        context.workspaceId = some request ∧
      (lateArtifactCategory context.profile key = none ∧ after = db ∨
        ∃ category, lateArtifactCategory context.profile key = some category ∧
          after = { db with
            deletionObjects :=
              recordLateObject db.deletionObjects db.nextObjectId request context category key
            nextObjectId := db.nextObjectId + 1
            deletionRequests := update (·.id) db.deletionRequests request.id (reopen now)
            deletionOutbox :=
              wakeOutbox db.deletionOutbox request.id context.agreementId now }) := by
  unfold inventoryLateArtifact at done
  split at done
  · cases done
  rename_i request found
  split at done
  · rename_i uncategorised
    cases done
    exact ⟨request, found, .inl ⟨uncategorised, rfl⟩⟩
  · rename_i category known
    cases done
    exact ⟨request, found, .inr ⟨category, known, rfl⟩⟩

theorem inventoryLateArtifact_sameRows {db after : Database} {context : ArtifactContext}
    {key : String} {now : Time} (done : inventoryLateArtifact db context key now = .ok after) :
    SameRows db after := by
  obtain ⟨request, -, ⟨-, rfl⟩ | ⟨category, -, rfl⟩⟩ := inventoryLateArtifact_ok done
  · exact SameRows.refl _
  · exact ⟨rfl, rfl, rfl, rfl, rfl, rfl⟩

theorem reconcileArtifactIntent_ok {db after : Database} {now : Time}
    {intent : ProcessingArtifactIntentRecord}
    (done : reconcileArtifactIntent db intent now = .ok after) :
    ∃ inventoried, inventoryLateArtifact db intent.context intent.artifactKey now =
      .ok inventoried ∧ after = inventoried.deleteIntent intent.jobId := by
  obtain ⟨inventoried, listed, rfl⟩ := map_ok done
  exact ⟨inventoried, listed, rfl⟩

theorem reconcileArtifactIntent_sameRows {db after : Database} {now : Time}
    {intent : ProcessingArtifactIntentRecord}
    (done : reconcileArtifactIntent db intent now = .ok after) : SameRows db after := by
  obtain ⟨inventoried, listed, rfl⟩ := reconcileArtifactIntent_ok done
  exact (inventoryLateArtifact_sameRows listed).trans ⟨rfl, rfl, rfl, rfl, rfl, rfl⟩

/-- Reconciling the intent of a job does nothing when the job has none. -/
inductive Reconciled (db : Database) (jobId : Uuid) (now : Time) : Database → Prop where
  | none : Reconciled db jobId now db
  | intent {intent : ProcessingArtifactIntentRecord} {after : Database}
      (member : intent ∈ db.intents) (named : intent.jobId = jobId)
      (done : reconcileArtifactIntent db intent now = .ok after) : Reconciled db jobId now after

theorem reconcileIntentOf_ok {db after : Database} {jobId organizationId workspaceId : Uuid}
    {now : Time} (done : reconcileIntentOf db jobId organizationId workspaceId now = .ok after) :
    Reconciled db jobId now after := by
  unfold reconcileIntentOf at done
  split at done
  · cases done
    exact .none
  · rename_i intent found
    obtain ⟨member, named⟩ := Database.intent?_eq_some found
    exact .intent member named done

theorem Reconciled.sameRows {db after : Database} {jobId : Uuid} {now : Time}
    (reconciled : Reconciled db jobId now after) : SameRows db after := by
  cases reconciled with
  | none => exact SameRows.refl db
  | intent member named done => exact reconcileArtifactIntent_sameRows done

/-- The contexts under which a claim's artifact is inventoried: its own, or the one of the
stored job. -/
def Database.KnowsContext (db : Database) (claimed : ProcessingJob) (context : ArtifactContext) :
    Prop :=
  context = claimed.context ∨ ∃ job, db.job? claimed.id = some job ∧ context = job.context

/-- Late inventory of an artifact that may not be there, once a deletion is requested. -/
inductive Inventoried (db : Database) (claimed : ProcessingJob)
    (expected : Option CompletedArtifact) (now : Time) : Database → Prop where
  | none : Inventoried db claimed expected now db
  | late {scope context : ArtifactContext} {artifact : CompletedArtifact}
      {agreement : AgreementRecord} {after : Database} (computed : expected = some artifact)
      (known : db.KnowsContext claimed context) (requested : db.DeletionRequested scope agreement)
      (done : inventoryLateArtifact db context artifact.key now = .ok after) :
      Inventoried db claimed expected now after

theorem Inventoried.sameRows {db after : Database} {claimed : ProcessingJob}
    {expected : Option CompletedArtifact} {now : Time}
    (inventoried : Inventoried db claimed expected now after) : SameRows db after := by
  cases inventoried with
  | none => exact SameRows.refl db
  | late computed known requested done => exact inventoryLateArtifact_sameRows done

theorem inventoryExpected_ok {db after : Database} {claimed : ProcessingJob}
    {context : ArtifactContext} {agreement : AgreementRecord}
    {expected : Option CompletedArtifact} {now : Time} (known : db.KnowsContext claimed context)
    (requested : db.DeletionRequested context agreement)
    (done : inventoryExpected db context expected now = .ok after) :
    Inventoried db claimed expected now after := by
  unfold inventoryExpected at done
  split at done
  · cases done
    exact .none
  · exact .late rfl known requested done

theorem inventoryFailedArtifactAfterPurge_ok {db after : Database} {claimed : ProcessingJob}
    {expected : Option CompletedArtifact} {now : Time}
    (done : inventoryFailedArtifactAfterPurge db claimed expected now = .ok after) :
    Inventoried db claimed expected now after := by
  unfold inventoryFailedArtifactAfterPurge at done
  split at done
  · cases done
    exact .none
  split at done
  · rename_i requested
    rw [Option.isSome_bind, Option.any_eq_true] at requested
    obtain ⟨agreement, found, open_⟩ := requested
    have isRequested : db.DeletionRequested claimed.context agreement := ⟨found, open_⟩
    exact .late rfl (.inl rfl) isRequested done
  · cases done
    exact .none

/-! The calls -/

/-- What `claim` can do: nothing, reconcile the intent of a deletion-requested agreement,
settle a job whose artifact is stored, or start an attempt. -/
inductive Claimed (db : Database) (jobId : Uuid) (now : Time) (claimToken : Uuid) :
    Option ProcessingJob → Database → Prop where
  | idle : Claimed db jobId now claimToken none db
  | reconciled {context : ArtifactContext} {agreement : AgreementRecord} {after : Database}
      (requested : db.DeletionRequested context agreement)
      (done : Reconciled db jobId now after) : Claimed db jobId now claimToken none after
  | settled {job : ProcessingJobRecord} {agreement : AgreementRecord}
      (found : db.job? jobId = some job) (active : db.Active job.context agreement)
      (stored : db.hasArtifact jobId = true) :
      Claimed db jobId now claimToken none (updateAgreementProcessingState
        (if job.state = .completed then db else db.updateJob jobId (completeJob now))
        job .completed)
  | started {job : ProcessingJobRecord} {agreement : AgreementRecord}
      (found : db.job? jobId = some job) (active : db.Active job.context agreement)
      (unstored : db.hasArtifact jobId = false)
      (takeable : job.state = .processing ∨ job.state = .queued) :
      Claimed db jobId now claimToken (some (claimedJob now claimToken job))
        (updateAgreementProcessingState (db.updateJob jobId (startAttempt now claimToken))
          job .processing)

theorem claim_ok {db after : Database} {jobId organizationId workspaceId claimToken : Uuid}
    {now : Time} {result : Option ProcessingJob}
    (done : claim db jobId organizationId workspaceId now claimToken = .ok (result, after)) :
    Claimed db jobId now claimToken result after := by
  unfold claim at done
  split at done
  · split at done
    · cases done
      exact .idle
    rename_i intent found
    split at done
    · cases done
    rename_i at_ requested
    obtain ⟨member, named⟩ := Database.intent?_eq_some found
    obtain ⟨agreement, stored, open_⟩ := Option.bind_eq_some_iff.mp requested
    obtain ⟨inner, reconciled, same⟩ := map_ok done
    cases same
    have isRequested : db.DeletionRequested intent.context agreement := ⟨stored, by simp [open_]⟩
    exact .reconciled isRequested (.intent member named reconciled)
  rename_i job found
  split at done
  · cases done
    exact .idle
  split at done
  · cases done
    exact .idle
  rename_i agreement stored
  split at done
  · rename_i requested
    split at done
    · cases done
    obtain ⟨inner, reconciled, same⟩ := map_ok done
    cases same
    have isRequested : db.DeletionRequested job.context agreement := ⟨stored, requested⟩
    exact .reconciled isRequested (reconcileIntentOf_ok reconciled)
  rename_i active
  have isActive : db.Active job.context agreement := ⟨stored, by simpa using active⟩
  split at done
  · rename_i artifact
    cases done
    exact .settled found isActive artifact
  rename_i unstored
  split at done
  · cases done
  split at done
  · rename_i takeable
    cases done
    exact .started found isActive (by simpa using unstored) takeable
  · cases done
    exact .idle

/-- What `expect` can do: nothing, reserve the key, renew a reservation, or hand the key to
the inventory of a deletion that has been requested in the meantime. -/
inductive Expected (db : Database) (job : ProcessingJob) (artifact : CompletedArtifact)
    (now : Time) : Bool → Database → Prop where
  | idle (answer : Bool) : Expected db job artifact now answer db
  | reserved {agreement : AgreementRecord} {jobRecord : ProcessingJobRecord}
      {category : ObjectCategory} (active : db.Active job.context agreement)
      (found : db.job? job.id = some jobRecord) (owned : jobRecord.OwnedBy job)
      (known : lateArtifactCategory job.profile artifact.key = some category)
      (absent : db.intent? job.id job.organizationId job.workspaceId = none) :
      Expected db job artifact now true
        (db.insertIntent (reservation job category artifact.key))
  | renewed {agreement : AgreementRecord} (active : db.Active job.context agreement) :
      Expected db job artifact now true { db with
        intents := update (·.jobId) db.intents job.id fun row => { row with state := .expected } }
  | reconciled {agreement : AgreementRecord} {after : Database}
      (requested : db.DeletionRequested job.context agreement)
      (done : Reconciled db job.id now after) : Expected db job artifact now false after
  | inventoried {agreement : AgreementRecord} {category : ObjectCategory} {after : Database}
      (requested : db.DeletionRequested job.context agreement)
      (known : lateArtifactCategory job.profile artifact.key = some category)
      (absent : db.intent? job.id job.organizationId job.workspaceId = none)
      (done : reconcileArtifactIntent (db.insertIntent (reservation job category artifact.key))
        (reservation job category artifact.key) now = .ok after) :
      Expected db job artifact now false after

theorem expect_ok {db after : Database} {job : ProcessingJob} {artifact : CompletedArtifact}
    {now : Time} {answer : Bool} (done : expect db job artifact now = .ok (answer, after)) :
    Expected db job artifact now answer after := by
  unfold expect at done
  split at done
  · cases done
    exact .idle true
  rename_i category known
  split at done
  · cases done
    exact .idle false
  rename_i agreement stored
  split at done
  · cases done
    exact .idle false
  rename_i jobRecord found
  split at done
  · cases done
    exact .idle false
  rename_i owned
  rw [not_not] at owned
  split at done
  · rename_i absent
    simp only at done
    split at done
    · rename_i requested
      obtain ⟨inner, reconciled, same⟩ := map_ok done
      cases same
      exact .inventoried ⟨stored, requested⟩ known absent reconciled
    · rename_i active
      cases done
      exact .reserved ⟨stored, by simpa using active⟩ found owned known absent
  rename_i intent reserved
  split at done
  · cases done
  split at done
  · rename_i requested
    obtain ⟨inner, reconciled, same⟩ := map_ok done
    cases same
    obtain ⟨member, named⟩ := Database.intent?_eq_some reserved
    exact .reconciled ⟨stored, requested⟩ (.intent member named reconciled)
  · rename_i active
    cases done
    exact .renewed ⟨stored, by simpa using active⟩

theorem Expected.sameRows {db after : Database} {job : ProcessingJob}
    {artifact : CompletedArtifact} {now : Time} {answer : Bool}
    (expected : Expected db job artifact now answer after) : SameRows db after := by
  cases expected with
  | idle => exact SameRows.refl db
  | reserved => exact ⟨rfl, rfl, rfl, rfl, rfl, rfl⟩
  | renewed => exact ⟨rfl, rfl, rfl, rfl, rfl, rfl⟩
  | reconciled requested done => exact done.sameRows
  | inventoried requested known absent done =>
    have rows := reconcileArtifactIntent_sameRows done
    exact ⟨rows.jobs, rows.versions, rows.agreements, rows.artifacts, rows.questionThreads,
      rows.questionTurns⟩

/-- A commit that reaches object storage: the claim is owned, the agreement is not
deletion-requested, and a categorised artifact has its current intent. -/
structure Writes (db : Database) (claimed : ProcessingJob) (artifact : CompletedArtifact)
    (job : ProcessingJobRecord) : Prop where
  found : db.job? claimed.id = some job
  owned : job.OwnedBy claimed
  active : ∃ agreement, db.Active claimed.context agreement
  intent : ∀ category, lateArtifactCategory claimed.profile artifact.key = some category →
    ∃ intent ∈ db.intents, intent.jobId = claimed.id ∧ intent.artifactKey = artifact.key

theorem decideCommit_writes {db : Database} {claimed : ProcessingJob}
    {prepared : PreparedArtifact} {now : Time} {job : ProcessingJobRecord}
    (decided : decideCommit db claimed prepared now = .writes job) :
    Writes db claimed prepared.artifact job := by
  unfold decideCommit at decided
  simp only at decided
  split at decided
  · cases decided
  split at decided
  · cases decided
  rename_i agreement stored
  split at decided
  · split at decided <;> cases decided
  rename_i row found
  split at decided
  · cases decided
  split at decided
  · split at decided <;> cases decided
  rename_i owned
  rw [not_not] at owned
  split at decided
  · cases decided
  rename_i current
  split at decided
  · split at decided <;> cases decided
  rename_i active
  cases decided
  refine ⟨found, owned, ⟨agreement, stored, by simpa using active⟩, fun category known => ?_⟩
  simp only [known, Option.isSome_some, true_and, not_not, Option.any_eq_true] at current
  obtain ⟨intent, reserved, facts⟩ := current
  obtain ⟨member, named⟩ := Database.intent?_eq_some reserved
  exact ⟨intent, member, named, (of_decide_eq_true facts).1⟩

/-- A commit that stops before object storage leaves the rows of jobs alone. -/
inductive CommitStopped (db : Database) (claimed : ProcessingJob) (artifact : CompletedArtifact)
    (now : Time) : Database → Prop where
  | inventoried {after : Database} (done : Inventoried db claimed (some artifact) now after) :
      CommitStopped db claimed artifact now after
  | reconciled {agreement : AgreementRecord} {after : Database}
      (requested : db.DeletionRequested claimed.context agreement)
      (done : Reconciled db claimed.id now after) : CommitStopped db claimed artifact now after

theorem decideCommit_stops {db after : Database} {claimed : ProcessingJob}
    {prepared : PreparedArtifact} {now : Time} {result : Except Raised (Bool × Database)}
    {answer : Bool} (decided : decideCommit db claimed prepared now = .stops result)
    (done : result = .ok (answer, after)) :
    answer = false ∧ CommitStopped db claimed prepared.artifact now after := by
  unfold decideCommit at decided
  simp only at decided
  split at decided
  · cases decided
    cases done
  split at decided
  · cases decided
    cases done
    exact ⟨rfl, .inventoried .none⟩
  rename_i agreement stored
  split at decided
  · split at decided
    · rename_i late
      cases decided
      obtain ⟨inner, listed, same⟩ := map_ok done
      cases same
      have requested : db.DeletionRequested claimed.context agreement := ⟨stored, late.1⟩
      exact ⟨rfl, .inventoried (.late rfl (.inl rfl) requested listed)⟩
    · cases decided
      cases done
      exact ⟨rfl, .inventoried .none⟩
  rename_i job found
  split at decided
  · cases decided
    cases done
    exact ⟨rfl, .inventoried .none⟩
  rename_i scope
  rw [not_not] at scope
  split at decided
  · split at decided
    · rename_i late
      cases decided
      obtain ⟨inner, listed, same⟩ := map_ok done
      cases same
      have requested : db.DeletionRequested claimed.context agreement := ⟨stored, late.1⟩
      exact ⟨rfl, .inventoried (.late rfl (.inr ⟨job, found, rfl⟩) requested listed)⟩
    · cases decided
      cases done
  split at decided
  · cases decided
    cases done
  split at decided
  · rename_i requested
    split at decided
    · cases decided
      cases done
      exact ⟨rfl, .inventoried .none⟩
    · rename_i intent reserved
      cases decided
      obtain ⟨inner, reconciled, same⟩ := map_ok done
      cases same
      obtain ⟨member, named⟩ := Database.intent?_eq_some reserved
      exact ⟨rfl, .reconciled ⟨stored, requested⟩ (.intent member named reconciled)⟩
  · cases decided

theorem CommitStopped.sameRows {db after : Database} {claimed : ProcessingJob}
    {artifact : CompletedArtifact} {now : Time}
    (stopped : CommitStopped db claimed artifact now after) : SameRows db after := by
  cases stopped with
  | inventoried done => exact done.sameRows
  | reconciled requested done => exact done.sameRows

/-- What `commit_prepared` can do: stop, write the object and then roll back, or write the
object and commit. -/
inductive Committed (db : Database) (storage : List String) (claimed : ProcessingJob)
    (prepared : PreparedArtifact) (now : Time) :
    List String → Except Raised (Bool × Database) → Prop where
  | stopped {result : Except Raised (Bool × Database)}
      (returns : ∀ answer after, result = .ok (answer, after) →
        answer = false ∧ CommitStopped db claimed prepared.artifact now after) :
      Committed db storage claimed prepared now storage result
  | rolledBack {job : ProcessingJobRecord} {raised : Raised}
      (writes : Writes db claimed prepared.artifact job) :
      Committed db storage claimed prepared now
        (if prepared.content.isSome then putImmutable storage prepared.artifact.key else storage)
        (.error raised)
  | committed {job : ProcessingJobRecord} {finalized : Database}
      (writes : Writes db claimed prepared.artifact job)
      (runs : ∃ comparisonRuns, finalized = { db with comparisonRuns := comparisonRuns }) :
      Committed db storage claimed prepared now
        (if prepared.content.isSome then putImmutable storage prepared.artifact.key else storage)
        (.ok (true, commitRows finalized claimed job
          (lateArtifactCategory claimed.profile prepared.artifact.key) prepared.artifact.key now))

theorem finalize_ok {db after : Database} {job : ProcessingJob} {verdict : Except Raised Unit}
    (done : finalize db job verdict = .ok after) :
    ∃ comparisonRuns, after = { db with comparisonRuns := comparisonRuns } := by
  unfold finalize at done
  split at done
  · cases done
  split at done
  · split at done
    · cases done
    · cases done
      exact ⟨_, rfl⟩
  · cases done
    exact ⟨db.comparisonRuns, rfl⟩

theorem commitPrepared_committed (db : Database) (storage : List String)
    (claimed : ProcessingJob) (prepared : PreparedArtifact) (verdict : Except Raised Unit)
    (now : Time) : Committed db storage claimed prepared now
      (commitPrepared db storage claimed prepared verdict now).1
      (commitPrepared db storage claimed prepared verdict now).2 := by
  unfold commitPrepared
  split
  · rename_i result decided
    exact .stopped fun answer after done => decideCommit_stops decided done
  · rename_i job decided
    have writes := decideCommit_writes decided
    simp only
    cases finalized : finalize db claimed verdict with
    | error raised => exact .rolledBack writes
    | ok after => exact .committed writes (finalize_ok finalized)

/-- What `requeue` can do. -/
inductive Requeued (db : Database) (claimed : ProcessingJob)
    (expected : Option CompletedArtifact) (category message : String) (nextRetryAt now : Time) :
    Bool → Database → Prop where
  | idle : Requeued db claimed expected category message nextRetryAt now false db
  | inventoried {middle after : Database} (late : Inventoried db claimed expected now middle)
      (done : Reconciled middle claimed.id now after)
      (requested : ∃ scope agreement, db.DeletionRequested scope agreement) :
      Requeued db claimed expected category message nextRetryAt now false after
  | queued {job : ProcessingJobRecord} {agreement : AgreementRecord}
      (found : db.job? claimed.id = some job) (owned : job.OwnedBy claimed)
      (active : db.Active job.context agreement) :
      Requeued db claimed expected category message nextRetryAt now true
        (updateAgreementProcessingState
          (db.updateJob claimed.id (queueAgain category message nextRetryAt)) job .queued)

theorem Inventoried.requested {db after : Database} {claimed : ProcessingJob}
    {expected : Option CompletedArtifact} {now : Time}
    (inventoried : Inventoried db claimed expected now after) :
    after = db ∨ ∃ scope agreement, db.DeletionRequested scope agreement := by
  cases inventoried with
  | none => exact .inl rfl
  | late computed known requested done => exact .inr ⟨_, _, requested⟩

theorem requeue_ok {db after : Database} {claimed : ProcessingJob} {category message : String}
    {nextRetryAt now : Time} {expected : Option CompletedArtifact} {answer : Bool}
    (done : requeue db claimed category message nextRetryAt expected now = .ok (answer, after)) :
    Requeued db claimed expected category message nextRetryAt now answer after := by
  unfold requeue at done
  split at done
  · obtain ⟨inner, listed, same⟩ := map_ok done
    cases same
    have late := inventoryFailedArtifactAfterPurge_ok listed
    rcases late.requested with rfl | requested
    · exact .idle
    · exact .inventoried late .none requested
  rename_i job found
  split at done
  · cases done
    exact .idle
  split at done
  · cases done
    exact .idle
  rename_i agreement stored
  split at done
  · rename_i requested
    have isRequested : db.DeletionRequested job.context agreement := ⟨stored, requested⟩
    cases listed : inventoryExpected db job.context expected now with
    | error raised =>
      rw [listed] at done
      cases done
    | ok middle =>
      rw [listed] at done
      have late := inventoryExpected_ok (.inr ⟨job, found, rfl⟩) isRequested listed
      simp only [Except.bind] at done
      split at done
      · obtain ⟨inner, reconciled, same⟩ := map_ok done
        cases same
        exact .inventoried late (reconcileIntentOf_ok reconciled) ⟨_, _, isRequested⟩
      · cases done
        exact .inventoried late .none ⟨_, _, isRequested⟩
  rename_i active
  split at done
  · cases done
    exact .idle
  rename_i owned
  rw [not_not] at owned
  cases done
  exact .queued found owned ⟨stored, by simpa using active⟩

/-- What `fail` can do. -/
inductive Failed (db : Database) (claimed : ProcessingJob)
    (expected : Option CompletedArtifact) (category message : String) (now : Time) :
    Database → Prop where
  | inventoried {after : Database} (late : Inventoried db claimed expected now after) :
      Failed db claimed expected category message now after
  | reconciled {job : ProcessingJobRecord} {scope : ArtifactContext}
      {agreement : AgreementRecord} {middle : Database}
      (found : db.job? claimed.id = some job) (owned : job.OwnedBy claimed)
      (requested : db.DeletionRequested scope agreement)
      (done : Reconciled db claimed.id now middle) :
      Failed db claimed expected category message now
        (failRows middle claimed.id job category message now)
  | settled {job : ProcessingJobRecord} {agreement : AgreementRecord}
      (found : db.job? claimed.id = some job) (owned : job.OwnedBy claimed)
      (active : db.Active job.context agreement) :
      Failed db claimed expected category message now (failRows { db with
        intents := update (·.jobId) db.intents claimed.id fun row => { row with state := .settled } }
        claimed.id job category message now)

theorem fail_ok {db after : Database} {claimed : ProcessingJob} {category message : String}
    {expected : Option CompletedArtifact} {now : Time}
    (done : fail db claimed category message expected now = .ok after) :
    Failed db claimed expected category message now after := by
  unfold fail at done
  split at done
  · exact .inventoried (inventoryFailedArtifactAfterPurge_ok done)
  rename_i job found
  split at done
  · cases done
    exact .inventoried .none
  split at done
  · cases done
    exact .inventoried .none
  rename_i agreement stored
  split at done
  · split at done
    · rename_i requested
      have isRequested : db.DeletionRequested job.context agreement := ⟨stored, requested⟩
      exact .inventoried (inventoryExpected_ok (.inr ⟨job, found, rfl⟩) isRequested done)
    · cases done
      exact .inventoried .none
  rename_i owned
  rw [not_not] at owned
  obtain ⟨middle, settled, rfl⟩ := map_ok done
  split at settled
  · rename_i requested
    have isRequested : db.DeletionRequested job.context agreement := ⟨stored, requested⟩
    exact .reconciled found owned isRequested (reconcileIntentOf_ok settled)
  · rename_i active
    cases settled
    exact .settled found owned ⟨stored, by simpa using active⟩

end AgreementIntelligence.Agreements
