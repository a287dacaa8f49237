import AgreementIntelligence.Agreements.Frame
import AgreementIntelligence.Agreements.ProcessingStates
import AgreementIntelligence.Lib.Leaders

/-! The finished work of an agreement: its completed jobs, of whatever kind, and the artifacts
that they have stored. Analyses, comparisons and re-index jobs are submitted, claimed, committed
and purged in any order. A commit completes one job and stores its artifact, unless it is a
re-index job, and a purge takes an agreement's jobs and artifacts together; nothing else touches
finished work. -/

namespace AgreementIntelligence.Agreements
open Identity Lib.Table Lib.Runs Lib.Text

/-- An artifact row with its `created_at`, which the calls on jobs write and never read -/
structure DatedArtifact where
  row : ProcessingArtifactRecord
  createdAt : Time
  deriving DecidableEq, Repr

structure History where
  world : World
  artifacts : List DatedArtifact

/-- A call on the jobs of an agreement, or a step of a deletion or of a worker between its calls -/
inductive HistoryEvent where
  | job (event : JobEvent)
  | aside (event : Event) (isAside : event.Aside)

/-- The identifiers of new jobs are drawn as a `uuid4()`: none that a worker holds comes up. -/
def World.DrawsFresh (before after : World) : Prop :=
  ∀ job ∈ after.db.jobs, job.id ∈ before.claims.map (·.id) → job.id ∈ before.db.jobs.map (·.id)

instance (before after : World) : Decidable (before.DrawsFresh after) := by
  unfold World.DrawsFresh
  infer_instance

def worldStep (w : World) : HistoryEvent → World
  | .job event => if w.DrawsFresh (jobStep w event) then jobStep w event else w
  | .aside event _ => step w event

/-- The job that a call completes, with the artifact and the time of its commit -/
def WorkerCall.completes? (w : World) :
    WorkerCall → Option (ProcessingJobRecord × CompletedArtifact × Time)
  | .commitPrepared job artifact content verdict now =>
    if (job, artifact) ∈ w.expected then
      (commitWrites w.db job (prepare job artifact content) verdict now).map fun write =>
        (write.1, artifact, now)
    else none
  | _ => none

def HistoryEvent.completes? (w : World) :
    HistoryEvent → Option (ProcessingJobRecord × CompletedArtifact × Time)
  | .job (.call worker) => worker.completes? w
  | _ => none

/-- The clock of a step that stores an artifact -/
def HistoryEvent.now : HistoryEvent → Time
  | .job (.call (.commitPrepared _ _ _ _ now)) => now
  | _ => 0

/-- The artifacts that are still there, and the new ones with the time of the step -/
def History.follow (h : History) (now : Time) (w : World) : History where
  world := w
  artifacts := (h.artifacts.filter fun artifact => artifact.row ∈ w.db.artifacts) ++
    (w.db.artifacts.filter fun row => row ∉ h.world.db.artifacts).map fun row => ⟨row, now⟩

def historyStep (h : History) (event : HistoryEvent) : History :=
  h.follow event.now (worldStep h.world event)

/-- Agreements and their versions, before anything is submitted -/
structure History.Initial (h : History) : Prop where
  versionIds : (h.world.db.versions.map (·.id)).Nodup
  jobs : h.world.db.jobs = []
  artifactRows : h.world.db.artifacts = []
  claims : h.world.claims = []
  expected : h.world.expected = []
  artifacts : h.artifacts = []

/-! Kinds of jobs and the keys of their artifacts -/

/-- The job goes to the document processor and stores what it produces. -/
def IsAnalysis (profile : String) : Prop :=
  startsWith profile embeddingReindexProfilePrefix = false ∧ profile ≠ versionComparisonProfile

instance (profile : String) : Decidable (IsAnalysis profile) :=
  inferInstanceAs (Decidable (_ ∧ _))

/-- The key of an artifact is one of the kind that the job's profile asks for. -/
structure KeyFits (profile key : String) : Prop where
  analysis : IsAnalysis profile → startsWith key "tenants/" = true
  comparison : profile = versionComparisonProfile → startsWith key "comparisons/" = true

theorem expectedArtifact_keyFits {db : Database} {job : ProcessingJob}
    {artifact : CompletedArtifact} (done : expectedArtifact db job = .ok artifact) :
    KeyFits job.profile artifact.key := by
  rw [expectedArtifact] at done
  by_cases comparison : job.profile = versionComparisonProfile
  · rw [if_pos comparison, comparisonExpectedArtifact] at done
    split at done
    · cases done
    · cases done
      refine ⟨fun analysis => absurd comparison analysis.2, fun _ => ?_⟩
      rw [comparisonArtifactKey, String.append_assoc]
      exact startsWith_append_of (startsWith_self _) _
  · rw [if_neg comparison] at done
    refine ⟨fun analysis => ?_, fun same => absurd same comparison⟩
    rw [embeddingReindexConfigurationId, analysis.1] at done
    simp only [Bool.false_eq_true, if_false, documentExpectedArtifact] at done
    split at done
    · cases done
    · split at done
      · cases done
      · split at done
        · cases done
        · cases done
          simp only [documentArtifactKey, String.append_assoc]
          exact startsWith_append_of (startsWith_self _) _

/-- An artifact is stored for every job but a re-index job. -/
theorem KeyFits.category_isSome {profile key : String} (fits : KeyFits profile key) :
    (lateArtifactCategory profile key).isSome = true ↔
      startsWith profile embeddingReindexProfilePrefix = false := by
  rw [lateArtifactCategory]
  by_cases reindex : startsWith profile embeddingReindexProfilePrefix = true
  · simp [reindex]
  · rw [Bool.not_eq_true] at reindex
    by_cases comparison : profile = versionComparisonProfile
    · have apart := @startsWith_disjoint _ _ "embedding-reindex/"
        (fits.comparison comparison) (by decide)
      simp [comparison, apart]
    · have apart := @startsWith_disjoint _ _ "embedding-reindex/"
        (fits.analysis ⟨reindex, comparison⟩) (by decide)
      simp [reindex, comparison, apart]

/-- A key fits analyses or comparisons, not both. -/
theorem KeyFits.kinds_apart {profile other key : String} (fits : KeyFits profile key)
    (fits' : KeyFits other key) (analysis : IsAnalysis profile) :
    other ≠ versionComparisonProfile := by
  intro comparison
  have apart := @startsWith_disjoint _ _ "comparisons/" (fits.analysis analysis) (by decide)
  rw [fits'.comparison comparison] at apart
  cases apart

/-! What a commit does -/

theorem WorkerCall.completes?_eq_some {w : World} {worker : WorkerCall}
    {job : ProcessingJobRecord} {artifact : CompletedArtifact} {now : Time}
    (completes : worker.completes? w = some (job, artifact, now)) :
    ∃ claimed content verdict, worker = .commitPrepared claimed artifact content verdict now ∧
      (claimed, artifact) ∈ w.expected ∧
      commitWrites w.db claimed (prepare claimed artifact content) verdict now =
        some (job, .completed) := by
  cases worker with
  | commitPrepared claimed artifact content verdict now =>
      simp only [WorkerCall.completes?] at completes
      split at completes
      · next held =>
          obtain ⟨⟨row, state⟩, writes, same⟩ := Option.map_eq_some_iff.mp completes
          cases same
          refine ⟨claimed, content, verdict, rfl, held, ?_⟩
          rw [writes]
          unfold commitWrites at writes
          split at writes
          · cases writes
          · split at writes
            · cases writes
              rfl
            · cases writes
      · cases completes
  | _ => cases completes

/-- The artifacts after a commit, told from what it writes to the job -/
theorem commit_artifacts (db : Database) (storage : List String) (claimed : ProcessingJob)
    (prepared : PreparedArtifact) (verdict : Except Raised Unit) (now : Time) :
    (committed db ((commitPrepared db storage claimed prepared verdict now).2.map
        Prod.snd)).artifacts =
      match commitWrites db claimed prepared verdict now with
      | none => db.artifacts
      | some (job, _) =>
        if (lateArtifactCategory claimed.profile prepared.artifact.key).isSome ∧
            (claimed.id, prepared.artifact.key) ∉ db.artifacts.map (·.key) then
          db.artifacts ++ [artifactRow claimed.id job prepared.artifact.key]
        else db.artifacts := by
  unfold commitPrepared commitWrites
  cases decided : decideCommit db claimed prepared now with
  | stops result =>
      cases result with
      | error raised => rfl
      | ok after => exact (decideCommit_stops decided rfl).2.sameRows.artifacts
  | writes job =>
      simp only
      cases finalized : finalize db claimed verdict with
      | error raised => rfl
      | ok after =>
          obtain ⟨comparisonRuns, rfl⟩ := finalize_ok finalized
          exact commitRows_artifacts _ _ _ _ _ _

/-- No other call stores an artifact. -/
theorem call_artifacts_of_other {w : World} {worker : WorkerCall}
    (other : ∀ job artifact content verdict now,
      worker ≠ .commitPrepared job artifact content verdict now) :
    (w.call worker).db.artifacts = w.db.artifacts := by
  have same {outcome : Except Raised Database}
      (keeps : ∀ after, outcome = .ok after → after.artifacts = w.db.artifacts) :
      (w.transact outcome).db.artifacts = w.db.artifacts := by
    rcases transact_db_cases w outcome with ⟨after, returned, here⟩ | here
    · rw [here]
      exact keeps after returned
    · rw [here]
  cases worker with
  | claim jobId organizationId workspaceId now claimToken =>
      unfold World.call
      simp only
      split
      · rfl
      · next result after done =>
          cases claim_ok done with
          | idle => rfl
          | reconciled requested done => exact done.sameRows.artifacts
          | @settled job agreement found active stored =>
              by_cases completed : job.state = .completed <;>
                simp [completed, Database.updateJob]
          | started => simp [Database.updateJob]
  | expect job artifact now =>
      refine same fun after returned => ?_
      obtain ⟨answer, done⟩ := map_snd_ok returned
      exact (expect_ok done).sameRows.artifacts
  | commitPrepared job artifact content verdict now => exact absurd rfl (other _ _ _ _ _)
  | requeue job expected category message nextRetryAt now =>
      refine same fun after returned => ?_
      obtain ⟨answer, done⟩ := map_snd_ok returned
      cases requeue_ok done with
      | idle => rfl
      | inventoried late done requested => exact (late.sameRows.trans done.sameRows).artifacts
      | queued => simp [Database.updateJob]
  | fail job expected category message now =>
      refine same fun after returned => ?_
      cases fail_ok returned with
      | inventoried late => exact late.sameRows.artifacts
      | reconciled found owned requested done => rw [failRows_artifacts, done.sameRows.artifacts]
      | settled => rw [failRows_artifacts]

/-- The API stores no artifact. -/
theorem jobStep_artifacts (w : World) {event : JobEvent}
    (other : ∀ worker, event ≠ .call worker) :
    (jobStep w event).db.artifacts = w.db.artifacts := by
  have same {outcome : Except Raised Database}
      (keeps : ∀ after, outcome = .ok after → after.artifacts = w.db.artifacts) :
      (w.transact outcome).db.artifacts = w.db.artifacts := by
    rcases transact_db_cases w outcome with ⟨after, returned, here⟩ | here
    · rw [here]
      exact keeps after returned
    · rw [here]
  cases event with
  | call worker => exact absurd rfl (other worker)
  | expectArtifact job =>
      simp only [jobStep, step]
      split
      · split <;> rfl
      · rfl
  | submit organizationId workspaceId agreementId versionId idempotencyKey profile now jobId =>
      refine same fun after returned => ?_
      obtain ⟨submission, done, rfl⟩ := map_ok returned
      rcases submit_ok done with ⟨-, kept⟩ | ⟨-, -, agreement, queues, unresolved, kept⟩ <;>
        rw [kept]
      rfl
  | retry organizationId workspaceId agreementId jobId now =>
      refine same fun after returned => ?_
      unfold retryJob at returned
      repeat' split at returned
      all_goals cases returned
      rfl
  | submitComparison organizationId workspaceId agreementId baselineId targetId idempotencyKey
      analysisVersion now comparisonId jobId =>
      refine same fun after returned => ?_
      obtain ⟨⟨queued, inner⟩, done, rfl⟩ := map_ok returned
      rcases submitComparison_ok done with ⟨-, kept⟩ | ⟨agreement, job, runs, -, -, queues, kept⟩ <;>
        rw [kept]
  | enqueueEmbeddingReindexJob organizationId workspaceId agreementId configurationId buildId
      sourceChecksum now jobId =>
      refine same fun after returned => ?_
      obtain ⟨⟨queued, inner⟩, done, rfl⟩ := map_ok returned
      rcases enqueueEmbeddingReindexJob_ok done with
        ⟨-, kept⟩ | ⟨agreement, job, -, -, queues, kept⟩ <;> rw [kept]
  | createVersion organizationId workspaceId agreementId expectedCurrentVersion idempotencyKey
      uploaded versionId =>
      refine same fun after returned => ?_
      rcases createVersion_ok returned with kept |
        ⟨agreement, member, record, rfl, scope, unsubmitted, -, -, fresh, kept⟩ <;> rw [kept]

/-! Steps on finished work -/

def Database.faces (db : Database) : List JobFace :=
  db.jobs.map (·.face)

/-- The versions with the agreements that they belong to -/
def Database.places (db : Database) : List (Uuid × Uuid) :=
  db.versions.map fun version => (version.id, version.agreementId)

/-- The completed jobs -/
def Database.finished (db : Database) : Set JobFace :=
  {face | face ∈ db.faces ∧ face.state = .completed}

/-- The row that a job of this face stores -/
def JobFace.artifact (face : JobFace) (key : String) : ProcessingArtifactRecord :=
  ⟨face.id, face.organizationId, face.workspaceId, face.agreementId, key⟩

/-- What a step does to jobs, artifacts and versions, given the job that it completes -/
inductive WorkMove (before after : Database) :
    Option (ProcessingJobRecord × CompletedArtifact × Time) → Prop where
  | same (faces : after.faces = before.faces) (artifacts : after.artifacts = before.artifacts)
      (places : after.places = before.places) : WorkMove before after none
  | moved (jobId : Uuid) (state : JobState)
      (faces : after.faces = before.faces.map (·.moved jobId state))
      (unfinished : ∀ face ∈ before.faces, face.id = jobId →
        (state = .completed ↔ face.state = .completed))
      (artifacts : after.artifacts = before.artifacts) (places : after.places = before.places) :
      WorkMove before after none
  | completed {job : ProcessingJobRecord} {artifact : CompletedArtifact} {now : Time}
      (member : job ∈ before.jobs) (unfinished : job.state ≠ .completed)
      (faces : after.faces = before.faces.map (·.moved job.id .completed))
      (fits : KeyFits job.profile artifact.key)
      (artifacts : after.artifacts = before.artifacts ++
        if startsWith job.profile embeddingReindexProfilePrefix then []
        else [job.face.artifact artifact.key])
      (places : after.places = before.places) : WorkMove before after (some (job, artifact, now))
  | joined (face : JobFace) (queued : face.state = .queued)
      (fresh : ∀ other ∈ before.faces, other.id ≠ face.id)
      (placed : ∀ versionId ∈ face.versionId, (versionId, face.agreementId) ∈ before.places)
      (faces : after.faces = before.faces ++ [face])
      (artifacts : after.artifacts = before.artifacts) (places : after.places = before.places) :
      WorkMove before after none
  | versioned (place : Uuid × Uuid) (fresh : ∀ other ∈ before.places, other.1 ≠ place.1)
      (faces : after.faces = before.faces) (artifacts : after.artifacts = before.artifacts)
      (places : after.places = before.places ++ [place]) : WorkMove before after none
  | purged (agreementId : Uuid)
      (faces : after.faces = before.faces.filter (·.agreementId ≠ agreementId))
      (artifacts : after.artifacts = before.artifacts.filter (·.agreementId ≠ agreementId))
      (places : after.places = before.places.filter (·.2 ≠ agreementId)) :
      WorkMove before after none

/-- What stands of the worlds of a run: who claims what, and finished work with its artifacts -/
structure History.Sound (h : History) : Prop where
  jobIds : (h.world.db.jobs.map (·.id)).Nodup
  claims : ∀ claim ∈ h.world.claims, ∀ face ∈ h.world.db.faces, face.id = claim.id →
    face.profile = claim.profile
  expected : ∀ pair ∈ h.world.expected,
    pair.1 ∈ h.world.claims ∧ KeyFits pair.1.profile pair.2.key
  dated : ∀ row, row ∈ h.world.db.artifacts ↔ ∃ artifact ∈ h.artifacts, artifact.row = row
  stored : ∀ row ∈ h.world.db.artifacts, ∃ face ∈ h.world.db.finished,
    startsWith face.profile embeddingReindexProfilePrefix = false ∧
      row = face.artifact row.artifactKey ∧ KeyFits face.profile row.artifactKey
  produced : ∀ face ∈ h.world.db.finished,
    startsWith face.profile embeddingReindexProfilePrefix = false →
      ∃ row ∈ h.world.db.artifacts, row.jobId = face.id
  single : ∀ one ∈ h.artifacts, ∀ other ∈ h.artifacts, one.row.jobId = other.row.jobId →
    one = other
  versionIds : (h.world.db.places.map Prod.fst).Nodup
  placed : ∀ face ∈ h.world.db.faces, ∀ versionId ∈ face.versionId,
    (versionId, face.agreementId) ∈ h.world.db.places

theorem Written.faces {before after : Database} {job : ProcessingJobRecord} {state : JobState}
    (written : Written before job state after) :
    after.faces = before.faces.map (·.moved job.id state) := by
  rw [Database.faces, written.jobs, Database.faces, List.map_map]
  rfl

/-- A write of the state of a job leaves versions where they are. -/
theorem SameLinks.places {before after : Database} (same : SameLinks before after) :
    after.places = before.places := by
  have links := congrArg (List.map fun link : Uuid × Option Uuid × Uuid × Uuid × Uuid =>
    (link.1, link.2.2.1)) same.versions
  rwa [List.map_map, List.map_map] at links

theorem History.Sound.face_inj {h : History} (sound : h.Sound) {one other : JobFace}
    (here : one ∈ h.world.db.faces) (there : other ∈ h.world.db.faces)
    (same : one.id = other.id) : one = other := by
  obtain ⟨job, member, rfl⟩ := List.mem_map.mp here
  obtain ⟨job', member', rfl⟩ := List.mem_map.mp there
  rw [List.inj_on_of_nodup_map sound.jobIds member member' same]

/-- A job that an artifact is stored for is completed. -/
theorem History.Sound.completed_of_stored {h : History} (sound : h.Sound) {face : JobFace}
    (member : face ∈ h.world.db.faces) {row : ProcessingArtifactRecord}
    (present : row ∈ h.world.db.artifacts) (own : row.jobId = face.id) :
    face.state = .completed := by
  obtain ⟨owner, ⟨there, done⟩, -, same, -⟩ := sound.stored row present
  have alike : owner = face := sound.face_inj there member (by rw [← own, same]; rfl)
  exact alike ▸ done

/-! Calls of the workers -/

theorem commitWrites_writes {db : Database} {claimed : ProcessingJob}
    {prepared : PreparedArtifact} {verdict : Except Raised Unit} {now : Time}
    {write : ProcessingJobRecord × JobState}
    (writes : commitWrites db claimed prepared verdict now = some write) :
    Writes db claimed prepared.artifact write.1 := by
  unfold commitWrites at writes
  split at writes
  · cases writes
  · next job decided =>
      split at writes
      · cases writes
        exact decideCommit_writes decided
      · cases writes

/-- A call that completes no job leaves the jobs that are completed, and no others, completed. -/
theorem writes_unfinished {h : History} (sound : h.Sound) {worker : WorkerCall}
    (other : ∀ job artifact content verdict now,
      worker ≠ .commitPrepared job artifact content verdict now)
    {job : ProcessingJobRecord} {state : JobState}
    (writes : worker.writes? h.world.db = some (job, state)) :
    state = .completed ↔ job.state = .completed := by
  cases worker with
  | claim jobId organizationId workspaceId now claimToken =>
      simp only [WorkerCall.writes?, claimWrites] at writes
      split at writes
      · cases writes
      · next row found =>
          obtain ⟨member, named⟩ := Database.job?_eq_some found
          split at writes
          · cases writes
          split at writes
          · cases writes
          split at writes
          · next artifact =>
              cases writes
              rw [Database.hasArtifact, List.any_eq_true] at artifact
              obtain ⟨stored, present, own⟩ := artifact
              have done : job.face.state = .completed :=
                sound.completed_of_stored (List.mem_map_of_mem member) present
                  ((of_decide_eq_true own).trans named.symm)
              exact iff_of_true rfl done
          split at writes
          · cases writes
          split at writes
          · next takeable =>
              cases writes
              refine iff_of_false nofun fun completed => ?_
              simp [completed] at takeable
          · cases writes
  | expect => cases writes
  | commitPrepared job artifact content verdict now => exact absurd rfl (other _ _ _ _ _)
  | requeue claimed expected category message nextRetryAt now =>
      simp only [WorkerCall.writes?, requeueWrites] at writes
      split at writes
      · cases writes
      split at writes
      · cases writes
      split at writes
      · cases writes
      split at writes
      · next owned =>
          cases writes
          exact iff_of_false nofun fun completed => nomatch owned.1.symm.trans completed
      · cases writes
  | fail claimed expected category message now =>
      simp only [WorkerCall.writes?, failWrites] at writes
      split at writes
      · cases writes
      split at writes
      · cases writes
      split at writes
      · cases writes
      split at writes
      · cases writes
      next owned =>
        split at writes
        · cases writes
        · cases writes
          rw [not_not] at owned
          exact iff_of_false nofun fun completed => nomatch owned.1.symm.trans completed

theorem WorkerCall.completes?_eq_none {w : World} {worker : WorkerCall}
    (other : ∀ job artifact content verdict now,
      worker ≠ .commitPrepared job artifact content verdict now) :
    worker.completes? w = none := by
  cases worker with
  | commitPrepared job artifact content verdict now => exact absurd rfl (other _ _ _ _ _)
  | _ => rfl

theorem commit_moves {h : History} (sound : h.Sound) {claimed : ProcessingJob}
    {artifact : CompletedArtifact} (held : (claimed, artifact) ∈ h.world.expected)
    (content : String) (verdict : Except Raised Unit) (now : Time) :
    WorkMove h.world.db
      (h.world.call (.commitPrepared claimed artifact content verdict now)).db
      ((commitWrites h.world.db claimed (prepare claimed artifact content) verdict now).map
        fun write => (write.1, artifact, now)) := by
  have effect := call_effect sound.jobIds (.commitPrepared claimed artifact content verdict now)
  have artifacts := commit_artifacts h.world.db h.world.storage claimed
    (prepare claimed artifact content) verdict now
  simp only [WorkerCall.writes?] at effect
  cases writes : commitWrites h.world.db claimed (prepare claimed artifact content) verdict now with
  | none =>
      rw [writes] at effect artifacts
      exact .same effect.jobs artifacts (Unwritten.sameLinks effect).places
  | some write =>
      obtain ⟨job, state⟩ := write
      obtain ⟨found, owned, -, -⟩ := commitWrites_writes writes
      obtain ⟨member, named⟩ := Database.job?_eq_some found
      obtain ⟨claim, fits⟩ := sound.expected _ held
      have completed : state = .completed := by
        unfold commitWrites at writes
        split at writes
        · cases writes
        · split at writes <;> cases writes
          rfl
      have own : job.face ∈ h.world.db.faces := List.mem_map_of_mem member
      have profile : job.profile = claimed.profile := sound.claims claimed claim job.face own named
      have unfinished : job.state ≠ .completed := fun done => nomatch owned.1.symm.trans done
      have unstored : (claimed.id, artifact.key) ∉
          h.world.db.artifacts.map (·.key) := by
        intro stored
        obtain ⟨row, present, same⟩ := List.mem_map.mp stored
        refine unfinished (sound.completed_of_stored own present ?_)
        exact (congrArg Prod.fst same).trans named.symm
      rw [writes] at effect artifacts
      subst completed
      refine .completed member unfinished (Written.faces effect) (profile ▸ fits) ?_
        (Written.sameLinks effect).places
      have stores : ((lateArtifactCategory claimed.profile artifact.key).isSome = true ∧
          (claimed.id, artifact.key) ∉ h.world.db.artifacts.map (·.key)) ↔
            startsWith claimed.profile embeddingReindexProfilePrefix = false :=
        ⟨fun both => fits.category_isSome.mp both.1,
          fun kept => ⟨fits.category_isSome.mpr kept, unstored⟩⟩
      refine artifacts.trans ?_
      rw [profile]
      by_cases reindex : startsWith claimed.profile embeddingReindexProfilePrefix = true
      · refine (if_neg fun both => ?_).trans (by rw [if_pos reindex, List.append_nil])
        exact Bool.noConfusion (reindex.symm.trans (stores.mp both))
      · refine (if_pos (stores.mpr (Bool.not_eq_true _ ▸ reindex))).trans ?_
        rw [if_neg reindex, ← named]
        rfl

theorem call_moves {h : History} (sound : h.Sound) (worker : WorkerCall) :
    WorkMove h.world.db (jobStep h.world (.call worker)).db (worker.completes? h.world) := by
  simp only [jobStep, step]
  by_cases commits : ∃ job artifact content verdict now,
      worker = .commitPrepared job artifact content verdict now
  · obtain ⟨job, artifact, content, verdict, now, rfl⟩ := commits
    simp only [WorkerCall.completes?]
    by_cases known : (job, artifact) ∈ h.world.expected
    · have held : (WorkerCall.commitPrepared job artifact content verdict now).Held h.world := known
      rw [if_pos held, if_pos known]
      exact commit_moves sound known content verdict now
    · have unheld : ¬ (WorkerCall.commitPrepared job artifact content verdict now).Held h.world :=
        known
      rw [if_neg unheld, if_neg known]
      exact .same rfl rfl rfl
  · have other : ∀ job artifact content verdict now,
        worker ≠ .commitPrepared job artifact content verdict now :=
      fun job artifact content verdict now same =>
        commits ⟨job, artifact, content, verdict, now, same⟩
    rw [WorkerCall.completes?_eq_none other]
    split
    · have effect := call_effect sound.jobIds worker
      have artifacts := call_artifacts_of_other (w := h.world) other
      cases writes : worker.writes? h.world.db with
      | none =>
          rw [writes] at effect
          exact .same effect.jobs artifacts (Unwritten.sameLinks effect).places
      | some write =>
          obtain ⟨job, state⟩ := write
          rw [writes] at effect
          refine .moved job.id state effect.faces (fun face member named => ?_) artifacts
            (Written.sameLinks effect).places
          have own : job.face ∈ h.world.db.faces := List.mem_map_of_mem effect.member
          rw [sound.face_inj member own named]
          exact writes_unfinished sound other writes
    · exact .same rfl rfl rfl

theorem call_jobIds {h : History} (sound : h.Sound) (worker : WorkerCall) :
    (jobStep h.world (.call worker)).db.jobs.map (·.id) = h.world.db.jobs.map (·.id) := by
  simp only [jobStep, step]
  split
  · have effect := call_effect sound.jobIds worker
    cases writes : worker.writes? h.world.db with
    | none =>
        rw [writes] at effect
        exact map_fst_of_map_eq (Unwritten.sameLinks effect).jobs
    | some write =>
        rw [writes] at effect
        exact map_fst_of_map_eq (Written.sameLinks effect).jobs
  · rfl

/-- A call of a worker adds no job. -/
theorem call_drawsFresh {h : History} (sound : h.Sound) (worker : WorkerCall) :
    h.world.DrawsFresh (jobStep h.world (.call worker)) := by
  intro job member _
  rw [← call_jobIds sound worker]
  exact List.mem_map_of_mem member

/-! Steps -/

theorem retry_moves {h : History} (sound : h.Sound) {agreementId : Uuid}
    {job : ProcessingJobRecord} {now : Time} {after : Database}
    (retried : Retried h.world.db agreementId job now after)
    (artifacts : after.artifacts = h.world.db.artifacts) : WorkMove h.world.db after none := by
  refine .moved job.id .queued ?_ (fun face member named => ?_) artifacts
    retried.sameLinks.places
  · rw [Database.faces, retried.jobs, map_face_update _ _ .queued fun _ => rfl, Database.faces,
      List.map_map]
    rfl
  · have own : job.face ∈ h.world.db.faces := List.mem_map_of_mem retried.member
    rw [sound.face_inj member own named]
    exact iff_of_false nofun fun completed => nomatch retried.failed.symm.trans completed

theorem queue_moves {before after : Database} {agreement : AgreementRecord}
    {job : ProcessingJobRecord} (queues : Queues before agreement job)
    (jobs : after.jobs = before.jobs ++ [job]) (artifacts : after.artifacts = before.artifacts)
    (places : after.places = before.places) : WorkMove before after none := by
  refine .joined job.face queues.queued (fun face member => ?_) (fun versionId names => ?_) ?_
    artifacts places
  · obtain ⟨row, present, rfl⟩ := List.mem_map.mp member
    exact queues.fresh row present
  · obtain ⟨version, present, rfl, owned⟩ := queues.version versionId names
    exact List.mem_map.mpr ⟨version, present, Prod.ext rfl (owned.trans queues.agreementId.symm)⟩
  · rw [Database.faces, jobs, List.map_append]
    rfl

/-- A submission leaves versions where they are. -/
theorem markSubmitted_places (db : Database) (agreement : AgreementRecord)
    (job : ProcessingJobRecord) : (markSubmitted db agreement job).places = db.places := by
  have renamed : (markSubmitted db agreement job).versions =
      db.versions.map (·.submitted job) := rfl
  rw [Database.places, renamed, List.map_map, Database.places]
  refine List.map_congr_left fun version _ => ?_
  obtain ⟨id, agreementId, -⟩ := version.submitted_kept job
  exact Prod.ext id agreementId

/-- The API completes no job. -/
theorem api_moves {h : History} (sound : h.Sound) {event : JobEvent}
    (other : ∀ worker, event ≠ .call worker) :
    WorkMove h.world.db (jobStep h.world event).db none := by
  have artifacts := jobStep_artifacts h.world other
  have moves := jobStep_cases sound.jobIds event
  generalize (jobStep h.world event).db = after at moves artifacts
  cases moves with
  | idle unwritten => exact .same unwritten.jobs artifacts unwritten.sameLinks.places
  | written => exact absurd rfl (other _)
  | retried returns retried => exact retry_moves sound retried artifacts
  | queued queues jobs versions =>
      exact queue_moves queues jobs artifacts
        (by rw [Database.places, versions, Database.places])
  | submitted queues unresolved =>
      exact queue_moves queues rfl artifacts (markSubmitted_places _ _ _)
  | @versioned _ _ _ _ _ _ _ agreement record after versioned =>
      refine .versioned (record.id, record.agreementId) (fun other member => ?_)
        (by rw [Database.faces, versioned.jobs, Database.faces]) artifacts
        (by rw [Database.places, versioned.versions, List.map_append]; rfl)
      obtain ⟨version, present, rfl⟩ := List.mem_map.mp member
      exact versioned.fresh version present

/-- Beside the calls only the purge matters: it takes the jobs, the artifacts and the versions of
one agreement. -/
theorem aside_moves (w : World) {event : Event} (isAside : event.Aside) :
    WorkMove w.db (step w event).db none := by
  by_cases purge : ∃ deletion now, event = .completeAndPurge deletion now
  · obtain ⟨deletion, now, rfl⟩ := purge
    simp only [step]
    split
    · rcases transact_db_cases w (completeAndPurge w.db deletion now) with
        ⟨after, returned, here⟩ | here
      · rw [here]
        rcases completeAndPurge_ok returned with ⟨-, rfl⟩ | ⟨-, -, -, rfl⟩
        · exact .same rfl rfl rfl
        · refine .purged deletion.agreementId ?_ rfl ?_
          · rw [Database.faces, Database.faces, List.filter_map]
            rfl
          · rw [Database.places, Database.places, List.filter_map]
            rfl
      · rw [here]
        exact .same rfl rfl rfl
    · exact .same rfl rfl rfl
  · have keeps := step_aside_keeps w isAside fun deletion now same => purge ⟨deletion, now, same⟩
    exact .same (by rw [Database.faces, keeps.1, Database.faces]) keeps.2.1
      (by rw [Database.places, keeps.2.2, Database.places])

theorem worldStep_moves {h : History} (sound : h.Sound) (event : HistoryEvent) :
    WorkMove h.world.db (worldStep h.world event).db (event.completes? h.world) := by
  cases event with
  | aside event isAside => exact aside_moves h.world isAside
  | job event =>
      simp only [worldStep]
      by_cases call : ∃ worker, event = .call worker
      · obtain ⟨worker, rfl⟩ := call
        rw [if_pos (call_drawsFresh sound worker)]
        exact call_moves sound worker
      · have other : ∀ worker, event ≠ .call worker := fun worker same => call ⟨worker, same⟩
        have none : (HistoryEvent.job event).completes? h.world = none := by
          cases event with
          | call worker => exact absurd rfl (other worker)
          | _ => rfl
        rw [none]
        split
        · exact api_moves sound other
        · exact .same rfl rfl rfl

end AgreementIntelligence.Agreements
