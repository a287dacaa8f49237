import AgreementIntelligence.Agreements.JobWrites

/-! The states that versions and agreements show. A submission makes its job the job of the
version; from then on the version should show that job's state, and the agreement the state
of its current version. The worker keeps both up to date from the row of whatever job it
handles: the version that the job names, and the agreement when the job names its current
version or none. A retry through the API writes the job and the agreement only. Here stand
the runs in which the shown states are right, for versions and for agreements. -/

namespace AgreementIntelligence.Agreements
open Identity Lib.Table Lib.Runs Lib.Text

/-- The calls of the API and of the workers on the jobs of agreements. A worker makes any
call with any value it has been given, so deliveries repeat and come in any order. -/
inductive JobEvent where
  | call (worker : WorkerCall)
  | expectArtifact (job : ProcessingJob)
  | submit (organizationId workspaceId agreementId : Uuid) (versionId : Option Uuid)
      (idempotencyKey profile : String) (now : Time) (jobId : Uuid)
  | retry (organizationId workspaceId agreementId jobId : Uuid) (now : Time)
  | submitComparison (organizationId workspaceId agreementId : Uuid)
      (baselineId targetId : Option Uuid) (idempotencyKey analysisVersion : String) (now : Time)
      (comparisonId jobId : Uuid)
  | enqueueEmbeddingReindexJob (organizationId workspaceId agreementId : Uuid)
      (configurationId buildId : Uuid) (sourceChecksum : String) (now : Time) (jobId : Uuid)
  | createVersion (organizationId workspaceId agreementId : Uuid) (expectedCurrentVersion : Nat)
      (idempotencyKey : String) (uploaded : UploadedDocument) (versionId : Uuid)

def jobStep (w : World) : JobEvent → World
  | .call worker => step w (.call worker)
  | .expectArtifact job => step w (.expectArtifact job)
  | .submit organizationId workspaceId agreementId versionId idempotencyKey profile now jobId =>
    w.transact ((submit w.db organizationId workspaceId agreementId versionId idempotencyKey
      profile now jobId).map (·.db))
  | .retry organizationId workspaceId agreementId jobId now =>
    w.transact (retryJob w.db organizationId workspaceId agreementId jobId now)
  | .submitComparison organizationId workspaceId agreementId baselineId targetId idempotencyKey
      analysisVersion now comparisonId jobId =>
    w.transact ((submitComparison w.db organizationId workspaceId agreementId baselineId targetId
      idempotencyKey analysisVersion now comparisonId jobId).map Prod.snd)
  | .enqueueEmbeddingReindexJob organizationId workspaceId agreementId configurationId buildId
      sourceChecksum now jobId =>
    w.transact ((enqueueEmbeddingReindexJob w.db organizationId workspaceId agreementId
      configurationId buildId sourceChecksum now jobId).map Prod.snd)
  | .createVersion organizationId workspaceId agreementId expectedCurrentVersion idempotencyKey
      uploaded versionId =>
    w.transact (createVersion w.db organizationId workspaceId agreementId expectedCurrentVersion
      idempotencyKey uploaded versionId)

/-! What is shown -/

/-- Each version that has been submitted shows the state of the job it was submitted as. -/
def Database.TracksOwnJobs (db : Database) : Prop :=
  ∀ version ∈ db.versions, ∀ jobId, version.processingJobId = some jobId →
    ∃ job ∈ db.jobs, job.id = jobId ∧ version.processingState = .job job.state

/-- Each agreement whose current version has been submitted shows the state of that version. -/
def Database.MirrorsCurrent (db : Database) : Prop :=
  ∀ agreement ∈ db.agreements, ∀ version ∈ db.versions,
    agreement.currentVersionId = some version.id → version.processingJobId ≠ none →
    agreement.processingState = version.processingState

/-- `_update_agreement_processing_state` writes the version for the job. -/
def AgreementVersionRecord.Shows (version : AgreementVersionRecord) (job : ProcessingJobRecord) :
    Prop :=
  startsWith job.profile embeddingReindexProfilePrefix = false ∧
    job.versionId = some version.id ∧ version.agreementId = job.agreementId ∧
    version.organizationId = job.organizationId ∧ version.workspaceId = job.workspaceId

instance (version : AgreementVersionRecord) (job : ProcessingJobRecord) :
    Decidable (version.Shows job) :=
  inferInstanceAs (Decidable (_ ∧ _))

/-- `_update_agreement_processing_state` writes the agreement for the job. -/
def AgreementRecord.Shows (agreement : AgreementRecord) (job : ProcessingJobRecord) : Prop :=
  startsWith job.profile embeddingReindexProfilePrefix = false ∧
    agreement.id = job.agreementId ∧ agreement.organizationId = job.organizationId ∧
    (job.versionId = none ∨ agreement.currentVersionId = job.versionId)

instance (agreement : AgreementRecord) (job : ProcessingJobRecord) :
    Decidable (agreement.Shows job) :=
  inferInstanceAs (Decidable (_ ∧ _))

/-- A version after a write of the state of a job. -/
def AgreementVersionRecord.shown (job : ProcessingJobRecord) (state : JobState)
    (version : AgreementVersionRecord) : AgreementVersionRecord :=
  if version.Shows job then { version with processingState := .job state } else version

/-- An agreement after a write of the state of a job. -/
def AgreementRecord.shown (job : ProcessingJobRecord) (state : JobState)
    (agreement : AgreementRecord) : AgreementRecord :=
  if agreement.Shows job then { agreement with processingState := .job state } else agreement

theorem updateAgreementProcessingState_versions (db : Database) (job : ProcessingJobRecord)
    (state : JobState) : (updateAgreementProcessingState db job state).versions =
      db.versions.map (·.shown job state) := by
  unfold updateAgreementProcessingState
  split
  · rename_i reindex
    symm
    apply List.map_id''
    intro version
    simp [AgreementVersionRecord.shown, AgreementVersionRecord.Shows, reindex]
  · rename_i analysis
    apply List.map_congr_left
    intro version _
    simp [AgreementVersionRecord.shown, AgreementVersionRecord.Shows, analysis]

theorem updateAgreementProcessingState_agreements (db : Database) (job : ProcessingJobRecord)
    (state : JobState) : (updateAgreementProcessingState db job state).agreements =
      db.agreements.map (·.shown job state) := by
  unfold updateAgreementProcessingState
  split
  · rename_i reindex
    symm
    apply List.map_id''
    intro agreement
    simp [AgreementRecord.shown, AgreementRecord.Shows, reindex]
  · rename_i analysis
    apply List.map_congr_left
    intro agreement _
    simp [AgreementRecord.shown, AgreementRecord.Shows, analysis]

/-! How jobs, versions and agreements refer to each other -/

/-- Primary keys, and the references between the three tables: a submitted version names a
job that names it, a job names a version of its own agreement, an agreement names one of its
versions, and a version stands in the tenant of its agreement. -/
structure Database.Linked (db : Database) : Prop where
  agreementIds : (db.agreements.map (·.id)).Nodup
  versionIds : (db.versions.map (·.id)).Nodup
  jobIds : (db.jobs.map (·.id)).Nodup
  ownJobs : ∀ version ∈ db.versions, ∀ jobId, version.processingJobId = some jobId →
    ∃ job ∈ db.jobs, job.id = jobId ∧ job.versionId = some version.id
  jobVersions : ∀ job ∈ db.jobs, ∀ versionId, job.versionId = some versionId →
    ∃ version ∈ db.versions, version.id = versionId ∧ version.agreementId = job.agreementId ∧
      version.organizationId = job.organizationId ∧ version.workspaceId = job.workspaceId
  currentVersions : ∀ agreement ∈ db.agreements, ∀ versionId,
    agreement.currentVersionId = some versionId →
    ∃ version ∈ db.versions, version.id = versionId ∧ version.InScope agreement
  versionScopes : ∀ version ∈ db.versions, ∀ agreement ∈ db.agreements,
    version.agreementId = agreement.id → version.InScope agreement

/-- The columns that refer, or are referred to. -/
def JobFace.link (face : JobFace) : Uuid × Option Uuid × Uuid × Uuid × Uuid :=
  (face.id, face.versionId, face.agreementId, face.organizationId, face.workspaceId)

def AgreementVersionRecord.link (version : AgreementVersionRecord) :
    Uuid × Option Uuid × Uuid × Uuid × Uuid :=
  (version.id, version.processingJobId, version.agreementId, version.organizationId,
    version.workspaceId)

def AgreementRecord.link (agreement : AgreementRecord) : Uuid × Option Uuid × Uuid × Uuid :=
  (agreement.id, agreement.currentVersionId, agreement.organizationId, agreement.workspaceId)

structure SameLinks (before after : Database) : Prop where
  jobs : after.jobs.map (·.face.link) = before.jobs.map (·.face.link)
  versions : after.versions.map (·.link) = before.versions.map (·.link)
  agreements : after.agreements.map (·.link) = before.agreements.map (·.link)

theorem map_fst_of_map_eq {α β γ : Type} {rows others : List α} {f : α → β × γ}
    (same : rows.map f = others.map f) :
    rows.map (fun row => (f row).1) = others.map fun row => (f row).1 := by
  simpa only [List.map_map, Function.comp_def] using congrArg (List.map Prod.fst) same

theorem Database.Linked.of_sameLinks {before after : Database} (linked : before.Linked)
    (same : SameLinks before after) : after.Linked := by
  have jobOf : ∀ {row : ProcessingJobRecord}, row ∈ after.jobs →
      ∃ old ∈ before.jobs, old.face.link = row.face.link := fun present =>
    exists_mem_of_map_eq same.jobs present
  have versionOf : ∀ {row : AgreementVersionRecord}, row ∈ before.versions →
      ∃ new ∈ after.versions, new.link = row.link := fun present =>
    exists_mem_of_map_eq same.versions.symm present
  have agreementOf : ∀ {row : AgreementRecord}, row ∈ after.agreements →
      ∃ old ∈ before.agreements, old.link = row.link := fun present =>
    exists_mem_of_map_eq same.agreements present
  have oldVersionOf : ∀ {row : AgreementVersionRecord}, row ∈ after.versions →
      ∃ old ∈ before.versions, old.link = row.link := fun present =>
    exists_mem_of_map_eq same.versions present
  simp only [AgreementVersionRecord.link, AgreementRecord.link, JobFace.link,
    ProcessingJobRecord.face, Prod.mk.injEq] at jobOf versionOf agreementOf oldVersionOf
  refine ⟨?_, ?_, ?_, ?_, ?_, ?_, ?_⟩
  · rw [show after.agreements.map (·.id) = before.agreements.map (·.id) from
      map_fst_of_map_eq same.agreements]
    exact linked.agreementIds
  · rw [show after.versions.map (·.id) = before.versions.map (·.id) from
      map_fst_of_map_eq same.versions]
    exact linked.versionIds
  · rw [show after.jobs.map (·.id) = before.jobs.map (·.id) from map_fst_of_map_eq same.jobs]
    exact linked.jobIds
  · intro version present jobId own
    obtain ⟨old, there, id, job, -⟩ := oldVersionOf present
    obtain ⟨row, member, named, names⟩ := linked.ownJobs old there jobId (job.trans own)
    obtain ⟨new, here, link⟩ := exists_mem_of_map_eq same.jobs.symm member
    simp only [JobFace.link, ProcessingJobRecord.face, Prod.mk.injEq] at link
    exact ⟨new, here, link.1.trans named, by rw [link.2.1, names, id]⟩
  · intro job present versionId names
    obtain ⟨old, there, -, version, agreementId, organization, workspace⟩ := jobOf present
    obtain ⟨row, member, named, scope⟩ := linked.jobVersions old there versionId
      (version.trans names)
    obtain ⟨new, here, id, -, newAgreement, newOrganization, newWorkspace⟩ := versionOf member
    refine ⟨new, here, id.trans named, ?_, ?_, ?_⟩
    · rw [newAgreement, scope.1, agreementId]
    · rw [newOrganization, scope.2.1, organization]
    · rw [newWorkspace, scope.2.2, workspace]
  · intro agreement present versionId names
    obtain ⟨old, there, oldId, current, organization, workspace⟩ := agreementOf present
    obtain ⟨row, member, named, scope⟩ := linked.currentVersions old there versionId
      (current.trans names)
    obtain ⟨new, here, id, -, newAgreement, newOrganization, newWorkspace⟩ := versionOf member
    refine ⟨new, here, id.trans named, ?_, ?_, ?_⟩
    · rw [newAgreement, scope.1, oldId]
    · rw [newOrganization, scope.2.1, organization]
    · rw [newWorkspace, scope.2.2, workspace]
  · intro version present agreement held of
    obtain ⟨row, member, -, -, rowAgreement, rowOrganization, rowWorkspace⟩ := oldVersionOf present
    obtain ⟨old, there, oldId, -, organization, workspace⟩ := agreementOf held
    have scope := linked.versionScopes row member old there
      (rowAgreement.trans (of.trans oldId.symm))
    refine ⟨of, ?_, ?_⟩
    · rw [← rowOrganization, scope.2.1, organization]
    · rw [← rowWorkspace, scope.2.2, workspace]

theorem Written.sameLinks {before after : Database} {job : ProcessingJobRecord}
    {state : JobState} (written : Written before job state after) : SameLinks before after where
  jobs := by
    have links := congrArg (List.map JobFace.link) written.jobs
    rw [List.map_map, List.map_map] at links
    refine links.trans (List.map_congr_left fun row _ => ?_)
    rw [Function.comp_apply, JobFace.moved]
    split <;> rfl
  versions := by
    rw [written.versions, updateAgreementProcessingState_versions, List.map_map]
    refine List.map_congr_left fun version _ => ?_
    rw [Function.comp_apply, AgreementVersionRecord.shown]
    split <;> rfl
  agreements := by
    rw [written.agreements, updateAgreementProcessingState_agreements, List.map_map]
    refine List.map_congr_left fun agreement _ => ?_
    rw [Function.comp_apply, AgreementRecord.shown]
    split <;> rfl

theorem Unwritten.sameLinks {before after : Database} (unwritten : Unwritten before after) :
    SameLinks before after where
  jobs := by
    have links := congrArg (List.map JobFace.link) unwritten.jobs
    rwa [List.map_map, List.map_map] at links
  versions := by rw [unwritten.versions]
  agreements := by rw [unwritten.agreements]

/-- A new job joins the table; the version it names is one of its own agreement. -/
theorem Database.Linked.queue {before after : Database} (linked : before.Linked)
    {agreement : AgreementRecord} {job : ProcessingJobRecord}
    (queues : Queues before agreement job) (jobs : after.jobs = before.jobs ++ [job])
    (versions : after.versions = before.versions)
    (agreements : after.agreements = before.agreements) : after.Linked where
  agreementIds := agreements ▸ linked.agreementIds
  versionIds := versions ▸ linked.versionIds
  jobIds := by
    rw [jobs, List.map_append, List.map_singleton]
    refine List.nodup_append.mpr ⟨linked.jobIds, List.nodup_singleton _, fun id here other last => ?_⟩
    obtain ⟨row, member, rfl⟩ := List.mem_map.mp here
    rw [List.mem_singleton.mp last]
    exact queues.fresh row member
  ownJobs version present jobId own := by
    obtain ⟨row, member, named⟩ := linked.ownJobs version (versions ▸ present) jobId own
    exact ⟨row, jobs ▸ List.mem_append_left _ member, named⟩
  jobVersions row present versionId names := by
    rw [jobs] at present
    rw [versions]
    rcases List.mem_append.mp present with old | new
    · exact linked.jobVersions row old versionId names
    · rw [List.mem_singleton.mp new] at names ⊢
      obtain ⟨version, member, named, owned⟩ := queues.version versionId names
      have scope := linked.versionScopes version member agreement queues.member owned
      exact ⟨version, member, named, owned.trans queues.agreementId.symm,
        scope.2.1.trans queues.organizationId.symm, scope.2.2.trans queues.workspaceId.symm⟩
  currentVersions := agreements ▸ versions ▸ linked.currentVersions
  versionScopes := agreements ▸ versions ▸ linked.versionScopes

/-- The version of a submission after it. -/
def AgreementVersionRecord.submitted (job : ProcessingJobRecord)
    (version : AgreementVersionRecord) : AgreementVersionRecord :=
  if job.versionId = some version.id then
    { version with processingState := .job .queued, processingJobId := some job.id }
  else version

theorem AgreementVersionRecord.submitted_kept (job : ProcessingJobRecord)
    (version : AgreementVersionRecord) :
    (version.submitted job).id = version.id ∧
      (version.submitted job).agreementId = version.agreementId ∧
      (version.submitted job).organizationId = version.organizationId ∧
      (version.submitted job).workspaceId = version.workspaceId := by
  unfold AgreementVersionRecord.submitted
  split <;> exact ⟨rfl, rfl, rfl, rfl⟩

theorem queuedAgreement_links (agreements : List AgreementRecord) (agreementId : Uuid) :
    (update (·.id) agreements agreementId fun row => { row with
      processingState := .job .queued }).map (·.link) = agreements.map (·.link) :=
  map_update fun _ => rfl

theorem Database.Linked.markSubmitted {db : Database} (linked : db.Linked)
    (agreement : AgreementRecord) {job : ProcessingJobRecord} (member : job ∈ db.jobs) :
    (Agreements.markSubmitted db agreement job).Linked := by
  have links : SameLinks
      { Agreements.markSubmitted db agreement job with versions := db.versions } db := by
    refine ⟨rfl, rfl, ?_⟩
    simp only [Agreements.markSubmitted]
    split
    · exact (queuedAgreement_links db.agreements agreement.id).symm
    · rfl
  have renamed : (Agreements.markSubmitted db agreement job).versions =
      db.versions.map (·.submitted job) := rfl
  have agreementOf : ∀ {row : AgreementRecord},
      row ∈ (Agreements.markSubmitted db agreement job).agreements →
      ∃ old ∈ db.agreements, old.link = row.link := fun present =>
    exists_mem_of_map_eq links.agreements.symm present
  simp only [AgreementRecord.link, Prod.mk.injEq] at agreementOf
  refine ⟨?_, ?_, linked.jobIds, ?_, ?_, ?_, ?_⟩
  · rw [show (Agreements.markSubmitted db agreement job).agreements.map (·.id) =
      db.agreements.map (·.id) from map_fst_of_map_eq links.agreements.symm]
    exact linked.agreementIds
  · rw [renamed, List.map_map, List.map_congr_left fun version _ =>
      (version.submitted_kept job).1]
    exact linked.versionIds
  · rw [renamed]
    intro version present jobId own
    obtain ⟨old, there, rfl⟩ := List.mem_map.mp present
    unfold AgreementVersionRecord.submitted at own ⊢
    split at own
    · rename_i names
      rw [if_pos names]
      exact ⟨job, member, Option.some.inj own, names⟩
    · rename_i other
      rw [if_neg other]
      exact linked.ownJobs old there jobId own
  · rw [renamed]
    intro row present versionId names
    obtain ⟨version, there, named, scope⟩ := linked.jobVersions row present versionId names
    obtain ⟨id, agreementId, organization, workspace⟩ := version.submitted_kept job
    exact ⟨_, List.mem_map_of_mem there, id.trans named, agreementId.trans scope.1,
      organization.trans scope.2.1, workspace.trans scope.2.2⟩
  · rw [renamed]
    intro row present versionId names
    obtain ⟨old, held, oldId, current, oldOrganization, oldWorkspace⟩ := agreementOf present
    obtain ⟨version, there, named, scope⟩ := linked.currentVersions old held versionId
      (current.trans names)
    obtain ⟨id, agreementId, organization, workspace⟩ := version.submitted_kept job
    exact ⟨_, List.mem_map_of_mem there, id.trans named, agreementId.trans (scope.1.trans oldId),
      organization.trans (scope.2.1.trans oldOrganization),
      workspace.trans (scope.2.2.trans oldWorkspace)⟩
  · rw [renamed]
    intro version present row held of
    obtain ⟨old, there, rfl⟩ := List.mem_map.mp present
    obtain ⟨before, kept, oldId, -, oldOrganization, oldWorkspace⟩ := agreementOf held
    obtain ⟨-, agreementId, organization, workspace⟩ := old.submitted_kept job
    have scope := linked.versionScopes old there before kept
      (agreementId.symm.trans (of.trans oldId.symm))
    exact ⟨of, organization.trans (scope.2.1.trans oldOrganization),
      workspace.trans (scope.2.2.trans oldWorkspace)⟩

theorem Retried.sameLinks {before after : Database} {agreementId : Uuid}
    {job : ProcessingJobRecord} {now : Time}
    (retried : Retried before agreementId job now after) : SameLinks before after where
  jobs := by
    rw [retried.jobs]
    exact map_update fun _ => rfl
  versions := by rw [retried.versions]
  agreements := by
    rw [retried.agreements]
    exact queuedAgreement_links before.agreements agreementId

/-- A new version, the current one of its agreement from now on. -/
structure Versioned (before : Database) (agreement : AgreementRecord)
    (record : AgreementVersionRecord) (after : Database) : Prop where
  member : agreement ∈ before.agreements
  scope : record.InScope agreement
  unsubmitted : record.processingJobId = none
  fresh : ∀ version ∈ before.versions, version.id ≠ record.id
  jobs : after.jobs = before.jobs
  versions : after.versions = before.versions ++ [record]
  agreements : ∃ files, after.agreements = update (·.id) before.agreements agreement.id fun row =>
    { row with files := files, currentVersionId := some record.id, processingState := .pending }

/-- An agreement after a new version: the one that got it, or as before. -/
theorem Versioned.agreement {before after : Database} {agreement : AgreementRecord}
    {record : AgreementVersionRecord} (versioned : Versioned before agreement record after)
    (distinct : (before.agreements.map (·.id)).Nodup) {row : AgreementRecord}
    (present : row ∈ after.agreements) :
    (row.currentVersionId = some record.id ∧ row.id = agreement.id ∧
      row.organizationId = agreement.organizationId ∧ row.workspaceId = agreement.workspaceId) ∨
      row ∈ before.agreements := by
  obtain ⟨files, agreements⟩ := versioned.agreements
  rw [agreements] at present
  obtain ⟨old, there, rfl⟩ := mem_update.mp present
  by_cases hit : old.id = agreement.id
  · have same : old = agreement := List.inj_on_of_nodup_map distinct there versioned.member hit
    rw [if_pos hit, same]
    exact .inl ⟨rfl, rfl, rfl, rfl⟩
  · rw [if_neg hit]
    exact .inr there

theorem Database.Linked.version {before after : Database} (linked : before.Linked)
    {agreement : AgreementRecord} {record : AgreementVersionRecord}
    (versioned : Versioned before agreement record after) : after.Linked where
  agreementIds := by
    obtain ⟨files, agreements⟩ := versioned.agreements
    rw [agreements]
    exact nodup_update (fun _ => rfl) linked.agreementIds
  versionIds := by
    rw [versioned.versions, List.map_append, List.map_singleton]
    refine List.nodup_append.mpr ⟨linked.versionIds, List.nodup_singleton _,
      fun id here other last => ?_⟩
    obtain ⟨version, member, rfl⟩ := List.mem_map.mp here
    rw [List.mem_singleton.mp last]
    exact versioned.fresh version member
  jobIds := versioned.jobs ▸ linked.jobIds
  ownJobs := by
    rw [versioned.jobs, versioned.versions]
    intro version present jobId own
    rcases List.mem_append.mp present with old | new
    · exact linked.ownJobs version old jobId own
    · rw [List.mem_singleton.mp new, versioned.unsubmitted] at own
      cases own
  jobVersions := by
    rw [versioned.jobs, versioned.versions]
    intro job present versionId names
    obtain ⟨version, member, facts⟩ := linked.jobVersions job present versionId names
    exact ⟨version, List.mem_append_left _ member, facts⟩
  currentVersions row present versionId names := by
    rw [versioned.versions]
    rcases versioned.agreement linked.agreementIds present with ⟨current, id, tenant⟩ | old
    · rw [current] at names
      refine ⟨record, List.mem_append_right _ List.mem_cons_self, Option.some.inj names, ?_⟩
      exact ⟨versioned.scope.1.trans id.symm, versioned.scope.2.1.trans tenant.1.symm,
        versioned.scope.2.2.trans tenant.2.symm⟩
    · obtain ⟨version, member, facts⟩ := linked.currentVersions row old versionId names
      exact ⟨version, List.mem_append_left _ member, facts⟩
  versionScopes version present row held of := by
    rw [versioned.versions] at present
    have tenant : ∃ old ∈ before.agreements, old.id = row.id ∧
        old.organizationId = row.organizationId ∧ old.workspaceId = row.workspaceId := by
      rcases versioned.agreement linked.agreementIds held with ⟨-, id, organization, workspace⟩ | old
      · exact ⟨agreement, versioned.member, id.symm, organization.symm, workspace.symm⟩
      · exact ⟨row, old, rfl, rfl, rfl⟩
    obtain ⟨old, there, id, organization, workspace⟩ := tenant
    rcases List.mem_append.mp present with earlier | new
    · have scope := linked.versionScopes version earlier old there (of.trans id.symm)
      exact ⟨of, scope.2.1.trans organization, scope.2.2.trans workspace⟩
    · rw [List.mem_singleton.mp new] at of ⊢
      have same : old = agreement := List.inj_on_of_nodup_map linked.agreementIds there
        versioned.member (id.trans (of.symm.trans versioned.scope.1))
      subst same
      exact ⟨of, versioned.scope.2.1.trans organization, versioned.scope.2.2.trans workspace⟩

/-! Steps -/

/-- What a step does to jobs, versions and agreements. -/
inductive JobStep (w : World) : JobEvent → Database → Prop where
  | idle {event : JobEvent} {after : Database} (unwritten : Unwritten w.db after)
      (silent : ∀ worker, event = .call worker → worker.Held w → worker.writes? w.db = none)
      (refused : ∀ organizationId workspaceId agreementId jobId now,
        event = .retry organizationId workspaceId agreementId jobId now →
        (retryJob w.db organizationId workspaceId agreementId jobId now).isOk = false) :
      JobStep w event after
  | written {worker : WorkerCall} {job : ProcessingJobRecord} {state : JobState}
      {after : Database} (held : worker.Held w) (writes : worker.writes? w.db = some (job, state))
      (written : Written w.db job state after) : JobStep w (.call worker) after
  | retried {organizationId workspaceId agreementId : Uuid} {job : ProcessingJobRecord}
      {now : Time} {after : Database}
      (returns : (retryJob w.db organizationId workspaceId agreementId job.id now).isOk = true)
      (retried : Retried w.db agreementId job now after) :
      JobStep w (.retry organizationId workspaceId agreementId job.id now) after
  | queued {event : JobEvent} {agreement : AgreementRecord} {job : ProcessingJobRecord}
      {after : Database} (queues : Queues w.db agreement job)
      (jobs : after.jobs = w.db.jobs ++ [job]) (versions : after.versions = w.db.versions)
      (agreements : after.agreements = w.db.agreements)
      (other : (∀ worker, event ≠ .call worker) ∧
        ∀ organizationId workspaceId agreementId jobId now,
          event ≠ .retry organizationId workspaceId agreementId jobId now) :
      JobStep w event after
  | submitted {organizationId workspaceId agreementId jobId : Uuid} {versionId : Option Uuid}
      {idempotencyKey profile : String} {now : Time} {agreement : AgreementRecord}
      {job : ProcessingJobRecord} (queues : Queues w.db agreement job)
      (unresolved : job.versionId = none → agreement.currentVersionId = none) :
      JobStep w (.submit organizationId workspaceId agreementId versionId idempotencyKey profile
        now jobId) (markSubmitted { w.db with jobs := w.db.jobs ++ [job] } agreement job)
  | versioned {organizationId workspaceId agreementId versionId : Uuid}
      {expectedCurrentVersion : Nat} {idempotencyKey : String} {uploaded : UploadedDocument}
      {agreement : AgreementRecord} {record : AgreementVersionRecord} {after : Database}
      (versioned : Versioned w.db agreement record after) :
      JobStep w (.createVersion organizationId workspaceId agreementId expectedCurrentVersion
        idempotencyKey uploaded versionId) after

/-- A transaction of the API: it raises, or it leaves one of its outcomes. -/
theorem transact_jobStep {w : World} {event : JobEvent} {outcome : Except Raised Database}
    (api : (∀ worker, event ≠ .call worker) ∧ ∀ organizationId workspaceId agreementId jobId now,
      event ≠ .retry organizationId workspaceId agreementId jobId now)
    (returns : ∀ after, outcome = .ok after → after = w.db ∨ JobStep w event after) :
    JobStep w event (w.transact outcome).db := by
  have idle : JobStep w event w.db := .idle (Unwritten.refl w.db)
    (fun worker same => absurd same (api.1 worker))
    (fun _ _ _ _ _ same => absurd same (api.2 _ _ _ _ _))
  rcases transact_db_cases w outcome with ⟨after, done, same⟩ | same
  · rw [same]
    rcases returns after done with rfl | moves
    · exact idle
    · exact moves
  · rw [same]
    exact idle

theorem jobStep_cases {w : World} (distinct : (w.db.jobs.map (·.id)).Nodup) (event : JobEvent) :
    JobStep w event (jobStep w event).db := by
  cases event with
  | call worker =>
    simp only [jobStep, step]
    by_cases held : worker.Held w
    · rw [if_pos held]
      have effect := call_effect distinct worker
      cases writes : worker.writes? w.db with
      | none =>
        rw [writes] at effect
        refine .idle effect (fun other same _ => ?_) (by intros; contradiction)
        cases same
        exact writes
      | some write =>
        rw [writes] at effect
        exact .written held writes effect
    · rw [if_neg held]
      refine .idle (Unwritten.refl w.db) (fun other same possible => ?_) (by intros; contradiction)
      cases same
      exact absurd possible held
  | expectArtifact job =>
    simp only [jobStep, step]
    split
    · split <;> exact .idle (Unwritten.refl w.db) (by intros; contradiction) (by intros; contradiction)
    · exact .idle (Unwritten.refl w.db) (by intros; contradiction) (by intros; contradiction)
  | submit organizationId workspaceId agreementId versionId idempotencyKey profile now jobId =>
    refine transact_jobStep ⟨by simp, by simp⟩ fun after returned => ?_
    obtain ⟨submission, done, rfl⟩ := map_ok returned
    rcases submit_ok done with ⟨-, same⟩ | ⟨-, -, agreement, queues, unresolved, same⟩
    · exact .inl same
    · rw [same]
      exact .inr (.submitted queues unresolved)
  | retry organizationId workspaceId agreementId jobId now =>
    simp only [jobStep]
    cases done : retryJob w.db organizationId workspaceId agreementId jobId now with
    | error raised =>
      refine .idle (Unwritten.refl w.db) (by intros; contradiction) fun _ _ _ _ _ same => ?_
      cases same
      rw [done]
      rfl
    | ok after =>
      obtain ⟨job, rfl, retried⟩ := retryJob_ok done
      exact .retried (by rw [done]; rfl) retried
  | submitComparison organizationId workspaceId agreementId baselineId targetId idempotencyKey
      analysisVersion now comparisonId jobId =>
    refine transact_jobStep ⟨by simp, by simp⟩ fun after returned => ?_
    obtain ⟨⟨queued, inner⟩, done, rfl⟩ := map_ok returned
    rcases submitComparison_ok done with ⟨-, same⟩ | ⟨agreement, job, runs, -, -, queues, same⟩
    · exact .inl same
    · refine .inr ?_
      rw [same]
      exact .queued queues rfl rfl rfl ⟨by simp, by simp⟩
  | enqueueEmbeddingReindexJob organizationId workspaceId agreementId configurationId buildId
      sourceChecksum now jobId =>
    refine transact_jobStep ⟨by simp, by simp⟩ fun after returned => ?_
    obtain ⟨⟨queued, inner⟩, done, rfl⟩ := map_ok returned
    rcases enqueueEmbeddingReindexJob_ok done with ⟨-, same⟩ | ⟨agreement, job, -, -, queues, same⟩
    · exact .inl same
    · refine .inr ?_
      rw [same]
      exact .queued queues rfl rfl rfl ⟨by simp, by simp⟩
  | createVersion organizationId workspaceId agreementId expectedCurrentVersion idempotencyKey
      uploaded versionId =>
    refine transact_jobStep ⟨by simp, by simp⟩ fun after returned => ?_
    rcases createVersion_ok returned with same |
      ⟨agreement, member, record, rfl, scope, unsubmitted, -, -, fresh, same⟩
    · exact .inl same
    · rw [same]
      exact .inr (.versioned ⟨member, scope, unsubmitted, fresh, rfl, rfl, _, rfl⟩)

theorem jobStep_linked {w : World} (linked : w.db.Linked) (event : JobEvent) :
    (jobStep w event).db.Linked := by
  have moves := jobStep_cases linked.jobIds event
  generalize (jobStep w event).db = after at moves
  cases moves with
  | idle unwritten => exact linked.of_sameLinks unwritten.sameLinks
  | written held writes written => exact linked.of_sameLinks written.sameLinks
  | retried returns retried => exact linked.of_sameLinks retried.sameLinks
  | queued queues jobs versions agreements => exact linked.queue queues jobs versions agreements
  | @submitted _ _ _ _ _ _ _ _ agreement job queues unresolved =>
    have queued : Database.Linked { w.db with jobs := w.db.jobs ++ [job] } :=
      linked.queue queues rfl rfl rfl
    exact queued.markSubmitted agreement (List.mem_append_right _ List.mem_cons_self)
  | versioned versioned => exact linked.version versioned

/-! Versions -/

/-- A write of the state of a job leaves the versions right: it goes to the version whose own
job this is and to no other submitted one, or it is the state that the version shows. -/
def SparesVersions (db : Database) (job : ProcessingJobRecord) (state : JobState) : Prop :=
  ∀ version ∈ db.versions, version.processingJobId ≠ none →
    version.processingState = .job state ∨
      (version.Shows job ↔ version.processingJobId = some job.id)

instance (db : Database) (job : ProcessingJobRecord) (state : JobState) :
    Decidable (SparesVersions db job state) := by
  unfold SparesVersions
  infer_instance

/-- The row of a job after a write. -/
theorem Written.job {before after : Database} {job row : ProcessingJobRecord} {state : JobState}
    (written : Written before job state after) (present : row ∈ after.jobs) :
    ∃ old ∈ before.jobs, old.id = row.id ∧
      row.state = if old.id = job.id then state else old.state := by
  have image : row.face ∈ before.jobs.map fun old => old.face.moved job.id state :=
    written.jobs ▸ List.mem_map_of_mem present
  obtain ⟨old, there, same⟩ := List.mem_map.mp image
  by_cases hit : old.id = job.id
  · have here : old.face.id = job.id := hit
    rw [JobFace.moved, if_pos here] at same
    refine ⟨old, there, congrArg JobFace.id same, ?_⟩
    rw [if_pos hit]
    exact (congrArg JobFace.state same).symm
  · have here : ¬ old.face.id = job.id := hit
    rw [JobFace.moved, if_neg here] at same
    refine ⟨old, there, congrArg JobFace.id same, ?_⟩
    rw [if_neg hit]
    exact (congrArg JobFace.state same).symm

theorem Written.job_after {before after : Database} {job old : ProcessingJobRecord}
    {state : JobState} (written : Written before job state after)
    (distinct : (before.jobs.map (·.id)).Nodup) (there : old ∈ before.jobs) :
    ∃ row ∈ after.jobs, row.id = old.id ∧
      row.state = if old.id = job.id then state else old.state := by
  obtain ⟨row, present, link⟩ := exists_mem_of_map_eq written.sameLinks.jobs.symm there
  have named : row.id = old.id := congrArg Prod.fst link
  obtain ⟨other, member, same, moved⟩ := written.job present
  have alike : other = old := List.inj_on_of_nodup_map distinct member there (same.trans named)
  exact ⟨row, present, named, alike ▸ moved⟩

theorem Written.version {before after : Database} {job : ProcessingJobRecord} {state : JobState}
    (written : Written before job state after) (version : AgreementVersionRecord) :
    version ∈ after.versions ↔ ∃ old ∈ before.versions, old.shown job state = version := by
  rw [written.versions, updateAgreementProcessingState_versions]
  exact List.mem_map

theorem AgreementVersionRecord.shown_processingJobId (job : ProcessingJobRecord)
    (state : JobState) (version : AgreementVersionRecord) :
    (version.shown job state).processingJobId = version.processingJobId := by
  unfold AgreementVersionRecord.shown
  split <;> rfl

theorem Written.tracks_iff {before after : Database} {job : ProcessingJobRecord}
    {state : JobState} (linked : before.Linked) (tracks : before.TracksOwnJobs)
    (written : Written before job state after) :
    after.TracksOwnJobs ↔ SparesVersions before job state := by
  constructor
  · intro right version member submitted
    obtain ⟨jobId, own⟩ := Option.ne_none_iff_exists'.mp submitted
    obtain ⟨old, there, rfl, shows⟩ := tracks version member jobId own
    have present := (written.version _).mpr ⟨version, member, rfl⟩
    obtain ⟨row, here, named, shown⟩ := right _ present old.id
      ((version.shown_processingJobId job state).trans own)
    obtain ⟨other, still, same, moved⟩ := written.job here
    have alike : other = old :=
      List.inj_on_of_nodup_map linked.jobIds still there (same.trans named)
    rw [alike] at moved
    rw [moved] at shown
    unfold AgreementVersionRecord.shown at shown
    by_cases seen : version.Shows job
    · by_cases mine : old.id = job.id
      · exact .inr ⟨fun _ => own.trans (congrArg some mine), fun _ => seen⟩
      · rw [if_pos seen, if_neg mine] at shown
        exact .inl (shows.trans shown.symm)
    · by_cases mine : old.id = job.id
      · rw [if_neg seen, if_pos mine] at shown
        exact .inl shown
      · refine .inr ⟨fun now => absurd now seen, fun now => absurd ?_ mine⟩
        exact Option.some.inj (own.symm.trans now)
  · intro spares version present jobId own
    obtain ⟨before', member, rfl⟩ := (written.version version).mp present
    rw [before'.shown_processingJobId] at own
    obtain ⟨old, there, rfl, shows⟩ := tracks before' member jobId own
    obtain ⟨row, here, named, moved⟩ := written.job_after linked.jobIds there
    refine ⟨row, here, named, ?_⟩
    rw [moved]
    unfold AgreementVersionRecord.shown
    rcases spares before' member (by simp [own]) with same | exactly
    · have states : old.state = state := by
        rw [shows] at same
        exact ProcessingState.job.inj same
      split <;> split <;> simp [same, states]
    · rw [own, Option.some.injEq] at exactly
      by_cases mine : old.id = job.id
      · rw [if_pos (exactly.mpr mine), if_pos mine]
      · rw [if_neg (fun seen => mine (exactly.mp seen)), if_neg mine]
        exact shows

theorem Retried.tracks_iff {before after : Database} {agreementId : Uuid}
    {job : ProcessingJobRecord} {now : Time} (linked : before.Linked)
    (tracks : before.TracksOwnJobs) (retried : Retried before agreementId job now after) :
    after.TracksOwnJobs ↔ ∀ version ∈ before.versions, version.processingJobId ≠ some job.id := by
  constructor
  · intro right version member own
    obtain ⟨old, there, named, shows⟩ := tracks version member job.id own
    have alike : old = job := List.inj_on_of_nodup_map linked.jobIds there retried.member named
    obtain ⟨row, here, same, shown⟩ := right version (retried.versions ▸ member) job.id own
    rw [retried.jobs] at here
    obtain ⟨source, -, rfl⟩ := mem_update.mp here
    by_cases hit : source.id = job.id
    · rw [if_pos hit, shows, alike, retried.failed] at shown
      cases shown
    · rw [if_neg hit] at same
      exact hit same
  · intro apart version present jobId own
    rw [retried.versions] at present
    obtain ⟨old, there, named, shows⟩ := tracks version present jobId own
    have other : ¬ old.id = job.id := fun same =>
      apart version present (own.trans (congrArg some (named.symm.trans same)))
    refine ⟨old, ?_, named, shows⟩
    rw [retried.jobs]
    exact mem_update.mpr ⟨old, there, if_neg other⟩

theorem Database.TracksOwnJobs.submit {db : Database} (tracks : db.TracksOwnJobs)
    (agreement : AgreementRecord) {job : ProcessingJobRecord} (queued : job.state = .queued) :
    (markSubmitted { db with jobs := db.jobs ++ [job] } agreement job).TracksOwnJobs := by
  intro version present jobId own
  obtain ⟨old, there, rfl⟩ := List.mem_map.mp present
  by_cases names : job.versionId = some old.id
  · rw [if_pos names] at own ⊢
    exact ⟨job, List.mem_append_right _ List.mem_cons_self, Option.some.inj own, by rw [queued]⟩
  · rw [if_neg names] at own ⊢
    obtain ⟨row, here, named, shows⟩ := tracks old there jobId own
    exact ⟨row, List.mem_append_left _ here, named, shows⟩

/-- The step leaves the versions right: no call writes the state of a job that is not shown,
or is shown by a version with another job of its own, unless the state stays as it is; and no
job of a version is retried. -/
def SparesOwnJobs (w : World) : JobEvent → Prop
  | .call worker =>
    worker.Held w → ∀ write ∈ worker.writes? w.db, SparesVersions w.db write.1 write.2
  | .retry organizationId workspaceId agreementId jobId now =>
    (retryJob w.db organizationId workspaceId agreementId jobId now).isOk = true →
      ∀ version ∈ w.db.versions, version.processingJobId ≠ some jobId
  | _ => True

instance (w : World) (event : JobEvent) : Decidable (SparesOwnJobs w event) := by
  unfold SparesOwnJobs
  split <;> infer_instance

theorem jobStep_tracks_iff {w : World} (linked : w.db.Linked) (tracks : w.db.TracksOwnJobs)
    (event : JobEvent) : (jobStep w event).db.TracksOwnJobs ↔ SparesOwnJobs w event := by
  have moves := jobStep_cases linked.jobIds event
  generalize (jobStep w event).db = after at moves
  cases moves with
  | idle unwritten silent refused =>
    refine iff_of_true ?_ ?_
    · intro version present jobId own
      rw [unwritten.versions] at present
      obtain ⟨old, there, named, shows⟩ := tracks version present jobId own
      obtain ⟨row, here, face⟩ := exists_mem_of_map_eq unwritten.jobs.symm there
      have state : row.state = old.state := congrArg JobFace.state face
      exact ⟨row, here, (congrArg JobFace.id face).trans named, by rw [shows, state]⟩
    · cases event with
      | call worker =>
        intro held write writes
        rw [silent worker rfl held] at writes
        cases writes
      | retry organizationId workspaceId agreementId jobId now =>
        intro returns
        rw [refused _ _ _ _ _ rfl] at returns
        cases returns
      | _ => trivial
  | @written worker job state after held writes written =>
    rw [written.tracks_iff linked tracks]
    constructor
    · intro spares _ write named
      rw [writes] at named
      cases named
      exact spares
    · intro spares
      exact spares held (job, state) writes
  | retried returns retried =>
    rw [retried.tracks_iff linked tracks]
    exact ⟨fun apart _ => apart, fun apart => apart returns⟩
  | queued queues jobs versions agreements other =>
    refine iff_of_true ?_ ?_
    · intro version present jobId own
      obtain ⟨row, here, facts⟩ := tracks version (versions ▸ present) jobId own
      exact ⟨row, jobs ▸ List.mem_append_left _ here, facts⟩
    · cases event with
      | call worker => exact absurd rfl (other.1 worker)
      | retry organizationId workspaceId agreementId jobId now => exact absurd rfl (other.2 _ _ _ _ _)
      | _ => trivial
  | submitted queues unresolved => exact iff_of_true (tracks.submit _ queues.queued) trivial
  | versioned versioned =>
    refine iff_of_true ?_ trivial
    intro version present jobId own
    rw [versioned.versions] at present
    rcases List.mem_append.mp present with old | new
    · obtain ⟨row, here, facts⟩ := tracks version old jobId own
      exact ⟨row, versioned.jobs ▸ here, facts⟩
    · rw [List.mem_singleton.mp new, versioned.unsubmitted] at own
      cases own

/-- Agreements and their versions before anything is submitted. -/
structure World.Unsubmitted (w : World) : Prop where
  agreementIds : (w.db.agreements.map (·.id)).Nodup
  versionIds : (w.db.versions.map (·.id)).Nodup
  jobs : w.db.jobs = []
  unsubmitted : ∀ version ∈ w.db.versions, version.processingJobId = none
  currentVersions : ∀ agreement ∈ w.db.agreements, ∀ versionId,
    agreement.currentVersionId = some versionId →
    ∃ version ∈ w.db.versions, version.id = versionId ∧ version.InScope agreement
  versionScopes : ∀ version ∈ w.db.versions, ∀ agreement ∈ w.db.agreements,
    version.agreementId = agreement.id → version.InScope agreement

theorem World.Unsubmitted.linked {w : World} (unsubmitted : w.Unsubmitted) : w.db.Linked where
  agreementIds := unsubmitted.agreementIds
  versionIds := unsubmitted.versionIds
  jobIds := by simp [unsubmitted.jobs]
  ownJobs version present jobId own := by simp [unsubmitted.unsubmitted version present] at own
  jobVersions := by simp [unsubmitted.jobs]
  currentVersions := unsubmitted.currentVersions
  versionScopes := unsubmitted.versionScopes

/-- The states of versions are right along exactly the runs whose steps all spare them. -/
theorem run_tracksOwnJobs_iff {w : World} (unsubmitted : w.Unsubmitted) (events : List JobEvent) :
    meetsAlong jobStep (fun w event => (jobStep w event).db.TracksOwnJobs) w events ↔
      meetsAlong jobStep SparesOwnJobs w events := by
  refine meetsAlong_congr (P := fun w => w.db.Linked ∧ w.db.TracksOwnJobs) (E := fun _ _ => True)
    ⟨unsubmitted.linked, ?_⟩ (fun _ _ _ _ => trivial) ?_ ?_
  · intro version present jobId own
    simp [unsubmitted.unsubmitted version present] at own
  · rintro w event ⟨linked, tracks⟩ -
    exact jobStep_tracks_iff linked tracks event
  · rintro w event ⟨linked, -⟩ - right
    exact ⟨jobStep_linked linked event, right⟩

/-! An agreement with two versions, the second one current. -/

def sampleVersions : List AgreementVersionRecord :=
  [{ id := .ofNat 8, agreementId := .ofNat 3, organizationId := .ofNat 1, workspaceId := .ofNat 2
     versionNumber := 1, storageKey := "one", checksum := "a", contentType := "text/plain"
     processingState := .pending, processingJobId := none, idempotencyKey := "initial" },
   { id := .ofNat 9, agreementId := .ofNat 3, organizationId := .ofNat 1, workspaceId := .ofNat 2
     versionNumber := 2, storageKey := "two", checksum := "b", contentType := "text/plain"
     processingState := .pending, processingJobId := none, idempotencyKey := "second" }]

def unsubmittedWorld : World :=
  { sampleWorld with db := { sampleDatabase with
      agreements := [{ sampleAgreement with
        processingState := .pending, currentVersionId := some (.ofNat 9) }]
      versions := sampleVersions, jobs := [], comparisonRuns := [] } }

theorem unsubmittedWorld_unsubmitted : unsubmittedWorld.Unsubmitted where
  agreementIds := by decide
  versionIds := by decide
  jobs := rfl
  unsubmitted := by decide
  currentVersions agreement present versionId names := by
    rw [List.mem_singleton.mp present] at names ⊢
    cases names
    exact ⟨_, List.mem_cons_of_mem _ List.mem_cons_self, rfl, by decide⟩
  versionScopes := by decide

def sampleSubmission : JobEvent :=
  .submit (.ofNat 1) (.ofNat 2) (.ofNat 3) none "analysis" "baseline" 0 (.ofNat 5)

def sampleJobClaim : JobEvent :=
  .call (.claim (.ofNat 5) (.ofNat 1) (.ofNat 2) 10 (.ofNat 50))

/-- The claim of the submitted job. -/
def sampleAnalysis : ProcessingJob where
  id := .ofNat 5
  agreementId := .ofNat 3
  attemptCount := 1
  organizationId := .ofNat 1
  workspaceId := .ofNat 2
  profile := "baseline"
  sourceStorageKey := some "two"
  sourceChecksum := some "b"
  sourceContentType := some "text/plain"
  claimToken := .ofNat 50
  claimLeaseExpiresAt := 10 + processingClaimLease

def sampleFailure : JobEvent :=
  .call (.fail sampleAnalysis none "transient_exhausted" "Timeout" 20)

theorem run_tracksOwnJobs_iff_sample :
    meetsAlong jobStep (fun w event => (jobStep w event).db.TracksOwnJobs) unsubmittedWorld
      [sampleSubmission, sampleJobClaim, sampleFailure] :=
  (run_tracksOwnJobs_iff unsubmittedWorld_unsubmitted
    [sampleSubmission, sampleJobClaim, sampleFailure]).mpr (by decide +kernel)

/-- Whatever is called, submitted versions show the states of their jobs. -/
def AlwaysTracksOwnJobs : Prop :=
  ∀ (w : World) (events : List JobEvent), w.Unsubmitted → (run jobStep w events).db.TracksOwnJobs

/-- The analysis of the current version fails and is retried. -/
def sampleRetry : List JobEvent :=
  [sampleSubmission, sampleJobClaim, sampleFailure,
    .retry (.ofNat 1) (.ofNat 2) (.ofNat 3) (.ofNat 5) 30]

theorem not_alwaysTracksOwnJobs : ¬ AlwaysTracksOwnJobs := by
  intro always
  have tracks := always unsubmittedWorld sampleRetry unsubmittedWorld_unsubmitted
  have wrong : ∃ version ∈ (run jobStep unsubmittedWorld sampleRetry).db.versions,
      version.processingJobId = some (.ofNat 5) ∧ version.processingState = .job .failed ∧
        ∀ job ∈ (run jobStep unsubmittedWorld sampleRetry).db.jobs, job.state = .queued := by
    decide +kernel
  obtain ⟨version, present, own, shows, waits⟩ := wrong
  obtain ⟨job, member, -, same⟩ := tracks version present (.ofNat 5) own
  rw [shows, waits job member] at same
  cases same

end AgreementIntelligence.Agreements
