import AgreementIntelligence.Agreements.ProcessingStates

/-! The state an agreement shows against the state of its current version. A worker call for
a job that names a version writes the two together or neither. A job without a version, left
from before the agreement had one, writes the agreement alone, and so does every retry. -/

namespace AgreementIntelligence.Agreements
open Identity Lib.Table Lib.Runs Lib.Text

/-- A write of the state of a job without a version leaves the agreements right only when it
is the state that the current version shows. -/
def SparesAgreements (db : Database) (job : ProcessingJobRecord) (state : JobState) : Prop :=
  ∀ agreement ∈ db.agreements, ∀ version ∈ db.versions,
    agreement.currentVersionId = some version.id → version.processingJobId ≠ none →
    agreement.Shows job → job.versionId = none → version.processingState = .job state

instance (db : Database) (job : ProcessingJobRecord) (state : JobState) :
    Decidable (SparesAgreements db job state) := by
  unfold SparesAgreements
  infer_instance

theorem Written.agreement {before after : Database} {job : ProcessingJobRecord}
    {state : JobState} (written : Written before job state after) (agreement : AgreementRecord) :
    agreement ∈ after.agreements ↔
      ∃ old ∈ before.agreements, old.shown job state = agreement := by
  rw [written.agreements, updateAgreementProcessingState_agreements]
  exact List.mem_map

theorem AgreementRecord.shown_currentVersionId (job : ProcessingJobRecord) (state : JobState)
    (agreement : AgreementRecord) :
    (agreement.shown job state).currentVersionId = agreement.currentVersionId := by
  unfold AgreementRecord.shown
  split <;> rfl

theorem AgreementVersionRecord.shown_id (job : ProcessingJobRecord) (state : JobState)
    (version : AgreementVersionRecord) : (version.shown job state).id = version.id := by
  unfold AgreementVersionRecord.shown
  split <;> rfl

/-- A job that names a version is shown by the version when it is shown by the agreement whose
current version that is, and the other way round. -/
theorem Database.Linked.shows_iff {db : Database} (linked : db.Linked)
    {agreement : AgreementRecord} {version : AgreementVersionRecord} {job : ProcessingJobRecord}
    (held : agreement ∈ db.agreements) (present : version ∈ db.versions) (member : job ∈ db.jobs)
    (current : agreement.currentVersionId = some version.id) (names : job.versionId ≠ none) :
    agreement.Shows job ↔ version.Shows job := by
  obtain ⟨other, there, same, scope⟩ := linked.currentVersions agreement held version.id current
  have alike : other = version := List.inj_on_of_nodup_map linked.versionIds there present same
  subst alike
  constructor
  · rintro ⟨analysis, agreementId, organization, for_⟩
    have named : job.versionId = some other.id := by
      rcases for_ with unnamed | same
      · exact absurd unnamed names
      · exact same.symm.trans current
    obtain ⟨target, stored, targetId, targetScope⟩ := linked.jobVersions job member _ named
    have this : target = other :=
      List.inj_on_of_nodup_map linked.versionIds stored present targetId
    exact ⟨analysis, named, this ▸ targetScope⟩
  · rintro ⟨analysis, named, agreementId, organization, -⟩
    exact ⟨analysis, scope.1.symm.trans agreementId, scope.2.1.symm.trans organization,
      .inr (current.trans named.symm)⟩

theorem Written.mirrors_iff {before after : Database} {job : ProcessingJobRecord}
    {state : JobState} (linked : before.Linked) (mirrors : before.MirrorsCurrent)
    (written : Written before job state after) :
    after.MirrorsCurrent ↔ SparesAgreements before job state := by
  constructor
  · intro right agreement held version present current submitted shows unnamed
    have same := right _ ((written.agreement _).mpr ⟨agreement, held, rfl⟩) _
      ((written.version _).mpr ⟨version, present, rfl⟩)
      (by rw [agreement.shown_currentVersionId, version.shown_id, current])
      (by rw [version.shown_processingJobId]; exact submitted)
    have apart : ¬ version.Shows job := fun seen => by
      have named := seen.2.1
      rw [unnamed] at named
      cases named
    rw [AgreementRecord.shown, if_pos shows, AgreementVersionRecord.shown, if_neg apart] at same
    exact same.symm
  · intro spares agreement held version present current submitted
    obtain ⟨oldAgreement, kept, rfl⟩ := (written.agreement agreement).mp held
    obtain ⟨oldVersion, there, rfl⟩ := (written.version version).mp present
    rw [oldAgreement.shown_currentVersionId, oldVersion.shown_id] at current
    rw [oldVersion.shown_processingJobId] at submitted
    have before' := mirrors oldAgreement kept oldVersion there current submitted
    by_cases names : job.versionId = none
    · have apart : ¬ oldVersion.Shows job := fun seen => by
        have named := seen.2.1
        rw [names] at named
        cases named
      rw [AgreementVersionRecord.shown, if_neg apart, AgreementRecord.shown]
      split
      · rename_i shows
        exact (spares oldAgreement kept oldVersion there current submitted shows names).symm
      · exact before'
    · have both := linked.shows_iff kept there written.member current names
      rw [AgreementVersionRecord.shown, AgreementRecord.shown]
      by_cases seen : oldVersion.Shows job
      · rw [if_pos seen, if_pos (both.mpr seen)]
      · rw [if_neg seen, if_neg (fun shows => seen (both.mp shows))]
        exact before'

theorem Retried.mirrors_iff {before after : Database} {agreementId : Uuid}
    {job : ProcessingJobRecord} {now : Time} (mirrors : before.MirrorsCurrent)
    (retried : Retried before agreementId job now after) :
    after.MirrorsCurrent ↔ ∀ agreement ∈ before.agreements, agreement.id = agreementId →
      ∀ version ∈ before.versions, agreement.currentVersionId = some version.id →
        version.processingJobId ≠ none → version.processingState = .job .queued := by
  constructor
  · intro right agreement held named version present current submitted
    have queued : { agreement with processingState := .job .queued } ∈ after.agreements := by
      rw [retried.agreements]
      exact mem_update.mpr ⟨agreement, held, if_pos named⟩
    exact (right _ queued version (retried.versions ▸ present) current submitted).symm
  · intro waits agreement held version present current submitted
    rw [retried.versions] at present
    rw [retried.agreements] at held
    obtain ⟨old, kept, rfl⟩ := mem_update.mp held
    by_cases hit : old.id = agreementId
    · rw [if_pos hit] at current ⊢
      exact (waits old kept hit version present current submitted).symm
    · rw [if_neg hit] at current ⊢
      exact mirrors old kept version present current submitted

/-- Only the agreement of a new job can have the job's version as its current one. -/
theorem Database.Linked.current_eq {db : Database} (linked : db.Linked)
    {agreement row : AgreementRecord} {job : ProcessingJobRecord}
    {version : AgreementVersionRecord} (queues : Queues db agreement job)
    (held : row ∈ db.agreements) (present : version ∈ db.versions)
    (names : job.versionId = some version.id)
    (current : row.currentVersionId = some version.id) : row.id = agreement.id := by
  obtain ⟨one, there, oneId, scope⟩ := linked.currentVersions row held version.id current
  obtain ⟨two, stored, twoId, owned⟩ := queues.version version.id names
  have same : one = version := List.inj_on_of_nodup_map linked.versionIds there present oneId
  have alike : two = version := List.inj_on_of_nodup_map linked.versionIds stored present twoId
  exact scope.1.symm.trans (same.trans alike.symm ▸ owned)

/-- A submission writes version and agreement together when the version is the current one. -/
theorem Database.MirrorsCurrent.submit {db : Database} (mirrors : db.MirrorsCurrent)
    (linked : db.Linked) {agreement : AgreementRecord} {job : ProcessingJobRecord}
    (queues : Queues db agreement job)
    (unresolved : job.versionId = none → agreement.currentVersionId = none) :
    (markSubmitted { db with jobs := db.jobs ++ [job] } agreement job).MirrorsCurrent := by
  intro row held version present current submitted
  obtain ⟨old, there, rfl⟩ := List.mem_map.mp present
  simp only [markSubmitted] at held
  by_cases names : job.versionId = some old.id
  · rw [if_pos names] at current ⊢
    split at held
    · rename_i follows
      obtain ⟨source, kept, rfl⟩ := mem_update.mp held
      by_cases hit : source.id = agreement.id
      · rw [if_pos hit]
      · rw [if_neg hit] at current
        exact absurd (linked.current_eq queues kept there names current) hit
    · rename_i apart
      have same := linked.current_eq queues held there names current
      have alike : row = agreement :=
        List.inj_on_of_nodup_map linked.agreementIds held queues.member same
      exact absurd (.inr (names.trans (alike ▸ current).symm)) apart
  · rw [if_neg names] at current submitted ⊢
    split at held
    · rename_i follows
      obtain ⟨source, kept, rfl⟩ := mem_update.mp held
      by_cases hit : source.id = agreement.id
      · rw [if_pos hit] at current
        have alike : source = agreement :=
          List.inj_on_of_nodup_map linked.agreementIds kept queues.member hit
        rw [alike] at current
        rcases follows with unnamed | same
        · rw [unresolved unnamed] at current
          cases current
        · exact absurd (same.trans current) names
      · rw [if_neg hit] at current ⊢
        exact mirrors source kept old there current submitted
    · exact mirrors row held old there current submitted

/-- The step leaves the agreements right: no call writes the state of a job without a version
over the one that a submitted current version shows, and no retry is accepted for an
agreement whose submitted current version shows another state than `queued`. -/
def SparesCurrent (w : World) : JobEvent → Prop
  | .call worker =>
    worker.Held w → ∀ write ∈ worker.writes? w.db, SparesAgreements w.db write.1 write.2
  | .retry organizationId workspaceId agreementId jobId now =>
    (retryJob w.db organizationId workspaceId agreementId jobId now).isOk = true →
      ∀ agreement ∈ w.db.agreements, agreement.id = agreementId →
        ∀ version ∈ w.db.versions, agreement.currentVersionId = some version.id →
          version.processingJobId ≠ none → version.processingState = .job .queued
  | _ => True

instance (w : World) : (event : JobEvent) → Decidable (SparesCurrent w event)
  | .call worker => inferInstanceAs (Decidable
      (worker.Held w → ∀ write ∈ worker.writes? w.db, SparesAgreements w.db write.1 write.2))
  | .retry organizationId workspaceId agreementId jobId now => inferInstanceAs (Decidable
      ((retryJob w.db organizationId workspaceId agreementId jobId now).isOk = true →
        ∀ agreement ∈ w.db.agreements, agreement.id = agreementId →
          ∀ version ∈ w.db.versions, agreement.currentVersionId = some version.id →
            version.processingJobId ≠ none → version.processingState = .job .queued))
  | .expectArtifact .. | .submit .. | .submitComparison .. | .enqueueEmbeddingReindexJob ..
  | .createVersion .. => inferInstanceAs (Decidable True)

theorem jobStep_mirrors_iff {w : World} (linked : w.db.Linked) (mirrors : w.db.MirrorsCurrent)
    (event : JobEvent) : (jobStep w event).db.MirrorsCurrent ↔ SparesCurrent w event := by
  have moves := jobStep_cases linked.jobIds event
  generalize (jobStep w event).db = after at moves
  cases moves with
  | idle unwritten silent refused =>
    refine iff_of_true ?_ ?_
    · rw [Database.MirrorsCurrent, unwritten.versions, unwritten.agreements]
      exact mirrors
    · cases event with
      | call worker =>
        intro held write writes
        rw [silent worker rfl held] at writes
        cases writes
      | retry organizationId workspaceId agreementId jobId now =>
        intro returns
        rw [refused _ _ _ _ _ rfl] at returns
        cases returns
      | _ => trivial
  | @written worker job state after held writes written =>
    rw [written.mirrors_iff linked mirrors]
    constructor
    · intro spares _ write named
      rw [writes] at named
      cases named
      exact spares
    · intro spares
      exact spares held (job, state) writes
  | retried returns retried =>
    rw [retried.mirrors_iff mirrors]
    exact ⟨fun waits _ => waits, fun waits => waits returns⟩
  | queued queues jobs versions agreements other =>
    refine iff_of_true ?_ ?_
    · rw [Database.MirrorsCurrent, versions, agreements]
      exact mirrors
    · cases event with
      | call worker => exact absurd rfl (other.1 worker)
      | retry organizationId workspaceId agreementId jobId now => exact absurd rfl (other.2 _ _ _ _ _)
      | _ => trivial
  | submitted queues unresolved => exact iff_of_true (mirrors.submit linked queues unresolved) trivial
  | @versioned _ _ _ _ _ _ _ agreement record after versioned =>
    refine iff_of_true ?_ trivial
    intro row held version present current submitted
    rw [versioned.versions] at present
    rcases List.mem_append.mp present with old | new
    · rcases versioned.agreement linked.agreementIds held with ⟨names, -⟩ | kept
      · rw [names] at current
        exact absurd (Option.some.inj current).symm (versioned.fresh version old)
      · exact mirrors row kept version old current submitted
    · rw [List.mem_singleton.mp new] at submitted
      exact absurd versioned.unsubmitted submitted

/-- Agreements show the states of their current versions along exactly the runs whose steps
all spare them. -/
theorem run_mirrorsCurrent_iff {w : World} (unsubmitted : w.Unsubmitted)
    (events : List JobEvent) :
    meetsAlong jobStep (fun w event => (jobStep w event).db.MirrorsCurrent) w events ↔
      meetsAlong jobStep SparesCurrent w events := by
  refine meetsAlong_congr (P := fun w => w.db.Linked ∧ w.db.MirrorsCurrent) (E := fun _ _ => True)
    ⟨unsubmitted.linked, ?_⟩ (fun _ _ _ _ => trivial) ?_ ?_
  · intro agreement held version present current submitted
    exact absurd (unsubmitted.unsubmitted version present) submitted
  · rintro w event ⟨linked, mirrors⟩ -
    exact jobStep_mirrors_iff linked mirrors event
  · rintro w event ⟨linked, -⟩ - right
    exact ⟨jobStep_linked linked event, right⟩

theorem run_mirrorsCurrent_iff_sample :
    meetsAlong jobStep (fun w event => (jobStep w event).db.MirrorsCurrent) unsubmittedWorld
      [sampleSubmission, sampleJobClaim, sampleFailure] :=
  (run_mirrorsCurrent_iff unsubmittedWorld_unsubmitted
    [sampleSubmission, sampleJobClaim, sampleFailure]).mpr (by decide +kernel)

/-- Whatever is called, agreements show the states of their submitted current versions. -/
def AlwaysMirrorsCurrent : Prop :=
  ∀ (w : World) (events : List JobEvent), w.Unsubmitted → (run jobStep w events).db.MirrorsCurrent

theorem not_alwaysMirrorsCurrent : ¬ AlwaysMirrorsCurrent := by
  intro always
  have mirrors := always unsubmittedWorld sampleRetry unsubmittedWorld_unsubmitted
  have wrong : ∃ agreement ∈ (run jobStep unsubmittedWorld sampleRetry).db.agreements,
      ∃ version ∈ (run jobStep unsubmittedWorld sampleRetry).db.versions,
        agreement.currentVersionId = some version.id ∧ version.processingJobId ≠ none ∧
          agreement.processingState ≠ version.processingState := by
    decide +kernel
  obtain ⟨agreement, held, version, present, current, submitted, differ⟩ := wrong
  exact differ (mirrors agreement held version present current submitted)

end AgreementIntelligence.Agreements
