import AgreementIntelligence.Agreements.Attempts
import AgreementIntelligence.Agreements.FinishedWork

/-! Histories of finished work. In every run a completed job has one artifact row, of its own kind
and with the date of its commit, unless it is a re-index job; and the completed jobs with their
rows change in three ways only: not at all, by the job that a commit completes, or by a purge. -/

namespace AgreementIntelligence.Agreements
open Identity Lib.Table Lib.Runs Lib.Text

/-! The invariant -/

@[simp] theorem JobFace.moved_id (jobId : Uuid) (state : JobState) (face : JobFace) :
    (face.moved jobId state).id = face.id := by
  rw [JobFace.moved]
  split <;> rfl

@[simp] theorem JobFace.moved_profile (jobId : Uuid) (state : JobState) (face : JobFace) :
    (face.moved jobId state).profile = face.profile := by
  rw [JobFace.moved]
  split <;> rfl

@[simp] theorem JobFace.moved_versionId (jobId : Uuid) (state : JobState) (face : JobFace) :
    (face.moved jobId state).versionId = face.versionId := by
  rw [JobFace.moved]
  split <;> rfl

@[simp] theorem JobFace.moved_agreementId (jobId : Uuid) (state : JobState) (face : JobFace) :
    (face.moved jobId state).agreementId = face.agreementId := by
  rw [JobFace.moved]
  split <;> rfl

@[simp] theorem JobFace.moved_artifact (jobId : Uuid) (state : JobState) (face : JobFace) :
    (face.moved jobId state).artifact = face.artifact := by
  rw [JobFace.moved]
  split <;> rfl

theorem Database.faces_ids (db : Database) : db.faces.map (·.id) = db.jobs.map (·.id) := by
  rw [Database.faces, List.map_map]
  rfl

theorem WorkMove.jobIds {before after : Database}
    {completes : Option (ProcessingJobRecord × CompletedArtifact × Time)}
    (move : WorkMove before after completes) (distinct : (before.jobs.map (·.id)).Nodup) :
    (after.jobs.map (·.id)).Nodup := by
  rw [← Database.faces_ids] at distinct ⊢
  cases move with
  | same faces => rwa [faces]
  | moved jobId state faces => simpa [faces, Function.comp_def] using distinct
  | completed _ _ faces => simpa [faces, Function.comp_def] using distinct
  | joined face queued fresh placed faces =>
      rw [faces]
      exact nodup_map_concat distinct fresh
  | versioned place fresh faces => rwa [faces]
  | purged agreementId faces =>
      rw [faces]
      exact distinct.sublist (List.filter_sublist.map _)

theorem WorkMove.versionIds {before after : Database}
    {completes : Option (ProcessingJobRecord × CompletedArtifact × Time)}
    (move : WorkMove before after completes) (distinct : (before.places.map Prod.fst).Nodup) :
    (after.places.map Prod.fst).Nodup := by
  cases move with
  | same _ _ places => rwa [places]
  | moved _ _ _ _ _ places => rwa [places]
  | completed _ _ _ _ _ places => rwa [places]
  | joined _ _ _ _ _ _ places => rwa [places]
  | versioned place fresh _ _ places =>
      rw [places]
      exact nodup_map_concat distinct fresh
  | purged agreementId _ _ places =>
      rw [places]
      exact distinct.sublist (List.filter_sublist.map _)

/-- Jobs stay with the versions that they name. -/
theorem WorkMove.placed {before after : Database}
    {completes : Option (ProcessingJobRecord × CompletedArtifact × Time)}
    (move : WorkMove before after completes)
    (placed : ∀ face ∈ before.faces, ∀ versionId ∈ face.versionId,
      (versionId, face.agreementId) ∈ before.places)
    {face : JobFace} (member : face ∈ after.faces) {versionId : Uuid}
    (names : versionId ∈ face.versionId) : (versionId, face.agreementId) ∈ after.places := by
  cases move with
  | same faces _ places => exact places ▸ placed face (faces ▸ member) versionId names
  | moved jobId state faces _ _ places =>
      rw [faces] at member
      obtain ⟨old, there, rfl⟩ := List.mem_map.mp member
      rw [places, JobFace.moved_agreementId]
      exact placed old there versionId (by simpa using names)
  | completed _ _ faces _ _ places =>
      rw [faces] at member
      obtain ⟨old, there, rfl⟩ := List.mem_map.mp member
      rw [places, JobFace.moved_agreementId]
      exact placed old there versionId (by simpa using names)
  | joined new _ _ here faces _ places =>
      rw [faces] at member
      rw [places]
      rcases List.mem_append.mp member with old | last
      · exact placed face old versionId names
      · rw [List.mem_singleton.mp last] at names ⊢
        exact here versionId names
  | versioned place _ faces _ places =>
      rw [places]
      exact List.mem_append_left _ (placed face (faces ▸ member) versionId names)
  | purged agreementId faces _ places =>
      rw [faces] at member
      obtain ⟨old, elsewhere⟩ := List.mem_filter.mp member
      rw [places]
      exact List.mem_filter.mpr ⟨placed face old versionId names, elsewhere⟩

/-- A job keeps its profile: a face after a step is one from before, or has a new identifier. -/
theorem WorkMove.face_old {before after : Database}
    {completes : Option (ProcessingJobRecord × CompletedArtifact × Time)}
    (move : WorkMove before after completes) {face : JobFace} (member : face ∈ after.faces) :
    (∃ old ∈ before.faces, old.id = face.id ∧ old.profile = face.profile) ∨
      ∀ old ∈ before.faces, old.id ≠ face.id := by
  cases move with
  | same faces => exact .inl ⟨face, faces ▸ member, rfl, rfl⟩
  | moved jobId state faces =>
      rw [faces] at member
      obtain ⟨old, there, rfl⟩ := List.mem_map.mp member
      exact .inl ⟨old, there, by simp, by simp⟩
  | completed _ _ faces =>
      rw [faces] at member
      obtain ⟨old, there, rfl⟩ := List.mem_map.mp member
      exact .inl ⟨old, there, by simp, by simp⟩
  | versioned place fresh faces => exact .inl ⟨face, faces ▸ member, rfl, rfl⟩
  | joined new queued fresh placed faces =>
      rw [faces] at member
      rcases List.mem_append.mp member with old | last
      · exact .inl ⟨face, old, rfl, rfl⟩
      · rw [List.mem_singleton.mp last]
        exact .inr fresh
  | purged agreementId faces =>
      rw [faces] at member
      exact .inl ⟨face, List.mem_of_mem_filter member, rfl, rfl⟩

/-- The face of a job that is completed -/
def ProcessingJobRecord.finishedFace (job : ProcessingJobRecord) : JobFace :=
  { job.face with state := .completed }

/-- Finished work after a step: as before or with the job that the step completes, or without the
agreement that it purges. -/
theorem WorkMove.finished {before after : Database}
    {completes : Option (ProcessingJobRecord × CompletedArtifact × Time)}
    (distinct : (before.jobs.map (·.id)).Nodup) (move : WorkMove before after completes) :
    match completes with
    | some (job, artifact, _) => after.finished = insert job.finishedFace before.finished ∧
        after.artifacts = before.artifacts ++
          if startsWith job.profile embeddingReindexProfilePrefix then []
          else [job.face.artifact artifact.key]
    | none => after.finished = before.finished ∧ after.artifacts = before.artifacts ∨
        ∃ agreementId, after.finished = {face ∈ before.finished | face.agreementId ≠ agreementId} ∧
          after.artifacts = before.artifacts.filter (·.agreementId ≠ agreementId) := by
  cases move with
  | same faces artifacts => exact .inl ⟨by rw [Database.finished, faces, Database.finished], artifacts⟩
  | moved jobId state faces unfinished artifacts =>
      refine .inl ⟨?_, artifacts⟩
      ext face
      simp only [Database.finished, faces, Set.mem_ofPred_eq, List.mem_map]
      constructor
      · rintro ⟨⟨old, there, rfl⟩, done⟩
        by_cases hit : old.id = jobId
        · rw [JobFace.moved, if_pos hit] at done ⊢
          have now : state = .completed := done
          have same := (unfinished old there hit).mp now
          have kept : { old with state := state } = old := by rw [now, ← same]
          rw [kept]
          exact ⟨there, same⟩
        · rw [JobFace.moved, if_neg hit] at done ⊢
          exact ⟨there, done⟩
      · rintro ⟨there, done⟩
        refine ⟨⟨face, there, ?_⟩, done⟩
        rw [JobFace.moved]
        split
        · next hit => rw [(unfinished face there hit).mpr done, ← done]
        · rfl
  | @completed job artifact now member unfinished faces fits artifacts =>
      refine ⟨?_, artifacts⟩
      ext face
      simp only [Database.finished, faces, Set.mem_ofPred_eq, Set.mem_insert_iff, List.mem_map]
      constructor
      · rintro ⟨⟨old, there, rfl⟩, done⟩
        by_cases hit : old.id = job.id
        · obtain ⟨row, present, rfl⟩ := List.mem_map.mp there
          have same : row = job := List.inj_on_of_nodup_map distinct present member hit
          rw [same]
          exact .inl (if_pos rfl)
        · rw [JobFace.moved, if_neg hit] at done ⊢
          exact .inr ⟨there, done⟩
      · rintro (rfl | ⟨there, done⟩)
        · exact ⟨⟨job.face, List.mem_map_of_mem member, if_pos rfl⟩, rfl⟩
        · refine ⟨⟨face, there, ?_⟩, done⟩
          rw [JobFace.moved]
          split
          · rw [← done]
          · rfl
  | versioned place fresh faces artifacts =>
      exact .inl ⟨by rw [Database.finished, faces, Database.finished], artifacts⟩
  | joined new queued fresh placed faces artifacts =>
      refine .inl ⟨?_, artifacts⟩
      ext face
      simp only [Database.finished, faces, Set.mem_ofPred_eq, List.mem_append, List.mem_singleton]
      constructor
      · rintro ⟨there | rfl, done⟩
        · exact ⟨there, done⟩
        · rw [queued] at done
          cases done
      · rintro ⟨there, done⟩
        exact ⟨.inl there, done⟩
  | purged agreementId faces artifacts =>
      refine .inr ⟨agreementId, ?_, artifacts⟩
      ext face
      simp only [Database.finished, faces, Set.mem_ofPred_eq, List.mem_filter, decide_eq_true_eq]
      exact and_right_comm

theorem History.mem_follow {h : History} {now : Time} {w : World} {artifact : DatedArtifact} :
    artifact ∈ (h.follow now w).artifacts ↔
      (artifact ∈ h.artifacts ∧ artifact.row ∈ w.db.artifacts) ∨
        artifact.row ∈ w.db.artifacts ∧ artifact.row ∉ h.world.db.artifacts ∧
          artifact.createdAt = now := by
  simp only [History.follow, List.mem_append, List.mem_filter, List.mem_map, decide_eq_true_eq]
  refine or_congr_right ?_
  constructor
  · rintro ⟨row, ⟨present, fresh⟩, rfl⟩
    exact ⟨present, fresh, rfl⟩
  · rintro ⟨present, fresh, rfl⟩
    exact ⟨artifact.row, ⟨present, fresh⟩, rfl⟩

theorem HistoryEvent.completes?_now {w : World} {event : HistoryEvent}
    {job : ProcessingJobRecord} {artifact : CompletedArtifact} {now : Time}
    (completes : event.completes? w = some (job, artifact, now)) : event.now = now := by
  cases event with
  | aside => cases completes
  | job event =>
      cases event with
      | call worker =>
          obtain ⟨claimed, content, verdict, rfl, -, -⟩ :=
            WorkerCall.completes?_eq_some completes
          rfl
      | _ => cases completes

/-- The artifacts with their dates, as a set -/
def History.stored (h : History) : Set DatedArtifact :=
  {artifact | artifact ∈ h.artifacts}

/-- What a step does to finished work and its artifacts -/
inductive History.Moves (h next : History) :
    Option (ProcessingJobRecord × CompletedArtifact × Time) → Prop where
  | same (finished : next.world.db.finished = h.world.db.finished)
      (stored : next.stored = h.stored) : Moves h next none
  | completed {job : ProcessingJobRecord} {artifact : CompletedArtifact} {now : Time}
      (unfinished : ∀ face ∈ h.world.db.finished, face.id ≠ job.id)
      (fits : KeyFits job.profile artifact.key)
      (finished : next.world.db.finished = insert job.finishedFace h.world.db.finished)
      (stored : next.stored = if startsWith job.profile embeddingReindexProfilePrefix then h.stored
        else insert ⟨job.face.artifact artifact.key, now⟩ h.stored) :
      Moves h next (some (job, artifact, now))
  | purged (agreementId : Uuid)
      (finished : next.world.db.finished =
        {face ∈ h.world.db.finished | face.agreementId ≠ agreementId})
      (stored : next.stored = {artifact ∈ h.stored | artifact.row.agreementId ≠ agreementId}) :
      Moves h next none

/-- Rows that are kept keep their dates. -/
theorem History.stored_follow {h : History} {now : Time} {w : World}
    (kept : w.db.artifacts ⊆ h.world.db.artifacts) :
    (h.follow now w).stored = {artifact ∈ h.stored | artifact.row ∈ w.db.artifacts} := by
  ext artifact
  rw [History.stored, Set.mem_ofPred_eq, History.mem_follow]
  constructor
  · rintro (old | ⟨present, fresh, -⟩)
    · exact old
    · exact absurd (kept present) fresh
  · exact .inl

theorem historyStep_moves {h : History} (sound : h.Sound) (event : HistoryEvent) :
    h.Moves (historyStep h event) (event.completes? h.world) := by
  have move := worldStep_moves sound event
  cases completes : event.completes? h.world with
  | none =>
      rw [completes] at move
      have finished := move.finished sound.jobIds
      have old : ∀ artifact ∈ h.stored, artifact.row ∈ h.world.db.artifacts :=
        fun artifact member => (sound.dated artifact.row).mpr ⟨artifact, member, rfl⟩
      rcases finished with ⟨faces, artifacts⟩ | ⟨agreementId, faces, artifacts⟩
      · refine .same faces ((History.stored_follow (artifacts ▸ List.Subset.refl _)).trans ?_)
        rw [artifacts]
        exact Set.sep_eq_self_iff_mem_true.mpr old
      · refine .purged agreementId faces
          ((History.stored_follow (artifacts ▸ List.filter_subset_self _)).trans ?_)
        ext artifact
        rw [artifacts, Set.mem_sep_iff, Set.mem_sep_iff, List.mem_filter, decide_eq_true_eq]
        exact and_congr_right fun member => and_iff_right (old artifact member)
  | some triple =>
      obtain ⟨job, artifact, now⟩ := triple
      have clock := HistoryEvent.completes?_now completes
      rw [completes] at move
      obtain ⟨faces, artifacts⟩ := move.finished sound.jobIds
      cases move with
      | completed member unfinished _ fits =>
          have own : job.face ∈ h.world.db.faces := List.mem_map_of_mem member
          have apart : ∀ face ∈ h.world.db.finished, face.id ≠ job.id := by
            rintro face ⟨there, done⟩ same
            rw [sound.face_inj there own same] at done
            exact unfinished done
          refine .completed apart fits faces ?_
          by_cases reindex : startsWith job.profile embeddingReindexProfilePrefix = true
          · rw [if_pos reindex, List.append_nil] at artifacts
            rw [if_pos reindex]
            refine (History.stored_follow (artifacts ▸ List.Subset.refl _)).trans ?_
            rw [artifacts]
            exact Set.sep_eq_self_iff_mem_true.mpr fun artifact present =>
              (sound.dated artifact.row).mpr ⟨artifact, present, rfl⟩
          · rw [if_neg reindex] at artifacts
            rw [if_neg reindex]
            have fresh : job.face.artifact artifact.key ∉ h.world.db.artifacts := by
              intro present
              exact unfinished (sound.completed_of_stored own present rfl)
            ext dated
            rw [History.stored, Set.mem_ofPred_eq, historyStep, History.mem_follow, artifacts,
              List.mem_append, List.mem_singleton, Set.mem_insert_iff, clock]
            constructor
            · rintro (⟨old, -⟩ | ⟨old | same, new, time⟩)
              · exact .inr old
              · exact absurd old new
              · refine .inl ?_
                rw [← same, ← time]
            · rintro (rfl | old)
              · exact .inr ⟨.inr rfl, fresh, rfl⟩
              · exact .inl ⟨old, .inl ((sound.dated dated.row).mpr ⟨dated, old, rfl⟩)⟩

/-! What workers hold -/

theorem step_keeps_claims (w : World) (event : Event) : w.claims ⊆ (step w event).claims := by
  by_cases claims : ∃ jobId organizationId workspaceId now claimToken,
      event = .call (.claim jobId organizationId workspaceId now claimToken)
  · obtain ⟨jobId, organizationId, workspaceId, now, claimToken, rfl⟩ := claims
    have held : (WorkerCall.claim jobId organizationId workspaceId now claimToken).Held w := trivial
    rw [step, if_pos held, World.call]
    split
    · exact List.Subset.refl _
    · exact List.subset_append_left _ _
  · rw [step_claims w fun jobId organizationId workspaceId now claimToken same =>
      claims ⟨jobId, organizationId, workspaceId, now, claimToken, same⟩]
    exact List.Subset.refl _

/-- Workers keep what they hold, and get claims of stored jobs and the keys expected of claims. -/
structure Holds (before after : World) : Prop where
  kept : before.claims ⊆ after.claims
  claims : ∀ claim ∈ after.claims, claim ∈ before.claims ∨
    ∃ job ∈ before.db.jobs, job.id = claim.id ∧ job.profile = claim.profile
  expected : ∀ pair ∈ after.expected, pair ∈ before.expected ∨
    pair.1 ∈ before.claims ∧ KeyFits pair.1.profile pair.2.key
  fresh : before.DrawsFresh after

theorem Holds.of_same {before after : World} (claims : after.claims = before.claims)
    (expected : after.expected = before.expected) (fresh : before.DrawsFresh after) :
    Holds before after where
  kept := claims ▸ List.Subset.refl _
  claims _ member := .inl (claims ▸ member)
  expected _ member := .inl (expected ▸ member)
  fresh := fresh

theorem step_holds (w : World) (event : Event) : Holds w (step w event) := by
  have traced := step_traced w event
  refine ⟨step_keeps_claims w event, fun claim member => ?_, fun pair member => ?_,
    fun job member _ => ?_⟩
  · refine (traced.claims claim member).imp_right ?_
    rintro ⟨job, there, same⟩
    have context : job.context = claim.context := congrArg (·.2.1) same
    exact ⟨job, there, congrArg Prod.fst same, congrArg (·.profile) context⟩
  · exact (traced.expected pair member).imp_right fun new =>
      ⟨new.1, expectedArtifact_keyFits new.2⟩
  · obtain ⟨old, there, same⟩ := traced.jobs job member
    exact List.mem_map.mpr ⟨old, there, congrArg Prod.fst same⟩

theorem worldStep_holds (w : World) (event : HistoryEvent) : Holds w (worldStep w event) := by
  cases event with
  | aside event isAside => exact step_holds w event
  | job event =>
      simp only [worldStep]
      split
      · next fresh =>
          cases event with
          | call worker => exact step_holds w (.call worker)
          | expectArtifact job => exact step_holds w (.expectArtifact job)
          | _ => exact .of_same rfl rfl fresh
      · exact .of_same rfl rfl fun job member _ => List.mem_map_of_mem member

/-! Sound histories stay sound -/

theorem History.Initial.sound {h : History} (initial : h.Initial) : h.Sound where
  jobIds := by simp [initial.jobs]
  claims := by simp [initial.claims]
  expected := by simp [initial.expected]
  dated := by simp [initial.artifactRows, initial.artifacts]
  stored := by simp [initial.artifactRows]
  produced := by simp [Database.finished, Database.faces, initial.jobs]
  single := by simp [initial.artifacts]
  versionIds := by simpa [Database.places, Function.comp_def] using initial.versionIds
  placed := by simp [Database.faces, initial.jobs]

theorem History.Sound.claims_after {h : History} (sound : h.Sound) {next : World}
    (holds : Holds h.world next)
    {completes : Option (ProcessingJobRecord × CompletedArtifact × Time)}
    (move : WorkMove h.world.db next.db completes) {claim : ProcessingJob}
    (member : claim ∈ next.claims) {face : JobFace} (there : face ∈ next.db.faces)
    (named : face.id = claim.id) : face.profile = claim.profile := by
  rcases move.face_old there with ⟨old, present, sameId, sameProfile⟩ | new
  · rw [← sameProfile]
    rcases holds.claims claim member with kept | ⟨job, inside, jobId, profile⟩
    · exact sound.claims claim kept old present (sameId.trans named)
    · have own : job.face ∈ h.world.db.faces := List.mem_map_of_mem inside
      have alike : old = job.face :=
        sound.face_inj present own (sameId.trans (named.trans jobId.symm))
      rw [alike]
      exact profile
  · rcases holds.claims claim member with kept | ⟨job, inside, jobId, profile⟩
    · obtain ⟨row, present, rfl⟩ := List.mem_map.mp there
      have drawn := holds.fresh row present (List.mem_map.mpr ⟨claim, kept, named.symm⟩)
      obtain ⟨old, inside, same⟩ := List.mem_map.mp drawn
      exact absurd same (new old.face (List.mem_map_of_mem inside))
    · exact absurd (jobId.trans named.symm) (new job.face (List.mem_map_of_mem inside))

/-- The rows of a history stand in the database, and the other way round. -/
theorem historyStep_dated {h : History} (sound : h.Sound) (event : HistoryEvent)
    (row : ProcessingArtifactRecord) :
    row ∈ (historyStep h event).world.db.artifacts ↔
      ∃ artifact ∈ (historyStep h event).artifacts, artifact.row = row := by
  constructor
  · intro present
    by_cases old : row ∈ h.world.db.artifacts
    · obtain ⟨artifact, member, rfl⟩ := (sound.dated row).mp old
      exact ⟨artifact, History.mem_follow.mpr (.inl ⟨member, present⟩), rfl⟩
    · exact ⟨⟨row, event.now⟩, History.mem_follow.mpr (.inr ⟨present, old, rfl⟩), rfl⟩
  · rintro ⟨artifact, member, rfl⟩
    rcases History.mem_follow.mp member with ⟨-, present⟩ | ⟨present, -⟩
    · exact present
    · exact present

/-- A dated artifact is one of a completed job that stores artifacts. -/
theorem History.Sound.owner {h : History} (sound : h.Sound) {artifact : DatedArtifact}
    (member : artifact ∈ h.stored) : ∃ face ∈ h.world.db.finished,
      startsWith face.profile embeddingReindexProfilePrefix = false ∧
        artifact.row = face.artifact artifact.row.artifactKey ∧
          KeyFits face.profile artifact.row.artifactKey :=
  sound.stored artifact.row ((sound.dated artifact.row).mpr ⟨artifact, member, rfl⟩)

theorem History.Sound.product {h : History} (sound : h.Sound) {face : JobFace}
    (done : face ∈ h.world.db.finished)
    (kept : startsWith face.profile embeddingReindexProfilePrefix = false) :
    ∃ artifact ∈ h.stored, artifact.row.jobId = face.id := by
  obtain ⟨row, present, own⟩ := sound.produced face done kept
  obtain ⟨artifact, member, rfl⟩ := (sound.dated row).mp present
  exact ⟨artifact, member, own⟩

section Moves
variable {h next : History} {completes : Option (ProcessingJobRecord × CompletedArtifact × Time)}

theorem History.Moves.owner_after (sound : h.Sound) (moves : h.Moves next completes)
    {artifact : DatedArtifact} (member : artifact ∈ next.stored) :
    ∃ face ∈ next.world.db.finished,
      startsWith face.profile embeddingReindexProfilePrefix = false ∧
        artifact.row = face.artifact artifact.row.artifactKey ∧
          KeyFits face.profile artifact.row.artifactKey := by
  cases moves with
  | same finished stored =>
      rw [finished]
      exact sound.owner (stored ▸ member)
  | @completed job key now unfinished fits finished stored =>
      rw [finished]
      rw [stored] at member
      split at member
      · obtain ⟨face, there, facts⟩ := sound.owner member
        exact ⟨face, Set.mem_insert_of_mem _ there, facts⟩
      · next kept =>
          rcases Set.mem_insert_iff.mp member with rfl | old
          · exact ⟨job.finishedFace, Set.mem_insert _ _, Bool.not_eq_true _ ▸ kept, rfl, fits⟩
          · obtain ⟨face, there, facts⟩ := sound.owner old
            exact ⟨face, Set.mem_insert_of_mem _ there, facts⟩
  | purged agreementId finished stored =>
      rw [finished]
      rw [stored] at member
      obtain ⟨face, there, kept, same, fits⟩ := sound.owner member.1
      have elsewhere : face.agreementId ≠ agreementId := by
        have apart := member.2
        rwa [same] at apart
      exact ⟨face, ⟨there, elsewhere⟩, kept, same, fits⟩

theorem History.Moves.product_after (sound : h.Sound) (moves : h.Moves next completes)
    {face : JobFace} (done : face ∈ next.world.db.finished)
    (kept : startsWith face.profile embeddingReindexProfilePrefix = false) :
    ∃ artifact ∈ next.stored, artifact.row.jobId = face.id := by
  cases moves with
  | same finished stored =>
      rw [stored]
      exact sound.product (finished ▸ done) kept
  | @completed job key now unfinished fits finished stored =>
      rw [finished] at done
      rw [stored]
      rcases Set.mem_insert_iff.mp done with rfl | old
      · have stores : startsWith job.profile embeddingReindexProfilePrefix = false := kept
        rw [stores]
        exact ⟨_, Set.mem_insert _ _, rfl⟩
      · obtain ⟨artifact, member, own⟩ := sound.product old kept
        refine ⟨artifact, ?_, own⟩
        split
        · exact member
        · exact Set.mem_insert_of_mem _ member
  | purged agreementId finished stored =>
      rw [finished] at done
      rw [stored]
      obtain ⟨artifact, member, own⟩ := sound.product done.1 kept
      obtain ⟨owner, present, -, same, -⟩ := sound.owner member
      have alike : owner = face := sound.face_inj present.1 done.1.1 (by rw [← own, same]; rfl)
      refine ⟨artifact, ⟨member, ?_⟩, own⟩
      rw [same, alike]
      exact done.2

theorem History.Moves.single_after (sound : h.Sound) (moves : h.Moves next completes)
    {one other : DatedArtifact} (here : one ∈ next.stored) (there : other ∈ next.stored)
    (same : one.row.jobId = other.row.jobId) : one = other := by
  cases moves with
  | same finished stored =>
      rw [stored] at here there
      exact sound.single one here other there same
  | @completed job key now unfinished fits finished stored =>
      have apart : ∀ old ∈ h.stored, old.row.jobId ≠ job.id := by
        intro old present named
        obtain ⟨face, done, -, row, -⟩ := sound.owner present
        exact unfinished face done (by rw [← named, row]; rfl)
      rw [stored] at here there
      split at here
      · next reindex =>
          rw [if_pos reindex] at there
          exact sound.single one here other there same
      · next kept =>
          rw [if_neg kept] at there
          rcases Set.mem_insert_iff.mp here with rfl | old
          · rcases Set.mem_insert_iff.mp there with rfl | old'
            · rfl
            · exact absurd same.symm (apart other old')
          · rcases Set.mem_insert_iff.mp there with rfl | old'
            · exact absurd same (apart one old)
            · exact sound.single one old other old' same
  | purged agreementId finished stored =>
      rw [stored] at here there
      exact sound.single one here.1 other there.1 same

end Moves

theorem historyStep_sound {h : History} (sound : h.Sound) (event : HistoryEvent) :
    (historyStep h event).Sound := by
  have move := worldStep_moves sound event
  have holds := worldStep_holds h.world event
  have moves := historyStep_moves sound event
  have dated := historyStep_dated sound event
  refine ⟨move.jobIds sound.jobIds, fun claim member face there named =>
    sound.claims_after holds move member there named, fun pair member => ?_, dated,
    fun row present => ?_, fun face done kept => ?_,
    fun one here other there same => moves.single_after sound here there same,
    move.versionIds sound.versionIds, fun face there versionId names =>
      move.placed sound.placed there names⟩
  · rcases holds.expected pair member with old | new
    · exact (sound.expected pair old).imp_left fun claimed => holds.kept claimed
    · exact ⟨holds.kept new.1, new.2⟩
  · obtain ⟨artifact, member, rfl⟩ := (dated row).mp present
    exact moves.owner_after sound member
  · obtain ⟨artifact, member, own⟩ := moves.product_after sound done kept
    exact ⟨artifact.row, (dated _).mpr ⟨artifact, member, rfl⟩, own⟩

/-- The jobs of a version belong to one agreement. -/
theorem History.Sound.agreement_of_version {h : History} (sound : h.Sound) {one other : JobFace}
    (here : one ∈ h.world.db.faces) (there : other ∈ h.world.db.faces) {versionId : Uuid}
    (names : one.versionId = some versionId) (names' : other.versionId = some versionId) :
    one.agreementId = other.agreementId := by
  have place := sound.placed one here versionId names
  have place' := sound.placed other there versionId names'
  exact congrArg Prod.snd (List.inj_on_of_nodup_map sound.versionIds place place' rfl)

end AgreementIntelligence.Agreements
