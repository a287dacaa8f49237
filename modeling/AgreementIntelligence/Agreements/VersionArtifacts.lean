import AgreementIntelligence.Agreements.Histories

/-! The artifact that a comparison reads for a version. The query takes the completed job of the
version with the highest identifier, of whatever kind: the comparisons with the version as their
target are jobs of it too, and so is a re-index job that is submitted for it. Identifiers are
random, so the job found is an analysis in the runs in which no later job of another kind has drawn
a higher one. -/

namespace AgreementIntelligence.Agreements
open Identity Lib.Runs Lib.Text Lib.Leaders

/-- The order of `uuid` columns -/
def JobFace.order (face : JobFace) : ℕ :=
  face.id.bits.toNat

/-- The job is a completed one of the version. -/
def JobFace.FinishedFor (face : JobFace) (versionId : Uuid) : Prop :=
  face.versionId = some versionId ∧ face.state = .completed

instance (face : JobFace) (versionId : Uuid) : Decidable (face.FinishedFor versionId) :=
  inferInstanceAs (Decidable (_ ∧ _))

/-- `_artifact_key_for_version` -/
def artifactKeyForVersion (db : Database) (artifacts : List DatedArtifact) (versionId : Uuid) :
    Except Raised String :=
  match first JobFace.order (db.faces.filter (·.FinishedFor versionId)) with
  | none => .error (.permanentProcessing "Version analysis artifact is unavailable")
  | some job =>
    match first (·.createdAt) (artifacts.filter (·.row.jobId = job.id)) with
    | none => .error (.permanentProcessing "Version analysis artifact is unavailable")
    | some artifact => .ok artifact.row.artifactKey

/-- An analysis of the version has been completed. -/
def Database.AnalysedVersion (db : Database) (versionId : Uuid) : Prop :=
  ∃ face ∈ db.faces, face.FinishedFor versionId ∧ IsAnalysis face.profile

instance (db : Database) (versionId : Uuid) : Decidable (db.AnalysedVersion versionId) := by
  unfold Database.AnalysedVersion
  infer_instance

/-- For each version with a completed analysis, the key that a comparison gets is the one of a
completed analysis of the version. -/
def History.ReadsAnalyses (h : History) : Prop :=
  ∀ versionId, h.world.db.AnalysedVersion versionId →
    ∃ face ∈ h.world.db.faces, face.FinishedFor versionId ∧ IsAnalysis face.profile ∧
      ∃ artifact ∈ h.artifacts, artifact.row.jobId = face.id ∧
        artifactKeyForVersion h.world.db h.artifacts versionId = .ok artifact.row.artifactKey

/-- A step completes no comparison or re-index job of an analysed version, unless an analysis of
it has a higher identifier; and the first analysis of a version that it completes has a higher one
than all other jobs that are completed for it. -/
def SparesVersionReads (w : World) (event : HistoryEvent) : Prop :=
  ∀ triple ∈ event.completes? w, ∀ versionId ∈ triple.1.versionId,
    (IsAnalysis triple.1.profile → w.db.AnalysedVersion versionId ∨
      ∀ face ∈ w.db.faces, face.FinishedFor versionId → face.order < triple.1.face.order) ∧
    (¬ IsAnalysis triple.1.profile → w.db.AnalysedVersion versionId →
      ∃ face ∈ w.db.faces, (face.FinishedFor versionId ∧ IsAnalysis face.profile) ∧
        triple.1.face.order < face.order)

instance (w : World) (event : HistoryEvent) : Decidable (SparesVersionReads w event) := by
  unfold SparesVersionReads
  infer_instance

/-! What is read, and what leads -/

/-- The completed jobs of a version -/
def Database.workOn (db : Database) (versionId : Uuid) : Set JobFace :=
  {face ∈ db.finished | face.versionId = some versionId}

def analyses : Set JobFace :=
  {face | IsAnalysis face.profile}

theorem mem_workOn {db : Database} {versionId : Uuid} {face : JobFace} :
    face ∈ db.workOn versionId ↔ face ∈ db.faces ∧ face.FinishedFor versionId := by
  simp only [Database.workOn, Database.finished, JobFace.FinishedFor, Set.mem_ofPred_eq]
  tauto

theorem analysedVersion_iff {db : Database} {versionId : Uuid} :
    db.AnalysedVersion versionId ↔ (db.workOn versionId ∩ analyses).Nonempty := by
  simp only [Database.AnalysedVersion, Set.Nonempty, Set.mem_inter_iff, mem_workOn, and_assoc]
  rfl

theorem JobFace.order_inj {one other : JobFace} (same : one.order = other.order) :
    one.id = other.id := by
  have bits : one.id.bits = other.id.bits := BitVec.eq_of_toNat_eq same
  exact congrArg Uuid.mk bits

/-- A job whose artifact has the key of an analysis is an analysis. -/
theorem History.Sound.analysis_of_key {h : History} (sound : h.Sound) {face other : JobFace}
    (done : face ∈ h.world.db.faces) (done' : other ∈ h.world.db.faces)
    {artifact artifact' : DatedArtifact} (here : artifact ∈ h.artifacts)
    (there : artifact' ∈ h.artifacts) (own : artifact.row.jobId = face.id)
    (own' : artifact'.row.jobId = other.id)
    (same : artifact.row.artifactKey = artifact'.row.artifactKey)
    (analysis : IsAnalysis face.profile) : IsAnalysis other.profile := by
  obtain ⟨owner, present, -, row, fits⟩ := sound.owner here
  obtain ⟨owner', present', kept, row', fits'⟩ := sound.owner there
  have alike : owner = face := sound.face_inj present.1 done (by rw [← own, row]; rfl)
  have alike' : owner' = other := sound.face_inj present'.1 done' (by rw [← own', row']; rfl)
  subst alike alike'
  exact ⟨kept, fits.kinds_apart (same ▸ fits') analysis⟩

theorem readsAnalyses_iff {h : History} (sound : h.Sound) :
    h.ReadsAnalyses ↔
      ∀ versionId, Leads analyses JobFace.order (h.world.db.workOn versionId) := by
  refine forall_congr' fun versionId => ?_
  have work (face : JobFace) : face ∈ h.world.db.faces.filter (·.FinishedFor versionId) ↔
      face ∈ h.world.db.workOn versionId := by
    rw [mem_workOn, List.mem_filter, decide_eq_true_eq]
  constructor
  · intro reads some_ row member unwanted
    obtain ⟨face, present, done, analysis, artifact, here, own, key⟩ :=
      reads (analysedVersion_iff.mpr some_)
    rw [artifactKeyForVersion] at key
    cases top : first JobFace.order (h.world.db.faces.filter (·.FinishedFor versionId)) with
    | none =>
        rw [top] at key
        cases key
    | some job =>
        obtain ⟨inside, greatest⟩ := first_greatest top
        rw [top] at key
        simp only at key
        cases newest : first (·.createdAt) (h.artifacts.filter (·.row.jobId = job.id)) with
        | none =>
            rw [newest] at key
            cases key
        | some found =>
            rw [newest] at key
            obtain ⟨stored, -⟩ := first_greatest newest
            rw [List.mem_filter, decide_eq_true_eq] at stored
            have good : IsAnalysis job.profile :=
              sound.analysis_of_key present (List.mem_of_mem_filter inside) here stored.1 own
                stored.2 (Except.ok.inj key).symm analysis
            refine ⟨job, ⟨(work job).mp inside, good⟩, lt_of_le_of_ne
              (greatest row ((work row).mpr member)) fun same => unwanted ?_⟩
            have alike : row = job := sound.face_inj (mem_workOn.mp member).1
              (List.mem_of_mem_filter inside) (JobFace.order_inj same)
            exact alike ▸ good
  · intro leads analysed
    have some_ := analysedVersion_iff.mp analysed
    cases top : first JobFace.order (h.world.db.faces.filter (·.FinishedFor versionId)) with
    | none =>
        obtain ⟨face, member, -⟩ := some_
        rw [first_eq_none_iff] at top
        have inside := (work face).mpr member
        rw [top] at inside
        cases inside
    | some job =>
        obtain ⟨inside, greatest⟩ := first_greatest top
        have member := (work job).mp inside
        have good : IsAnalysis job.profile := by
          by_contra unwanted
          obtain ⟨lead, ⟨there, -⟩, above⟩ := leads some_ job member unwanted
          exact absurd (greatest lead ((work lead).mpr there)) (not_le.mpr above)
        obtain ⟨artifact, stored, own⟩ := sound.product member.1 good.1
        cases newest : first (·.createdAt) (h.artifacts.filter (·.row.jobId = job.id)) with
        | none =>
            rw [first_eq_none_iff] at newest
            have kept : artifact ∈ h.artifacts.filter (·.row.jobId = job.id) :=
              List.mem_filter.mpr ⟨stored, decide_eq_true own⟩
            rw [newest] at kept
            cases kept
        | some found =>
            obtain ⟨here, -⟩ := first_greatest newest
            rw [List.mem_filter, decide_eq_true_eq] at here
            refine ⟨job, (mem_workOn.mp member).1, (mem_workOn.mp member).2, good, found, here.1,
              here.2, ?_⟩
            rw [artifactKeyForVersion, top]
            simp only [newest]

/-! Runs -/

theorem sparesVersionReads_iff {w : World} {event : HistoryEvent} {job : ProcessingJobRecord}
    {artifact : CompletedArtifact} {now : Time}
    (completes : event.completes? w = some (job, artifact, now)) :
    SparesVersionReads w event ↔ ∀ versionId ∈ job.versionId,
      MayJoin analyses JobFace.order (w.db.workOn versionId) job.finishedFace := by
  have lower (versionId : Uuid) :
      (∀ face ∈ w.db.faces, face.FinishedFor versionId → face.order < job.face.order) ↔
        ∀ face ∈ w.db.workOn versionId, face.order < job.finishedFace.order := by
    simp only [mem_workOn, and_imp]
    rfl
  have above (versionId : Uuid) :
      (∃ face ∈ w.db.faces, (face.FinishedFor versionId ∧ IsAnalysis face.profile) ∧
        job.face.order < face.order) ↔
        ∃ lead ∈ w.db.workOn versionId ∩ analyses, job.finishedFace.order < lead.order := by
    simp only [Set.mem_inter_iff, mem_workOn, and_assoc]
    rfl
  simp only [SparesVersionReads, completes, Option.mem_some_iff, forall_eq', MayJoin, lower,
    above, analysedVersion_iff]
  rfl

/-- The completed jobs of a version after a step -/
theorem workOn_completed {before after : Database} {job : ProcessingJobRecord}
    (finished : after.finished = insert job.finishedFace before.finished) (versionId : Uuid) :
    after.workOn versionId = if job.versionId = some versionId then
      insert job.finishedFace (before.workOn versionId) else before.workOn versionId := by
  ext face
  rw [Database.workOn, finished]
  split
  · next names =>
      simp only [Database.workOn, Set.mem_ofPred_eq, Set.mem_insert_iff]
      constructor
      · rintro ⟨rfl | old, named⟩
        · exact .inl rfl
        · exact .inr ⟨old, named⟩
      · rintro (rfl | ⟨old, named⟩)
        · exact ⟨.inl rfl, names⟩
        · exact ⟨.inr old, named⟩
  · next other =>
      simp only [Database.workOn, Set.mem_ofPred_eq, Set.mem_insert_iff]
      constructor
      · rintro ⟨rfl | old, named⟩
        · exact absurd named other
        · exact ⟨old, named⟩
      · rintro ⟨old, named⟩
        exact ⟨.inr old, named⟩

/-- A purge takes all the jobs of a version or none. -/
theorem workOn_purged {h : History} (sound : h.Sound) {after : Database} {agreementId : Uuid}
    (finished : after.finished = {face ∈ h.world.db.finished | face.agreementId ≠ agreementId})
    (versionId : Uuid) : after.workOn versionId = ∅ ∨
      after.workOn versionId = h.world.db.workOn versionId := by
  by_cases hit : ∃ face ∈ h.world.db.workOn versionId, face.agreementId = agreementId
  · obtain ⟨gone, ⟨⟨there, -⟩, names⟩, same⟩ := hit
    refine .inl (Set.eq_empty_of_forall_notMem ?_)
    rw [Database.workOn, finished]
    rintro face ⟨⟨⟨present, -⟩, elsewhere⟩, named⟩
    exact elsewhere ((sound.agreement_of_version present there named names).trans same)
  · push Not at hit
    refine .inr ?_
    ext face
    rw [Database.workOn, finished]
    constructor
    · rintro ⟨⟨old, -⟩, named⟩
      exact ⟨old, named⟩
    · rintro ⟨old, named⟩
      exact ⟨⟨old, hit face ⟨old, named⟩⟩, named⟩

theorem historyStep_readsAnalyses_iff {h : History} (sound : h.Sound) (reads : h.ReadsAnalyses)
    (event : HistoryEvent) :
    (historyStep h event).ReadsAnalyses ↔ SparesVersionReads h.world event := by
  have leads := (readsAnalyses_iff sound).mp reads
  rw [readsAnalyses_iff (historyStep_sound sound event)]
  have moves := historyStep_moves sound event
  have idle : event.completes? h.world = none → SparesVersionReads h.world event := by
    intro none triple completes
    rw [none] at completes
    cases completes
  cases completes : event.completes? h.world with
  | none =>
      refine iff_of_true (fun versionId => ?_) (idle completes)
      rw [completes] at moves
      cases moves with
      | same finished =>
          rw [Database.workOn, finished]
          exact leads versionId
      | purged agreementId finished =>
          rcases workOn_purged sound finished versionId with empty | kept
          · rw [empty]
            exact leads_empty
          · rw [kept]
            exact leads versionId
  | some triple =>
      obtain ⟨job, artifact, now⟩ := triple
      rw [completes] at moves
      rw [sparesVersionReads_iff completes]
      cases moves with
      | completed unfinished fits finished stored =>
          refine forall_congr' fun versionId => ?_
          rw [workOn_completed finished versionId]
          by_cases names : job.versionId = some versionId
          · rw [if_pos names, leads_insert_iff (leads versionId)]
            exact ⟨fun joins _ => joins, fun joins => joins names⟩
          · rw [if_neg names]
            exact iff_of_true (leads versionId) fun named => absurd named names

/-- Comparisons read analyses along exactly the runs whose steps all spare what they read. -/
theorem run_readsAnalyses_iff {h : History} (initial : h.Initial) (events : List HistoryEvent) :
    meetsAlong historyStep (fun h event => (historyStep h event).ReadsAnalyses) h events ↔
      meetsAlong historyStep (fun h event => SparesVersionReads h.world event) h events := by
  refine meetsAlong_congr (P := fun h => h.Sound ∧ h.ReadsAnalyses) (E := fun _ _ => True)
    ⟨initial.sound, ?_⟩ (fun _ _ _ _ => trivial) ?_ ?_
  · rw [readsAnalyses_iff initial.sound]
    intro versionId some_
    obtain ⟨face, ⟨⟨member, -⟩, -⟩, -⟩ := some_
    simp [Database.faces, initial.jobs] at member
  · rintro h event ⟨sound, reads⟩ -
    exact historyStep_readsAnalyses_iff sound reads event
  · rintro h event ⟨sound, -⟩ - right
    exact ⟨historyStep_sound sound event, right⟩

/-! Two versions are analysed and then compared. -/

def unsubmittedHistory : History where
  world := unsubmittedWorld
  artifacts := []

theorem unsubmittedHistory_initial : unsubmittedHistory.Initial where
  versionIds := by decide
  jobs := rfl
  artifactRows := rfl
  claims := rfl
  expected := rfl
  artifacts := rfl

/-- The claim of a job for a version of the sample -/
def sampleClaimOf (job : ℕ) (profile storageKey checksum : String) (now : Time) : ProcessingJob where
  id := .ofNat job
  agreementId := .ofNat 3
  attemptCount := 1
  organizationId := .ofNat 1
  workspaceId := .ofNat 2
  profile := profile
  sourceStorageKey := some storageKey
  sourceChecksum := some checksum
  sourceContentType := some "text/plain"
  claimToken := .ofNat (50 + job)
  claimLeaseExpiresAt := now + processingClaimLease

/-- A worker takes a job and commits the artifact that it expects of it. -/
def sampleCommit (claimed : ProcessingJob) (key : String) (now : Time) : List HistoryEvent :=
  [.job (.call (.claim claimed.id (.ofNat 1) (.ofNat 2) now claimed.claimToken)),
    .job (.expectArtifact claimed),
    .job (.call (.expect claimed ⟨claimed.id, key⟩ (now + 1))),
    .job (.call (.commitPrepared claimed ⟨claimed.id, key⟩ "{}" (.ok ()) (now + 2)))]

def firstAnalysis : ProcessingJob := sampleClaimOf 5 "baseline" "one" "a" 10

def secondAnalysis : ProcessingJob := sampleClaimOf 6 "baseline" "two" "b" 20

def sampleAnalyses : List HistoryEvent :=
  .job (.submit (.ofNat 1) (.ofNat 2) (.ofNat 3) (some (.ofNat 8)) "first" "baseline" 0 (.ofNat 5)) ::
    sampleCommit firstAnalysis (documentArtifactKey firstAnalysis "a") 10 ++
  .job (.submit (.ofNat 1) (.ofNat 2) (.ofNat 3) (some (.ofNat 9)) "second" "baseline" 0
      (.ofNat 6)) ::
    sampleCommit secondAnalysis (documentArtifactKey secondAnalysis "b") 20

/-- The comparison of the two versions is a job of the second one. -/
def sampleComparisonRun : List HistoryEvent :=
  .job (.submitComparison (.ofNat 1) (.ofNat 2) (.ofNat 3) (some (.ofNat 8)) (some (.ofNat 9))
      "compare" "v1" 30 (.ofNat 20) (.ofNat 7)) ::
    sampleCommit (sampleClaimOf 7 versionComparisonProfile "two" "b" 30)
      (comparisonArtifactKey (.ofNat 20)) 30

theorem run_readsAnalyses_iff_sample :
    meetsAlong historyStep (fun h event => (historyStep h event).ReadsAnalyses) unsubmittedHistory
      sampleAnalyses :=
  (run_readsAnalyses_iff unsubmittedHistory_initial sampleAnalyses).mpr (by decide +kernel)

/-- Whatever is submitted and completed, comparisons read analyses. -/
def AlwaysReadsAnalyses : Prop :=
  ∀ (h : History) (events : List HistoryEvent), h.Initial → (run historyStep h events).ReadsAnalyses

/-- The tables after the comparison -/
def comparedHistory : History :=
  run historyStep unsubmittedHistory (sampleAnalyses ++ sampleComparisonRun)

/-- The comparison is what is read for its version. -/
theorem comparedHistory_reads :
    comparedHistory.world.db.AnalysedVersion (.ofNat 9) ∧
      artifactKeyForVersion comparedHistory.world.db comparedHistory.artifacts (.ofNat 9) =
        .ok (comparisonArtifactKey (.ofNat 20)) ∧
      (∀ artifact ∈ comparedHistory.artifacts,
        artifact.row.artifactKey = comparisonArtifactKey (.ofNat 20) →
          artifact.row.jobId = .ofNat 7) ∧
      ∀ face ∈ comparedHistory.world.db.faces, face.id = .ofNat 7 → ¬ IsAnalysis face.profile := by
  decide +kernel

theorem not_alwaysReadsAnalyses : ¬ AlwaysReadsAnalyses := by
  intro always
  obtain ⟨analysed, read, other, kind⟩ := comparedHistory_reads
  obtain ⟨face, member, done, analysis, artifact, stored, own, key⟩ :=
    always unsubmittedHistory (sampleAnalyses ++ sampleComparisonRun) unsubmittedHistory_initial
      (.ofNat 9) analysed
  have found := read.symm.trans key
  exact kind face member (own.symm.trans (other artifact stored (Except.ok.inj found).symm)) analysis

end AgreementIntelligence.Agreements
