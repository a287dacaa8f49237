import AgreementIntelligence.Agreements.VersionArtifacts

/-! The artifact that playbook evaluation, the analysis view and the citation tool read of an
agreement: the newest artifact of a completed job, of whatever kind. A comparison stores an
artifact of its own, so an analysis is read in the runs in which every comparison is completed
before the newest analysis. -/

namespace AgreementIntelligence.Agreements
open Identity Lib.Runs Lib.Text Lib.Leaders

def DatedArtifact.scope (artifact : DatedArtifact) : Scope :=
  ⟨artifact.row.agreementId, artifact.row.organizationId, artifact.row.workspaceId⟩

def JobFace.scope (face : JobFace) : Scope :=
  ⟨face.agreementId, face.organizationId, face.workspaceId⟩

/-! Three queries -/

/-- The artifacts of the agreement, joined with completed jobs of the workspace. The rows come in
the order in which the table is read. -/
def joinedArtifacts (db : Database) (artifacts : List DatedArtifact) (scope : Scope) :
    List DatedArtifact :=
  artifacts.filter fun artifact => artifact.row.agreementId = scope.agreementId ∧
    db.jobs.any fun job => job.id = artifact.row.jobId ∧
      job.organizationId = scope.organizationId ∧ job.workspaceId = scope.workspaceId ∧
      job.state = .completed

/-- `PlaybookEvaluationService._completed_artifact` -/
def completedArtifact (db : Database) (artifacts : List DatedArtifact) (scope : Scope) :
    Option (Uuid × String) :=
  (first (·.createdAt) (joinedArtifacts db artifacts scope)).map fun artifact =>
    (artifact.row.jobId, artifact.row.artifactKey)

/-- The query of `get_document_analysis` -/
def documentAnalysisKey (db : Database) (artifacts : List DatedArtifact) (scope : Scope)
    (processingJobId : Option Uuid) : Option String :=
  (first (·.createdAt) ((joinedArtifacts db artifacts scope).filter fun artifact =>
    ∀ jobId ∈ processingJobId, artifact.row.jobId = jobId)).map (·.row.artifactKey)

/-- `_completed_artifact_key` of the citation tool -/
def completedArtifactKey (db : Database) (artifacts : List DatedArtifact) (scope : Scope) :
    Option String :=
  (first (·.createdAt) (joinedArtifacts db artifacts scope)).map (·.row.artifactKey)

/-- An analysis of the agreement has been completed. -/
def Database.AnalysedAgreement (db : Database) (scope : Scope) : Prop :=
  ∃ face ∈ db.faces, face.state = .completed ∧ face.scope = scope ∧ IsAnalysis face.profile

instance (db : Database) (scope : Scope) : Decidable (db.AnalysedAgreement scope) := by
  unfold Database.AnalysedAgreement
  infer_instance

/-- The artifact is one that a completed analysis of the agreement has stored. -/
def Database.AnalysisOf (db : Database) (scope : Scope) (artifact : DatedArtifact) : Prop :=
  ∃ face ∈ db.faces, face.state = .completed ∧ face.scope = scope ∧ IsAnalysis face.profile ∧
    face.id = artifact.row.jobId

instance (db : Database) (scope : Scope) (artifact : DatedArtifact) :
    Decidable (db.AnalysisOf scope artifact) := by
  unfold Database.AnalysisOf
  infer_instance

/-- For each agreement with a completed analysis, and in whatever order the table is read, all
three queries return an artifact of a completed analysis. -/
def History.ViewsAnalyses (h : History) : Prop :=
  ∀ scope, h.world.db.AnalysedAgreement scope → ∀ scanned : List DatedArtifact,
    scanned.Perm h.artifacts → ∃ artifact ∈ h.artifacts, h.world.db.AnalysisOf scope artifact ∧
      completedArtifact h.world.db scanned scope =
        some (artifact.row.jobId, artifact.row.artifactKey) ∧
      documentAnalysisKey h.world.db scanned scope none = some artifact.row.artifactKey ∧
      completedArtifactKey h.world.db scanned scope = some artifact.row.artifactKey

/-- A step completes no comparison of an analysed agreement, unless an artifact of an analysis
has a later date; and the first analysis of an agreement that it completes gets a later date than
the artifacts that are there. -/
def SparesViews (h : History) (event : HistoryEvent) : Prop :=
  ∀ triple ∈ event.completes? h.world,
    (IsAnalysis triple.1.profile → h.world.db.AnalysedAgreement triple.1.face.scope ∨
      ∀ artifact ∈ h.artifacts, artifact.scope = triple.1.face.scope →
        artifact.createdAt < triple.2.2) ∧
    (triple.1.profile = versionComparisonProfile →
      h.world.db.AnalysedAgreement triple.1.face.scope →
        ∃ artifact ∈ h.artifacts, h.world.db.AnalysisOf triple.1.face.scope artifact ∧
          triple.2.2 < artifact.createdAt)

instance (h : History) (event : HistoryEvent) : Decidable (SparesViews h event) := by
  unfold SparesViews
  infer_instance

/-! What is read, and what leads -/

/-- The artifacts of an agreement -/
def History.storedIn (h : History) (scope : Scope) : Set DatedArtifact :=
  {artifact ∈ h.stored | artifact.scope = scope}

/-- The artifacts with the key of an analysis -/
def analysisKeys : Set DatedArtifact :=
  {artifact | startsWith artifact.row.artifactKey "tenants/" = true}

theorem KeyFits.analysis_iff {profile key : String} (fits : KeyFits profile key)
    (kept : startsWith profile embeddingReindexProfilePrefix = false) :
    startsWith key "tenants/" = true ↔ IsAnalysis profile := by
  refine ⟨fun starts => ⟨kept, fun comparison => ?_⟩, fits.analysis⟩
  have apart := @startsWith_disjoint _ _ "comparisons/" starts (by decide)
  rw [fits.comparison comparison] at apart
  cases apart

/-- The job of an artifact, with what the artifact has of it -/
theorem History.Sound.job_of {h : History} (sound : h.Sound) {artifact : DatedArtifact}
    (member : artifact ∈ h.stored) : ∃ face ∈ h.world.db.faces, face.state = .completed ∧
      face.id = artifact.row.jobId ∧ face.scope = artifact.scope ∧
      (artifact ∈ analysisKeys ↔ IsAnalysis face.profile) := by
  obtain ⟨face, ⟨there, done⟩, kept, row, fits⟩ := sound.owner member
  refine ⟨face, there, done, by rw [row]; rfl, ?_, fits.analysis_iff kept⟩
  rw [DatedArtifact.scope, row]
  rfl

theorem analysisOf_iff {h : History} (sound : h.Sound) {artifact : DatedArtifact}
    (member : artifact ∈ h.stored) (scope : Scope) :
    h.world.db.AnalysisOf scope artifact ↔ artifact ∈ h.storedIn scope ∩ analysisKeys := by
  obtain ⟨face, there, done, id, same, kind⟩ := sound.job_of member
  constructor
  · rintro ⟨other, present, -, inside, analysis, named⟩
    have alike : other = face := sound.face_inj present there (named.trans id.symm)
    subst alike
    exact ⟨⟨member, same.symm.trans inside⟩, kind.mpr analysis⟩
  · rintro ⟨⟨-, inside⟩, wanted⟩
    exact ⟨face, there, done, same.trans inside, kind.mp wanted, id⟩

theorem analysedAgreement_iff {h : History} (sound : h.Sound) (scope : Scope) :
    h.world.db.AnalysedAgreement scope ↔ (h.storedIn scope ∩ analysisKeys).Nonempty := by
  constructor
  · rintro ⟨face, there, done, inside, analysis⟩
    obtain ⟨artifact, member, own⟩ := sound.product ⟨there, done⟩ analysis.1
    exact ⟨artifact, (analysisOf_iff sound member scope).mp
      ⟨face, there, done, inside, analysis, own.symm⟩⟩
  · rintro ⟨artifact, inside⟩
    obtain ⟨face, there, done, same, analysis, -⟩ :=
      (analysisOf_iff sound inside.1.1 scope).mpr inside
    exact ⟨face, there, done, same, analysis⟩

theorem mem_joinedArtifacts {h : History} (sound : h.Sound) {scanned : List DatedArtifact}
    (perm : scanned.Perm h.artifacts) {scope : Scope} {artifact : DatedArtifact} :
    artifact ∈ joinedArtifacts h.world.db scanned scope ↔ artifact ∈ h.storedIn scope := by
  simp only [joinedArtifacts, List.mem_filter, decide_eq_true_eq, List.any_eq_true,
    perm.mem_iff]
  constructor
  · rintro ⟨member, agreement, job, present, named, organization, workspace, -⟩
    obtain ⟨face, there, -, id, same, -⟩ := sound.job_of member
    have own : job.face ∈ h.world.db.faces := List.mem_map_of_mem present
    have alike : job.face = face := sound.face_inj own there (named.trans id.symm)
    refine ⟨member, ?_⟩
    rw [← same, ← alike]
    have owner : job.agreementId = artifact.row.agreementId :=
      congrArg Scope.agreementId ((congrArg JobFace.scope alike).trans same)
    exact congr (congr (congrArg Scope.mk (owner.trans agreement)) organization) workspace
  · rintro ⟨member, inside⟩
    obtain ⟨face, there, done, id, same, -⟩ := sound.job_of member
    obtain ⟨job, present, rfl⟩ := List.mem_map.mp there
    refine ⟨member, congrArg Scope.agreementId inside, job, present, id, ?_, ?_, done⟩
    · exact congrArg Scope.organizationId (same.trans inside)
    · exact congrArg Scope.workspaceId (same.trans inside)

theorem viewsAnalyses_iff {h : History} (sound : h.Sound) :
    h.ViewsAnalyses ↔ ∀ scope, Leads analysisKeys (·.createdAt) (h.storedIn scope) := by
  refine forall_congr' fun scope => ?_
  have joined {scanned : List DatedArtifact} (perm : scanned.Perm h.artifacts)
      (artifact : DatedArtifact) := @mem_joinedArtifacts h sound scanned perm scope artifact
  have rows : h.storedIn scope =
      {artifact | artifact ∈ joinedArtifacts h.world.db h.artifacts scope} := by
    ext artifact
    exact (joined (List.Perm.refl _) artifact).symm
  have analysed : h.world.db.AnalysedAgreement scope ↔
      ∃ artifact ∈ joinedArtifacts h.world.db h.artifacts scope, artifact ∈ analysisKeys := by
    rw [analysedAgreement_iff sound, rows]
    rfl
  rw [rows, joinedArtifacts, leads_iff_first_where, ← joinedArtifacts, ← analysed]
  refine imp_congr_right fun _ => forall_congr' fun scanned => imp_congr_right fun perm => ?_
  rw [← joinedArtifacts]
  constructor
  · rintro ⟨artifact, member, analysis, completed, -, -⟩
    obtain ⟨found, newest, same⟩ := Option.map_eq_some_iff.mp completed
    have inside := (joined perm found).mp (first_greatest newest).1
    have alike : found = artifact :=
      sound.single found inside.1 artifact member (congrArg Prod.fst same)
    subst alike
    exact ⟨found, (joined (List.Perm.refl _) found).mpr inside,
      ((analysisOf_iff sound member scope).mp analysis).2, newest⟩
  · rintro ⟨artifact, member, wanted, newest⟩
    have inside := (joined (List.Perm.refl _) artifact).mp member
    have all : (joinedArtifacts h.world.db scanned scope).filter (fun artifact =>
        ∀ jobId ∈ (none : Option Uuid), artifact.row.jobId = jobId) =
          joinedArtifacts h.world.db scanned scope := by
      simp
    refine ⟨artifact, inside.1, (analysisOf_iff sound inside.1 scope).mpr ⟨inside, wanted⟩,
      ?_, ?_, ?_⟩
    · rw [completedArtifact, newest]
      rfl
    · rw [documentAnalysisKey, all, newest]
      rfl
    · rw [completedArtifactKey, newest]
      rfl

/-! Runs -/

theorem sparesViews_iff {h : History} (sound : h.Sound) {event : HistoryEvent}
    {job : ProcessingJobRecord} {artifact : CompletedArtifact} {now : Time}
    (fits : KeyFits job.profile artifact.key)
    (completes : event.completes? h.world = some (job, artifact, now)) :
    SparesViews h event ↔ (startsWith job.profile embeddingReindexProfilePrefix = false →
      MayJoin analysisKeys (·.createdAt) (h.storedIn job.face.scope)
        ⟨job.face.artifact artifact.key, now⟩) := by
  have lower : (∀ artifact ∈ h.artifacts, artifact.scope = job.face.scope →
      artifact.createdAt < now) ↔ ∀ other ∈ h.storedIn job.face.scope, other.createdAt < now := by
    simp only [History.storedIn, Set.mem_ofPred_eq, and_imp]
    rfl
  have above : (∃ artifact ∈ h.artifacts, h.world.db.AnalysisOf job.face.scope artifact ∧
      now < artifact.createdAt) ↔
        ∃ lead ∈ h.storedIn job.face.scope ∩ analysisKeys, now < lead.createdAt := by
    constructor
    · rintro ⟨lead, member, analysis, later⟩
      exact ⟨lead, (analysisOf_iff sound member _).mp analysis, later⟩
    · rintro ⟨lead, inside, later⟩
      exact ⟨lead, inside.1.1, (analysisOf_iff sound inside.1.1 _).mpr inside, later⟩
  simp only [SparesViews, completes, Option.mem_some_iff, forall_eq', lower, above,
    analysedAgreement_iff sound]
  by_cases reindex : startsWith job.profile embeddingReindexProfilePrefix = true
  · have analysis : ¬ IsAnalysis job.profile := fun kind => by simp [kind.1] at reindex
    have comparison : job.profile ≠ versionComparisonProfile := by
      intro same
      rw [same] at reindex
      exact absurd reindex (by decide)
    simp [reindex, analysis, comparison]
  · have kept : startsWith job.profile embeddingReindexProfilePrefix = false :=
      Bool.not_eq_true _ ▸ reindex
    have wanted : (⟨job.face.artifact artifact.key, now⟩ : DatedArtifact) ∈ analysisKeys ↔
        IsAnalysis job.profile := fits.analysis_iff kept
    have other : job.profile = versionComparisonProfile ↔ ¬ IsAnalysis job.profile := by
      simp [IsAnalysis, kept]
    simp only [MayJoin, wanted, kept, other, forall_const]

theorem storedIn_inserted {h next : History} {artifact : DatedArtifact}
    (stored : next.stored = insert artifact h.stored) (scope : Scope) :
    next.storedIn scope =
      if artifact.scope = scope then insert artifact (h.storedIn scope) else h.storedIn scope := by
  ext other
  simp only [History.storedIn, stored, Set.mem_insert_iff, Set.mem_ofPred_eq]
  split
  · next inside =>
      simp only [Set.mem_insert_iff, Set.mem_ofPred_eq]
      grind
  · next apart =>
      simp only [Set.mem_ofPred_eq]
      grind

/-- A purge takes all the artifacts of an agreement or none. -/
theorem storedIn_purged {h next : History} {agreementId : Uuid}
    (stored : next.stored = {artifact ∈ h.stored | artifact.row.agreementId ≠ agreementId})
    (scope : Scope) : next.storedIn scope =
      if scope.agreementId = agreementId then ∅ else h.storedIn scope := by
  have named {artifact : DatedArtifact} (inside : artifact.scope = scope) :
      artifact.row.agreementId = scope.agreementId := congrArg Scope.agreementId inside
  ext artifact
  simp only [History.storedIn, stored, Set.mem_ofPred_eq]
  split
  · next gone =>
      simp only [Set.mem_empty_iff_false, iff_false]
      rintro ⟨⟨-, elsewhere⟩, inside⟩
      exact elsewhere ((named inside).trans gone)
  · next apart =>
      simp only [Set.mem_ofPred_eq]
      exact ⟨fun ⟨⟨old, _⟩, inside⟩ => ⟨old, inside⟩,
        fun ⟨old, inside⟩ => ⟨⟨old, fun same => apart ((named inside).symm.trans same)⟩, inside⟩⟩

theorem historyStep_viewsAnalyses_iff {h : History} (sound : h.Sound) (views : h.ViewsAnalyses)
    (event : HistoryEvent) :
    (historyStep h event).ViewsAnalyses ↔ SparesViews h event := by
  have leads := (viewsAnalyses_iff sound).mp views
  rw [viewsAnalyses_iff (historyStep_sound sound event)]
  have moves := historyStep_moves sound event
  cases completes : event.completes? h.world with
  | none =>
      have idle : SparesViews h event := by
        intro triple completed
        rw [completes] at completed
        cases completed
      refine iff_of_true (fun scope => ?_) idle
      rw [completes] at moves
      cases moves with
      | same finished stored =>
          rw [History.storedIn, stored]
          exact leads scope
      | purged agreementId finished stored =>
          rw [storedIn_purged stored scope]
          split
          · exact leads_empty
          · exact leads scope
  | some triple =>
      obtain ⟨job, artifact, now⟩ := triple
      rw [completes] at moves
      cases moves with
      | completed unfinished fits finished stored =>
          rw [sparesViews_iff sound fits completes]
          by_cases reindex : startsWith job.profile embeddingReindexProfilePrefix = true
          · rw [if_pos reindex] at stored
            refine iff_of_true (fun scope => ?_) fun kept => nomatch reindex.symm.trans kept
            rw [History.storedIn, stored]
            exact leads scope
          · rw [if_neg reindex] at stored
            rw [forall_prop_of_true (Bool.not_eq_true _ ▸ reindex)]
            constructor
            · intro after
              have here := after job.face.scope
              have inside : (⟨job.face.artifact artifact.key, now⟩ : DatedArtifact).scope =
                  job.face.scope := rfl
              rwa [storedIn_inserted stored, if_pos inside, leads_insert_iff (leads _)] at here
            · intro joins scope
              rw [storedIn_inserted stored]
              split
              · next same =>
                  subst same
                  exact (leads_insert_iff (leads _) _).mpr joins
              · exact leads scope

/-- The three queries return analyses along exactly the runs whose steps all spare them. -/
theorem run_viewsAnalyses_iff {h : History} (initial : h.Initial) (events : List HistoryEvent) :
    meetsAlong historyStep (fun h event => (historyStep h event).ViewsAnalyses) h events ↔
      meetsAlong historyStep SparesViews h events := by
  refine meetsAlong_congr (P := fun h => h.Sound ∧ h.ViewsAnalyses) (E := fun _ _ => True)
    ⟨initial.sound, ?_⟩ (fun _ _ _ _ => trivial) ?_ ?_
  · rw [viewsAnalyses_iff initial.sound]
    intro scope some_
    obtain ⟨artifact, ⟨member, -⟩, -⟩ := some_
    simp [History.stored, initial.artifacts] at member
  · rintro h event ⟨sound, views⟩ -
    exact historyStep_viewsAnalyses_iff sound views event
  · rintro h event ⟨sound, -⟩ - right
    exact ⟨historyStep_sound sound event, right⟩

/-! An agreement is analysed twice and then compared. -/

theorem run_viewsAnalyses_iff_sample :
    meetsAlong historyStep (fun h event => (historyStep h event).ViewsAnalyses)
      unsubmittedHistory sampleAnalyses :=
  (run_viewsAnalyses_iff unsubmittedHistory_initial sampleAnalyses).mpr (by decide +kernel)

/-- Whatever is submitted and completed, the three queries return analyses. -/
def AlwaysViewsAnalyses : Prop :=
  ∀ (h : History) (events : List HistoryEvent), h.Initial → (run historyStep h events).ViewsAnalyses

/-- The comparison is what is viewed of the agreement. -/
theorem comparedHistory_views :
    comparedHistory.world.db.AnalysedAgreement ⟨.ofNat 3, .ofNat 1, .ofNat 2⟩ ∧
      completedArtifact comparedHistory.world.db comparedHistory.artifacts
          ⟨.ofNat 3, .ofNat 1, .ofNat 2⟩ =
        some (.ofNat 7, comparisonArtifactKey (.ofNat 20)) := by
  decide +kernel

theorem not_alwaysViewsAnalyses : ¬ AlwaysViewsAnalyses := by
  intro always
  obtain ⟨analysed, read⟩ := comparedHistory_views
  obtain ⟨-, -, -, kind⟩ := comparedHistory_reads
  obtain ⟨artifact, -, ⟨face, member, -, -, analysis, own⟩, completed, -⟩ :=
    always unsubmittedHistory (sampleAnalyses ++ sampleComparisonRun) unsubmittedHistory_initial
      ⟨.ofNat 3, .ofNat 1, .ofNat 2⟩ analysed _ (List.Perm.refl _)
  have found := read.symm.trans completed
  exact kind face member (own.trans (congrArg Prod.fst (Option.some.inj found)).symm) analysis

end AgreementIntelligence.Agreements
