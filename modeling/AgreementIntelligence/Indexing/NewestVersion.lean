import AgreementIntelligence.Indexing.Activation
import AgreementIntelligence.Lib.Runs
import Mathlib.Data.Finset.Max

/-! Which runs of the completion handlers keep the active build on the newest analysed version. The
document sink activates the source it is handed, so the index follows the newest version exactly when
the handler runs of older versions, late ones and repeated ones, are none. -/

namespace AgreementIntelligence.Indexing
open Identity Lib Lib.Json Lib.Results Lib.Runs Agreements Evidence

variable {φ : Type} {storage : ArtifactStorage φ} {tables : IndexTables φ}

/-- The versions of agreements, with the unique indexes of their table. -/
structure VersionTable where
  rows : List AgreementVersionRecord
  numbers : (rows.map fun version => (version.agreementId, version.versionNumber)).Nodup
  checksums : (rows.map fun version => (version.agreementId, version.checksum)).Nodup

/-- The analysis job of a version, with the artifact of it. -/
structure AnalysisJob where
  version : AgreementVersionRecord
  artifactKey : String
  deriving DecidableEq, Repr

def AnalysisJob.completedJob (job : AnalysisJob) : CompletedJob where
  agreementId := job.version.agreementId
  organizationId := some job.version.organizationId
  workspaceId := some job.version.workspaceId
  profile := some "standard"

/-- `value == text`, for the text of a column. -/
def isText (value : Json φ) (text : String) : Bool :=
  match value with
  | .string other => other = text
  | _ => false

/-- `DocumentUnderstandingProcessor.finalize` accepts the artifact. -/
def finalizes (storage : ArtifactStorage φ) (job : AnalysisJob) : Bool :=
  match storage job.artifactKey with
  | some (some (.object manifest)) =>
    isText (get manifest "schema_version") "document-analysis.v1" &&
      match get manifest "source" with
      | .object source => isText (get source "checksum") job.version.checksum &&
        isText (get source "storage_key") job.version.storageKey
      | _ => false
  | _ => false

structure IndexWorld (φ : Type) where
  index : IndexTables φ
  completedJobs : List AnalysisJob

/-- `commit` is the end of `commit_prepared` for an analysis job; `completed` is a run of the
document sink for it, the first one or that of a later delivery, with the uuid4 it draws. -/
inductive IndexEvent (φ : Type) where
  | commit (job : AnalysisJob)
  | completed (job : AnalysisJob) (newId : Uuid)
  | embedded (sink : EmbeddingSink φ) (job : CompletedJob)
  | acceptDeletion (agreementId : Uuid) (now : Time)

def lockedBy (tables : IndexTables φ) (version : AgreementVersionRecord) : Bool :=
  lockActiveAgreement tables.agreements version.agreementId version.organizationId
    version.workspaceId

def deletionRequested (agreements : Keyed AgreementRecord.id) (agreementId : Uuid) (now : Time) :
    Keyed AgreementRecord.id :=
  agreements.updateWhere (·.id = agreementId)
    (fun agreement => { agreement with deletionRequestedAt := some now }) fun _ => rfl

def step (storage : ArtifactStorage φ) (versions : VersionTable) (world : IndexWorld φ) :
    IndexEvent φ → IndexWorld φ
  | .commit job =>
    if job.version ∈ versions.rows ∧ lockedBy world.index job.version ∧ finalizes storage job then
      { world with completedJobs := world.completedJobs ++ [job] }
    else world
  | .completed job newId =>
    if job ∈ world.completedJobs then
      match documentCompleted storage world.index job.completedJob job.artifactKey newId with
      | .ok index => { world with index := index }
      | .error _ => world
    else world
  | .embedded sink job =>
    { world with index := { world.index with embeddings := (runSink sink world.index job).1 } }
  | .acceptDeletion agreementId now =>
    { world with index := { world.index with
      agreements := deletionRequested world.index.agreements agreementId now } }

/-- Agreements of which nothing has been analysed. -/
def unindexed (agreements : Keyed AgreementRecord.id) : IndexWorld φ where
  index := ⟨agreements, Keyed.empty, Keyed.empty, Keyed.empty⟩
  completedJobs := []

/-- The job is of the highest-numbered version of its agreement that has been analysed. -/
def IndexWorld.Newest (world : IndexWorld φ) (job : AnalysisJob) : Prop :=
  job ∈ world.completedJobs ∧ ∀ other ∈ world.completedJobs,
    other.version.agreementId = job.version.agreementId →
    other.version.versionNumber ≤ job.version.versionNumber

instance (world : IndexWorld φ) (job : AnalysisJob) : Decidable (world.Newest job) :=
  inferInstanceAs (Decidable (_ ∧ _))

/-- The agreement has at most one active build, which is that of its newest analysed version. -/
def IndexWorld.FollowsNewest (world : IndexWorld φ) (agreementId : Uuid) : Prop :=
  (activeBuilds world.index agreementId).length ≤ 1 ∧ ∀ job ∈ world.completedJobs,
    job.version.agreementId = agreementId → world.Newest job →
    (activeBuilds world.index agreementId).map (·.sourceChecksum) = [job.version.checksum]

instance (world : IndexWorld φ) (agreementId : Uuid) : Decidable (world.FollowsNewest agreementId) :=
  inferInstanceAs (Decidable (_ ∧ _))

/-- A run of the sink for the job leaves the index as it is: the artifact cannot be read, the agreement
is being deleted, or the source is refused. -/
def Refused (storage : ArtifactStorage φ) (tables : IndexTables φ) (job : AnalysisJob)
    (newId : Uuid) : Prop :=
  match analysed storage job.artifactKey with
  | .error _ => True
  | .ok (checksum, chunks) => lockedBy tables job.version = false ∨
    Blocked tables ⟨job.version.organizationId, job.version.workspaceId, job.version.agreementId⟩
      checksum chunks newId

/-- A handler run is of the newest analysed version; one that is refused finds the build of that
version active. -/
def InOrder (storage : ArtifactStorage φ) (world : IndexWorld φ) : IndexEvent φ → Prop
  | .completed job newId => job ∈ world.completedJobs →
    (Refused storage world.index job newId → world.FollowsNewest job.version.agreementId) ∧
    (¬ Refused storage world.index job newId → world.Newest job)
  | _ => True

/-! What every run keeps -/

/-- The index is lawful, and the artifacts of the completed jobs are those of their versions. -/
structure Sound (storage : ArtifactStorage φ) (versions : VersionTable) (world : IndexWorld φ) :
    Prop where
  lawful : world.index.Lawful
  completed : ∀ job ∈ world.completedJobs, job.version ∈ versions.rows ∧
    finalizes storage job = true

theorem isText_iff {value : Json φ} {text : String} :
    isText value text = true ↔ value = .string text := by
  unfold isText
  split <;> simp_all

/-- The checksum that a run reads from the artifact of a completed job is that of its version. -/
theorem analysed_of_finalizes {job : AnalysisJob} {checksum : String} {chunks : List RetrievalChunk}
    (final : finalizes storage job = true)
    (read : analysed storage job.artifactKey = .ok (checksum, chunks)) :
    checksum = job.version.checksum := by
  obtain ⟨manifest, given, read⟩ := bind_ok.mp read
  obtain ⟨found, sourced, read⟩ := bind_ok.mp read
  obtain ⟨pieces, -, read⟩ := bind_ok.mp read
  cases read
  simp only [manifestFromArtifact] at given
  simp only [finalizes] at final
  split at given <;> cases given
  rename_i stored
  simp only [stored, Bool.and_eq_true] at final
  obtain ⟨-, final⟩ := final
  split at final
  · rename_i source located
    simp only [Bool.and_eq_true, isText_iff] at final
    simp only [sourceChecksum, located, requiredString, final.1] at sourced
    by_cases empty : job.version.checksum = ""
    · simp [empty, Except.mapError] at sourced
    · simpa [empty, Except.mapError] using sourced.symm
  · cases final

/-- What the embedding sink writes is about chunks of the index. -/
theorem mem_runSink {sink : EmbeddingSink φ} {job : CompletedJob} {row : RetrievalChunkEmbedding φ}
    (member : row ∈ (runSink sink tables job).1.rows) :
    row ∈ tables.embeddings.rows ∨ ∃ chunk ∈ tables.chunks.rows, chunk.key = row.chunk := by
  simp only [runSink] at member
  cases ran : completed sink tables job with
  | error raised =>
      rw [ran] at member
      exact .inl member
  | ok session =>
      rw [ran] at member
      simp only [completed] at ran
      split at ran
      · cases ran
      · rename_i job _
        split at ran
        · obtain ⟨active, model, provided, -, -, given, -, done⟩ := embedActive_ok ran
          rcases (replaceProvisions_ok done).1.left row member with ⟨old, -⟩ | new
          · exact .inl old
          · obtain ⟨provision, here, piece, inside, named, -⟩ := mem_newRows new
            have selected : piece ∈ provisionedChunks provided := List.mem_flatMap_of_mem here inside
            rw [provisionedChunks_of_batches sink.configuration.batched (provisions_batches given),
              activeUnembeddedChunks, List.mem_map] at selected
            obtain ⟨chunk, sorted, rfl⟩ := selected
            rw [List.mem_insertionSort] at sorted
            simp only [unembeddedRows, List.mem_filter, decide_eq_true_eq] at sorted
            refine .inr ⟨chunk, sorted.1, ?_⟩
            simp [named, chunkKey, RetrievalChunkRow.key, sorted.2.2.2.2.1]
        · cases ran
          exact .inl member

theorem IndexTables.Lawful.deletionRequested (lawful : tables.Lawful) (agreementId : Uuid)
    (now : Time) : ({ tables with agreements := deletionRequested tables.agreements agreementId now } :
      IndexTables φ).Lawful where
  owned := fun build member => by
    obtain ⟨agreement, held, facts⟩ := lawful.owned build member
    refine ⟨_, List.mem_map_of_mem held, ?_⟩
    split <;> exact facts
  sources := lawful.sources
  oneActive := lawful.oneActive
  chunks := lawful.chunks
  embeddings := lawful.embeddings

variable {versions : VersionTable} {world : IndexWorld φ} {job : AnalysisJob} {newId : Uuid}

/-- What a run of the document sink for a completed job does: nothing when it is refused, and else the
source of the version becomes the active one. -/
theorem completed_outcome (sound : Sound storage versions world) (done : job ∈ world.completedJobs) :
    (Refused storage world.index job newId ∧
      step storage versions world (.completed job newId) = world) ∨
    (¬ Refused storage world.index job newId ∧ ∃ after : IndexTables φ,
      step storage versions world (.completed job newId) = { world with index := after } ∧
      after.Lawful ∧ ∃ build ∈ after.builds.rows, build.agreementId = job.version.agreementId ∧
        build.state = .active ∧ build.sourceChecksum = job.version.checksum) := by
  simp only [step, if_pos done, documentCompleted, AnalysisJob.completedJob]
  cases read : analysed storage job.artifactKey with
  | error raised =>
      refine .inl ⟨?_, ?_⟩
      · simp only [Refused, read]
      · simp only [bind, Except.bind]
  | ok found =>
      obtain ⟨checksum, chunks⟩ := found
      have identified := analysed_of_finalizes (sound.completed job done).2 read
      simp only [bind, Except.bind, Refused, read]
      by_cases locked : lockActiveAgreement world.index.agreements job.version.agreementId
          job.version.organizationId job.version.workspaceId = true
      · have held : lockedBy world.index job.version = true := locked
        simp only [held, locked, ↓reduceIte, Bool.true_eq_false, false_or]
        rcases @indexSource_outcome _ world.index
          ⟨job.version.organizationId, job.version.workspaceId, job.version.agreementId⟩ newId checksum
          chunks sound.lawful (located_of_lock locked) with
          ⟨blocked, raised, failed⟩ | ⟨free, after, passed, lawful, -, build, facts⟩
        · exact .inl ⟨blocked, by rw [failed]⟩
        · refine .inr ⟨free, after, by rw [passed], lawful, build, ?_⟩
          rwa [← identified]
      · refine .inl ⟨.inl (by simpa [lockedBy] using locked), ?_⟩
        simp only [locked, Bool.false_eq_true, ↓reduceIte]

theorem Sound.step (sound : Sound storage versions world) (event : IndexEvent φ) :
    Sound storage versions (step storage versions world event) := by
  cases event with
  | commit job =>
      simp only [Indexing.step]
      split
      · rename_i accepted
        refine ⟨sound.lawful, fun other member => ?_⟩
        rcases List.mem_append.mp member with old | new
        · exact sound.completed other old
        · rw [List.mem_singleton.mp new]
          exact ⟨accepted.1, accepted.2.2⟩
      · exact sound
  | completed job newId =>
      by_cases done : job ∈ world.completedJobs
      · rcases completed_outcome sound done with ⟨-, same⟩ | ⟨-, after, moved, lawful, -⟩
        · rwa [same]
        · rw [moved]
          exact ⟨lawful, sound.completed⟩
      · simp only [Indexing.step, if_neg done]
        exact sound
  | embedded sink job =>
      refine ⟨⟨sound.lawful.owned, sound.lawful.sources, sound.lawful.oneActive, sound.lawful.chunks,
        fun row member => ?_⟩, sound.completed⟩
      rcases mem_runSink member with old | there
      · exact sound.lawful.embeddings row old
      · exact there
  | acceptDeletion agreementId now =>
      exact ⟨sound.lawful.deletionRequested agreementId now, sound.completed⟩

theorem sound_unindexed (agreements : Keyed AgreementRecord.id) :
    Sound storage versions (unindexed agreements : IndexWorld φ) where
  lawful := ⟨nofun, List.nodup_nil, nofun, nofun, nofun⟩
  completed := nofun

/-! The newest version -/

theorem VersionTable.eq_of_number {one two : AgreementVersionRecord} (first : one ∈ versions.rows)
    (second : two ∈ versions.rows) (same : one.agreementId = two.agreementId)
    (alike : one.versionNumber = two.versionNumber) : one = two :=
  List.inj_on_of_nodup_map versions.numbers first second (Prod.ext same alike)

theorem VersionTable.eq_of_checksum {one two : AgreementVersionRecord} (first : one ∈ versions.rows)
    (second : two ∈ versions.rows) (same : one.agreementId = two.agreementId)
    (alike : one.checksum = two.checksum) : one = two :=
  List.inj_on_of_nodup_map versions.checksums first second (Prod.ext same alike)

theorem IndexWorld.exists_newest (done : job ∈ world.completedJobs) :
    ∃ newest, world.Newest newest ∧ newest.version.agreementId = job.version.agreementId := by
  have here : job ∈ (world.completedJobs.filter fun other =>
      other.version.agreementId = job.version.agreementId).toFinset := by
    simpa using done
  obtain ⟨newest, member, greatest⟩ := Finset.exists_max_image _
    (fun other : AnalysisJob => other.version.versionNumber) ⟨job, here⟩
  simp only [List.mem_toFinset, List.mem_filter, decide_eq_true_eq] at member greatest
  exact ⟨newest, ⟨member.1, fun other there same => greatest other ⟨there, same.trans member.2⟩⟩,
    member.2⟩

/-- The build of a version is that of the newest one exactly when the version is the newest. -/
theorem followsNewest_iff (sound : Sound storage versions world) (done : job ∈ world.completedJobs)
    {build : RetrievalIndexBuild} (member : build ∈ world.index.builds.rows)
    (owns : build.agreementId = job.version.agreementId) (active : build.state = .active)
    (sourced : build.sourceChecksum = job.version.checksum) :
    world.FollowsNewest job.version.agreementId ↔ world.Newest job := by
  have whole : activeBuilds world.index job.version.agreementId = [build] :=
    owns ▸ sound.lawful.activeBuilds_eq member active
  constructor
  · rintro ⟨-, follows⟩
    obtain ⟨newest, top, same⟩ := world.exists_newest done
    have checksums := follows newest top.1 same top
    rw [whole, List.map_singleton, List.singleton_inj, sourced] at checksums
    have equal : job.version = newest.version := versions.eq_of_checksum
      (sound.completed job done).1 (sound.completed newest top.1).1 same.symm checksums
    exact ⟨done, fun other there belongs => equal ▸ top.2 other there (equal ▸ belongs)⟩
  · intro top
    refine ⟨by rw [whole]; exact le_rfl, fun newest there same other => ?_⟩
    have up := top.2 newest there same
    have down := other.2 job done same.symm
    have equal : newest.version = job.version := versions.eq_of_number
      (sound.completed newest there).1 (sound.completed job done).1 same (Nat.le_antisymm up down)
    rw [whole, List.map_singleton, sourced, equal]

/-- One handler run: it leaves the newest version's build active exactly when it is in order. -/
theorem completed_followsNewest_iff (sound : Sound storage versions world)
    (done : job ∈ world.completedJobs) :
    (step storage versions world (.completed job newId)).FollowsNewest job.version.agreementId ↔
      InOrder storage world (.completed job newId) := by
  have after := sound.step (.completed job newId)
  rcases @completed_outcome _ _ _ _ _ newId sound done with
    ⟨refused, same⟩ | ⟨passes, index, moved, -, build, member, facts⟩
  · rw [same]
    exact ⟨fun follows _ => ⟨fun _ => follows, fun free => absurd refused free⟩,
      fun inOrder => (inOrder done).1 refused⟩
  · rw [moved] at after ⊢
    rw [followsNewest_iff after done member facts.1 facts.2.1 facts.2.2]
    exact ⟨fun newest _ => ⟨fun refused => absurd refused passes, fun _ => newest⟩,
      fun inOrder => (inOrder done).2 passes⟩

/-- After every handler run of a run the active build is that of the newest analysed version, exactly
when every handler run was in order. -/
theorem run_followsNewest_iff (storage : ArtifactStorage φ) (versions : VersionTable)
    (agreements : Keyed AgreementRecord.id) (inputs : List (IndexEvent φ)) :
    (∀ pre job newId post, inputs = pre ++ .completed job newId :: post →
      job ∈ (run (step storage versions) (unindexed agreements) pre).completedJobs →
      (run (step storage versions) (unindexed agreements)
        (pre ++ [.completed job newId])).FollowsNewest job.version.agreementId) ↔
    meetsAlong (step storage versions) (InOrder storage) (unindexed agreements) inputs := by
  have sound : ∀ pre, Sound storage versions
      (run (step storage versions) (unindexed agreements) pre) := fun pre =>
    run_invariant (Sound storage versions) (sound_unindexed agreements) fun world event kept =>
      kept.step event
  rw [meetsAlong_iff]
  constructor
  · intro follows pre event post split
    cases event with
    | completed job newId =>
        intro done
        have here := follows pre job newId post split done
        rw [run_concat] at here
        exact (completed_followsNewest_iff (sound pre) done).mp here done
    | commit job => trivial
    | embedded sink job => trivial
    | acceptDeletion agreementId now => trivial
  · intro inOrder pre job newId post split done
    rw [run_concat]
    exact (completed_followsNewest_iff (sound pre) done).mpr (inOrder pre _ post split)

/-! The job of the first version is delivered again after the second has been indexed -/

def sampleVersion (number : Nat) (checksum : String) : AgreementVersionRecord where
  id := .ofNat (10 + number)
  agreementId := .ofNat 1
  organizationId := .ofNat 2
  workspaceId := .ofNat 3
  versionNumber := number
  storageKey := checksum
  checksum := checksum
  contentType := "application/pdf"
  processingState := .job .completed
  processingJobId := none
  idempotencyKey := checksum

def sampleVersions : VersionTable where
  rows := [sampleVersion 1 "a", sampleVersion 2 "b"]
  numbers := by decide
  checksums := by decide

/-- The analysis of a document of one word. -/
def sampleManifest (checksum : String) : Json Int :=
  .object [("schema_version", .string "document-analysis.v1"),
    ("source", .object [("checksum", .string checksum), ("storage_key", .string checksum)]),
    ("document", .object [("pages", .array [.object [("blocks",
      .array [.object [("anchor_id", .string "c"), ("text", .string "t")]])]])])]

def sampleArtifacts : ArtifactStorage Int
  | "a" => some (some (sampleManifest "a"))
  | "b" => some (some (sampleManifest "b"))
  | _ => none

def sampleJob (number : Nat) (checksum : String) : AnalysisJob :=
  ⟨sampleVersion number checksum, checksum⟩

def sampleDeliveries : List (IndexEvent Int) :=
  [.commit (sampleJob 1 "a"), .completed (sampleJob 1 "a") (.ofNat 21), .commit (sampleJob 2 "b"),
    .completed (sampleJob 2 "b") (.ofNat 22)]

theorem not_alwaysFollowsNewest : ¬ ∀ (storage : ArtifactStorage Int) versions agreements inputs,
    ∀ pre job newId post, inputs = pre ++ .completed job newId :: post →
      job ∈ (run (step storage versions) (unindexed agreements) pre).completedJobs →
      (run (step storage versions) (unindexed agreements)
        (pre ++ [.completed job newId])).FollowsNewest job.version.agreementId := by
  intro always
  have follows := always sampleArtifacts sampleVersions ⟨[indexedAgreement], by decide⟩ _
    sampleDeliveries (sampleJob 1 "a") (.ofNat 23) [] rfl (by decide +kernel)
  revert follows
  decide +kernel

end AgreementIntelligence.Indexing
