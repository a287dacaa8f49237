import AgreementIntelligence.Evidence.Chunks
import AgreementIntelligence.Indexing.Configurations
import AgreementIntelligence.Indexing.Tables

/-! The sink that chunks an analysed document when its job has completed, and makes the build of the
document's source the active one of the agreement. -/

namespace AgreementIntelligence.Indexing
open Identity Lib Lib.Json Lib.Results Agreements Evidence

variable {φ : Type}

/-- The object under a key, with what `json.loads` makes of it; `none` inside is text that is no
JSON. -/
abbrev ArtifactStorage (φ : Type) := String → Option (Option (Json φ))

def manifestFromArtifact (storage : ArtifactStorage φ) (key : String) :
    Except Raised (List (String × Json φ)) :=
  match storage key with
  | none => .error (.valueError "Canonical analysis artifact is unavailable")
  | some none => .error (.valueError "JSONDecodeError")
  | some (some (.object manifest)) => .ok manifest
  | some (some _) => .error (.valueError "Canonical analysis artifact must be an object")

/-- A job in its tenant, as the sink writes it into its rows. -/
structure IndexScope where
  organizationId : Uuid
  workspaceId : Uuid
  agreementId : Uuid
  deriving DecidableEq, Repr

def RetrievalIndexBuild.InScope (build : RetrievalIndexBuild) (at_ : IndexScope) : Prop :=
  build.organizationId = at_.organizationId ∧ build.workspaceId = at_.workspaceId ∧
    build.agreementId = at_.agreementId

instance (build : RetrievalIndexBuild) (at_ : IndexScope) : Decidable (build.InScope at_) :=
  inferInstanceAs (Decidable (_ ∧ _))

/-- `uq_retrieval_index_build_source` -/
def RetrievalIndexBuild.source (build : RetrievalIndexBuild) : Uuid × String × String :=
  (build.agreementId, build.sourceChecksum, build.chunkerVersion)

/-- The build of a source that `completed` looks up. -/
def buildOf (builds : Keyed RetrievalIndexBuild.id) (at_ : IndexScope) (checksum : String) :
    Option RetrievalIndexBuild :=
  builds.rows.find? fun build => build.InScope at_ ∧ build.sourceChecksum = checksum ∧
    build.chunkerVersion = structureAwareChunkerVersion

/-- The rows of the chunks of a build. -/
def chunkRow (at_ : IndexScope) (buildId : Uuid) (checksum : String) (chunk : RetrievalChunk) :
    RetrievalChunkRow where
  chunkId := chunk.chunkId
  organizationId := at_.organizationId
  workspaceId := at_.workspaceId
  agreementId := at_.agreementId
  buildId := buildId
  sourceChecksum := checksum
  chunkerVersion := structureAwareChunkerVersion
  ordinal := chunk.ordinal
  headingPath := chunk.headingPath
  anchorIds := chunk.anchorIds
  content := chunk.text

def newBuild (at_ : IndexScope) (buildId : Uuid) (checksum : String) : RetrievalIndexBuild where
  id := buildId
  organizationId := at_.organizationId
  workspaceId := at_.workspaceId
  agreementId := at_.agreementId
  sourceChecksum := checksum
  chunkerVersion := structureAwareChunkerVersion
  state := .building

/-- The insert of a new build, with the two unique indexes of its table. -/
def insertBuild (builds : Keyed RetrievalIndexBuild.id) (at_ : IndexScope) (buildId : Uuid)
    (checksum : String) : Except Raised (Keyed RetrievalIndexBuild.id) :=
  let build := newBuild at_ buildId checksum
  if ∃ other ∈ builds.rows, other.source = build.source then .error .integrityError
  else match builds.insert build with
  | none => .error .integrityError
  | some builds => .ok builds

/-- `DELETE FROM retrieval_chunks`, which the embeddings of the chunks prevent. -/
def deleteChunks (tables : IndexTables φ) (hit : RetrievalChunkRow → Prop) [DecidablePred hit] :
    Except Raised (IndexTables φ) :=
  if ∃ chunk ∈ tables.chunks.rows, hit chunk ∧
      ∃ embedding ∈ tables.embeddings.rows, embedding.chunk = chunk.key then
    .error .integrityError
  else .ok { tables with chunks := tables.chunks.delete hit }

def insertEach (chunks : Keyed RetrievalChunkRow.key) :
    List RetrievalChunkRow → Except Raised (Keyed RetrievalChunkRow.key)
  | [] => .ok chunks
  | row :: rest =>
    match chunks.insert row with
    | none => .error .integrityError
    | some chunks => insertEach chunks rest

/-- The insert of all chunks; without rows it would be an insert of columns that are all null. -/
def insertChunks (tables : IndexTables φ) (rows : List RetrievalChunkRow) :
    Except Raised (IndexTables φ) :=
  if rows = [] then .error .integrityError
  else do
    let chunks ← insertEach tables.chunks rows
    .ok { tables with chunks := chunks }

/-- The other active builds of the agreement. -/
def staleIds (builds : Keyed RetrievalIndexBuild.id) (at_ : IndexScope) (buildId : Uuid) : List Uuid :=
  (builds.rows.filter fun build => build.InScope at_ ∧ build.state = .active ∧
    build.id ≠ buildId).map (·.id)

def markStale (builds : Keyed RetrievalIndexBuild.id) (ids : List Uuid) :
    Keyed RetrievalIndexBuild.id :=
  builds.updateWhere (·.id ∈ ids) (fun build => { build with state := .stale }) fun _ => rfl

/-- The update that activates a build, with `uq_retrieval_index_builds_active_scope`. -/
def markActive (builds : Keyed RetrievalIndexBuild.id) (at_ : IndexScope) (buildId : Uuid) :
    Except Raised (Keyed RetrievalIndexBuild.id) :=
  if ∃ other ∈ builds.rows, other.InScope at_ ∧ other.state = .active ∧ other.id ≠ buildId then
    .error .integrityError
  else .ok (builds.updateWhere (·.id = buildId) (fun build => { build with state := .active })
    fun _ => rfl)

/-- The end of `completed`: the chunks are stored, the build takes the place of the active one, and
what belongs to the stale builds goes. -/
def activate (tables : IndexTables φ) (at_ : IndexScope) (buildId : Uuid) (checksum : String)
    (chunks : List RetrievalChunk) : Except Raised (IndexTables φ) := do
  let stored ← insertChunks tables (chunks.map (chunkRow at_ buildId checksum))
  let stale := staleIds stored.builds at_ buildId
  let builds ← markActive (markStale stored.builds stale) at_ buildId
  deleteChunks { stored with
    builds := builds
    embeddings := stored.embeddings.delete (·.buildId ∈ stale) } (·.buildId ∈ stale)

/-- The transaction of `completed`, once the agreement is locked; `newId` is the uuid4 of a new
build. -/
def indexSource (tables : IndexTables φ) (at_ : IndexScope) (checksum : String)
    (chunks : List RetrievalChunk) (newId : Uuid) : Except Raised (IndexTables φ) :=
  match buildOf tables.builds at_ checksum with
  | some build =>
    if build.state = .active then .ok tables
    else do
      let cleared ← deleteChunks tables (·.buildId = build.id)
      activate cleared at_ build.id checksum chunks
  | none => do
    let builds ← insertBuild tables.builds at_ newId checksum
    activate { tables with builds := builds } at_ newId checksum chunks

/-- What `completed` reads from the artifact before its transaction. -/
def analysed (storage : ArtifactStorage φ) (artifactKey : String) :
    Except Raised (String × List RetrievalChunk) := do
  let manifest ← manifestFromArtifact storage artifactKey
  let checksum ← (sourceChecksum manifest).mapError .valueError
  let chunks ← (structuralChunksFromManifest manifest).mapError .valueError
  .ok (checksum, chunks)

/-- `SQLAlchemyDocumentIndexSink.completed` -/
def documentCompleted (storage : ArtifactStorage φ) (tables : IndexTables φ) (job : CompletedJob)
    (artifactKey : String) (newId : Uuid) : Except Raised (IndexTables φ) :=
  match job.organizationId, job.workspaceId with
  | some organizationId, some workspaceId => do
    let (checksum, chunks) ← analysed storage artifactKey
    if lockActiveAgreement tables.agreements job.agreementId organizationId workspaceId then
      indexSource tables ⟨organizationId, workspaceId, job.agreementId⟩ checksum chunks newId
    else .ok tables
  | _, _ => .error (.valueError "Document index requires tenant scope")

end AgreementIntelligence.Indexing
