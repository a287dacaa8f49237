import AgreementIntelligence.Agreements.Models
import AgreementIntelligence.Lib.Keyed

/-! The retrieval index of agreements: builds of analysed sources, their chunks and the embeddings
of the chunks. Times and costs, which no query reads, are left out. -/

namespace AgreementIntelligence.Indexing
open Identity Lib Agreements

inductive BuildState where
  | building
  | active
  | stale
  deriving DecidableEq, Repr

structure RetrievalIndexBuild where
  id : Uuid
  organizationId : Uuid
  workspaceId : Uuid
  agreementId : Uuid
  sourceChecksum : String
  chunkerVersion : String
  state : BuildState
  deriving DecidableEq, Repr

structure RetrievalChunkRow where
  chunkId : String
  organizationId : Uuid
  workspaceId : Uuid
  agreementId : Uuid
  buildId : Uuid
  sourceChecksum : String
  chunkerVersion : String
  ordinal : Nat
  headingPath : List String
  anchorIds : List String
  content : String
  deriving DecidableEq, Repr

/-- `pk_retrieval_chunks` -/
def RetrievalChunkRow.key (row : RetrievalChunkRow) : Uuid × Uuid × String :=
  (row.agreementId, row.buildId, row.chunkId)

inductive EmbeddingState where
  | ready
  | unavailable
  | failed
  deriving DecidableEq, Repr

/-- A row of `retrieval_chunk_embeddings`; the components of vectors are values of `φ`. -/
structure RetrievalChunkEmbedding (φ : Type) where
  organizationId : Uuid
  workspaceId : Uuid
  agreementId : Uuid
  buildId : Uuid
  chunkId : String
  indexVersion : String
  dimensions : Nat
  embedding : Option (List φ)
  state : EmbeddingState
  provider : String
  model : String
  configurationVersion : String
  inputTokens : Option Nat
  latencyMs : Option Nat
  retryOutcome : String
  fallbackOutcome : String
  failureReason : Option String
  deriving DecidableEq, Repr

variable {φ : Type}

/-- The key of the chunk that an embedding is about. -/
def RetrievalChunkEmbedding.chunk (row : RetrievalChunkEmbedding φ) : Uuid × Uuid × String :=
  (row.agreementId, row.buildId, row.chunkId)

/-- `pk_retrieval_chunk_embeddings` -/
def RetrievalChunkEmbedding.key (row : RetrievalChunkEmbedding φ) :
    (Uuid × Uuid × String) × String × Nat :=
  (row.chunk, row.indexVersion, row.dimensions)

/-- The embeddings table. -/
abbrev Embeddings (φ : Type) := Keyed (@RetrievalChunkEmbedding.key φ)

structure IndexTables (φ : Type) where
  agreements : Keyed AgreementRecord.id
  builds : Keyed RetrievalIndexBuild.id
  chunks : Keyed RetrievalChunkRow.key
  embeddings : Embeddings φ

/-- What the completion handlers read of a processing job. -/
structure CompletedJob where
  agreementId : Uuid
  organizationId : Option Uuid
  workspaceId : Option Uuid
  profile : Option String
  deriving DecidableEq, Repr

/-- `lock_active_agreement`: whether there is an agreement to lock. -/
def lockActiveAgreement (agreements : Keyed AgreementRecord.id) (agreementId : Uuid)
    (organizationId workspaceId : Uuid) : Bool :=
  agreements.rows.any fun agreement => agreement.id = agreementId ∧
    agreement.organizationId = organizationId ∧ agreement.workspaceId = workspaceId ∧
    agreement.deletionRequestedAt = none

end AgreementIntelligence.Indexing
