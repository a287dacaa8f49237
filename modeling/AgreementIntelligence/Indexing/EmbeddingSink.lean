import AgreementIntelligence.Agreements.Processing
import AgreementIntelligence.Indexing.Configurations
import AgreementIntelligence.Indexing.Tables

/-! The sink that embeds the active chunks of an agreement when a job of it has completed. The
sink works in one transaction: whatever a run raises, its writes are rolled back. -/

namespace AgreementIntelligence.Indexing
open Identity Lib Agreements

variable {φ : Type}

/-- `EmbeddingConfiguration`, as the environment gives it; there a batch has at least one chunk. -/
structure EmbeddingConfiguration where
  model : String
  dimensions : Nat
  indexVersion : String
  batchSize : Nat
  maxRetries : Nat
  batched : 0 < batchSize

structure GatewayProvenance where
  provider : String
  model : String
  latencyMs : Nat
  inputTokens : Option Nat
  retryOutcome : String
  fallbackOutcome : String
  deriving DecidableEq, Repr

structure EmbeddingRequest (φ : Type) where
  inputs : List String
  model : String
  dimensions : Nat
  resolvedConfiguration : ResolvedAIConfiguration φ

structure EmbeddingResponse (φ : Type) where
  vectors : List (List φ)
  provenance : GatewayProvenance
  deriving DecidableEq, Repr

/-- A gateway, with what it gives for the request of its `n`-th call in a run. -/
structure EmbeddingGateway (φ : Type) where
  mode : Option String
  embed : (n : Nat) → EmbeddingRequest φ → Except Raised (EmbeddingResponse φ)

/-- `_endpoint_mode` -/
def endpointMode (gateway : EmbeddingGateway φ) : Except Raised String :=
  let mode := gateway.mode.getD "openai"
  if mode ∉ ["openai", "openai-compatible"] then
    .error (.valueError "unsupported embedding gateway endpoint mode")
  else .ok mode

theorem endpointMode_ok {gateway : EmbeddingGateway φ} {mode : String}
    (modes : endpointMode gateway = .ok mode) : mode = gateway.mode.getD "openai" := by
  simp only [endpointMode] at modes
  split at modes
  · cases modes
  · exact (Except.ok.inj modes).symm

/-- `_Chunk` -/
structure Chunk where
  chunkId : String
  content : String
  buildId : Uuid
  deriving DecidableEq, Repr

/-- `SQLAlchemyEmbeddingIndexSink`, with the environment it runs in. -/
structure EmbeddingSink (φ : Type) where
  gateway : Option (EmbeddingGateway φ)
  configuration : EmbeddingConfiguration
  resolver : ConfigurationResolver φ
  environment : String

/-- A job within its tenant. -/
structure ScopedJob where
  agreementId : Uuid
  organizationId : Uuid
  workspaceId : Uuid
  reindexOf : Option Uuid
  deriving DecidableEq, Repr

/-- The transaction of a run: the embeddings as it sees them, the rows it has inserted and the
number of calls it has made to the gateway. -/
structure Session (φ : Type) where
  embeddings : Embeddings φ
  inserted : List (RetrievalChunkEmbedding φ)
  calls : Nat

/-- The row of a chunk that the outer join of `_active_unembedded_chunks` looks for. -/
def Embeds (configuration : EmbeddingConfiguration) (configurationVersion model : String)
    (chunk : RetrievalChunkRow) (embedded : RetrievalChunkEmbedding φ) : Prop :=
  embedded.agreementId = chunk.agreementId ∧ embedded.buildId = chunk.buildId ∧
    embedded.chunkId = chunk.chunkId ∧ embedded.indexVersion = configuration.indexVersion ∧
    embedded.dimensions = configuration.dimensions ∧
    embedded.configurationVersion = configurationVersion ∧ embedded.model = model ∧
    embedded.state = .ready

instance (configuration : EmbeddingConfiguration) (configurationVersion model : String)
    (chunk : RetrievalChunkRow) :
    DecidablePred (@Embeds φ configuration configurationVersion model chunk) :=
  fun _ => inferInstanceAs (Decidable (_ ∧ _))

/-- The rows that `_active_unembedded_chunks` selects. -/
def unembeddedRows (tables : IndexTables φ) (job : ScopedJob)
    (configuration : EmbeddingConfiguration) (configurationVersion model : String) :
    List RetrievalChunkRow :=
  tables.chunks.rows.filter fun chunk =>
    (tables.builds.rows.any fun build => build.id = chunk.buildId ∧ build.state = .active) ∧
    chunk.organizationId = job.organizationId ∧ chunk.workspaceId = job.workspaceId ∧
    chunk.agreementId = job.agreementId ∧
    ¬ ∃ embedded ∈ tables.embeddings.rows,
      Embeds configuration configurationVersion model chunk embedded

/-- `_active_unembedded_chunks` -/
def activeUnembeddedChunks (tables : IndexTables φ) (job : ScopedJob)
    (configuration : EmbeddingConfiguration) (configurationVersion model : String) : List Chunk :=
  ((unembeddedRows tables job configuration configurationVersion model).insertionSort
    fun a b => a.ordinal ≤ b.ordinal).map fun row => ⟨row.chunkId, row.content, row.buildId⟩

/-- `_batches` -/
def batches (chunks : List Chunk) (size : Nat) : List (List Chunk) :=
  (List.range ((chunks.length + (size - 1)) / size)).map fun i => (chunks.drop (i * size)).take size

/-- What `_replace_batch` is to write for every chunk of a batch. -/
structure Replacement (φ : Type) where
  vectors : Option (List (List φ))
  provenance : Option GatewayProvenance
  state : EmbeddingState
  failureReason : Option String

/-- `_embedding_values` -/
def embeddingValues (job : ScopedJob) (chunk : Chunk) (configuration : EmbeddingConfiguration)
    (vector : Option (List φ)) (written : Replacement φ) (batchSize : Nat)
    (activeConfiguration : ResolvedAIConfiguration φ) : RetrievalChunkEmbedding φ where
  organizationId := job.organizationId
  workspaceId := job.workspaceId
  agreementId := job.agreementId
  buildId := chunk.buildId
  chunkId := chunk.chunkId
  indexVersion := configuration.indexVersion
  dimensions := configuration.dimensions
  embedding := vector
  state := written.state
  provider := (written.provenance.map (·.provider)).getD "unconfigured"
  model := (written.provenance.map (·.model)).getD configuration.model
  configurationVersion := activeConfiguration.version
  inputTokens := (written.provenance.bind (·.inputTokens)).map fun tokens =>
    (tokens + (batchSize - 1)) / batchSize
  latencyMs := written.provenance.map (·.latencyMs)
  retryOutcome := (written.provenance.map (·.retryOutcome)).getD "not_attempted"
  fallbackOutcome := (written.provenance.map (·.fallbackOutcome)).getD "not_attempted"
  failureReason := written.failureReason

/-- The rows that `_replace_batch` deletes for a chunk. -/
def Replaced (job : ScopedJob) (configuration : EmbeddingConfiguration) (chunk : Chunk)
    (row : RetrievalChunkEmbedding φ) : Prop :=
  row.organizationId = job.organizationId ∧ row.workspaceId = job.workspaceId ∧
    row.agreementId = job.agreementId ∧ row.buildId = chunk.buildId ∧
    row.chunkId = chunk.chunkId ∧ row.indexVersion = configuration.indexVersion ∧
    row.dimensions = configuration.dimensions

instance (job : ScopedJob) (configuration : EmbeddingConfiguration) (chunk : Chunk) :
    DecidablePred (@Replaced φ job configuration chunk) :=
  fun _ => inferInstanceAs (Decidable (_ ∧ _))

/-- The body of the loop of `_replace_batch`. -/
def replaceChunk (job : ScopedJob) (configuration : EmbeddingConfiguration)
    (activeConfiguration : ResolvedAIConfiguration φ) (written : Replacement φ) (batchSize : Nat)
    (session : Session φ) (chunk : Chunk) (position : Nat) : Except Raised (Session φ) :=
  let vector := written.vectors.bind (·[position]?)
  let values := embeddingValues job chunk configuration vector written batchSize activeConfiguration
  match (session.embeddings.delete (Replaced job configuration chunk)).insert values with
  | none => .error .integrityError
  | some embeddings =>
    .ok { session with embeddings := embeddings, inserted := session.inserted ++ [values] }

/-- The loop of `_replace_batch`, from the chunk at a position on. -/
def replaceFrom (job : ScopedJob) (configuration : EmbeddingConfiguration)
    (activeConfiguration : ResolvedAIConfiguration φ) (written : Replacement φ) (batchSize : Nat) :
    Session φ → Nat → List Chunk → Except Raised (Session φ)
  | session, _, [] => .ok session
  | session, position, chunk :: rest => do
    let next ← replaceChunk job configuration activeConfiguration written batchSize session chunk
      position
    replaceFrom job configuration activeConfiguration written batchSize next (position + 1) rest

/-- `_replace_batch` -/
def replaceBatch (job : ScopedJob) (configuration : EmbeddingConfiguration)
    (activeConfiguration : ResolvedAIConfiguration φ) (session : Session φ) (batch : List Chunk)
    (written : Replacement φ) : Except Raised (Session φ) :=
  replaceFrom job configuration activeConfiguration written batch.length session 0 batch

/-- The loop of `_embed_batch` over the attempts that remain: the response if there is one, the
reason of the last failure and the number of calls made by then. -/
def respond (gateway : EmbeddingGateway φ) (request : EmbeddingRequest φ) :
    (calls : Nat) → (failureReason : Option String) → (remaining : Nat) →
      Except Raised (Option (EmbeddingResponse φ) × Option String × Nat)
  | calls, failureReason, 0 => .ok (none, failureReason, calls)
  | calls, failureReason, remaining + 1 =>
    match gateway.embed calls request with
    | .ok response => .ok (some response, failureReason, calls + 1)
    | .error (.gatewayUnavailable safeReason) =>
      respond gateway request (calls + 1) (some safeReason) remaining
    | .error .gatewayResponse => .ok (none, some "embedding_response_invalid", calls + 1)
    | .error other => .error other

def embeddingRequest (sink : EmbeddingSink φ) (activeConfiguration : ResolvedAIConfiguration φ)
    (model : String) (batch : List Chunk) : EmbeddingRequest φ where
  inputs := batch.map (·.content)
  model := model
  dimensions := sink.configuration.dimensions
  resolvedConfiguration := activeConfiguration

/-- The vectors of a response are those of the chunks of a batch. -/
def Fits (configuration : EmbeddingConfiguration) (batch : List Chunk)
    (response : EmbeddingResponse φ) : Prop :=
  response.vectors.length = batch.length ∧
    ∀ vector ∈ response.vectors, vector.length = configuration.dimensions

instance (configuration : EmbeddingConfiguration) (batch : List Chunk) :
    DecidablePred (@Fits φ configuration batch) :=
  fun _ => inferInstanceAs (Decidable (_ ∧ _))

/-- `_embed_batch` -/
def embedBatch (sink : EmbeddingSink φ) (job : ScopedJob)
    (activeConfiguration : ResolvedAIConfiguration φ) (session : Session φ) (batch : List Chunk) :
    Except Raised (Session φ) :=
  let replace := replaceBatch job sink.configuration activeConfiguration
  match sink.gateway with
  | none =>
    if job.reindexOf.isSome then
      .error (.transientProcessing "Embedding provider is unavailable")
    else replace session batch
      ⟨none, none, .unavailable, some "embedding_provider_unconfigured"⟩
  | some gateway => do
    let mode ← endpointMode gateway
    let model ← modelForRoute activeConfiguration sink.configuration.model mode
    let (response, failureReason, calls) ← respond gateway
      (embeddingRequest sink activeConfiguration model batch) session.calls none
      (sink.configuration.maxRetries + 1)
    let called := { session with calls := calls }
    match response with
    | none =>
      if job.reindexOf.isSome then
        .error (.transientProcessing "Embedding provider is unavailable")
      else replace called batch ⟨none, none, .unavailable,
        if falsy failureReason then some "embedding_provider_unavailable" else failureReason⟩
    | some response =>
      if Fits sink.configuration batch response then
        replace called batch ⟨some response.vectors, some response.provenance, .ready, none⟩
      else if job.reindexOf.isSome then
        .error (.transientProcessing "Embedding response is invalid")
      else replace called batch ⟨none, some response.provenance, .failed,
        some "embedding_dimension_mismatch"⟩

/-- The loop of `completed` over the batches. -/
def embedBatches (sink : EmbeddingSink φ) (job : ScopedJob)
    (activeConfiguration : ResolvedAIConfiguration φ) :
    Session φ → List (List Chunk) → Except Raised (Session φ)
  | session, [] => .ok session
  | session, batch :: rest => do
    let next ← embedBatch sink job activeConfiguration session batch
    embedBatches sink job activeConfiguration next rest

/-- The configuration that `completed` runs a job under. -/
def resolveActive (sink : EmbeddingSink φ) (job : ScopedJob) :
    Except Raised (ResolvedAIConfiguration φ) :=
  match job.reindexOf with
  | some configurationId =>
    match resolveConfigurationById sink.resolver embeddingOperation configurationId
        job.organizationId job.workspaceId with
    | none =>
      .error (.valueError "Embedding reindex configuration is unavailable in tenant scope")
    | some configuration => .ok configuration
  | none => .ok (resolveConfiguration sink.resolver embeddingOperation sink.environment
      job.organizationId job.workspaceId)

def activeModel (sink : EmbeddingSink φ) (activeConfiguration : ResolvedAIConfiguration φ) :
    Except Raised String :=
  match sink.gateway with
  | none => .ok sink.configuration.model
  | some gateway => do
    let mode ← endpointMode gateway
    modelForRoute activeConfiguration sink.configuration.model mode

/-- The transaction of `completed`, once the agreement is locked. -/
def embedActive (sink : EmbeddingSink φ) (tables : IndexTables φ) (job : ScopedJob) :
    Except Raised (Session φ) := do
  let configuration ← resolveActive sink job
  let model ← activeModel sink configuration
  let chunks := activeUnembeddedChunks tables job sink.configuration configuration.version model
  embedBatches sink job configuration ⟨tables.embeddings, [], 0⟩
    (batches chunks sink.configuration.batchSize)

def scopedJob (job : CompletedJob) : Option ScopedJob := do
  let organizationId ← job.organizationId
  let workspaceId ← job.workspaceId
  some ⟨job.agreementId, organizationId, workspaceId,
    job.profile.bind embeddingReindexConfigurationId⟩

/-- `SQLAlchemyEmbeddingIndexSink.completed` -/
def completed (sink : EmbeddingSink φ) (tables : IndexTables φ) (job : CompletedJob) :
    Except Raised (Session φ) :=
  match scopedJob job with
  | none => .error (.valueError "Embedding index requires tenant scope")
  | some job =>
    if lockActiveAgreement tables.agreements job.agreementId job.organizationId job.workspaceId then
      embedActive sink tables job
    else .ok ⟨tables.embeddings, [], 0⟩

/-- The embeddings after a run of the sink with the rows that it stored; a run that raises is
rolled back. -/
def runSink (sink : EmbeddingSink φ) (tables : IndexTables φ) (job : CompletedJob) :
    Embeddings φ × List (RetrievalChunkEmbedding φ) :=
  match completed sink tables job with
  | .ok session => (session.embeddings, session.inserted)
  | .error _ => (tables.embeddings, [])

end AgreementIntelligence.Indexing
