import AgreementIntelligence.Indexing.EmbeddingSink
import AgreementIntelligence.Lib.Results
import Mathlib.Data.List.Pairwise

/-! Which runs of the embedding sink keep the ready vectors they do not replace by ready ones. A
re-index job raises where the provider fails, and loses nothing; any other job replaces what its
batch has in the index version and dimensions of the sink, whichever configuration wrote it. -/

namespace AgreementIntelligence.Indexing
open Identity Lib Agreements Lib.Results

variable {φ : Type} {sink : EmbeddingSink φ} {tables : IndexTables φ} {job : ScopedJob}
  {configuration : EmbeddingConfiguration} {active : ResolvedAIConfiguration φ}
  {session next after : Session φ} {row : RetrievalChunkEmbedding φ}

/-- A run stores a ready vector for the chunk of each ready row, or leaves the row. -/
def KeepsVectors (before : Embeddings φ)
    (outcome : Embeddings φ × List (RetrievalChunkEmbedding φ)) : Prop :=
  ∀ row ∈ before.rows, row.state = .ready →
    (∃ stored ∈ outcome.2, stored.chunk = row.chunk ∧ stored.state = .ready) ∨
      row ∈ outcome.1.rows

/-! Batches -/

theorem flatten_slices {α : Type} (items : List α) (size count : Nat) :
    ((List.range count).map fun i => (items.drop (i * size)).take size).flatten =
      items.take (count * size) := by
  induction count with
  | zero => simp
  | succ count ih =>
      rw [List.range_succ, List.map_append, List.flatten_append, ih, Nat.add_mul, Nat.one_mul,
        List.take_add]
      simp

theorem flatten_batches (chunks : List Chunk) (size : Nat) (positive : 0 < size) :
    (batches chunks size).flatten = chunks := by
  rw [batches, flatten_slices]
  refine List.take_of_length_le ?_
  have quotient := Nat.div_add_mod (chunks.length + (size - 1)) size
  have remainder := Nat.mod_lt (chunks.length + (size - 1)) positive
  rw [Nat.mul_comm] at quotient
  omega

/-- The key of a chunk in the agreement of a job. -/
def chunkKey (job : ScopedJob) (chunk : Chunk) : Uuid × Uuid × String :=
  (job.agreementId, chunk.buildId, chunk.chunkId)

theorem nodup_activeUnembeddedChunks (tables : IndexTables φ) (job : ScopedJob)
    (configuration : EmbeddingConfiguration) (configurationVersion model : String) :
    ((activeUnembeddedChunks tables job configuration configurationVersion model).map
      (chunkKey job)).Nodup := by
  have whole : ((unembeddedRows tables job configuration configurationVersion model).map
      RetrievalChunkRow.key).Nodup :=
    tables.chunks.distinct.sublist (List.filter_sublist.map _)
  rw [activeUnembeddedChunks, List.map_map]
  refine ((List.perm_insertionSort _ _).map _).nodup_iff.mpr ?_
  convert whole using 1
  refine List.map_congr_left fun row selected => ?_
  simp only [unembeddedRows, List.mem_filter, decide_eq_true_eq] at selected
  simp [chunkKey, RetrievalChunkRow.key, selected.2.2.2.2.1]

/-! What replacing does -/

/-- A row stands where the sink is to put the row of a chunk. -/
def AtKey (job : ScopedJob) (configuration : EmbeddingConfiguration) (chunk : Chunk)
    (row : RetrievalChunkEmbedding φ) : Prop :=
  row.chunk = chunkKey job chunk ∧ row.indexVersion = configuration.indexVersion ∧
    row.dimensions = configuration.dimensions

/-- The chunks that a part of a run replaces, with the rows that it inserts for them. -/
structure Wrote (job : ScopedJob) (configuration : EmbeddingConfiguration)
    (session after : Session φ) (chunks : List Chunk) (new : List (RetrievalChunkEmbedding φ)) :
    Prop where
  inserted : after.inserted = session.inserted ++ new
  kept : ∀ row ∈ session.embeddings.rows, (∀ chunk ∈ chunks, ¬ Replaced job configuration chunk row) →
    row ∈ after.embeddings.rows
  left : ∀ row ∈ after.embeddings.rows, (row ∈ session.embeddings.rows ∧
    ∀ chunk ∈ chunks, ¬ Replaced job configuration chunk row) ∨ row ∈ new
  about : ∀ row ∈ new, ∃ chunk ∈ chunks, row.chunk = chunkKey job chunk
  stored : (chunks.map (chunkKey job)).Nodup → ∀ row ∈ new, row ∈ after.embeddings.rows

theorem Wrote.refl (session : Session φ) : Wrote job configuration session session [] [] where
  inserted := (List.append_nil _).symm
  kept := fun _ member _ => member
  left := fun _ member => .inl ⟨member, nofun⟩
  about := nofun
  stored := nofun

theorem replaced_iff {row : RetrievalChunkEmbedding φ} {chunk : Chunk} :
    Replaced job configuration chunk row ↔ AtKey job configuration chunk row ∧
      row.organizationId = job.organizationId ∧ row.workspaceId = job.workspaceId := by
  simp only [Replaced, AtKey, RetrievalChunkEmbedding.chunk, chunkKey, Prod.mk.injEq]
  tauto

theorem Wrote.trans {first second : List Chunk} {new newer : List (RetrievalChunkEmbedding φ)}
    (begins : Wrote job configuration session next first new)
    (ends : Wrote job configuration next after second newer) :
    Wrote job configuration session after (first ++ second) (new ++ newer) where
  inserted := by rw [ends.inserted, begins.inserted, List.append_assoc]
  kept := fun row member apart => by
    refine ends.kept row (begins.kept row member fun chunk here => ?_) fun chunk here => ?_
    · exact apart chunk (List.mem_append_left _ here)
    · exact apart chunk (List.mem_append_right _ here)
  left := fun row member => by
    rcases ends.left row member with ⟨earlier, later⟩ | fresh
    · rcases begins.left row earlier with ⟨old, before⟩ | fresh
      · refine .inl ⟨old, fun chunk here => ?_⟩
        rcases List.mem_append.mp here with here | here
        · exact before chunk here
        · exact later chunk here
      · exact .inr (List.mem_append_left _ fresh)
    · exact .inr (List.mem_append_right _ fresh)
  about := fun row member => by
    rcases List.mem_append.mp member with early | late
    · obtain ⟨chunk, here, same⟩ := begins.about row early
      exact ⟨chunk, List.mem_append_left _ here, same⟩
    · obtain ⟨chunk, here, same⟩ := ends.about row late
      exact ⟨chunk, List.mem_append_right _ here, same⟩
  stored := fun distinct row member => by
    rw [List.map_append, List.nodup_append] at distinct
    obtain ⟨one, two, apart⟩ := distinct
    rcases List.mem_append.mp member with early | late
    · obtain ⟨chunk, here, same⟩ := begins.about row early
      refine ends.kept row (begins.stored one row early) fun other there replaced => ?_
      refine apart _ (List.mem_map_of_mem here) _ (List.mem_map_of_mem there) ?_
      exact same.symm.trans (replaced_iff.mp replaced).1.1
    · exact ends.stored two row late

/-- The rows that a batch gets, from the chunk at a position on. -/
def valuesFrom (job : ScopedJob) (configuration : EmbeddingConfiguration)
    (active : ResolvedAIConfiguration φ) (written : Replacement φ) (batchSize : Nat) :
    Nat → List Chunk → List (RetrievalChunkEmbedding φ)
  | _, [] => []
  | position, chunk :: rest =>
    embeddingValues job chunk configuration (written.vectors.bind (·[position]?)) written batchSize
      active :: valuesFrom job configuration active written batchSize (position + 1) rest

variable {written : Replacement φ} {batchSize position : Nat} {chunk : Chunk} {chunks : List Chunk}

theorem mem_valuesFrom
    (member : row ∈ valuesFrom job configuration active written batchSize position chunks) :
    ∃ chunk ∈ chunks, row.chunk = chunkKey job chunk ∧ row.state = written.state := by
  induction chunks generalizing position with
  | nil => cases member
  | cons first rest ih =>
      rcases List.mem_cons.mp member with rfl | later
      · exact ⟨first, List.mem_cons_self, rfl, rfl⟩
      · obtain ⟨chunk, here, facts⟩ := ih later
        exact ⟨chunk, List.mem_cons_of_mem first here, facts⟩

theorem exists_mem_valuesFrom (member : chunk ∈ chunks) :
    ∃ vector, embeddingValues job chunk configuration vector written batchSize active ∈
      valuesFrom job configuration active written batchSize position chunks := by
  induction chunks generalizing position with
  | nil => cases member
  | cons first rest ih =>
      rcases List.mem_cons.mp member with rfl | later
      · exact ⟨_, List.mem_cons_self⟩
      · obtain ⟨vector, here⟩ := @ih (position + 1) later
        exact ⟨vector, List.mem_cons_of_mem _ here⟩

/-- The rows where those of the chunks are to be put are of the tenant. -/
def Owned (job : ScopedJob) (configuration : EmbeddingConfiguration) (chunks : List Chunk)
    (rows : List (RetrievalChunkEmbedding φ)) : Prop :=
  ∀ chunk ∈ chunks, ∀ row ∈ rows, AtKey job configuration chunk row →
    row.organizationId = job.organizationId ∧ row.workspaceId = job.workspaceId

theorem replaceChunk_ok (done : replaceChunk job configuration active written batchSize session
    chunk position = .ok next) :
    Wrote job configuration session next [chunk] [embeddingValues job chunk configuration
      (written.vectors.bind (·[position]?)) written batchSize active] ∧
      Owned job configuration [chunk] session.embeddings.rows := by
  simp only [replaceChunk] at done
  split at done
  · cases done
  · rename_i embeddings inserts
    cases done
    obtain ⟨fresh, rows⟩ := Keyed.insert_eq_some inserts
    refine ⟨⟨rfl, fun row member apart => ?_, fun row member => ?_, ?_, ?_⟩, ?_⟩
    · have stays := apart chunk List.mem_cons_self
      simp [rows, member, stays]
    · simpa [rows] using member
    · intro row member
      rw [List.mem_singleton.mp member]
      exact ⟨chunk, List.mem_singleton_self _, rfl⟩
    · intro _ row member
      rw [rows]
      exact List.mem_append_right _ member
    · intro other same row member there
      rw [List.mem_singleton.mp same] at there
      by_contra foreign
      have stays : ¬ Replaced job configuration chunk row := fun hit =>
        foreign (replaced_iff.mp hit).2
      refine fresh row (Keyed.mem_delete.mpr ⟨member, stays⟩) ?_
      exact Prod.ext there.1 (Prod.ext there.2.1 there.2.2)

theorem replaceChunk_of_owned (owned : Owned job configuration [chunk] session.embeddings.rows) :
    ∃ next, replaceChunk job configuration active written batchSize session chunk position =
      .ok next := by
  have fresh : ∀ old ∈ (session.embeddings.delete (Replaced job configuration chunk)).rows,
      old.key ≠ (embeddingValues job chunk configuration (written.vectors.bind (·[position]?)) written
        batchSize active).key := by
    intro old member same
    obtain ⟨there, stays⟩ := Keyed.mem_delete.mp member
    have here : AtKey job configuration chunk old :=
      ⟨congrArg (·.1) same, congrArg (·.2.1) same, congrArg (·.2.2) same⟩
    exact stays (replaced_iff.mpr ⟨here, owned chunk List.mem_cons_self old there here⟩)
  obtain ⟨embeddings, inserts, -⟩ := Keyed.insert_of_fresh fresh
  simp only [replaceChunk, inserts]
  exact ⟨_, rfl⟩

theorem Owned.append {first second : List Chunk} {rows : List (RetrievalChunkEmbedding φ)} :
    Owned job configuration (first ++ second) rows ↔
      Owned job configuration first rows ∧ Owned job configuration second rows := by
  simp only [Owned, List.mem_append]
  exact ⟨fun owned => ⟨fun chunk here => owned chunk (.inl here),
    fun chunk here => owned chunk (.inr here)⟩,
    fun owned chunk here => here.elim (owned.1 chunk) (owned.2 chunk)⟩

/-- Where a part of a run puts rows of the tenant, ownership is the same before and after. -/
theorem Wrote.owned_iff {new : List (RetrievalChunkEmbedding φ)}
    (wrote : Wrote job configuration session next chunks new)
    (own : ∀ row ∈ new, row.organizationId = job.organizationId ∧
      row.workspaceId = job.workspaceId) (later : List Chunk) :
    Owned job configuration later next.embeddings.rows ↔
      Owned job configuration later session.embeddings.rows := by
  constructor
  · intro owned chunk here row member there
    by_cases hit : ∃ chunk ∈ chunks, Replaced job configuration chunk row
    · obtain ⟨first, -, replaced⟩ := hit
      exact (replaced_iff.mp replaced).2
    · push Not at hit
      exact owned chunk here row (wrote.kept row member hit) there
  · intro owned chunk here row member there
    rcases wrote.left row member with ⟨old, -⟩ | fresh
    · exact owned chunk here row old there
    · exact own row fresh

theorem own_valuesFrom
    (member : row ∈ valuesFrom job configuration active written batchSize position chunks) :
    row.organizationId = job.organizationId ∧ row.workspaceId = job.workspaceId := by
  induction chunks generalizing position with
  | nil => cases member
  | cons first rest ih =>
      rcases List.mem_cons.mp member with rfl | later
      · exact ⟨rfl, rfl⟩
      · exact ih later

theorem replaceFrom_ok (done : replaceFrom job configuration active written batchSize session
    position chunks = .ok after) :
    Wrote job configuration session after chunks
      (valuesFrom job configuration active written batchSize position chunks) ∧
      Owned job configuration chunks session.embeddings.rows := by
  induction chunks generalizing session position with
  | nil =>
      cases done
      exact ⟨Wrote.refl _, nofun⟩
  | cons chunk rest ih =>
      obtain ⟨next, first, later⟩ := bind_ok.mp done
      obtain ⟨wrote, owned⟩ := replaceChunk_ok first
      obtain ⟨writes, owns⟩ := ih later
      refine ⟨wrote.trans writes, ?_⟩
      have own : ∀ row ∈ [embeddingValues job chunk configuration
          (written.vectors.bind (·[position]?)) written batchSize active],
          row.organizationId = job.organizationId ∧ row.workspaceId = job.workspaceId := by
        simp [embeddingValues]
      exact Owned.append.mpr ⟨owned, (wrote.owned_iff own rest).mp owns⟩

theorem replaceFrom_of_owned (owned : Owned job configuration chunks session.embeddings.rows) :
    ∃ after, replaceFrom job configuration active written batchSize session position chunks =
      .ok after := by
  induction chunks generalizing session position with
  | nil => exact ⟨session, rfl⟩
  | cons chunk rest ih =>
      obtain ⟨first, others⟩ := Owned.append.mp (show Owned job configuration ([chunk] ++ rest) _
        from owned)
      obtain ⟨next, here⟩ := replaceChunk_of_owned first
      obtain ⟨wrote, -⟩ := replaceChunk_ok here
      have own : ∀ row ∈ [embeddingValues job chunk configuration
          (written.vectors.bind (·[position]?)) written batchSize active],
          row.organizationId = job.organizationId ∧ row.workspaceId = job.workspaceId := by
        simp [embeddingValues]
      obtain ⟨after, later⟩ := ih ((wrote.owned_iff own rest).mpr others)
      exact ⟨after, bind_ok.mpr ⟨next, here, later⟩⟩

/-! What the provider gives -/

/-- A batch with what a normal job writes for it and the number of calls made by then. -/
structure Provision (φ : Type) where
  batch : List Chunk
  written : Replacement φ
  calls : Nat

/-- What the provider's answer to a batch makes a normal job write. -/
def provide (sink : EmbeddingSink φ) (active : ResolvedAIConfiguration φ) (calls : Nat)
    (batch : List Chunk) : Except Raised (Provision φ) :=
  match sink.gateway with
  | none => .ok ⟨batch, ⟨none, none, .unavailable, some "embedding_provider_unconfigured"⟩, calls⟩
  | some gateway => do
    let mode ← endpointMode gateway
    let model ← modelForRoute active sink.configuration.model mode
    let (response, failureReason, calls) ← respond gateway
      (embeddingRequest sink active model batch) calls none (sink.configuration.maxRetries + 1)
    match response with
    | none => .ok ⟨batch, ⟨none, none, .unavailable,
        if falsy failureReason then some "embedding_provider_unavailable" else failureReason⟩, calls⟩
    | some response =>
      if Fits sink.configuration batch response then
        .ok ⟨batch, ⟨some response.vectors, some response.provenance, .ready, none⟩, calls⟩
      else .ok ⟨batch, ⟨none, some response.provenance, .failed,
        some "embedding_dimension_mismatch"⟩, calls⟩

/-- What the provider gives for the batches of a run, in order. -/
def provisions (sink : EmbeddingSink φ) (active : ResolvedAIConfiguration φ) :
    (calls : Nat) → List (List Chunk) → Except Raised (List (Provision φ))
  | _, [] => .ok []
  | calls, batch :: rest => do
    let provision ← provide sink active calls batch
    let others ← provisions sink active provision.calls rest
    .ok (provision :: others)

/-- The batch of a provision is replaced. -/
def replaceProvision (job : ScopedJob) (configuration : EmbeddingConfiguration)
    (active : ResolvedAIConfiguration φ) (session : Session φ) (provision : Provision φ) :
    Except Raised (Session φ) :=
  replaceBatch job configuration active { session with calls := provision.calls } provision.batch
    provision.written

def replaceProvisions (job : ScopedJob) (configuration : EmbeddingConfiguration)
    (active : ResolvedAIConfiguration φ) :
    Session φ → List (Provision φ) → Except Raised (Session φ)
  | session, [] => .ok session
  | session, provision :: rest => do
    let next ← replaceProvision job configuration active session provision
    replaceProvisions job configuration active next rest

theorem provide_batch {calls : Nat} {batch : List Chunk} {provision : Provision φ}
    (given : provide sink active calls batch = .ok provision) : provision.batch = batch := by
  simp only [provide] at given
  split at given
  · cases given
    rfl
  · obtain ⟨mode, -, given⟩ := bind_ok.mp given
    obtain ⟨model, -, given⟩ := bind_ok.mp given
    obtain ⟨⟨response, failureReason, calls⟩, -, given⟩ := bind_ok.mp given
    cases response with
    | none =>
        cases given
        rfl
    | some response =>
        by_cases fits : Fits sink.configuration batch response
        · simp only [if_pos fits] at given
          cases given
          rfl
        · simp only [if_neg fits] at given
          cases given
          rfl

/-- What a re-index job raises for a state that is not ready. -/
def refusal (state : EmbeddingState) : Raised :=
  .transientProcessing
    (if state = .failed then "Embedding response is invalid"
    else "Embedding provider is unavailable")

/-- A batch is replaced by what the provider's answer makes of it, which a re-index job refuses
unless it is ready. -/
theorem embedBatch_eq (batch : List Chunk) : embedBatch sink job active session batch = (do
    let provision ← provide sink active session.calls batch
    if job.reindexOf.isSome ∧ provision.written.state ≠ .ready then
      .error (refusal provision.written.state)
    else replaceProvision job sink.configuration active session provision) := by
  cases given : sink.gateway with
  | none =>
      simp only [embedBatch, provide, given]
      by_cases reindex : job.reindexOf.isSome <;>
        simp [reindex, refusal, replaceProvision, bind, Except.bind]
  | some gateway =>
      simp only [embedBatch, provide, given, bind_assoc]
      refine congrArg _ (funext fun mode => congrArg _ (funext fun model => congrArg _ ?_))
      funext answer
      obtain ⟨response, failureReason, calls⟩ := answer
      cases response with
      | none =>
          by_cases reindex : job.reindexOf.isSome <;>
            simp [reindex, refusal, replaceProvision, bind, Except.bind]
      | some response =>
          by_cases fits : Fits sink.configuration batch response
          · simp [fits, replaceProvision, bind, Except.bind]
          · by_cases reindex : job.reindexOf.isSome <;>
              simp [fits, reindex, refusal, replaceProvision, bind, Except.bind]

theorem embedBatch_ok_iff {batch : List Chunk} :
    embedBatch sink job active session batch = .ok after ↔ ∃ provision,
      provide sink active session.calls batch = .ok provision ∧
      (job.reindexOf.isSome → provision.written.state = .ready) ∧
      replaceProvision job sink.configuration active session provision = .ok after := by
  rw [embedBatch_eq, bind_ok]
  refine exists_congr fun provision => and_congr_right fun _ => ?_
  by_cases refused : job.reindexOf.isSome ∧ provision.written.state ≠ .ready
  · simp [refused]
  · rw [if_neg refused]
    simp only [ne_eq, not_and, not_not] at refused
    exact (and_iff_right refused).symm

theorem replaceFrom_calls (done : replaceFrom job configuration active written batchSize session
    position chunks = .ok after) : after.calls = session.calls := by
  induction chunks generalizing session position with
  | nil =>
      cases done
      rfl
  | cons chunk rest ih =>
      obtain ⟨next, first, later⟩ := bind_ok.mp done
      rw [ih later]
      simp only [replaceChunk] at first
      split at first
      · cases first
      · cases first
        rfl

/-- A run goes through exactly when the provider's answers to all batches are there, and all of
them may be written. -/
theorem embedBatches_ok_iff {parts : List (List Chunk)} :
    embedBatches sink job active session parts = .ok after ↔ ∃ provided,
      provisions sink active session.calls parts = .ok provided ∧
      (job.reindexOf.isSome → ∀ provision ∈ provided, provision.written.state = .ready) ∧
      replaceProvisions job sink.configuration active session provided = .ok after := by
  induction parts generalizing session with
  | nil => simp [embedBatches, provisions, replaceProvisions]
  | cons batch rest ih =>
      simp only [embedBatches, provisions, bind_ok, embedBatch_ok_iff, ih]
      constructor
      · rintro ⟨next, ⟨provision, gives, first, replaced⟩, provided, given, ready, done⟩
        have counted : next.calls = provision.calls := replaceFrom_calls replaced
        refine ⟨provision :: provided, ⟨provision, gives, provided, counted ▸ given, rfl⟩, ?_,
          bind_ok.mpr ⟨next, replaced, done⟩⟩
        intro reindex
        exact List.forall_mem_cons.mpr ⟨first reindex, ready reindex⟩
      · rintro ⟨whole, ⟨provision, gives, provided, given, same⟩, ready, done⟩
        cases same
        obtain ⟨next, replaced, done⟩ := bind_ok.mp done
        have counted : next.calls = provision.calls := replaceFrom_calls replaced
        refine ⟨next, ⟨provision, gives, fun reindex => ?_, replaced⟩, provided,
          counted ▸ given, fun reindex => ?_, done⟩
        · exact (List.forall_mem_cons.mp (ready reindex)).1
        · exact (List.forall_mem_cons.mp (ready reindex)).2

/-- The chunks of the batches that provisions are for. -/
def provisionedChunks (provided : List (Provision φ)) : List Chunk :=
  provided.flatMap (·.batch)

def newRows (job : ScopedJob) (configuration : EmbeddingConfiguration)
    (active : ResolvedAIConfiguration φ) (provided : List (Provision φ)) :
    List (RetrievalChunkEmbedding φ) :=
  provided.flatMap fun provision => valuesFrom job configuration active provision.written
    provision.batch.length 0 provision.batch

variable {provided : List (Provision φ)}

theorem replaceProvisions_ok
    (done : replaceProvisions job configuration active session provided = .ok after) :
    Wrote job configuration session after (provisionedChunks provided)
      (newRows job configuration active provided) ∧
      Owned job configuration (provisionedChunks provided) session.embeddings.rows := by
  induction provided generalizing session with
  | nil =>
      cases done
      exact ⟨Wrote.refl _, nofun⟩
  | cons provision rest ih =>
      obtain ⟨next, first, later⟩ := bind_ok.mp done
      obtain ⟨⟨inserted, kept, left, about, stored⟩, owned⟩ := replaceFrom_ok first
      have wrote : Wrote job configuration session next provision.batch _ :=
        ⟨inserted, kept, left, about, stored⟩
      obtain ⟨writes, owns⟩ := ih later
      refine ⟨wrote.trans writes, Owned.append.mpr ⟨owned, ?_⟩⟩
      exact (wrote.owned_iff (fun row => own_valuesFrom) _).mp owns

theorem replaceProvisions_of_owned
    (owned : Owned job configuration (provisionedChunks provided) session.embeddings.rows) :
    ∃ after, replaceProvisions job configuration active session provided = .ok after := by
  induction provided generalizing session with
  | nil => exact ⟨session, rfl⟩
  | cons provision rest ih =>
      obtain ⟨first, others⟩ := Owned.append.mp owned
      obtain ⟨next, here⟩ : ∃ next, replaceProvision job configuration active session provision =
          .ok next := replaceFrom_of_owned first
      obtain ⟨⟨inserted, kept, left, about, stored⟩, -⟩ := replaceFrom_ok here
      have wrote : Wrote job configuration session next provision.batch _ :=
        ⟨inserted, kept, left, about, stored⟩
      obtain ⟨after, later⟩ := ih ((wrote.owned_iff (fun row => own_valuesFrom) _).mpr others)
      exact ⟨after, bind_ok.mpr ⟨next, here, later⟩⟩

theorem provisions_batches {calls : Nat} {parts : List (List Chunk)}
    (given : provisions sink active calls parts = .ok provided) :
    provided.map (·.batch) = parts := by
  induction parts generalizing calls provided with
  | nil =>
      cases given
      rfl
  | cons batch rest ih =>
      obtain ⟨provision, gives, given⟩ := bind_ok.mp given
      obtain ⟨others, later, given⟩ := bind_ok.mp given
      cases given
      rw [List.map_cons, provide_batch gives, ih later]

/-- The vectors a normal job loses, when nothing rolls it back: the provider serves no vectors for a
batch, and a chunk of the batch has a ready row in the index version and dimensions of the sink. -/
def LosesVector (sink : EmbeddingSink φ) (tables : IndexTables φ) (job : ScopedJob) : Prop :=
  let active := resolveConfiguration sink.resolver embeddingOperation sink.environment
    job.organizationId job.workspaceId
  job.reindexOf = none ∧
    lockActiveAgreement tables.agreements job.agreementId job.organizationId job.workspaceId ∧
    ∃ model provided, activeModel sink active = .ok model ∧
      let chunks := activeUnembeddedChunks tables job sink.configuration active.version model
      provisions sink active 0 (batches chunks sink.configuration.batchSize) = .ok provided ∧
      Owned job sink.configuration chunks tables.embeddings.rows ∧
      ∃ provision ∈ provided, provision.written.state ≠ .ready ∧ ∃ chunk ∈ provision.batch,
        ∃ row ∈ tables.embeddings.rows, row.state = .ready ∧ AtKey job sink.configuration chunk row

theorem mem_newRows
    (member : row ∈ newRows job configuration active provided) :
    ∃ provision ∈ provided, ∃ chunk ∈ provision.batch, row.chunk = chunkKey job chunk ∧
      row.state = provision.written.state := by
  obtain ⟨provision, here, member⟩ := List.mem_flatMap.mp member
  exact ⟨provision, here, mem_valuesFrom member⟩

/-- What is written for the chunks of provisions, when the chunks are distinct: a chunk whose
batch is not ready gets no ready row. -/
theorem not_ready_of_unserved
    (distinct : ((provisionedChunks provided).map (chunkKey job)).Nodup) {provision : Provision φ}
    (here : provision ∈ provided) (unserved : provision.written.state ≠ .ready)
    (inside : chunk ∈ provision.batch) (same : row.chunk = chunkKey job chunk)
    (written : row ∈ newRows job configuration active provided) : row.state ≠ .ready := by
  obtain ⟨other, there, twin, within, named, state⟩ := mem_newRows written
  intro ready
  have apart : provision ≠ other := by
    intro equal
    subst equal
    exact unserved (state.symm.trans ready)
  have disjoint : (provided.map (·.batch)).Pairwise List.Disjoint :=
    (List.nodup_flatten.mp (List.Nodup.of_map _ distinct)).2
  have symmetric : Std.Symm fun a b : Provision φ => a.batch.Disjoint b.batch :=
    ⟨fun _ _ apart => apart.symm⟩
  have meets : provision.batch.Disjoint other.batch :=
    (List.pairwise_map.mp disjoint).forall here there apart
  have equal : chunk = twin := List.inj_on_of_nodup_map distinct
    (List.mem_flatMap_of_mem here inside) (List.mem_flatMap_of_mem there within)
    (same.symm.trans named)
  exact meets inside (equal ▸ within)

theorem embedActive_ok (done : embedActive sink tables job = .ok after) :
    ∃ active model provided, resolveActive sink job = .ok active ∧
      activeModel sink active = .ok model ∧
      provisions sink active 0 (batches (activeUnembeddedChunks tables job sink.configuration
        active.version model) sink.configuration.batchSize) = .ok provided ∧
      (job.reindexOf.isSome → ∀ provision ∈ provided, provision.written.state = .ready) ∧
      replaceProvisions job sink.configuration active ⟨tables.embeddings, [], 0⟩ provided =
        .ok after := by
  obtain ⟨active, resolved, done⟩ := bind_ok.mp done
  obtain ⟨model, routed, done⟩ := bind_ok.mp done
  obtain ⟨provided, facts⟩ := embedBatches_ok_iff.mp done
  exact ⟨active, model, provided, resolved, routed, facts⟩

theorem provisionedChunks_of_batches {chunks : List Chunk} {size : Nat} (positive : 0 < size)
    (same : provided.map (·.batch) = batches chunks size) : provisionedChunks provided = chunks := by
  rw [provisionedChunks, List.flatMap_def, same, flatten_batches chunks size positive]

/-- A run that goes through keeps the vectors exactly when no chunk with a ready row is in a batch
that it writes as not ready. -/
theorem keepsVectors_written_iff
    (distinct : ((provisionedChunks provided).map (chunkKey job)).Nodup)
    (done : replaceProvisions job configuration active ⟨tables.embeddings, [], 0⟩ provided =
      .ok after) :
    KeepsVectors tables.embeddings (after.embeddings, after.inserted) ↔
      ¬ ∃ provision ∈ provided, provision.written.state ≠ .ready ∧ ∃ chunk ∈ provision.batch,
        ∃ row ∈ tables.embeddings.rows, row.state = .ready ∧ AtKey job configuration chunk row := by
  obtain ⟨⟨inserted, kept, left, -, -⟩, owned⟩ := replaceProvisions_ok done
  rw [List.nil_append] at inserted
  constructor
  · rintro keeps ⟨provision, here, unserved, chunk, inside, row, member, ready, there⟩
    have within : chunk ∈ provisionedChunks provided := List.mem_flatMap_of_mem here inside
    have refused : ∀ stored ∈ newRows job configuration active provided,
        stored.chunk = row.chunk → stored.state ≠ .ready := fun stored written same =>
      not_ready_of_unserved distinct here unserved inside (same.trans there.1) written
    rcases keeps row member ready with ⟨stored, written, same, state⟩ | stays
    · exact refused stored (inserted ▸ written) same state
    · rcases left row stays with ⟨-, apart⟩ | written
      · exact apart chunk within (replaced_iff.mpr ⟨there, owned chunk within row member there⟩)
      · exact refused row written rfl ready
  · intro safe row member ready
    by_cases hit : ∃ chunk ∈ provisionedChunks provided, Replaced job configuration chunk row
    · obtain ⟨chunk, within, replaced⟩ := hit
      obtain ⟨there, -⟩ := replaced_iff.mp replaced
      obtain ⟨provision, here, inside⟩ := List.mem_flatMap.mp within
      have served : provision.written.state = .ready := by
        by_contra unserved
        exact safe ⟨provision, here, unserved, chunk, inside, row, member, ready, there⟩
      obtain ⟨vector, written⟩ := @exists_mem_valuesFrom _ job configuration active
        provision.written provision.batch.length 0 chunk _ inside
      refine .inl ⟨embeddingValues job chunk configuration vector provision.written
        provision.batch.length active, ?_, there.1.symm, served⟩
      rw [inserted]
      exact List.mem_flatMap_of_mem here written
    · push Not at hit
      exact .inr (kept row member hit)

theorem keepsVectors_unchanged (before : Embeddings φ) : KeepsVectors before (before, []) :=
  fun _ member _ => .inr member

/-- Of the runs that go through, the re-index jobs and the normal ones. -/
theorem embedActive_keepsVectors_iff
    (locked : lockActiveAgreement tables.agreements job.agreementId job.organizationId
      job.workspaceId = true) (done : embedActive sink tables job = .ok after) :
    KeepsVectors tables.embeddings (after.embeddings, after.inserted) ↔
      ¬ LosesVector sink tables job := by
  obtain ⟨active, model, provided, resolved, routed, given, ready, done⟩ := embedActive_ok done
  have chunks := provisionedChunks_of_batches sink.configuration.batched (provisions_batches given)
  have distinct : ((provisionedChunks provided).map (chunkKey job)).Nodup := by
    rw [chunks]
    exact nodup_activeUnembeddedChunks tables job sink.configuration active.version model
  have owned := (replaceProvisions_ok done).2
  rw [chunks] at owned
  rw [keepsVectors_written_iff distinct done, not_iff_not]
  cases reindex : job.reindexOf with
  | some configurationId =>
      have all := ready (by rw [reindex]; rfl)
      constructor
      · rintro ⟨provision, here, unserved, -⟩
        exact absurd (all provision here) unserved
      · rintro ⟨normal, -⟩
        rw [reindex] at normal
        cases normal
  | none =>
      simp only [resolveActive, reindex] at resolved
      cases resolved
      constructor
      · intro lost
        exact ⟨reindex, locked, model, provided, routed, given, owned, lost⟩
      · rintro ⟨-, -, model', provided', routed', given', -, lost⟩
        rw [routed] at routed'
        cases routed'
        rw [given] at given'
        cases given'
        exact lost

/-- A run of the sink keeps the vectors it does not replace by ready ones, exactly when it is no
normal job that loses one. -/
theorem runSink_keepsVectors_iff (sink : EmbeddingSink φ) (tables : IndexTables φ)
    (job : CompletedJob) : KeepsVectors tables.embeddings (runSink sink tables job) ↔
      ∀ inTenant, scopedJob job = some inTenant → ¬ LosesVector sink tables inTenant := by
  cases tenant : scopedJob job with
  | none => simp [runSink, completed, tenant, keepsVectors_unchanged]
  | some inTenant =>
      simp only [Option.some.injEq, forall_eq']
      by_cases locked : lockActiveAgreement tables.agreements inTenant.agreementId
          inTenant.organizationId inTenant.workspaceId
      · cases ran : embedActive sink tables inTenant with
        | ok after =>
            simp only [runSink, completed, tenant, if_pos locked, ran]
            exact embedActive_keepsVectors_iff locked ran
        | error raised =>
            simp only [runSink, completed, tenant, if_pos locked, ran, keepsVectors_unchanged,
              true_iff]
            rintro ⟨normal, -, model, provided, routed, given, owned, -⟩
            have chunks := provisionedChunks_of_batches sink.configuration.batched
              (provisions_batches given)
            rw [← chunks] at owned
            obtain ⟨after, done⟩ := @replaceProvisions_of_owned _ inTenant sink.configuration
              (resolveConfiguration sink.resolver embeddingOperation sink.environment
                inTenant.organizationId inTenant.workspaceId) ⟨tables.embeddings, [], 0⟩ _ owned
            have through : embedActive sink tables inTenant = .ok after := by
              refine bind_ok.mpr ⟨_, by simp only [resolveActive, normal], bind_ok.mpr ⟨model, routed, ?_⟩⟩
              exact embedBatches_ok_iff.mpr ⟨provided, given, by simp [normal], done⟩
            rw [through] at ran
            cases ran
      · simp only [runSink, completed, tenant, if_neg locked, keepsVectors_unchanged, true_iff]
        rintro ⟨-, held, -⟩
        exact locked held

/-! A provider that is not configured any more -/

def indexedAgreement : AgreementRecord where
  id := .ofNat 1
  organizationId := .ofNat 2
  workspaceId := .ofNat 3
  files := []
  processingState := .job .completed
  currentVersionId := none
  archivedAt := none
  deletionRequestedAt := none

def indexedChunk : RetrievalChunkRow where
  chunkId := "c"
  organizationId := .ofNat 2
  workspaceId := .ofNat 3
  agreementId := .ofNat 1
  buildId := .ofNat 4
  sourceChecksum := "s"
  chunkerVersion := "v"
  ordinal := 0
  headingPath := []
  anchorIds := ["a"]
  content := "t"

/-- A vector that a promoted configuration has given the chunk. -/
def readyEmbedding : RetrievalChunkEmbedding Int where
  organizationId := .ofNat 2
  workspaceId := .ofNat 3
  agreementId := .ofNat 1
  buildId := .ofNat 4
  chunkId := "c"
  indexVersion := "e"
  dimensions := 1
  embedding := some [0]
  state := .ready
  provider := "openai"
  model := "m"
  configurationVersion := "1"
  inputTokens := none
  latencyMs := none
  retryOutcome := ""
  fallbackOutcome := ""
  failureReason := none

def indexedTables : IndexTables Int where
  agreements := ⟨[indexedAgreement], by decide⟩
  builds := ⟨[⟨.ofNat 4, .ofNat 2, .ofNat 3, .ofNat 1, "s", "v", .active⟩], by decide⟩
  chunks := ⟨[indexedChunk], by decide⟩
  embeddings := ⟨[readyEmbedding], by decide⟩

def unconfiguredSink : EmbeddingSink Int where
  gateway := none
  configuration := ⟨"m", 1, "e", 1, 0, by decide⟩
  resolver := ⟨fun _ _ _ _ => none, fun _ _ _ _ => none⟩
  environment := "local"

/-- A completed job that is delivered again. -/
def redelivered : CompletedJob := ⟨.ofNat 1, some (.ofNat 2), some (.ofNat 3), some "standard"⟩

/-- The ready row of the earlier configuration gives way to one that has no vector. -/
theorem not_alwaysKeepsVectors : ¬ ∀ (sink : EmbeddingSink Int) tables job,
    KeepsVectors tables.embeddings (runSink sink tables job) := by
  intro always
  have kept := always unconfiguredSink indexedTables redelivered readyEmbedding
    (by decide) rfl
  revert kept
  decide +kernel

end AgreementIntelligence.Indexing
