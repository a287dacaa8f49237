import AgreementIntelligence.AiConfig.Service
import AgreementIntelligence.Indexing.DocumentSink
import AgreementIntelligence.Indexing.UsableVectors
import AgreementIntelligence.Lib.Runs

/-! Which embeddings a history of promotions leaves. A re-index job embeds under the configuration it
names, whichever is promoted by then, and a configuration that is promoted again gets no second job
for a build: the chunks of an agreement have the vectors of the configuration that its last job ran
under. -/

namespace AgreementIntelligence.AiConfig
open Identity Lib Lib.Text Lib.Results Lib.Runs Agreements Indexing

variable {φ : Type}

/-- The worker's embedding, with an endpoint that always answers; the gateway is built with the model
of the embedding configuration. -/
structure EmbeddingRuntime (φ : Type) where
  configuration : EmbeddingConfiguration
  mode : String
  fallbackModel : Option String
  endpoint : AnsweringClient φ
  fallbackClient : Option (EmbeddingClient φ)

def EmbeddingRuntime.sink (runtime : EmbeddingRuntime φ) (env : ServiceEnv φ)
    (db : ConfigurationTables φ) : EmbeddingSink φ where
  gateway := some (openAIModelGateway
    ⟨runtime.mode, runtime.configuration.model, runtime.fallbackModel⟩ runtime.endpoint.client
    runtime.fallbackClient)
  configuration := runtime.configuration
  resolver := databaseResolver db
  environment := env.environment

/-- The tables, the jobs of re-index that have succeeded, and the runs of the sink that went through:
for which agreement, and under which version and model. -/
structure PromotionWorld (φ : Type) where
  db : ConfigurationTables φ
  succeeded : List Uuid
  runs : List (IndexScope × String × String)

/-- `reindexed` is a run of the completion handler for a re-index job of the table, and `completed` that
of the embedding sink for any other job. -/
inductive PromotionEvent (φ : Type) where
  | create (caller : ConfigurationCaller) (request : CreateAIConfigurationRequest φ) (id : Uuid)
  | updatePrompt (caller : ConfigurationCaller) (configurationId : Uuid) (promptTemplate : String)
  | publish (caller : ConfigurationCaller) (configurationId : Uuid)
  | promote (caller : ConfigurationCaller) (configurationId : Uuid) (environment : String)
    (promotionId : Uuid) (now : Time) (uuid4 : Nat → Uuid)
  | reindexed (jobId : Uuid)
  | completed (agreementId organizationId workspaceId : Uuid)

/-- The state after a call of the service; a call that raises is rolled back. -/
def PromotionWorld.after (world : PromotionWorld φ)
    (outcome : Except ServiceError (ConfigurationTables φ)) : PromotionWorld φ :=
  match outcome with
  | .ok db => { world with db := db }
  | .error _ => world

/-- What a run of the sink for an agreement is under. -/
def runUnder (sink : EmbeddingSink φ) (job : ScopedJob) : Except Indexing.Raised (String × String) := do
  let active ← resolveActive sink job
  let model ← activeModel sink active
  .ok (active.version, model)

/-- A run of the sink in a tenant; it is noted when it went through. -/
def PromotionWorld.embed (world : PromotionWorld φ) (sink : EmbeddingSink φ) (job : ScopedJob)
    (succeeds : List Uuid) : PromotionWorld φ :=
  if lockActiveAgreement world.db.index.agreements job.agreementId job.organizationId
      job.workspaceId then
    match embedActive sink world.db.index job, runUnder sink job with
    | .ok session, .ok under => {
        db := { world.db with index := { world.db.index with embeddings := session.embeddings } }
        succeeded := world.succeeded ++ succeeds
        runs := world.runs ++ [(⟨job.organizationId, job.workspaceId, job.agreementId⟩, under)] }
    | _, _ => world
  else { world with succeeded := world.succeeded ++ succeeds }

def step (env : ServiceEnv φ) (runtime : EmbeddingRuntime φ) (world : PromotionWorld φ) :
    PromotionEvent φ → PromotionWorld φ
  | .create caller request id => world.after (create env world.db caller request id)
  | .updatePrompt caller configurationId promptTemplate =>
    world.after (updatePrompt world.db caller configurationId promptTemplate)
  | .publish caller configurationId => world.after (publish env world.db caller configurationId)
  | .promote caller configurationId environment promotionId now uuid4 =>
    world.after (promote env world.db caller configurationId environment promotionId now uuid4)
  | .reindexed jobId =>
    match world.db.jobs.rows.find? fun job => job.id = jobId with
    | none => world
    | some job =>
      match embeddingReindexConfigurationId job.profile with
      | none => world
      | some configurationId => world.embed (runtime.sink env world.db)
          ⟨job.agreementId, job.organizationId, job.workspaceId, some configurationId⟩ [jobId]
  | .completed agreementId organizationId workspaceId =>
    world.embed (runtime.sink env world.db) ⟨agreementId, organizationId, workspaceId, none⟩ []

def chunkScope (chunk : RetrievalChunkRow) : IndexScope :=
  ⟨chunk.organizationId, chunk.workspaceId, chunk.agreementId⟩

/-- The chunks of the active builds. -/
def activeChunks (index : IndexTables φ) : List RetrievalChunkRow :=
  index.chunks.rows.filter fun chunk =>
    index.builds.rows.any fun build => build.id = chunk.buildId ∧ build.state = .active

/-- A chunk has a ready row of a version and a model, in the sink's index version and dimensions. -/
def HoldsVector (embeddings : Embeddings φ) (configuration : EmbeddingConfiguration)
    (under : String × String) (chunk : RetrievalChunkRow) : Prop :=
  ∃ row ∈ embeddings.rows, Embeds configuration under.1 under.2 chunk row

instance (embeddings : Embeddings φ) (configuration : EmbeddingConfiguration)
    (under : String × String) (chunk : RetrievalChunkRow) :
    Decidable (HoldsVector embeddings configuration under chunk) :=
  inferInstanceAs (Decidable (∃ row ∈ embeddings.rows, _))

/-- The version of a configuration, and the model that its route names. -/
def versionAndModel (record : AIConfigurationVersionRecord φ) : String × String :=
  (record.version, (partition record.modelRoute ':').2.2)

/-- Every chunk of an active build in the tenant of a configuration has a ready row of it. -/
def Converged (index : IndexTables φ) (configuration : EmbeddingConfiguration)
    (record : AIConfigurationVersionRecord φ) : Prop :=
  ∀ chunk ∈ activeChunks index, chunk.organizationId = record.organizationId →
    chunk.workspaceId = record.workspaceId →
    HoldsVector index.embeddings configuration (versionAndModel record) chunk

instance (index : IndexTables φ) (configuration : EmbeddingConfiguration)
    (record : AIConfigurationVersionRecord φ) : Decidable (Converged index configuration record) :=
  inferInstanceAs (Decidable (∀ chunk ∈ activeChunks index, _))

/-- What the last run for an agreement was under. -/
def lastRun (runs : List (IndexScope × String × String)) (at_ : IndexScope) : Option (String × String) :=
  ((runs.filter (·.1 = at_)).getLast?).map (·.2)

theorem lastRun_concat (runs : List (IndexScope × String × String)) (at_ other : IndexScope)
    (under : String × String) : lastRun (runs ++ [(other, under)]) at_ =
      if other = at_ then some under else lastRun runs at_ := by
  by_cases same : other = at_ <;> simp [lastRun, same]

/-- The last run for the agreement of each chunk was under the configuration; where there was none, the
chunk has had a row of it from the start. -/
def LastUnder (start : IndexTables φ) (configuration : EmbeddingConfiguration)
    (runs : List (IndexScope × String × String)) (record : AIConfigurationVersionRecord φ) : Prop :=
  ∀ chunk ∈ activeChunks start, chunk.organizationId = record.organizationId →
    chunk.workspaceId = record.workspaceId →
    match lastRun runs (chunkScope chunk) with
    | some under => under = versionAndModel record
    | none => HoldsVector start.embeddings configuration (versionAndModel record) chunk

/-! What a run of the sink leaves -/

variable {sink : EmbeddingSink φ} {active : ResolvedAIConfiguration φ} {model : String}

/-- A gateway gives, for each request under a configuration, what was asked for by a model, or refuses
the request. -/
def Answers (gateway : EmbeddingGateway φ) (active : ResolvedAIConfiguration φ) (model : String) :
    Prop :=
  ∀ n request, request.resolvedConfiguration = active →
    (∃ message, gateway.embed n request = .error (.valueError message)) ∨
    ∃ response, gateway.embed n request = .ok response ∧ response.provenance.model = model ∧
      response.vectors.length = request.inputs.length ∧
      ∀ vector ∈ response.vectors, vector.length = request.dimensions

/-- With such a gateway, what a job writes for a batch is ready, and by the model. -/
theorem provide_answering {gateway : EmbeddingGateway φ} {calls : Nat} {batch : List Chunk}
    {provision : Provision φ} (asked : sink.gateway = some gateway)
    (answers : Answers gateway active model)
    (given : provide sink active calls batch = .ok provision) :
    provision.written.state = .ready ∧
      provision.written.provenance.map (·.model) = some model := by
  simp only [provide, asked, bind_ok] at given
  obtain ⟨mode, -, named, -, ⟨response, failureReason, calls'⟩, responds, given⟩ := given
  simp only [respond] at responds
  rcases answers calls (embeddingRequest sink active named batch) rfl with
    ⟨message, failed⟩ | ⟨answer, answered, by_, count, fits⟩
  · rw [failed] at responds
    cases responds
  · rw [answered] at responds
    cases responds
    have fitting : Fits sink.configuration batch answer := by
      refine ⟨?_, fits⟩
      rw [count]
      exact List.length_map _
    simp only [if_pos fitting] at given
    cases given
    exact ⟨rfl, congrArg some by_⟩

theorem provisions_answering {gateway : EmbeddingGateway φ} {calls : Nat} {parts : List (List Chunk)}
    {provided : List (Provision φ)} (asked : sink.gateway = some gateway)
    (answers : Answers gateway active model)
    (given : provisions sink active calls parts = .ok provided) :
    ∀ provision ∈ provided, provision.written.state = .ready ∧
      provision.written.provenance.map (·.model) = some model := by
  induction parts generalizing calls provided with
  | nil =>
      cases given
      nofun
  | cons batch rest ih =>
      obtain ⟨provision, gives, given⟩ := bind_ok.mp given
      obtain ⟨others, later, given⟩ := bind_ok.mp given
      cases given
      exact List.forall_mem_cons.mpr ⟨provide_answering asked answers gives, ih later⟩

theorem EmbeddingRuntime.answers {env : ServiceEnv φ} {runtime : EmbeddingRuntime φ}
    {db : ConfigurationTables φ} (routed : activeModel (runtime.sink env db) active = .ok model) :
    ∃ gateway, (runtime.sink env db).gateway = some gateway ∧ Answers gateway active model := by
  obtain ⟨mode, modes, routes⟩ := bind_ok.mp routed
  have same : mode = runtime.mode := endpointMode_ok modes
  refine ⟨_, rfl, fun n request resolved => ?_⟩
  rcases @embed_answering _ ⟨runtime.mode, runtime.configuration.model, runtime.fallbackModel⟩
    runtime.endpoint runtime.fallbackClient n request with
    failed | ⟨response, other, answered, routes', named, facts⟩
  · exact .inl failed
  · refine .inr ⟨response, answered, ?_, facts⟩
    rw [resolved, ← same] at routes'
    exact named.trans (Except.ok.inj (routes'.symm.trans routes))

/-! What a run of the sink leaves -/

variable {tables : IndexTables φ} {job : ScopedJob} {after : Session φ}
  {chunk : RetrievalChunkRow}

/-- The chunks of other agreements keep their rows. -/
theorem embedActive_frame (done : embedActive sink tables job = .ok after)
    (member : chunk ∈ tables.chunks.rows)
    (apart : chunkScope chunk ≠ ⟨job.organizationId, job.workspaceId, job.agreementId⟩)
    (under : String × String) : HoldsVector after.embeddings sink.configuration under chunk ↔
      HoldsVector tables.embeddings sink.configuration under chunk := by
  obtain ⟨active, model, provided, -, -, given, -, done⟩ := embedActive_ok done
  obtain ⟨⟨-, kept, left, about, -⟩, -⟩ := replaceProvisions_ok done
  have foreign : ∀ piece ∈ provisionedChunks provided, chunkKey job piece ≠ chunk.key := by
    intro piece selected same
    rw [provisionedChunks_of_batches sink.configuration.batched (provisions_batches given),
      activeUnembeddedChunks, List.mem_map] at selected
    obtain ⟨row, sorted, rfl⟩ := selected
    rw [List.mem_insertionSort] at sorted
    simp only [unembeddedRows, List.mem_filter, decide_eq_true_eq] at sorted
    obtain ⟨there, -, organization, workspace, agreement, -⟩ := sorted
    have equal : row = chunk := by
      refine tables.chunks.eq_of_key there member ?_
      rw [← same]
      simp [RetrievalChunkRow.key, chunkKey, agreement]
    subst equal
    exact apart (by rw [chunkScope, organization, workspace, agreement])
  have about_ : ∀ row : RetrievalChunkEmbedding φ,
      Embeds sink.configuration under.1 under.2 chunk row → row.chunk = chunk.key :=
    fun row embeds => Prod.ext embeds.1 (Prod.ext embeds.2.1 embeds.2.2.1)
  constructor
  · rintro ⟨row, there, embeds⟩
    rcases left row there with ⟨old, -⟩ | new
    · exact ⟨row, old, embeds⟩
    · obtain ⟨piece, selected, same⟩ := about row new
      exact absurd (same.symm.trans (about_ row embeds)) (foreign piece selected)
  · rintro ⟨row, there, embeds⟩
    refine ⟨row, kept row there fun piece selected replaced => ?_, embeds⟩
    exact foreign piece selected ((replaced_iff.mp replaced).1.1.symm.trans (about_ row embeds))

/-- The chunks of the agreement have a row of what the job ran under. -/
theorem embedActive_holds {gateway : EmbeddingGateway φ} (asked : sink.gateway = some gateway)
    (resolved : resolveActive sink job = .ok active) (routed : activeModel sink active = .ok model)
    (answers : Answers gateway active model) (done : embedActive sink tables job = .ok after)
    (member : chunk ∈ activeChunks tables)
    (inside : chunkScope chunk = ⟨job.organizationId, job.workspaceId, job.agreementId⟩) :
    HoldsVector after.embeddings sink.configuration (active.version, model) chunk := by
  obtain ⟨active', model', provided, resolved', routed', given, -, done⟩ := embedActive_ok done
  have sameActive : active' = active := Except.ok.inj (resolved'.symm.trans resolved)
  subst sameActive
  have sameModel : model' = model := Except.ok.inj (routed'.symm.trans routed)
  subst sameModel
  have chunks := provisionedChunks_of_batches sink.configuration.batched (provisions_batches given)
  have distinct : ((provisionedChunks provided).map (chunkKey job)).Nodup := by
    rw [chunks]
    exact nodup_activeUnembeddedChunks tables job sink.configuration active'.version model'
  obtain ⟨⟨-, kept, -, -, stored⟩, -⟩ := replaceProvisions_ok done
  simp only [activeChunks, List.mem_filter] at member
  obtain ⟨there, active⟩ := member
  simp only [chunkScope, IndexScope.mk.injEq] at inside
  obtain ⟨organization, workspace, agreement⟩ := inside
  have key : ∀ row : RetrievalChunkRow, row ∈ tables.chunks.rows → row.agreementId = job.agreementId →
      row.buildId = chunk.buildId → row.chunkId = chunk.chunkId → row = chunk := by
    intro row held same build id
    exact tables.chunks.eq_of_key held there (Prod.ext (same.trans agreement.symm) (Prod.ext build id))
  by_cases embedded : ∃ row ∈ tables.embeddings.rows,
      Embeds sink.configuration active'.version model' chunk row
  · obtain ⟨row, here, embeds⟩ := embedded
    refine ⟨row, kept row here fun piece selected replaced => ?_, embeds⟩
    rw [chunks, activeUnembeddedChunks, List.mem_map] at selected
    obtain ⟨other, sorted, rfl⟩ := selected
    rw [List.mem_insertionSort] at sorted
    simp only [unembeddedRows, List.mem_filter, decide_eq_true_eq] at sorted
    obtain ⟨held, -, -, -, owned, missing⟩ := sorted
    obtain ⟨-, -, -, build, id, -⟩ := replaced
    have equal := key other held owned (build.symm.trans embeds.2.1) (id.symm.trans embeds.2.2.1)
    exact missing ⟨row, here, equal ▸ embeds⟩
  · have selected : (⟨chunk.chunkId, chunk.content, chunk.buildId⟩ : Chunk) ∈
        provisionedChunks provided := by
      rw [chunks, activeUnembeddedChunks, List.mem_map]
      refine ⟨chunk, (List.mem_insertionSort _).mpr ?_, rfl⟩
      simp only [unembeddedRows, List.mem_filter, decide_eq_true_eq]
      exact ⟨there, active, organization, workspace, agreement, embedded⟩
    obtain ⟨provision, here, piece⟩ := List.mem_flatMap.mp selected
    obtain ⟨ready, by_⟩ := provisions_answering asked answers given provision here
    obtain ⟨vector, new⟩ := @exists_mem_valuesFrom _ job sink.configuration active' provision.written
      provision.batch.length 0 _ _ piece
    refine ⟨_, stored distinct _ (List.mem_flatMap_of_mem here new), agreement.symm, rfl, rfl, rfl, rfl,
      rfl, ?_, ready⟩
    simp only [embeddingValues, by_, Option.getD_some]

/-! Histories -/

/-- The rows of a chunk in the sink's index version and dimensions are one. -/
theorem under_eq_of_holds {embeddings : Embeddings φ} {configuration : EmbeddingConfiguration}
    {one two : String × String} (first : HoldsVector embeddings configuration one chunk)
    (second : HoldsVector embeddings configuration two chunk) : one = two := by
  obtain ⟨row, here, agreement, build, id, version, dimensions, under, by_, -⟩ := first
  obtain ⟨other, there, agreement', build', id', version', dimensions', under', by', -⟩ := second
  have same : row = other := by
    refine embeddings.eq_of_key here there ?_
    simp only [RetrievalChunkEmbedding.key, RetrievalChunkEmbedding.chunk, agreement, build, id, version,
      dimensions, agreement', build', id', version', dimensions']
  subst same
  exact Prod.ext (under.symm.trans under') (by_.symm.trans by')

/-- What a world keeps of the index it started from: its builds and chunks, and the vectors that each
chunk has by the runs of the sink. -/
structure Embedded (start : IndexTables φ) (configuration : EmbeddingConfiguration)
    (world : PromotionWorld φ) : Prop where
  agreements : world.db.index.agreements = start.agreements
  builds : world.db.index.builds = start.builds
  chunks : world.db.index.chunks = start.chunks
  last : ∀ chunk ∈ activeChunks start, ∀ under, lastRun world.runs (chunkScope chunk) = some under →
    HoldsVector world.db.index.embeddings configuration under chunk
  untouched : ∀ chunk ∈ activeChunks start, lastRun world.runs (chunkScope chunk) = none →
    ∀ under, HoldsVector world.db.index.embeddings configuration under chunk ↔
      HoldsVector start.embeddings configuration under chunk

variable {env : ServiceEnv φ} {runtime : EmbeddingRuntime φ} {start : IndexTables φ}
  {world : PromotionWorld φ}

theorem Embedded.of_index {db : ConfigurationTables φ} {succeeded : List Uuid}
    (embedded : Embedded start runtime.configuration world) (same : db.index = world.db.index) :
    Embedded start runtime.configuration ⟨db, succeeded, world.runs⟩ := by
  refine ⟨?_, ?_, ?_, ?_, ?_⟩ <;> simp only [same]
  · exact embedded.agreements
  · exact embedded.builds
  · exact embedded.chunks
  · exact embedded.last
  · exact embedded.untouched

theorem Embedded.embed (embedded : Embedded start runtime.configuration world) (job : ScopedJob)
    (succeeds : List Uuid) : Embedded start runtime.configuration
      (world.embed (runtime.sink env world.db) job succeeds) := by
  simp only [PromotionWorld.embed]
  by_cases locked : lockActiveAgreement world.db.index.agreements job.agreementId job.organizationId
      job.workspaceId = true
  · rw [if_pos locked]
    cases ran : embedActive (runtime.sink env world.db) world.db.index job with
    | error raised => exact embedded
    | ok session =>
        cases noted : runUnder (runtime.sink env world.db) job with
        | error raised => exact embedded
        | ok under =>
            obtain ⟨active, resolved, noted⟩ := bind_ok.mp noted
            obtain ⟨model, routed, noted⟩ := bind_ok.mp noted
            cases noted
            obtain ⟨gateway, asked, answers⟩ := EmbeddingRuntime.answers routed
            have whole : activeChunks world.db.index = activeChunks start := by
              rw [activeChunks, activeChunks, embedded.builds, embedded.chunks]
            refine ⟨embedded.agreements, embedded.builds, embedded.chunks, fun chunk member under => ?_,
              fun chunk member => ?_⟩
            · rw [lastRun_concat]
              by_cases inside : (⟨job.organizationId, job.workspaceId, job.agreementId⟩ : IndexScope) =
                  chunkScope chunk
              · rw [if_pos inside]
                intro same
                cases same
                exact embedActive_holds asked resolved routed answers ran (whole ▸ member) inside.symm
              · rw [if_neg inside]
                intro earlier
                have there : chunk ∈ world.db.index.chunks.rows :=
                  List.mem_of_mem_filter (whole ▸ member)
                exact (embedActive_frame ran there (Ne.symm inside) under).mpr
                  (embedded.last chunk member under earlier)
            · rw [lastRun_concat]
              by_cases inside : (⟨job.organizationId, job.workspaceId, job.agreementId⟩ : IndexScope) =
                  chunkScope chunk
              · rw [if_pos inside]
                nofun
              · rw [if_neg inside]
                intro never under
                have there : chunk ∈ world.db.index.chunks.rows :=
                  List.mem_of_mem_filter (whole ▸ member)
                exact (embedActive_frame ran there (Ne.symm inside) under).trans
                  (embedded.untouched chunk member never under)
  · rw [if_neg locked]
    exact embedded.of_index rfl

/-! The calls of the service leave the index -/

variable {db done : ConfigurationTables φ} {caller : ConfigurationCaller}

theorem create_index {request : CreateAIConfigurationRequest φ} {id : Uuid}
    (created : create env db caller request id = .ok done) : done.index = db.index := by
  obtain ⟨_, -, created⟩ := bind_ok.mp created
  simp only at created
  split at created
  · cases created
  · split at created
    · cases created
    · cases created
      rfl

theorem updatePrompt_index {configurationId : Uuid} {promptTemplate : String}
    (updated : updatePrompt db caller configurationId promptTemplate = .ok done) :
    done.index = db.index := by
  obtain ⟨_, -, updated⟩ := bind_ok.mp updated
  obtain ⟨record, -, updated⟩ := bind_ok.mp updated
  obtain ⟨_, -, updated⟩ := bind_ok.mp updated
  cases updated
  rfl

theorem publish_index {configurationId : Uuid}
    (published : publish env db caller configurationId = .ok done) : done.index = db.index := by
  obtain ⟨_, -, published⟩ := bind_ok.mp published
  obtain ⟨record, -, published⟩ := bind_ok.mp published
  obtain ⟨_, -, published⟩ := bind_ok.mp published
  obtain ⟨_, -, published⟩ := bind_ok.mp published
  cases published
  rfl

theorem promote_index {configurationId promotionId : Uuid} {environment : String} {now : Time}
    {uuid4 : Nat → Uuid}
    (promoted : promote env db caller configurationId environment promotionId now uuid4 = .ok done) :
    done.index = db.index := by
  obtain ⟨_, -, promoted⟩ := bind_ok.mp promoted
  obtain ⟨record, -, promoted⟩ := bind_ok.mp promoted
  split at promoted
  · cases promoted
  · obtain ⟨_, -, promoted⟩ := bind_ok.mp promoted
    split at promoted
    · cases promoted
    · obtain ⟨jobs, -, promoted⟩ := bind_ok.mp promoted
      cases promoted
      rfl

theorem Embedded.call (embedded : Embedded start runtime.configuration world)
    {outcome : Except ServiceError (ConfigurationTables φ)}
    (same : ∀ db, outcome = .ok db → db.index = world.db.index) :
    Embedded start runtime.configuration (world.after outcome) := by
  cases outcome with
  | error raised => exact embedded
  | ok db => exact embedded.of_index (same db rfl)

theorem Embedded.step (embedded : Embedded start runtime.configuration world)
    (event : PromotionEvent φ) :
    Embedded start runtime.configuration (step env runtime world event) := by
  cases event with
  | create caller request id => exact embedded.call fun _ => create_index
  | updatePrompt caller configurationId promptTemplate =>
      exact embedded.call fun _ => updatePrompt_index
  | publish caller configurationId => exact embedded.call fun _ => publish_index
  | promote caller configurationId environment promotionId now uuid4 =>
      exact embedded.call fun _ => promote_index
  | reindexed jobId =>
      simp only [AiConfig.step]
      split
      · exact embedded
      · split
        · exact embedded
        · exact embedded.embed _ _
  | completed agreementId organizationId workspaceId => exact embedded.embed _ _

/-- What the chunks hold is what the last runs were under. -/
theorem Embedded.converged_iff (embedded : Embedded start runtime.configuration world)
    (record : AIConfigurationVersionRecord φ) :
    Converged world.db.index runtime.configuration record ↔
      LastUnder start runtime.configuration world.runs record := by
  have whole : activeChunks world.db.index = activeChunks start := by
    rw [activeChunks, activeChunks, embedded.builds, embedded.chunks]
  simp only [Converged, LastUnder, whole]
  refine forall₄_congr fun chunk member organization workspace => ?_
  cases ran : lastRun world.runs (chunkScope chunk) with
  | none => exact embedded.untouched chunk member ran _
  | some under =>
      have holds := embedded.last chunk member under ran
      exact ⟨fun other => under_eq_of_holds holds other, fun same => same ▸ holds⟩

/-- The configuration is the one promoted last in the runtime environment. -/
def LastPromoted (env : ServiceEnv φ) (db : ConfigurationTables φ)
    (record : AIConfigurationVersionRecord φ) : Prop :=
  ((promotedVersions db embeddingOperation env.environment record.organizationId
    record.workspaceId).insertionSort fun a b => promotedLater a.1 b.1).head?.map (·.2.id) =
      some record.id

instance (env : ServiceEnv φ) (db : ConfigurationTables φ)
    (record : AIConfigurationVersionRecord φ) : Decidable (LastPromoted env db record) :=
  inferInstanceAs (Decidable (_ = _))

/-- Every queued re-index job has succeeded. -/
def PromotionWorld.AllSucceeded (world : PromotionWorld φ) : Prop :=
  ∀ job ∈ world.db.jobs.rows, (embeddingReindexConfigurationId job.profile).isSome →
    job.id ∈ world.succeeded

instance (world : PromotionWorld φ) : Decidable world.AllSucceeded :=
  inferInstanceAs (Decidable (∀ job ∈ world.db.jobs.rows, _))

def sampleEnv : ServiceEnv Int := ⟨fun _ => "", fun _ => true, "local"⟩

def sampleConfiguration (n : Nat) (version model : String) : AIConfigurationVersionRecord Int where
  id := .ofNat n
  organizationId := .ofNat 2
  workspaceId := .ofNat 3
  operation := embeddingOperation
  version := version
  promptTemplate := "p"
  promptChecksum := checksumOf "p"
  schemaJson := [("type", .null)]
  schemaChecksum := checksumOf (canonicalJson sampleEnv [("type", .null)])
  modelRoute := "openai:" ++ model
  parametersJson := []
  status := .published

def sampleTables : ConfigurationTables Int where
  versions := ⟨[sampleConfiguration 31 "1.0.0" "a", sampleConfiguration 32 "2.0.0" "b"], by decide⟩
  promotions := Keyed.empty
  jobs := Keyed.empty
  index := { indexedTables with embeddings := Keyed.empty }

def sampleRuntime : EmbeddingRuntime Int where
  configuration := ⟨"m", 1, "e", 1, 0, Nat.one_pos⟩
  mode := "openai"
  fallbackModel := none
  endpoint := {
    answer := fun _ options =>
      ⟨options.input.map fun _ => List.replicate options.dimensions 0, none, 0⟩
    counts := fun _ _ => List.length_map _
    fits := by simp }
  fallbackClient := none

def samplePromotion (n configuration : Nat) : PromotionEvent Int :=
  .promote ⟨.ofNat 2, .ofNat 3, true⟩ (.ofNat configuration) "local" (.ofNat (40 + n)) n
    fun i => .ofNat (50 + 10 * n + i)

/-- The first configuration, the second one and the first one again. -/
def samplePromotions : List (PromotionEvent Int) :=
  [samplePromotion 1 31, .reindexed (.ofNat 60), samplePromotion 2 32, .reindexed (.ofNat 70),
    samplePromotion 3 31]

end AgreementIntelligence.AiConfig
