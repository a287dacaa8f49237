import AgreementIntelligence.Agreements.Submissions
import AgreementIntelligence.Indexing.Gateway
import AgreementIntelligence.Lib.JsonText
import AgreementIntelligence.Lib.Results

/-! Versions of AI configurations, their publication and their promotion to an environment. The
promotion of an embedding configuration to the runtime environment queues a re-index job for each
active build. -/

namespace AgreementIntelligence.AiConfig
open Identity Lib Lib.Json Lib.Text Lib.Sha256 Agreements Indexing

variable {φ : Type}

inductive ConfigurationStatus where
  | draft
  | published
  deriving DecidableEq, Repr

structure AIConfigurationVersionRecord (φ : Type) where
  id : Uuid
  organizationId : Uuid
  workspaceId : Uuid
  operation : String
  version : String
  promptTemplate : String
  promptChecksum : String
  schemaJson : List (String × Json φ)
  schemaChecksum : String
  modelRoute : String
  parametersJson : List (String × Json φ)
  status : ConfigurationStatus

structure AIConfigurationPromotionRecord where
  id : Uuid
  organizationId : Uuid
  workspaceId : Uuid
  configurationId : Uuid
  operation : String
  environment : String
  promotedAt : Time
  deriving DecidableEq, Repr

structure ConfigurationTables (φ : Type) where
  versions : Keyed (@AIConfigurationVersionRecord.id φ)
  promotions : Keyed AIConfigurationPromotionRecord.id
  jobs : Keyed ProcessingJobRecord.id
  index : IndexTables φ

/-- What the service reads besides its tables: the text of a float, the check of a JSON schema and
`AI_CONFIGURATION_ENVIRONMENT`. -/
structure ServiceEnv (φ : Type) where
  floatText : φ → String
  checkSchema : Json φ → Bool
  environment : String

inductive ServiceError where
  | notFound
  | http (status : Nat) (code : String)
  | integrityError
  | typeError
  deriving DecidableEq, Repr

/-- A caller's tenant, and whether the caller may manage playbooks there. -/
structure ConfigurationCaller where
  organizationId : Uuid
  workspaceId : Uuid
  mayManage : Bool
  deriving DecidableEq, Repr

structure CreateAIConfigurationRequest (φ : Type) where
  operation : String
  version : String
  promptTemplate : String
  schemaDefinition : List (String × Json φ)
  modelRoute : String
  parameters : List (String × Json φ)

/-- `_checksum` -/
def checksumOf (value : String) : String :=
  hexdigest (utf8 value)

def canonicalJson (env : ServiceEnv φ) (value : List (String × Json φ)) : String :=
  dumps env.floatText (.object value)

def authorize (caller : ConfigurationCaller) : Except ServiceError Unit :=
  if caller.mayManage then .ok () else .error .notFound

/-- `_record` -/
def recordInScope (db : ConfigurationTables φ) (caller : ConfigurationCaller)
    (configurationId : Uuid) : Except ServiceError (AIConfigurationVersionRecord φ) :=
  match db.versions.rows.find? fun record => record.id = configurationId ∧
      record.organizationId = caller.organizationId ∧ record.workspaceId = caller.workspaceId with
  | none => .error .notFound
  | some record => .ok record

def ensureDraft (record : AIConfigurationVersionRecord φ) : Except ServiceError Unit :=
  if record.status ≠ .draft then .error (.http 409 "published_ai_configuration_immutable")
  else .ok ()

/-- A number that is no `bool`, or no value. -/
def isTemperature : Json φ → Bool
  | .null => true
  | .int _ => true
  | .float _ => true
  | _ => false

def isPositiveInt : Json φ → Bool
  | .int value => 0 < value
  | _ => false

/-- `value in texts`, for a set of texts; a list or a mapping has no hash, and raises. -/
def inTexts (value : Json φ) (texts : List String) : Option Bool :=
  match value with
  | .array _ => none
  | .object _ => none
  | .string text => some (text ∈ texts)
  | _ => some false

/-- `encoding_format is None or encoding_format in {"float", "base64"}` -/
def encodingFormat (parameters : List (String × Json φ)) : Option Bool :=
  match get parameters "encoding_format" with
  | .null => some true
  | value => inTexts value ["float", "base64"]

def onlyParameters (parameters : List (String × Json φ)) (allowed : List String) : Bool :=
  parameters.all fun parameter => parameter.1 ∈ allowed

/-- The limits on tokens are positive integers. -/
def positiveTokens (parameters : List (String × Json φ)) : Bool :=
  parameters.all fun parameter => parameter.1 ∉ ["max_output_tokens", "max_tokens"] ||
    isPositiveInt parameter.2

/-- The parameters of a chat that a provider takes. -/
def providerParameters (provider : String) : List String :=
  if provider = "openai" then ["temperature", "max_output_tokens"]
  else ["temperature", "max_tokens"]

/-- `_supported_runtime_configuration`; nothing when it raises a `TypeError`. -/
def supportedRuntimeConfiguration (record : AIConfigurationVersionRecord φ) : Option Bool :=
  let (provider, separator, model) := partition record.modelRoute ':'
  let parameters := record.parametersJson
  if separator ≠ ":" ∨ provider ∉ ["openai", "openai-compatible"] ∨ strip model = "" then
    some false
  else if record.operation = embeddingOperation then
    if onlyParameters parameters ["encoding_format"] then encodingFormat parameters
    else some false
  else
    some (onlyParameters parameters (providerParameters provider) &&
      isTemperature (get parameters "temperature") && positiveTokens parameters)

/-- `_ensure_valid` -/
def ensureValid (env : ServiceEnv φ) (record : AIConfigurationVersionRecord φ) :
    Except ServiceError Unit :=
  if strip record.promptTemplate = "" ∨ record.schemaJson.isEmpty ∨ strip record.modelRoute = "" ∨
      record.promptChecksum ≠ checksumOf record.promptTemplate ∨
      record.schemaChecksum ≠ checksumOf (canonicalJson env record.schemaJson) then
    .error (.http 422 "invalid_ai_configuration_draft")
  else if ¬ env.checkSchema (.object record.schemaJson) then
    .error (.http 422 "invalid_ai_configuration_schema")
  else match supportedRuntimeConfiguration record with
  | none => .error .typeError
  | some false => .error (.http 422 "unsupported_ai_configuration")
  | some true => .ok ()

/-- `create`, with the uuid4 of the record. -/
def create (env : ServiceEnv φ) (db : ConfigurationTables φ) (caller : ConfigurationCaller)
    (request : CreateAIConfigurationRequest φ) (id : Uuid) :
    Except ServiceError (ConfigurationTables φ) := do
  authorize caller
  let record : AIConfigurationVersionRecord φ := {
    id := id
    organizationId := caller.organizationId
    workspaceId := caller.workspaceId
    operation := request.operation
    version := request.version
    promptTemplate := request.promptTemplate
    promptChecksum := checksumOf request.promptTemplate
    schemaJson := request.schemaDefinition
    schemaChecksum := checksumOf (canonicalJson env request.schemaDefinition)
    modelRoute := request.modelRoute
    parametersJson := request.parameters
    status := .draft }
  if db.versions.rows.any fun other => other.organizationId = record.organizationId ∧
      other.workspaceId = record.workspaceId ∧ other.operation = record.operation ∧
      other.version = record.version then
    .error (.http 409 "ai_configuration_version_conflict")
  else match db.versions.insert record with
  | none => .error .integrityError
  | some versions => .ok { db with versions := versions }

def updateRecord (db : ConfigurationTables φ) (id : Uuid)
    (change : AIConfigurationVersionRecord φ → AIConfigurationVersionRecord φ)
    (keeps : ∀ record, (change record).id = record.id) : ConfigurationTables φ :=
  { db with versions := db.versions.updateWhere (·.id = id) change keeps }

def updatePrompt (db : ConfigurationTables φ) (caller : ConfigurationCaller)
    (configurationId : Uuid) (promptTemplate : String) :
    Except ServiceError (ConfigurationTables φ) := do
  authorize caller
  let record ← recordInScope db caller configurationId
  ensureDraft record
  .ok (updateRecord db record.id (fun record => { record with
    promptTemplate := promptTemplate
    promptChecksum := checksumOf promptTemplate }) fun _ => rfl)

def publish (env : ServiceEnv φ) (db : ConfigurationTables φ) (caller : ConfigurationCaller)
    (configurationId : Uuid) : Except ServiceError (ConfigurationTables φ) := do
  authorize caller
  let record ← recordInScope db caller configurationId
  ensureDraft record
  ensureValid env record
  .ok (updateRecord db record.id (fun record => { record with status := .published }) fun _ => rfl)

/-- The active builds of a tenant with their agreements, as `_enqueue_embedding_reindex_jobs` joins
them. -/
def indexedAgreements (index : IndexTables φ) (organizationId workspaceId : Uuid) :
    List (RetrievalIndexBuild × AgreementRecord) :=
  index.builds.rows.flatMap fun build => (index.agreements.rows.filter fun agreement =>
    agreement.id = build.agreementId ∧ agreement.organizationId = build.organizationId ∧
    agreement.workspaceId = build.workspaceId ∧ build.organizationId = organizationId ∧
    build.workspaceId = workspaceId ∧ build.state = .active ∧ agreement.archivedAt = none ∧
    agreement.deletionRequestedAt = none).map fun agreement => (build, agreement)

def reindexKey (configurationId buildId : Uuid) : String :=
  "ai-config:" ++ configurationId.str ++ ":embedding-reindex:" ++ buildId.str

/-- The job that a promotion queues for a build, and never queues again. -/
def reindexJob (configurationId : Uuid) (indexed : RetrievalIndexBuild × AgreementRecord)
    (jobId : Uuid) (now : Time) : ProcessingJobRecord :=
  queuedJob indexed.2 jobId none (reindexKey configurationId indexed.1.id)
    (embeddingReindexProfilePrefix ++ configurationId.str)
    (none, some indexed.1.sourceChecksum, none) now

/-- A job of the key exists. -/
def Enqueued (jobs : Keyed ProcessingJobRecord.id) (configurationId : Uuid)
    (indexed : RetrievalIndexBuild × AgreementRecord) : Prop :=
  ∃ job ∈ jobs.rows, job.agreementId = indexed.2.id ∧
    job.idempotencyKey = reindexKey configurationId indexed.1.id

instance (jobs : Keyed ProcessingJobRecord.id) (configurationId : Uuid)
    (indexed : RetrievalIndexBuild × AgreementRecord) :
    Decidable (Enqueued jobs configurationId indexed) :=
  inferInstanceAs (Decidable (∃ job ∈ jobs.rows, _))

/-- The loop of `_enqueue_embedding_reindex_jobs`; `uuid4 n` is the key of the `n`-th build's job. -/
def enqueueEach (configurationId : Uuid) (uuid4 : Nat → Uuid) (now : Time) :
    (n : Nat) → Keyed ProcessingJobRecord.id → List (RetrievalIndexBuild × AgreementRecord) →
      Except ServiceError (Keyed ProcessingJobRecord.id)
  | _, jobs, [] => .ok jobs
  | n, jobs, indexed :: rest =>
    if Enqueued jobs configurationId indexed then
      enqueueEach configurationId uuid4 now (n + 1) jobs rest
    else match jobs.insert (reindexJob configurationId indexed (uuid4 n) now) with
    | none => .error .integrityError
    | some jobs => enqueueEach configurationId uuid4 now (n + 1) jobs rest

/-- `_enqueue_embedding_reindex_jobs` -/
def enqueueEmbeddingReindexJobs (env : ServiceEnv φ) (db : ConfigurationTables φ)
    (record : AIConfigurationVersionRecord φ) (environment : String) (uuid4 : Nat → Uuid)
    (now : Time) : Except ServiceError (Keyed ProcessingJobRecord.id) :=
  if record.operation ≠ embeddingOperation ∨ environment ≠ env.environment then .ok db.jobs
  else enqueueEach record.id uuid4 now 0 db.jobs
    (indexedAgreements db.index record.organizationId record.workspaceId)

/-- `promote`, with the uuid4 and the time of the promotion and the uuid4 keys of the jobs. -/
def promote (env : ServiceEnv φ) (db : ConfigurationTables φ) (caller : ConfigurationCaller)
    (configurationId : Uuid) (environment : String) (promotionId : Uuid) (now : Time)
    (uuid4 : Nat → Uuid) : Except ServiceError (ConfigurationTables φ) := do
  authorize caller
  let record ← recordInScope db caller configurationId
  if record.status ≠ .published then .error (.http 409 "ai_configuration_not_published")
  else do
    ensureValid env record
    match db.promotions.insert ⟨promotionId, caller.organizationId, caller.workspaceId, record.id,
        record.operation, environment, now⟩ with
    | none => .error .integrityError
    | some promotions =>
      let jobs ← enqueueEmbeddingReindexJobs env db record environment uuid4 now
      .ok { db with promotions := promotions, jobs := jobs }

/-! The worker's resolver over these tables -/

/-- `_snapshot` -/
def snapshot (record : AIConfigurationVersionRecord φ) : ResolvedAIConfiguration φ where
  operation := record.operation
  version := record.version
  modelRoute := record.modelRoute
  parameters := record.parametersJson

/-- The promotions of an environment with their published versions, as `_load` joins them. -/
def promotedVersions (db : ConfigurationTables φ) (operation environment : String)
    (organizationId workspaceId : Uuid) :
    List (AIConfigurationPromotionRecord × AIConfigurationVersionRecord φ) :=
  db.promotions.rows.flatMap fun promotion => (db.versions.rows.filter fun version =>
    version.id = promotion.configurationId ∧ promotion.operation = operation ∧
    promotion.environment = environment ∧ promotion.organizationId = organizationId ∧
    promotion.workspaceId = workspaceId ∧ version.organizationId = organizationId ∧
    version.workspaceId = workspaceId ∧ version.status = .published).map fun version =>
      (promotion, version)

/-- `ORDER BY promoted_at DESC, id DESC` -/
def promotedLater (a b : AIConfigurationPromotionRecord) : Prop :=
  b.promotedAt < a.promotedAt ∨ (a.promotedAt = b.promotedAt ∧ b.id.bits ≤ a.id.bits)

instance (a b : AIConfigurationPromotionRecord) : Decidable (promotedLater a b) :=
  inferInstanceAs (Decidable (_ ∨ _))

/-- `DatabaseConfigurationResolver` -/
def databaseResolver (db : ConfigurationTables φ) : ConfigurationResolver φ where
  loader := fun operation environment organizationId workspaceId =>
    ((promotedVersions db operation environment organizationId workspaceId).insertionSort
      fun a b => promotedLater a.1 b.1).head?.map fun found => snapshot found.2
  configurationByIdLoader := fun operation configurationId organizationId workspaceId =>
    (db.versions.rows.find? fun version => version.id = configurationId ∧
      version.operation = operation ∧ version.organizationId = organizationId ∧
      version.workspaceId = workspaceId ∧ version.status = .published).map snapshot

end AgreementIntelligence.AiConfig
