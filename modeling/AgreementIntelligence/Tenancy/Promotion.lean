import AgreementIntelligence.Tenancy.Scoping

/-! The promotion of an AI configuration statement by statement. -/

namespace AgreementIntelligence.Tenancy
open Identity Lib.Sessions Lib.Sessions.Program Agreements Indexing AiConfig

variable {φ : Type}

def configurationOf (configurationId : Uuid) (db : Database φ) :
    Option (AIConfigurationVersionRecord φ) :=
  db.configurations.find? (·.id = configurationId)

/-- `_record` -/
def configurationInTenant (caller : ServiceCaller) (configurationId : Uuid) :
    Transaction φ (AIConfigurationVersionRecord φ) := do
  match ← select [.aiConfigurationVersions] fun db => db.configurations.find? fun record =>
      record.id = configurationId ∧ record.organizationId = caller.organizationId ∧
        record.workspaceId = caller.workspaceId with
  | none => raise .hidden
  | some record => pure record

def raisedByService : ServiceError → ServiceRaised
  | .notFound => .hidden
  | .http status code => .http status code
  | .integrityError => .runtime "IntegrityError"
  | .typeError => .runtime "TypeError"

/-- The builds that `_enqueue_embedding_reindex_jobs` selects, with their agreements. -/
def activeBuilds (record : AIConfigurationVersionRecord φ) (db : Database φ) :
    List (RetrievalIndexBuild × AgreementRow φ) :=
  db.builds.flatMap fun build => (db.agreements.filter fun agreement =>
    agreement.id = build.agreementId ∧ agreement.organizationId = build.organizationId ∧
      agreement.workspaceId = build.workspaceId ∧ build.organizationId = record.organizationId ∧
      build.workspaceId = record.workspaceId ∧ build.state = .active ∧
      agreement.archivedAt = none ∧ agreement.deletionRequestedAt = none).map fun agreement =>
        (build, agreement)

/-- The loop over the builds; it counts the jobs that it queues. -/
def enqueueReindexEach (record : AIConfigurationVersionRecord φ) (created : Nat) :
    List (RetrievalIndexBuild × AgreementRow φ) → Transaction φ Nat
  | [] => pure created
  | (build, agreement) :: rest => do
    match ← select [.processingJobs] fun db : Database φ => db.jobs.find? fun job =>
        job.agreementId = agreement.id ∧
          job.idempotencyKey = reindexKey record.id build.id with
    | some _ => enqueueReindexEach record created rest
    | none => do
      add .processingJobs record.organizationId
      flush
      add .processingOutbox record.organizationId
      enqueueReindexEach record (created + 1) rest

/-- `_enqueue_embedding_reindex_jobs` -/
def enqueueReindexJobs (env : ServiceEnv φ) (record : AIConfigurationVersionRecord φ)
    (environment : String) : Transaction φ Nat := do
  if record.operation ≠ embeddingOperation ∨ environment ≠ env.environment then pure 0
  else do
    let indexed ← select [.retrievalIndexBuilds, .agreements] (activeBuilds record)
    enqueueReindexEach record 0 indexed

structure PromoteRequest where
  configurationId : Uuid
  environment : String
  deriving DecidableEq, Repr

/-- What `promote` does before its commit: the configuration it has loaded, and how many jobs it
has queued. -/
def recordPromotion (env : ServiceEnv φ) (caller : ServiceCaller) (request : PromoteRequest) :
    Transaction φ (Loaded (AIConfigurationVersionRecord φ) × Nat) := do
  authorizeCaller caller.toTenantCaller .playbooksManage .hidden
  let record ← configurationInTenant caller request.configurationId
  let object ← load record
  if record.status ≠ .published then raise (.http 409 "ai_configuration_not_published")
  else do
    match ensureValid env record with
    | .error error => raise (raisedByService error)
    | .ok () => do
      add .aiConfigurationPromotions caller.organizationId
      flush
      let reindexJobs ← enqueueReindexJobs env record request.environment
      add .aiConfigurationAuditEvents record.organizationId
      pure (object, reindexJobs)

/-- What `promote` does after its commit; the operation is read from the loaded configuration. -/
def dispatchPromotion (env : ServiceEnv φ) (caller : ServiceCaller) (request : PromoteRequest)
    (object : Loaded (AIConfigurationVersionRecord φ)) (reindexJobs : Nat) :
    Transaction φ Unit := do
  let record ← attributes object .aiConfigurationVersions (configurationOf object.value.id)
  if record.operation = embeddingOperation ∧ request.environment = env.environment then do
    let _ ← dispatchFor caller (max 10000 reindexJobs)
    pure ()
  else pure ()

/-- `AIConfigurationService.promote`, with the uuid4 and the time of the promotion. -/
def promote (env : ServiceEnv φ) (caller : ServiceCaller) (request : PromoteRequest)
    (promotionId : Uuid) (now : Time) : Transaction φ AIConfigurationPromotionRecord := do
  let (object, reindexJobs) ← recordPromotion env caller request
  commit
  dispatchPromotion env caller request object reindexJobs
  pure ⟨promotionId, caller.organizationId, caller.workspaceId, object.value.id,
    object.value.operation, request.environment, now⟩

/-! What a promotion sends -/

variable {p : SentByApi → Prop} {organizationId : Uuid}

/-- Each round is a look-up and, if the key is free, two rows. -/
theorem sends_enqueueReindexEach (admits : Admits p organizationId)
    (jobs : ∀ row refusal, p (.write (some organizationId) row refusal))
    (record : AIConfigurationVersionRecord φ)
    (indexed : List (RetrievalIndexBuild × AgreementRow φ)) :
    ∀ created, Sends p organizationId true (enqueueReindexEach record created indexed) true
      fun _ => True := by
  induction indexed with
  | nil => exact fun created => .pure trivial
  | cons first rest ih =>
      intro created
      refine .bind (.query (admits.read _)) fun existing _ => ?_
      cases existing with
      | some job => exact ih created
      | none =>
          exact .bind (.add fun refusal => jobs _ refusal) fun _ _ => .bind .flush fun _ _ =>
            .bind (.add fun refusal => jobs _ refusal) fun _ _ => ih (created + 1)

theorem sends_enqueueReindexJobs (admits : Admits p organizationId)
    (jobs : ∀ row refusal, p (.write (some organizationId) row refusal)) (env : ServiceEnv φ)
    (record : AIConfigurationVersionRecord φ) (environment : String) :
    Sends p organizationId true (enqueueReindexJobs env record environment) true fun _ => True :=
  .ite (fun _ => .pure trivial) fun _ => .bind (.query (admits.read _)) fun indexed _ =>
    sends_enqueueReindexEach admits jobs record indexed 0

theorem sends_configurationInTenant (caller : ServiceCaller)
    (admits : Admits p caller.organizationId) (configurationId : Uuid) :
    Sends p caller.organizationId true
      (configurationInTenant caller configurationId : Transaction φ _) true fun _ => True := by
  refine .bind (.query (admits.read _)) fun found _ => ?_
  cases found with
  | none => exact .raise
  | some record => exact .pure trivial

/-- The rows of a promotion; it returns the configuration as it was loaded. -/
theorem sends_recordLoaded (caller : ServiceCaller) (admits : Admits p caller.organizationId)
    (jobs : ∀ row refusal, p (.write (some caller.organizationId) row refusal))
    (env : ServiceEnv φ) (request : PromoteRequest) (record : AIConfigurationVersionRecord φ)
    (object : Loaded (AIConfigurationVersionRecord φ)) :
    Sends p caller.organizationId true
      (if record.status ≠ .published then raise (.http 409 "ai_configuration_not_published")
      else do
        match ensureValid env record with
        | .error error => raise (raisedByService error)
        | .ok () => do
          add .aiConfigurationPromotions caller.organizationId
          flush
          let reindexJobs ← enqueueReindexJobs env record request.environment
          add .aiConfigurationAuditEvents record.organizationId
          pure (object, reindexJobs) : Transaction φ _) true
      fun answer => answer.1 = object := by
  refine .ite (fun _ => .raise) fun _ => ?_
  cases ensureValid env record with
  | error error => exact .raise
  | ok valid =>
      exact .bind (.add fun refusal => jobs _ refusal) fun _ _ => .bind .flush fun _ _ =>
        .bind (sends_enqueueReindexJobs admits jobs env record _) fun _ _ =>
          .bind (.add fun refusal => jobs _ refusal) fun _ _ => .pure rfl

end AgreementIntelligence.Tenancy
