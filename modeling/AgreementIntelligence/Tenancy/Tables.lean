import AgreementIntelligence.AiConfig.Service
import AgreementIntelligence.Authorization
import AgreementIntelligence.Lib.Sessions
import AgreementIntelligence.Reviews.Collaboration

/-! The tables that the API's services read and write, with the row-level security of the tenant
tables: a transaction sees the rows of the organization that `app.organization_id` names, and none
where it names none. Stages and stored events are rows of their own here, so the list of stages in
the row of a policy version or of a workflow is not looked at. -/

namespace AgreementIntelligence.Tenancy
open Identity Lib.Json Lib.Sessions Agreements Indexing ApprovalPolicies Reviews AiConfig

inductive TableName where
  | roles
  | workspaces
  | memberships
  | workspaceMemberships
  | agreements
  | agreementVersions
  | processingJobs
  | processingOutbox
  | versionComparisonRuns
  | aiConfigurationVersions
  | aiConfigurationPromotions
  | aiConfigurationAuditEvents
  | retrievalIndexBuilds
  | reviewCases
  | reviewAssignments
  | reviewComments
  | reviewNotificationEvents
  | playbookEvaluations
  | playbookFindings
  | approvalPolicyVersions
  | approvalPolicyStages
  | reviewWorkflows
  | reviewWorkflowStages
  | reviewWorkflowDecisions
  | reviewWorkflowOutbox
  | auditEvents
  deriving DecidableEq, Repr

/-- The tables with a policy; of those named here only the catalog of roles has none. -/
def TableName.tenantProtected (table : TableName) : Bool := table ≠ .roles

/-- A row with the organization that its `organization_id` names. -/
structure InOrganization (ρ : Type) where
  organizationId : Uuid
  row : ρ

structure InWorkspace (ρ : Type) extends InOrganization ρ where
  workspaceId : Uuid

structure AgreementRow (φ : Type) extends AgreementRecord where
  agreementType : String
  auditMetadata : Json φ

structure OutboxRow extends ProcessingOutboxRecord where
  id : Uuid
  createdAt : Time
  deriving DecidableEq, Repr

structure CommentRow where
  id : Uuid
  organizationId : Uuid
  workspaceId : Uuid
  reviewId : Uuid
  findingId : Option Uuid
  agreementVersionId : Option Uuid
  authorId : Uuid
  body : String
  idempotencyKey : String
  createdAt : Time
  deriving DecidableEq, Repr

/-- A review case with the key of the request that has opened it. -/
structure ReviewRow extends ReviewCase where
  idempotencyKey : String
  deriving DecidableEq, Repr

structure Database (φ : Type) where
  workspaces : List Workspace
  memberships : List Membership
  workspaceMemberships : List (InOrganization WorkspaceMembership)
  agreements : List (AgreementRow φ)
  versions : List AgreementVersionRecord
  jobs : List ProcessingJobRecord
  outbox : List OutboxRow
  comparisons : List (InOrganization VersionComparisonRunRecord)
  configurations : List (AIConfigurationVersionRecord φ)
  builds : List RetrievalIndexBuild
  reviews : List ReviewRow
  assignments : List (InWorkspace ReviewAssignment)
  comments : List CommentRow
  findings : List (InWorkspace Uuid)
  policyVersions : List ApprovalPolicyVersion
  policyStages : List (InOrganization ApprovalPolicyStage)
  workflows : List ReviewWorkflow
  stages : List (InOrganization ReviewWorkflowStage)
  decisions : List (InOrganization ReviewWorkflowDecision)
  workflowOutbox : List (InOrganization ReviewWorkflowOutboxEvent)

/-- The rows that a transaction sees of a table with a tenant policy. -/
def visibleRows {ρ : Type} (scope : Option Uuid) (organizationId : ρ → Uuid) (rows : List ρ) :
    List ρ :=
  rows.filter fun row => scope = some (organizationId row)

variable {φ : Type}

def Database.visible (scope : Option Uuid) (db : Database φ) : Database φ where
  workspaces := visibleRows scope (·.organizationId) db.workspaces
  memberships := visibleRows scope (·.organizationId) db.memberships
  workspaceMemberships := visibleRows scope (·.organizationId) db.workspaceMemberships
  agreements := visibleRows scope (·.organizationId) db.agreements
  versions := visibleRows scope (·.organizationId) db.versions
  jobs := visibleRows scope (·.organizationId) db.jobs
  outbox := visibleRows scope (·.organizationId) db.outbox
  comparisons := visibleRows scope (·.organizationId) db.comparisons
  configurations := visibleRows scope (·.organizationId) db.configurations
  builds := visibleRows scope (·.organizationId) db.builds
  reviews := visibleRows scope (·.organizationId) db.reviews
  assignments := visibleRows scope (·.organizationId) db.assignments
  comments := visibleRows scope (·.organizationId) db.comments
  findings := visibleRows scope (·.organizationId) db.findings
  policyVersions := visibleRows scope (·.organizationId) db.policyVersions
  policyStages := visibleRows scope (·.organizationId) db.policyStages
  workflows := visibleRows scope (·.organizationId) db.workflows
  stages := visibleRows scope (·.organizationId) db.stages
  decisions := visibleRows scope (·.organizationId) db.decisions
  workflowOutbox := visibleRows scope (·.organizationId) db.workflowOutbox

instance : Scoped (Database φ) Uuid := ⟨Database.visible⟩

theorem organizationId_of_visible {ρ : Type} {organizationId : ρ → Uuid} {rows : List ρ}
    {scope : Uuid} {row : ρ} (seen : row ∈ visibleRows (some scope) organizationId rows) :
    organizationId row = scope := by
  simp only [visibleRows, List.mem_filter, decide_eq_true_eq, Option.some.injEq] at seen
  exact seen.2.symm

/-- Outside every scope there is nothing to see. -/
theorem visibleRows_none {ρ : Type} (organizationId : ρ → Uuid) (rows : List ρ) :
    visibleRows none organizationId rows = [] := by
  simp [visibleRows]

/-- What the services raise themselves. -/
inductive ServiceRaised where
  | agreementNotFound
  | idempotencyKeyConflict
  | retryNotPermitted
  | comparisonConflict
  | reviewConflict
  | workflowConflict (message : Option String)
  | hidden
  | http (status : Nat) (code : String)
  | runtime (message : String)
  | publishing
  deriving DecidableEq, Repr

abbrev Transaction (φ : Type) := Program Uuid TableName (Database φ) ServiceRaised

abbrev ApiSession (φ : Type) := Session Uuid TableName (Database φ)

abbrev SentByApi := Sent Uuid TableName

open Program

/-- `IdentityService.can_access_workspace`, which begins with `_set_tenant_scope`. -/
def canAccessWorkspace (userId organizationId workspaceId : Uuid) (permission : PermissionKey) :
    Transaction φ Bool := do
  setScope organizationId
  match ← select [.workspaces] fun db => db.workspaces.find? (·.id = workspaceId) with
  | none => pure false
  | some workspace =>
    if workspace.organizationId ≠ organizationId then pure false
    else do
      let memberships ← select [.memberships, .roles] fun db =>
        db.memberships.filter fun membership =>
          membership.organizationId = organizationId ∧ membership.userId = userId
      let allowed := memberships.filter fun membership =>
        permission ∈ permissionsFor membership.roleKey
      if allowed.isEmpty then pure false
      else if allowed.any opensEveryWorkspace then pure true
      else select [.workspaceMemberships] fun db =>
        db.workspaceMemberships.any fun opened => opened.row.workspaceId = workspaceId ∧
          opened.row.membershipId ∈ allowed.map (·.id)

/-- Who calls, and in which organization and workspace. -/
structure TenantCaller where
  userId : Uuid
  organizationId : Uuid
  workspaceId : Uuid
  deriving DecidableEq, Repr

/-- `_authorize` -/
def authorizeCaller (caller : TenantCaller) (permission : PermissionKey)
    (refused : ServiceRaised) : Transaction φ Unit := do
  if ← canAccessWorkspace caller.userId caller.organizationId caller.workspaceId permission then
    pure ()
  else raise refused

end AgreementIntelligence.Tenancy
