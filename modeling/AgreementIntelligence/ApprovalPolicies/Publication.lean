import AgreementIntelligence.Lib.CheckThenAct
import AgreementIntelligence.Lib.Runs
import AgreementIntelligence.Lib.Table
import AgreementIntelligence.ApprovalPolicies.Routing

/-! Publication. A publication loads its draft, looks for another published version of the policy,
looks for a published version that routing could not tell apart, and commits; each of these reads
what is committed at its moment and none takes a lock. The audit rows of policies are left out. -/

namespace AgreementIntelligence.ApprovalPolicies
open Identity Lib.Casing Lib.Runs Lib.CheckThenAct

/-- The caller with the scope of the request; `mayManage` is whether the permission to manage
approval policies opens the workspace to the caller. -/
structure PolicyCaller where
  userId : Uuid
  organizationId : Uuid
  workspaceId : Uuid
  mayManage : Bool
  deriving DecidableEq, Repr

structure ApprovalPolicyStageWrite where
  name : String
  approvalMode : ApprovalMode
  quorumCount : Option Nat
  eligibleRoleKeys : List String
  eligibleUserIds : List Uuid
  deadlineHours : Option Nat
  escalationRoleKey : Option String
  deriving DecidableEq, Repr

structure CreateApprovalPolicyRequest where
  name : String
  agreementFamily : AgreementFamily
  documentDirection : DocumentDirection
  jurisdiction : String
  materiality : Materiality
  precedence : Nat
  submitterMayApprove : Bool
  allowCrossStageSameApprover : Bool
  stages : List ApprovalPolicyStageWrite
  deriving DecidableEq, Repr

def authorize (caller : PolicyCaller) : Except HttpException Unit :=
  if caller.mayManage then .ok () else .error hideResource

/-- A primary key refuses a repeated identifier. -/
def integrityError : HttpException := httpError 500 "integrity_error"

/-- `_add_stages`, numbered from one. -/
def addStages (uuid4 : Nat → Uuid) (versionId : Uuid) (stages : List ApprovalPolicyStageWrite) :
    List ApprovalPolicyStage :=
  stages.zipIdx.map fun entry =>
    { id := uuid4 entry.2
      policyVersionId := versionId
      ordinal := entry.2 + 1
      name := entry.1.name
      approvalMode := entry.1.approvalMode
      quorumCount := entry.1.quorumCount
      eligibleRoleKeys := entry.1.eligibleRoleKeys
      eligibleUserIds := entry.1.eligibleUserIds
      deadlineHours := entry.1.deadlineHours
      escalationRoleKey := entry.1.escalationRoleKey }

def insertVersion (db : PolicyDb) (version : ApprovalPolicyVersion) :
    Except HttpException PolicyDb :=
  if version.id ∈ db.versions.map (·.id) then .error integrityError
  else .ok { db with versions := db.versions ++ [version] }

def create (casing : CaseTable) (uuid4 : Nat → Uuid) (db : PolicyDb) (caller : PolicyCaller)
    (request : CreateApprovalPolicyRequest) : Except HttpException PolicyDb := do
  authorize caller
  let policy : ApprovalPolicy := {
    id := uuid4 0
    organizationId := caller.organizationId
    workspaceId := caller.workspaceId
    name := request.name
    agreementFamily := request.agreementFamily
    documentDirection := request.documentDirection
    jurisdiction := normalizeScopeValue casing request.jurisdiction
    materiality := request.materiality
    precedence := request.precedence
    createdBy := caller.userId }
  if policy.id ∈ db.policies.map (·.id) then .error integrityError
  else
    insertVersion { db with policies := db.policies ++ [policy] } {
      id := uuid4 1
      organizationId := caller.organizationId
      workspaceId := caller.workspaceId
      policyId := policy.id
      version := 1
      status := .draft
      submitterMayApprove := request.submitterMayApprove
      allowCrossStageSameApprover := request.allowCrossStageSameApprover
      stages := addStages (fun n => uuid4 (2 + n)) (uuid4 1) request.stages }

def policyInScope (db : PolicyDb) (caller : PolicyCaller) (policyId : Uuid) :
    Except HttpException ApprovalPolicy :=
  match db.policies.find? fun policy => policy.id = policyId ∧
      policy.organizationId = caller.organizationId ∧ policy.workspaceId = caller.workspaceId with
  | none => .error hideResource
  | some policy => .ok policy

def versionInScope (db : PolicyDb) (caller : PolicyCaller) (policyId : Uuid)
    (versionNumber : Nat) : Except HttpException ApprovalPolicyVersion :=
  match db.versions.find? fun version => version.policyId = policyId ∧
      version.version = versionNumber ∧ version.organizationId = caller.organizationId ∧
      version.workspaceId = caller.workspaceId with
  | none => .error hideResource
  | some version => .ok version

/-- `coalesce(max(version), 0) + 1` -/
def nextVersion (db : PolicyDb) (policyId : Uuid) : Nat :=
  ((db.versions.filter fun version => version.policyId = policyId).map (·.version)).foldl max 0 + 1

/-- The draft that `create_version` adds, with the stages of its source. -/
def draftOf (uuid4 : Nat → Uuid) (db : PolicyDb) (caller : PolicyCaller)
    (policy : ApprovalPolicy) (source : Option ApprovalPolicyVersion) : ApprovalPolicyVersion where
  id := uuid4 0
  organizationId := caller.organizationId
  workspaceId := caller.workspaceId
  policyId := policy.id
  version := nextVersion db policy.id
  status := .draft
  submitterMayApprove := (source.map (·.submitterMayApprove)).getD false
  allowCrossStageSameApprover := (source.map (·.allowCrossStageSameApprover)).getD false
  stages := ((source.map (·.stages)).getD []).zipIdx.map fun entry =>
    { entry.1 with id := uuid4 (1 + entry.2), policyVersionId := uuid4 0 }

/-- `create_version`; the policy row is locked meanwhile. -/
def createVersion (uuid4 : Nat → Uuid) (db : PolicyDb) (caller : PolicyCaller) (policyId : Uuid)
    (sourceVersion : Option Nat) : Except HttpException PolicyDb := do
  authorize caller
  let policy ← policyInScope db caller policyId
  match sourceVersion with
  | none => insertVersion db (draftOf uuid4 db caller policy none)
  | some number =>
    let source ← versionInScope db caller policyId number
    insertVersion db (draftOf uuid4 db caller policy (some source))

/-- The first part of `publish`: the draft and its policy, when it may be published at all. -/
def loadDraft (db : PolicyDb) (caller : PolicyCaller) (policyId : Uuid) (versionNumber : Nat) :
    Except HttpException (ApprovalPolicyVersion × ApprovalPolicy) := do
  authorize caller
  let version ← versionInScope db caller policyId versionNumber
  if version.status ≠ .draft then .error (httpError 409 "published_approval_policy_immutable")
  else
    validateDraft version
    match db.policy? version.policyId with
    | none => .error integrityError
    | some policy => return (version, policy)

def ensureUnpublished (db : PolicyDb) (policyId : Uuid) : Except HttpException Unit :=
  if db.versions.any fun version => version.policyId = policyId && version.status = .published then
    .error (httpError 409 "published_approval_policy_exists")
  else .ok ()

def ensureNoEqualRoutingMatch (db : PolicyDb) (policy : ApprovalPolicy) (versionId : Uuid) :
    Except HttpException Unit :=
  if (db.publishedIn policy.organizationId policy.workspaceId).any fun candidate =>
      candidate.1.id ≠ versionId && candidate.2.agreementFamily = policy.agreementFamily &&
        (routeSortKey candidate.2 = routeSortKey policy && routingScopesOverlap candidate.2 policy)
  then .error routingConflict
  else .ok ()

def markPublished (db : PolicyDb) (versionId : Uuid) : PolicyDb :=
  { db with versions := Lib.Table.update (·.id) db.versions versionId fun version =>
      { version with status := .published } }

/-- How far a publication has come. -/
inductive Progress where
  | loaded
  | unpublished
  | unmatched
  deriving DecidableEq, Repr

/-- A publication between two of its statements. -/
structure Publication where
  version : ApprovalPolicyVersion
  policy : ApprovalPolicy
  progress : Progress
  deriving DecidableEq, Repr

structure PolicySystem where
  db : PolicyDb
  publishing : List Publication
  deriving DecidableEq, Repr

inductive PolicyAction where
  | create (uuid4 : Nat → Uuid) (caller : PolicyCaller) (request : CreateApprovalPolicyRequest)
  | createVersion (uuid4 : Nat → Uuid) (caller : PolicyCaller) (policyId : Uuid)
      (sourceVersion : Option Nat)
  | beginPublish (caller : PolicyCaller) (policyId : Uuid) (versionNumber : Nat)
  | continuePublish (i : Nat)
  | abandonPublish (i : Nat)

/-- The next statement of a publication. -/
def Publication.continue (system : PolicySystem) (i : Nat) (publication : Publication) :
    PolicySystem :=
  match publication.progress with
  | .loaded =>
    match ensureUnpublished system.db publication.policy.id with
    | .error _ => { system with publishing := system.publishing.eraseIdx i }
    | .ok () => { system with
        publishing := system.publishing.set i { publication with progress := .unpublished } }
  | .unpublished =>
    match ensureNoEqualRoutingMatch system.db publication.policy publication.version.id with
    | .error _ => { system with publishing := system.publishing.eraseIdx i }
    | .ok () => { system with
        publishing := system.publishing.set i { publication with progress := .unmatched } }
  | .unmatched =>
    { db := markPublished system.db publication.version.id
      publishing := system.publishing.eraseIdx i }

def policyStep (casing : CaseTable) (system : PolicySystem) : PolicyAction → PolicySystem
  | .create uuid4 caller request =>
    match create casing uuid4 system.db caller request with
    | .error _ => system
    | .ok db => { system with db := db }
  | .createVersion uuid4 caller policyId sourceVersion =>
    match createVersion uuid4 system.db caller policyId sourceVersion with
    | .error _ => system
    | .ok db => { system with db := db }
  | .beginPublish caller policyId versionNumber =>
    match loadDraft system.db caller policyId versionNumber with
    | .error _ => system
    | .ok (version, policy) => { system with
        publishing := system.publishing ++ [⟨version, policy, .loaded⟩] }
  | .continuePublish i =>
    match system.publishing[i]? with
    | none => system
    | some publication => publication.continue system i
  | .abandonPublish i => { system with publishing := system.publishing.eraseIdx i }

end AgreementIntelligence.ApprovalPolicies
