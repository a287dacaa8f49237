import AgreementIntelligence.Identity

/-! What a principal may do in an organization and in its workspaces. Permissions come with the
roles that memberships carry; but for administrators a workspace is open only to memberships that
were added to it. -/

namespace AgreementIntelligence.Identity

inductive PermissionKey where
  | membersManage
  | workspacesManage
  | workspacesRead
  | agreementsCreate
  | agreementsRead
  | agreementsUpdate
  | agreementsDelete
  | reviewsAssign
  | reviewsDecide
  | reviewsApprove
  | playbooksManage
  | approvalPoliciesManage
  | searchQuery
  | auditRead
  deriving DecidableEq, Repr

def PermissionKey.all : List PermissionKey :=
  [.membersManage, .workspacesManage, .workspacesRead, .agreementsCreate, .agreementsRead,
    .agreementsUpdate, .agreementsDelete, .reviewsAssign, .reviewsDecide, .reviewsApprove,
    .playbooksManage, .approvalPoliciesManage, .searchQuery, .auditRead]

/-- `permissions_for` -/
def permissionsFor : RoleKey → List PermissionKey
  | .platformAdmin => PermissionKey.all
  | .organizationAdmin =>
    [.membersManage, .workspacesManage, .workspacesRead, .agreementsRead, .searchQuery, .auditRead]
  | .legalAdmin =>
    [.workspacesRead, .reviewsAssign, .reviewsApprove, .agreementsRead, .searchQuery,
      .approvalPoliciesManage]
  | .legalReviewer => [.workspacesRead, .agreementsRead, .reviewsDecide, .searchQuery]
  | .businessUser =>
    [.workspacesRead, .agreementsCreate, .agreementsRead, .agreementsUpdate, .searchQuery]
  | .businessApprover => [.workspacesRead, .agreementsRead, .reviewsApprove, .searchQuery]
  | .auditor => [.agreementsRead, .auditRead, .searchQuery]

structure Workspace where
  id : Uuid
  organizationId : Uuid
  deriving DecidableEq, Repr

structure IdentityTables extends MembershipGraph where
  workspaces : List Workspace

variable (tables : IdentityTables)

/-- The memberships of a user in an organization that grant a permission. -/
def allowedMemberships (userId organizationId : Uuid) (permission : PermissionKey) :
    List Membership :=
  tables.memberships.filter fun membership =>
    membership.organizationId = organizationId ∧ membership.userId = userId ∧
      permission ∈ permissionsFor membership.roleKey

def opensEveryWorkspace (membership : Membership) : Bool :=
  membership.roleKey ∈ [RoleKey.platformAdmin, .organizationAdmin]

/-- `can_access_workspace` -/
def canAccessWorkspace (userId organizationId workspaceId : Uuid) (permission : PermissionKey) :
    Bool :=
  let allowed := allowedMemberships tables userId organizationId permission
  (tables.workspaces.any fun workspace =>
      workspace.id = workspaceId ∧ workspace.organizationId = organizationId) &&
    (allowed.any opensEveryWorkspace || allowed.any fun membership =>
      tables.workspaceMemberships.any fun opened =>
        opened.workspaceId = workspaceId ∧ opened.membershipId = membership.id)

/-- Tables with the same rows, in whatever order. -/
structure IdentityTables.SameRows (tables other : IdentityTables) : Prop where
  workspaces : ∀ row, row ∈ tables.workspaces ↔ row ∈ other.workspaces
  memberships : ∀ row, row ∈ tables.memberships ↔ row ∈ other.memberships
  workspaceMemberships :
    ∀ row, row ∈ tables.workspaceMemberships ↔ row ∈ other.workspaceMemberships

theorem canAccessWorkspace_congr {tables other : IdentityTables} (same : tables.SameRows other)
    (userId organizationId workspaceId : Uuid) (permission : PermissionKey) :
    canAccessWorkspace tables userId organizationId workspaceId permission =
      canAccessWorkspace other userId organizationId workspaceId permission := by
  have any_congr {α : Type} {rows rows' : List α} (rowwise : ∀ row, row ∈ rows ↔ row ∈ rows')
      (p : α → Bool) : rows.any p = rows'.any p := by
    rw [Bool.eq_iff_iff, List.any_eq_true, List.any_eq_true]
    simp only [rowwise]
  have allowed : ∀ row, row ∈ allowedMemberships tables userId organizationId permission ↔
      row ∈ allowedMemberships other userId organizationId permission := fun row => by
    rw [allowedMemberships, allowedMemberships, List.mem_filter, List.mem_filter,
      same.memberships row]
  simp only [canAccessWorkspace, any_congr same.workspaces, any_congr allowed,
    any_congr same.workspaceMemberships]

end AgreementIntelligence.Identity
