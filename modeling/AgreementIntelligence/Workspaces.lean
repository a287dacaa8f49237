import AgreementIntelligence.Authorization
import AgreementIntelligence.Lib.Queries
import Mathlib.Data.String.Basic

/-! The workspaces that a principal is listed, and those that are open to the principal. An
administrator is listed every workspace of the organization; anybody else is listed what a join
with the workspace memberships returns. -/

namespace AgreementIntelligence.Identity
open Lib.Queries

structure WorkspaceRow where
  id : Uuid
  organizationId : Uuid
  name : String
  slug : String
  deriving DecidableEq, Repr

structure WorkspaceMembershipRow where
  organizationId : Uuid
  workspaceId : Uuid
  membershipId : Uuid
  deriving DecidableEq, Repr

/-- The tables with the constraints of their schema. -/
structure WorkspaceTables where
  workspaces : List WorkspaceRow
  memberships : List Membership
  workspaceMemberships : List WorkspaceMembershipRow
  workspaceKeys : (workspaces.map (·.id)).Nodup
  membershipKeys : (memberships.map (·.id)).Nodup
  heldOnce : (memberships.map fun held => (held.organizationId, held.userId, held.roleKey)).Nodup
  openedOnce : (workspaceMemberships.map fun opened =>
    (opened.workspaceId, opened.membershipId)).Nodup
  opensWorkspace : ∀ opened ∈ workspaceMemberships, ∃ workspace ∈ workspaces,
    workspace.id = opened.workspaceId ∧ workspace.organizationId = opened.organizationId
  opensMembership : ∀ opened ∈ workspaceMemberships, ∃ membership ∈ memberships,
    membership.id = opened.membershipId ∧ membership.organizationId = opened.organizationId

/-- The tables as access is decided on them. -/
def WorkspaceTables.identity (tables : WorkspaceTables) : IdentityTables where
  memberships := tables.memberships
  workspaceMemberships :=
    tables.workspaceMemberships.map fun opened => ⟨opened.workspaceId, opened.membershipId⟩
  workspaces := tables.workspaces.map fun workspace => ⟨workspace.id, workspace.organizationId⟩

section Listing
variable {κ : Type} [LinearOrder κ] (collate : String → κ) (tables : WorkspaceTables)
  (userId organizationId : Uuid)

def readableMemberships : List Membership :=
  allowedMemberships tables.identity userId organizationId .workspacesRead

/-- `select(Workspace).join(WorkspaceMembership)` over some memberships: a workspace once for each
of its workspace memberships that is among them. -/
def joinedWorkspaces (membershipIds : List Uuid) : List WorkspaceRow :=
  tables.workspaces.flatMap fun workspace =>
    (tables.workspaceMemberships.filter fun opened =>
      workspace.organizationId = organizationId ∧
        opened.organizationId = workspace.organizationId ∧ opened.workspaceId = workspace.id ∧
          opened.membershipId ∈ membershipIds).map fun _ => workspace

/-- `list_workspaces_for_organization`; names are ordered by the collation of the database. -/
def listWorkspacesForOrganization : Option (List WorkspaceRow) :=
  let readable := readableMemberships tables userId organizationId
  if readable = [] then none
  else if readable.any opensEveryWorkspace then
    some (orderBy (fun workspace => collate workspace.name)
      (tables.workspaces.filter fun workspace => workspace.organizationId = organizationId))
  else
    some (orderBy (fun workspace => collate workspace.name)
      (joinedWorkspaces tables organizationId (readable.map (·.id))))

/-- The workspaces of the organization that are open to the user. -/
def Accessible (workspace : WorkspaceRow) : Prop :=
  workspace ∈ tables.workspaces ∧ workspace.organizationId = organizationId ∧
    canAccessWorkspace tables.identity userId organizationId workspace.id .workspacesRead = true

end Listing

section Access
variable {tables : WorkspaceTables} {userId organizationId : Uuid} {workspace : WorkspaceRow}

theorem mem_readableMemberships {membership : Membership} :
    membership ∈ readableMemberships tables userId organizationId ↔
      membership ∈ tables.memberships ∧ membership.organizationId = organizationId ∧
        membership.userId = userId ∧
          PermissionKey.workspacesRead ∈ permissionsFor membership.roleKey := by
  simp [readableMemberships, allowedMemberships, WorkspaceTables.identity]

/-- A workspace membership belongs to the organization of its workspace. -/
theorem organizationId_of_opened {opened : WorkspaceMembershipRow}
    (listed : opened ∈ tables.workspaceMemberships) (member : workspace ∈ tables.workspaces)
    (same : opened.workspaceId = workspace.id) :
    opened.organizationId = workspace.organizationId := by
  obtain ⟨other, there, key, owner⟩ := tables.opensWorkspace opened listed
  rw [← owner, List.inj_on_of_nodup_map tables.workspaceKeys there member (key.trans same)]

/-- Access comes with a membership that grants the permission, and that is an administrator's or
that a workspace membership opens the workspace to. -/
theorem canAccessWorkspace_iff {workspaceId : Uuid} {permission : PermissionKey} :
    canAccessWorkspace tables.identity userId organizationId workspaceId permission = true ↔
      (∃ workspace ∈ tables.workspaces, workspace.id = workspaceId ∧
        workspace.organizationId = organizationId) ∧
      ∃ membership ∈ tables.memberships, (membership.organizationId = organizationId ∧
        membership.userId = userId ∧ permission ∈ permissionsFor membership.roleKey) ∧
        (opensEveryWorkspace membership = true ∨ ∃ opened ∈ tables.workspaceMemberships,
          opened.workspaceId = workspaceId ∧ opened.membershipId = membership.id) := by
  dsimp only [canAccessWorkspace]
  rw [Bool.and_eq_true, Bool.or_eq_true, List.any_eq_true, List.any_eq_true, List.any_eq_true,
    ← exists_or]
  simp [WorkspaceTables.identity, allowedMemberships, ← and_or_left, and_assoc]

theorem accessible_iff : Accessible tables userId organizationId workspace ↔
    workspace ∈ tables.workspaces ∧ workspace.organizationId = organizationId ∧
      ∃ membership ∈ readableMemberships tables userId organizationId,
        opensEveryWorkspace membership = true ∨ ∃ opened ∈ tables.workspaceMemberships,
          opened.workspaceId = workspace.id ∧ opened.membershipId = membership.id := by
  refine and_congr_right fun listed => and_congr_right fun owned => ?_
  rw [canAccessWorkspace_iff, and_iff_right ⟨workspace, listed, rfl, owned⟩]
  simp only [mem_readableMemberships, and_assoc]

/-- The join returns the workspaces that the memberships open. -/
theorem mem_joinedWorkspaces {membershipIds : List Uuid} :
    workspace ∈ joinedWorkspaces tables organizationId membershipIds ↔
      workspace ∈ tables.workspaces ∧ workspace.organizationId = organizationId ∧
        ∃ opened ∈ tables.workspaceMemberships, opened.workspaceId = workspace.id ∧
          opened.membershipId ∈ membershipIds := by
  simp only [joinedWorkspaces, List.mem_flatMap, List.mem_map, List.mem_filter, decide_eq_true_eq]
  constructor
  · rintro ⟨row, listed, opened, ⟨there, owned, -, opens, among⟩, rfl⟩
    exact ⟨listed, owned, opened, there, opens, among⟩
  · rintro ⟨listed, owned, opened, there, opens, among⟩
    exact ⟨workspace, listed, opened,
      ⟨there, owned, organizationId_of_opened there listed opens, opens, among⟩, rfl⟩

/-- What is listed is what is open. -/
theorem mem_listed {κ : Type} [LinearOrder κ] {collate : String → κ} {listed : List WorkspaceRow}
    (returned : listWorkspacesForOrganization collate tables userId organizationId = some listed) :
    workspace ∈ listed ↔ Accessible tables userId organizationId workspace := by
  dsimp only [listWorkspacesForOrganization] at returned
  rw [accessible_iff]
  split at returned
  · cases returned
  · split at returned
    · rename_i administrator
      rw [List.any_eq_true] at administrator
      cases returned
      rw [mem_orderBy, List.mem_filter, decide_eq_true_eq]
      obtain ⟨membership, readable, opens⟩ := administrator
      have administered : ∃ membership ∈ readableMemberships tables userId organizationId,
          opensEveryWorkspace membership = true ∨ ∃ opened ∈ tables.workspaceMemberships,
            opened.workspaceId = workspace.id ∧ opened.membershipId = membership.id :=
        ⟨membership, readable, .inl opens⟩
      rw [and_iff_left administered]
    · rename_i administrator
      rw [List.any_eq_true] at administrator
      cases returned
      rw [mem_orderBy, mem_joinedWorkspaces]
      refine and_congr_right fun _ => and_congr_right fun _ => ?_
      constructor
      · rintro ⟨opened, there, opens, among⟩
        obtain ⟨membership, readable, same⟩ := List.mem_map.mp among
        exact ⟨membership, readable, .inr ⟨opened, there, opens, same.symm⟩⟩
      · rintro ⟨membership, readable, every | ⟨opened, there, opens, same⟩⟩
        · exact absurd ⟨membership, readable, every⟩ administrator
        · exact ⟨opened, there, opens, List.mem_map.mpr ⟨membership, readable, same.symm⟩⟩

end Access

/-! Each workspace once -/

section Once
variable (tables : WorkspaceTables) (userId organizationId : Uuid)

/-- Two of the memberships that let the user read workspaces open one and the same workspace. -/
def OpenedTwice : Prop :=
  ∃ first ∈ readableMemberships tables userId organizationId,
    ∃ second ∈ readableMemberships tables userId organizationId, first ≠ second ∧
      ∃ opened ∈ tables.workspaceMemberships, ∃ again ∈ tables.workspaceMemberships,
        opened.membershipId = first.id ∧ again.membershipId = second.id ∧
          opened.workspaceId = again.workspaceId

end Once

theorem length_le_one_iff {α : Type} {items : List α} (distinct : items.Nodup) :
    items.length ≤ 1 ↔ ∀ first ∈ items, ∀ second ∈ items, first = second := by
  cases items with
  | nil => simp
  | cons item rest =>
      cases rest with
      | nil => simp
      | cons next later =>
          have apart : item ≠ next := fun same =>
            (List.nodup_cons.mp distinct).1 (same ▸ List.mem_cons_self)
          simp only [List.length_cons]
          constructor
          · intro short
            omega
          · intro same
            exact absurd (same item (by simp) next (by simp)) apart

/-- The join repeats a workspace where two of the memberships open it. -/
theorem nodup_joinedWorkspaces {tables : WorkspaceTables} {organizationId : Uuid}
    {membershipIds : List Uuid} :
    (joinedWorkspaces tables organizationId membershipIds).Nodup ↔
      ∀ workspace ∈ tables.workspaces, workspace.organizationId = organizationId →
        ∀ opened ∈ tables.workspaceMemberships, ∀ again ∈ tables.workspaceMemberships,
          opened.workspaceId = workspace.id → again.workspaceId = workspace.id →
            opened.membershipId ∈ membershipIds → again.membershipId ∈ membershipIds →
              opened = again := by
  have distinct : tables.workspaceMemberships.Nodup := List.Nodup.of_map _ tables.openedOnce
  have rows : tables.workspaces.Nodup := List.Nodup.of_map _ tables.workspaceKeys
  rw [joinedWorkspaces, List.nodup_flatMap, and_iff_left]
  · refine forall₂_congr fun workspace listed => ?_
    rw [List.map_const', List.nodup_replicate, length_le_one_iff (distinct.filter _)]
    simp only [List.mem_filter, decide_eq_true_eq]
    constructor
    · intro single owned opened there again too opens opensAgain among amongAgain
      exact single opened
        ⟨there, owned, organizationId_of_opened there listed opens, opens, among⟩ again
        ⟨too, owned, organizationId_of_opened too listed opensAgain, opensAgain, amongAgain⟩
    · rintro single opened ⟨there, owned, -, opens, among⟩ again ⟨too, -, -, opensAgain, amongAgain⟩
      exact single owned opened there again too opens opensAgain among amongAgain
  · refine rows.imp fun {first second} apart row one two => ?_
    obtain ⟨opened, -, rfl⟩ := List.mem_map.mp one
    obtain ⟨again, -, same⟩ := List.mem_map.mp two
    exact apart same.symm

section Listed
variable {κ : Type} [LinearOrder κ] (collate : String → κ) (tables : WorkspaceTables)
  (userId organizationId : Uuid)

theorem nodup_joined_iff :
    (joinedWorkspaces tables organizationId
      ((readableMemberships tables userId organizationId).map (·.id))).Nodup ↔
        ¬ OpenedTwice tables userId organizationId := by
  rw [nodup_joinedWorkspaces]
  constructor
  · rintro once ⟨first, one, second, two, apart, opened, there, again, too, mine, theirs, same⟩
    obtain ⟨workspace, listed, key, owner⟩ := tables.opensWorkspace opened there
    obtain ⟨membership, holds, held, holder⟩ := tables.opensMembership opened there
    have known := mem_readableMemberships.mp one
    have self : membership = first :=
      List.inj_on_of_nodup_map tables.membershipKeys holds known.1 (held.trans mine)
    have owned : workspace.organizationId = organizationId := by
      rw [owner, ← holder, self, known.2.1]
    have equal := once workspace listed owned opened there again too key.symm
      (same.symm.trans key.symm) (List.mem_map.mpr ⟨first, one, mine.symm⟩)
      (List.mem_map.mpr ⟨second, two, theirs.symm⟩)
    refine apart (List.inj_on_of_nodup_map tables.membershipKeys known.1
      (mem_readableMemberships.mp two).1 ?_)
    rw [← mine, ← theirs, equal]
  · intro once workspace listed owned opened there again too opens opensAgain among amongAgain
    obtain ⟨first, one, mine⟩ := List.mem_map.mp among
    obtain ⟨second, two, theirs⟩ := List.mem_map.mp amongAgain
    by_contra apart
    refine once ⟨first, one, second, two, fun same => apart ?_, opened, there, again, too,
      mine.symm, theirs.symm, opens.trans opensAgain.symm⟩
    refine List.inj_on_of_nodup_map tables.openedOnce there too (Prod.ext ?_ ?_)
    · exact opens.trans opensAgain.symm
    · rw [← mine, ← theirs, same]

/-- Tables in which some memberships and workspace memberships were granted besides. -/
structure Grants (tables more : WorkspaceTables) : Prop where
  workspaces : ∀ row ∈ tables.workspaces, row ∈ more.workspaces
  memberships : ∀ row ∈ tables.memberships, row ∈ more.memberships
  workspaceMemberships : ∀ row ∈ tables.workspaceMemberships, row ∈ more.workspaceMemberships

/-- A further grant takes no access away. -/
theorem canAccessWorkspace_grants {tables more : WorkspaceTables} (grants : Grants tables more)
    (userId organizationId workspaceId : Uuid) (permission : PermissionKey)
    (access : canAccessWorkspace tables.identity userId organizationId workspaceId permission =
      true) :
    canAccessWorkspace more.identity userId organizationId workspaceId permission = true := by
  rw [canAccessWorkspace_iff] at access ⊢
  obtain ⟨⟨workspace, listed, here⟩, membership, holds, granted, opens⟩ := access
  refine ⟨⟨workspace, grants.workspaces workspace listed, here⟩, membership,
    grants.memberships membership holds, granted, opens.imp_right ?_⟩
  rintro ⟨opened, there, same⟩
  exact ⟨opened, grants.workspaceMemberships opened there, same⟩

/-- The listing and the access check agree: the listing is missing only without a membership that
grants reading, every workspace that is open is listed once and nothing else is, and no further
grant takes access away. -/
structure ListingAgrees : Prop where
  missing : listWorkspacesForOrganization collate tables userId organizationId = none ↔
    ∀ membership ∈ tables.memberships, membership.organizationId = organizationId →
      membership.userId = userId →
        PermissionKey.workspacesRead ∉ permissionsFor membership.roleKey
  once : ∀ listed,
    listWorkspacesForOrganization collate tables userId organizationId = some listed →
      (listed.map (·.id)).Nodup
  same : ∀ listed,
    listWorkspacesForOrganization collate tables userId organizationId = some listed →
      ∀ workspace, workspace ∈ listed ↔ Accessible tables userId organizationId workspace
  grants : ∀ more, Grants tables more → ∀ workspaceId permission,
    canAccessWorkspace tables.identity userId organizationId workspaceId permission = true →
      canAccessWorkspace more.identity userId organizationId workspaceId permission = true

theorem listed_eq_none_iff :
    listWorkspacesForOrganization collate tables userId organizationId = none ↔
      readableMemberships tables userId organizationId = [] := by
  dsimp only [listWorkspacesForOrganization]
  by_cases none : readableMemberships tables userId organizationId = []
  · simp [none]
  · rw [if_neg none]
    split <;> simp [none]

/-- Workspaces of the table that are told apart have different identifiers. -/
theorem nodup_ids_iff {rows : List WorkspaceRow} (listed : ∀ row ∈ rows, row ∈ tables.workspaces) :
    (rows.map (·.id)).Nodup ↔ rows.Nodup :=
  ⟨fun ids => List.Nodup.of_map _ ids, fun apart => apart.map_on fun first one second two same =>
    List.inj_on_of_nodup_map tables.workspaceKeys (listed first one) (listed second two) same⟩

theorem nodup_listed_iff :
    (∀ listed, listWorkspacesForOrganization collate tables userId organizationId = some listed →
      (listed.map (·.id)).Nodup) ↔
    (∃ membership ∈ readableMemberships tables userId organizationId,
      opensEveryWorkspace membership = true) ∨ ¬ OpenedTwice tables userId organizationId := by
  dsimp only [listWorkspacesForOrganization]
  by_cases none : readableMemberships tables userId organizationId = []
  · simp [none, OpenedTwice]
  · rw [if_neg none, ← List.any_eq_true]
    by_cases administrator :
        (readableMemberships tables userId organizationId).any opensEveryWorkspace = true
    · have rows : tables.workspaces.Nodup := List.Nodup.of_map _ tables.workspaceKeys
      have once : ((orderBy (fun workspace => collate workspace.name)
          (tables.workspaces.filter fun workspace =>
            workspace.organizationId = organizationId)).map (·.id)).Nodup := by
        rw [nodup_ids_iff tables, (perm_orderBy _ _).nodup_iff]
        · exact rows.filter _
        · intro row member
          rw [mem_orderBy, List.mem_filter] at member
          exact member.1
      simp [administrator, once]
    · rw [if_neg administrator, or_iff_right administrator, ← nodup_joined_iff]
      simp only [Option.some.injEq, forall_eq']
      rw [nodup_ids_iff tables, (perm_orderBy _ _).nodup_iff]
      intro row member
      rw [mem_orderBy, mem_joinedWorkspaces] at member
      exact member.1

/-- They agree exactly for administrators and where no workspace is opened twice. -/
theorem listingAgrees_iff : ListingAgrees collate tables userId organizationId ↔
    (∃ membership ∈ readableMemberships tables userId organizationId,
      opensEveryWorkspace membership = true) ∨ ¬ OpenedTwice tables userId organizationId := by
  rw [← nodup_listed_iff collate tables userId organizationId]
  constructor
  · exact fun agrees => agrees.once
  · intro once
    refine
      { missing := ?_
        once := once
        same := fun listed returned workspace => mem_listed returned
        grants := fun more grants workspaceId permission =>
          canAccessWorkspace_grants grants userId organizationId workspaceId permission }
    rw [listed_eq_none_iff, List.eq_nil_iff_forall_not_mem]
    simp only [mem_readableMemberships, not_and]

/-! A reviewer who is also a business user -/

/-- Both roles of the user open the one workspace of the organization. -/
def twoRoles : WorkspaceTables where
  workspaces := [⟨Uuid.ofNat 10, Uuid.ofNat 1, "Derivatives", "derivatives"⟩]
  memberships :=
    [⟨Uuid.ofNat 20, Uuid.ofNat 1, Uuid.ofNat 2, .legalReviewer⟩,
      ⟨Uuid.ofNat 21, Uuid.ofNat 1, Uuid.ofNat 2, .businessUser⟩]
  workspaceMemberships :=
    [⟨Uuid.ofNat 1, Uuid.ofNat 10, Uuid.ofNat 20⟩, ⟨Uuid.ofNat 1, Uuid.ofNat 10, Uuid.ofNat 21⟩]
  workspaceKeys := by decide
  membershipKeys := by decide
  heldOnce := by decide
  openedOnce := by decide
  opensWorkspace := by decide
  opensMembership := by decide

theorem not_listingAgrees :
    ¬ ListingAgrees (fun name => name) twoRoles (Uuid.ofNat 2) (Uuid.ofNat 1) := by
  intro agrees
  exact absurd (agrees.once _ rfl) (by decide +kernel)

end Listed

end AgreementIntelligence.Identity
