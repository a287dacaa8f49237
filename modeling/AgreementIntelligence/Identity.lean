import Mathlib.Algebra.Group.Nat.Defs
import Mathlib.Data.List.Dedup
import Mathlib.Data.List.Sort

/-! Identities, clocks and the membership graph as the services read them. An identifier is
a 128-bit value whose canonical text is what `str` gives; a clock reading is a number of
seconds. Users, roles and permissions are outside the model except for the role that a
membership carries and the workspaces it opens. -/

namespace AgreementIntelligence.Identity

structure Uuid where
  bits : BitVec 128
  deriving DecidableEq, Repr

/-- A lower-case hexadecimal digit. -/
def hexDigit (n : Nat) : Char :=
  Char.ofNat (if n < 10 then 48 + n else 87 + n)

/-- The 32 hexadecimal digits of the identifier, most significant first. -/
def Uuid.hex (u : Uuid) : List Char :=
  (List.range 32).map fun i => hexDigit (u.bits.toNat / 16 ^ (31 - i) % 16)

/-- Python's `str(uuid)`: the digits in groups of 8, 4, 4, 4 and 12. -/
def Uuid.str (u : Uuid) : String :=
  String.ofList (u.hex.take 8 ++ '-' :: (u.hex.drop 8).take 4 ++ '-' :: (u.hex.drop 12).take 4 ++
    '-' :: (u.hex.drop 16).take 4 ++ '-' :: u.hex.drop 20)

def Uuid.ofNat (n : Nat) : Uuid := ⟨BitVec.ofNat 128 n⟩

/-- `sorted(…, key=str)`; equal-length lower-case hexadecimal text orders as the number does. -/
def sortedByText (ids : List Uuid) : List Uuid :=
  ids.insertionSort fun a b => a.bits.toNat ≤ b.bits.toNat

theorem mem_sortedByText {u : Uuid} {ids : List Uuid} : u ∈ sortedByText ids ↔ u ∈ ids :=
  List.mem_insertionSort _

abbrev Time := Nat

/-- `timedelta(hours=hours)` in seconds. -/
def hours (n : Nat) : Time := n * 3600

inductive RoleKey where
  | platformAdmin
  | organizationAdmin
  | legalAdmin
  | legalReviewer
  | businessUser
  | businessApprover
  | auditor
  deriving DecidableEq, Repr

def RoleKey.all : List RoleKey :=
  [.platformAdmin, .organizationAdmin, .legalAdmin, .legalReviewer, .businessUser,
    .businessApprover, .auditor]

def RoleKey.value : RoleKey → String
  | .platformAdmin => "platform_admin"
  | .organizationAdmin => "organization_admin"
  | .legalAdmin => "legal_admin"
  | .legalReviewer => "legal_reviewer"
  | .businessUser => "business_user"
  | .businessApprover => "business_approver"
  | .auditor => "auditor"

/-- A membership row joined with the key of its role. -/
structure Membership where
  id : Uuid
  organizationId : Uuid
  userId : Uuid
  roleKey : RoleKey
  deriving DecidableEq, Repr

structure WorkspaceMembership where
  workspaceId : Uuid
  membershipId : Uuid
  deriving DecidableEq, Repr

structure MembershipGraph where
  memberships : List Membership
  workspaceMemberships : List WorkspaceMembership
  deriving Repr

/-- The memberships of an organization that a workspace membership opens a workspace to: the
join that both eligibility queries start from. -/
def MembershipGraph.inWorkspace (graph : MembershipGraph) (organizationId workspaceId : Uuid) :
    List Membership :=
  graph.memberships.filter fun membership =>
    membership.organizationId = organizationId ∧
      graph.workspaceMemberships.any fun opened =>
        opened.membershipId = membership.id && opened.workspaceId = workspaceId

/-- Somebody holds a role in the workspace. -/
def MembershipGraph.HoldsRole (graph : MembershipGraph) (organizationId workspaceId : Uuid)
    (userId : Uuid) (key : String) : Prop :=
  ∃ membership ∈ graph.inWorkspace organizationId workspaceId,
    membership.userId = userId ∧ membership.roleKey.value = key

instance (graph : MembershipGraph) (organizationId workspaceId userId : Uuid) (key : String) :
    Decidable (graph.HoldsRole organizationId workspaceId userId key) :=
  inferInstanceAs (Decidable (∃ membership ∈ graph.inWorkspace organizationId workspaceId,
    membership.userId = userId ∧ membership.roleKey.value = key))

end AgreementIntelligence.Identity
