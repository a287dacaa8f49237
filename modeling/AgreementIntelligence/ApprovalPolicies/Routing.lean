import Mathlib.Data.List.Sort
import AgreementIntelligence.Lib.Casing
import AgreementIntelligence.ApprovalPolicies

/-! Routing. A policy covers a direction, a jurisdiction and a materiality, each of which may be
any; the published versions that cover a request are ranked by how many of the three they fix
and by precedence, and the first one is taken unless the second ranks the same. -/

namespace AgreementIntelligence.ApprovalPolicies
open Identity Lib.Casing

inductive AgreementFamily where
  | clientAgreement
  | liquidityProviderAgreement
  deriving DecidableEq, Repr

def AgreementFamily.value : AgreementFamily → String
  | .clientAgreement => "client_agreement"
  | .liquidityProviderAgreement => "liquidity_provider_agreement"

inductive DocumentDirection where
  | any
  | firstParty
  | counterparty
  deriving DecidableEq, Repr

def DocumentDirection.value : DocumentDirection → String
  | .any => "any"
  | .firstParty => "first_party"
  | .counterparty => "counterparty"

inductive Materiality where
  | any
  | low
  | medium
  | high
  | critical
  deriving DecidableEq, Repr

def Materiality.value : Materiality → String
  | .any => "any"
  | .low => "low"
  | .medium => "medium"
  | .high => "high"
  | .critical => "critical"

structure ApprovalPolicy where
  id : Uuid
  organizationId : Uuid
  workspaceId : Uuid
  name : String
  agreementFamily : AgreementFamily
  documentDirection : DocumentDirection
  jurisdiction : String
  materiality : Materiality
  precedence : Nat
  createdBy : Uuid
  deriving DecidableEq, Repr

/-- The committed rows; a version row joins the policy row it belongs to. -/
structure PolicyDb where
  policies : List ApprovalPolicy
  versions : List ApprovalPolicyVersion
  deriving DecidableEq, Repr

def PolicyDb.policy? (db : PolicyDb) (id : Uuid) : Option ApprovalPolicy :=
  db.policies.find? fun policy => policy.id = id

/-- The published versions of a workspace with the policies they belong to. -/
def PolicyDb.publishedIn (db : PolicyDb) (organizationId workspaceId : Uuid) :
    List (ApprovalPolicyVersion × ApprovalPolicy) :=
  (db.versions.filter fun version => version.organizationId = organizationId ∧
    version.workspaceId = workspaceId ∧ version.status = .published).filterMap fun version =>
      (db.policy? version.policyId).map fun policy => (version, policy)

def httpError (status : Nat) (code : String) : HttpException := ⟨status, code, ""⟩

def hideResource : HttpException := httpError 404 "resource_not_found"

/-- The values of the three scopes, in the order they are compared in. -/
def ApprovalPolicy.scopes (policy : ApprovalPolicy) : List String :=
  [policy.documentDirection.value, policy.jurisdiction, policy.materiality.value]

def scopeMatches (policyValue requestedValue : String) : Bool :=
  policyValue = "any" || policyValue = requestedValue

def normalizeScopeValue (casing : CaseTable) (value : String) : String :=
  if casing.casefold value = "any" then "any" else casing.upperText value

def routeSortKey (policy : ApprovalPolicy) : Nat × Nat :=
  ((policy.scopes.filter fun value => value ≠ "any").length, policy.precedence)

/-- Pairs in lexicographic order. -/
def keyLe (a b : Nat × Nat) : Bool :=
  a.1 < b.1 || (a.1 = b.1 && a.2 ≤ b.2)

def scopeValuesOverlap (first second : String) : Bool :=
  first = "any" || second = "any" || first = second

def routingScopesOverlap (first second : ApprovalPolicy) : Bool :=
  (first.scopes.zip second.scopes).all fun pair => scopeValuesOverlap pair.1 pair.2

structure ApprovalPolicyRouteRequest where
  agreementFamily : AgreementFamily
  documentDirection : DocumentDirection
  jurisdiction : String
  materiality : Materiality
  deriving DecidableEq, Repr

/-- The validator of the request. -/
def ApprovalPolicyRouteRequest.normalize (casing : CaseTable)
    (request : ApprovalPolicyRouteRequest) : ApprovalPolicyRouteRequest :=
  { request with jurisdiction := normalizeScopeValue casing request.jurisdiction }

def ApprovalPolicy.covers (policy : ApprovalPolicy) (request : ApprovalPolicyRouteRequest) : Bool :=
  scopeMatches policy.documentDirection.value request.documentDirection.value &&
    scopeMatches policy.jurisdiction request.jurisdiction &&
    scopeMatches policy.materiality.value request.materiality.value

def PolicyDb.routeMatches (db : PolicyDb) (organizationId workspaceId : Uuid)
    (request : ApprovalPolicyRouteRequest) : List (ApprovalPolicyVersion × ApprovalPolicy) :=
  (db.publishedIn organizationId workspaceId).filter fun candidate =>
    candidate.2.agreementFamily = request.agreementFamily && candidate.2.covers request

def routingConflict : HttpException := httpError 409 "approval_policy_routing_conflict"

/-- `route`; `mayRead` is whether the caller may read agreements in the workspace. The sort is
stable and puts the greatest key first. -/
def route (db : PolicyDb) (mayRead : Bool) (organizationId workspaceId : Uuid)
    (request : ApprovalPolicyRouteRequest) :
    Except HttpException (Option (ApprovalPolicyVersion × ApprovalPolicy)) :=
  if mayRead = false then .error hideResource
  else
  match (db.routeMatches organizationId workspaceId request).insertionSort
      (fun a b => keyLe (routeSortKey b.2) (routeSortKey a.2)) with
  | [] => .ok none
  | [selected] => .ok (some selected)
  | selected :: second :: _ =>
    if routeSortKey second.2 = routeSortKey selected.2 then .error routingConflict
    else .ok (some selected)

theorem scopeMatches_overlap {first second requested : String}
    (one : scopeMatches first requested = true) (other : scopeMatches second requested = true) :
    scopeValuesOverlap first second = true := by
  simp only [scopeMatches, scopeValuesOverlap, Bool.or_eq_true, decide_eq_true_eq] at *
  rcases one with rfl | rfl
  · exact .inl (.inl rfl)
  · rcases other with rfl | rfl
    · exact .inl (.inr rfl)
    · exact .inr rfl

/-- Policies that cover the same request overlap. -/
theorem routingScopesOverlap_of_covers {first second : ApprovalPolicy}
    {request : ApprovalPolicyRouteRequest} (one : first.covers request = true)
    (other : second.covers request = true) : routingScopesOverlap first second = true := by
  simp only [ApprovalPolicy.covers, Bool.and_eq_true] at one other
  simp only [routingScopesOverlap, ApprovalPolicy.scopes, List.zip_cons_cons, List.zip_nil_right,
    List.all_cons, List.all_nil, Bool.and_true, Bool.and_eq_true]
  exact ⟨scopeMatches_overlap one.1.1 other.1.1, scopeMatches_overlap one.1.2 other.1.2,
    scopeMatches_overlap one.2 other.2⟩

theorem scopeValuesOverlap_comm (first second : String) :
    scopeValuesOverlap first second = scopeValuesOverlap second first := by
  simp only [scopeValuesOverlap, eq_comm (a := first) (b := second), Bool.or_comm (first = "any")]

theorem routingScopesOverlap_comm (first second : ApprovalPolicy) :
    routingScopesOverlap first second = routingScopesOverlap second first := by
  simp only [routingScopesOverlap, ApprovalPolicy.scopes, List.zip_cons_cons, List.zip_nil_right,
    List.all_cons, List.all_nil, scopeValuesOverlap_comm first.documentDirection.value,
    scopeValuesOverlap_comm first.jurisdiction, scopeValuesOverlap_comm first.materiality.value]

/-- What the routing conflict is raised about: two published versions that match and rank the
same. -/
theorem route_conflict {db : PolicyDb} {mayRead : Bool} {organizationId workspaceId : Uuid}
    {request : ApprovalPolicyRouteRequest}
    (raised : route db mayRead organizationId workspaceId request = .error routingConflict) :
    ∃ first second, [first, second].Subperm
        (db.routeMatches organizationId workspaceId request) ∧
      routeSortKey second.2 = routeSortKey first.2 := by
  unfold route at raised
  split_ifs at raised with hidden
  · have code := congrArg HttpException.code (Except.error.inj raised)
    simp [hideResource, routingConflict, httpError] at code
  · have sorted := List.perm_insertionSort
      (fun a b : ApprovalPolicyVersion × ApprovalPolicy =>
        keyLe (routeSortKey b.2) (routeSortKey a.2) = true)
      (db.routeMatches organizationId workspaceId request)
    split at raised
    · cases raised
    · cases raised
    · rename_i first second rest shape
      split_ifs at raised with same
      rw [shape] at sorted
      refine ⟨first, second, ?_, same⟩
      exact (List.sublist_append_left [first, second] rest).subperm.trans sorted.subperm

end AgreementIntelligence.ApprovalPolicies
