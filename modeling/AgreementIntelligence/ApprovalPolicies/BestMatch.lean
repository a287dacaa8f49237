import Mathlib.Data.Prod.Lex
import AgreementIntelligence.ApprovalPolicies.NoConflicts
import AgreementIntelligence.Lib.Leaders

/-! The best match. Routing sorts the published versions that cover a request and looks at the
first two; what it takes is the one that ranks highest, and what it refuses is a request for which
two rank highest. The check of a publication never sees a request: it refuses a policy that
overlaps with a published one of the same rank, which are those that some request cannot tell
apart. -/

namespace AgreementIntelligence.ApprovalPolicies
open Identity Lib.Casing Lib.Runs Lib.Leaders

/-! What the requests may hold -/

/-- The bounds of the field `jurisdiction` -/
def JurisdictionField (value : String) : Prop :=
  2 ≤ value.length ∧ value.length ≤ 16

instance (value : String) : Decidable (JurisdictionField value) :=
  inferInstanceAs (Decidable (_ ∧ _))

def ApprovalPolicyRouteRequest.Accepted (request : ApprovalPolicyRouteRequest) : Prop :=
  JurisdictionField request.jurisdiction

def PolicyAction.Accepted : PolicyAction → Prop
  | .create _ _ request => JurisdictionField request.jurisdiction
  | _ => True

instance (action : PolicyAction) : Decidable action.Accepted := by
  cases action <;> unfold PolicyAction.Accepted <;> infer_instance

/-- Each policy has a jurisdiction that `create` stores for an accepted value. -/
def PolicyDb.Admissible (casing : CaseTable) (db : PolicyDb) : Prop :=
  ∀ policy ∈ db.policies, ∃ value, JurisdictionField value ∧
    policy.jurisdiction = normalizeScopeValue casing value

/-! What routing is for -/

abbrev Candidate := ApprovalPolicyVersion × ApprovalPolicy

/-- The order that routing sorts by -/
def RanksAbove (first second : Candidate) : Prop :=
  keyLe (routeSortKey second.2) (routeSortKey first.2) = true

instance : DecidableRel RanksAbove := fun first second =>
  inferInstanceAs (Decidable (keyLe (routeSortKey second.2) (routeSortKey first.2) = true))

/-- Nothing is found for exactly the requests that no policy of the family covers; what is found
is a match that none ranks above, the only one; and a conflict is two such matches. -/
structure RoutesBest (db : PolicyDb) (organizationId workspaceId : Uuid)
    (request : ApprovalPolicyRouteRequest) : Prop where
  nothing : route db true organizationId workspaceId request = .ok none ↔
    ∀ candidate ∈ db.publishedIn organizationId workspaceId,
      candidate.2.agreementFamily = request.agreementFamily → candidate.2.covers request = false
  selected : ∀ candidate, route db true organizationId workspaceId request = .ok (some candidate) ↔
    Best RanksAbove (db.routeMatches organizationId workspaceId request) candidate ∧
      ¬ Contested RanksAbove (db.routeMatches organizationId workspaceId request)
  conflict : route db true organizationId workspaceId request = .error routingConflict ↔
    Contested RanksAbove (db.routeMatches organizationId workspaceId request)

/-- Some request that the schema accepts is covered by both, and both rank the same. -/
def CanTie (casing : CaseTable) (first second : ApprovalPolicy) : Prop :=
  ∃ request : ApprovalPolicyRouteRequest, request.Accepted ∧
    first.agreementFamily = request.agreementFamily ∧
    second.agreementFamily = request.agreementFamily ∧
    first.covers (request.normalize casing) = true ∧
    second.covers (request.normalize casing) = true ∧ routeSortKey first = routeSortKey second

/-- A publication is refused exactly for a published version that can tie with it. -/
def DetectsTies (casing : CaseTable) (db : PolicyDb) : Prop :=
  ∀ policy ∈ db.policies, ∀ versionId,
    ensureNoEqualRoutingMatch db policy versionId = .error routingConflict ↔
      ∃ candidate ∈ db.publishedIn policy.organizationId policy.workspaceId,
        candidate.1.id ≠ versionId ∧ CanTie casing candidate.2 policy

/-! Routing -/

theorem keyLe_iff {first second : Nat × Nat} :
    keyLe first second = true ↔ toLex first ≤ toLex second := by
  simp [keyLe, Prod.Lex.toLex_le_toLex]

theorem keyLe_antisymm_iff {first second : Nat × Nat} (above : keyLe second first = true) :
    keyLe first second = true ↔ second = first := by
  rw [keyLe_iff] at above ⊢
  constructor
  · intro below
    exact toLex.injective (le_antisymm above below)
  · rintro rfl
    exact le_refl _

instance : Std.Total RanksAbove where
  total first second := by
    simp only [RanksAbove, keyLe_iff]
    exact le_total _ _

instance : IsTrans Candidate RanksAbove where
  trans first second third := by
    simp only [RanksAbove, keyLe_iff]
    exact fun above below => le_trans below above

theorem routeMatches_eq_nil_iff {db : PolicyDb} {organizationId workspaceId : Uuid}
    {request : ApprovalPolicyRouteRequest} :
    db.routeMatches organizationId workspaceId request = [] ↔
      ∀ candidate ∈ db.publishedIn organizationId workspaceId,
        candidate.2.agreementFamily = request.agreementFamily →
          candidate.2.covers request = false := by
  simp [PolicyDb.routeMatches, List.filter_eq_nil_iff]

/-- The outcome of a sort that is looked at from the top -/
def topOf (matched : List Candidate) : Except HttpException (Option Candidate) :=
  match matched with
  | [] => .ok none
  | [selected] => .ok (some selected)
  | selected :: second :: _ =>
    if routeSortKey second.2 = routeSortKey selected.2 then .error routingConflict
    else .ok (some selected)

theorem route_eq_topOf (db : PolicyDb) (organizationId workspaceId : Uuid)
    (request : ApprovalPolicyRouteRequest) :
    route db true organizationId workspaceId request =
      topOf ((db.routeMatches organizationId workspaceId request).insertionSort RanksAbove) :=
  rfl

theorem topOf_none_iff {matched : List Candidate} : topOf matched = .ok none ↔ matched = [] := by
  unfold topOf
  split
  · simp
  · simp
  · split <;> simp

theorem topOf_conflict_iff {matched : List Candidate} (sorted : matched.Pairwise RanksAbove) :
    topOf matched = .error routingConflict ↔ Contested RanksAbove matched := by
  unfold topOf
  split
  · refine iff_of_false nofun ?_
    rintro ⟨first, second, -, best, -⟩
    cases best.1
  · next selected => exact iff_of_false nofun (not_contested_singleton selected)
  · next selected second rest =>
      have above : RanksAbove selected second :=
        (List.pairwise_cons.mp sorted).1 second List.mem_cons_self
      rw [contested_cons_iff sorted, RanksAbove, keyLe_antisymm_iff above]
      simp [eq_comm]

theorem topOf_selected {matched : List Candidate} (sorted : matched.Pairwise RanksAbove)
    {candidate : Candidate} (found : topOf matched = .ok (some candidate)) :
    Best RanksAbove matched candidate := by
  unfold topOf at found
  split at found
  · cases found
  · cases found
    exact best_head sorted
  · split at found
    · cases found
    · cases found
      exact best_head sorted

theorem topOf_selected_iff {matched : List Candidate} (sorted : matched.Pairwise RanksAbove)
    (candidate : Candidate) : topOf matched = .ok (some candidate) ↔
      Best RanksAbove matched candidate ∧ ¬ Contested RanksAbove matched := by
  rw [← topOf_conflict_iff sorted]
  constructor
  · intro found
    exact ⟨topOf_selected sorted found, by simp [found]⟩
  · rintro ⟨best, calm⟩
    cases outcome : topOf matched with
    | error raised =>
        have only : raised = routingConflict := by
          unfold topOf at outcome
          split at outcome
          · cases outcome
          · cases outcome
          · split at outcome <;> cases outcome
            rfl
        exact absurd (only ▸ outcome) calm
    | ok answer =>
        cases answer with
        | none =>
            rw [topOf_none_iff.mp outcome] at best
            cases best.1
        | some other =>
            rw [topOf_conflict_iff sorted] at calm
            rw [(topOf_selected sorted outcome).eq best calm]

theorem route_routesBest (db : PolicyDb) (organizationId workspaceId : Uuid)
    (request : ApprovalPolicyRouteRequest) : RoutesBest db organizationId workspaceId request := by
  have sorted := List.pairwise_insertionSort RanksAbove
    (db.routeMatches organizationId workspaceId request)
  have perm := List.perm_insertionSort RanksAbove
    (db.routeMatches organizationId workspaceId request)
  refine ⟨?_, fun candidate => ?_, ?_⟩
  · rw [route_eq_topOf, topOf_none_iff, ← routeMatches_eq_nil_iff]
    exact ⟨fun empty => (empty ▸ perm).nil_eq.symm, fun empty => by rw [empty]; rfl⟩
  · rw [route_eq_topOf, topOf_selected_iff sorted, best_perm perm, contested_perm perm]
  · rw [route_eq_topOf, topOf_conflict_iff sorted, contested_perm perm]

/-! Overlap -/

/-- What both values match, if they overlap: the second one if the first is any. -/
theorem scopeMatches_common {first second : String}
    (overlap : scopeValuesOverlap first second = true) :
    scopeMatches first (if first = "any" then second else first) = true ∧
      scopeMatches second (if first = "any" then second else first) = true := by
  simp only [scopeValuesOverlap, scopeMatches, Bool.or_eq_true, decide_eq_true_eq] at *
  split
  · next any => exact ⟨.inl any, .inr rfl⟩
  · next other =>
      refine ⟨.inr rfl, ?_⟩
      rcases overlap with (any | any) | same
      · exact absurd any other
      · exact .inl any
      · exact .inr same.symm

/-- The request that two overlapping policies are made to meet at -/
def commonRequest (first second : ApprovalPolicy) (value value' : String) :
    ApprovalPolicyRouteRequest where
  agreementFamily := first.agreementFamily
  documentDirection :=
    if first.documentDirection.value = "any" then second.documentDirection
    else first.documentDirection
  jurisdiction := if first.jurisdiction = "any" then value' else value
  materiality := if first.materiality.value = "any" then second.materiality else first.materiality

theorem commonRequest_covered {casing : CaseTable} {first second : ApprovalPolicy}
    {value value' : String} (stored : first.jurisdiction = normalizeScopeValue casing value)
    (stored' : second.jurisdiction = normalizeScopeValue casing value')
    (overlap : routingScopesOverlap first second = true) :
    first.covers ((commonRequest first second value value').normalize casing) = true ∧
      second.covers ((commonRequest first second value value').normalize casing) = true := by
  simp only [routingScopesOverlap, ApprovalPolicy.scopes, List.zip_cons_cons, List.zip_nil_right,
    List.all_cons, List.all_nil, Bool.and_true, Bool.and_eq_true] at overlap
  obtain ⟨direction, jurisdiction, materiality⟩ := overlap
  have asked : normalizeScopeValue casing (commonRequest first second value value').jurisdiction =
      if first.jurisdiction = "any" then second.jurisdiction else first.jurisdiction := by
    simp only [commonRequest, apply_ite (normalizeScopeValue casing), ← stored, ← stored']
  simp only [ApprovalPolicy.covers, ApprovalPolicyRouteRequest.normalize, asked, Bool.and_eq_true]
  simp only [commonRequest, apply_ite DocumentDirection.value, apply_ite Materiality.value]
  exact ⟨⟨⟨(scopeMatches_common direction).1, (scopeMatches_common jurisdiction).1⟩,
    (scopeMatches_common materiality).1⟩, ⟨(scopeMatches_common direction).2,
    (scopeMatches_common jurisdiction).2⟩, (scopeMatches_common materiality).2⟩

/-- The pairwise test finds the policies of a family that can tie. -/
theorem canTie_iff {casing : CaseTable} {db : PolicyDb} (admissible : db.Admissible casing)
    {first second : ApprovalPolicy} (here : first ∈ db.policies) (there : second ∈ db.policies) :
    CanTie casing first second ↔ first.agreementFamily = second.agreementFamily ∧
      routeSortKey first = routeSortKey second ∧ routingScopesOverlap first second = true := by
  constructor
  · rintro ⟨request, -, family, family', covers, covers', key⟩
    exact ⟨family.trans family'.symm, key, routingScopesOverlap_of_covers covers covers'⟩
  · rintro ⟨family, key, overlap⟩
    obtain ⟨value, field, stored⟩ := admissible first here
    obtain ⟨value', field', stored'⟩ := admissible second there
    obtain ⟨covers, covers'⟩ := commonRequest_covered stored stored' overlap
    refine ⟨commonRequest first second value value', ?_, rfl, family.symm, covers, covers', key⟩
    simp only [ApprovalPolicyRouteRequest.Accepted, commonRequest]
    split
    · exact field'
    · exact field

theorem policy_of_publishedIn {db : PolicyDb} {organizationId workspaceId : Uuid}
    {candidate : Candidate} (member : candidate ∈ db.publishedIn organizationId workspaceId) :
    candidate.2 ∈ db.policies := by
  obtain ⟨version, -, joined⟩ := List.mem_filterMap.mp member
  obtain ⟨policy, found, rfl⟩ := Option.map_eq_some_iff.mp joined
  exact List.mem_of_find?_eq_some found

theorem detectsTies {casing : CaseTable} {db : PolicyDb} (admissible : db.Admissible casing) :
    DetectsTies casing db := by
  intro policy listed versionId
  have found : ensureNoEqualRoutingMatch db policy versionId = .error routingConflict ↔
      (db.publishedIn policy.organizationId policy.workspaceId).any (fun candidate =>
        candidate.1.id ≠ versionId && candidate.2.agreementFamily = policy.agreementFamily &&
          (routeSortKey candidate.2 = routeSortKey policy &&
            routingScopesOverlap candidate.2 policy)) = true := by
    unfold ensureNoEqualRoutingMatch
    split
    · next hit => exact iff_of_true rfl hit
    · next clear => exact iff_of_false nofun clear
  rw [found, List.any_eq_true]
  refine exists_congr fun candidate => and_congr_right fun member => ?_
  rw [canTie_iff admissible (policy_of_publishedIn member) listed]
  simp [and_assoc]

/-! Runs -/

theorem insertVersion_policies {db after : PolicyDb} {version : ApprovalPolicyVersion}
    (inserted : insertVersion db version = .ok after) : after.policies = db.policies := by
  unfold insertVersion at inserted
  split at inserted
  · cases inserted
  · cases inserted
    rfl

theorem create_admissible {casing : CaseTable} {uuid4 : Nat → Uuid} {db after : PolicyDb}
    {caller : PolicyCaller} {request : CreateApprovalPolicyRequest}
    (admissible : db.Admissible casing) (field : JurisdictionField request.jurisdiction)
    (created : create casing uuid4 db caller request = .ok after) : after.Admissible casing := by
  simp only [create, bind, Except.bind] at created
  split at created
  · cases created
  · split at created
    · cases created
    · intro policy member
      rw [insertVersion_policies created] at member
      rcases List.mem_append.mp member with old | last
      · exact admissible policy old
      · rw [List.mem_singleton.mp last]
        exact ⟨request.jurisdiction, field, rfl⟩

theorem createVersion_policies {uuid4 : Nat → Uuid} {db after : PolicyDb} {caller : PolicyCaller}
    {policyId : Uuid} {sourceVersion : Option Nat}
    (created : createVersion uuid4 db caller policyId sourceVersion = .ok after) :
    after.policies = db.policies := by
  simp only [createVersion, bind, Except.bind] at created
  split at created
  · cases created
  · split at created
    · cases created
    · split at created
      · exact insertVersion_policies created
      · split at created
        · cases created
        · exact insertVersion_policies created

theorem continue_policies (system : PolicySystem) (i : Nat) (publication : Publication) :
    (publication.continue system i).db.policies = system.db.policies := by
  unfold Publication.continue
  split
  · split <;> rfl
  · split <;> rfl
  · rfl

theorem policyStep_admissible {casing : CaseTable} {system : PolicySystem} {action : PolicyAction}
    (admissible : system.db.Admissible casing) (accepted : action.Accepted) :
    (policyStep casing system action).db.Admissible casing := by
  cases action with
  | create uuid4 caller request =>
      simp only [policyStep]
      split
      · exact admissible
      · next created => exact create_admissible admissible accepted created
  | createVersion uuid4 caller policyId sourceVersion =>
      simp only [policyStep]
      split
      · exact admissible
      · next created =>
          simp only [PolicyDb.Admissible, createVersion_policies created]
          exact admissible
  | beginPublish caller policyId versionNumber =>
      simp only [policyStep]
      split <;> exact admissible
  | continuePublish i =>
      simp only [policyStep]
      split
      · exact admissible
      · simp only [PolicyDb.Admissible, continue_policies]
        exact admissible
  | abandonPublish i => exact admissible

/-- Whatever is created and published, in whatever order, routing takes the best match, and a
publication is refused for exactly the policies that some request could not tell apart. -/
theorem run_routesBest {casing : CaseTable} {system : PolicySystem}
    (admissible : system.db.Admissible casing) {actions : List PolicyAction}
    (accepted : ∀ action ∈ actions, action.Accepted) :
    (∀ organizationId workspaceId request, RoutesBest (run (policyStep casing) system actions).db
      organizationId workspaceId request) ∧
        DetectsTies casing (run (policyStep casing) system actions).db := by
  have kept : (run (policyStep casing) system actions).db.Admissible casing :=
    run_invariant_of PolicyAction.Accepted
      (fun system : PolicySystem => system.db.Admissible casing) admissible
      (fun _ _ accepted admissible => policyStep_admissible admissible accepted) accepted
  exact ⟨route_routesBest _, detectsTies kept⟩

/-- Three client policies are published: for any agreement, for a jurisdiction, and for the same
jurisdiction before it. -/
def threePolicies : List PolicyAction :=
  [("any", 0, 100), ("eu", 100, 200), ("EU", 50, 300)].flatMap fun (jurisdiction, precedence, id) =>
    [.create (fun n => .ofNat (id + n)) sampleManager
        { samplePolicyRequest with jurisdiction := jurisdiction, precedence := precedence },
      .beginPublish sampleManager (.ofNat id) 1, .continuePublish 0, .continuePublish 0,
      .continuePublish 0]

theorem run_routesBest_sample :
    ((run (policyStep .ascii) emptySystem threePolicies).db.versions.map (·.status) =
      [.published, .published, .published]) ∧
      (∀ organizationId workspaceId request,
        RoutesBest (run (policyStep .ascii) emptySystem threePolicies).db organizationId
          workspaceId request) ∧
      DetectsTies .ascii (run (policyStep .ascii) emptySystem threePolicies).db :=
  ⟨by decide +kernel, run_routesBest (fun _ none_ => by cases none_) (by decide)⟩

end AgreementIntelligence.ApprovalPolicies
