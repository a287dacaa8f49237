import AgreementIntelligence.Mcp.ReadService

/-! The tools do not leak across scopes. Every query is answered from the rows of the workspace
alone, so that states which agree on these, on the identity tables and on the objects that the
artifacts name cannot be told apart by a call. -/

namespace AgreementIntelligence.Mcp
open Identity Lib.Text Lib.Json Lib.Queries Evidence

variable {φ : Type} {platform : Platform φ} {organizationId workspaceId : Uuid}

def jobsInScope (database : Database) (organizationId workspaceId : Uuid) :
    List ProcessingJobRecord :=
  database.jobs.filter fun job =>
    job.organizationId = organizationId ∧ job.workspaceId = workspaceId

def artifactsInScope (database : Database) (organizationId workspaceId : Uuid) :
    List ProcessingArtifactRecord :=
  database.artifacts.filter fun artifact =>
    artifact.organizationId = organizationId ∧ artifact.workspaceId = workspaceId

def evaluationsInScope (database : Database) (organizationId workspaceId : Uuid) :
    List PlaybookEvaluationRecord :=
  database.evaluations.filter fun evaluation =>
    evaluation.organizationId = organizationId ∧ evaluation.workspaceId = workspaceId

def findingsInScope (database : Database) (organizationId workspaceId : Uuid) :
    List PlaybookFindingRecord :=
  database.findings.filter fun finding =>
    finding.organizationId = organizationId ∧ finding.workspaceId = workspaceId

/-- The states have the same identity tables, the same rows of the workspace, and the same objects
under the keys of its artifacts. Rows may be kept in different orders; those of artifacts stand in
one order, so that ties are broken the same way. -/
structure AgreesOn (organizationId workspaceId : Uuid) (state other : State) : Prop where
  identity : state.database.identity.SameRows other.database.identity
  agreements : (agreementsInScope state.database organizationId workspaceId).Perm
    (agreementsInScope other.database organizationId workspaceId)
  jobs : (jobsInScope state.database organizationId workspaceId).Perm
    (jobsInScope other.database organizationId workspaceId)
  artifacts : artifactsInScope state.database organizationId workspaceId =
    artifactsInScope other.database organizationId workspaceId
  evaluations : (evaluationsInScope state.database organizationId workspaceId).Perm
    (evaluationsInScope other.database organizationId workspaceId)
  findings : (findingsInScope state.database organizationId workspaceId).Perm
    (findingsInScope other.database organizationId workspaceId)
  objects : ∀ artifact ∈ artifactsInScope state.database organizationId workspaceId,
    state.storage artifact.artifactKey = other.storage artifact.artifactKey

section Queries
variable {state other : State}

theorem agreement_inj {database : Database} {a b : AgreementRecord}
    (first : a ∈ agreementsInScope database organizationId workspaceId)
    (second : b ∈ agreementsInScope database organizationId workspaceId) (same : a.id = b.id) :
    a = b :=
  List.inj_on_of_nodup_map database.agreementKeys (List.mem_filter.mp first).1
    (List.mem_filter.mp second).1 same

theorem activeAgreement_congr (agrees : AgreesOn organizationId workspaceId state other)
    (agreementId : Uuid) : activeAgreement state.database organizationId workspaceId agreementId =
      activeAgreement other.database organizationId workspaceId agreementId := by
  apply find?_perm agrees.agreements
  intro a first b second here there
  simp only [decide_eq_true_eq] at here there
  exact agreement_inj first second (here.1.trans there.1.symm)

theorem bits_inj {a b : Uuid} (same : a.bits.toNat = b.bits.toNat) : a = b := by
  cases a
  cases b
  simp only [Uuid.mk.injEq]
  exact BitVec.eq_of_toNat_eq same

theorem searchQuery_congr (agrees : AgreesOn organizationId workspaceId state other)
    (query : String) (limit : Nat) :
    searchQuery state.database organizationId workspaceId platform query limit =
      searchQuery other.database organizationId workspaceId platform query limit := by
  refine congrArg (List.take limit) (orderBy_perm (agrees.agreements.filter _) ?_)
  intro a first b second same
  have ids := congrArg (fun key : Lex (Nat × Nat) => (ofLex key).2) same
  exact agreement_inj (List.mem_filter.mp first).1 (List.mem_filter.mp second).1 (bits_inj ids)

theorem latestEvaluation_eq (database : Database) (agreementId : Uuid) :
    latestEvaluation database organizationId workspaceId agreementId =
      (orderBy (fun evaluation : PlaybookEvaluationRecord =>
          byNews evaluation.createdAt evaluation.id)
        ((evaluationsInScope database organizationId workspaceId).filter fun evaluation =>
          evaluation.agreementId = agreementId)).head? := by
  rw [latestEvaluation, evaluationsInScope, List.filter_filter]
  congr 3
  funext evaluation
  rw [Bool.eq_iff_iff]
  simp only [Bool.and_eq_true, decide_eq_true_eq]
  tauto

theorem latestEvaluation_congr (agrees : AgreesOn organizationId workspaceId state other)
    (agreementId : Uuid) :
    latestEvaluation state.database organizationId workspaceId agreementId =
      latestEvaluation other.database organizationId workspaceId agreementId := by
  rw [latestEvaluation_eq, latestEvaluation_eq]
  refine congrArg List.head? (orderBy_perm (agrees.evaluations.filter _) ?_)
  intro a first b second same
  have ids := congrArg (fun key : Lex (Natᵒᵈ × Nat) => (ofLex key).2) same
  exact List.inj_on_of_nodup_map state.database.evaluationKeys
    (List.mem_filter.mp (List.mem_filter.mp first).1).1
    (List.mem_filter.mp (List.mem_filter.mp second).1).1 (bits_inj ids)

theorem findingsOf_perm (agrees : AgreesOn organizationId workspaceId state other)
    (evaluationId : Uuid) : (findingsOf state.database organizationId workspaceId
      evaluationId).Perm (findingsOf other.database organizationId workspaceId evaluationId) := by
  have within (database : Database) : findingsOf database organizationId workspaceId evaluationId =
      (findingsInScope database organizationId workspaceId).filter fun finding =>
        finding.evaluationId = evaluationId := by
    rw [findingsOf, findingsInScope, List.filter_filter]
    congr 1
    funext finding
    rw [Bool.eq_iff_iff]
    simp only [Bool.and_eq_true, decide_eq_true_eq]
    tauto
  rw [within, within]
  exact agrees.findings.filter _

theorem commonReviewState_perm {states states' : List String} (perm : states.Perm states') :
    commonReviewState states = commonReviewState states' := by
  have deduped := perm.dedup
  unfold commonReviewState
  cases first : states.dedup with
  | nil =>
      rw [first] at deduped
      rw [List.nil_perm.mp deduped]
  | cons a rest =>
      cases rest with
      | nil =>
          rw [first] at deduped
          rw [List.singleton_perm.mp deduped]
      | cons b rest =>
          rw [first] at deduped
          have length := deduped.length_eq
          cases second : states'.dedup with
          | nil => simp [second] at length
          | cons a' rest' =>
              cases rest' with
              | nil => simp [second] at length
              | cons b' rest' => rfl

/-- The artifacts of completed jobs of the workspace are rows of the workspace themselves. -/
theorem completedArtifacts_eq (database : Database) (agreementId : Uuid) :
    completedArtifacts database organizationId workspaceId agreementId =
      (artifactsInScope database organizationId workspaceId).filter fun artifact =>
        artifact.agreementId = agreementId ∧
          (jobsInScope database organizationId workspaceId).any fun job =>
            job.id = artifact.jobId ∧ job.state = "completed" := by
  rw [completedArtifacts, artifactsInScope, List.filter_filter]
  apply List.filter_congr
  intro artifact member
  rw [Bool.eq_iff_iff]
  simp only [jobsInScope, List.any_filter, Bool.decide_and, Bool.and_eq_true, decide_eq_true_eq,
    List.any_eq_true]
  constructor
  · rintro ⟨named, job, held, same, org, workspace, completed⟩
    have scope := database.artifactScope artifact member job held same
    exact ⟨⟨named, job, held, ⟨org, workspace⟩, same, completed⟩, scope.1 ▸ org,
      scope.2 ▸ workspace⟩
  · rintro ⟨⟨named, job, held, ⟨org, workspace⟩, same, completed⟩, -⟩
    exact ⟨named, job, held, same, org, workspace, completed⟩

theorem completedArtifacts_congr (agrees : AgreesOn organizationId workspaceId state other)
    (agreementId : Uuid) :
    completedArtifacts state.database organizationId workspaceId agreementId =
      completedArtifacts other.database organizationId workspaceId agreementId := by
  rw [completedArtifacts_eq, completedArtifacts_eq, agrees.artifacts]
  apply List.filter_congr
  intro artifact _
  have jobs : ((jobsInScope state.database organizationId workspaceId).any fun job =>
      decide (job.id = artifact.jobId ∧ job.state = "completed")) =
        (jobsInScope other.database organizationId workspaceId).any fun job =>
          decide (job.id = artifact.jobId ∧ job.state = "completed") :=
    agrees.jobs.any_eq
  rw [jobs]

/-- The object of the citation is read from a key that an artifact of the workspace names. -/
theorem storedObject_congr (agrees : AgreesOn organizationId workspaceId state other)
    {agreementId : Uuid} {key : String}
    (found : completedArtifactKey state.database organizationId workspaceId agreementId =
      some key) : state.storage key = other.storage key := by
  obtain ⟨artifact, first, rfl⟩ := Option.map_eq_some_iff.mp found
  have member := mem_orderBy.mp (List.mem_of_mem_head? first)
  rw [completedArtifacts_eq] at member
  exact agrees.objects artifact (List.mem_filter.mp member).1

end Queries

section Outcomes
variable {state other : State} {userId : Uuid}

theorem authorized_congr (agrees : AgreesOn organizationId workspaceId state other)
    (agreementId : Option Uuid) :
    authorized state.database.identity userId ⟨organizationId, workspaceId, agreementId⟩ =
      authorized other.database.identity userId ⟨organizationId, workspaceId, agreementId⟩ := by
  unfold authorized
  simp only [canAccessWorkspace_congr agrees.identity]

theorem auditScope_congr (agrees : AgreesOn organizationId workspaceId state other)
    {agreementId : Option Uuid} {toolName : String} {attributes : List (String × Json φ)}
    {body body' : Except ToolError (ToolValue φ) × List (String × Json φ)} (same : body = body') :
    auditScope platform state.database.identity userId ⟨organizationId, workspaceId, agreementId⟩
        toolName attributes body =
      auditScope platform other.database.identity userId
        ⟨organizationId, workspaceId, agreementId⟩ toolName attributes body' := by
  rw [auditScope, auditScope, authorized_congr agrees, same]

theorem searchAgreements_congr (agrees : AgreesOn organizationId workspaceId state other)
    (query : String) (limit : Int) :
    searchAgreements platform state userId organizationId workspaceId query limit =
      searchAgreements platform other userId organizationId workspaceId query limit := by
  refine if_congr Iff.rfl rfl (auditScope_congr agrees ?_)
  rw [searchQuery_congr agrees]

theorem getAgreementStatus_congr (agrees : AgreesOn organizationId workspaceId state other)
    (agreementId : Uuid) :
    getAgreementStatus platform state userId organizationId workspaceId agreementId =
      getAgreementStatus platform other userId organizationId workspaceId agreementId := by
  refine auditScope_congr agrees ?_
  rw [activeAgreement_congr agrees]

theorem getCitation_congr (agrees : AgreesOn organizationId workspaceId state other)
    (agreementId : Uuid) (citationId : String) :
    getCitation platform state userId organizationId workspaceId agreementId citationId =
      getCitation platform other userId organizationId workspaceId agreementId citationId := by
  have keys : completedArtifactKey state.database organizationId workspaceId agreementId =
      completedArtifactKey other.database organizationId workspaceId agreementId := by
    rw [completedArtifactKey, completedArtifactKey, completedArtifacts_congr agrees]
  refine if_congr Iff.rfl rfl (auditScope_congr agrees ?_)
  rw [activeAgreement_congr agrees, ← keys]
  cases found : completedArtifactKey state.database organizationId workspaceId agreementId with
  | none => rfl
  | some key => simp only [storedObject_congr agrees found]

theorem getReviewStatus_congr (agrees : AgreesOn organizationId workspaceId state other)
    (agreementId : Uuid) :
    getReviewStatus platform state userId organizationId workspaceId agreementId =
      getReviewStatus platform other userId organizationId workspaceId agreementId := by
  refine auditScope_congr agrees ?_
  rw [activeAgreement_congr agrees, latestEvaluation_congr agrees]
  cases activeAgreement other.database organizationId workspaceId agreementId with
  | none => rfl
  | some agreement =>
      cases latestEvaluation other.database organizationId workspaceId agreementId with
      | none => rfl
      | some evaluation =>
          have findings := findingsOf_perm agrees evaluation.id
          have results := Multiset.coe_eq_coe.mpr (findings.map (·.result))
          simp only [results, commonReviewState_perm (findings.map (·.reviewState))]

/-- What a call comes to that is hidden from the caller. -/
def hidden (platform : Platform φ) (userId : Uuid) (call : ToolCall) : Outcome φ :=
  let refused (toolName : String) (attributes : List (String × Json φ)) : Outcome φ :=
    ⟨.error .resourceNotFound,
      [auditEvent platform userId call.scope toolName "not_found" attributes]⟩
  match call with
  | .searchAgreements _ _ query limit =>
    if strip query = "" ∨ 500 < query.length ∨ ¬ (1 ≤ limit ∧ limit ≤ 25) then
      ⟨.error (.valueError "query and limit are outside the allowed bounds"), []⟩
    else refused "search_agreements" [("query_present", .bool true), ("limit", .int limit)]
  | .getAgreementStatus .. => refused "get_agreement_status" []
  | .getCitation _ _ _ citationId =>
    if ¬ startsWith citationId "citation-" ∨ 128 < citationId.length then
      ⟨.error (.valueError "citation_id is invalid"), []⟩
    else refused "get_citation" [("citation_id", .string citationId)]
  | .getReviewStatus .. => refused "get_review_status" []

theorem run_of_unauthorized {call : ToolCall}
    (denied : authorized state.database.identity userId call.scope = false) :
    call.run platform state userId = hidden platform userId call := by
  have refused := Bool.eq_false_iff.mp denied
  cases call with
  | searchAgreements organizationId workspaceId query limit =>
      exact if_congr Iff.rfl rfl (if_neg refused)
  | getAgreementStatus organizationId workspaceId agreementId => exact if_neg refused
  | getCitation organizationId workspaceId agreementId citationId =>
      exact if_congr Iff.rfl rfl (if_neg refused)
  | getReviewStatus organizationId workspaceId agreementId => exact if_neg refused

/-- An audit scope about something that is not there. -/
theorem auditScope_notFound {identity : IdentityTables} {scope : Scope} {toolName : String}
    {attributes : List (String × Json φ)} :
    auditScope platform identity userId scope toolName attributes (.error .resourceNotFound, []) =
      ⟨.error .resourceNotFound,
        [auditEvent platform userId scope toolName "not_found" attributes]⟩ := by
  rw [auditScope, List.append_nil]
  exact ite_self _

theorem activeAgreement_none {database : Database} {agreementId : Uuid}
    (absent : ∀ agreement ∈ database.agreements, agreement.id ≠ agreementId) :
    activeAgreement database organizationId workspaceId agreementId = none := by
  rw [activeAgreement, List.find?_eq_none]
  intro agreement member
  have other := absent agreement (List.mem_filter.mp member).1
  simp [other]

/-- A call about an agreement that does not exist. -/
theorem run_of_absent {call : ToolCall} {agreementId : Uuid}
    (about : call.scope.agreementId = some agreementId)
    (absent : ∀ agreement ∈ state.database.agreements, agreement.id ≠ agreementId) :
    call.run platform state userId = hidden platform userId call := by
  cases call with
  | searchAgreements organizationId workspaceId query limit => cases about
  | getAgreementStatus organizationId workspaceId other =>
      cases about
      rw [ToolCall.run, getAgreementStatus, activeAgreement_none absent, auditScope_notFound]
      rfl
  | getCitation organizationId workspaceId other citationId =>
      cases about
      rw [ToolCall.run, getCitation, activeAgreement_none absent, auditScope_notFound]
      rfl
  | getReviewStatus organizationId workspaceId other =>
      cases about
      rw [ToolCall.run, getReviewStatus, activeAgreement_none absent, auditScope_notFound]
      rfl

/-- A citation is returned only when the guardrails allow its excerpt. -/
theorem guardedCitation_allowed {citationId id excerpt : String} {pageNumber : Json φ}
    {found : Except ToolError (Option (Json φ × String))}
    (returns : (guardedCitation platform citationId found).1 =
      .ok (.citation id pageNumber excerpt)) :
    (platform.guardrail [(id, excerpt)] [id]).status = .allow := by
  unfold guardedCitation at returns
  split at returns
  · cases returns
  · cases returns
  · simp only at returns
    split at returns
    · rename_i allowed
      cases returns
      exact allowed
    · cases returns

theorem auditScope_ok {identity : IdentityTables} {scope : Scope} {toolName : String}
    {attributes : List (String × Json φ)} {value : ToolValue φ}
    {body : Except ToolError (ToolValue φ) × List (String × Json φ)}
    (returns : (auditScope platform identity userId scope toolName attributes body).result =
      .ok value) : body.1 = .ok value := by
  unfold auditScope at returns
  split at returns
  · exact returns
  · cases returns

theorem run_citation_allowed {call : ToolCall} {id excerpt : String} {pageNumber : Json φ}
    (returns : (call.run platform state userId).result = .ok (.citation id pageNumber excerpt)) :
    (platform.guardrail [(id, excerpt)] [id]).status = .allow := by
  cases call with
  | searchAgreements organizationId workspaceId query limit =>
      rw [ToolCall.run, searchAgreements] at returns
      split at returns
      · cases returns
      · cases auditScope_ok returns
  | getAgreementStatus organizationId workspaceId agreementId =>
      have body := auditScope_ok returns
      simp only at body
      split at body <;> cases body
  | getCitation organizationId workspaceId agreementId citationId =>
      rw [ToolCall.run, getCitation] at returns
      split at returns
      · cases returns
      · have body := auditScope_ok returns
        split at body
        · cases body
        · exact guardedCitation_allowed body
  | getReviewStatus organizationId workspaceId agreementId =>
      have body := auditScope_ok returns
      simp only at body
      split at body
      · cases body
      · split at body <;> cases body

end Outcomes

/-- Calls are isolated: what one comes to depends on the rows of its workspace alone, it is the
same for what is hidden as for what is not there, and no excerpt leaves that the guardrails do not
allow. -/
theorem run_isolated (platform : Platform φ) (state : State) (userId : Uuid) (call : ToolCall) :
    (∀ other, AgreesOn call.scope.organizationId call.scope.workspaceId state other →
      call.run platform state userId = call.run platform other userId) ∧
    (authorized state.database.identity userId call.scope = false →
      call.run platform state userId = hidden platform userId call ∧
      ∀ other agreementId, call.scope.agreementId = some agreementId →
        (∀ agreement ∈ other.database.agreements, agreement.id ≠ agreementId) →
          call.run platform state userId = call.run platform other userId) ∧
    ∀ id pageNumber excerpt,
      (call.run platform state userId).result = .ok (.citation id pageNumber excerpt) →
        (platform.guardrail [(id, excerpt)] [id]).status = .allow := by
  refine ⟨?_, ?_, fun _ _ _ => run_citation_allowed⟩
  · intro other agrees
    cases call with
    | searchAgreements organizationId workspaceId query limit =>
        exact searchAgreements_congr agrees query limit
    | getAgreementStatus organizationId workspaceId agreementId =>
        exact getAgreementStatus_congr agrees agreementId
    | getCitation organizationId workspaceId agreementId citationId =>
        exact getCitation_congr agrees agreementId citationId
    | getReviewStatus organizationId workspaceId agreementId =>
        exact getReviewStatus_congr agrees agreementId
  · intro denied
    refine ⟨run_of_unauthorized denied, fun other agreementId about absent => ?_⟩
    rw [run_of_unauthorized denied, run_of_absent about absent]

end AgreementIntelligence.Mcp
