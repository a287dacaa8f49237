import AgreementIntelligence.Lib.Runs
import AgreementIntelligence.Mcp.ReadService

/-! The trail of the tools. A call writes its event in the scope that its body runs in, however the
body ends; arguments that are out of bounds are refused before the scope is entered. -/

namespace AgreementIntelligence.Mcp
open Identity Lib.Json Lib.Runs Lib.Text

variable {φ : Type}

/-- A call by a caller, with the database and the storage that it finds. -/
structure Attempt where
  state : State
  userId : Uuid
  call : ToolCall

def Attempt.outcome (platform : Platform φ) (attempt : Attempt) : Outcome φ :=
  attempt.call.run platform attempt.state attempt.userId

/-- What a call adds to `mcp_audit_events`. -/
def step (platform : Platform φ) (trail : List (McpAuditEvent φ)) (attempt : Attempt) :
    List (McpAuditEvent φ) :=
  trail ++ (attempt.outcome platform).events

def ToolCall.toolName : ToolCall → String
  | .searchAgreements .. => "search_agreements"
  | .getAgreementStatus .. => "get_agreement_status"
  | .getCitation .. => "get_citation"
  | .getReviewStatus .. => "get_review_status"

/-- The bounds that a tool checks before anything else. -/
def ToolCall.WithinBounds : ToolCall → Prop
  | .searchAgreements _ _ query limit =>
    strip query ≠ "" ∧ query.length ≤ 500 ∧ 1 ≤ limit ∧ limit ≤ 25
  | .getCitation _ _ _ citationId =>
    startsWith citationId "citation-" = true ∧ citationId.length ≤ 128
  | .getAgreementStatus .. | .getReviewStatus .. => True

/-- The event tells who attempted what, and whether a value was returned. -/
structure Tells (attempt : Attempt) (result : Except ToolError (ToolValue φ))
    (event : McpAuditEvent φ) : Prop where
  organizationId : event.organizationId = attempt.call.scope.organizationId
  workspaceId : event.workspaceId = attempt.call.scope.workspaceId
  agreementId : event.agreementId = attempt.call.scope.agreementId
  actorId : event.actorId = attempt.userId
  toolName : event.toolName = attempt.call.toolName
  outcome : event.outcome = "success" ↔ ∃ value, result = .ok value

theorem outcomeOf_eq_success {result : Except ToolError (ToolValue φ)} :
    outcomeOf result = "success" ↔ ∃ value, result = .ok value := by
  cases result with
  | ok value => simp [outcomeOf]
  | error error => cases error <;> simp [outcomeOf]

/-- However its body ends, a scope writes one event. -/
theorem auditScope_tells (platform : Platform φ) (attempt : Attempt) {scope : Scope}
    {toolName : String} (attributes : List (String × Json φ))
    (body : Except ToolError (ToolValue φ) × List (String × Json φ))
    (sameScope : scope = attempt.call.scope) (sameName : toolName = attempt.call.toolName) :
    ∃ event, (auditScope platform attempt.state.database.identity attempt.userId scope toolName
          attributes body).events = [event] ∧
      Tells attempt (auditScope platform attempt.state.database.identity attempt.userId scope
        toolName attributes body).result event := by
  subst sameScope sameName
  rw [auditScope]
  split
  · exact ⟨_, rfl, rfl, rfl, rfl, rfl, rfl, outcomeOf_eq_success⟩
  · refine ⟨_, rfl, rfl, rfl, rfl, rfl, rfl, ?_⟩
    simp [auditEvent]

theorem outcome_within (platform : Platform φ) {attempt : Attempt}
    (within : attempt.call.WithinBounds) :
    ∃ event, (attempt.outcome platform).events = [event] ∧
      Tells attempt (attempt.outcome platform).result event := by
  obtain ⟨state, userId, call⟩ := attempt
  cases call with
  | searchAgreements organizationId workspaceId query limit =>
      obtain ⟨spoken, short, low, high⟩ := within
      have inside : ¬ (strip query = "" ∨ 500 < query.length ∨ ¬ (1 ≤ limit ∧ limit ≤ 25)) := by
        intro refused
        rcases refused with blank | long | wide
        · exact spoken blank
        · omega
        · exact wide ⟨low, high⟩
      simp only [Attempt.outcome, ToolCall.run, Mcp.searchAgreements, if_neg inside]
      exact auditScope_tells platform
        ⟨state, userId, .searchAgreements organizationId workspaceId query limit⟩ _ _ rfl rfl
  | getAgreementStatus organizationId workspaceId agreementId =>
      simp only [Attempt.outcome, ToolCall.run, Mcp.getAgreementStatus]
      exact auditScope_tells platform
        ⟨state, userId, .getAgreementStatus organizationId workspaceId agreementId⟩ _ _ rfl rfl
  | getCitation organizationId workspaceId agreementId citationId =>
      obtain ⟨prefixed, short⟩ := within
      have inside : ¬ (¬ startsWith citationId "citation-" ∨ 128 < citationId.length) := by
        intro refused
        rcases refused with other | long
        · exact other prefixed
        · omega
      simp only [Attempt.outcome, ToolCall.run, Mcp.getCitation, if_neg inside]
      exact auditScope_tells platform
        ⟨state, userId, .getCitation organizationId workspaceId agreementId citationId⟩ _ _ rfl rfl
  | getReviewStatus organizationId workspaceId agreementId =>
      simp only [Attempt.outcome, ToolCall.run, Mcp.getReviewStatus]
      exact auditScope_tells platform
        ⟨state, userId, .getReviewStatus organizationId workspaceId agreementId⟩ _ _ rfl rfl

theorem outcome_outside {platform : Platform φ} {attempt : Attempt}
    (outside : ¬ attempt.call.WithinBounds) : (attempt.outcome platform).events = [] := by
  obtain ⟨state, userId, call⟩ := attempt
  cases call with
  | searchAgreements organizationId workspaceId query limit =>
      have refused : strip query = "" ∨ 500 < query.length ∨ ¬ (1 ≤ limit ∧ limit ≤ 25) := by
        by_cases spoken : strip query = ""
        · exact Or.inl spoken
        · simp only [ToolCall.WithinBounds, spoken, ne_eq, not_false_iff, true_and] at outside
          omega
      simp only [Attempt.outcome, ToolCall.run, Mcp.searchAgreements, if_pos refused]
  | getAgreementStatus => exact absurd trivial outside
  | getCitation organizationId workspaceId agreementId citationId =>
      have refused : ¬ startsWith citationId "citation-" ∨ 128 < citationId.length := by
        by_cases prefixed : startsWith citationId "citation-" = true
        · simp only [ToolCall.WithinBounds, prefixed, true_and] at outside
          omega
        · exact Or.inl prefixed
      simp only [Attempt.outcome, ToolCall.run, Mcp.getCitation, if_pos refused]
  | getReviewStatus => exact absurd trivial outside

/-- A run writes one event for each of its calls, in their order, and nothing else. -/
def AuditsEach (platform : Platform φ) (trail : List (McpAuditEvent φ)) (attempts : List Attempt) :
    Prop :=
  ∃ events, run (step platform) trail attempts = trail ++ events ∧
    List.Forall₂ (fun attempt event => Tells attempt (attempt.outcome platform).result event)
      attempts events

theorem run_trail (platform : Platform φ) (trail : List (McpAuditEvent φ))
    (attempts : List Attempt) : run (step platform) trail attempts =
      trail ++ attempts.flatMap fun attempt => (attempt.outcome platform).events := by
  induction attempts generalizing trail with
  | nil => simp
  | cons attempt rest ih =>
      rw [run_cons, ih, step, List.flatMap_cons, List.append_assoc]

theorem length_events_le (platform : Platform φ) (attempts : List Attempt) :
    (attempts.flatMap fun attempt => (attempt.outcome platform).events).length ≤
      attempts.length := by
  induction attempts with
  | nil => simp
  | cons attempt rest ih =>
      have one : (attempt.outcome platform).events.length ≤ 1 := by
        by_cases within : attempt.call.WithinBounds
        · obtain ⟨event, written, -⟩ := outcome_within platform within
          simp [written]
        · simp [outcome_outside within]
      rw [List.flatMap_cons, List.length_append, List.length_cons]
      omega

/-- Every attempt is audited once exactly when no call is refused for its arguments. -/
theorem run_auditsEach_iff (platform : Platform φ) (trail : List (McpAuditEvent φ))
    (attempts : List Attempt) :
    AuditsEach platform trail attempts ↔ ∀ attempt ∈ attempts, attempt.call.WithinBounds := by
  rw [AuditsEach, run_trail]
  induction attempts with
  | nil => exact ⟨by simp, fun _ => ⟨[], rfl, .nil⟩⟩
  | cons attempt rest ih =>
      constructor
      · intro audited
        obtain ⟨events, written, told⟩ := audited
        rw [List.append_cancel_left_eq] at written
        have counted := told.length_eq
        rw [← written, List.flatMap_cons, List.length_append, List.length_cons] at counted
        have few := length_events_le platform rest
        have within : attempt.call.WithinBounds := by
          by_contra outside
          rw [outcome_outside outside, List.length_nil] at counted
          omega
        obtain ⟨event, single, -⟩ := outcome_within platform within
        rw [List.flatMap_cons, single, List.singleton_append] at written
        subst written
        cases told with
        | cons _ later =>
            exact List.forall_mem_cons.mpr ⟨within, ih.mp ⟨_, rfl, later⟩⟩
      · intro within
        obtain ⟨first, others⟩ := List.forall_mem_cons.mp within
        obtain ⟨event, single, tells⟩ := outcome_within platform first
        obtain ⟨events, written, told⟩ := ih.mpr others
        rw [List.append_cancel_left_eq] at written
        refine ⟨event :: events, ?_, .cons tells told⟩
        rw [List.flatMap_cons, single, written, List.singleton_append]

/-! A search that asks for too much -/

def noRows : State where
  database :=
    { identity := { memberships := [], workspaceMemberships := [], workspaces := [] }
      agreements := []
      jobs := []
      artifacts := []
      evaluations := []
      findings := []
      agreementKeys := List.nodup_nil
      evaluationKeys := List.nodup_nil
      artifactScope := by simp }
  storage _ := .ok none

def plainPlatform : Platform Empty where
  titleMatches _ _ := false
  loads _ := .ok none
  equalsInt x _ := x.elim
  guardrail _ _ := ⟨.allow, [], "v1"⟩
  safeEventMetadata attributes := attributes

def wideSearch : Attempt where
  state := noRows
  userId := Uuid.ofNat 2
  call := .searchAgreements (Uuid.ofNat 1) (Uuid.ofNat 10) "renewal" 26

/-- The attempt is refused, and the trail does not tell of it. -/
theorem not_auditsEach : ¬ AuditsEach plainPlatform [] [wideSearch] := by
  intro audited
  obtain ⟨events, written, told⟩ := audited
  have nothing : run (step plainPlatform) [] [wideSearch] = [] := rfl
  rw [nothing, List.nil_append] at written
  subst written
  cases told

end AgreementIntelligence.Mcp
