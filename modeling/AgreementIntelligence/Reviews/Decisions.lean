import AgreementIntelligence.Authorization
import AgreementIntelligence.Lib.Dict
import AgreementIntelligence.Lib.Queries
import AgreementIntelligence.Lib.Runs
import AgreementIntelligence.Lib.Table
import AgreementIntelligence.Playbooks.Evaluation
import Mathlib.Data.Prod.Lex

/-! Decisions on playbook findings and what the audit log says of them. Recording a decision writes
a decision and two audit rows; the finding itself, with its review state, stays as it is. The
regular expressions that find restricted text are a parameter. -/

namespace AgreementIntelligence.Reviews.Decisions
open Identity Lib Lib.Queries Lib.Runs Lib.Text Playbooks

inductive ReviewDecisionAction where
  | accepted
  | rejected
  | edited
  deriving DecidableEq, Repr

def ReviewDecisionAction.value : ReviewDecisionAction → String
  | .accepted => "accepted"
  | .rejected => "rejected"
  | .edited => "edited"

/-- A request as its schema accepts it. -/
structure ReviewDecisionRequest where
  action : ReviewDecisionAction
  rationale : String
  editedResult : Option FindingResult
  editedSeverity : Option Severity
  stripped : strip rationale = rationale
  bounded : 1 ≤ rationale.length ∧ rationale.length ≤ 4000
  edits : action = .edited ↔ editedResult ≠ none ∨ editedSeverity ≠ none

structure PlaybookFinding where
  id : Uuid
  organizationId : Uuid
  workspaceId : Uuid
  evaluationId : Uuid
  result : FindingResult
  severity : Severity
  reviewState : String
  deriving DecidableEq, Repr

structure PlaybookEvaluation where
  id : Uuid
  agreementId : Uuid
  deriving DecidableEq, Repr

structure Agreement where
  id : Uuid
  deletionRequestedAt : Option Time
  deriving DecidableEq, Repr

structure ReviewDecision where
  id : Uuid
  organizationId : Uuid
  workspaceId : Uuid
  findingId : Uuid
  action : ReviewDecisionAction
  originalResult : FindingResult
  rationale : String
  editedResult : Option FindingResult
  editedSeverity : Option Severity
  actorId : Uuid
  occurredAt : Time
  deriving DecidableEq, Repr

structure ReviewAuditEvent where
  id : Uuid
  organizationId : Uuid
  workspaceId : Uuid
  action : String
  actorId : Uuid
  findingId : Uuid
  metadata : List (String × String)
  occurredAt : Time
  deriving DecidableEq, Repr

structure AuditEvent where
  id : Uuid
  organizationId : Uuid
  workspaceId : Uuid
  actorId : Uuid
  action : String
  resourceType : String
  resourceId : Uuid
  outcome : String
  correlationId : String
  beforeRef : List (String × String)
  afterRef : List (String × String)
  metadata : List (String × String)
  occurredAt : Time
  deriving DecidableEq, Repr

structure DecisionDb where
  identity : IdentityTables
  agreements : List Agreement
  evaluations : List PlaybookEvaluation
  findings : List PlaybookFinding
  decisions : List ReviewDecision
  reviewAuditEvents : List ReviewAuditEvent
  auditEvents : List AuditEvent
  findingKeys : (findings.map (·.id)).Nodup

/-! What the audit log keeps of a text -/

def redacted : String := "[REDACTED]"

def sensitiveKeyFragments : List String :=
  ["agreement_text", "document_text", "source_text", "raw_text", "content", "prompt", "completion",
    "provider_output", "secret", "token", "password", "credential", "api_key", "authorization"]

def freeFormKeyFragments : List String :=
  ["reason", "note", "comment", "rationale", "explanation", "description", "message", "body"]

def approvedReasonCodes : List String :=
  ["business_exception", "contractual_requirement", "jurisdictional_requirement",
    "risk_exception", "other"]

def isSensitiveKey (key : String) : Bool :=
  (sensitiveKeyFragments ++ freeFormKeyFragments).any (contains key)

def isReasonCodeKey (key : String) : Bool :=
  key = "reason_code" || "_reason_code".toList.isSuffixOf key.toList

section Audit
variable (isRestrictedText : String → Bool)

/-- `_safe_value`, for a text under a key in lower case and without hyphens and blanks. -/
def safeValue (key value : String) : String :=
  if isReasonCodeKey key then (if value ∈ approvedReasonCodes then value else redacted)
  else if isSensitiveKey key then redacted
  else if isRestrictedText value then redacted
  else value

def safeMapping (value : List (String × String)) : List (String × String) :=
  value.map fun item => (item.1, safeValue isRestrictedText item.1 item.2)

end Audit

/-! Recording a decision -/

/-- A call of the service, with the uuid4 keys and the clock reading that it takes. -/
structure DecisionCall where
  userId : Uuid
  organizationId : Uuid
  workspaceId : Uuid
  findingId : Uuid
  request : ReviewDecisionRequest
  decisionId : Uuid
  reviewAuditEventId : Uuid
  auditEventId : Uuid
  correlationId : String
  now : Time

/-- `_authorize` -/
def authorized (db : DecisionDb) (call : DecisionCall) : Bool :=
  canAccessWorkspace db.identity call.userId call.organizationId call.workspaceId .reviewsDecide

/-- `_finding`: a finding of the workspace whose agreement is not to be deleted. -/
def findFinding (db : DecisionDb) (findingId organizationId workspaceId : Uuid) :
    Option PlaybookFinding :=
  db.findings.find? fun finding =>
    finding.id = findingId ∧ finding.organizationId = organizationId ∧
      finding.workspaceId = workspaceId ∧ db.evaluations.any fun evaluation =>
        evaluation.id = finding.evaluationId ∧ db.agreements.any fun agreement =>
          agreement.id = evaluation.agreementId ∧ agreement.deletionRequestedAt = none

def DecisionCall.decision (call : DecisionCall) (finding : PlaybookFinding) : ReviewDecision where
  id := call.decisionId
  organizationId := call.organizationId
  workspaceId := call.workspaceId
  findingId := finding.id
  action := call.request.action
  originalResult := finding.result
  rationale := strip call.request.rationale
  editedResult := call.request.editedResult
  editedSeverity := call.request.editedSeverity
  actorId := call.userId
  occurredAt := call.now

def DecisionCall.reviewAuditEvent (call : DecisionCall) (finding : PlaybookFinding) :
    ReviewAuditEvent where
  id := call.reviewAuditEventId
  organizationId := call.organizationId
  workspaceId := call.workspaceId
  action := "decision_recorded"
  actorId := call.userId
  findingId := finding.id
  metadata := [("decision_id", call.decisionId.str), ("action", call.request.action.value)]
  occurredAt := call.now

structure CurrentReviewDecision where
  action : ReviewDecisionAction
  result : FindingResult
  severity : Severity
  rationale : String
  actorId : Uuid
  decidedAt : Time
  deriving DecidableEq, Repr

/-- What an event leaves of the result and the severity of a finding. -/
def applyEdit (finding : PlaybookFinding) (shown : FindingResult × Severity)
    (event : ReviewDecision) : FindingResult × Severity :=
  if event.action = .edited then
    (event.editedResult.getD shown.1, event.editedSeverity.getD shown.2)
  else (finding.result, finding.severity)

/-- `_current_decision` -/
def currentDecision (finding : PlaybookFinding) (events : List ReviewDecision) :
    Option CurrentReviewDecision :=
  events.getLast?.map fun latest =>
    let shown := events.foldl (applyEdit finding) (finding.result, finding.severity)
    { action := latest.action
      result := shown.1
      severity := shown.2
      rationale := latest.rationale
      actorId := latest.actorId
      decidedAt := latest.occurredAt }

/-- `finding.decisions` -/
def decisionsOf (db : DecisionDb) (findingId : Uuid) : List ReviewDecision :=
  orderBy (fun event : ReviewDecision =>
      (toLex (event.occurredAt, event.id.bits.toNat) : ℕ ×ₗ ℕ))
    (db.decisions.filter (·.findingId = findingId))

section Service
variable (isRestrictedText : String → Bool)

def DecisionCall.auditEvent (call : DecisionCall) (finding : PlaybookFinding) : AuditEvent where
  id := call.auditEventId
  organizationId := call.organizationId
  workspaceId := call.workspaceId
  actorId := call.userId
  action := "review_finding_decision_recorded"
  resourceType := "review_finding"
  resourceId := finding.id
  outcome := "succeeded"
  correlationId := call.correlationId
  beforeRef := safeMapping isRestrictedText [("review_state", finding.reviewState)]
  afterRef := safeMapping isRestrictedText
    [("decision_id", call.decisionId.str), ("review_state", "decided")]
  metadata := safeMapping isRestrictedText
    [("finding_id", finding.id.str), ("decision_action", call.request.action.value)]
  occurredAt := call.now

/-- `ReviewDecisionService.record`, with the response; a call that is refused has none and leaves
the database as it is. -/
def record (db : DecisionDb) (call : DecisionCall) :
    DecisionDb × Option (ReviewDecision × CurrentReviewDecision) :=
  if authorized db call then
    match findFinding db call.findingId call.organizationId call.workspaceId with
    | none => (db, none)
    | some finding =>
      match currentDecision finding (decisionsOf db finding.id ++ [call.decision finding]) with
      | none => (db, none)
      | some current =>
        ({ db with
            decisions := db.decisions ++ [call.decision finding]
            reviewAuditEvents := db.reviewAuditEvents ++ [call.reviewAuditEvent finding]
            auditEvents := db.auditEvents ++ [call.auditEvent isRestrictedText finding] },
          some (call.decision finding, current))
  else (db, none)

def step (db : DecisionDb) (call : DecisionCall) : DecisionDb :=
  (record isRestrictedText db call).1

end Service

/-! What a call changes -/

/-- The call is allowed, and finds the finding. -/
def Records (db : DecisionDb) (call : DecisionCall) (findingId : Uuid) : Prop :=
  authorized db call = true ∧ ∃ finding, finding.id = findingId ∧
    findFinding db call.findingId call.organizationId call.workspaceId = some finding

/-- What no call changes. -/
structure SameFindings (db other : DecisionDb) : Prop where
  identity : other.identity = db.identity
  agreements : other.agreements = db.agreements
  evaluations : other.evaluations = db.evaluations
  findings : other.findings = db.findings

theorem SameFindings.records_iff {db other : DecisionDb} (same : SameFindings db other)
    (call : DecisionCall) (findingId : Uuid) :
    Records other call findingId ↔ Records db call findingId := by
  simp only [Records, authorized, findFinding, same.identity, same.agreements, same.evaluations,
    same.findings]

/-- The audit events of the decisions on a finding. -/
def trail (db : DecisionDb) (findingId : Uuid) : List AuditEvent :=
  db.auditEvents.filter fun event =>
    event.resourceType = "review_finding" ∧ event.resourceId = findingId ∧
      event.action = "review_finding_decision_recorded"

/-- The review state that a reference names. -/
def stateIn (ref : List (String × String)) : Option String :=
  Dict.get? ref "review_state"

/-- The review state that a finding has now. -/
def reviewState (db : DecisionDb) (findingId : Uuid) : Option String :=
  (db.findings.find? (·.id = findingId)).map (·.reviewState)

section Step
variable {isRestrictedText : String → Bool} {db : DecisionDb} {call : DecisionCall}
  {finding : PlaybookFinding}

theorem findFinding_member {findingId organizationId workspaceId : Uuid}
    (found : findFinding db findingId organizationId workspaceId = some finding) :
    finding ∈ db.findings :=
  List.mem_of_find?_eq_some found

/-- A call that records a decision always has a current decision to respond with. -/
theorem record_of_found (allowed : authorized db call = true)
    (found : findFinding db call.findingId call.organizationId call.workspaceId = some finding) :
    ∃ current, record isRestrictedText db call =
      ({ db with
          decisions := db.decisions ++ [call.decision finding]
          reviewAuditEvents := db.reviewAuditEvents ++ [call.reviewAuditEvent finding]
          auditEvents := db.auditEvents ++ [call.auditEvent isRestrictedText finding] },
        some (call.decision finding, current)) := by
  rw [record, if_pos allowed, found]
  simp [currentDecision]

/-- A step records the decision of its call or changes nothing. -/
theorem step_cases :
    step isRestrictedText db call = db ∧ (∀ findingId, ¬ Records db call findingId) ∨
    ∃ finding ∈ db.findings, Records db call finding.id ∧
      (∀ findingId, Records db call findingId → findingId = finding.id) ∧
        SameFindings db (step isRestrictedText db call) ∧
          (step isRestrictedText db call).auditEvents =
            db.auditEvents ++ [call.auditEvent isRestrictedText finding] := by
  by_cases allowed : authorized db call = true
  · cases found : findFinding db call.findingId call.organizationId call.workspaceId with
    | none =>
        left
        refine ⟨by rw [step, record, if_pos allowed, found], ?_⟩
        rintro findingId ⟨-, finding, -, here⟩
        rw [found] at here
        cases here
    | some finding =>
        right
        obtain ⟨current, recorded⟩ := @record_of_found isRestrictedText _ _ _ allowed found
        refine ⟨finding, findFinding_member found, ⟨allowed, finding, rfl, found⟩, ?_, ?_, ?_⟩
        · rintro findingId ⟨-, other, rfl, here⟩
          rw [found] at here
          cases here
          rfl
        · rw [step, recorded]
          exact ⟨rfl, rfl, rfl, rfl⟩
        · rw [step, recorded]
  · left
    refine ⟨by rw [step, record, if_neg allowed], ?_⟩
    rintro findingId ⟨yes, -⟩
    exact allowed yes

/-- The event of a decision names the stored state before it, and a decided one after it. -/
theorem stateIn_auditEvent :
    stateIn (call.auditEvent isRestrictedText finding).beforeRef =
        some (safeValue isRestrictedText "review_state" finding.reviewState) ∧
      stateIn (call.auditEvent isRestrictedText finding).afterRef =
        some (safeValue isRestrictedText "review_state" "decided") := by
  simp [stateIn, DecisionCall.auditEvent, safeMapping, Dict.get?]

theorem safeValue_reviewState (value : String) :
    safeValue isRestrictedText "review_state" value =
      if isRestrictedText value then redacted else value := by
  have code : isReasonCodeKey "review_state" = false := by decide +kernel
  have sensitive : isSensitiveKey "review_state" = false := by decide +kernel
  simp [safeValue, code, sensitive]

end Step

/-! Trails -/

/-- The events of decisions in a row lead from the first review state to the current one: each
names before it the state that the event before it has named after it. -/
structure Replays (initial : String) (current : Option String) (events : List AuditEvent) :
    Prop where
  first : ∀ event ∈ events.head?, stateIn event.beforeRef = some initial
  linked : events.IsChain fun event next => stateIn next.beforeRef = stateIn event.afterRef
  none : events = [] → current = some initial
  last : ∀ event ∈ events.getLast?, stateIn event.afterRef = current

section Run
variable {isRestrictedText : String → Bool} {finding : PlaybookFinding}

/-- A run adds to the trail of a finding what its decisions write, and leaves the finding as it
is. -/
theorem run_trail {db : DecisionDb} (member : finding ∈ db.findings) (calls : List DecisionCall) :
    ∃ events, trail (run (step isRestrictedText) db calls) finding.id =
        trail db finding.id ++ events ∧
      (∀ event ∈ events,
        stateIn event.beforeRef =
            some (safeValue isRestrictedText "review_state" finding.reviewState) ∧
          stateIn event.afterRef = some (safeValue isRestrictedText "review_state" "decided")) ∧
      (events = [] ↔ ∀ call ∈ calls, ¬ Records db call finding.id) ∧
      SameFindings db (run (step isRestrictedText) db calls) := by
  induction calls generalizing db with
  | nil => exact ⟨[], by simp, by simp, by simp, rfl, rfl, rfl, rfl⟩
  | cons call rest ih =>
      rw [run_cons]
      obtain ⟨stays, idle⟩ | ⟨decided, listed, records, only, same, writes⟩ :=
        @step_cases isRestrictedText db call
      · obtain ⟨events, grows, states, none, kept⟩ := ih member
        rw [stays]
        refine ⟨events, grows, states, none.trans ?_, kept⟩
        simp [idle finding.id]
      · obtain ⟨events, grows, states, none, kept⟩ :=
          @ih (step isRestrictedText db call) (by rw [same.findings]; exact member)
        have later : SameFindings db (run (step isRestrictedText) (step isRestrictedText db call)
            rest) :=
          ⟨kept.identity.trans same.identity, kept.agreements.trans same.agreements,
            kept.evaluations.trans same.evaluations, kept.findings.trans same.findings⟩
        simp only [same.records_iff] at none
        by_cases mine : decided.id = finding.id
        · have this : decided = finding :=
            List.inj_on_of_nodup_map db.findingKeys listed member mine
          subst this
          refine ⟨call.auditEvent isRestrictedText decided :: events, ?_, ?_, ?_, later⟩
          · rw [grows, trail, writes, List.filter_append, ← trail]
            simp [DecisionCall.auditEvent]
          · exact List.forall_mem_cons.mpr ⟨stateIn_auditEvent, states⟩
          · simp [records]
        · refine ⟨events, ?_, states, ?_, later⟩
          · rw [grows, trail, writes, List.filter_append, ← trail]
            simp [DecisionCall.auditEvent, mine]
          · rw [none, List.forall_mem_cons, and_iff_right]
            exact fun here => mine (only _ here).symm

/-- The trail of a finding replays to its review state exactly when no decision was recorded, or
the finding was decided all along: recording a decision does not store the state that it reports. -/
theorem run_replays_iff (plain : isRestrictedText "decided" = false) {db : DecisionDb}
    (member : finding ∈ db.findings) (fresh : trail db finding.id = []) (calls : List DecisionCall) :
    Replays finding.reviewState
        (reviewState (run (step isRestrictedText) db calls) finding.id)
        (trail (run (step isRestrictedText) db calls) finding.id) ↔
      (∀ call ∈ calls, ¬ Records db call finding.id) ∨ finding.reviewState = "decided" := by
  obtain ⟨events, grows, states, none, kept⟩ := @run_trail isRestrictedText finding db member calls
  have stored : reviewState (run (step isRestrictedText) db calls) finding.id =
      some finding.reviewState := by
    rw [reviewState, kept.findings, Table.find?_of_mem db.findingKeys member]
    rfl
  rw [grows, fresh, List.nil_append, stored, ← none]
  rw [safeValue_reviewState, safeValue_reviewState, plain] at states
  constructor
  · intro replays
    by_cases empty : events = []
    · exact .inl empty
    · right
      have last := List.getLast?_eq_some_getLast empty
      have named := replays.last _ last
      rw [(states _ (List.getLast_mem empty)).2] at named
      simpa using named.symm
  · rintro (rfl | decided)
    · exact ⟨by simp, by simp, fun _ => rfl, by simp⟩
    · have same (event) (here : event ∈ events) : stateIn event.beforeRef = some "decided" ∧
          stateIn event.afterRef = some "decided" := by
        simpa [decided, plain] using states event here
      refine
        { first := fun event head => ?_
          linked := ?_
          none := fun _ => rfl
          last := fun event last => ?_ }
      · rw [decided]
        exact (same event (List.mem_of_mem_head? head)).1
      · refine List.Pairwise.isChain (List.pairwise_of_forall_mem_list ?_)
        intro event here next there
        rw [(same next there).1, (same event here).2]
      · rw [decided]
        exact (same event (List.mem_of_mem_getLast? last)).2

end Run

/-! A finding that is decided twice -/

/-- A reviewer of the workspace, and a finding of an agreement in it. -/
def reviewedFinding : PlaybookFinding :=
  ⟨Uuid.ofNat 30, Uuid.ofNat 1, Uuid.ofNat 10, Uuid.ofNat 40, .missing, .high, "unreviewed"⟩

def reviewDb : DecisionDb where
  identity :=
    { memberships := [⟨Uuid.ofNat 20, Uuid.ofNat 1, Uuid.ofNat 2, .legalReviewer⟩]
      workspaceMemberships := [⟨Uuid.ofNat 10, Uuid.ofNat 20⟩]
      workspaces := [⟨Uuid.ofNat 10, Uuid.ofNat 1⟩] }
  agreements := [⟨Uuid.ofNat 50, none⟩]
  evaluations := [⟨Uuid.ofNat 40, Uuid.ofNat 50⟩]
  findings := [reviewedFinding]
  decisions := []
  reviewAuditEvents := []
  auditEvents := []
  findingKeys := by decide

def acceptFinding (number : ℕ) : DecisionCall where
  userId := Uuid.ofNat 2
  organizationId := Uuid.ofNat 1
  workspaceId := Uuid.ofNat 10
  findingId := Uuid.ofNat 30
  request :=
    { action := .accepted
      rationale := "Agreed."
      editedResult := none
      editedSeverity := none
      stripped := by decide +kernel
      bounded := by decide
      edits := by decide }
  decisionId := Uuid.ofNat (60 + number)
  reviewAuditEventId := Uuid.ofNat (70 + number)
  auditEventId := Uuid.ofNat (80 + number)
  correlationId := "request"
  now := number

/-- A text is restricted when it is too long. -/
def longText (text : String) : Bool := 256 < text.length

theorem run_replays_iff_accepted :
    Replays "unreviewed"
        (reviewState (run (step longText) reviewDb [acceptFinding 1]) (Uuid.ofNat 30))
        (trail (run (step longText) reviewDb [acceptFinding 1]) (Uuid.ofNat 30)) ↔
      (∀ call ∈ [acceptFinding 1], ¬ Records reviewDb call (Uuid.ofNat 30)) ∨
        "unreviewed" = "decided" :=
  @run_replays_iff longText reviewedFinding (by decide +kernel) reviewDb List.mem_cons_self rfl
    [acceptFinding 1]

/-- The event of the second decision names the finding unreviewed, after the event of the first has
named it decided. -/
theorem not_alwaysReplays :
    ¬ Replays "unreviewed"
      (reviewState (run (step longText) reviewDb [acceptFinding 1, acceptFinding 2]) (Uuid.ofNat 30))
      (trail (run (step longText) reviewDb [acceptFinding 1, acceptFinding 2])
        (Uuid.ofNat 30)) := by
  intro replays
  exact absurd replays.linked (by decide +kernel)

end AgreementIntelligence.Reviews.Decisions
