import AgreementIntelligence.Reviews.Decisions

/-! Which decision on a finding counts. Recording appends the new decision to those on record, and
a history sorts them by the clock that each was stamped with: the two agree while no clock goes
back. -/

namespace AgreementIntelligence.Reviews.Decisions
open Identity Lib Lib.Queries Lib.Runs Playbooks

structure ReviewDecisionHistory where
  findingId : Uuid
  events : List ReviewDecision
  current : Option CurrentReviewDecision
  deriving DecidableEq, Repr

/-- `_decision_order` -/
def decisionOrder (event : ReviewDecision) : ℕ ×ₗ ℕ :=
  toLex (event.occurredAt, event.id.bits.toNat)

def decisionHistoryResponse (db : DecisionDb) (finding : PlaybookFinding) : ReviewDecisionHistory :=
  let events := orderBy decisionOrder (decisionsOf db finding.id)
  ⟨finding.id, events, currentDecision finding events⟩

/-- `ReviewDecisionService.history` -/
def history (db : DecisionDb) (userId organizationId workspaceId findingId : Uuid) :
    Option ReviewDecisionHistory :=
  if canAccessWorkspace db.identity userId organizationId workspaceId .reviewsDecide then
    (findFinding db findingId organizationId workspaceId).map (decisionHistoryResponse db)
  else none

/-- The order of the decision that a call would record. -/
def DecisionCall.order (call : DecisionCall) : ℕ ×ₗ ℕ :=
  toLex (call.now, call.decisionId.bits.toNat)

/-! What is on record -/

theorem decisionsOf_eq (db : DecisionDb) (findingId : Uuid) :
    decisionsOf db findingId = orderBy decisionOrder (db.decisions.filter (·.findingId = findingId)) :=
  rfl

/-- The history shows the decision last, and shows the current decision that the response gave. -/
structure Shows (shown : ReviewDecisionHistory) (decision : ReviewDecision)
    (current : CurrentReviewDecision) : Prop where
  last : shown.events.getLast? = some decision
  responded : shown.current = some current
  action : current.action = decision.action
  rationale : current.rationale = decision.rationale
  actor : current.actorId = decision.actorId
  decidedAt : current.decidedAt = decision.occurredAt

section Step
variable {isRestrictedText : String → Bool} {db : DecisionDb} {call : DecisionCall}
  {finding : PlaybookFinding}

/-- A history that is read right after a call tells what the call responded. -/
def Remembers (isRestrictedText : String → Bool) (db : DecisionDb) (call : DecisionCall) : Prop :=
  ∀ decision current, (record isRestrictedText db call).2 = some (decision, current) →
    ∃ shown, history (step isRestrictedText db call) call.userId call.organizationId
        call.workspaceId call.findingId = some shown ∧ Shows shown decision current

/-- No decision on the finding of the call is stamped after it. -/
def Newest (db : DecisionDb) (call : DecisionCall) : Prop :=
  ∀ findingId, Records db call findingId →
    ∀ earlier ∈ db.decisions, earlier.findingId = findingId → decisionOrder earlier ≤ call.order

/-- What a recording call responds and what is on record after it. -/
theorem record_responds (allowed : authorized db call = true)
    (found : findFinding db call.findingId call.organizationId call.workspaceId = some finding) :
    ∃ current,
      currentDecision finding (decisionsOf db finding.id ++ [call.decision finding]) =
          some current ∧
        (record isRestrictedText db call).2 = some (call.decision finding, current) ∧
        (step isRestrictedText db call).decisions = db.decisions ++ [call.decision finding] ∧
        SameFindings db (step isRestrictedText db call) := by
  cases shown : currentDecision finding (decisionsOf db finding.id ++ [call.decision finding]) with
  | none => simp [currentDecision] at shown
  | some current =>
      have recorded : record isRestrictedText db call =
          ({ db with
              decisions := db.decisions ++ [call.decision finding]
              reviewAuditEvents := db.reviewAuditEvents ++ [call.reviewAuditEvent finding]
              auditEvents := db.auditEvents ++ [call.auditEvent isRestrictedText finding] },
            some (call.decision finding, current)) := by
        rw [record, if_pos allowed, found]
        simp only [shown]
      refine ⟨current, rfl, by rw [recorded], ?_, ?_⟩
      · rw [step, recorded]
      · rw [step, recorded]
        exact ⟨rfl, rfl, rfl, rfl⟩

theorem history_step (allowed : authorized db call = true)
    (found : findFinding db call.findingId call.organizationId call.workspaceId = some finding)
    (kept : SameFindings db (step isRestrictedText db call)) :
    history (step isRestrictedText db call) call.userId call.organizationId call.workspaceId
        call.findingId =
      some (decisionHistoryResponse (step isRestrictedText db call) finding) := by
  have allowedStill : canAccessWorkspace (step isRestrictedText db call).identity call.userId
      call.organizationId call.workspaceId .reviewsDecide = true := by
    rw [kept.identity]
    exact allowed
  have foundStill : findFinding (step isRestrictedText db call) call.findingId
      call.organizationId call.workspaceId = some finding := by
    rw [← found]
    simp only [findFinding, kept.findings, kept.evaluations, kept.agreements]
  rw [history, if_pos allowedStill, foundStill, Option.map_some]

/-- The decision that is appended is the last one in the order of the clock just when no other is
stamped after it. -/
theorem shows_iff {current : CurrentReviewDecision}
    (shown : currentDecision finding (decisionsOf db finding.id ++ [call.decision finding]) =
      some current) {after : DecisionDb}
    (grown : after.decisions = db.decisions ++ [call.decision finding]) :
    Shows (decisionHistoryResponse after finding) (call.decision finding) current ↔
      ∀ earlier ∈ db.decisions, earlier.findingId = finding.id →
        decisionOrder earlier ≤ call.order := by
  have onRecord : after.decisions.filter (·.findingId = finding.id) =
      db.decisions.filter (·.findingId = finding.id) ++ [call.decision finding] := by
    rw [grown, List.filter_append]
    simp [DecisionCall.decision]
  have stamped : decisionOrder (call.decision finding) = call.order := rfl
  have events : (decisionHistoryResponse after finding).events =
      orderBy decisionOrder
        (db.decisions.filter (·.findingId = finding.id) ++ [call.decision finding]) := by
    rw [← onRecord]
    exact orderBy_of_pairwise (pairwise_orderBy _ _)
  constructor
  · intro shows earlier member same
    have last := shows.last
    rw [events] at last
    rw [← stamped]
    apply le_getLast_orderBy last
    exact List.mem_append_left _ (List.mem_filter.mpr ⟨member, by simpa using same⟩)
  · intro newest
    have appended : (decisionHistoryResponse after finding).events =
        decisionsOf db finding.id ++ [call.decision finding] := by
      rw [events, decisionsOf_eq]
      apply orderBy_concat
      intro earlier member
      rw [List.mem_filter, decide_eq_true_eq] at member
      exact newest earlier member.1 member.2
    have names : current.action = (call.decision finding).action ∧
        current.rationale = (call.decision finding).rationale ∧
        current.actorId = (call.decision finding).actorId ∧
        current.decidedAt = (call.decision finding).occurredAt := by
      rw [currentDecision, List.getLast?_concat, Option.map_some, Option.some.injEq] at shown
      rw [← shown]
      exact ⟨rfl, rfl, rfl, rfl⟩
    exact
      { last := by rw [appended, List.getLast?_concat]
        responded := by
          have read : (decisionHistoryResponse after finding).current =
              currentDecision finding (decisionHistoryResponse after finding).events := rfl
          rw [read, appended, shown]
        action := names.1
        rationale := names.2.1
        actor := names.2.2.1
        decidedAt := names.2.2.2 }

theorem remembers_iff : Remembers isRestrictedText db call ↔ Newest db call := by
  by_cases allowed : authorized db call = true
  · cases found : findFinding db call.findingId call.organizationId call.workspaceId with
    | none =>
        constructor
        · intro _ findingId records
          obtain ⟨-, finding, -, here⟩ := records
          rw [found] at here
          cases here
        · intro _ decision current responded
          rw [record, if_pos allowed, found] at responded
          cases responded
    | some finding =>
        obtain ⟨current, shown, responds, grown, kept⟩ :=
          @record_responds isRestrictedText _ _ _ allowed found
        have read := history_step allowed found kept
        have iff := shows_iff shown grown
        constructor
        · intro remembers findingId records
          obtain ⟨-, other, rfl, here⟩ := records
          rw [found, Option.some.injEq] at here
          subst here
          obtain ⟨_, same, shows⟩ := remembers _ _ responds
          rw [read, Option.some.injEq] at same
          subst same
          exact iff.mp shows
        · intro newest decision current' responded
          rw [responds, Option.some.injEq, Prod.mk.injEq] at responded
          obtain ⟨rfl, rfl⟩ := responded
          exact ⟨_, read, iff.mpr (newest _ ⟨allowed, finding, rfl, found⟩)⟩
  · constructor
    · intro _ findingId records
      exact absurd records.1 allowed
    · intro _ decision current responded
      rw [record, if_neg allowed] at responded
      cases responded

end Step

/-! Runs -/

/-- The decisions on a finding are recorded in the order in which they are stamped, and none of them
is stamped before one that was on record at the start. -/
structure StampedInOrder (db : DecisionDb) (calls : List DecisionCall) : Prop where
  start : ∀ call ∈ calls, Newest db call
  calls : calls.Pairwise fun first later =>
    ∀ findingId, Records db first findingId → Records db later findingId →
      first.order ≤ later.order

section Run
variable {isRestrictedText : String → Bool}

/-- A call that comes after another one must be stamped after what both found and what the other
recorded. -/
theorem newest_step {db : DecisionDb} {call later : DecisionCall} :
    Newest (step isRestrictedText db call) later ↔
      Newest db later ∧ ∀ findingId, Records db call findingId → Records db later findingId →
        call.order ≤ later.order := by
  by_cases recorded : ∃ finding, authorized db call = true ∧
      findFinding db call.findingId call.organizationId call.workspaceId = some finding
  · obtain ⟨finding, allowed, found⟩ := recorded
    obtain ⟨current, -, -, grown, kept⟩ := @record_responds isRestrictedText _ _ _ allowed found
    have only (findingId : Uuid) : Records db call findingId ↔ finding.id = findingId := by
      constructor
      · intro records
        obtain ⟨-, other, rfl, here⟩ := records
        rw [found, Option.some.injEq] at here
        rw [here]
      · intro same
        exact ⟨allowed, finding, same, found⟩
    simp only [Newest, kept.records_iff, grown, only, List.mem_append, List.mem_singleton]
    constructor
    · intro newest
      constructor
      · intro findingId records earlier member same
        exact newest findingId records earlier (Or.inl member) same
      · intro findingId same records
        exact newest findingId records _ (Or.inr rfl) same
    · intro both findingId records earlier member same
      rcases member with before | rfl
      · exact both.1 findingId records earlier before same
      · exact both.2 findingId same records
  · have idle : step isRestrictedText db call = db := by
      rw [step, record]
      split
      · rename_i allowed
        split
        · rfl
        · rename_i finding found
          exact absurd ⟨finding, allowed, found⟩ recorded
      · rfl
    have never (findingId : Uuid) : ¬ Records db call findingId := fun records => by
      obtain ⟨allowed, finding, -, found⟩ := records
      exact recorded ⟨finding, allowed, found⟩
    simp [idle, never]

theorem stampedInOrder_cons {db : DecisionDb} {call : DecisionCall} {rest : List DecisionCall} :
    StampedInOrder db (call :: rest) ↔
      Newest db call ∧ StampedInOrder (step isRestrictedText db call) rest := by
  have same (later : DecisionCall) (findingId : Uuid) :
      Records (step isRestrictedText db call) later findingId ↔ Records db later findingId := by
    rcases @step_cases isRestrictedText db call with ⟨idle, -⟩ | ⟨_, -, -, -, kept, -⟩
    · rw [idle]
    · exact kept.records_iff later findingId
  constructor
  · intro ordered
    have apart := List.pairwise_cons.mp ordered.calls
    refine ⟨ordered.start call List.mem_cons_self, ?_, ?_⟩
    · intro later member
      exact newest_step.mpr
        ⟨ordered.start later (List.mem_cons_of_mem call member), apart.1 later member⟩
    · simpa only [same] using apart.2
  · intro both
    obtain ⟨newest, ordered⟩ := both
    have later (other : DecisionCall) (member : other ∈ rest) :=
      newest_step.mp (ordered.start other member)
    constructor
    · exact List.forall_mem_cons.mpr ⟨newest, fun other member => (later other member).1⟩
    · refine List.pairwise_cons.mpr ⟨fun other member => (later other member).2, ?_⟩
      simpa only [same] using ordered.calls

/-- In a run every history tells what was responded right before it exactly when the decisions on
each finding are stamped in the order in which they are recorded. -/
theorem run_remembers_iff (db : DecisionDb) (calls : List DecisionCall) :
    (∀ before call after, calls = before ++ call :: after →
        Remembers isRestrictedText (run (step isRestrictedText) db before) call) ↔
      StampedInOrder db calls := by
  induction calls generalizing db with
  | nil =>
      constructor
      · intro _
        exact ⟨by simp, List.Pairwise.nil⟩
      · intro _ before call after split
        simp at split
  | cons first rest ih =>
      rw [@stampedInOrder_cons isRestrictedText, ← ih, ← remembers_iff]
      constructor
      · intro all
        constructor
        · exact all [] first rest rfl
        · intro before call after split
          exact all (first :: before) call after (by rw [split, List.cons_append])
      · intro both before call after split
        cases before with
        | nil =>
            obtain ⟨rfl, -⟩ := List.cons.inj split
            exact both.1
        | cons other before =>
            obtain ⟨rfl, later⟩ := List.cons.inj split
            exact both.2 before call after later

end Run

/-- A decision that is stamped before the one on record is responded as current, and the history
read right after it shows the other. -/
theorem not_alwaysRemembers :
    ¬ Remembers longText (run (step longText) reviewDb [acceptFinding 2]) (acceptFinding 1) := by
  rw [remembers_iff]
  intro newest
  have stamped := newest (Uuid.ofNat 30)
    ⟨by decide +kernel, reviewedFinding, rfl, by decide +kernel⟩
    ((acceptFinding 2).decision reviewedFinding) (by decide +kernel) rfl
  exact absurd stamped (by decide +kernel)

end AgreementIntelligence.Reviews.Decisions
