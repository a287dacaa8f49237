import AgreementIntelligence.Lib.Runs
import AgreementIntelligence.Reviews.Workflow

/-! What each call can do, stated once. The guards of `decide` are read back as a record of
the facts they establish; the branch on the action has five outcomes; and a decision the
guards let through is always written, so nothing is refused after the first write. -/

namespace AgreementIntelligence.Reviews
open Identity ApprovalPolicies Lib.Runs

theorem review_ok_iff {env : CallEnv} {db : ReviewDb} {reviewId : Uuid} {found : ReviewCase} :
    review env db reviewId = .ok found ↔
      db.reviewCase.id = reviewId ∧ env.deletionRequested = false ∧ found = db.reviewCase := by
  unfold review
  split
  · rename_i open_
    constructor
    · intro same
      exact ⟨open_.1, open_.2, (Except.ok.inj same).symm⟩
    · rintro ⟨-, -, rfl⟩
      rfl
  · rename_i shut
    constructor
    · intro raised
      cases raised
    · rintro ⟨same, standing, -⟩
      exact absurd ⟨same, standing⟩ shut

theorem workflow?_eq_some {db : ReviewDb} {id : Uuid} {workflow : ReviewWorkflow} :
    db.workflow? id = some workflow ↔ db.workflow = some workflow ∧ workflow.id = id := by
  rw [ReviewDb.workflow?, Option.filter_eq_some_iff, decide_eq_true_iff]

theorem decision?_eq_none {db : ReviewDb} {workflow : ReviewWorkflow} {key : String} :
    db.decision? workflow key = none ↔
      ∀ decision ∈ db.decisions, decision.workflowId = workflow.id →
        decision.idempotencyKey ≠ key := by
  rw [ReviewDb.decision?, List.find?_eq_none]
  simp only [decide_eq_true_eq, not_and, ne_eq]

theorem decision?_eq_some {db : ReviewDb} {workflow : ReviewWorkflow} {key : String}
    {decision : ReviewWorkflowDecision} (found : db.decision? workflow key = some decision) :
    decision ∈ db.decisions ∧ decision.workflowId = workflow.id ∧
      decision.idempotencyKey = key := by
  have holds := List.find?_some found
  exact ⟨List.mem_of_find?_eq_some found, of_decide_eq_true holds⟩

theorem activeStage_ok {workflow : ReviewWorkflow} {stage : ReviewWorkflowStage} :
    activeStage workflow = .ok stage ↔
      workflow.stages.find? (fun row => row.state = .active) = some stage := by
  unfold activeStage conflict
  cases workflow.stages.find? fun row => row.state = .active with
  | none => simp
  | some row => simp

theorem hasPriorApproval_eq_false {db : ReviewDb} {workflow : ReviewWorkflow}
    {stage : ReviewWorkflowStage} {actorId : Uuid} :
    hasPriorApproval db workflow stage actorId = false ↔
      ∀ decision ∈ db.decisions, decision.workflowId = workflow.id → decision.actorId = actorId →
        decision.action = .approve → decision.workflowStageId = stage.id := by
  simp [hasPriorApproval]

/-- The facts under which the guards let a new decision through. -/
structure Admitted (env : CallEnv) (db : ReviewDb) (req : DecideRequest)
    (admission : Admission) : Prop where
  stored : db.workflow? req.workflowId = some admission.workflow
  unrecorded : db.decision? admission.workflow req.idempotencyKey = none
  revision : admission.workflow.revision = req.expectedRevision
  waiting : admission.workflow.state = .waitingForApproval
  stage : activeStage admission.workflow = .ok admission.stage
  policyVersion :
    db.policies.version? admission.workflow.policyVersionId = some admission.policyVersion
  review : review env db admission.workflow.reviewId = .ok admission.reviewCase
  submitter : req.action = .approve → admission.policyVersion.submitterMayApprove = false →
    req.actorId ≠ admission.reviewCase.createdBy
  policyStage : db.policies.stage? admission.stage.policyStageId = some admission.policyStage
  eligible :
    actorIsEligible env.memberships req.actorId admission.workflow admission.policyStage = true
  crossStage : req.action = .approve → admission.policyVersion.allowCrossStageSameApprover = false →
    hasPriorApproval db admission.workflow admission.stage req.actorId = false

/-- A key that is on record is answered from the record. -/
structure Replayed (db : ReviewDb) (req : DecideRequest) (workflow : ReviewWorkflow) : Prop where
  stored : db.workflow? req.workflowId = some workflow
  recorded : ∃ decision, db.decision? workflow req.idempotencyKey = some decision ∧
    decision.actorId = req.actorId ∧ decision.action = req.action

theorem decideGuards_ok_cases {env : CallEnv} {db : ReviewDb} {req : DecideRequest}
    {guarded : Guarded} (passed : decideGuards env db req = .ok guarded) :
    (∃ workflow, guarded = .replay workflow ∧ Replayed db req workflow) ∨
      ∃ admission, guarded = .fresh admission ∧ Admitted env db req admission := by
  simp only [decideGuards, conflict, bind, Except.bind] at passed
  split at passed <;> [cases passed; rename_i workflow stored]
  split at passed
  · rename_i existing recorded
    split at passed <;> [cases passed; rename_i same]
    push Not at same
    cases passed
    exact .inl ⟨workflow, rfl, stored, existing, recorded, same⟩
  rename_i unrecorded
  split at passed <;> [cases passed; rename_i current]
  push Not at current
  split at passed <;> [cases passed; rename_i stage active]
  split at passed <;> [cases passed; rename_i version versionStored]
  split at passed <;> [cases passed; rename_i reviewCase reviewed]
  split at passed <;> [cases passed; rename_i submitter]
  split at passed <;> [cases passed; rename_i policyStage stageStored]
  split at passed <;> [cases passed; rename_i eligible]
  split at passed <;> [cases passed; rename_i cross]
  cases passed
  refine .inr ⟨_, rfl, stored, unrecorded, current.1, current.2, active, versionStored, reviewed,
    ?_, stageStored, Bool.eq_true_of_not_eq_false eligible, ?_⟩
  · exact fun approves strict same => submitter ⟨approves, strict, same⟩
  · exact fun approves strict => Bool.eq_false_of_not_eq_true fun prior =>
      cross ⟨approves, strict, prior⟩

theorem decideGuards_of_admitted {env : CallEnv} {db : ReviewDb} {req : DecideRequest}
    {admission : Admission} (admitted : Admitted env db req admission) :
    decideGuards env db req = .ok (.fresh admission) := by
  have current : ¬(admission.workflow.revision ≠ req.expectedRevision ∨
      admission.workflow.state ≠ .waitingForApproval) := by
    simp [admitted.revision, admitted.waiting]
  have submitter : ¬(req.action = .approve ∧ admission.policyVersion.submitterMayApprove = false ∧
      req.actorId = admission.reviewCase.createdBy) :=
    fun ⟨approves, strict, same⟩ => admitted.submitter approves strict same
  have eligible : ¬(actorIsEligible env.memberships req.actorId admission.workflow
      admission.policyStage = false) := by
    simp [admitted.eligible]
  have cross : ¬(req.action = .approve ∧
      admission.policyVersion.allowCrossStageSameApprover = false ∧
      hasPriorApproval db admission.workflow admission.stage req.actorId = true) := by
    rintro ⟨approves, strict, prior⟩
    rw [admitted.crossStage approves strict] at prior
    cases prior
  simp only [decideGuards, admitted.stored, admitted.unrecorded, if_neg current,
    admitted.stage, admitted.policyVersion, admitted.review, bind, Except.bind, if_neg submitter,
    admitted.policyStage, if_neg eligible, if_neg cross]

theorem decideGuards_of_replayed {env : CallEnv} {db : ReviewDb} {req : DecideRequest}
    {workflow : ReviewWorkflow} (replayed : Replayed db req workflow) :
    decideGuards env db req = .ok (.replay workflow) := by
  obtain ⟨stored, existing, recorded, actor, action⟩ := replayed
  have same : ¬(existing.actorId ≠ req.actorId ∨ existing.action ≠ req.action) := by
    simp [actor, action]
  simp only [decideGuards, stored, recorded, if_neg same]

theorem decide_ok_cases {env : CallEnv} {db after : ReviewDb} {req : DecideRequest}
    {seen : WorkflowSnapshot} (returned : decide env db req = .ok (seen, after)) :
    (∃ workflow, Replayed db req workflow ∧ after = db ∧ seen = snapshot workflow db.outbox) ∨
      ∃ admission, Admitted env db req admission ∧
        recordDecision env db req admission = .ok (seen, after) := by
  simp only [decide, bind, Except.bind] at returned
  split at returned <;> [cases returned; rename_i guarded passed]
  rcases decideGuards_ok_cases passed with ⟨workflow, rfl, replayed⟩ | ⟨admission, rfl, admitted⟩
  · cases returned
    exact .inl ⟨workflow, replayed, rfl, rfl⟩
  · exact .inr ⟨admission, admitted, returned⟩

theorem decide_of_admitted {env : CallEnv} {db : ReviewDb} {req : DecideRequest}
    {admission : Admission} (admitted : Admitted env db req admission) :
    decide env db req = recordDecision env db req admission := by
  simp only [decide, decideGuards_of_admitted admitted, bind, Except.bind]

/-- The columns of an emitted row that are derived from the call. -/
structure Emitted (workflow : ReviewWorkflow) (eventType correlationId key : String)
    (event : ReviewWorkflowOutboxEvent) : Prop where
  workflowId : event.workflowId = workflow.id
  eventType : event.eventType = eventType
  correlationId : event.correlationId = correlationId
  key : event.idempotencyKey = key
  manifestKey : ∀ manifest ∈ event.packageManifestKey,
    manifest = packageBase workflow workflow.reviewId ++ "/manifest.json"
  pdfKey : ∀ pdf ∈ event.packagePdfKey,
    pdf = packageBase workflow workflow.reviewId ++ "/report.pdf"

theorem emit_ok {env : CallEnv} {db : ReviewDb} {workflow : ReviewWorkflow} {found : ReviewCase}
    (eventId : Uuid) (eventType correlationId key : String)
    (reviewed : review env db workflow.reviewId = .ok found ∨ eventType ≠ terminalEvent) :
    ∃ event, emit env db workflow eventId eventType correlationId key = .ok event ∧
      Emitted workflow eventType correlationId key event := by
  by_cases terminal : eventType = terminalEvent
  · have reviewed := reviewed.resolve_right (not_not.mpr terminal)
    simp only [emit, terminal, terminalPackageSnapshot, reviewed, bind, Except.bind, if_true]
    exact ⟨_, rfl, rfl, rfl, rfl, rfl, fun _ same => (Option.some.inj same).symm,
      fun _ same => (Option.some.inj same).symm⟩
  · simp only [emit, terminal, if_false]
    exact ⟨_, rfl, rfl, rfl, rfl, rfl, fun _ absent => (nomatch absent),
      fun _ absent => (nomatch absent)⟩

/-- The terminal state that a decision other than an approval ends the workflow with. -/
def WorkflowAction.stopsWith : WorkflowAction → Option TerminalState
  | .approve => none
  | .reject => some .rejected
  | .requestChanges => some .revisionRequested

def closedWorkflow (env : CallEnv) (workflow : ReviewWorkflow) (stage : ReviewWorkflowStage)
    (outcome : TerminalState) : ReviewWorkflow :=
  { workflow with
    stages := updateStage workflow.stages stage.id (completeStage env.now)
    state := .terminal outcome
    activeStageOrdinal := none }

def closedReview (env : CallEnv) (reviewCase : ReviewCase) (outcome : TerminalState) : ReviewCase :=
  { reviewCase with state := .terminal outcome, updatedAt := env.now }

/-- The assignments after a decision that stops: none of the review's is active. -/
def closedWork (workflow : ReviewWorkflow) (work : ReviewWork) : ReviewWork :=
  { work with
    assignments := work.assignments.map fun row =>
      if row.reviewId = workflow.reviewId ∧ row.status = .active then
        { row with status := .completed }
      else row }

/-- The assignments after a stage has made way for the next one. -/
def movedWork (env : CallEnv) (db : ReviewDb) (workflow : ReviewWorkflow)
    (stage next : ReviewWorkflowStage) : ReviewWork :=
  match db.policies.stage? next.policyStageId with
  | none => completeAssignments workflow stage db.work
  | some policyStage => activateAssignments env 3 db.reviewCase workflow policyStage
      (completeAssignments workflow stage db.work)

/-- The outcomes of the branch on the action: an approval that leaves the stage short, that
moves on to the next stage or that finishes the last one, and a decision that stops. -/
inductive Applied (env : CallEnv) (db : ReviewDb) (workflow : ReviewWorkflow)
    (stage : ReviewWorkflowStage) : WorkflowAction → ReviewWorkflow → ReviewDb → Prop
  | stays (short : stageIsSatisfied db workflow stage = .ok false) :
      Applied env db workflow stage .approve workflow db
  | moves (work : ReviewWork) (next : ReviewWorkflowStage)
      (met : stageIsSatisfied db workflow stage = .ok true)
      (found : (updateStage workflow.stages stage.id (completeStage env.now)).find?
        (fun candidate => candidate.ordinal = stage.ordinal + 1) = some next)
      (worked : work = movedWork env db workflow stage next) :
      Applied env db workflow stage .approve
        { workflow with
          stages := updateStage (updateStage workflow.stages stage.id (completeStage env.now))
            next.id (activateStage env.now (db.policies.stage? next.policyStageId))
          activeStageOrdinal := some next.ordinal }
        { db with work := work }
  | finishes (work : ReviewWork) (met : stageIsSatisfied db workflow stage = .ok true)
      (last : (updateStage workflow.stages stage.id (completeStage env.now)).find?
        (fun candidate => candidate.ordinal = stage.ordinal + 1) = none)
      (worked : work = completeAssignments workflow stage db.work) :
      Applied env db workflow stage .approve (closedWorkflow env workflow stage .approved)
        { db with work := work, reviewCase := closedReview env db.reviewCase .approved }
  | stops (work : ReviewWork) (action : WorkflowAction) (outcome : TerminalState)
      (stopping : action.stopsWith = some outcome)
      (worked : work = closedWork workflow db.work) :
      Applied env db workflow stage action (closedWorkflow env workflow stage outcome)
        { db with work := work, reviewCase := closedReview env db.reviewCase outcome }

theorem stageIsSatisfied_ok {db : ReviewDb} {stage : ReviewWorkflowStage}
    {policyStage : ApprovalPolicyStage} (workflow : ReviewWorkflow)
    (stored : db.policies.stage? stage.policyStageId = some policyStage) :
    ∃ met, stageIsSatisfied db workflow stage = .ok met := by
  simp only [stageIsSatisfied, stored]
  cases policyStage.approvalMode <;> exact ⟨_, rfl⟩

theorem synchronizeReviewState_ok {db : ReviewDb} {workflow : ReviewWorkflow}
    {outcome : TerminalState} (env : CallEnv) (own : db.reviewCase.id = workflow.reviewId) :
    synchronizeReviewState db workflow outcome env.now =
      .ok { db with reviewCase := closedReview env db.reviewCase outcome } := by
  rw [synchronizeReviewState, if_pos own]
  rfl

theorem completeTerminal_ok {db : ReviewDb} {workflow : ReviewWorkflow} (env : CallEnv)
    (stage : ReviewWorkflowStage) (outcome : TerminalState)
    (own : db.reviewCase.id = workflow.reviewId) :
    completeTerminal env db workflow stage outcome =
      .ok (closedWorkflow env workflow stage outcome, { db with
        work := closedWork workflow db.work
        reviewCase := closedReview env db.reviewCase outcome }) := by
  simp only [completeTerminal, bind, Except.bind]
  rw [synchronizeReviewState_ok env (by exact own)]
  rfl

theorem advance_ok {env : CallEnv} {db : ReviewDb} {workflow : ReviewWorkflow}
    {stage : ReviewWorkflowStage} {found : ReviewCase}
    (reviewed : review env db workflow.reviewId = .ok found)
    (met : stageIsSatisfied db workflow stage = .ok true) :
    ∃ after applied, advance env db workflow stage = .ok (after, applied) ∧
      Applied env db workflow stage .approve after applied := by
  obtain ⟨own, standing, -⟩ := review_ok_iff.mp reviewed
  cases next : (updateStage workflow.stages stage.id (completeStage env.now)).find?
      (fun candidate => candidate.ordinal = stage.ordinal + 1) with
  | none =>
      simp only [advance, next, bind, Except.bind]
      rw [synchronizeReviewState_ok env (by exact own)]
      exact ⟨_, _, rfl, .finishes _ met next rfl⟩
  | some next' =>
      have moved : ∀ work, work = movedWork env db workflow stage next' →
          Applied env db workflow stage .approve
            { workflow with
              stages := updateStage (updateStage workflow.stages stage.id (completeStage env.now))
                next'.id (activateStage env.now (db.policies.stage? next'.policyStageId))
              activeStageOrdinal := some next'.ordinal }
            { db with work := work } := fun work => .moves work next' met next
      simp only [advance, next, bind, Except.bind]
      cases stored : db.policies.stage? next'.policyStageId with
      | none =>
          simp only [movedWork, stored] at moved
          exact ⟨_, _, rfl, moved _ rfl⟩
      | some policyStage =>
          have again : review env { db with work := completeAssignments workflow stage db.work }
              workflow.reviewId = .ok db.reviewCase := review_ok_iff.mpr ⟨own, standing, rfl⟩
          simp only [again]
          simp only [movedWork, stored] at moved
          exact ⟨_, _, rfl, moved _ rfl⟩

theorem applyAction_ok {env : CallEnv} {db : ReviewDb} {workflow : ReviewWorkflow}
    {stage : ReviewWorkflowStage} {found : ReviewCase} {policyStage : ApprovalPolicyStage}
    (action : WorkflowAction)
    (reviewed : review env db workflow.reviewId = .ok found)
    (stored : db.policies.stage? stage.policyStageId = some policyStage) :
    ∃ after applied, applyAction env db action workflow stage = .ok (after, applied) ∧
      Applied env db workflow stage action after applied := by
  have own := (review_ok_iff.mp reviewed).1
  cases action with
  | approve =>
      obtain ⟨met, decided⟩ := stageIsSatisfied_ok workflow stored
      cases met with
      | false =>
          simp only [applyAction, decided, bind, Except.bind]
          exact ⟨_, _, rfl, .stays decided⟩
      | true =>
          simp only [applyAction, decided, bind, Except.bind]
          exact advance_ok reviewed decided
  | reject =>
      have stopped := completeTerminal_ok env stage .rejected own
      exact ⟨_, _, stopped, .stops _ .reject .rejected rfl rfl⟩
  | requestChanges =>
      have stopped := completeTerminal_ok env stage .revisionRequested own
      exact ⟨_, _, stopped, .stops _ .requestChanges .revisionRequested rfl rfl⟩

/-- What the branch on the action leaves alone. -/
structure ActionFrame (db : ReviewDb) (workflow : ReviewWorkflow) (after : ReviewWorkflow)
    (applied : ReviewDb) : Prop where
  policies : applied.policies = db.policies
  decisions : applied.decisions = db.decisions
  outbox : applied.outbox = db.outbox
  audit : applied.audit = db.audit
  reviewId : applied.reviewCase.id = db.reviewCase.id
  createdBy : applied.reviewCase.createdBy = db.reviewCase.createdBy
  id : after.id = workflow.id
  organizationId : after.organizationId = workflow.organizationId
  workspaceId : after.workspaceId = workflow.workspaceId
  review : after.reviewId = workflow.reviewId
  policyVersionId : after.policyVersionId = workflow.policyVersionId
  revision : after.revision = workflow.revision

theorem Applied.frame {env : CallEnv} {db applied : ReviewDb} {workflow after : ReviewWorkflow}
    {stage : ReviewWorkflowStage} {action : WorkflowAction}
    (done : Applied env db workflow stage action after applied) :
    ActionFrame db workflow after applied := by
  cases done <;> exact ⟨rfl, rfl, rfl, rfl, rfl, rfl, rfl, rfl, rfl, rfl, rfl, rfl⟩

/-- The database once the decision row is in and before the action is applied. -/
def withDecision (env : CallEnv) (db : ReviewDb) (req : DecideRequest) (admission : Admission) :
    ReviewDb :=
  { db with decisions := db.decisions ++ [decisionRow env req admission] }

def decisionEventKey (workflow : ReviewWorkflow) (req : DecideRequest) : String :=
  "workflow:" ++ workflow.id.str ++ ":decision:" ++ req.idempotencyKey

/-- The audit row of a decision. -/
def decisionAudit (env : CallEnv) (req : DecideRequest) (workflowId : Uuid) : AuditEvent where
  id := env.uuid4 1
  actorId := req.actorId
  action := "review_workflow_" ++ req.action.value
  resourceType := "review_workflow"
  resourceId := workflowId
  outcome := "accepted"
  correlationId := req.correlationId
  occurredAt := env.now

/-- The event type that a decision emits, given the state it leaves the workflow in. -/
def decisionEventType (state : WorkflowState) : String :=
  if state = .waitingForApproval then "review.workflow.resume" else terminalEvent

/-- A recorded decision: the action applied, the revision counted up, one outbox event and one
audit row added. -/
def Recorded (env : CallEnv) (db : ReviewDb) (req : DecideRequest) (admission : Admission)
    (after : ReviewDb) : Prop :=
  ∃ workflow applied event,
    Applied env (withDecision env db req admission) admission.workflow admission.stage req.action
      workflow applied ∧
    Emitted admission.workflow (decisionEventType workflow.state) req.correlationId
      (decisionEventKey admission.workflow req) event ∧
    after = { applied with
      workflow := some { workflow with revision := workflow.revision + 1, updatedAt := env.now }
      outbox := db.outbox ++ [event]
      audit := db.audit ++ [decisionAudit env req admission.workflow.id] }

def decidedWorkflow (env : CallEnv) (workflow : ReviewWorkflow) : ReviewWorkflow :=
  { workflow with revision := workflow.revision + 1, updatedAt := env.now }

/-- The database that the event of a decision is built from. -/
def decidedDb (env : CallEnv) (req : DecideRequest) (workflow : ReviewWorkflow)
    (applied : ReviewDb) : ReviewDb :=
  { applied with
    workflow := some (decidedWorkflow env workflow)
    audit := applied.audit ++ [decisionAudit env req workflow.id] }

theorem recordDecision_eq {env : CallEnv} {db applied : ReviewDb} {req : DecideRequest}
    {admission : Admission} {workflow : ReviewWorkflow} {event : ReviewWorkflowOutboxEvent}
    (done : applyAction env (withDecision env db req admission) req.action admission.workflow
      admission.stage = .ok (workflow, applied))
    (emitted : emit env (decidedDb env req workflow applied) (decidedWorkflow env workflow)
      (env.uuid4 2) (decisionEventType workflow.state) req.correlationId
      (decisionEventKey workflow req) = .ok event) :
    recordDecision env db req admission =
      .ok (snapshot (decidedWorkflow env workflow) (applied.outbox ++ [event]),
        { decidedDb env req workflow applied with outbox := applied.outbox ++ [event] }) := by
  simp only [withDecision] at done
  simp only [decidedDb, decidedWorkflow, decisionAudit, decisionEventType, decisionEventKey]
    at emitted
  simp only [recordDecision, done, emitted, bind, Except.bind]
  rfl

/-- Once the guards have passed nothing raises any more. -/
theorem recordDecision_ok {env : CallEnv} {db : ReviewDb} {req : DecideRequest}
    {admission : Admission} (admitted : Admitted env db req admission) :
    ∃ seen after, recordDecision env db req admission = .ok (seen, after) ∧
      Recorded env db req admission after := by
  obtain ⟨own, standing, -⟩ := review_ok_iff.mp admitted.review
  have reviewed : review env (withDecision env db req admission) admission.workflow.reviewId =
      .ok db.reviewCase := review_ok_iff.mpr ⟨own, standing, rfl⟩
  obtain ⟨workflow, applied, done, outcome⟩ :=
    applyAction_ok req.action reviewed admitted.policyStage
  have kept := outcome.frame
  have again : review env (decidedDb env req workflow applied)
      (decidedWorkflow env workflow).reviewId = .ok applied.reviewCase :=
    review_ok_iff.mpr ⟨(kept.reviewId.trans own).trans kept.review.symm, standing, rfl⟩
  obtain ⟨event, emitted, row⟩ := emit_ok (env.uuid4 2) (decisionEventType workflow.state)
    req.correlationId (decisionEventKey workflow req) (.inl again)
  have base : packageBase (decidedWorkflow env workflow) (decidedWorkflow env workflow).reviewId =
      packageBase admission.workflow admission.workflow.reviewId := by
    simp only [packageBase, decidedWorkflow, kept.organizationId, kept.workspaceId, kept.review]
  have key : decisionEventKey workflow req = decisionEventKey admission.workflow req := by
    simp only [decisionEventKey, kept.id]
  refine ⟨_, _, recordDecision_eq done emitted, workflow, applied, event, outcome, ?_, ?_⟩
  · exact {
      workflowId := row.workflowId.trans kept.id
      eventType := row.eventType
      correlationId := row.correlationId
      key := row.key.trans key
      manifestKey := base ▸ row.manifestKey
      pdfKey := base ▸ row.pdfKey }
  · rw [decidedDb, kept.outbox, kept.audit, congrArg (decisionAudit env req) kept.id]
    rfl

theorem decide_ok_of_admitted {env : CallEnv} {db : ReviewDb} {req : DecideRequest}
    {admission : Admission} (admitted : Admitted env db req admission) :
    ∃ seen after, decide env db req = .ok (seen, after) ∧ Recorded env db req admission after := by
  rw [decide_of_admitted admitted]
  exact recordDecision_ok admitted

/-- A decision that returns was replayed, and then nothing changed, or was recorded. -/
theorem decide_returns {env : CallEnv} {db after : ReviewDb} {req : DecideRequest}
    {seen : WorkflowSnapshot} (returned : decide env db req = .ok (seen, after)) :
    (∃ workflow, Replayed db req workflow ∧ after = db) ∨
      ∃ admission, Admitted env db req admission ∧ Recorded env db req admission after := by
  rcases decide_ok_cases returned with ⟨workflow, replayed, same, -⟩ | ⟨admission, admitted, wrote⟩
  · exact .inl ⟨workflow, replayed, same⟩
  · obtain ⟨seen', after', wrote', recorded⟩ := recordDecision_ok admitted
    rw [wrote] at wrote'
    cases wrote'
    exact .inr ⟨admission, admitted, recorded⟩

/-- A decision that raises was refused by a guard, before anything was written. -/
theorem decide_raises_iff {env : CallEnv} {db : ReviewDb} {req : DecideRequest}
    {e : ReviewWorkflowError} :
    decide env db req = .error e ↔ decideGuards env db req = .error e := by
  simp only [decide, bind, Except.bind]
  cases passed : decideGuards env db req with
  | error e' => simp
  | ok guarded =>
      rcases decideGuards_ok_cases passed with ⟨workflow, rfl, -⟩ | ⟨admission, rfl, admitted⟩
      · simp [pure, Except.pure]
      · obtain ⟨seen, after, wrote, -⟩ := recordDecision_ok admitted
        simp [wrote]

/-- What a recorded decision leaves alone, next to the one row it adds. -/
structure RecordedFrame (env : CallEnv) (db : ReviewDb) (req : DecideRequest)
    (admission : Admission) (after : ReviewDb) (workflow : ReviewWorkflow) : Prop where
  stored : after.workflow = some workflow
  policies : after.policies = db.policies
  decisions : after.decisions = db.decisions ++ [decisionRow env req admission]
  createdBy : after.reviewCase.createdBy = db.reviewCase.createdBy
  id : workflow.id = admission.workflow.id
  organizationId : workflow.organizationId = admission.workflow.organizationId
  workspaceId : workflow.workspaceId = admission.workflow.workspaceId
  policyVersionId : workflow.policyVersionId = admission.workflow.policyVersionId
  revision : workflow.revision = admission.workflow.revision + 1

theorem Recorded.frame {env : CallEnv} {db after : ReviewDb} {req : DecideRequest}
    {admission : Admission} (recorded : Recorded env db req admission after) :
    ∃ workflow, RecordedFrame env db req admission after workflow := by
  obtain ⟨workflow, applied, event, done, -, rfl⟩ := recorded
  have kept := done.frame
  exact ⟨_, rfl, kept.policies, kept.decisions, kept.createdBy, kept.id, kept.organizationId,
    kept.workspaceId, kept.policyVersionId, congrArg (· + 1) kept.revision⟩

theorem updateStage_map {β : Type} {stages : List ReviewWorkflowStage} {id : Uuid}
    {change : ReviewWorkflowStage → ReviewWorkflowStage} {f : ReviewWorkflowStage → β}
    (keeps : ∀ stage, f (change stage) = f stage) :
    (updateStage stages id change).map f = stages.map f :=
  Lib.Table.map_update keeps

/-- A decision keeps the stage rows apart from their states and times. -/
theorem Recorded.rows {env : CallEnv} {db after : ReviewDb} {req : DecideRequest}
    {admission : Admission} {workflow : ReviewWorkflow}
    (recorded : Recorded env db req admission after) (stored : after.workflow = some workflow) :
    workflow.stages.map (fun stage => (stage.id, stage.policyStageId)) =
      admission.workflow.stages.map fun stage => (stage.id, stage.policyStageId) := by
  obtain ⟨changed, applied, event, done, -, rfl⟩ := recorded
  cases stored
  generalize req.action = action at done
  cases done with
  | stays short => rfl
  | moves work next met found =>
      refine Eq.trans (updateStage_map ?_) (updateStage_map ?_)
      · exact fun _ => rfl
      · exact fun _ => rfl
  | finishes work met last => exact updateStage_map fun _ => rfl
  | stops work _ outcome stopping => exact updateStage_map fun _ => rfl

/-- A row that was not completed before and is after completing `stage` is the row of `stage`. -/
private theorem completeStage_only {stages : List ReviewWorkflowStage} {now : Time}
    {stage row old : ReviewWorkflowStage} (distinct : (stages.map (·.id)).Nodup)
    (active : stage ∈ stages) (before : old ∈ stages) (same : old.id = row.id)
    (unfinished : old.state ≠ .completed) (completed : row.state = .completed)
    (member : row ∈ updateStage stages stage.id (completeStage now)) :
    row.id = stage.id ∧ row.policyStageId = stage.policyStageId := by
  obtain ⟨source, inside, rfl⟩ := Lib.Table.mem_update.mp member
  by_cases hit : source.id = stage.id
  · rw [if_pos hit]
    have one := List.inj_on_of_nodup_map distinct inside active hit
    rw [one]
    exact ⟨rfl, rfl⟩
  · rw [if_neg hit] at same completed
    rw [List.inj_on_of_nodup_map distinct before inside same] at unfinished
    exact absurd completed unfinished

/-- The only stage a decision completes is the one it was made at, and an approval completes
it only when the stage is satisfied with the new decision counted in. -/
theorem Recorded.completes {env : CallEnv} {db after : ReviewDb} {req : DecideRequest}
    {admission : Admission} {workflow : ReviewWorkflow} {row old : ReviewWorkflowStage}
    (recorded : Recorded env db req admission after)
    (distinct : (admission.workflow.stages.map (·.id)).Nodup)
    (active : admission.stage ∈ admission.workflow.stages)
    (stored : after.workflow = some workflow) (member : row ∈ workflow.stages)
    (completed : row.state = .completed) (before : old ∈ admission.workflow.stages)
    (same : old.id = row.id) (unfinished : old.state ≠ .completed) :
    row.id = admission.stage.id ∧ row.policyStageId = admission.stage.policyStageId ∧
      (req.action = .approve →
        stageIsSatisfied (withDecision env db req admission) admission.workflow admission.stage =
          .ok true) := by
  obtain ⟨changed, applied, event, done, -, rfl⟩ := recorded
  cases stored
  generalize req.action = action at done ⊢
  cases done with
  | stays short =>
      have one := List.inj_on_of_nodup_map distinct before member same
      rw [one] at unfinished
      exact absurd completed unfinished
  | moves work next met found =>
      obtain ⟨source, inside, rfl⟩ := Lib.Table.mem_update.mp member
      by_cases hit : source.id = next.id
      · rw [if_pos hit] at completed
        cases completed
      · rw [if_neg hit] at same completed ⊢
        obtain ⟨here, policy⟩ :=
          completeStage_only distinct active before same unfinished completed inside
        exact ⟨here, policy, fun _ => met⟩
  | finishes work met last =>
      obtain ⟨here, policy⟩ :=
        completeStage_only distinct active before same unfinished completed member
      exact ⟨here, policy, fun _ => met⟩
  | stops work _ outcome stopping =>
      obtain ⟨here, policy⟩ :=
        completeStage_only distinct active before same unfinished completed member
      refine ⟨here, policy, fun approves => ?_⟩
      rw [approves] at stopping
      cases stopping

theorem policyVersion_ok {db : ReviewDb} {policyVersionId : Uuid} {reviewCase : ReviewCase}
    {version : ApprovalPolicyVersion}
    (found : policyVersion db policyVersionId reviewCase = .ok version) :
    version ∈ db.policies.versions ∧ version.id = policyVersionId ∧
      version.organizationId = reviewCase.organizationId ∧
      version.workspaceId = reviewCase.workspaceId ∧ version.status = .published := by
  unfold policyVersion at found
  split at found <;> [cases found; rename_i hit]
  cases found
  have holds := List.find?_some hit
  exact ⟨List.mem_of_find?_eq_some hit, of_decide_eq_true holds⟩

/-- The assignments that `start` makes: those of the policy stages it activates. -/
def startedWork (env : CallEnv) (db : ReviewDb) (version : ApprovalPolicyVersion)
    (activeOrdinal : Nat) : ReviewWork :=
  (version.stages.filter fun policyStage => policyStage.ordinal = activeOrdinal).foldl
    (fun work policyStage => activateAssignments env (4 + version.stages.length) db.reviewCase
      (startWorkflow env db.reviewCase version activeOrdinal) policyStage work)
    db.work

/-- What `start` leaves behind when it creates the workflow. -/
def Started (env : CallEnv) (db : ReviewDb) (policyVersionId : Uuid) (after : ReviewDb) : Prop :=
  ∃ version activeOrdinal work event audit,
    version ∈ db.policies.versions ∧ version.status = .published ∧
    version.stages.head?.map (·.ordinal) = some activeOrdinal ∧
    ((startWorkflow env db.reviewCase version activeOrdinal).stages.map (·.id)).Nodup ∧
    after = { db with
      workflow := some (startWorkflow env db.reviewCase version activeOrdinal)
      work := work
      outbox := db.outbox ++ [event]
      audit := db.audit ++ [audit] } ∧
    work = startedWork env db version activeOrdinal ∧
    policyVersion db policyVersionId db.reviewCase = .ok version

/-- A workflow is started once; after that `start` only reads. -/
theorem start_returns {env : CallEnv} {db after : ReviewDb} {reviewId policyVersionId : Uuid}
    {correlationId : String} {seen : WorkflowSnapshot}
    (returned : start env db reviewId policyVersionId correlationId = .ok (seen, after)) :
    after = db ∨ db.workflow = none ∧ Started env db policyVersionId after := by
  simp only [start, bind, Except.bind] at returned
  split at returned <;> [cases returned; rename_i reviewCase reviewed]
  split at returned <;> [cases returned; rename_i version found]
  obtain ⟨-, -, rfl⟩ := review_ok_iff.mp reviewed
  obtain ⟨listed, -, -, -, published⟩ := policyVersion_ok found
  split at returned
  · split at returned
    · cases returned
    · cases returned
      exact .inl rfl
  · rename_i fresh
    split at returned
    · cases returned
    · rename_i first rest stages
      simp only [createWorkflow, bind, Except.bind, throw, throwThe, MonadExceptOf.throw]
        at returned
      split at returned <;> [cases returned; rename_i distinct]
      split at returned <;> [cases returned; rename_i event emitted]
      cases returned
      exact .inr ⟨fresh, version, first.ordinal, _, event, _, listed, published,
        by rw [stages]; rfl, not_not.mp distinct, rfl, rfl, found⟩

/-- What `escalate_overdue` leaves behind when it marks the active stage. -/
def Escalated (db : ReviewDb) (now : Time) (after : ReviewDb) : Prop :=
  ∃ workflow stage event audit,
    db.workflow = some workflow ∧ workflow.state = .waitingForApproval ∧
    activeStage workflow = .ok stage ∧
    after = { db with
      workflow := some { workflow with
        stages := updateStage workflow.stages stage.id (escalateStage now) }
      outbox := db.outbox ++ [event]
      audit := db.audit ++ [audit] }

theorem escalateOverdue_returns {env : CallEnv} {db after : ReviewDb} {now : Time}
    {correlationId : String} {count : Nat}
    (returned : escalateOverdue env db now correlationId = .ok (count, after)) :
    after = db ∨ Escalated db now after := by
  simp only [escalateOverdue, bind, Except.bind] at returned
  split at returned
  · cases returned
    exact .inl rfl
  rename_i workflow stored
  split at returned
  · cases returned
    exact .inl rfl
  rename_i waiting
  push Not at waiting
  split at returned
  · cases returned
    exact .inl rfl
  rename_i stage active
  split at returned
  · cases returned
    exact .inl rfl
  split at returned
  · cases returned
    exact .inl rfl
  split at returned <;> [cases returned; rename_i event emitted]
  cases returned
  exact .inr ⟨workflow, stage, event, _, stored, waiting.1, activeStage_ok.mpr active, rfl⟩

theorem committed_ok {α : Type} {after : ReviewDb} {value : α}
    {result : Except ReviewWorkflowError (α × ReviewDb)} (db : ReviewDb) (returned : result = .ok (value, after)) :
    committed db result = after := by
  rw [returned]
  rfl

/-- A committed call changed nothing or is one of the three writes. -/
theorem step_cases (db : ReviewDb) (event : Event) :
    step db event = db ∨
    (∃ reviewId policyVersionId correlationId,
      event.call = .start reviewId policyVersionId correlationId ∧ db.workflow = none ∧
      Started event.env db policyVersionId (step db event)) ∨
    (∃ req admission, event.call = .decide req ∧ Admitted event.env db req admission ∧
      Recorded event.env db req admission (step db event)) ∨
    ∃ now, Escalated db now (step db event) := by
  obtain ⟨env, call⟩ := event
  cases call with
  | start reviewId policyVersionId correlationId =>
      cases returned : start env db reviewId policyVersionId correlationId with
      | error e => exact .inl (by simp only [step, returned, committed])
      | ok pair =>
          have after := committed_ok db returned
          rcases start_returns returned with same | ⟨fresh, started⟩
          · exact .inl (after.trans same)
          · exact .inr (.inl ⟨reviewId, policyVersionId, correlationId, rfl, fresh,
              by simpa only [step, after] using started⟩)
  | decide req =>
      cases returned : decide env db req with
      | error e => exact .inl (by simp only [step, returned, committed])
      | ok pair =>
          have after := committed_ok db returned
          rcases decide_returns returned with ⟨workflow, -, same⟩ | ⟨admission, admitted, recorded⟩
          · exact .inl (after.trans same)
          · exact .inr (.inr (.inl ⟨req, admission, rfl, admitted,
              by simpa only [step, after] using recorded⟩))
  | escalateOverdue now correlationId =>
      cases returned : escalateOverdue env db now correlationId with
      | error e => exact .inl (by simp only [step, returned, committed])
      | ok pair =>
          have after := committed_ok db returned
          rcases escalateOverdue_returns returned with same | escalated
          · exact .inl (after.trans same)
          · exact .inr (.inr (.inr ⟨now, by simpa only [step, after] using escalated⟩))

/-- The policy tables are only read. -/
@[simp] theorem step_policies (db : ReviewDb) (event : Event) :
    (step db event).policies = db.policies := by
  rcases step_cases db event with same |
    ⟨_, _, _, -, -, version, activeOrdinal, work, event', audit, -, -, -, -, after, -⟩ |
    ⟨req, admission, -, -, recorded⟩ | ⟨now, workflow, stage, event', audit, -, -, -, after⟩
  · rw [same]
  · rw [after]
  · obtain ⟨workflow, kept⟩ := recorded.frame
    exact kept.policies
  · rw [after]

@[simp] theorem run_policies (db : ReviewDb) (events : List Event) :
    (run step db events).policies = db.policies :=
  run_invariant (fun after => after.policies = db.policies) rfl
    fun after event same => (step_policies after event).trans same

end AgreementIntelligence.Reviews
