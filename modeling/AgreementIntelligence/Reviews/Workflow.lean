import AgreementIntelligence.Reviews.Models

/-! The review workflow coordinator. A call is one transaction: it returns the state it
commits, or it raises and its session is rolled back. The row lock on the workflow makes
decisions on it follow one another, so calls are functions from state to state. -/

namespace AgreementIntelligence.Reviews
open Identity ApprovalPolicies

/-- Raise `ReviewWorkflowConflictError`. -/
def conflict {α : Type} (message : Option String := none) : Except ReviewWorkflowError α :=
  .error (.conflict message)

def snapshot (workflow : ReviewWorkflow) (outbox : List ReviewWorkflowOutboxEvent) :
    WorkflowSnapshot where
  id := workflow.id
  state := workflow.state
  activeStageOrdinal := workflow.activeStageOrdinal
  checkpointId := workflow.checkpointId
  revision := workflow.revision
  stages := workflow.stages.map fun stage => (stage.ordinal, stage.state)
  pendingEvents := ((outbox.filter fun event =>
    event.workflowId = workflow.id ∧ event.deliveredAt = none).insertionSort
      fun a b => a.createdAt ≤ b.createdAt).map (·.eventType)

/-- `_review`: the case, unless its agreement is deletion-requested. -/
def review (env : CallEnv) (db : ReviewDb) (reviewId : Uuid) :
    Except ReviewWorkflowError ReviewCase :=
  if db.reviewCase.id = reviewId ∧ env.deletionRequested = false then .ok db.reviewCase
  else conflict

def policyVersion (db : ReviewDb) (policyVersionId : Uuid) (reviewCase : ReviewCase) :
    Except ReviewWorkflowError ApprovalPolicyVersion :=
  match db.policies.versions.find? fun version =>
      version.id = policyVersionId ∧ version.organizationId = reviewCase.organizationId ∧
        version.workspaceId = reviewCase.workspaceId ∧ version.status = .published with
  | none => conflict
  | some version => .ok version

def activeStage (workflow : ReviewWorkflow) : Except ReviewWorkflowError ReviewWorkflowStage :=
  match workflow.stages.find? fun stage => stage.state = .active with
  | none => conflict
  | some stage => .ok stage

def stageApprovals (db : ReviewDb) (workflow : ReviewWorkflow) (stage : ReviewWorkflowStage) :
    List ReviewWorkflowDecision :=
  db.decisions.filter fun decision =>
    decision.workflowId = workflow.id ∧ decision.workflowStageId = stage.id ∧
      decision.action = .approve

/-- `quorum_count or 1` -/
def quorumOrOne : Option Nat → Nat
  | some (n + 1) => n + 1
  | _ => 1

def stageIsSatisfied (db : ReviewDb) (workflow : ReviewWorkflow) (stage : ReviewWorkflowStage) :
    Except ReviewWorkflowError Bool :=
  match db.policies.stage? stage.policyStageId with
  | none => conflict
  | some policyStage =>
    let approvals := stageApprovals db workflow stage
    let approvers := (approvals.map (·.actorId)).dedup.length
    match policyStage.approvalMode with
    | .any => .ok !approvals.isEmpty
    | .quorum => .ok (quorumOrOne policyStage.quorumCount ≤ approvers)
    | .all => .ok (policyStage.eligibleCount ≤ approvers)

def actorIsEligible (graph : MembershipGraph) (actorId : Uuid) (workflow : ReviewWorkflow)
    (policyStage : ApprovalPolicyStage) : Bool :=
  actorId ∈ policyStage.eligibleUserIds ||
    (graph.inWorkspace workflow.organizationId workflow.workspaceId).any fun membership =>
      membership.userId = actorId && membership.roleKey.value ∈ policyStage.eligibleRoleKeys

def eligibleActorIds (graph : MembershipGraph) (workflow : ReviewWorkflow)
    (policyStage : ApprovalPolicyStage) : List Uuid :=
  (policyStage.eligibleUserIds ++
    ((graph.inWorkspace workflow.organizationId workflow.workspaceId).filter fun membership =>
      membership.roleKey.value ∈ policyStage.eligibleRoleKeys).map (·.userId)).dedup

def stageKeyPrefix (workflowId : Uuid) (ordinal : Nat) : String :=
  "workflow:" ++ workflowId.str ++ ":stage:" ++ toString ordinal ++ ":"

def assigneeKey (workflowId : Uuid) (ordinal : Nat) (assigneeId : Uuid) : String :=
  stageKeyPrefix workflowId ordinal ++ "assignee:" ++ assigneeId.str

/-- One turn of the loop of `_activate_assignments`; `assignmentId` and `notificationId` are
the identifiers drawn in it. -/
def activateAssignment (now : Time) (reviewCase : ReviewCase) (workflow : ReviewWorkflow)
    (policyStage : ApprovalPolicyStage) (assignmentId notificationId : Uuid)
    (work : ReviewWork) (assigneeId : Uuid) : ReviewWork :=
  let key := assigneeKey workflow.id policyStage.ordinal assigneeId
  if work.assignments.any fun row => row.reviewId = reviewCase.id && row.idempotencyKey = key then
    { work with
      assignments := work.assignments.map fun row =>
        if row.reviewId = reviewCase.id ∧ row.idempotencyKey = key ∧ row.status ≠ .active then
          { row with status := .active }
        else row }
  else
    { assignments := work.assignments ++
        [{ id := assignmentId
           reviewId := reviewCase.id
           assigneeId := assigneeId
           assignedBy := reviewCase.createdBy
           predecessorAssignmentId := none
           dueAt := policyStage.deadlineHours.map fun n => now + hours n
           status := .active
           idempotencyKey := key
           createdAt := now
           updatedAt := now }]
      notifications := work.notifications ++
        [{ id := notificationId
           reviewId := reviewCase.id
           recipientId := assigneeId
           eventType := "review.assignment.created"
           agreementId := reviewCase.agreementId
           stage := some policyStage.ordinal
           idempotencyKey := "notification:" ++ key
           createdAt := now }] }

/-- `_activate_assignments`; the identifiers from `firstId` on are its own. -/
def activateAssignments (env : CallEnv) (firstId : Nat) (reviewCase : ReviewCase)
    (workflow : ReviewWorkflow) (policyStage : ApprovalPolicyStage) (work : ReviewWork) :
    ReviewWork :=
  (sortedByText (eligibleActorIds env.memberships workflow policyStage)).zipIdx.foldl
    (fun work entry =>
      activateAssignment env.now reviewCase workflow policyStage
        (env.uuid4 (firstId + 2 * entry.2)) (env.uuid4 (firstId + 2 * entry.2 + 1)) work entry.1)
    work

/-- `_complete_assignments`: the active assignments whose key has the stage's prefix. -/
def completeAssignments (workflow : ReviewWorkflow) (stage : ReviewWorkflowStage)
    (work : ReviewWork) : ReviewWork :=
  { work with
    assignments := work.assignments.map fun row =>
      if row.reviewId = workflow.reviewId ∧ row.status = .active ∧
          (stageKeyPrefix workflow.id stage.ordinal).toList.isPrefixOf row.idempotencyKey.toList then
        { row with status := .completed }
      else row }

def synchronizeReviewState (db : ReviewDb) (workflow : ReviewWorkflow) (outcome : TerminalState)
    (now : Time) : Except ReviewWorkflowError ReviewDb :=
  if db.reviewCase.id = workflow.reviewId then
    .ok { db with reviewCase := { db.reviewCase with state := .terminal outcome, updatedAt := now } }
  else conflict (some "review_not_found")

/-- Change the loaded stage row that an object stands for. -/
def updateStage (stages : List ReviewWorkflowStage) (id : Uuid)
    (change : ReviewWorkflowStage → ReviewWorkflowStage) : List ReviewWorkflowStage :=
  Lib.Table.update (·.id) stages id change

def completeStage (now : Time) (stage : ReviewWorkflowStage) : ReviewWorkflowStage :=
  { stage with state := .completed, completedAt := some now }

/-- The deadline is set when the policy stage has one and is left alone otherwise. -/
def activateStage (now : Time) (policyStage : Option ApprovalPolicyStage)
    (stage : ReviewWorkflowStage) : ReviewWorkflowStage :=
  { stage with
    state := .active
    activatedAt := some now
    deadlineAt := match policyStage.bind (·.deadlineHours) with
      | some n => some (now + hours n)
      | none => stage.deadlineAt }

def escalateStage (now : Time) (stage : ReviewWorkflowStage) : ReviewWorkflowStage :=
  { stage with escalatedAt := some now }

def advance (env : CallEnv) (db : ReviewDb) (workflow : ReviewWorkflow)
    (stage : ReviewWorkflowStage) : Except ReviewWorkflowError (ReviewWorkflow × ReviewDb) := do
  let stages := updateStage workflow.stages stage.id (completeStage env.now)
  let db := { db with work := completeAssignments workflow stage db.work }
  match stages.find? fun candidate => candidate.ordinal = stage.ordinal + 1 with
  | none =>
    let db ← synchronizeReviewState db workflow .approved env.now
    return ({ workflow with
      stages := stages, state := .terminal .approved, activeStageOrdinal := none }, db)
  | some nextStage =>
    let workflow := { workflow with
      stages := updateStage stages nextStage.id
        (activateStage env.now (db.policies.stage? nextStage.policyStageId))
      activeStageOrdinal := some nextStage.ordinal }
    match db.policies.stage? nextStage.policyStageId with
    | none => return (workflow, db)
    | some policyStage =>
      let reviewCase ← review env db workflow.reviewId
      return (workflow, { db with
        work := activateAssignments env 3 reviewCase workflow policyStage db.work })

/-- `_complete_terminal` also closes every assignment of the review that is still active. -/
def completeTerminal (env : CallEnv) (db : ReviewDb) (workflow : ReviewWorkflow)
    (stage : ReviewWorkflowStage) (outcome : TerminalState) :
    Except ReviewWorkflowError (ReviewWorkflow × ReviewDb) := do
  let work := { db.work with
    assignments := db.work.assignments.map fun row =>
      if row.reviewId = workflow.reviewId ∧ row.status = .active then
        { row with status := .completed }
      else row }
  let db ← synchronizeReviewState { db with work := work } workflow outcome env.now
  return ({ workflow with
    stages := updateStage workflow.stages stage.id (completeStage env.now)
    state := .terminal outcome
    activeStageOrdinal := none }, db)

def packageBase (workflow : ReviewWorkflow) (reviewId : Uuid) : String :=
  "reviews/" ++ workflow.organizationId.str ++ "/" ++ workflow.workspaceId.str ++ "/" ++
    reviewId.str ++ "/final-package"

/-- Rows in the order of a time and then of the identifier. -/
def orderedBy {α : Type} (time : α → Time) (id : α → Uuid) (rows : List α) : List α :=
  rows.insertionSort fun a b =>
    time a < time b ∨ (time a = time b ∧ (id a).bits.toNat ≤ (id b).bits.toNat)

def terminalPackageSnapshot (env : CallEnv) (db : ReviewDb) (workflow : ReviewWorkflow)
    (eventId : Uuid) (correlationId : String) : Except ReviewWorkflowError PackageSnapshot := do
  let reviewCase ← review env db workflow.reviewId
  return {
    organizationId := workflow.organizationId
    workspaceId := workflow.workspaceId
    reviewId := reviewCase.id
    agreementId := reviewCase.agreementId
    agreementVersionId := reviewCase.agreementVersionId
    workflowId := workflow.id
    policyVersionId := workflow.policyVersionId
    manifestKey := packageBase workflow reviewCase.id ++ "/manifest.json"
    pdfKey := packageBase workflow reviewCase.id ++ "/report.pdf"
    state := workflow.state
    revision := workflow.revision
    decisions := orderedBy (·.occurredAt) (·.id)
      (db.decisions.filter fun decision => decision.workflowId = workflow.id)
    stages := workflow.stages
    assignments := orderedBy (·.createdAt) (·.id)
      (db.work.assignments.filter fun row => row.reviewId = reviewCase.id)
    comments := orderedBy (·.createdAt) (·.id) db.comments
    findings := orderedBy (fun _ => 0) (·.id) db.findings
    auditEventIds := (orderedBy (·.occurredAt) (·.id)
      (db.audit.filter fun event => event.resourceId = reviewCase.id)).map (·.id)
    workflowCorrelationId := correlationId
    workflowEventId := eventId }

def terminalEvent : String := "review.workflow.terminal"

/-- `_emit`: the outbox row, with the package snapshot and keys when the event is terminal. -/
def emit (env : CallEnv) (db : ReviewDb) (workflow : ReviewWorkflow) (eventId : Uuid)
    (eventType correlationId idempotencyKey : String) :
    Except ReviewWorkflowError ReviewWorkflowOutboxEvent := do
  let row : ReviewWorkflowOutboxEvent := {
    id := eventId
    workflowId := workflow.id
    eventType := eventType
    correlationId := correlationId
    idempotencyKey := idempotencyKey
    packageSnapshot := none
    packageManifestKey := none
    packagePdfKey := none
    deliveredAt := none
    createdAt := env.emittedAt }
  if eventType = terminalEvent then
    let package ← terminalPackageSnapshot env db workflow eventId correlationId
    return { row with
      packageSnapshot := some package
      packageManifestKey := some (packageBase workflow workflow.reviewId ++ "/manifest.json")
      packagePdfKey := some (packageBase workflow workflow.reviewId ++ "/report.pdf") }
  else return row

def startStage (env : CallEnv) (workflowId : Uuid) (activeOrdinal : Nat)
    (policyStage : ApprovalPolicyStage) (index : Nat) : ReviewWorkflowStage :=
  let activated := policyStage.ordinal = activeOrdinal
  { id := env.uuid4 (4 + index)
    workflowId := workflowId
    policyStageId := policyStage.id
    ordinal := policyStage.ordinal
    state := if activated then .active else .pending
    deadlineAt := if activated then policyStage.deadlineHours.map fun n => env.now + hours n
      else none
    activatedAt := if activated then some env.now else none
    completedAt := none
    escalatedAt := none }

def startWorkflow (env : CallEnv) (reviewCase : ReviewCase) (version : ApprovalPolicyVersion)
    (activeOrdinal : Nat) : ReviewWorkflow where
  id := env.uuid4 0
  organizationId := reviewCase.organizationId
  workspaceId := reviewCase.workspaceId
  reviewId := reviewCase.id
  policyVersionId := version.id
  checkpointId := env.uuid4 1
  state := .waitingForApproval
  activeStageOrdinal := some activeOrdinal
  revision := 0
  createdAt := env.now
  updatedAt := env.now
  stages := version.stages.zipIdx.map fun entry =>
    startStage env (env.uuid4 0) activeOrdinal entry.1 entry.2

/-- The writes of `start`: the workflow, its stages and the assignments of the first one. -/
def createWorkflow (env : CallEnv) (db : ReviewDb) (reviewCase : ReviewCase)
    (version : ApprovalPolicyVersion) (activeOrdinal : Nat) (correlationId : String) :
    Except ReviewWorkflowError (WorkflowSnapshot × ReviewDb) := do
  let workflow := startWorkflow env reviewCase version activeOrdinal
  if ¬ (workflow.stages.map (·.id)).Nodup then throw .integrity
  let activated := version.stages.filter fun policyStage => policyStage.ordinal = activeOrdinal
  let work := activated.foldl (fun work policyStage =>
    activateAssignments env (4 + version.stages.length) reviewCase workflow policyStage work)
    db.work
  let db := { db with workflow := some workflow, work := work }
  let event ← emit env db workflow (env.uuid4 2) "review.workflow.resume" correlationId
    ("workflow:" ++ workflow.id.str ++ ":start")
  let audit : AuditEvent := {
    id := env.uuid4 3
    actorId := reviewCase.createdBy
    action := "review_workflow_started"
    resourceType := "review_workflow"
    resourceId := workflow.id
    outcome := "accepted"
    correlationId := correlationId
    occurredAt := env.now }
  let db := { db with outbox := db.outbox ++ [event], audit := db.audit ++ [audit] }
  return (snapshot workflow db.outbox, db)

def start (env : CallEnv) (db : ReviewDb) (reviewId policyVersionId : Uuid)
    (correlationId : String) : Except ReviewWorkflowError (WorkflowSnapshot × ReviewDb) := do
  let reviewCase ← review env db reviewId
  let version ← policyVersion db policyVersionId reviewCase
  match db.workflow with
  | some existing =>
    if existing.policyVersionId ≠ version.id then conflict
    else return (snapshot existing db.outbox, db)
  | none =>
    match version.stages with
    | [] => conflict
    | first :: _ => createWorkflow env db reviewCase version first.ordinal correlationId

structure DecideRequest where
  workflowId : Uuid
  actorId : Uuid
  action : WorkflowAction
  idempotencyKey : String
  expectedRevision : Nat
  correlationId : String
  deriving DecidableEq, Repr

/-- What the guards of `decide` have loaded when they let a decision pass. -/
structure Admission where
  workflow : ReviewWorkflow
  stage : ReviewWorkflowStage
  policyVersion : ApprovalPolicyVersion
  reviewCase : ReviewCase
  policyStage : ApprovalPolicyStage

/-- A recorded key is answered from the record; anything else that is let through is new. -/
inductive Guarded where
  | replay (workflow : ReviewWorkflow)
  | fresh (admission : Admission)

def ReviewDb.workflow? (db : ReviewDb) (id : Uuid) : Option ReviewWorkflow :=
  db.workflow.filter fun workflow => workflow.id = id

def ReviewDb.decision? (db : ReviewDb) (workflow : ReviewWorkflow) (idempotencyKey : String) :
    Option ReviewWorkflowDecision :=
  db.decisions.find? fun decision =>
    decision.workflowId = workflow.id ∧ decision.idempotencyKey = idempotencyKey

def hasPriorApproval (db : ReviewDb) (workflow : ReviewWorkflow) (stage : ReviewWorkflowStage)
    (actorId : Uuid) : Bool :=
  db.decisions.any fun decision =>
    decision.workflowId = workflow.id && decision.actorId = actorId &&
      decision.action = .approve && decision.workflowStageId ≠ stage.id

/-- Everything `decide` checks before its first write, in its order. -/
def decideGuards (env : CallEnv) (db : ReviewDb) (req : DecideRequest) :
    Except ReviewWorkflowError Guarded :=
  match db.workflow? req.workflowId with
  | none => conflict
  | some workflow =>
  match db.decision? workflow req.idempotencyKey with
  | some existing =>
    if existing.actorId ≠ req.actorId ∨ existing.action ≠ req.action then conflict
    else .ok (.replay workflow)
  | none =>
  if workflow.revision ≠ req.expectedRevision ∨ workflow.state ≠ .waitingForApproval then conflict
  else do
    let stage ← activeStage workflow
    match db.policies.version? workflow.policyVersionId with
    | none => conflict (some "policy_not_found")
    | some policyVersion =>
    let reviewCase ← review env db workflow.reviewId
    if req.action = .approve ∧ policyVersion.submitterMayApprove = false ∧
        req.actorId = reviewCase.createdBy then
      conflict (some "submitter_cannot_approve")
    else
    match db.policies.stage? stage.policyStageId with
    | none => conflict (some "actor_not_eligible")
    | some policyStage =>
    if actorIsEligible env.memberships req.actorId workflow policyStage = false then
      conflict (some "actor_not_eligible")
    else if req.action = .approve ∧ policyVersion.allowCrossStageSameApprover = false ∧
        hasPriorApproval db workflow stage req.actorId = true then
      conflict (some "cross_stage_approver_not_allowed")
    else .ok (.fresh ⟨workflow, stage, policyVersion, reviewCase, policyStage⟩)

def decisionRow (env : CallEnv) (req : DecideRequest) (admission : Admission) :
    ReviewWorkflowDecision where
  id := env.uuid4 0
  workflowId := admission.workflow.id
  workflowStageId := admission.stage.id
  actorId := req.actorId
  action := req.action
  idempotencyKey := req.idempotencyKey
  occurredAt := env.now

/-- The branch on the action, run after the decision row has been added. -/
def applyAction (env : CallEnv) (db : ReviewDb) (action : WorkflowAction)
    (workflow : ReviewWorkflow) (stage : ReviewWorkflowStage) :
    Except ReviewWorkflowError (ReviewWorkflow × ReviewDb) :=
  match action with
  | .reject => completeTerminal env db workflow stage .rejected
  | .requestChanges => completeTerminal env db workflow stage .revisionRequested
  | .approve => do
    if ← stageIsSatisfied db workflow stage then advance env db workflow stage
    else return (workflow, db)

/-- The writes of `decide`. -/
def recordDecision (env : CallEnv) (db : ReviewDb) (req : DecideRequest) (admission : Admission) :
    Except ReviewWorkflowError (WorkflowSnapshot × ReviewDb) := do
  let db := { db with decisions := db.decisions ++ [decisionRow env req admission] }
  let (workflow, db) ← applyAction env db req.action admission.workflow admission.stage
  let workflow := { workflow with revision := workflow.revision + 1, updatedAt := env.now }
  let audit : AuditEvent := {
    id := env.uuid4 1
    actorId := req.actorId
    action := "review_workflow_" ++ req.action.value
    resourceType := "review_workflow"
    resourceId := workflow.id
    outcome := "accepted"
    correlationId := req.correlationId
    occurredAt := env.now }
  let db := { db with workflow := some workflow, audit := db.audit ++ [audit] }
  let event ← emit env db workflow (env.uuid4 2)
    (if workflow.state = .waitingForApproval then "review.workflow.resume" else terminalEvent)
    req.correlationId
    ("workflow:" ++ workflow.id.str ++ ":decision:" ++ req.idempotencyKey)
  let db := { db with outbox := db.outbox ++ [event] }
  return (snapshot workflow db.outbox, db)

def decide (env : CallEnv) (db : ReviewDb) (req : DecideRequest) :
    Except ReviewWorkflowError (WorkflowSnapshot × ReviewDb) := do
  match ← decideGuards env db req with
  | .replay workflow => return (snapshot workflow db.outbox, db)
  | .fresh admission => recordDecision env db req admission

/-- `escalate_overdue` for this review: how many stages it marked, and the state. The waiting
workflows are read without a lock, and nothing is committed when nothing was overdue. -/
def escalateOverdue (env : CallEnv) (db : ReviewDb) (now : Time) (correlationId : String) :
    Except ReviewWorkflowError (Nat × ReviewDb) :=
  match db.workflow with
  | none => .ok (0, db)
  | some workflow =>
  if workflow.state ≠ .waitingForApproval ∨ env.deletionRequested = true then .ok (0, db)
  else
  match workflow.stages.find? fun stage => stage.state = .active with
  | none => .ok (0, db)
  | some stage =>
  match stage.deadlineAt with
  | none => .ok (0, db)
  | some deadline =>
  if now < deadline ∨ stage.escalatedAt ≠ none then .ok (0, db)
  else do
    let workflow := { workflow with
      stages := updateStage workflow.stages stage.id (escalateStage now) }
    let db := { db with workflow := some workflow }
    let event ← emit env db workflow (env.uuid4 0) "review.workflow.escalate" correlationId
      (stageKeyPrefix workflow.id stage.ordinal ++ "escalation")
    let audit : AuditEvent := {
      id := env.uuid4 1
      actorId := db.reviewCase.createdBy
      action := "review_workflow_escalated"
      resourceType := "review_workflow_stage"
      resourceId := stage.id
      outcome := "accepted"
      correlationId := correlationId
      occurredAt := now }
    return (1, { db with outbox := db.outbox ++ [event], audit := db.audit ++ [audit] })

inductive Call where
  | start (reviewId policyVersionId : Uuid) (correlationId : String)
  | decide (req : DecideRequest)
  | escalateOverdue (now : Time) (correlationId : String)
  deriving Repr

/-- One call with what it reads from its surroundings. -/
structure Event where
  env : CallEnv
  call : Call

/-- The committed state after a transaction: what it returns, or the old state when it raises. -/
def committed {α : Type} (db : ReviewDb) (result : Except ReviewWorkflowError (α × ReviewDb)) :
    ReviewDb :=
  match result with
  | .ok (_, after) => after
  | .error _ => db

def step (db : ReviewDb) (event : Event) : ReviewDb :=
  match event.call with
  | .start reviewId policyVersionId correlationId =>
    committed db (start event.env db reviewId policyVersionId correlationId)
  | .decide req => committed db (decide event.env db req)
  | .escalateOverdue now correlationId =>
    committed db (escalateOverdue event.env db now correlationId)

end AgreementIntelligence.Reviews
