import AgreementIntelligence.Tenancy.Scoping

/-! The review workflow coordinator statement by statement. It takes the scope of its transaction
from its callers, and the organization that it sets after a commit from the rows that it has
loaded. -/

namespace AgreementIntelligence.Tenancy
open Identity Lib.Sessions Lib.Sessions.Program ApprovalPolicies Reviews

variable {φ : Type}

/-- `_review`, which locks the case. -/
def lockedCase (reviewId : Uuid) : Transaction φ ReviewRow := do
  match ← select [.reviewCases, .agreements] fun db : Database φ => db.reviews.find? fun review =>
      review.id = reviewId ∧ keptAgreement review.agreementId db with
  | none => raise (.workflowConflict none)
  | some review => pure review

/-- `_policy_version` -/
def publishedVersion (policyVersionId : Uuid) (review : ReviewRow) :
    Transaction φ ApprovalPolicyVersion := do
  match ← select [.approvalPolicyVersions] fun db : Database φ =>
      db.policyVersions.find? fun version => version.id = policyVersionId ∧
        version.organizationId = review.organizationId ∧
        version.workspaceId = review.workspaceId ∧ version.status = .published with
  | none => raise (.workflowConflict none)
  | some version => pure version

def stagesOf (workflowId : Uuid) : Transaction φ (List ReviewWorkflowStage) :=
  select [.reviewWorkflowStages] fun db =>
    ((db.stages.map (·.row)).filter (·.workflowId = workflowId)).mergeSort
      fun one other => one.ordinal ≤ other.ordinal

def eventsOf (workflowId : Uuid) : Transaction φ (List ReviewWorkflowOutboxEvent) :=
  select [.reviewWorkflowOutbox] fun db =>
    (db.workflowOutbox.map (·.row)).filter (·.workflowId = workflowId)

/-- A workflow with its stages and events, each collection with a statement of its own. -/
def withCollections (workflow : ReviewWorkflow) :
    Transaction φ (ReviewWorkflow × List ReviewWorkflowOutboxEvent) := do
  let stages ← stagesOf workflow.id
  let events ← eventsOf workflow.id
  pure ({ workflow with stages := stages }, events)

/-- `_eligible_actor_ids` -/
def eligibleIds (workflow : ReviewWorkflow) (policyStage : ApprovalPolicyStage) :
    Transaction φ (List Uuid) := do
  if policyStage.eligibleRoleKeys.isEmpty then pure policyStage.eligibleUserIds.dedup
  else do
    let memberships ← select [.memberships, .roles, .workspaceMemberships] fun db : Database φ =>
      (⟨db.memberships, db.workspaceMemberships.map (·.row)⟩ : MembershipGraph).inWorkspace
        workflow.organizationId workflow.workspaceId
    pure (policyStage.eligibleUserIds ++ (memberships.filter fun membership =>
      membership.roleKey.value ∈ policyStage.eligibleRoleKeys).map (·.userId)).dedup

/-- The loop of `_activate_assignments`. -/
def activateEach (review : ReviewRow) (workflow : ReviewWorkflow)
    (policyStage : ApprovalPolicyStage) : List Uuid → Transaction φ Unit
  | [] => pure ()
  | assigneeId :: rest => do
    match ← select [.reviewAssignments] fun db : Database φ => db.assignments.find? fun assignment =>
        assignment.row.reviewId = review.id ∧ assignment.row.idempotencyKey =
          assigneeKey workflow.id policyStage.ordinal assigneeId with
    | some existing =>
      if existing.row.status ≠ .active then do
        add .reviewAssignments existing.organizationId
        activateEach review workflow policyStage rest
      else activateEach review workflow policyStage rest
    | none => do
      add .reviewAssignments workflow.organizationId
      add .reviewNotificationEvents workflow.organizationId
      activateEach review workflow policyStage rest

/-- `_activate_assignments` -/
def activateEligible (review : ReviewRow) (workflow : ReviewWorkflow)
    (policyStage : ApprovalPolicyStage) : Transaction φ Unit := do
  let ids ← eligibleIds workflow policyStage
  activateEach review workflow policyStage (sortedByText ids)

/-- `_terminal_package_snapshot`; the rows it reads only go into the stored snapshot. -/
def readPackageSnapshot (workflow : ReviewWorkflow) : Transaction φ Unit := do
  let _ ← lockedCase workflow.reviewId
  select [.reviewWorkflowDecisions] fun _ => ()
  select [.reviewWorkflowStages] fun _ => ()
  select [.reviewAssignments] fun _ => ()
  select [.reviewComments] fun _ => ()
  select [.auditEvents] fun _ => ()
  select [.playbookFindings, .playbookEvaluations] fun _ => ()

/-- `_emit` -/
def emitEvent (workflow : ReviewWorkflow) (eventType : String) : Transaction φ Unit := do
  flush
  if eventType = terminalEvent then do
    readPackageSnapshot workflow
    add .reviewWorkflowOutbox workflow.organizationId
  else add .reviewWorkflowOutbox workflow.organizationId

/-- The end of a call: commit, scope the next transaction and read the workflow again, as
`refresh` and `_snapshot` do. -/
def commitWorkflow (workflowId organizationId : Uuid) : Transaction φ WorkflowSnapshot := do
  commit
  setScope organizationId
  match ← select [.reviewWorkflows] fun db : Database φ =>
      db.workflows.find? (·.id = workflowId) with
  | none => fail .objectDeleted
  | some workflow => do
    let (workflow, events) ← withCollections workflow
    pure (snapshot workflow events)

/-! `start` -/

structure StartWorkflowRequest where
  reviewId : Uuid
  policyVersionId : Uuid
  correlationId : String
  deriving DecidableEq, Repr

def newWorkflow (review : ReviewRow) (version : ApprovalPolicyVersion) (activeOrdinal : Nat)
    (workflowId checkpointId : Uuid) (now : Time) : ReviewWorkflow where
  id := workflowId
  organizationId := review.organizationId
  workspaceId := review.workspaceId
  reviewId := review.id
  policyVersionId := version.id
  checkpointId := checkpointId
  state := .waitingForApproval
  activeStageOrdinal := some activeOrdinal
  revision := 0
  createdAt := now
  updatedAt := now
  stages := []

/-- The loop over the stages of the policy. -/
def addStages (review : ReviewRow) (workflow : ReviewWorkflow) :
    List ApprovalPolicyStage → Transaction φ Unit
  | [] => pure ()
  | policyStage :: rest => do
    add .reviewWorkflowStages workflow.organizationId
    if some policyStage.ordinal = workflow.activeStageOrdinal then do
      activateEligible review workflow policyStage
      addStages review workflow rest
    else addStages review workflow rest

/-- The writes of `start`. -/
def createWorkflowRows (review : ReviewRow) (workflow : ReviewWorkflow)
    (policyStages : List ApprovalPolicyStage) : Transaction φ WorkflowSnapshot := do
  add .reviewWorkflows workflow.organizationId
  flush
  addStages review workflow policyStages
  emitEvent workflow "review.workflow.resume"
  add .auditEvents workflow.organizationId
  commitWorkflow workflow.id workflow.organizationId

/-- `ReviewWorkflowCoordinator.start`, with the uuid4 keys of the workflow and its checkpoint. -/
def startWorkflowCall (request : StartWorkflowRequest) (workflowId checkpointId : Uuid)
    (now : Time) : Transaction φ WorkflowSnapshot := do
  let review ← lockedCase request.reviewId
  let version ← publishedVersion request.policyVersionId review
  match ← select [.reviewWorkflows] fun db : Database φ =>
      db.workflows.find? (·.reviewId = review.id) with
  | some existing => do
    let (existing, events) ← withCollections existing
    if existing.policyVersionId ≠ version.id then raise (.workflowConflict none)
    else pure (snapshot existing events)
  | none => do
    let policyStages ← select [.approvalPolicyStages] fun db : Database φ =>
      ((db.policyStages.map (·.row)).filter (·.policyVersionId = version.id)).mergeSort
        fun one other => one.ordinal ≤ other.ordinal
    match policyStages with
    | [] => raise (.workflowConflict none)
    | first :: rest =>
      let workflow := newWorkflow review version first.ordinal workflowId checkpointId now
      createWorkflowRows review workflow (first :: rest)

/-! `decide` -/

def policyStageOf (policyStageId : Uuid) : Transaction φ (Option ApprovalPolicyStage) :=
  select [.approvalPolicyStages] fun db =>
    (db.policyStages.map (·.row)).find? (·.id = policyStageId)

/-- `_actor_is_eligible` -/
def actorEligible (actorId : Uuid) (workflow : ReviewWorkflow)
    (policyStage : ApprovalPolicyStage) : Transaction φ Bool := do
  if actorId ∈ policyStage.eligibleUserIds then pure true
  else select [.memberships, .roles, .workspaceMemberships] fun db : Database φ =>
    ((⟨db.memberships, db.workspaceMemberships.map (·.row)⟩ : MembershipGraph).inWorkspace
      workflow.organizationId workflow.workspaceId).any fun membership =>
        membership.userId = actorId ∧ membership.roleKey.value ∈ policyStage.eligibleRoleKeys

/-- `_stage_is_satisfied`; the policy stage is the one that `decide` has loaded. -/
def stageSatisfied (workflow : ReviewWorkflow) (stage : ReviewWorkflowStage)
    (policyStage : ApprovalPolicyStage) : Transaction φ Bool := do
  let approvals ← select [.reviewWorkflowDecisions] fun db : Database φ =>
    (db.decisions.map (·.row)).filter fun decision => decision.workflowId = workflow.id ∧
      decision.workflowStageId = stage.id ∧ decision.action = .approve
  let approvers := (approvals.map (·.actorId)).dedup.length
  match policyStage.approvalMode with
  | .any => pure !approvals.isEmpty
  | .quorum => pure (quorumOrOne policyStage.quorumCount ≤ approvers)
  | .all => pure (policyStage.eligibleCount ≤ approvers)

/-- Every assignment of a query that is closed is one more row to update. -/
def closeEach : List (InWorkspace ReviewAssignment) → Transaction φ Unit
  | [] => pure ()
  | assignment :: rest => do
    add .reviewAssignments assignment.organizationId
    closeEach rest

/-- The active assignments of the review that `_complete_assignments` or `_complete_terminal`
closes. -/
def closeAssignments (workflow : ReviewWorkflow) (closes : ReviewAssignment → Bool) :
    Transaction φ Unit := do
  let active ← select [.reviewAssignments] fun db : Database φ =>
    db.assignments.filter fun assignment =>
      assignment.row.reviewId = workflow.reviewId ∧ assignment.row.status = .active
  closeEach (active.filter fun assignment => closes assignment.row)

/-- `_advance`, with the case that `decide` has loaded where the source gets it by its key. -/
def advanceStage (review : ReviewRow) (workflow : ReviewWorkflow) (stage : ReviewWorkflowStage)
    (now : Time) : Transaction φ ReviewWorkflow := do
  add .reviewWorkflowStages workflow.organizationId
  closeAssignments workflow fun assignment =>
    (stageKeyPrefix workflow.id stage.ordinal).toList.isPrefixOf assignment.idempotencyKey.toList
  let stages := updateStage workflow.stages stage.id (completeStage now)
  match stages.find? fun candidate => candidate.ordinal = stage.ordinal + 1 with
  | none => do
    add .reviewCases review.organizationId
    pure { workflow with
      stages := stages, state := .terminal .approved, activeStageOrdinal := none }
  | some nextStage => do
    add .reviewWorkflowStages workflow.organizationId
    let policyStage ← policyStageOf nextStage.policyStageId
    let advanced := { workflow with
      stages := updateStage stages nextStage.id (activateStage now policyStage)
      activeStageOrdinal := some nextStage.ordinal }
    match policyStage with
    | none => pure advanced
    | some policyStage => do
      let review ← lockedCase workflow.reviewId
      activateEligible review workflow policyStage
      pure advanced

/-- `_complete_terminal` -/
def endWorkflow (review : ReviewRow) (workflow : ReviewWorkflow) (stage : ReviewWorkflowStage)
    (outcome : TerminalState) (now : Time) : Transaction φ ReviewWorkflow := do
  add .reviewWorkflowStages workflow.organizationId
  closeAssignments workflow fun _ => true
  add .reviewCases review.organizationId
  pure { workflow with
    stages := updateStage workflow.stages stage.id (completeStage now)
    state := .terminal outcome
    activeStageOrdinal := none }

/-- The branch on the action. -/
def applyDecision (action : WorkflowAction) (review : ReviewRow) (workflow : ReviewWorkflow)
    (stage : ReviewWorkflowStage) (policyStage : ApprovalPolicyStage) (now : Time) :
    Transaction φ ReviewWorkflow := do
  match action with
  | .reject => endWorkflow review workflow stage .rejected now
  | .requestChanges => endWorkflow review workflow stage .revisionRequested now
  | .approve => do
    if ← stageSatisfied workflow stage policyStage then advanceStage review workflow stage now
    else pure workflow

/-- The checks of `decide` on the loaded rows, up to its first write. -/
def admitDecision (request : DecideRequest) (workflow : ReviewWorkflow) :
    Transaction φ (ReviewRow × ReviewWorkflowStage × ApprovalPolicyStage) := do
  match workflow.stages.find? fun stage => stage.state = .active with
  | none => raise (.workflowConflict none)
  | some stage => do
    match ← select [.approvalPolicyVersions] fun db : Database φ =>
        db.policyVersions.find? (·.id = workflow.policyVersionId) with
    | none => raise (.workflowConflict (some "policy_not_found"))
    | some version => do
      let review ← lockedCase workflow.reviewId
      if request.action = .approve ∧ version.submitterMayApprove = false ∧
          request.actorId = review.createdBy then
        raise (.workflowConflict (some "submitter_cannot_approve"))
      else do
        match ← policyStageOf stage.policyStageId with
        | none => raise (.workflowConflict (some "actor_not_eligible"))
        | some policyStage => do
          if ← actorEligible request.actorId workflow policyStage then do
            if request.action = .approve ∧ version.allowCrossStageSameApprover = false then do
              if ← select [.reviewWorkflowDecisions] fun db : Database φ =>
                  (db.decisions.map (·.row)).any fun decision =>
                    decision.workflowId = workflow.id ∧ decision.actorId = request.actorId ∧
                      decision.action = .approve ∧ decision.workflowStageId ≠ stage.id then
                raise (.workflowConflict (some "cross_stage_approver_not_allowed"))
              else pure (review, stage, policyStage)
            else pure (review, stage, policyStage)
          else raise (.workflowConflict (some "actor_not_eligible"))

/-- The writes of `decide`. -/
def recordWorkflowDecision (request : DecideRequest) (workflow : ReviewWorkflow)
    (review : ReviewRow) (stage : ReviewWorkflowStage) (policyStage : ApprovalPolicyStage)
    (now : Time) : Transaction φ WorkflowSnapshot := do
  add .reviewWorkflowDecisions workflow.organizationId
  let decided ← applyDecision request.action review workflow stage policyStage now
  add .reviewWorkflows workflow.organizationId
  add .auditEvents workflow.organizationId
  emitEvent decided
    (if decided.state = .waitingForApproval then "review.workflow.resume" else terminalEvent)
  commitWorkflow workflow.id workflow.organizationId

/-- `ReviewWorkflowCoordinator.decide` -/
def decideWorkflowCall (request : DecideRequest) (now : Time) : Transaction φ WorkflowSnapshot := do
  match ← select [.reviewWorkflows] fun db : Database φ =>
      db.workflows.find? (·.id = request.workflowId) with
  | none => raise (.workflowConflict none)
  | some workflow => do
    let (workflow, events) ← withCollections workflow
    match ← select [.reviewWorkflowDecisions] fun db : Database φ =>
        (db.decisions.map (·.row)).find? fun decision =>
          decision.workflowId = workflow.id ∧
            decision.idempotencyKey = request.idempotencyKey with
    | some existing =>
      if existing.actorId ≠ request.actorId ∨ existing.action ≠ request.action then
        raise (.workflowConflict none)
      else pure (snapshot workflow events)
    | none =>
      if workflow.revision ≠ request.expectedRevision ∨ workflow.state ≠ .waitingForApproval then
        raise (.workflowConflict none)
      else do
        let (review, stage, policyStage) ← admitDecision request workflow
        recordWorkflowDecision request workflow review stage policyStage now

/-! The routes -/

/-- `_review_for_permission` -/
def reviewForPermission (caller : TenantCaller) (reviewId : Uuid) (permission : PermissionKey) :
    Transaction φ ReviewRow := do
  authorizeCaller caller permission .hidden
  match ← select [.reviewCases, .agreements] fun db : Database φ => db.reviews.find? fun review =>
      review.id = reviewId ∧ review.organizationId = caller.organizationId ∧
        review.workspaceId = caller.workspaceId ∧ keptAgreement review.agreementId db with
  | none => raise .hidden
  | some review => pure review

/-! What the calls send -/

section Sends

variable {p : SentByApi → Prop} {organizationId : Uuid}

theorem sends_lockedCase (admits : Admits p organizationId) (reviewId : Uuid) :
    Sends p organizationId true (lockedCase reviewId : Transaction φ ReviewRow) true
      fun review => review.organizationId = organizationId := by
  have selected : Sends p organizationId true
      (select [.reviewCases, .agreements] fun db : Database φ => db.reviews.find? fun review =>
        review.id = reviewId ∧ keptAgreement review.agreementId db :
        Transaction φ (Option ReviewRow)) true
      fun found => ∀ review ∈ found, review.organizationId = organizationId := by
    refine .select (admits.read _) fun db review found => ?_
    have member : review ∈ visibleRows (some organizationId) (·.organizationId) db.reviews :=
      List.mem_of_find?_eq_some found
    have own := organizationId_of_visible member
    exact own
  refine .bind selected fun found seen => ?_
  cases found with
  | none => exact .raise
  | some review => exact .pure (seen review rfl)

theorem sends_workflow (admits : Admits p organizationId) (asked : ReviewWorkflow → Bool) :
    Sends p organizationId true
      (select [.reviewWorkflows] fun db : Database φ => db.workflows.find? asked :
        Transaction φ (Option ReviewWorkflow)) true
      fun found => ∀ workflow ∈ found, workflow.organizationId = organizationId :=
  .select (admits.read _) fun _ _ found =>
    organizationId_of_visible (List.mem_of_find?_eq_some found)

theorem sends_publishedVersion (admits : Admits p organizationId) (policyVersionId : Uuid)
    (review : ReviewRow) :
    Sends p organizationId true (publishedVersion policyVersionId review : Transaction φ _) true
      fun _ => True := by
  refine .bind (.query (admits.read _)) fun found _ => ?_
  cases found with
  | none => exact .raise
  | some version => exact .pure trivial

theorem sends_withCollections (admits : Admits p organizationId) (workflow : ReviewWorkflow) :
    Sends p organizationId true (withCollections workflow : Transaction φ _) true
      fun found => found.1.organizationId = workflow.organizationId :=
  .bind (.query (admits.read _)) fun _ _ => .bind (.query (admits.read _)) fun _ _ => .pure rfl

theorem sends_eligibleIds (admits : Admits p organizationId) (workflow : ReviewWorkflow)
    (policyStage : ApprovalPolicyStage) :
    Sends p organizationId true (eligibleIds workflow policyStage : Transaction φ _) true
      fun _ => True :=
  .ite (fun _ => .pure trivial) fun _ => .bind (.query (admits.read _)) fun _ _ => .pure trivial

/-- A round looks its key up and writes at most two rows. -/
theorem sends_activateEach (admits : Admits p organizationId) (review : ReviewRow)
    (workflow : ReviewWorkflow) (policyStage : ApprovalPolicyStage) (ids : List Uuid) :
    Sends p organizationId true (activateEach review workflow policyStage ids : Transaction φ Unit)
      true fun _ => True := by
  induction ids with
  | nil => exact .pure trivial
  | cons assigneeId rest ih =>
      refine .bind (.query (admits.read _)) fun existing _ => ?_
      cases existing with
      | some existing =>
          exact .ite (fun _ => .bind (.add fun refusal => admits.write _ refusal nofun)
            fun _ _ => ih) fun _ => ih
      | none =>
          exact .bind (.add fun refusal => admits.write _ refusal nofun) fun _ _ =>
            .bind (.add fun refusal => admits.write _ refusal nofun) fun _ _ => ih

theorem sends_activateEligible (admits : Admits p organizationId) (review : ReviewRow)
    (workflow : ReviewWorkflow) (policyStage : ApprovalPolicyStage) :
    Sends p organizationId true
      (activateEligible review workflow policyStage : Transaction φ Unit) true fun _ => True :=
  .bind (sends_eligibleIds admits workflow policyStage) fun _ _ =>
    sends_activateEach admits review workflow policyStage _

theorem sends_readPackageSnapshot (admits : Admits p organizationId) (workflow : ReviewWorkflow) :
    Sends p organizationId true (readPackageSnapshot workflow : Transaction φ Unit) true
      fun _ => True :=
  .bind (sends_lockedCase admits _) fun _ _ => .bind (.query (admits.read _)) fun _ _ =>
    .bind (.query (admits.read _)) fun _ _ => .bind (.query (admits.read _)) fun _ _ =>
      .bind (.query (admits.read _)) fun _ _ => .bind (.query (admits.read _)) fun _ _ =>
        .query (admits.read _)

theorem sends_emitEvent (admits : Admits p organizationId) (workflow : ReviewWorkflow)
    (eventType : String) :
    Sends p organizationId true (emitEvent workflow eventType : Transaction φ Unit) true
      fun _ => True :=
  .bind .flush fun _ _ => .ite
    (fun _ => .bind (sends_readPackageSnapshot admits workflow) fun _ _ =>
      .add fun refusal => admits.write _ refusal nofun)
    fun _ => .add fun refusal => admits.write _ refusal nofun

/-- After the commit the scope is that of the workflow that was loaded before. -/
theorem sends_commitWorkflow (admits : Admits p organizationId) (ends : AdmitsEnds p)
    (workflowId : Uuid) :
    Sends p organizationId true
      (commitWorkflow workflowId organizationId : Transaction φ WorkflowSnapshot) true
      fun _ => True := by
  refine .bind (.commit ends.commit ends.rollback) fun _ _ =>
    .bind (.setScope admits.scope) fun _ _ => .bind (.query (admits.read _)) fun found _ => ?_
  cases found with
  | none => exact .fail
  | some workflow => exact .bind (sends_withCollections admits workflow) fun _ _ => .pure trivial

theorem sends_addStages (admits : Admits p organizationId) (review : ReviewRow)
    (workflow : ReviewWorkflow) (policyStages : List ApprovalPolicyStage) :
    Sends p organizationId true (addStages review workflow policyStages : Transaction φ Unit) true
      fun _ => True := by
  induction policyStages with
  | nil => exact .pure trivial
  | cons policyStage rest ih =>
      exact .bind (.add fun refusal => admits.write _ refusal nofun) fun _ _ =>
        .ite (fun _ => .bind (sends_activateEligible admits review workflow policyStage)
          fun _ _ => ih) fun _ => ih

theorem sends_createWorkflowRows (admits : Admits p organizationId) (ends : AdmitsEnds p)
    (review : ReviewRow) (workflow : ReviewWorkflow) (policyStages : List ApprovalPolicyStage)
    (own : workflow.organizationId = organizationId) :
    Sends p organizationId true
      (createWorkflowRows review workflow policyStages : Transaction φ WorkflowSnapshot) true
      fun _ => True := by
  rw [createWorkflowRows, own]
  exact .bind (.add fun refusal => admits.write _ refusal nofun) fun _ _ => .bind .flush fun _ _ =>
    .bind (sends_addStages admits review workflow policyStages) fun _ _ =>
      .bind (sends_emitEvent admits workflow _) fun _ _ =>
        .bind (.add fun refusal => admits.write _ refusal nofun) fun _ _ =>
          sends_commitWorkflow admits ends workflow.id

theorem sends_startWorkflowCall (admits : Admits p organizationId) (ends : AdmitsEnds p)
    (request : StartWorkflowRequest) (workflowId checkpointId : Uuid) (now : Time) :
    Sends p organizationId true
      (startWorkflowCall request workflowId checkpointId now : Transaction φ _) true
      fun _ => True := by
  refine .bind (sends_lockedCase admits _) fun review own =>
    .bind (sends_publishedVersion admits _ review) fun version _ =>
      .bind (sends_workflow admits _) fun existing _ => ?_
  cases existing with
  | some existing =>
      exact .bind (sends_withCollections admits existing) fun _ _ =>
        .ite (fun _ => .raise) fun _ => .pure trivial
  | none =>
      refine .bind (.query (admits.read _)) fun policyStages _ => ?_
      cases policyStages with
      | nil => exact .raise
      | cons first rest => exact sends_createWorkflowRows admits ends review _ _ own

theorem sends_actorEligible (admits : Admits p organizationId) (actorId : Uuid)
    (workflow : ReviewWorkflow) (policyStage : ApprovalPolicyStage) :
    Sends p organizationId true (actorEligible actorId workflow policyStage : Transaction φ Bool)
      true fun _ => True :=
  .ite (fun _ => .pure trivial) fun _ => .query (admits.read _)

theorem sends_stageSatisfied (admits : Admits p organizationId) (workflow : ReviewWorkflow)
    (stage : ReviewWorkflowStage) (policyStage : ApprovalPolicyStage) :
    Sends p organizationId true (stageSatisfied workflow stage policyStage : Transaction φ Bool)
      true fun _ => True := by
  refine .bind (.query (admits.read _)) fun approvals _ => ?_
  split <;> exact .pure trivial

theorem sends_closeEach (admits : Admits p organizationId)
    (assignments : List (InWorkspace ReviewAssignment)) :
    Sends p organizationId true (closeEach assignments : Transaction φ Unit) true
      fun _ => True := by
  induction assignments with
  | nil => exact .pure trivial
  | cons assignment rest ih =>
      exact .bind (.add fun refusal => admits.write _ refusal nofun) fun _ _ => ih

theorem sends_closeAssignments (admits : Admits p organizationId) (workflow : ReviewWorkflow)
    (closes : ReviewAssignment → Bool) :
    Sends p organizationId true (closeAssignments workflow closes : Transaction φ Unit) true
      fun _ => True :=
  .bind (.query (admits.read _)) fun _ _ => sends_closeEach admits _

theorem sends_advanceStage (admits : Admits p organizationId) (review : ReviewRow)
    (workflow : ReviewWorkflow) (stage : ReviewWorkflowStage) (now : Time) :
    Sends p organizationId true (advanceStage review workflow stage now : Transaction φ _) true
      fun _ => True := by
  refine .bind (.add fun refusal => admits.write _ refusal nofun) fun _ _ =>
    .bind (sends_closeAssignments admits workflow _) fun _ _ => ?_
  dsimp only
  split
  · exact .bind (.add fun refusal => admits.write _ refusal nofun) fun _ _ => .pure trivial
  · refine .bind (.add fun refusal => admits.write _ refusal nofun) fun _ _ =>
      .bind (.query (admits.read _)) fun policyStage _ => ?_
    cases policyStage with
    | none => exact .pure trivial
    | some policyStage =>
        exact .bind (sends_lockedCase admits _) fun review _ =>
          .bind (sends_activateEligible admits review workflow policyStage) fun _ _ =>
            .pure trivial

theorem sends_endWorkflow (admits : Admits p organizationId) (review : ReviewRow)
    (workflow : ReviewWorkflow) (stage : ReviewWorkflowStage) (outcome : TerminalState)
    (now : Time) :
    Sends p organizationId true (endWorkflow review workflow stage outcome now : Transaction φ _)
      true fun _ => True :=
  .bind (.add fun refusal => admits.write _ refusal nofun) fun _ _ =>
    .bind (sends_closeAssignments admits workflow _) fun _ _ =>
      .bind (.add fun refusal => admits.write _ refusal nofun) fun _ _ => .pure trivial

theorem sends_applyDecision (admits : Admits p organizationId) (action : WorkflowAction)
    (review : ReviewRow) (workflow : ReviewWorkflow) (stage : ReviewWorkflowStage)
    (policyStage : ApprovalPolicyStage) (now : Time) :
    Sends p organizationId true
      (applyDecision action review workflow stage policyStage now : Transaction φ _) true
      fun _ => True := by
  cases action with
  | reject => exact sends_endWorkflow admits review workflow stage _ now
  | requestChanges => exact sends_endWorkflow admits review workflow stage _ now
  | approve =>
      exact .bind (sends_stageSatisfied admits workflow stage policyStage) fun _ _ =>
        .ite (fun _ => sends_advanceStage admits review workflow stage now) fun _ => .pure trivial

theorem sends_admitDecision (admits : Admits p organizationId) (request : DecideRequest)
    (workflow : ReviewWorkflow) :
    Sends p organizationId true (admitDecision request workflow : Transaction φ _) true
      fun _ => True := by
  unfold admitDecision
  split
  · exact .raise
  · refine .bind (.query (admits.read _)) fun version _ => ?_
    cases version with
    | none => exact .raise
    | some version =>
        refine .bind (sends_lockedCase admits _) fun review _ => .ite (fun _ => .raise) fun _ =>
          .bind (.query (admits.read _)) fun policyStage _ => ?_
        cases policyStage with
        | none => exact .raise
        | some policyStage =>
            refine .bind (sends_actorEligible admits _ workflow policyStage) fun _ _ =>
              .ite (fun _ => .ite (fun _ => ?_) fun _ => .pure trivial) fun _ => .raise
            exact .bind (.query (admits.read _)) fun _ _ =>
              .ite (fun _ => .raise) fun _ => .pure trivial

theorem sends_recordWorkflowDecision (admits : Admits p organizationId) (ends : AdmitsEnds p)
    (request : DecideRequest) (workflow : ReviewWorkflow) (review : ReviewRow)
    (stage : ReviewWorkflowStage) (policyStage : ApprovalPolicyStage) (now : Time)
    (own : workflow.organizationId = organizationId) :
    Sends p organizationId true
      (recordWorkflowDecision request workflow review stage policyStage now : Transaction φ _) true
      fun _ => True := by
  rw [recordWorkflowDecision, own]
  exact .bind (.add fun refusal => admits.write _ refusal nofun) fun _ _ =>
    .bind (sends_applyDecision admits _ review workflow stage policyStage now) fun decided _ =>
      .bind (.add fun refusal => admits.write _ refusal nofun) fun _ _ =>
        .bind (.add fun refusal => admits.write _ refusal nofun) fun _ _ =>
          .bind (sends_emitEvent admits decided _) fun _ _ =>
            sends_commitWorkflow admits ends workflow.id

theorem sends_decideWorkflowCall (admits : Admits p organizationId) (ends : AdmitsEnds p)
    (request : DecideRequest) (now : Time) :
    Sends p organizationId true (decideWorkflowCall request now : Transaction φ _) true
      fun _ => True := by
  refine .bind (sends_workflow admits _) fun found seen => ?_
  cases found with
  | none => exact .raise
  | some workflow =>
      refine .bind (sends_withCollections admits workflow) fun loaded same =>
        .bind (.query (admits.read _)) fun existing _ => ?_
      have own : loaded.1.organizationId = organizationId := same.trans (seen workflow rfl)
      cases existing with
      | some existing => exact .ite (fun _ => .raise) fun _ => .pure trivial
      | none =>
          exact .ite (fun _ => .raise) fun _ => .bind (sends_admitDecision admits request loaded.1)
            fun _ _ => sends_recordWorkflowDecision admits ends request loaded.1 _ _ _ now own

end Sends

end AgreementIntelligence.Tenancy
