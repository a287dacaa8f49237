import AgreementIntelligence.ApprovalPolicies

/-! The rows of one review case: the case itself, the workflow that a unique constraint
allows it once with the stages it loads in ordinal order, the decisions, assignments and
notifications made under it, its outbox and its audit trail. The coordinator addresses every
other row of the database by identifiers that these rows never share, so other reviews are
outside the model. Before and after references of audit rows are not kept; nothing reads
them back. -/

namespace AgreementIntelligence.Reviews
open Identity ApprovalPolicies

inductive TerminalState where
  | approved
  | rejected
  | revisionRequested
  deriving DecidableEq, Repr

inductive WorkflowState where
  | waitingForApproval
  | terminal (outcome : TerminalState)
  deriving DecidableEq, Repr

/-- A review is opened and later takes over the terminal state of its workflow. -/
inductive ReviewState where
  | opened
  | terminal (outcome : TerminalState)
  deriving DecidableEq, Repr

inductive WorkflowAction where
  | approve
  | reject
  | requestChanges
  deriving DecidableEq, Repr

def WorkflowAction.value : WorkflowAction → String
  | .approve => "approve"
  | .reject => "reject"
  | .requestChanges => "request_changes"

inductive StageState where
  | pending
  | active
  | completed
  deriving DecidableEq, Repr

inductive AssignmentStatus where
  | active
  | completed
  | delegated
  | reassigned
  deriving DecidableEq, Repr

structure ReviewCase where
  id : Uuid
  organizationId : Uuid
  workspaceId : Uuid
  agreementId : Uuid
  agreementVersionId : Option Uuid
  state : ReviewState
  createdBy : Uuid
  revision : Nat
  updatedAt : Time
  deriving DecidableEq, Repr

structure ReviewWorkflowStage where
  id : Uuid
  workflowId : Uuid
  policyStageId : Uuid
  ordinal : Nat
  state : StageState
  deadlineAt : Option Time
  activatedAt : Option Time
  completedAt : Option Time
  escalatedAt : Option Time
  deriving DecidableEq, Repr

structure ReviewWorkflow where
  id : Uuid
  organizationId : Uuid
  workspaceId : Uuid
  reviewId : Uuid
  policyVersionId : Uuid
  checkpointId : Uuid
  state : WorkflowState
  activeStageOrdinal : Option Nat
  revision : Nat
  createdAt : Time
  updatedAt : Time
  stages : List ReviewWorkflowStage
  deriving DecidableEq, Repr

structure ReviewWorkflowDecision where
  id : Uuid
  workflowId : Uuid
  workflowStageId : Uuid
  actorId : Uuid
  action : WorkflowAction
  idempotencyKey : String
  occurredAt : Time
  deriving DecidableEq, Repr

structure ReviewAssignment where
  id : Uuid
  reviewId : Uuid
  assigneeId : Uuid
  assignedBy : Uuid
  predecessorAssignmentId : Option Uuid
  dueAt : Option Time
  status : AssignmentStatus
  idempotencyKey : String
  createdAt : Time
  updatedAt : Time
  deriving DecidableEq, Repr

structure ReviewNotificationEvent where
  id : Uuid
  reviewId : Uuid
  recipientId : Uuid
  eventType : String
  agreementId : Uuid
  stage : Option Nat
  idempotencyKey : String
  createdAt : Time
  deriving DecidableEq, Repr

structure ReviewComment where
  id : Uuid
  authorId : Uuid
  findingId : Option Uuid
  createdAt : Time
  deriving DecidableEq, Repr

structure PlaybookFinding where
  id : Uuid
  result : String
  severity : String
  citationIds : List String
  deriving DecidableEq, Repr

structure AuditEvent where
  id : Uuid
  actorId : Uuid
  action : String
  resourceType : String
  resourceId : Uuid
  outcome : String
  correlationId : String
  occurredAt : Time
  deriving DecidableEq, Repr

/-- What a terminal event carries for the package worker. -/
structure PackageSnapshot where
  organizationId : Uuid
  workspaceId : Uuid
  reviewId : Uuid
  agreementId : Uuid
  agreementVersionId : Option Uuid
  workflowId : Uuid
  policyVersionId : Uuid
  manifestKey : String
  pdfKey : String
  state : WorkflowState
  revision : Nat
  decisions : List ReviewWorkflowDecision
  stages : List ReviewWorkflowStage
  assignments : List ReviewAssignment
  comments : List ReviewComment
  findings : List PlaybookFinding
  auditEventIds : List Uuid
  workflowCorrelationId : String
  workflowEventId : Uuid
  deriving DecidableEq, Repr

structure ReviewWorkflowOutboxEvent where
  id : Uuid
  workflowId : Uuid
  eventType : String
  correlationId : String
  idempotencyKey : String
  packageSnapshot : Option PackageSnapshot
  packageManifestKey : Option String
  packagePdfKey : Option String
  deliveredAt : Option Time
  createdAt : Time
  deriving DecidableEq, Repr

/-- The rows that assignment handling touches. -/
structure ReviewWork where
  assignments : List ReviewAssignment
  notifications : List ReviewNotificationEvent
  deriving DecidableEq, Repr

structure ReviewDb where
  policies : PolicyTables
  reviewCase : ReviewCase
  workflow : Option ReviewWorkflow
  decisions : List ReviewWorkflowDecision
  work : ReviewWork
  outbox : List ReviewWorkflowOutboxEvent
  comments : List ReviewComment
  findings : List PlaybookFinding
  audit : List AuditEvent

/-- What one call reads besides the review's rows: the clock, again when the outbox row is
built, the membership graph, whether the agreement is deletion-requested, and the identifiers
that `uuid4` draws, one after another. -/
structure CallEnv where
  now : Time
  emittedAt : Time
  memberships : MembershipGraph
  deletionRequested : Bool
  uuid4 : Nat → Uuid

structure WorkflowSnapshot where
  id : Uuid
  state : WorkflowState
  activeStageOrdinal : Option Nat
  checkpointId : Uuid
  revision : Nat
  stages : List (Nat × StageState)
  pendingEvents : List String
  deriving DecidableEq, Repr

/-- `ReviewWorkflowConflictError` with the text it was raised with, or the primary key of the
stage table refusing a row. -/
inductive ReviewWorkflowError where
  | conflict (message : Option String)
  | integrity
  deriving DecidableEq, Repr

end AgreementIntelligence.Reviews
