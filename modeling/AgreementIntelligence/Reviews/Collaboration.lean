import AgreementIntelligence.Reviews.Structure

/-! Assignments made by hand and their transfers. Both calls lock the review case, so they
follow one another, and the workflow's calls take their turns between them. Identifiers are
primary keys: a call whose new assignment would repeat one is rolled back. -/

namespace AgreementIntelligence.Reviews
open Identity ApprovalPolicies Lib.Runs

/-- The caller with the scope of the request; `mayAssign` is whether the permission to assign
reviews opens the workspace to the caller. -/
structure Caller where
  userId : Uuid
  organizationId : Uuid
  workspaceId : Uuid
  mayAssign : Bool
  deriving DecidableEq, Repr

structure CreateAssignmentRequest where
  assigneeId : Uuid
  dueAt : Option Time
  idempotencyKey : String
  deriving DecidableEq, Repr

structure ReassignAssignmentRequest extends CreateAssignmentRequest where
  expectedRevision : Nat
  deriving DecidableEq, Repr

inductive TransferKind where
  | delegate
  | reassign
  deriving DecidableEq, Repr

def TransferKind.status : TransferKind → AssignmentStatus
  | .delegate => .delegated
  | .reassign => .reassigned

def TransferKind.eventType : TransferKind → String
  | .delegate => "review.assignment.delegated"
  | .reassign => "review.assignment.reassigned"

/-- `hide_resource` answers 404, `unprocessable` is 422, and `conflict` is
`ReviewConflictError`. -/
inductive CollaborationError where
  | hidden
  | unprocessable (detail : String)
  | conflict
  | integrity
  deriving DecidableEq, Repr

def authorizeAssign (caller : Caller) : Except CollaborationError Unit :=
  if caller.mayAssign then .ok () else .error .hidden

/-- `_review`: the case in the caller's scope, unless its agreement is deletion-requested. -/
def collaborationReview (env : CallEnv) (db : ReviewDb) (caller : Caller) (reviewId : Uuid) :
    Except CollaborationError ReviewCase :=
  if db.reviewCase.id = reviewId ∧ db.reviewCase.organizationId = caller.organizationId ∧
      db.reviewCase.workspaceId = caller.workspaceId ∧ env.deletionRequested = false then
    .ok db.reviewCase
  else .error .hidden

/-- `_assignee_in_workspace`; a workspace membership belongs to the organization of its
membership. -/
def assigneeInWorkspace (env : CallEnv) (caller : Caller) (userId : Uuid) :
    Except CollaborationError Unit :=
  if (env.memberships.inWorkspace caller.organizationId caller.workspaceId).any
      (fun membership => membership.userId = userId) then .ok ()
  else .error (.unprocessable "assignee_not_in_workspace")

def assignmentByKey (work : ReviewWork) (reviewId : Uuid) (idempotencyKey : String) :
    Option ReviewAssignment :=
  work.assignments.find? fun row => row.reviewId = reviewId ∧ row.idempotencyKey = idempotencyKey

/-- The row a repeated key is answered with, when it asks for the same. -/
def replay (existing : ReviewAssignment) (request : CreateAssignmentRequest) :
    Except CollaborationError ReviewAssignment :=
  if existing.assigneeId ≠ request.assigneeId ∨ existing.dueAt ≠ request.dueAt then
    .error .conflict
  else .ok existing

def newAssignment (env : CallEnv) (caller : Caller) (review : ReviewCase)
    (request : CreateAssignmentRequest) (predecessor : Option Uuid) : ReviewAssignment where
  id := env.uuid4 0
  reviewId := review.id
  assigneeId := request.assigneeId
  assignedBy := caller.userId
  predecessorAssignmentId := predecessor
  dueAt := request.dueAt
  status := .active
  idempotencyKey := request.idempotencyKey
  createdAt := env.now
  updatedAt := env.now

/-- `_notify` -/
def assignmentNotice (env : CallEnv) (review : ReviewCase) (record : ReviewAssignment)
    (eventType : String) : ReviewNotificationEvent where
  id := env.uuid4 1
  reviewId := review.id
  recipientId := record.assigneeId
  eventType := eventType
  agreementId := review.agreementId
  stage := none
  idempotencyKey := "assignment:" ++ record.id.str
  createdAt := env.emittedAt

/-- Add the row and its notice and commit; the primary key refuses a repeated identifier. -/
def insertAssignment (work : ReviewWork) (record : ReviewAssignment)
    (notice : ReviewNotificationEvent) : Except CollaborationError ReviewWork :=
  if record.id ∈ work.assignments.map (·.id) then .error .integrity
  else .ok {
    assignments := work.assignments ++ [record]
    notifications := work.notifications ++ [notice] }

def assign (env : CallEnv) (db : ReviewDb) (caller : Caller) (reviewId : Uuid)
    (request : CreateAssignmentRequest) :
    Except CollaborationError ((ReviewAssignment × Bool) × ReviewDb) := do
  authorizeAssign caller
  let review ← collaborationReview env db caller reviewId
  assigneeInWorkspace env caller request.assigneeId
  match assignmentByKey db.work review.id request.idempotencyKey with
  | some existing => return ((← replay existing request, false), db)
  | none =>
    let record := newAssignment env caller review request none
    let work ← insertAssignment db.work record
      (assignmentNotice env review record "review.assignment.created")
    return ((record, true), { db with work := work })

/-- The guards of `transfer` up to the lookup of the request's key: the case and the assignment
that is to be handed on. -/
def transferTarget (env : CallEnv) (db : ReviewDb) (caller : Caller)
    (reviewId assignmentId : Uuid) : Except CollaborationError (ReviewCase × ReviewAssignment) := do
  authorizeAssign caller
  let review ← collaborationReview env db caller reviewId
  match db.work.assignments.find? fun row => row.id = assignmentId ∧ row.reviewId = review.id with
  | none => .error .hidden
  | some old => return (review, old)

def handOn (now : Time) (kind : TransferKind) (row : ReviewAssignment) : ReviewAssignment :=
  { row with status := kind.status, updatedAt := now }

/-- `transfer`. The case is locked, so the conditional update of its revision always hits. -/
def transfer (env : CallEnv) (db : ReviewDb) (caller : Caller) (reviewId assignmentId : Uuid)
    (request : ReassignAssignmentRequest) (kind : TransferKind) :
    Except CollaborationError ((ReviewAssignment × Bool) × ReviewDb) := do
  let (review, old) ← transferTarget env db caller reviewId assignmentId
  match assignmentByKey db.work review.id request.idempotencyKey with
  | some existing => return ((← replay existing request.toCreateAssignmentRequest, false), db)
  | none =>
    if review.revision ≠ request.expectedRevision ∨ old.status ≠ .active then .error .conflict
    else
      assigneeInWorkspace env caller request.assigneeId
      let record := newAssignment env caller review request.toCreateAssignmentRequest (some old.id)
      let work ← insertAssignment
        { db.work with
          assignments := Lib.Table.update (·.id) db.work.assignments old.id (handOn env.now kind) }
        record (assignmentNotice env review record kind.eventType)
      return ((record, true), { db with
        reviewCase := { db.reviewCase with
          revision := request.expectedRevision + 1
          updatedAt := env.now }
        work := work })

inductive ReviewCall where
  | workflow (call : Call)
  | assign (caller : Caller) (reviewId : Uuid) (request : CreateAssignmentRequest)
  | transfer (caller : Caller) (reviewId assignmentId : Uuid) (request : ReassignAssignmentRequest)
      (kind : TransferKind)
  deriving Repr

structure ReviewEvent where
  env : CallEnv
  call : ReviewCall

/-- The committed state after a call on the review. -/
def reviewStep (db : ReviewDb) (event : ReviewEvent) : ReviewDb :=
  match event.call with
  | .workflow call =>
    let after := step db ⟨event.env, call⟩
    if (after.work.assignments.map (·.id)).Nodup then after else db
  | .assign caller reviewId request =>
    match assign event.env db caller reviewId request with
    | .ok (_, after) => after
    | .error _ => db
  | .transfer caller reviewId assignmentId request kind =>
    match transfer event.env db caller reviewId assignmentId request kind with
    | .ok (_, after) => after
    | .error _ => db

end AgreementIntelligence.Reviews
