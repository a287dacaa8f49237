import AgreementIntelligence.Tenancy.Scoping

/-! The collaboration service of reviews statement by statement: opening a case, assigning it,
handing an assignment on and commenting. -/

namespace AgreementIntelligence.Tenancy
open Identity Lib.Json Lib.Text Lib.Sessions Lib.Sessions.Program Agreements Reviews

variable {φ : Type}

/-- `_review`; the case is locked. -/
def caseInTenant (caller : TenantCaller) (reviewId : Uuid) : Transaction φ ReviewRow := do
  match ← select [.reviewCases, .agreements] fun db : Database φ => db.reviews.find? fun review =>
      review.id = reviewId ∧ review.organizationId = caller.organizationId ∧
        review.workspaceId = caller.workspaceId ∧ keptAgreement review.agreementId db with
  | none => raise .hidden
  | some review => pure review

/-- `_version` -/
def versionInTenant (caller : TenantCaller) (versionId : Option Uuid) (agreementId : Uuid) :
    Transaction φ Unit := do
  match versionId with
  | none => pure ()
  | some versionId => do
    match ← select [.agreementVersions] fun db : Database φ => db.versions.find? fun version =>
        version.id = versionId ∧ version.agreementId = agreementId ∧
          version.organizationId = caller.organizationId ∧
          version.workspaceId = caller.workspaceId with
    | none => raise .hidden
    | some _ => pure ()

/-- `_finding` -/
def findingInTenant (caller : TenantCaller) (findingId : Option Uuid) : Transaction φ Unit := do
  match findingId with
  | none => pure ()
  | some findingId => do
    if ← select [.playbookFindings] fun db : Database φ => db.findings.any fun finding =>
        finding.row = findingId ∧ finding.organizationId = caller.organizationId ∧
          finding.workspaceId = caller.workspaceId then pure ()
    else raise .hidden

/-- `_assignee_in_workspace` -/
def assigneeInTenant (caller : TenantCaller) (userId : Uuid) : Transaction φ Unit := do
  if ← select [.workspaceMemberships, .memberships] fun db : Database φ =>
      db.workspaceMemberships.any fun opened => opened.organizationId = caller.organizationId ∧
        opened.row.workspaceId = caller.workspaceId ∧ db.memberships.any fun membership =>
          membership.id = opened.row.membershipId ∧ membership.userId = userId then pure ()
  else raise (.http 422 "assignee_not_in_workspace")

/-- `_assignment_by_key` -/
def assignmentOfKey (reviewId : Uuid) (idempotencyKey : String) :
    Transaction φ (Option ReviewAssignment) :=
  select [.reviewAssignments] fun db => (db.assignments.find? fun assignment =>
    assignment.row.reviewId = reviewId ∧ assignment.row.idempotencyKey = idempotencyKey).map (·.row)

/-- `_notify` -/
def notify (review : ReviewRow) : Transaction φ Unit :=
  add .reviewNotificationEvents review.organizationId

/-- The end of a call: commit, set the scope again and go on. -/
def commitInScope (caller : TenantCaller) : Transaction φ Unit := do
  commit
  setScope caller.organizationId

/-! `start` -/

structure StartReviewRequest where
  agreementId : Uuid
  agreementVersionId : Option Uuid
  idempotencyKey : String
  deriving DecidableEq, Repr

structure ReviewRouteContext where
  agreementType : String
  jurisdiction : String
  deriving DecidableEq, Repr

/-- `_safe_route_jurisdiction` -/
def safeRouteJurisdiction : Json φ → String
  | .string value =>
    let normalized := strip value
    if 2 ≤ normalized.length ∧ normalized.length ≤ 16 then normalized else "any"
  | _ => "any"

def routeContext (agreement : AgreementRow φ) : ReviewRouteContext where
  agreementType := agreement.agreementType
  jurisdiction := safeRouteJurisdiction (match agreement.auditMetadata with
    | .object fields => get fields "jurisdiction"
    | _ => .null)

def caseOfKey (request : StartReviewRequest) : Transaction φ (Option ReviewRow) :=
  select [.reviewCases] fun db => db.reviews.find? fun review =>
    review.agreementId = request.agreementId ∧
      review.agreementVersionId = request.agreementVersionId ∧
      review.idempotencyKey = request.idempotencyKey

def newCase (caller : TenantCaller) (request : StartReviewRequest) (reviewId : Uuid) (now : Time) :
    ReviewRow where
  id := reviewId
  organizationId := caller.organizationId
  workspaceId := caller.workspaceId
  agreementId := request.agreementId
  agreementVersionId := request.agreementVersionId
  state := .opened
  createdBy := caller.userId
  revision := 0
  updatedAt := now
  idempotencyKey := request.idempotencyKey

/-- `ReviewCollaborationService.start` -/
def startReview (caller : TenantCaller) (request : StartReviewRequest) (reviewId : Uuid)
    (now : Time) : Transaction φ (ReviewRow × Bool × ReviewRouteContext) := do
  authorizeCaller caller .reviewsAssign .hidden
  match ← select [.agreements]
      (activeAgreement request.agreementId caller.organizationId caller.workspaceId) with
  | none => raise .hidden
  | some agreement => do
    versionInTenant caller request.agreementVersionId request.agreementId
    match ← caseOfKey request with
    | some existing =>
      if existing.agreementId ≠ request.agreementId ∨
          existing.agreementVersionId ≠ request.agreementVersionId then raise .reviewConflict
      else pure (existing, false, routeContext agreement)
    | none => do
      let record ← load (newCase caller request reviewId now)
      add .reviewCases caller.organizationId
      match ← attempt (commitInScope caller) with
      | .error .integrityError => do
        rollback
        setScope caller.organizationId
        match ← caseOfKey request with
        | none => fail .integrityError
        | some existing => pure (existing, false, routeContext agreement)
      | .error failure => fail failure
      | .ok () => do
        let review ← attributes record .reviewCases fun db : Database φ =>
          db.reviews.find? (·.id = reviewId)
        pure (review, true, routeContext agreement)

/-! `assign` and `transfer` -/

/-- The answer to a key that is taken. -/
def replayAssignment (existing : ReviewAssignment) (request : CreateAssignmentRequest) :
    Transaction φ (ReviewAssignment × Bool) := do
  if existing.assigneeId ≠ request.assigneeId ∨ existing.dueAt ≠ request.dueAt then
    raise .reviewConflict
  else pure (existing, false)

/-- Add the assignment with its notice, commit, and read the row back. -/
def commitAssignment (caller : TenantCaller) (review : ReviewRow) (assignmentId : Uuid) :
    Transaction φ (ReviewAssignment × Bool) := do
  add .reviewAssignments caller.organizationId
  notify review
  commitInScope caller
  match ← select [.reviewAssignments] fun db : Database φ =>
      (db.assignments.find? (·.row.id = assignmentId)).map (·.row) with
  | none => raise .hidden
  | some found => pure (found, true)

/-- `ReviewCollaborationService.assign` -/
def assignReview (caller : TenantCaller) (reviewId : Uuid) (request : CreateAssignmentRequest)
    (assignmentId : Uuid) : Transaction φ (ReviewAssignment × Bool) := do
  authorizeCaller caller .reviewsAssign .hidden
  let review ← caseInTenant caller reviewId
  assigneeInTenant caller request.assigneeId
  match ← assignmentOfKey review.id request.idempotencyKey with
  | some existing => replayAssignment existing request
  | none => commitAssignment caller review assignmentId

/-- `ReviewCollaborationService.transfer`. The kind of the transfer only chooses what is written. -/
def transferAssignment (caller : TenantCaller) (reviewId oldId : Uuid)
    (request : ReassignAssignmentRequest) (assignmentId : Uuid) :
    Transaction φ (ReviewAssignment × Bool) := do
  authorizeCaller caller .reviewsAssign .hidden
  let review ← caseInTenant caller reviewId
  match ← select [.reviewAssignments] fun db : Database φ => (db.assignments.find? fun assignment =>
      assignment.row.id = oldId ∧ assignment.row.reviewId = review.id ∧
        assignment.organizationId = caller.organizationId ∧
        assignment.workspaceId = caller.workspaceId).map (·.row) with
  | none => raise .hidden
  | some old => do
    match ← assignmentOfKey review.id request.idempotencyKey with
    | some existing => replayAssignment existing request.toCreateAssignmentRequest
    | none =>
      if review.revision ≠ request.expectedRevision ∨ old.status ≠ .active then
        raise .reviewConflict
      else do
        assigneeInTenant caller request.assigneeId
        let updated ← execute .reviewCases review.organizationId fun db : Database φ =>
          (db.reviews.filter fun row =>
            row.id = review.id ∧ row.revision = request.expectedRevision).length
        if updated ≠ 1 then raise .reviewConflict
        else do
          add .reviewAssignments caller.organizationId
          add .reviewCases review.organizationId
          commitAssignment caller review assignmentId

/-! `comment` -/

structure CommentRequest where
  findingId : Option Uuid
  agreementVersionId : Option Uuid
  body : String
  idempotencyKey : String
  deriving DecidableEq, Repr

def newComment (caller : TenantCaller) (review : ReviewRow) (request : CommentRequest)
    (commentId : Uuid) (now : Time) : CommentRow where
  id := commentId
  organizationId := caller.organizationId
  workspaceId := caller.workspaceId
  reviewId := review.id
  findingId := request.findingId
  agreementVersionId := request.agreementVersionId.or review.agreementVersionId
  authorId := caller.userId
  body := request.body
  idempotencyKey := request.idempotencyKey
  createdAt := now

/-- The answer to a key that is taken. -/
def replayComment (existing : CommentRow) (review : ReviewRow) (request : CommentRequest) :
    Transaction φ (CommentRow × Bool) := do
  if existing.body ≠ request.body ∨ existing.findingId ≠ request.findingId ∨
      existing.agreementVersionId ≠ request.agreementVersionId.or review.agreementVersionId then
    raise .reviewConflict
  else pure (existing, false)

/-- The comment with its notice to the owner of the case, which is read back. -/
def commitComment (caller : TenantCaller) (review : ReviewRow) (comment : CommentRow) :
    Transaction φ (CommentRow × Bool) := do
  let record ← load comment
  add .reviewComments caller.organizationId
  if review.createdBy ≠ caller.userId then notify review else pure ()
  commitInScope caller
  let committed ← attributes record .reviewComments fun db : Database φ =>
    db.comments.find? (·.id = comment.id)
  pure (committed, true)

/-- `ReviewCollaborationService.comment` -/
def commentReview (caller : TenantCaller) (reviewId : Uuid) (request : CommentRequest)
    (commentId : Uuid) (now : Time) : Transaction φ (CommentRow × Bool) := do
  authorizeCaller caller .agreementsRead .hidden
  let review ← caseInTenant caller reviewId
  findingInTenant caller request.findingId
  versionInTenant caller request.agreementVersionId review.agreementId
  if request.agreementVersionId.isSome ∧ review.agreementVersionId.isSome ∧
      request.agreementVersionId ≠ review.agreementVersionId then raise .reviewConflict
  else do
    match ← select [.reviewComments] fun db : Database φ => db.comments.find? fun comment =>
        comment.reviewId = review.id ∧ comment.idempotencyKey = request.idempotencyKey with
    | some existing => replayComment existing review request
    | none => commitComment caller review (newComment caller review request commentId now)

/-! What the calls send -/

variable {p : SentByApi → Prop} {before : Bool} (caller : TenantCaller)

section Lookups

theorem sends_caseInTenant (admits : Admits p caller.organizationId) (reviewId : Uuid) :
    Sends p caller.organizationId true (caseInTenant caller reviewId : Transaction φ _) true
      fun _ => True := by
  refine .bind (.query (admits.read _)) fun found _ => ?_
  cases found with
  | none => exact .raise
  | some review => exact .pure trivial

theorem sends_versionInTenant (admits : Admits p caller.organizationId) (versionId : Option Uuid)
    (agreementId : Uuid) :
    Sends p caller.organizationId true (versionInTenant caller versionId agreementId :
      Transaction φ Unit) true fun _ => True := by
  cases versionId with
  | none => exact .pure trivial
  | some versionId =>
      refine .bind (.query (admits.read _)) fun found _ => ?_
      cases found with
      | none => exact .raise
      | some version => exact .pure trivial

theorem sends_findingInTenant (admits : Admits p caller.organizationId)
    (findingId : Option Uuid) :
    Sends p caller.organizationId true (findingInTenant caller findingId : Transaction φ Unit) true
      fun _ => True := by
  cases findingId with
  | none => exact .pure trivial
  | some findingId =>
      exact .bind (.query (admits.read _)) fun _ _ =>
        .ite (fun _ => .pure trivial) fun _ => .raise

theorem sends_assigneeInTenant (admits : Admits p caller.organizationId) (userId : Uuid) :
    Sends p caller.organizationId true (assigneeInTenant caller userId : Transaction φ Unit) true
      fun _ => True :=
  .bind (.query (admits.read _)) fun _ _ => .ite (fun _ => .pure trivial) fun _ => .raise

theorem sends_notify (admits : Admits p caller.organizationId) (review : ReviewRow) :
    Sends p caller.organizationId true (notify review : Transaction φ Unit) true fun _ => True :=
  .add fun refusal => admits.write _ refusal nofun

theorem sends_commitInScope (admits : Admits p caller.organizationId) (ends : AdmitsEnds p) :
    Sends p caller.organizationId true (commitInScope caller : Transaction φ Unit) true
      fun _ => True :=
  .bind (.commit ends.commit ends.rollback) fun _ _ => .setScope admits.scope

end Lookups

theorem sends_startReview (admits : Admits p caller.organizationId) (ends : AdmitsEnds p)
    (request : StartReviewRequest) (reviewId : Uuid) (now : Time) :
    Sends p caller.organizationId before
      (startReview caller request reviewId now : Transaction φ _) true fun _ => True := by
  have ofKey : Sends p caller.organizationId true (caseOfKey request : Transaction φ _) true
      fun _ => True := .query (admits.read _)
  refine .bind (sends_authorizeCaller caller admits.toAdmitsReads _ _) fun _ _ =>
    .bind (.query (admits.read _)) fun found _ => ?_
  cases found with
  | none => exact .raise
  | some agreement =>
      refine .bind (sends_versionInTenant caller admits _ _) fun _ _ =>
        .bind ofKey fun existing _ => ?_
      cases existing with
      | some existing => exact .ite (fun _ => .raise) fun _ => .pure trivial
      | none =>
          refine .bind (.load _) fun record _ =>
            .bind (.add fun refusal => admits.write _ refusal nofun) fun _ _ =>
              .attempt (sends_commitInScope caller admits ends) (fun _ _ => ?_) fun failure => ?_
          · exact .bind (.attributes (admits.read _) trivial fun _ _ _ => trivial) fun review _ =>
              .pure trivial
          · split
            · refine .bind (.rollback ends.rollback) fun _ _ =>
                .bind (.setScope admits.scope) fun _ _ => .bind ofKey fun winner _ => ?_
              cases winner with
              | none => exact .fail
              | some existing => exact .pure trivial
            · exact .fail
            · contradiction

theorem sends_commitAssignment (admits : Admits p caller.organizationId) (ends : AdmitsEnds p)
    (review : ReviewRow) (assignmentId : Uuid) :
    Sends p caller.organizationId true
      (commitAssignment caller review assignmentId : Transaction φ _) true fun _ => True := by
  refine .bind (.add fun refusal => admits.write _ refusal nofun) fun _ _ =>
    .bind (sends_notify caller admits review) fun _ _ =>
      .bind (sends_commitInScope caller admits ends) fun _ _ =>
        .bind (.query (admits.read _)) fun found _ => ?_
  cases found with
  | none => exact .raise
  | some found => exact .pure trivial

theorem sends_assignReview (admits : Admits p caller.organizationId) (ends : AdmitsEnds p)
    (reviewId : Uuid) (request : CreateAssignmentRequest) (assignmentId : Uuid) :
    Sends p caller.organizationId before
      (assignReview caller reviewId request assignmentId : Transaction φ _) true fun _ => True := by
  refine .bind (sends_authorizeCaller caller admits.toAdmitsReads _ _) fun _ _ =>
    .bind (sends_caseInTenant caller admits reviewId) fun review _ =>
      .bind (sends_assigneeInTenant caller admits _) fun _ _ =>
        .bind (.query (admits.read _)) fun existing _ => ?_
  cases existing with
  | some existing => exact .ite (fun _ => .raise) fun _ => .pure trivial
  | none => exact sends_commitAssignment caller admits ends review assignmentId

theorem sends_transferAssignment (admits : Admits p caller.organizationId) (ends : AdmitsEnds p)
    (reviewId oldId : Uuid) (request : ReassignAssignmentRequest) (assignmentId : Uuid) :
    Sends p caller.organizationId before
      (transferAssignment caller reviewId oldId request assignmentId : Transaction φ _) true
      fun _ => True := by
  refine .bind (sends_authorizeCaller caller admits.toAdmitsReads _ _) fun _ _ =>
    .bind (sends_caseInTenant caller admits reviewId) fun review _ =>
      .bind (.query (admits.read _)) fun found _ => ?_
  cases found with
  | none => exact .raise
  | some old =>
      refine .bind (.query (admits.read _)) fun existing _ => ?_
      cases existing with
      | some existing => exact .ite (fun _ => .raise) fun _ => .pure trivial
      | none =>
          refine .ite (fun _ => .raise) fun _ =>
            .bind (sends_assigneeInTenant caller admits _) fun _ _ =>
              .bind (.execute fun refusal => admits.write _ refusal nofun) fun updated _ =>
                .ite (fun _ => .raise) fun _ => ?_
          exact .bind (.add fun refusal => admits.write _ refusal nofun) fun _ _ =>
            .bind (.add fun refusal => admits.write _ refusal nofun) fun _ _ =>
              sends_commitAssignment caller admits ends review assignmentId

theorem sends_commitComment (admits : Admits p caller.organizationId) (ends : AdmitsEnds p)
    (review : ReviewRow) (comment : CommentRow) :
    Sends p caller.organizationId true (commitComment caller review comment : Transaction φ _) true
      fun _ => True := by
  have readBack (record : Loaded CommentRow) : Sends p caller.organizationId true (do
      commitInScope caller
      let committed ← attributes record .reviewComments fun db : Database φ =>
        db.comments.find? (·.id = comment.id)
      pure (committed, true) : Transaction φ (CommentRow × Bool)) true fun _ => True :=
    .bind (sends_commitInScope caller admits ends) fun _ _ =>
      .bind (.attributes (admits.read _) trivial fun _ _ _ => trivial) fun _ _ => .pure trivial
  exact .bind (.load comment) fun record _ =>
    .bind (.add fun refusal => admits.write _ refusal nofun) fun _ _ =>
      .ite (fun _ => .bind (sends_notify caller admits review) fun _ _ => readBack record)
        fun _ => readBack record

theorem sends_commentReview (admits : Admits p caller.organizationId) (ends : AdmitsEnds p)
    (reviewId : Uuid) (request : CommentRequest) (commentId : Uuid) (now : Time) :
    Sends p caller.organizationId before
      (commentReview caller reviewId request commentId now : Transaction φ _) true
      fun _ => True := by
  refine .bind (sends_authorizeCaller caller admits.toAdmitsReads _ _) fun _ _ =>
    .bind (sends_caseInTenant caller admits reviewId) fun review _ =>
      .bind (sends_findingInTenant caller admits _) fun _ _ =>
        .bind (sends_versionInTenant caller admits _ _) fun _ _ =>
          .ite (fun _ => .raise) fun _ => .bind (.query (admits.read _)) fun existing _ => ?_
  cases existing with
  | some existing => exact .ite (fun _ => .raise) fun _ => .pure trivial
  | none => exact sends_commitComment caller admits ends review _

end AgreementIntelligence.Tenancy
