import AgreementIntelligence.UuidText
import AgreementIntelligence.Reviews.Structure

/-! The declared lengths of the columns that a decision writes to, and the route that decides.
The database refuses a text longer than its column, after the guards have passed; every text
a decision stores has a bounded length except the client's idempotency key and the outbox key
that is made from it. Access to the review is checked before the route gets here. -/

namespace AgreementIntelligence.Reviews
open Identity ApprovalPolicies

/-- A text fits `String(length)`. -/
def varchar (length : Nat) (text : String) : Bool :=
  text.length ≤ length

def AssignmentStatus.value : AssignmentStatus → String
  | .active => "active"
  | .completed => "completed"
  | .delegated => "delegated"
  | .reassigned => "reassigned"

def ReviewWorkflowDecision.fits (row : ReviewWorkflowDecision) : Bool :=
  varchar 32 row.action.value && varchar 255 row.idempotencyKey

def AuditEvent.fits (row : AuditEvent) : Bool :=
  varchar 64 row.action && varchar 64 row.resourceType && varchar 32 row.outcome &&
    varchar 64 row.correlationId

def ReviewWorkflowOutboxEvent.fits (row : ReviewWorkflowOutboxEvent) : Bool :=
  varchar 64 row.eventType && varchar 64 row.correlationId && varchar 255 row.idempotencyKey &&
    row.packageManifestKey.all (varchar 1024) && row.packagePdfKey.all (varchar 1024)

def ReviewAssignment.fits (row : ReviewAssignment) : Bool :=
  varchar 32 row.status.value && varchar 255 row.idempotencyKey

def ReviewNotificationEvent.fits (row : ReviewNotificationEvent) : Bool :=
  varchar 100 row.eventType && varchar 255 row.idempotencyKey

/-- The assignments from `n` on and the notifications from `m` on fit their columns. -/
def ReviewWork.fitsFrom (n m : Nat) (work : ReviewWork) : Bool :=
  (work.assignments.drop n).all (·.fits) && (work.notifications.drop m).all (·.fits)

/-- Every row that `after` has more than `before` fits its columns. -/
def insertsFit (before after : ReviewDb) : Bool :=
  (after.decisions.drop before.decisions.length).all (·.fits) &&
    (after.audit.drop before.audit.length).all (·.fits) &&
    (after.outbox.drop before.outbox.length).all (·.fits) &&
    after.work.fitsFrom before.work.assignments.length before.work.notifications.length

/-- The `version` of an identifier of the RFC 4122 variant. -/
def uuidVersion (u : Uuid) : Option Nat :=
  if u.bits.getLsbD 63 && !u.bits.getLsbD 62 then some (u.bits.toNat / 2 ^ 76 % 16) else none

def isValidCorrelationId (value : String) : Bool :=
  match UuidText.parse? value with
  | none => false
  | some parsed => uuidVersion parsed = some 4 && parsed.str = value

/-- `resolve_correlation_id`; `drawn` is the identifier that `uuid4` draws for it. -/
def resolveCorrelationId (value : Option String) (drawn : Uuid) : String :=
  match value with
  | none => drawn.str
  | some value => if value ≠ "" ∧ isValidCorrelationId value = true then value else drawn.str

/-- The body of a decision. The pattern for `action` is the alternation of the three values and
`expected_revision` is never negative. -/
structure ReviewWorkflowDecisionRequest where
  action : WorkflowAction
  idempotencyKey : String
  expectedRevision : Nat
  deriving DecidableEq, Repr

def ReviewWorkflowDecisionRequest.accepted (body : ReviewWorkflowDecisionRequest) : Bool :=
  1 ≤ body.idempotencyKey.length && body.idempotencyKey.length ≤ 255

def ReviewWorkflowDecisionRequest.decideRequest (body : ReviewWorkflowDecisionRequest)
    (workflowId actorId : Uuid) (correlationId : String) : DecideRequest where
  workflowId := workflowId
  actorId := actorId
  action := body.action
  idempotencyKey := body.idempotencyKey
  expectedRevision := body.expectedRevision
  correlationId := correlationId

inductive DecideFailure where
  | unprocessable
  | workflowNotStarted
  | refused (error : ReviewWorkflowError)
  | stringTruncated
  deriving DecidableEq, Repr

/-- `decide_workflow`: the body is checked, the coordinator called and its rows stored. -/
def decideWorkflow (env : CallEnv) (db : ReviewDb) (actorId : Uuid) (header : Option String)
    (drawn : Uuid) (body : ReviewWorkflowDecisionRequest) :
    Except DecideFailure (WorkflowSnapshot × ReviewDb) :=
  if body.accepted = false then .error .unprocessable
  else
  match db.workflow with
  | none => .error .workflowNotStarted
  | some workflow =>
  match decide env db
      (body.decideRequest workflow.id actorId (resolveCorrelationId header drawn)) with
  | .error e => .error (.refused e)
  | .ok (seen, after) =>
    if insertsFit db after then .ok (seen, after) else .error .stringTruncated

theorem length_resolveCorrelationId (value : Option String) (drawn : Uuid) :
    (resolveCorrelationId value drawn).length = 36 := by
  unfold resolveCorrelationId
  split
  · exact UuidText.length_str drawn
  · rename_i text
    split_ifs with kept
    · have valid := kept.2
      unfold isValidCorrelationId at valid
      split at valid <;> [cases valid; rename_i parsed read]
      simp only [Bool.and_eq_true, decide_eq_true_eq] at valid
      rw [← valid.2]
      exact UuidText.length_str parsed
    · exact UuidText.length_str drawn

/-- A number of an INTEGER column has at most ten digits. -/
theorem length_ordinal {n : Nat} (small : n < 2 ^ 31) : (toString n).length ≤ 10 :=
  (Nat.length_repr_le_iff (by decide)).mpr (lt_trans small (by decide))

theorem length_assigneeKey (workflowId assigneeId : Uuid) {ordinal : Nat}
    (small : ordinal < 2 ^ 31) : (assigneeKey workflowId ordinal assigneeId).length ≤ 108 := by
  have digits := length_ordinal small
  simp only [assigneeKey, stageKeyPrefix, String.length_append, UuidText.length_str,
    show "workflow:".length = 9 from rfl, show ":stage:".length = 7 from rfl,
    show ":".length = 1 from rfl, show "assignee:".length = 9 from rfl]
  omega

theorem length_decisionEventKey (workflow : ReviewWorkflow) (req : DecideRequest) :
    (decisionEventKey workflow req).length = 55 + req.idempotencyKey.length := by
  simp only [decisionEventKey, String.length_append, UuidText.length_str,
    show "workflow:".length = 9 from rfl, show ":decision:".length = 10 from rfl]

theorem length_packageBase (workflow : ReviewWorkflow) (reviewId : Uuid) :
    (packageBase workflow reviewId).length = 132 := by
  simp only [packageBase, String.length_append, UuidText.length_str,
    show "reviews/".length = 8 from rfl, show "/".length = 1 from rfl,
    show "/final-package".length = 14 from rfl]

theorem fitsFrom_eq_true {n m : Nat} {work : ReviewWork} :
    work.fitsFrom n m = true ↔ (∀ row ∈ work.assignments.drop n, row.fits = true) ∧
      ∀ row ∈ work.notifications.drop m, row.fits = true := by
  simp [ReviewWork.fitsFrom]

theorem fitsFrom_end (work : ReviewWork) :
    work.fitsFrom work.assignments.length work.notifications.length = true := by
  simp [ReviewWork.fitsFrom]

/-- A status always fits its column. -/
theorem fits_status {row : ReviewAssignment} (status : AssignmentStatus)
    (fits : row.fits = true) : ({ row with status := status }).fits = true := by
  simp only [ReviewAssignment.fits, Bool.and_eq_true] at fits ⊢
  refine ⟨?_, fits.2⟩
  cases status <;> rfl

/-- Rewriting statuses keeps what fits. -/
theorem fitsFrom_map {n m : Nat} {work : ReviewWork} {change : ReviewAssignment → ReviewAssignment}
    (fits : work.fitsFrom n m = true)
    (keeps : ∀ row, row.fits = true → (change row).fits = true) :
    ({ work with assignments := work.assignments.map change }).fitsFrom n m = true := by
  rw [fitsFrom_eq_true] at *
  refine ⟨fun row member => ?_, fits.2⟩
  rw [← List.map_drop, List.mem_map] at member
  obtain ⟨old, inside, rfl⟩ := member
  exact keeps old (fits.1 old inside)

theorem mem_drop_append {α : Type} {n : Nat} {rows : List α} {last row : α}
    (member : row ∈ (rows ++ [last]).drop n) : row ∈ rows.drop n ∨ row = last := by
  rw [List.drop_append, List.mem_append] at member
  exact member.imp_right fun inside => List.mem_singleton.mp (List.mem_of_mem_drop inside)

theorem activateAssignment_fits {now : Time} {reviewCase : ReviewCase} {workflow : ReviewWorkflow}
    {policyStage : ApprovalPolicyStage} {assignmentId notificationId assigneeId : Uuid} {n m : Nat}
    {work : ReviewWork} (small : policyStage.ordinal < 2 ^ 31)
    (fits : work.fitsFrom n m = true) :
    (activateAssignment now reviewCase workflow policyStage assignmentId notificationId work
      assigneeId).fitsFrom n m = true := by
  have short := length_assigneeKey workflow.id assigneeId small
  simp only [activateAssignment]
  split_ifs
  · refine fitsFrom_map fits fun row kept => ?_
    split_ifs
    · exact fits_status .active kept
    · exact kept
  · rw [fitsFrom_eq_true] at *
    constructor
    · intro row member
      rcases mem_drop_append member with inside | rfl
      · exact fits.1 row inside
      · have room : (assigneeKey workflow.id policyStage.ordinal assigneeId).length ≤ 255 := by
          omega
        have status : varchar 32 AssignmentStatus.active.value = true := by decide
        exact Bool.and_eq_true_iff.mpr ⟨status, decide_eq_true room⟩
    · intro row member
      rcases mem_drop_append member with inside | rfl
      · exact fits.2 row inside
      · have room : ("notification:" ++
            assigneeKey workflow.id policyStage.ordinal assigneeId).length ≤ 255 := by
          rw [String.length_append, show "notification:".length = 13 from rfl]
          omega
        have type : varchar 100 "review.assignment.created" = true := by decide
        exact Bool.and_eq_true_iff.mpr ⟨type, decide_eq_true room⟩

theorem activateAssignments_fits {env : CallEnv} {firstId : Nat} {reviewCase : ReviewCase}
    {workflow : ReviewWorkflow} {policyStage : ApprovalPolicyStage} {n m : Nat}
    {work : ReviewWork} (small : policyStage.ordinal < 2 ^ 31)
    (fits : work.fitsFrom n m = true) :
    (activateAssignments env firstId reviewCase workflow policyStage work).fitsFrom n m =
      true := by
  unfold activateAssignments
  generalize List.zipIdx (sortedByText (eligibleActorIds env.memberships workflow policyStage)) =
    entries
  induction entries generalizing work with
  | nil => exact fits
  | cons entry rest ih => exact ih (activateAssignment_fits small fits)

theorem completeAssignments_fits {workflow : ReviewWorkflow} {stage : ReviewWorkflowStage}
    {n m : Nat} {work : ReviewWork} (fits : work.fitsFrom n m = true) :
    (completeAssignments workflow stage work).fitsFrom n m = true := by
  refine fitsFrom_map fits fun row kept => ?_
  split_ifs
  · exact fits_status .completed kept
  · exact kept

theorem closedWork_fits {workflow : ReviewWorkflow} {n m : Nat} {work : ReviewWork}
    (fits : work.fitsFrom n m = true) : (closedWork workflow work).fitsFrom n m = true := by
  refine fitsFrom_map fits fun row kept => ?_
  split_ifs
  · exact fits_status .completed kept
  · exact kept

/-- Whatever the branch on the action does, the assignment rows it adds fit. -/
theorem Applied.work_fits {env : CallEnv} {db applied : ReviewDb} {workflow after : ReviewWorkflow}
    {stage : ReviewWorkflowStage} {action : WorkflowAction}
    (done : Applied env db workflow stage action after applied)
    (numbered : ∀ policyStage ∈ db.policies.stages, policyStage.ordinal < 2 ^ 31) :
    applied.work.fitsFrom db.work.assignments.length db.work.notifications.length = true := by
  have start := fitsFrom_end db.work
  cases done with
  | stays short => exact start
  | moves work next met found worked =>
      rw [worked, movedWork]
      split
      · exact completeAssignments_fits start
      · rename_i policyStage stored
        have small := numbered policyStage (List.mem_of_find?_eq_some stored)
        exact activateAssignments_fits small (completeAssignments_fits start)
  | finishes work met last worked =>
      rw [worked]
      exact completeAssignments_fits start
  | stops work _ outcome stopping worked =>
      rw [worked]
      exact closedWork_fits start

theorem decisionRow_fits {env : CallEnv} {req : DecideRequest} {admission : Admission}
    (short : req.idempotencyKey.length ≤ 255) : (decisionRow env req admission).fits = true := by
  have action : varchar 32 req.action.value = true := by cases req.action <;> rfl
  simp only [ReviewWorkflowDecision.fits, decisionRow, action, Bool.true_and]
  exact decide_eq_true short

theorem decisionAudit_fits {env : CallEnv} {req : DecideRequest} {workflowId : Uuid}
    (short : req.correlationId.length = 36) : (decisionAudit env req workflowId).fits = true := by
  have action : varchar 64 ("review_workflow_" ++ req.action.value) = true := by
    cases req.action <;> rfl
  have correlation : varchar 64 req.correlationId = true := decide_eq_true (by omega)
  simp only [AuditEvent.fits, decisionAudit, action, correlation, Bool.and_true, Bool.true_and]
  rfl

/-- The event of a decision fits exactly when the key it is made from leaves room. -/
theorem Emitted.fits_iff {workflow : ReviewWorkflow} {state : WorkflowState} {req : DecideRequest}
    {event : ReviewWorkflowOutboxEvent} (short : req.correlationId.length = 36)
    (emitted : Emitted workflow (decisionEventType state) req.correlationId
      (decisionEventKey workflow req) event) :
    event.fits = true ↔ req.idempotencyKey.length ≤ 200 := by
  have type : varchar 64 event.eventType = true := by
    rw [emitted.eventType, decisionEventType]
    split_ifs <;> rfl
  have correlation : varchar 64 event.correlationId = true := by
    rw [emitted.correlationId]
    exact decide_eq_true (by omega)
  have manifest : event.packageManifestKey.all (varchar 1024) = true := by
    rw [Option.all_eq_true]
    intro manifest stored
    rw [emitted.manifestKey manifest stored, varchar, String.length_append, length_packageBase]
    rfl
  have pdf : event.packagePdfKey.all (varchar 1024) = true := by
    rw [Option.all_eq_true]
    intro pdf stored
    rw [emitted.pdfKey pdf stored, varchar, String.length_append, length_packageBase]
    rfl
  simp only [ReviewWorkflowOutboxEvent.fits, type, correlation, manifest, pdf, Bool.and_true,
    Bool.true_and]
  rw [varchar, decide_eq_true_eq, emitted.key, length_decisionEventKey]
  omega

/-- The rows of a recorded decision fit exactly when the key has at most 200 characters. -/
theorem Recorded.insertsFit_iff {env : CallEnv} {db after : ReviewDb} {req : DecideRequest}
    {admission : Admission} (recorded : Recorded env db req admission after)
    (numbered : ∀ policyStage ∈ db.policies.stages, policyStage.ordinal < 2 ^ 31)
    (accepted : req.idempotencyKey.length ≤ 255) (correlated : req.correlationId.length = 36) :
    insertsFit db after = true ↔ req.idempotencyKey.length ≤ 200 := by
  obtain ⟨workflow, applied, event, done, emitted, rfl⟩ := recorded
  have decisions : applied.decisions = db.decisions ++ [decisionRow env req admission] :=
    done.frame.decisions
  have work : applied.work.fitsFrom db.work.assignments.length db.work.notifications.length =
      true := done.work_fits numbered
  rw [← emitted.fits_iff correlated]
  simp only [insertsFit, decisions, List.drop_left, List.all_cons, List.all_nil, Bool.and_true,
    decisionRow_fits accepted, decisionAudit_fits correlated, work, Bool.true_and]

/-- A decision that the guards let through is stored, rows and all, exactly when its key has at
most 200 characters; a key that is on record adds no row. -/
theorem decideWorkflow_stored_iff {env : CallEnv} {db : ReviewDb} {actorId drawn : Uuid}
    {header : Option String} {body : ReviewWorkflowDecisionRequest} {workflow : ReviewWorkflow}
    {guarded : Guarded}
    (numbered : ∀ policyStage ∈ db.policies.stages, policyStage.ordinal < 2 ^ 31)
    (accepted : body.accepted = true) (stored : db.workflow = some workflow)
    (passed : decideGuards env db
      (body.decideRequest workflow.id actorId (resolveCorrelationId header drawn)) =
        .ok guarded) :
    ∃ seen after,
      decide env db (body.decideRequest workflow.id actorId (resolveCorrelationId header drawn)) =
        .ok (seen, after) ∧
      (insertsFit db after = true ↔
        body.idempotencyKey.length ≤ 200 ∨
          db.decision? workflow body.idempotencyKey ≠ none) ∧
      (decideWorkflow env db actorId header drawn body = .ok (seen, after) ↔
        body.idempotencyKey.length ≤ 200 ∨
          db.decision? workflow body.idempotencyKey ≠ none) := by
  set req := body.decideRequest workflow.id actorId (resolveCorrelationId header drawn)
  have route : ∀ {seen after}, decide env db req = .ok (seen, after) →
      (decideWorkflow env db actorId header drawn body = .ok (seen, after) ↔
        insertsFit db after = true) := by
    intro seen after decided
    simp only [decideWorkflow, accepted, Bool.true_eq_false, if_false, stored]
    rw [show decide env db (body.decideRequest workflow.id actorId
      (resolveCorrelationId header drawn)) = .ok (seen, after) from decided]
    dsimp only
    split_ifs with fits <;> simp [fits]
  have short : body.idempotencyKey.length ≤ 255 := by
    simp only [ReviewWorkflowDecisionRequest.accepted, Bool.and_eq_true, decide_eq_true_eq]
      at accepted
    exact accepted.2
  rcases decideGuards_ok_cases passed with ⟨found, rfl, replayed⟩ | ⟨admission, rfl, admitted⟩
  · have same : found = workflow := by
      have read := (workflow?_eq_some.mp replayed.stored).1
      rw [stored] at read
      exact (Option.some.inj read).symm
    obtain ⟨decision, recorded, -, -⟩ := replayed.recorded
    have onRecord : db.decision? workflow body.idempotencyKey ≠ none := by
      rw [same] at recorded
      rw [show db.decision? workflow body.idempotencyKey = some decision from recorded]
      exact Option.some_ne_none decision
    have decided : decide env db req = .ok (snapshot found db.outbox, db) := by
      simp only [decide, passed, bind, Except.bind]
      rfl
    have fits : insertsFit db db = true := by
      simp [insertsFit, fitsFrom_end]
    refine ⟨_, db, decided, ?_, ?_⟩
    · exact iff_of_true fits (.inr onRecord)
    · exact (route decided).trans (iff_of_true fits (.inr onRecord))
  · have same : admission.workflow = workflow := by
      have read := (workflow?_eq_some.mp admitted.stored).1
      rw [stored] at read
      exact (Option.some.inj read).symm
    have unrecorded : db.decision? workflow body.idempotencyKey = none := by
      rw [← same]
      exact admitted.unrecorded
    obtain ⟨seen, after, decided, recorded⟩ := decide_ok_of_admitted admitted
    have fits : insertsFit db after = true ↔ body.idempotencyKey.length ≤ 200 :=
      recorded.insertsFit_iff numbered short (length_resolveCorrelationId header drawn)
    have settled : insertsFit db after = true ↔ body.idempotencyKey.length ≤ 200 ∨
        db.decision? workflow body.idempotencyKey ≠ none := by
      rw [fits, unrecorded]
      simp
    exact ⟨seen, after, decided, settled, (route decided).trans settled⟩

/-- The two-stage review with its workflow started. -/
def startedSample : ReviewDb := step (sampleDb twoStagePolicies) (sampleStart noMembers)

/-- The first approval of the sample review, under a key of `n` letters. -/
def sampleBody (n : Nat) : ReviewWorkflowDecisionRequest where
  action := .approve
  idempotencyKey := String.ofList (List.replicate n 'k')
  expectedRevision := 0

theorem sampleBody_length (n : Nat) : (sampleBody n).idempotencyKey.length = n := by
  simp [sampleBody]

theorem sampleBody_accepted {n : Nat} (some_ : 1 ≤ n) (short : n ≤ 255) :
    (sampleBody n).accepted = true := by
  simp [ReviewWorkflowDecisionRequest.accepted, sampleBody_length, some_, short]

theorem startedSample_numbered :
    ∀ policyStage ∈ startedSample.policies.stages, policyStage.ordinal < 2 ^ 31 := by
  rw [startedSample, step_policies]
  decide

theorem startedSample_workflow : ∃ workflow, startedSample.workflow = some workflow :=
  Option.isSome_iff_exists.mp (by decide +kernel)

/-- The guards let the sample request pass. -/
def samplePasses (n : Nat) : Prop :=
  ∀ workflow ∈ startedSample.workflow, (decideGuards (sampleEnv noMembers 2) startedSample
    ((sampleBody n).decideRequest workflow.id (.ofNat 21)
      (resolveCorrelationId none (.ofNat 7)))).isOk = true

instance (n : Nat) : Decidable (samplePasses n) :=
  inferInstanceAs (Decidable (∀ workflow ∈ startedSample.workflow, _ = true))

theorem samplePasses.guarded {n : Nat} {workflow : ReviewWorkflow} (passes : samplePasses n)
    (stored : startedSample.workflow = some workflow) :
    ∃ guarded, decideGuards (sampleEnv noMembers 2) startedSample
      ((sampleBody n).decideRequest workflow.id (.ofNat 21)
        (resolveCorrelationId none (.ofNat 7))) = .ok guarded := by
  have passed := passes workflow stored
  revert passed
  cases decideGuards (sampleEnv noMembers 2) startedSample _ with
  | error e => exact fun raised => nomatch raised
  | ok guarded => exact fun _ => ⟨guarded, rfl⟩

theorem decideWorkflow_stored_iff_sample :
    ∃ workflow seen after, startedSample.workflow = some workflow ∧
      decide (sampleEnv noMembers 2) startedSample
        ((sampleBody 1).decideRequest workflow.id (.ofNat 21)
          (resolveCorrelationId none (.ofNat 7))) = .ok (seen, after) ∧
      insertsFit startedSample after = true ∧
      decideWorkflow (sampleEnv noMembers 2) startedSample (.ofNat 21) none (.ofNat 7)
        (sampleBody 1) = .ok (seen, after) := by
  obtain ⟨workflow, stored⟩ := startedSample_workflow
  obtain ⟨guarded, passed⟩ :=
    samplePasses.guarded (by decide +kernel : samplePasses 1) stored
  obtain ⟨seen, after, decided, fits, returned⟩ := decideWorkflow_stored_iff
    startedSample_numbered (sampleBody_accepted (by decide) (by decide)) stored passed
  have room := (sampleBody_length 1).le.trans (by decide : 1 ≤ 200)
  exact ⟨workflow, seen, after, stored, decided, fits.mpr (.inl room), returned.mpr (.inl room)⟩

/-- Every accepted decision that passes the guards is stored. -/
def EveryDecisionStored : Prop :=
  ∀ (env : CallEnv) (db : ReviewDb) (actorId drawn : Uuid) (header : Option String)
    (body : ReviewWorkflowDecisionRequest) (workflow : ReviewWorkflow) (guarded : Guarded),
    (∀ policyStage ∈ db.policies.stages, policyStage.ordinal < 2 ^ 31) →
    body.accepted = true → db.workflow = some workflow →
    decideGuards env db (body.decideRequest workflow.id actorId
      (resolveCorrelationId header drawn)) = .ok guarded →
    ∃ seen after, decide env db (body.decideRequest workflow.id actorId
        (resolveCorrelationId header drawn)) = .ok (seen, after) ∧
      insertsFit db after = true ∧
      decideWorkflow env db actorId header drawn body = .ok (seen, after)

/-- An approval under a key of 201 letters passes the guards and is not stored. -/
theorem not_everyDecisionStored : ¬ EveryDecisionStored := by
  intro promised
  obtain ⟨workflow, stored⟩ := startedSample_workflow
  obtain ⟨guarded, passed⟩ :=
    samplePasses.guarded (by decide +kernel : samplePasses 201) stored
  have accepted : (sampleBody 201).accepted = true := sampleBody_accepted (by decide) (by decide)
  obtain ⟨seen, after, decided, fits, -⟩ := promised (sampleEnv noMembers 2) startedSample
    (.ofNat 21) (.ofNat 7) none (sampleBody 201) workflow guarded startedSample_numbered accepted
    stored passed
  rcases decide_returns decided with ⟨found, replayed, -⟩ | ⟨admission, -, recorded⟩
  · obtain ⟨decision, onRecord, -, -⟩ := replayed.recorded
    have none_ : startedSample.decisions = [] := by decide +kernel
    have member := (decision?_eq_some onRecord).1
    rw [none_] at member
    cases member
  · have long := (recorded.insertsFit_iff startedSample_numbered
      ((sampleBody_length 201).le.trans (by decide))
      (length_resolveCorrelationId none (.ofNat 7))).mp fits
    exact absurd ((sampleBody_length 201).ge.trans long) (by decide)

end AgreementIntelligence.Reviews
