import AgreementIntelligence.Lib.Forest
import AgreementIntelligence.Reviews.Collaboration

/-! Transfers hand assignments on, one successor each. Two calls can break this: a transfer
whose key is on record is answered with the row of that key, whatever assignment it was to
hand on, and the activation of a stage re-activates the rows under its assignee keys, also when
they were handed on. While no call does either, the assignments are a forest. -/

namespace AgreementIntelligence.Reviews
open Identity ApprovalPolicies Lib.Runs Lib.Forest

def ReviewAssignment.HandedOn (row : ReviewAssignment) : Prop :=
  row.status = .delegated ∨ row.status = .reassigned

instance (row : ReviewAssignment) : Decidable row.HandedOn :=
  inferInstanceAs (Decidable (_ ∨ _))

def TransferForest (rows : List ReviewAssignment) : Prop :=
  IsForest (·.id) (·.predecessorAssignmentId) ReviewAssignment.HandedOn rows

/-- The keys under which the activation of a stage looks assignments up. -/
def stageKeys (env : CallEnv) (workflow : ReviewWorkflow) (policyStage : ApprovalPolicyStage) :
    List String :=
  (eligibleActorIds env.memberships workflow policyStage).map
    (assigneeKey workflow.id policyStage.ordinal)

/-- The policy stage that comes after `stage`. -/
def nextPolicyStage (env : CallEnv) (db : ReviewDb) (workflow : ReviewWorkflow)
    (stage : ReviewWorkflowStage) : Option ApprovalPolicyStage :=
  ((updateStage workflow.stages stage.id (completeStage env.now)).find? fun candidate =>
    candidate.ordinal = stage.ordinal + 1).bind fun next => db.policies.stage? next.policyStageId

/-- The keys of the stages that a call activates. -/
def activatedKeys (env : CallEnv) (db : ReviewDb) : Call → List String
  | .start _ policyVersionId _ =>
    match db.workflow, policyVersion db policyVersionId db.reviewCase with
    | none, .ok version =>
      match version.stages.head? with
      | none => []
      | some first =>
        (version.stages.filter fun policyStage => policyStage.ordinal = first.ordinal).flatMap
          (stageKeys env (startWorkflow env db.reviewCase version first.ordinal))
    | _, _ => []
  | .decide req =>
    match decideGuards env db req with
    | .ok (.fresh admission) =>
      match req.action, stageIsSatisfied (withDecision env db req admission) admission.workflow
          admission.stage with
      | .approve, .ok true =>
        match nextPolicyStage env db admission.workflow admission.stage with
        | none => []
        | some policyStage => stageKeys env admission.workflow policyStage
      | _, _ => []
    | _ => []
  | .escalateOverdue _ _ => []

/-- No assignment of the review under one of the keys has been handed on. -/
def Unclaimed (reviewId : Uuid) (keys : List String) (rows : List ReviewAssignment) : Prop :=
  ∀ row ∈ rows, row.reviewId = reviewId → row.idempotencyKey ∈ keys → ¬ row.HandedOn

/-- The calls under which transfers keep their word: an activation meets no assignment that was
handed on, and a transfer that is answered from the record names one that was. -/
def Undisturbed (db : ReviewDb) (event : ReviewEvent) : Prop :=
  match event.call with
  | .workflow call =>
    Unclaimed db.reviewCase.id (activatedKeys event.env db call) db.work.assignments
  | .assign _ _ _ => True
  | .transfer caller reviewId assignmentId request _ =>
    ∀ review old existing,
      transferTarget event.env db caller reviewId assignmentId = .ok (review, old) →
      assignmentByKey db.work review.id request.idempotencyKey = some existing →
      replay existing request.toCreateAssignmentRequest = .ok existing → old.HandedOn

/-- `before` was extended at its end: the identifiers it had come first. -/
def Extends (before after : ReviewWork) : Prop :=
  before.assignments.map (·.id) <+: after.assignments.map (·.id)

theorem Extends.nodup {before after : ReviewWork} (extend : Extends before after)
    (distinct : (after.assignments.map (·.id)).Nodup) :
    (before.assignments.map (·.id)).Nodup :=
  distinct.sublist extend.sublist

theorem foldl_extends {β : Type} {turn : ReviewWork → β → ReviewWork}
    (grows : ∀ work entry, Extends work (turn work entry)) (entries : List β) (work : ReviewWork) :
    Extends work (entries.foldl turn work) := by
  induction entries generalizing work with
  | nil => exact List.prefix_refl _
  | cons entry rest ih => exact (grows work entry).trans (ih (turn work entry))

/-- A fold whose turns extend the rows and keep a property while identifiers stay distinct. -/
theorem foldl_keeps {β : Type} {P : ReviewWork → Prop} {turn : ReviewWork → β → ReviewWork}
    {entries : List β} {work : ReviewWork} (grows : ∀ work entry, Extends work (turn work entry))
    (keeps : ∀ work, ∀ entry ∈ entries, P work →
      ((turn work entry).assignments.map (·.id)).Nodup → P (turn work entry))
    (distinct : ((entries.foldl turn work).assignments.map (·.id)).Nodup) (start : P work) :
    P (entries.foldl turn work) := by
  induction entries generalizing work with
  | nil => exact start
  | cons entry rest ih =>
      have now := (foldl_extends grows rest (turn work entry)).nodup distinct
      have here := keeps work entry List.mem_cons_self start now
      exact ih (fun work entry member => keeps work entry (List.mem_cons_of_mem _ member)) distinct
        here

/-- What the activation of stages relies on and keeps. -/
structure Activatable (reviewId : Uuid) (keys : List String) (work : ReviewWork) : Prop where
  forest : TransferForest work.assignments
  unclaimed : Unclaimed reviewId keys work.assignments

/-- A change of statuses that hands nothing on and takes nothing back. -/
theorem Activatable.map {reviewId : Uuid} {keys : List String} {work : ReviewWork}
    {change : ReviewAssignment → ReviewAssignment} (can : Activatable reviewId keys work)
    (keepsId : ∀ row, (change row).id = row.id)
    (keepsLink : ∀ row, (change row).predecessorAssignmentId = row.predecessorAssignmentId)
    (keepsReview : ∀ row, (change row).reviewId = row.reviewId)
    (keepsKey : ∀ row, (change row).idempotencyKey = row.idempotencyKey)
    (keepsMark : ∀ row ∈ work.assignments, (change row).HandedOn ↔ row.HandedOn) :
    Activatable reviewId keys { work with assignments := work.assignments.map change } where
  forest := can.forest.map keepsId keepsLink keepsMark
  unclaimed := by
    intro row member here carries handed
    obtain ⟨source, inside, rfl⟩ := List.mem_map.mp member
    rw [keepsReview] at here
    rw [keepsKey] at carries
    exact can.unclaimed source inside here carries ((keepsMark source inside).mp handed)

theorem activateAssignment_extends {now : Time} {reviewCase : ReviewCase}
    {workflow : ReviewWorkflow} {policyStage : ApprovalPolicyStage}
    {assignmentId notificationId assigneeId : Uuid} (work : ReviewWork) :
    Extends work (activateAssignment now reviewCase workflow policyStage assignmentId
      notificationId work assigneeId) := by
  simp only [activateAssignment, Extends]
  split_ifs
  · rw [List.map_map]
    refine (List.map_congr_left fun row _ => ?_) ▸ List.prefix_refl _
    simp only [Function.comp_apply]
    split_ifs <;> rfl
  · rw [List.map_append]
    exact List.prefix_append _ _

theorem activateAssignment_keeps {now : Time} {reviewCase : ReviewCase}
    {workflow : ReviewWorkflow} {policyStage : ApprovalPolicyStage}
    {assignmentId notificationId assigneeId : Uuid} {keys : List String} {work : ReviewWork}
    (listed : assigneeKey workflow.id policyStage.ordinal assigneeId ∈ keys)
    (can : Activatable reviewCase.id keys work)
    (distinct : ((activateAssignment now reviewCase workflow policyStage assignmentId
      notificationId work assigneeId).assignments.map (·.id)).Nodup) :
    Activatable reviewCase.id keys (activateAssignment now reviewCase workflow policyStage
      assignmentId notificationId work assigneeId) := by
  simp only [activateAssignment] at distinct ⊢
  split_ifs at distinct ⊢ with found
  · refine can.map (fun row => ?_) (fun row => ?_) (fun row => ?_) (fun row => ?_)
      fun row member => ?_
    · split_ifs <;> rfl
    · split_ifs <;> rfl
    · split_ifs <;> rfl
    · split_ifs <;> rfl
    · split_ifs with hit
      · refine iff_of_false (by simp [ReviewAssignment.HandedOn]) ?_
        exact can.unclaimed row member hit.1 (hit.2.1 ▸ listed)
      · exact Iff.rfl
  · have open_ : ¬ ReviewAssignment.HandedOn {
        id := assignmentId
        reviewId := reviewCase.id
        assigneeId := assigneeId
        assignedBy := reviewCase.createdBy
        predecessorAssignmentId := none
        dueAt := policyStage.deadlineHours.map fun n => now + hours n
        status := .active
        idempotencyKey := assigneeKey workflow.id policyStage.ordinal assigneeId
        createdAt := now
        updatedAt := now } := by
      simp [ReviewAssignment.HandedOn]
    constructor
    · refine can.forest.plant ?_ rfl open_
      rw [List.map_append, List.nodup_append] at distinct
      exact fun member => distinct.2.2 _ member _ (by simp) rfl
    · intro row member here carries
      rcases List.mem_append.mp member with inside | new
      · exact can.unclaimed row inside here carries
      · rw [List.mem_singleton.mp new]
        exact open_

theorem activateAssignments_extends {env : CallEnv} {firstId : Nat} {reviewCase : ReviewCase}
    {workflow : ReviewWorkflow} {policyStage : ApprovalPolicyStage} (work : ReviewWork) :
    Extends work (activateAssignments env firstId reviewCase workflow policyStage work) :=
  foldl_extends (fun work _ => activateAssignment_extends work) _ work

theorem activateAssignments_keeps {env : CallEnv} {firstId : Nat} {reviewCase : ReviewCase}
    {workflow : ReviewWorkflow} {policyStage : ApprovalPolicyStage} {keys : List String}
    {work : ReviewWork} (listed : stageKeys env workflow policyStage ⊆ keys)
    (can : Activatable reviewCase.id keys work)
    (distinct : ((activateAssignments env firstId reviewCase workflow policyStage
      work).assignments.map (·.id)).Nodup) :
    Activatable reviewCase.id keys
      (activateAssignments env firstId reviewCase workflow policyStage work) := by
  refine foldl_keeps (fun work entry => activateAssignment_extends work) ?_ distinct can
  intro work entry member can distinct
  refine activateAssignment_keeps (listed (List.mem_map_of_mem ?_)) can distinct
  have numbered := List.mem_map_of_mem (f := Prod.fst) member
  rw [List.zipIdx_map_fst] at numbered
  exact mem_sortedByText.mp numbered

/-- Completing active assignments hands nothing on. -/
theorem Activatable.complete {reviewId : Uuid} {keys : List String} {work : ReviewWork}
    {closes : ReviewAssignment → Prop} [DecidablePred closes]
    (can : Activatable reviewId keys work)
    (active : ∀ row, closes row → row.status = .active) :
    Activatable reviewId keys { work with
      assignments := work.assignments.map fun row =>
        if closes row then { row with status := .completed } else row } := by
  refine can.map (fun row => ?_) (fun row => ?_) (fun row => ?_) (fun row => ?_)
    fun row member => ?_
  · split_ifs <;> rfl
  · split_ifs <;> rfl
  · split_ifs <;> rfl
  · split_ifs <;> rfl
  · split_ifs with hit
    · exact iff_of_false (by simp [ReviewAssignment.HandedOn])
        (by simp [ReviewAssignment.HandedOn, active row hit])
    · exact Iff.rfl

theorem completeAssignments_keeps {workflow : ReviewWorkflow} {stage : ReviewWorkflowStage}
    {reviewId : Uuid} {keys : List String} {work : ReviewWork}
    (can : Activatable reviewId keys work) :
    Activatable reviewId keys (completeAssignments workflow stage work) :=
  can.complete fun _ hit => hit.2.1

theorem closedWork_keeps {workflow : ReviewWorkflow} {reviewId : Uuid} {keys : List String}
    {work : ReviewWork} (can : Activatable reviewId keys work) :
    Activatable reviewId keys (closedWork workflow work) :=
  can.complete fun _ hit => hit.2

theorem movedWork_keeps {env : CallEnv} {db : ReviewDb} {workflow : ReviewWorkflow}
    {stage next : ReviewWorkflowStage} {keys : List String}
    (listed : ∀ policyStage, db.policies.stage? next.policyStageId = some policyStage →
      stageKeys env workflow policyStage ⊆ keys)
    (can : Activatable db.reviewCase.id keys db.work)
    (distinct : ((movedWork env db workflow stage next).assignments.map (·.id)).Nodup) :
    Activatable db.reviewCase.id keys (movedWork env db workflow stage next) := by
  unfold movedWork at distinct ⊢
  have completed : Activatable db.reviewCase.id keys (completeAssignments workflow stage db.work) :=
    completeAssignments_keeps can
  split at distinct
  · exact completed
  · rename_i policyStage stored
    exact activateAssignments_keeps (listed policyStage stored) completed distinct

/-- The branch on the action keeps the forest when the stage it activates meets no assignment
that was handed on. -/
theorem Recorded.forest {env : CallEnv} {db after : ReviewDb} {req : DecideRequest}
    {admission : Admission} (recorded : Recorded env db req admission after)
    (admitted : Admitted env db req admission) (forest : TransferForest db.work.assignments)
    (unclaimed : Unclaimed db.reviewCase.id (activatedKeys env db (.decide req))
      db.work.assignments)
    (distinct : (after.work.assignments.map (·.id)).Nodup) :
    TransferForest after.work.assignments := by
  obtain ⟨workflow, applied, event, done, -, rfl⟩ := recorded
  have can : Activatable db.reviewCase.id (activatedKeys env db (.decide req)) db.work :=
    ⟨forest, unclaimed⟩
  have distinct : (applied.work.assignments.map (·.id)).Nodup := distinct
  change TransferForest applied.work.assignments
  simp only [activatedKeys, decideGuards_of_admitted admitted] at can
  generalize req.action = action at done can
  cases done with
  | stays short => exact forest
  | moves work next met found worked =>
      simp only [met, nextPolicyStage, found, Option.bind_some] at can
      rw [worked] at distinct ⊢
      refine (movedWork_keeps (fun policyStage stored => ?_) can distinct).forest
      rw [show db.policies.stage? next.policyStageId = some policyStage from stored]
      exact List.Subset.refl _
  | finishes work met last worked =>
      rw [worked]
      exact (completeAssignments_keeps can).forest
  | stops work _ outcome stopping worked =>
      rw [worked]
      exact (closedWork_keeps can).forest

theorem startedWork_forest {env : CallEnv} {db : ReviewDb} {version : ApprovalPolicyVersion}
    {activeOrdinal : Nat} (forest : TransferForest db.work.assignments)
    (unclaimed : Unclaimed db.reviewCase.id
      ((version.stages.filter fun policyStage => policyStage.ordinal = activeOrdinal).flatMap
        (stageKeys env (startWorkflow env db.reviewCase version activeOrdinal)))
      db.work.assignments)
    (distinct : ((startedWork env db version activeOrdinal).assignments.map (·.id)).Nodup) :
    TransferForest (startedWork env db version activeOrdinal).assignments := by
  set activated := version.stages.filter fun policyStage => policyStage.ordinal = activeOrdinal
  set keys := activated.flatMap
    (stageKeys env (startWorkflow env db.reviewCase version activeOrdinal)) with keys_def
  have can : Activatable db.reviewCase.id keys db.work := ⟨forest, unclaimed⟩
  refine (foldl_keeps (fun work policyStage => activateAssignments_extends work) ?_ distinct
    can).forest
  intro work policyStage member can distinct
  have listed : stageKeys env (startWorkflow env db.reviewCase version activeOrdinal)
      policyStage ⊆ keys := fun key inside => List.mem_flatMap.mpr ⟨policyStage, member, inside⟩
  exact activateAssignments_keeps listed can distinct

/-- A call on the workflow. -/
theorem step_forest {env : CallEnv} {db : ReviewDb} {call : Call}
    (forest : TransferForest db.work.assignments)
    (unclaimed : Unclaimed db.reviewCase.id (activatedKeys env db call) db.work.assignments)
    (distinct : ((step db ⟨env, call⟩).work.assignments.map (·.id)).Nodup) :
    TransferForest (step db ⟨env, call⟩).work.assignments := by
  rcases step_cases db ⟨env, call⟩ with same | ⟨reviewId, policyVersionId, correlationId, isStart,
    fresh, version, activeOrdinal, work, event, audit, -, -, first, -, after, worked, found⟩ |
    ⟨req, admission, isDecide, admitted, recorded⟩ |
    ⟨now, workflow, stage, event, audit, -, -, -, after⟩
  · rwa [same]
  · rw [after, worked] at distinct ⊢
    dsimp only at isStart
    cases head : version.stages.head? with
    | none => simp [head] at first
    | some stage =>
        simp only [head, Option.map_some, Option.some.injEq] at first
        rw [isStart, activatedKeys, fresh, found] at unclaimed
        simp only [head, first] at unclaimed
        exact startedWork_forest forest unclaimed distinct
  · dsimp only at isDecide
    rw [isDecide] at unclaimed
    exact recorded.forest admitted forest unclaimed distinct
  · rw [after]
    exact forest

theorem insertAssignment_ok {work after : ReviewWork} {record : ReviewAssignment}
    {notice : ReviewNotificationEvent} (inserted : insertAssignment work record notice = .ok after) :
    record.id ∉ work.assignments.map (·.id) ∧
      after.assignments = work.assignments ++ [record] := by
  unfold insertAssignment at inserted
  split at inserted <;> [cases inserted; rename_i fresh]
  cases inserted
  exact ⟨fresh, rfl⟩

theorem replay_ok {existing row : ReviewAssignment} {request : CreateAssignmentRequest}
    (answered : replay existing request = .ok row) : row = existing := by
  unfold replay at answered
  split at answered <;> cases answered
  rfl

/-- An assignment by hand is answered from the record or adds a row that follows nothing. -/
theorem assign_returns {env : CallEnv} {db after : ReviewDb} {caller : Caller} {reviewId : Uuid}
    {request : CreateAssignmentRequest} {answer : ReviewAssignment × Bool}
    (returned : assign env db caller reviewId request = .ok (answer, after)) :
    after = db ∨ ∃ record work, record.predecessorAssignmentId = none ∧ record.status = .active ∧
      record.id ∉ db.work.assignments.map (·.id) ∧
      work.assignments = db.work.assignments ++ [record] ∧ after = { db with work := work } := by
  simp only [assign, bind, Except.bind] at returned
  split at returned <;> [cases returned; skip]
  split at returned <;> [cases returned; rename_i review found]
  split at returned <;> [cases returned; skip]
  split at returned
  · split at returned <;> cases returned
    exact .inl rfl
  · split at returned <;> [cases returned; rename_i work inserted]
    cases returned
    obtain ⟨fresh, rows⟩ := insertAssignment_ok inserted
    exact .inr ⟨_, work, rfl, rfl, fresh, rows, rfl⟩

theorem transferTarget_ok {env : CallEnv} {db : ReviewDb} {caller : Caller}
    {reviewId assignmentId : Uuid} {review : ReviewCase} {old : ReviewAssignment}
    (found : transferTarget env db caller reviewId assignmentId = .ok (review, old)) :
    review = db.reviewCase ∧ old ∈ db.work.assignments ∧ old.id = assignmentId := by
  simp only [transferTarget, bind, Except.bind] at found
  split at found <;> [cases found; skip]
  split at found <;> [cases found; rename_i reviewed]
  split at found <;> [cases found; rename_i old' stored]
  cases found
  have here : db.reviewCase = review := by
    unfold collaborationReview at reviewed
    split at reviewed <;> [exact Except.ok.inj reviewed; cases reviewed]
  have holds := List.find?_some stored
  exact ⟨here.symm, List.mem_of_find?_eq_some stored, (of_decide_eq_true holds).1⟩

/-- A transfer is answered from the record, or hands an active assignment on to a new row. -/
inductive Transferred (env : CallEnv) (db : ReviewDb) (caller : Caller)
    (reviewId assignmentId : Uuid) (request : ReassignAssignmentRequest) (kind : TransferKind)
    (after : ReviewDb) : Prop
  | replayed (review : ReviewCase) (old existing : ReviewAssignment)
      (target : transferTarget env db caller reviewId assignmentId = .ok (review, old))
      (recorded : assignmentByKey db.work review.id request.idempotencyKey = some existing)
      (same : replay existing request.toCreateAssignmentRequest = .ok existing)
      (unchanged : after = db)
  | handedOn (old record : ReviewAssignment)
      (inside : old ∈ db.work.assignments) (named : old.id = assignmentId)
      (active : old.status = .active)
      (link : record.predecessorAssignmentId = some old.id) (open_ : record.status = .active)
      (fresh : record.id ∉ db.work.assignments.map (·.id))
      (rows : after.work.assignments =
        Lib.Table.update (·.id) db.work.assignments old.id (handOn env.now kind) ++ [record])

theorem transfer_returns {env : CallEnv} {db after : ReviewDb} {caller : Caller}
    {reviewId assignmentId : Uuid} {request : ReassignAssignmentRequest} {kind : TransferKind}
    {answer : ReviewAssignment × Bool}
    (returned : transfer env db caller reviewId assignmentId request kind = .ok (answer, after)) :
    Transferred env db caller reviewId assignmentId request kind after := by
  simp only [transfer, bind, Except.bind] at returned
  split at returned <;> [cases returned; rename_i pair target]
  obtain ⟨review, old⟩ := pair
  dsimp only at returned
  split at returned
  · rename_i existing recorded
    split at returned <;> [cases returned; rename_i row answered]
    cases returned
    rw [replay_ok answered] at answered
    exact .replayed review old existing target recorded answered rfl
  · split at returned <;> [cases returned; rename_i current]
    push Not at current
    split at returned <;> [cases returned; skip]
    split at returned <;> [cases returned; rename_i work inserted]
    cases returned
    obtain ⟨-, inside, named⟩ := transferTarget_ok target
    obtain ⟨fresh, rows⟩ := insertAssignment_ok inserted
    rw [show (Lib.Table.update (·.id) db.work.assignments old.id (handOn env.now kind)).map (·.id) =
      db.work.assignments.map (·.id) from Lib.Table.map_update fun _ => rfl] at fresh
    exact .handedOn old _ inside named current.2 rfl rfl fresh rows

/-- Assignment `assignmentId` has been handed on, to exactly one other. -/
def HandedOnOnce (rows : List ReviewAssignment) (assignmentId : Uuid) : Prop :=
  ∃ row ∈ rows, row.id = assignmentId ∧ row.HandedOn ∧
    (successors (·.predecessorAssignmentId) rows assignmentId).length = 1

instance (rows : List ReviewAssignment) (assignmentId : Uuid) :
    Decidable (HandedOnOnce rows assignmentId) :=
  inferInstanceAs (Decidable (∃ row ∈ rows, _ ∧ _ ∧ _))

theorem Transferred.forest {env : CallEnv} {db after : ReviewDb} {caller : Caller}
    {reviewId assignmentId : Uuid} {request : ReassignAssignmentRequest} {kind : TransferKind}
    (transferred : Transferred env db caller reviewId assignmentId request kind after)
    (forest : TransferForest db.work.assignments)
    (undisturbed : Undisturbed db ⟨env, .transfer caller reviewId assignmentId request kind⟩) :
    TransferForest after.work.assignments ∧ HandedOnOnce after.work.assignments assignmentId := by
  cases transferred with
  | replayed review old existing target recorded same unchanged =>
      obtain ⟨-, inside, named⟩ := transferTarget_ok target
      have handed := undisturbed review old existing target recorded same
      have one := (forest.handed_iff old inside).mp handed
      rw [unchanged]
      exact ⟨forest, old, inside, named, handed, named ▸ one⟩
  | handedOn old record inside named active link open_ fresh rows =>
      have marks : (handOn env.now kind old).HandedOn := by
        cases kind <;> simp [ReviewAssignment.HandedOn, handOn, TransferKind.status]
      have unmarked : ¬ old.HandedOn := by simp [ReviewAssignment.HandedOn, active]
      have grown : TransferForest (Lib.Table.update (·.id) db.work.assignments old.id
          (handOn env.now kind) ++ [record]) := IsForest.handOn forest inside (fun _ => rfl) (fun _ => rfl)
        marks unmarked fresh link (by simp [ReviewAssignment.HandedOn, open_])
      have member : handOn env.now kind old ∈ Lib.Table.update (·.id) db.work.assignments old.id
          (handOn env.now kind) ++ [record] :=
        List.mem_append_left _ (Lib.Table.mem_update.mpr ⟨old, inside, if_pos rfl⟩)
      have one := (grown.handed_iff (handOn env.now kind old) member).mp marks
      rw [rows]
      exact ⟨grown, handOn env.now kind old, member, named, marks, named ▸ one⟩

/-- A call that meets the condition keeps the forest. -/
theorem reviewStep_forest {db : ReviewDb} {event : ReviewEvent}
    (forest : TransferForest db.work.assignments) (undisturbed : Undisturbed db event) :
    TransferForest (reviewStep db event).work.assignments := by
  obtain ⟨env, call⟩ := event
  cases call with
  | workflow call =>
      simp only [reviewStep]
      split_ifs with distinct
      · exact step_forest forest undisturbed distinct
      · exact forest
  | assign caller reviewId request =>
      cases returned : assign env db caller reviewId request with
      | error e => simpa only [reviewStep, returned] using forest
      | ok result =>
          simp only [reviewStep, returned]
          rcases assign_returns returned with same | ⟨record, work, root, open_, fresh, rows, after⟩
          · rwa [same]
          · rw [after]
            dsimp only
            rw [rows]
            exact forest.plant fresh root (by simp [ReviewAssignment.HandedOn, open_])
  | transfer caller reviewId assignmentId request kind =>
      cases returned : transfer env db caller reviewId assignmentId request kind with
      | error e => simpa only [reviewStep, returned] using forest
      | ok result =>
          simp only [reviewStep, returned]
          exact ((transfer_returns returned).forest forest undisturbed).1

/-- In a run whose calls all meet the condition the assignments are a forest at every moment,
and every transfer that returns has handed its assignment on, to exactly one other. -/
theorem run_transfersForest {db : ReviewDb} {events : List ReviewEvent}
    (empty : db.work.assignments = [])
    (undisturbed : ∀ pre event post, events = pre ++ event :: post →
      Undisturbed (run reviewStep db pre) event) :
    (∀ pre post, events = pre ++ post →
      TransferForest (run reviewStep db pre).work.assignments) ∧
    ∀ pre env caller reviewId assignmentId request kind post answer after,
      events = pre ++ ⟨env, .transfer caller reviewId assignmentId request kind⟩ :: post →
      transfer env (run reviewStep db pre) caller reviewId assignmentId request kind =
        .ok (answer, after) →
      HandedOnOnce after.work.assignments assignmentId := by
  have forest : ∀ pre post, events = pre ++ post →
      TransferForest (run reviewStep db pre).work.assignments := by
    intro pre post split
    refine run_invariant_along Undisturbed (fun db => TransferForest db.work.assignments) ?_
      (fun db event met forest => reviewStep_forest forest met) fun before event rest inside => ?_
    · rw [empty]
      exact IsForest.nil
    · refine undisturbed before event (rest ++ post) ?_
      rw [split, inside, List.append_assoc, List.cons_append]
  refine ⟨forest, ?_⟩
  intro pre env caller reviewId assignmentId request kind post answer after split returned
  exact ((transfer_returns returned).forest (forest pre _ split)
    (undisturbed pre _ post split)).2

/-- Two users whose memberships open the sample workspace. -/
def sampleMembers : MembershipGraph where
  memberships := [⟨.ofNat 61, .ofNat 1, .ofNat 21, .legalReviewer⟩,
    ⟨.ofNat 62, .ofNat 1, .ofNat 22, .legalReviewer⟩]
  workspaceMemberships := [⟨.ofNat 2, .ofNat 61⟩, ⟨.ofNat 2, .ofNat 62⟩]

def sampleCaller : Caller := ⟨.ofNat 20, .ofNat 1, .ofNat 2, true⟩

def sampleAssign (turn assignee : Nat) (key : String) : ReviewEvent :=
  ⟨sampleEnv sampleMembers turn, .assign sampleCaller (.ofNat 3) ⟨.ofNat assignee, none, key⟩⟩

/-- The hand-over of the assignment made in an earlier turn. -/
def sampleTransfer (turn made assignee : Nat) (key : String) : ReviewEvent :=
  ⟨sampleEnv sampleMembers turn, .transfer sampleCaller (.ofNat 3) (.ofNat (1000 * made))
    ⟨⟨.ofNat assignee, none, key⟩, 0⟩ .delegate⟩

theorem run_transfersForest_sample :
    TransferForest (run reviewStep (sampleDb twoStagePolicies)
      [sampleAssign 1 21 "a", sampleTransfer 2 1 22 "b"]).work.assignments ∧
    ∃ answer after, transfer (sampleEnv sampleMembers 2)
        (run reviewStep (sampleDb twoStagePolicies) [sampleAssign 1 21 "a"]) sampleCaller
        (.ofNat 3) (.ofNat 1000) ⟨⟨.ofNat 22, none, "b"⟩, 0⟩ .delegate = .ok (answer, after) ∧
      HandedOnOnce after.work.assignments (.ofNat 1000) := by
  have unused : assignmentByKey
      (run reviewStep (sampleDb twoStagePolicies) [sampleAssign 1 21 "a"]).work
      (run reviewStep (sampleDb twoStagePolicies) [sampleAssign 1 21 "a"]).reviewCase.id "b" =
        none := by decide +kernel
  have met : ∀ pre event post, [sampleAssign 1 21 "a", sampleTransfer 2 1 22 "b"] =
      pre ++ event :: post →
      Undisturbed (run reviewStep (sampleDb twoStagePolicies) pre) event := by
    intro pre event post split
    rcases pre with _ | ⟨first, _ | ⟨second, rest⟩⟩
    · cases split
      trivial
    · cases split
      intro review old existing target recorded
      rw [(transferTarget_ok target).1] at recorded
      rw [show (⟨⟨.ofNat 22, none, "b"⟩, 0⟩ : ReassignAssignmentRequest).idempotencyKey = "b"
        from rfl, unused] at recorded
      cases recorded
    · simp at split
  obtain ⟨forest, hands⟩ := @run_transfersForest (sampleDb twoStagePolicies) _ rfl met
  refine ⟨forest _ [] (List.append_nil _).symm, ?_⟩
  cases returned : transfer (sampleEnv sampleMembers 2)
      (run reviewStep (sampleDb twoStagePolicies) [sampleAssign 1 21 "a"]) sampleCaller
      (.ofNat 3) (.ofNat 1000) ⟨⟨.ofNat 22, none, "b"⟩, 0⟩ .delegate with
  | error e =>
      have succeeds : (transfer (sampleEnv sampleMembers 2)
        (run reviewStep (sampleDb twoStagePolicies) [sampleAssign 1 21 "a"]) sampleCaller
        (.ofNat 3) (.ofNat 1000) ⟨⟨.ofNat 22, none, "b"⟩, 0⟩ .delegate).isOk = true := by
        decide +kernel
      rw [returned] at succeeds
      cases succeeds
  | ok result =>
      exact ⟨result.1, result.2, rfl, hands [sampleAssign 1 21 "a"] _ _ _ _ _ _ [] result.1 result.2
        rfl returned⟩

/-- Every transfer that returns hands its assignment on, and the assignments stay a forest. -/
def TransfersHandOn : Prop :=
  ∀ (db : ReviewDb) (events : List ReviewEvent), db.work.assignments = [] →
    (∀ pre post, events = pre ++ post →
      TransferForest (run reviewStep db pre).work.assignments) ∧
    ∀ pre env caller reviewId assignmentId request kind post answer after,
      events = pre ++ ⟨env, .transfer caller reviewId assignmentId request kind⟩ :: post →
      transfer env (run reviewStep db pre) caller reviewId assignmentId request kind =
        .ok (answer, after) →
      HandedOnOnce after.work.assignments assignmentId

/-- The second assignment is to be delegated under the key of the first: the call returns the
first one, and the second is still active and followed by nobody. -/
theorem not_transfersHandOn : ¬ TransfersHandOn := by
  intro promised
  obtain ⟨-, hands⟩ := promised (sampleDb twoStagePolicies)
    [sampleAssign 1 22 "a", sampleAssign 2 21 "b", sampleTransfer 3 2 22 "a"] rfl
  have succeeds : (transfer (sampleEnv sampleMembers 3) (run reviewStep (sampleDb twoStagePolicies)
      [sampleAssign 1 22 "a", sampleAssign 2 21 "b"]) sampleCaller (.ofNat 3) (.ofNat 2000)
      ⟨⟨.ofNat 22, none, "a"⟩, 0⟩ .delegate).isOk = true := by
    decide +kernel
  have untouched : ∀ result, transfer (sampleEnv sampleMembers 3)
      (run reviewStep (sampleDb twoStagePolicies) [sampleAssign 1 22 "a", sampleAssign 2 21 "b"])
      sampleCaller (.ofNat 3) (.ofNat 2000) ⟨⟨.ofNat 22, none, "a"⟩, 0⟩ .delegate = .ok result →
      ¬ HandedOnOnce result.2.work.assignments (.ofNat 2000) := by
    intro result returned
    have after : result.2 = reviewStep (run reviewStep (sampleDb twoStagePolicies)
        [sampleAssign 1 22 "a", sampleAssign 2 21 "b"]) (sampleTransfer 3 2 22 "a") := by
      simp only [reviewStep, sampleTransfer]
      rw [returned]
    rw [after]
    decide +kernel
  cases returned : transfer (sampleEnv sampleMembers 3) (run reviewStep (sampleDb twoStagePolicies)
      [sampleAssign 1 22 "a", sampleAssign 2 21 "b"]) sampleCaller (.ofNat 3) (.ofNat 2000)
      ⟨⟨.ofNat 22, none, "a"⟩, 0⟩ .delegate with
  | error e =>
      rw [returned] at succeeds
      cases succeeds
  | ok result =>
      exact untouched result returned (hands [sampleAssign 1 22 "a", sampleAssign 2 21 "b"] _ _ _ _
        _ _ [] result.1 result.2 rfl returned)

end AgreementIntelligence.Reviews
