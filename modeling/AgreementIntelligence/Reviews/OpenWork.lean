import AgreementIntelligence.Reviews.Transfers

/-! Open work when a review ends. A rejection or a request for changes completes every active
assignment of the review. The last approval completes those whose key names its stage, so an
assignment made by hand or taken over in a transfer stays active in an approved review. -/

namespace AgreementIntelligence.Reviews
open Identity ApprovalPolicies Lib.Runs

def NoOpenWork (db : ReviewDb) : Prop :=
  ∀ row ∈ db.work.assignments, row.reviewId = db.reviewCase.id → row.status ≠ .active

instance (db : ReviewDb) : Decidable (NoOpenWork db) :=
  inferInstanceAs (Decidable (∀ row ∈ db.work.assignments, _ → _))

/-- The workflow was waiting for an approval and is in a terminal state now. -/
def EndsReview (before after : ReviewDb) : Prop :=
  (∃ workflow ∈ before.workflow, workflow.state = .waitingForApproval) ∧
    ∃ workflow ∈ after.workflow, workflow.state ≠ .waitingForApproval

instance (before after : ReviewDb) : Decidable (EndsReview before after) :=
  inferInstanceAs (Decidable ((∃ workflow ∈ before.workflow, _) ∧ ∃ workflow ∈ after.workflow, _))

/-- Every active assignment of the review has the key prefix of the stage that is waited at. -/
def UnderActiveStage (db : ReviewDb) : Prop :=
  ∀ workflow ∈ db.workflow, ∀ stage ∈ workflow.stages.find? (fun row => row.state = .active),
    ∀ row ∈ db.work.assignments, row.reviewId = db.reviewCase.id → row.status = .active →
      (stageKeyPrefix workflow.id stage.ordinal).toList.isPrefixOf row.idempotencyKey.toList

instance (db : ReviewDb) : Decidable (UnderActiveStage db) :=
  inferInstanceAs (Decidable (∀ workflow ∈ db.workflow, ∀ stage ∈ workflow.stages.find? _,
    ∀ row ∈ db.work.assignments, _ → _ → _))

theorem closedWork_closes {workflow : ReviewWorkflow} {work : ReviewWork} {row : ReviewAssignment}
    (member : row ∈ (closedWork workflow work).assignments)
    (own : row.reviewId = workflow.reviewId) : row.status ≠ .active := by
  obtain ⟨source, -, rfl⟩ := List.mem_map.mp member
  split_ifs at own ⊢ with hit
  · simp
  · exact fun active => hit ⟨own, active⟩

/-- Completing a stage's assignments closes all work exactly when all of it is the stage's. -/
theorem completeAssignments_closes_iff {workflow : ReviewWorkflow} {stage : ReviewWorkflowStage}
    {work : ReviewWork} :
    (∀ row ∈ (completeAssignments workflow stage work).assignments,
      row.reviewId = workflow.reviewId → row.status ≠ .active) ↔
    ∀ row ∈ work.assignments, row.reviewId = workflow.reviewId → row.status = .active →
      (stageKeyPrefix workflow.id stage.ordinal).toList.isPrefixOf row.idempotencyKey.toList := by
  simp only [completeAssignments, List.forall_mem_map]
  refine forall₂_congr fun row member => ?_
  split_ifs with hit
  · exact iff_of_true (by simp) fun _ _ => hit.2.2
  · constructor
    · exact fun closed own active => absurd active (closed own)
    · exact fun covered own active => hit ⟨own, active, covered own active⟩

/-- What a recorded decision that ends the review leaves open. -/
theorem Recorded.noOpenWork_iff {env : CallEnv} {db after : ReviewDb} {req : DecideRequest}
    {admission : Admission} (recorded : Recorded env db req admission after)
    (admitted : Admitted env db req admission) (ends : EndsReview db after) :
    NoOpenWork after ↔ (req.action = .approve → UnderActiveStage db) := by
  have own : db.reviewCase.id = admission.workflow.reviewId :=
    (review_ok_iff.mp admitted.review).1
  have stored : db.workflow = some admission.workflow := (workflow?_eq_some.mp admitted.stored).1
  obtain ⟨workflow, applied, event, done, -, rfl⟩ := recorded
  obtain ⟨-, ended, now, terminal⟩ := ends
  cases now
  generalize req.action = action at done
  cases done with
  | stays short =>
      exact absurd admitted.waiting terminal
  | moves work next met found worked =>
      exact absurd admitted.waiting terminal
  | finishes work met last worked =>
      have closes : NoOpenWork { db with work := work } ↔
          ∀ row ∈ db.work.assignments, row.reviewId = admission.workflow.reviewId →
            row.status = .active → (stageKeyPrefix admission.workflow.id
              admission.stage.ordinal).toList.isPrefixOf row.idempotencyKey.toList := by
        rw [NoOpenWork, own, worked]
        exact completeAssignments_closes_iff
      refine closes.trans ?_
      constructor
      · intro covered _ other found stage active row member here
        rw [stored] at found
        cases found
        rw [activeStage_ok.mp admitted.stage] at active
        cases active
        exact covered row member (here.trans own)
      · exact fun under row member here => under rfl admission.workflow stored admission.stage
          (activeStage_ok.mp admitted.stage) row member (here.trans own.symm)
  | stops work _ outcome stopping worked =>
      refine iff_of_true (fun row member here => ?_) fun approves => ?_
      · rw [worked] at member
        exact closedWork_closes member (here.trans own)
      · rw [approves] at stopping
        cases stopping

/-- In every run, a decision that ends the review leaves no assignment active exactly when it is
no approval or all active work is under the stage that was waited at. -/
theorem run_closesWork_iff {db : ReviewDb} {events : List ReviewEvent} {env : CallEnv}
    {req : DecideRequest}
    (ends : EndsReview (run reviewStep db events)
      (run reviewStep db (events ++ [⟨env, .workflow (.decide req)⟩]))) :
    NoOpenWork (run reviewStep db (events ++ [⟨env, .workflow (.decide req)⟩])) ↔
      (req.action = .approve → UnderActiveStage (run reviewStep db events)) := by
  rw [run_concat] at ends ⊢
  generalize run reviewStep db events = before at ends ⊢
  have moved : ∀ after, EndsReview before after → after.workflow ≠ before.workflow := by
    rintro after ⟨⟨workflow, stored, waiting⟩, ended, later, terminal⟩ same
    rw [same, stored] at later
    cases later
    exact terminal waiting
  simp only [reviewStep] at ends ⊢
  split_ifs at ends ⊢ with distinct
  · rcases step_cases before ⟨env, .decide req⟩ with same | ⟨_, _, _, isStart, -⟩ |
      ⟨req', admission, isDecide, admitted, recorded⟩ | ⟨now, workflow, stage, event, audit, stored,
        waiting, active, after⟩
    · exact absurd (congrArg ReviewDb.workflow same) (moved _ ends)
    · cases isStart
    · cases isDecide
      exact recorded.noOpenWork_iff admitted ends
    · obtain ⟨-, ended, later, terminal⟩ := ends
      rw [after] at later
      cases later
      exact absurd waiting terminal
  · exact absurd rfl (moved _ ends)

def onWorkflow (event : Event) : ReviewEvent := ⟨event.env, .workflow event.call⟩

/-- The sample review is approved by its two stages. -/
theorem run_closesWork_iff_sample :
    EndsReview
        (run reviewStep (sampleDb twoStagePolicies) [onWorkflow (sampleStart noMembers),
          onWorkflow (sampleDecide noMembers 2 21 .approve 0)])
        (run reviewStep (sampleDb twoStagePolicies) [onWorkflow (sampleStart noMembers),
          onWorkflow (sampleDecide noMembers 2 21 .approve 0),
          onWorkflow (sampleDecide noMembers 3 22 .approve 1)]) ∧
      NoOpenWork (run reviewStep (sampleDb twoStagePolicies) [onWorkflow (sampleStart noMembers),
        onWorkflow (sampleDecide noMembers 2 21 .approve 0),
        onWorkflow (sampleDecide noMembers 3 22 .approve 1)]) := by
  obtain ⟨ends, under⟩ : EndsReview
        (run reviewStep (sampleDb twoStagePolicies) [onWorkflow (sampleStart noMembers),
          onWorkflow (sampleDecide noMembers 2 21 .approve 0)])
        (run reviewStep (sampleDb twoStagePolicies) ([onWorkflow (sampleStart noMembers),
          onWorkflow (sampleDecide noMembers 2 21 .approve 0)] ++
          [onWorkflow (sampleDecide noMembers 3 22 .approve 1)])) ∧
      UnderActiveStage (run reviewStep (sampleDb twoStagePolicies)
        [onWorkflow (sampleStart noMembers),
          onWorkflow (sampleDecide noMembers 2 21 .approve 0)]) := by
    decide +kernel
  exact ⟨ends, (run_closesWork_iff ends).mpr fun _ => under⟩

/-- Every decision that ends a review leaves no assignment of it active. -/
def EndsClosed : Prop :=
  ∀ (db : ReviewDb) (events : List ReviewEvent) (env : CallEnv) (req : DecideRequest),
    Initial db → db.work.assignments = [] →
    EndsReview (run reviewStep db events)
      (run reviewStep db (events ++ [⟨env, .workflow (.decide req)⟩])) →
    NoOpenWork (run reviewStep db (events ++ [⟨env, .workflow (.decide req)⟩]))

/-- Somebody is assigned by hand before the two stages approve. -/
theorem not_endsClosed : ¬ EndsClosed := by
  intro promised
  obtain ⟨ends, opened⟩ : EndsReview
        (run reviewStep (sampleDb twoStagePolicies) [onWorkflow (sampleStart noMembers),
          sampleAssign 4 21 "k", onWorkflow (sampleDecide noMembers 2 21 .approve 0)])
        (run reviewStep (sampleDb twoStagePolicies) ([onWorkflow (sampleStart noMembers),
          sampleAssign 4 21 "k", onWorkflow (sampleDecide noMembers 2 21 .approve 0)] ++
          [onWorkflow (sampleDecide noMembers 3 22 .approve 1)])) ∧
      ¬ NoOpenWork (run reviewStep (sampleDb twoStagePolicies)
        ([onWorkflow (sampleStart noMembers), sampleAssign 4 21 "k",
          onWorkflow (sampleDecide noMembers 2 21 .approve 0)] ++
          [onWorkflow (sampleDecide noMembers 3 22 .approve 1)])) := by
    decide +kernel
  exact opened (promised (sampleDb twoStagePolicies)
    [onWorkflow (sampleStart noMembers), sampleAssign 4 21 "k",
      onWorkflow (sampleDecide noMembers 2 21 .approve 0)]
    (sampleDecide noMembers 3 22 .approve 1).env
    ⟨.ofNat 1000, .ofNat 22, .approve, "3", 1, "c"⟩ ⟨rfl, rfl⟩ rfl ends)

end AgreementIntelligence.Reviews
