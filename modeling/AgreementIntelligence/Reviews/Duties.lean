import AgreementIntelligence.Reviews.Structure

/-! Separation of duties over whole runs. The membership graph and everything else a call
reads may differ from one call to the next; what the recorded decisions have in common is
what the guards saw when each of them was made. -/

namespace AgreementIntelligence.Reviews
open Identity ApprovalPolicies Lib.Runs

/-- The rules of the workflow's policy version hold of all approvals on record. -/
structure Separated (db : ReviewDb) : Prop where
  crossStage : ∀ workflow version, db.workflow = some workflow →
    db.policies.version? workflow.policyVersionId = some version →
    version.allowCrossStageSameApprover = false →
    ∀ first ∈ db.decisions, ∀ second ∈ db.decisions, first.action = .approve →
      second.action = .approve → first.actorId = second.actorId →
      first.workflowStageId = second.workflowStageId
  submitter : ∀ workflow version, db.workflow = some workflow →
    db.policies.version? workflow.policyVersionId = some version →
    version.submitterMayApprove = false →
    ∀ decision ∈ db.decisions, decision.action = .approve →
      decision.actorId ≠ db.reviewCase.createdBy

theorem Separated.of_empty {db : ReviewDb} (empty : db.decisions = []) : Separated db where
  crossStage _ _ _ _ _ first member := by simp [empty] at member
  submitter _ _ _ _ _ decision member := by simp [empty] at member

/-- Rows that belong to the same policy version, the same creator and the same decisions. -/
theorem Separated.of_same {db after : ReviewDb} {workflow workflow' : ReviewWorkflow}
    (separated : Separated db) (stored : db.workflow = some workflow)
    (stored' : after.workflow = some workflow')
    (version : workflow'.policyVersionId = workflow.policyVersionId)
    (policies : after.policies = db.policies) (decisions : after.decisions = db.decisions)
    (createdBy : after.reviewCase.createdBy = db.reviewCase.createdBy) : Separated after where
  crossStage w v held found strict := by
    rw [stored'] at held
    cases held
    rw [policies, version] at found
    rw [decisions]
    exact separated.crossStage workflow v stored found strict
  submitter w v held found strict := by
    rw [stored'] at held
    cases held
    rw [policies, version] at found
    rw [decisions, createdBy]
    exact separated.submitter workflow v stored found strict

theorem Recorded.separated {env : CallEnv} {db after : ReviewDb} {req : DecideRequest}
    {admission : Admission} (recorded : Recorded env db req admission after)
    (admitted : Admitted env db req admission) (separated : Separated db)
    (owned : ∀ decision ∈ db.decisions, decision.workflowId = admission.workflow.id) :
    Separated after := by
  obtain ⟨workflow', kept⟩ := recorded.frame
  have stored := (workflow?_eq_some.mp admitted.stored).1
  constructor
  · intro w version held found strict first firstIn second secondIn firstOk secondOk same
    rw [kept.stored] at held
    cases held
    rw [kept.policies, kept.policyVersionId] at found
    have guarded : req.action = .approve → ∀ decision ∈ db.decisions, decision.action = .approve →
        decision.actorId = req.actorId → decision.workflowStageId = admission.stage.id := by
      intro approves decision member ok actor
      have loaded := admitted.policyVersion
      rw [found] at loaded
      cases loaded
      exact hasPriorApproval_eq_false.mp (admitted.crossStage approves strict) decision member
        (owned decision member) actor ok
    rw [kept.decisions, List.mem_append, List.mem_singleton] at firstIn secondIn
    rcases firstIn with firstOld | rfl <;> rcases secondIn with secondOld | rfl
    · exact separated.crossStage _ _ stored found strict _ firstOld _ secondOld firstOk secondOk same
    · exact guarded secondOk first firstOld firstOk same
    · exact (guarded firstOk second secondOld secondOk same.symm).symm
    · rfl
  · intro w version held found strict decision member ok
    rw [kept.stored] at held
    cases held
    rw [kept.policies, kept.policyVersionId] at found
    rw [kept.createdBy]
    rw [kept.decisions, List.mem_append, List.mem_singleton] at member
    rcases member with old | rfl
    · exact separated.submitter _ _ stored found strict _ old ok
    · have loaded := admitted.policyVersion
      rw [found] at loaded
      cases loaded
      rw [← (review_ok_iff.mp admitted.review).2.2]
      exact admitted.submitter ok strict

theorem step_separated (db : ReviewDb) (event : Event)
    (holds : Consistent db ∧ Separated db) :
    Consistent (step db event) ∧ Separated (step db event) := by
  obtain ⟨consistent, separated⟩ := holds
  refine ⟨step_consistent db event consistent, ?_⟩
  rcases step_cases db event with same | ⟨_, _, _, -, fresh, started⟩ |
    ⟨req, admission, -, admitted, recorded⟩ | ⟨now, escalated⟩
  · rwa [same]
  · rcases consistent with ⟨-, empty⟩ | ⟨workflow, version, phase, follows⟩
    · obtain ⟨version, activeOrdinal, work, event', audit, -, -, -, -, after, -⟩ := started
      rw [after]
      exact .of_empty empty
    · rw [follows.stored] at fresh
      cases fresh
  · have stored := (workflow?_eq_some.mp admitted.stored).1
    rcases consistent with ⟨fresh, -⟩ | ⟨workflow, version, phase, follows⟩
    · rw [fresh] at stored
      cases stored
    · rw [follows.stored] at stored
      cases stored
      exact recorded.separated admitted separated follows.decisions
  · obtain ⟨workflow, stage, event', audit, stored, -, -, after⟩ := escalated
    rw [after]
    exact separated.of_same stored rfl rfl rfl rfl rfl

/-- The stage was active and the actor was eligible for it when the decision was recorded. -/
def MadeAt (before : ReviewDb) (event : Event) (decision : ReviewWorkflowDecision) : Prop :=
  decision ∉ before.decisions ∧ decision ∈ (step before event).decisions ∧
    ∃ workflow stage policyStage, before.workflow = some workflow ∧
      activeStage workflow = .ok stage ∧ decision.workflowStageId = stage.id ∧
      before.policies.stage? stage.policyStageId = some policyStage ∧
      actorIsEligible event.env.memberships decision.actorId workflow policyStage = true

/-- Only a recorded decision adds to the decisions. -/
theorem madeAt_of_new {before : ReviewDb} {event : Event} {decision : ReviewWorkflowDecision}
    (absent : decision ∉ before.decisions)
    (present : decision ∈ (step before event).decisions) : MadeAt before event decision := by
  refine ⟨absent, present, ?_⟩
  rcases step_cases before event with same | ⟨_, _, _, -, fresh, started⟩ |
    ⟨req, admission, -, admitted, recorded⟩ | ⟨now, escalated⟩
  · rw [same] at present
    exact absurd present absent
  · obtain ⟨version, activeOrdinal, work, event', audit, -, -, -, -, after, -⟩ := started
    rw [after] at present
    exact absurd present absent
  · obtain ⟨workflow', kept⟩ := recorded.frame
    rw [kept.decisions, List.mem_append, List.mem_singleton] at present
    have new := present.resolve_left absent
    refine ⟨admission.workflow, admission.stage, admission.policyStage,
      (workflow?_eq_some.mp admitted.stored).1, admitted.stage, ?_, admitted.policyStage, ?_⟩
    · rw [new]
      rfl
    · rw [new]
      exact admitted.eligible
  · obtain ⟨workflow, stage, event', audit, -, -, -, after⟩ := escalated
    rw [after] at present
    exact absurd present absent

/-- An approval turned the stage row into a completed one. -/
def CompletedByApproval (before : ReviewDb) (event : Event) (workflow : ReviewWorkflow)
    (row : ReviewWorkflowStage) : Prop :=
  (∃ req, event.call = .decide req ∧ req.action = .approve) ∧
    (∃ old, before.workflow = some old ∧
      ∃ stage ∈ old.stages, stage.id = row.id ∧ stage.state ≠ .completed) ∧
    (step before event).workflow = some workflow ∧ row ∈ workflow.stages ∧ row.state = .completed

/-- A stage completed by an approval was satisfied by the decisions then on record. -/
theorem CompletedByApproval.satisfied {before : ReviewDb} {event : Event}
    {workflow : ReviewWorkflow} {row : ReviewWorkflowStage} (consistent : Consistent before)
    (completed : CompletedByApproval before event workflow row) :
    stageIsSatisfied (step before event) workflow row = .ok true ∧
      ∃ req admission, event.call = .decide req ∧ Admitted event.env before req admission ∧
        Recorded event.env before req admission (step before event) ∧
        row.policyStageId = admission.stage.policyStageId := by
  obtain ⟨⟨req, isDecide, approves⟩, ⟨old, stored, stage, inOld, same, unfinished⟩, stored',
    member, done⟩ := completed
  rcases consistent with ⟨fresh, -⟩ | ⟨workflow', version, phase, follows⟩
  · rw [fresh] at stored
    cases stored
  rw [follows.stored] at stored
  cases stored
  -- A step that adds no decision leaves the states of the stage rows as they were.
  have pending : ∀ source ∈ old.stages, source.id = row.id → source.state ≠ .completed := by
    intro source inside equal
    rwa [List.inj_on_of_nodup_map follows.stageIds inside inOld (equal.trans same.symm)]
  rcases step_cases before event with idle | ⟨_, _, _, -, fresh, -⟩ |
    ⟨req', admission, isDecide', admitted, recorded⟩ | ⟨now, escalated⟩
  · rw [idle, follows.stored] at stored'
    cases stored'
    exact absurd done (pending row member rfl)
  · rw [follows.stored] at fresh
    cases fresh
  · rw [isDecide] at isDecide'
    cases isDecide'
    have loaded := (workflow?_eq_some.mp admitted.stored).1
    rw [follows.stored] at loaded
    cases loaded
    have active := List.mem_of_find?_eq_some (activeStage_ok.mp admitted.stage)
    obtain ⟨here, policy, met⟩ := recorded.completes follows.stageIds active stored' member done
      inOld same unfinished
    obtain ⟨final, kept⟩ := recorded.frame
    rw [kept.stored] at stored'
    cases stored'
    refine ⟨?_, req, admission, isDecide, admitted, recorded, policy⟩
    have satisfied := met approves
    unfold stageIsSatisfied stageApprovals at satisfied ⊢
    rw [kept.policies, kept.decisions, kept.id, here, policy]
    exact satisfied
  · obtain ⟨workflow', stage', event', audit, stored'', -, -, after⟩ := escalated
    rw [follows.stored] at stored''
    cases stored''
    rw [after] at stored'
    cases stored'
    obtain ⟨source, inside, rfl⟩ := Lib.Table.mem_update.mp member
    have sameRow : source.id = (if source.id = stage'.id then escalateStage now source
        else source).id := by split <;> rfl
    have sameState : source.state = (if source.id = stage'.id then escalateStage now source
        else source).state := by split <;> rfl
    exact absurd (sameState.trans done) (pending source inside sameRow)

/-- The distinct actors with an approval on record for a stage row. -/
def approverCount (db : ReviewDb) (workflow : ReviewWorkflow) (row : ReviewWorkflowStage) : Nat :=
  ((stageApprovals db workflow row).map (·.actorId)).dedup.length

theorem quorum_of_satisfied {db : ReviewDb} {workflow : ReviewWorkflow}
    {row : ReviewWorkflowStage} {policyStage : ApprovalPolicyStage} {quorum : Nat}
    (satisfied : stageIsSatisfied db workflow row = .ok true)
    (found : db.policies.stage? row.policyStageId = some policyStage)
    (mode : policyStage.approvalMode = .quorum) (stored : policyStage.quorumCount = some quorum) :
    quorum ≤ approverCount db workflow row := by
  simp only [stageIsSatisfied, found, mode, stored, Except.ok.injEq, decide_eq_true_eq] at satisfied
  cases quorum with
  | zero => exact Nat.zero_le _
  | succ quorum => exact satisfied

/-- Separation of duties: every run of calls from a review nobody has started keeps the rules
of its policy, records decisions at the active stage by actors eligible at that moment only,
and completes a quorum stage by approval only with its quorum of distinct approvers. -/
theorem run_dutiesSeparated {db : ReviewDb} (initial : Initial db) (events : List Event) :
    Separated (run step db events) ∧
    (∀ decision ∈ (run step db events).decisions, ∃ pre event post,
      events = pre ++ event :: post ∧ MadeAt (run step db pre) event decision) ∧
    ∀ pre event post, events = pre ++ event :: post → ∀ workflow row policyStage quorum,
      CompletedByApproval (run step db pre) event workflow row →
      db.policies.stage? row.policyStageId = some policyStage →
      policyStage.approvalMode = .quorum → policyStage.quorumCount = some quorum →
      quorum ≤ approverCount (step (run step db pre) event) workflow row := by
  have holds : ∀ inputs, Consistent (run step db inputs) ∧ Separated (run step db inputs) :=
    fun inputs => run_invariant (fun db => Consistent db ∧ Separated db) ⟨.inl initial, .of_empty initial.2⟩ step_separated
  refine ⟨(holds events).2, ?_, ?_⟩
  · intro decision member
    have before : decision ∉ db.decisions := by simp [initial.2]
    obtain ⟨pre, event, post, split, absent, present⟩ := exists_step_of_begins (decision ∈ ReviewDb.decisions ·) before member
    exact ⟨pre, event, post, split, madeAt_of_new absent present⟩
  · intro pre event post _ workflow row policyStage quorum completed found mode stored
    refine quorum_of_satisfied (completed.satisfied (holds pre).1).1 ?_ mode stored
    rwa [step_policies, run_policies]

def quorumPolicies : PolicyTables where
  versions := [sampleVersion [sampleStage 11 1 .quorum (some 2) [] [21, 22, 23]]]
  publishedValid := by decide
  versionIds := by decide
  stageIds := by decide

def quorumRun : List Event :=
  [sampleStart noMembers, sampleDecide noMembers 2 21 .approve 0,
    sampleDecide noMembers 3 22 .approve 1]

theorem run_dutiesSeparated_sample :
    (run step (sampleDb quorumPolicies) quorumRun).decisions.length = 2 ∧
      Separated (run step (sampleDb quorumPolicies) quorumRun) ∧
      ∀ decision ∈ (run step (sampleDb quorumPolicies) quorumRun).decisions,
        ∃ pre event post, quorumRun = pre ++ event :: post ∧
          MadeAt (run step (sampleDb quorumPolicies) pre) event decision :=
  ⟨by decide, (run_dutiesSeparated ⟨rfl, rfl⟩ quorumRun).1,
    (run_dutiesSeparated ⟨rfl, rfl⟩ quorumRun).2.1⟩

end AgreementIntelligence.Reviews
