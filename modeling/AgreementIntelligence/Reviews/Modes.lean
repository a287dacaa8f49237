import AgreementIntelligence.Lib.Coverage
import AgreementIntelligence.Reviews.Duties

/-! Approval modes against the people behind them. The coordinator compares a count of
distinct approvers with a number taken from the policy stage: one, the quorum, or the listed
roles plus the listed users. The results say exactly when that count implies that every
listed entry is covered, and when everyone who may approve can reach it. -/

namespace AgreementIntelligence.Reviews
open Identity ApprovalPolicies Lib.Runs Lib.Coverage

/-- How many distinct approvers the mode of a stage asks for. -/
def requiredApprovals (policyStage : ApprovalPolicyStage) : Nat :=
  match policyStage.approvalMode with
  | .any => 1
  | .quorum => quorumOrOne policyStage.quorumCount
  | .all => policyStage.eligibleCount

def eligibleActors (graph : MembershipGraph) (workflow : ReviewWorkflow)
    (policyStage : ApprovalPolicyStage) : Finset Uuid :=
  (eligibleActorIds graph workflow policyStage).toFinset

def approvers (db : ReviewDb) (workflow : ReviewWorkflow) (row : ReviewWorkflowStage) :
    Finset Uuid :=
  ((stageApprovals db workflow row).map (·.actorId)).toFinset

theorem approvers_card (db : ReviewDb) (workflow : ReviewWorkflow) (row : ReviewWorkflowStage) :
    (approvers db workflow row).card = approverCount db workflow row :=
  List.card_toFinset _

theorem mem_approvers {db : ReviewDb} {workflow : ReviewWorkflow} {row : ReviewWorkflowStage}
    {actorId : Uuid} : actorId ∈ approvers db workflow row ↔
      ∃ decision ∈ stageApprovals db workflow row, decision.actorId = actorId := by
  rw [approvers, List.mem_toFinset, List.mem_map]

theorem mem_eligibleActors {graph : MembershipGraph} {workflow : ReviewWorkflow}
    {policyStage : ApprovalPolicyStage} {actorId : Uuid} :
    actorId ∈ eligibleActors graph workflow policyStage ↔
      actorIsEligible graph actorId workflow policyStage = true := by
  simp only [eligibleActors, eligibleActorIds, actorIsEligible, List.mem_toFinset, List.mem_dedup,
    List.mem_append, List.mem_map, List.mem_filter, decide_eq_true_eq, Bool.or_eq_true,
    List.any_eq_true, Bool.and_eq_true]
  exact or_congr_right (exists_congr fun membership => and_right_comm.trans and_assoc)

theorem actorIsEligible_congr {graph : MembershipGraph} {actorId : Uuid}
    {workflow workflow' : ReviewWorkflow} {policyStage : ApprovalPolicyStage}
    (organization : workflow'.organizationId = workflow.organizationId)
    (workspace : workflow'.workspaceId = workflow.workspaceId) :
    actorIsEligible graph actorId workflow' policyStage =
      actorIsEligible graph actorId workflow policyStage := by
  rw [actorIsEligible, actorIsEligible, organization, workspace]

/-- A stage is satisfied when enough distinct actors have approved it. -/
theorem stageIsSatisfied_iff {db : ReviewDb} {workflow : ReviewWorkflow}
    {row : ReviewWorkflowStage} {policyStage : ApprovalPolicyStage}
    (found : db.policies.stage? row.policyStageId = some policyStage) :
    stageIsSatisfied db workflow row = .ok true ↔
      requiredApprovals policyStage ≤ (approvers db workflow row).card := by
  rw [approvers_card, approverCount, requiredApprovals]
  simp only [stageIsSatisfied, found]
  cases policyStage.approvalMode with
  | any =>
      simp only [Except.ok.injEq, Bool.not_eq_true', Nat.succ_le_iff, List.length_pos_iff,
        List.isEmpty_eq_false_iff, ne_eq, List.dedup_eq_nil, List.map_eq_nil_iff]
  | quorum => simp only [Except.ok.injEq, decide_eq_true_eq]
  | all => simp only [Except.ok.injEq, decide_eq_true_eq]

def withDecisions (db : ReviewDb) (decisions : List ReviewWorkflowDecision) : ReviewDb :=
  { db with decisions := decisions }

/-- Approvals of one stage row by the given actors and by nobody else. -/
def approvalsBy (workflow : ReviewWorkflow) (row : ReviewWorkflowStage) (actors : List Uuid) :
    List ReviewWorkflowDecision :=
  actors.map fun actorId =>
    { id := actorId
      workflowId := workflow.id
      workflowStageId := row.id
      actorId := actorId
      action := .approve
      idempotencyKey := actorId.str
      occurredAt := 0 }

theorem approvers_approvalsBy (db : ReviewDb) (workflow : ReviewWorkflow)
    (row : ReviewWorkflowStage) (actors : List Uuid) :
    approvers (withDecisions db (approvalsBy workflow row actors)) workflow row =
      actors.toFinset := by
  have all : stageApprovals (withDecisions db (approvalsBy workflow row actors)) workflow row =
      approvalsBy workflow row actors := by
    refine List.filter_eq_self.mpr fun decision member => ?_
    obtain ⟨actorId, -, rfl⟩ := List.mem_map.mp member
    simp
  rw [approvers, all, approvalsBy, List.map_map]
  congr 1
  exact List.map_id _

/-- Everyone who may approve a stage satisfies it by approving exactly when there is nobody or
when they are at least as many people as approvals are required. -/
theorem everyone_satisfies_iff {db : ReviewDb} {version : ApprovalPolicyVersion}
    {policyStage : ApprovalPolicyStage} {row : ReviewWorkflowStage}
    (listed : version ∈ db.policies.versions) (member : policyStage ∈ version.stages)
    (rowOf : row.policyStageId = policyStage.id) (graph : MembershipGraph)
    (workflow : ReviewWorkflow) :
    (∀ decisions, eligibleActorIds graph workflow policyStage ≠ [] →
      (∀ actorId ∈ eligibleActorIds graph workflow policyStage,
        ∃ decision ∈ stageApprovals (withDecisions db decisions) workflow row,
          decision.actorId = actorId) →
      stageIsSatisfied (withDecisions db decisions) workflow row = .ok true) ↔
    eligibleActorIds graph workflow policyStage = [] ∨
      requiredApprovals policyStage ≤ (eligibleActorIds graph workflow policyStage).length := by
  have found : db.policies.stage? row.policyStageId = some policyStage :=
    rowOf ▸ PolicyTables.stage?_of_mem listed member
  have distinct : (eligibleActorIds graph workflow policyStage).Nodup := List.nodup_dedup _
  by_cases nobody : eligibleActorIds graph workflow policyStage = []
  · simp [nobody]
  have satisfied : ∀ decisions,
      stageIsSatisfied (withDecisions db decisions) workflow row = .ok true ↔
        requiredApprovals policyStage ≤
          (approvers (withDecisions db decisions) workflow row).card :=
    fun decisions => stageIsSatisfied_iff found
  simp only [satisfied, ne_eq, nobody, not_false_eq_true, forall_const, false_or,
    ← mem_approvers]
  constructor
  · intro reaches
    have enough := reaches (approvalsBy workflow row (eligibleActorIds graph workflow policyStage))
    rw [approvers_approvalsBy] at enough
    rw [← List.toFinset_card_of_nodup distinct]
    exact enough fun actorId inside => List.mem_toFinset.mpr inside
  · intro enough decisions everyone
    rw [← List.toFinset_card_of_nodup distinct] at enough
    exact (everyone_reaches_iff _ _).mpr enough _ fun actorId inside =>
      everyone actorId (List.mem_toFinset.mp inside)

def bothUsers : ApprovalPolicyStage := sampleStage 11 1 .all none [] [21, 22]

def bothUsersPolicies : PolicyTables where
  versions := [sampleVersion [bothUsers]]
  publishedValid := by decide
  versionIds := by decide
  stageIds := by decide

def bothUsersWorkflow : ReviewWorkflow :=
  startWorkflow (sampleEnv noMembers 1) (sampleDb bothUsersPolicies).reviewCase
    (sampleVersion [bothUsers]) 1

def bothUsersRow : ReviewWorkflowStage :=
  startStage (sampleEnv noMembers 1) (.ofNat 1000) 1 bothUsers 0

theorem everyone_satisfies_sample :
    stageIsSatisfied (withDecisions (sampleDb bothUsersPolicies)
      (approvalsBy bothUsersWorkflow bothUsersRow [.ofNat 21, .ofNat 22])) bothUsersWorkflow
      bothUsersRow = .ok true :=
  (@everyone_satisfies_iff (sampleDb bothUsersPolicies) (sampleVersion [bothUsers]) bothUsers
    bothUsersRow (List.mem_singleton_self _) (List.mem_singleton_self _) rfl noMembers
    bothUsersWorkflow).mpr (by decide) _ (by decide) (by decide)

/-- What publication would have to promise: a stage that everyone eligible has approved is
satisfied, where the submitter and earlier approvers may approve. -/
def NeverDeadlocks : Prop :=
  ∀ (db : ReviewDb) (version : ApprovalPolicyVersion) (policyStage : ApprovalPolicyStage)
    (graph : MembershipGraph) (workflow : ReviewWorkflow) (row : ReviewWorkflowStage),
    version ∈ db.policies.versions → validateDraft version = .ok () →
    version.submitterMayApprove = true → version.allowCrossStageSameApprover = true →
    policyStage ∈ version.stages → row.policyStageId = policyStage.id →
    db.workflow = some workflow → activeStage workflow = .ok row →
    eligibleActorIds graph workflow policyStage ≠ [] →
    (∀ actorId ∈ eligibleActorIds graph workflow policyStage,
      ∃ decision ∈ stageApprovals db workflow row, decision.actorId = actorId) →
    stageIsSatisfied db workflow row = .ok true

def lenientVersion (stages : List ApprovalPolicyStage) : ApprovalPolicyVersion :=
  { sampleVersion stages with submitterMayApprove := true, allowCrossStageSameApprover := true }

/-- One stage for all of a role and a user, where the user is the only one who has the role. -/
def overlappingPolicies : PolicyTables where
  versions := [lenientVersion [sampleStage 11 1 .all none ["legal_reviewer"] [31]]]
  publishedValid := by decide
  versionIds := by decide
  stageIds := by decide

def reviewers (users : List Nat) : MembershipGraph where
  memberships := users.map fun n => ⟨.ofNat (400 + n), .ofNat 1, .ofNat n, .legalReviewer⟩
  workspaceMemberships := users.map fun n => ⟨.ofNat 2, .ofNat (400 + n)⟩

def overlappingRun : List Event :=
  [sampleStart (reviewers [31]), sampleDecide (reviewers [31]) 2 31 .approve 0]

theorem not_neverDeadlocks : ¬ NeverDeadlocks := by
  intro promised
  have stuck : ∃ workflow ∈ (run step (sampleDb overlappingPolicies) overlappingRun).workflow,
      ∃ row ∈ workflow.stages.find? (fun row => row.state = .active),
        row.policyStageId = .ofNat 11 ∧
        eligibleActorIds (reviewers [31]) workflow
          (sampleStage 11 1 .all none ["legal_reviewer"] [31]) = [.ofNat 31] ∧
        (∃ decision ∈ stageApprovals (run step (sampleDb overlappingPolicies) overlappingRun)
          workflow row, decision.actorId = .ofNat 31) ∧
        stageIsSatisfied (run step (sampleDb overlappingPolicies) overlappingRun)
          workflow row = .ok false := by decide
  obtain ⟨workflow, stored, row, active, rowOf, eligible, approved, unsatisfied⟩ := stuck
  have satisfied := promised _ (lenientVersion [sampleStage 11 1 .all none ["legal_reviewer"] [31]])
    (sampleStage 11 1 .all none ["legal_reviewer"] [31]) (reviewers [31]) workflow row
    (by rw [run_policies]; exact List.mem_singleton_self _) (by decide) rfl rfl
    (List.mem_singleton_self _) rowOf stored (activeStage_ok.mpr active)
    (by rw [eligible]; exact List.cons_ne_nil _ _)
    fun actorId member => List.mem_singleton.mp (eligible ▸ member) ▸ approved
  rw [unsatisfied] at satisfied
  cases satisfied

/-- Every listed user has approved the stage row, and so has a holder of every listed role. -/
def Covered (graph : MembershipGraph) (db : ReviewDb) (workflow : ReviewWorkflow)
    (row : ReviewWorkflowStage) (policyStage : ApprovalPolicyStage) : Prop :=
  (∀ userId ∈ policyStage.eligibleUserIds,
    ∃ decision ∈ stageApprovals db workflow row, decision.actorId = userId) ∧
  ∀ key ∈ policyStage.eligibleRoleKeys, ∃ decision ∈ stageApprovals db workflow row,
    graph.HoldsRole workflow.organizationId workflow.workspaceId decision.actorId key

/-- For every listed entry fewer eligible people fail to match it than entries are listed. -/
def CoverageForced (graph : MembershipGraph) (workflow : ReviewWorkflow)
    (policyStage : ApprovalPolicyStage) : Prop :=
  (∀ userId ∈ policyStage.eligibleUserIds,
    ((eligibleActors graph workflow policyStage).filter (¬ · = userId)).card <
      policyStage.eligibleCount) ∧
  ∀ key ∈ policyStage.eligibleRoleKeys,
    ((eligibleActors graph workflow policyStage).filter (¬ graph.HoldsRole workflow.organizationId
      workflow.workspaceId · key)).card < policyStage.eligibleCount

instance (graph : MembershipGraph) (workflow : ReviewWorkflow) (policyStage : ApprovalPolicyStage) :
    Decidable (CoverageForced graph workflow policyStage) :=
  inferInstanceAs (Decidable (_ ∧ _))

/-- Approvals by eligible people that satisfy a stage of mode all cover its entries, whoever
they are, exactly when the membership graph forces it. -/
theorem satisfied_covers_iff {db : ReviewDb} {row : ReviewWorkflowStage}
    {policyStage : ApprovalPolicyStage} (graph : MembershipGraph) (workflow : ReviewWorkflow)
    (found : db.policies.stage? row.policyStageId = some policyStage)
    (mode : policyStage.approvalMode = .all) :
    (∀ decisions, approvers (withDecisions db decisions) workflow row ⊆
        eligibleActors graph workflow policyStage →
      stageIsSatisfied (withDecisions db decisions) workflow row = .ok true →
      Covered graph (withDecisions db decisions) workflow row policyStage) ↔
    CoverageForced graph workflow policyStage := by
  have satisfied : ∀ decisions,
      stageIsSatisfied (withDecisions db decisions) workflow row = .ok true ↔
        requiredApprovals policyStage ≤
          (approvers (withDecisions db decisions) workflow row).card :=
    fun decisions => stageIsSatisfied_iff found
  simp only [requiredApprovals, mode] at satisfied
  have covered : ∀ decisions, Covered graph (withDecisions db decisions) workflow row
      policyStage ↔
      (∀ userId ∈ policyStage.eligibleUserIds,
        ∃ actorId ∈ approvers (withDecisions db decisions) workflow row,
          actorId = userId) ∧
      ∀ key ∈ policyStage.eligibleRoleKeys,
        ∃ actorId ∈ approvers (withDecisions db decisions) workflow row,
          graph.HoldsRole workflow.organizationId workflow.workspaceId actorId key := by
    intro decisions
    simp only [Covered, approvers, List.mem_toFinset, List.mem_map, exists_exists_and_eq_and]
  -- Every set of people is the set of approvers of some decisions.
  have anyone : ∀ P : Finset Uuid → Prop,
      (∀ decisions, P (approvers (withDecisions db decisions) workflow row)) ↔
        ∀ chosen, P chosen := by
    intro P
    refine ⟨fun each chosen => ?_, fun each decisions => each _⟩
    have there := each (approvalsBy workflow row chosen.toList)
    rwa [approvers_approvalsBy, Finset.toList_toFinset] at there
  simp only [satisfied, covered]
  rw [anyone fun chosen => chosen ⊆ eligibleActors graph workflow policyStage →
    policyStage.eligibleCount ≤ chosen.card →
    (∀ userId ∈ policyStage.eligibleUserIds, ∃ actorId ∈ chosen, actorId = userId) ∧
    ∀ key ∈ policyStage.eligibleRoleKeys, ∃ actorId ∈ chosen,
      graph.HoldsRole workflow.organizationId workflow.workspaceId actorId key]
  rw [CoverageForced]
  simp only [← threshold_forces_iff]
  exact ⟨fun all => ⟨fun userId listed chosen within reached => (all chosen within reached).1 _ listed,
      fun key listed chosen within reached => (all chosen within reached).2 _ listed⟩,
    fun ⟨users, roles⟩ chosen within reached =>
      ⟨fun userId listed => users userId listed chosen within reached,
        fun key listed => roles key listed chosen within reached⟩⟩

/-- Under one membership graph everybody with an approval at a stage row is eligible for it. -/
def ApproversEligible (graph : MembershipGraph) (db : ReviewDb) : Prop :=
  ∀ workflow, db.workflow = some workflow → ∀ row ∈ workflow.stages, ∀ policyStage,
    db.policies.stage? row.policyStageId = some policyStage →
    approvers db workflow row ⊆ eligibleActors graph workflow policyStage

theorem mem_stageApprovals {db : ReviewDb} {workflow : ReviewWorkflow}
    {row : ReviewWorkflowStage} {decision : ReviewWorkflowDecision} :
    decision ∈ stageApprovals db workflow row ↔ decision ∈ db.decisions ∧
      decision.workflowId = workflow.id ∧ decision.workflowStageId = row.id ∧
      decision.action = .approve := by
  rw [stageApprovals, List.mem_filter, decide_eq_true_iff]

/-- Everybody with an approval at a stage row was eligible for it under one of the graphs. -/
def ApproversKnown (graphs : List MembershipGraph) (db : ReviewDb) : Prop :=
  ∀ workflow, db.workflow = some workflow → ∀ row ∈ workflow.stages, ∀ policyStage,
    db.policies.stage? row.policyStageId = some policyStage →
    ∀ actorId ∈ approvers db workflow row, ∃ graph ∈ graphs,
      actorId ∈ eligibleActors graph workflow policyStage

theorem approversKnown_singleton {graph : MembershipGraph} {db : ReviewDb} :
    ApproversKnown [graph] db ↔ ApproversEligible graph db := by
  simp only [ApproversKnown, ApproversEligible, List.mem_singleton, exists_eq_left,
    Finset.subset_iff]

theorem ApproversKnown.initial {graphs : List MembershipGraph} {db : ReviewDb}
    (initial : Initial db) : ApproversKnown graphs db := by
  intro workflow stored
  rw [initial.1] at stored
  cases stored

theorem Recorded.approversKnown {env : CallEnv} {db after : ReviewDb} {req : DecideRequest}
    {admission : Admission} {graphs : List MembershipGraph}
    (recorded : Recorded env db req admission after) (admitted : Admitted env db req admission)
    (distinct : (admission.workflow.stages.map (·.id)).Nodup)
    (now : env.memberships ∈ graphs) (known : ApproversKnown graphs db) :
    ApproversKnown graphs after := by
  intro workflow stored row member policyStage found actorId approver
  obtain ⟨workflow', kept⟩ := recorded.frame
  rw [kept.stored] at stored
  cases stored
  rw [kept.policies] at found
  -- The row stands for an old row with the same identifier and policy stage.
  have rowOld : (row.id, row.policyStageId) ∈
      admission.workflow.stages.map fun stage => (stage.id, stage.policyStageId) :=
    recorded.rows kept.stored ▸ List.mem_map_of_mem member
  obtain ⟨old, inside, same⟩ := List.mem_map.mp rowOld
  obtain ⟨sameId, samePolicy⟩ := Prod.mk.inj same
  obtain ⟨decision, approves, rfl⟩ := mem_approvers.mp approver
  obtain ⟨recordedIn, ofWorkflow, atRow, ok⟩ := mem_stageApprovals.mp approves
  simp only [mem_eligibleActors, actorIsEligible_congr kept.organizationId kept.workspaceId]
  rw [kept.decisions, List.mem_append, List.mem_singleton] at recordedIn
  rcases recordedIn with earlier | rfl
  · simp only [← mem_eligibleActors]
    exact known _ (workflow?_eq_some.mp admitted.stored).1 old inside policyStage
      (samePolicy ▸ found) _ (mem_approvers.mpr ⟨decision, mem_stageApprovals.mpr
        ⟨earlier, ofWorkflow.trans kept.id, atRow.trans sameId.symm, ok⟩, rfl⟩)
  · have active := List.mem_of_find?_eq_some (activeStage_ok.mp admitted.stage)
    have here := List.inj_on_of_nodup_map distinct inside active (sameId.trans atRow.symm)
    have loaded := admitted.policyStage
    rw [← here, samePolicy, found] at loaded
    cases loaded
    exact ⟨env.memberships, now, admitted.eligible⟩

theorem step_approversKnown (graphs : List MembershipGraph) (db : ReviewDb) (event : Event)
    (now : event.env.memberships ∈ graphs)
    (holds : Consistent db ∧ ApproversKnown graphs db) :
    Consistent (step db event) ∧ ApproversKnown graphs (step db event) := by
  obtain ⟨consistent, known⟩ := holds
  refine ⟨step_consistent db event consistent, ?_⟩
  rcases step_cases db event with same | ⟨_, _, _, -, fresh, started⟩ |
    ⟨req, admission, -, admitted, recorded⟩ | ⟨now, escalated⟩
  · rwa [same]
  · rcases consistent with ⟨-, empty⟩ | ⟨workflow, version, phase, follows⟩
    · obtain ⟨version, activeOrdinal, work, event', audit, -, -, -, -, after, -⟩ := started
      rw [after]
      intro workflow stored row member policyStage found actorId approver
      obtain ⟨decision, approves, -⟩ := mem_approvers.mp approver
      have recordedIn := (mem_stageApprovals.mp approves).1
      simp [empty] at recordedIn
    · rw [follows.stored] at fresh
      cases fresh
  · have stored := (workflow?_eq_some.mp admitted.stored).1
    rcases consistent with ⟨fresh, -⟩ | ⟨workflow, version, phase, follows⟩
    · rw [fresh] at stored
      cases stored
    · rw [follows.stored] at stored
      cases stored
      exact recorded.approversKnown admitted follows.stageIds now known
  · obtain ⟨workflow, stage, event', audit, stored, -, -, after⟩ := escalated
    rw [after]
    intro workflow' stored' row member policyStage found
    cases stored'
    obtain ⟨old, inside, rfl⟩ := Lib.Table.mem_update.mp member
    by_cases hit : old.id = stage.id
    · rw [if_pos hit] at found ⊢
      exact known workflow stored old inside policyStage found
    · rw [if_neg hit] at found ⊢
      exact known workflow stored old inside policyStage found

theorem step_approversEligible (graph : MembershipGraph) (db : ReviewDb) (event : Event)
    (fixed : event.env.memberships = graph)
    (holds : Consistent db ∧ ApproversEligible graph db) :
    Consistent (step db event) ∧ ApproversEligible graph (step db event) := by
  simp only [← approversKnown_singleton] at holds ⊢
  exact step_approversKnown [graph] db event (List.mem_singleton.mpr fixed) holds

theorem run_approversKnown {db : ReviewDb} {graphs : List MembershipGraph} {events : List Event}
    (initial : Initial db) (known : ∀ event ∈ events, event.env.memberships ∈ graphs) :
    Consistent (run step db events) ∧ ApproversKnown graphs (run step db events) :=
  run_invariant_of (fun event => event.env.memberships ∈ graphs)
    (fun db => Consistent db ∧ ApproversKnown graphs db) ⟨.inl initial, .initial initial⟩
    (fun db event known holds => step_approversKnown graphs db event known holds) known

section
variable {db : ReviewDb} {graph : MembershipGraph} {events : List Event}

theorem run_approversEligible (initial : Initial db)
    (fixed : ∀ event ∈ events, event.env.memberships = graph) :
    Consistent (run step db events) ∧ ApproversEligible graph (run step db events) := by
  rw [← approversKnown_singleton]
  exact run_approversKnown initial fun event member => List.mem_singleton.mpr (fixed event member)

/-- A stage completed under one membership graph has enough eligible approvers on record. -/
theorem CompletedByApproval.reached {before : ReviewDb} {event : Event}
    {workflow : ReviewWorkflow} {row : ReviewWorkflowStage} {policyStage : ApprovalPolicyStage}
    (completed : CompletedByApproval before event workflow row)
    (holds : Consistent before ∧ ApproversEligible graph before)
    (fixed : event.env.memberships = graph)
    (found : before.policies.stage? row.policyStageId = some policyStage) :
    approvers (step before event) workflow row ⊆ eligibleActors graph workflow policyStage ∧
      requiredApprovals policyStage ≤ (approvers (step before event) workflow row).card := by
  have found' : (step before event).policies.stage? row.policyStageId = some policyStage := by
    rwa [step_policies]
  have after := step_approversEligible graph before event fixed holds
  have satisfied := (completed.satisfied holds.1).1
  obtain ⟨-, -, stored, member, -⟩ := completed
  exact ⟨after.2 workflow stored row member policyStage found',
    (stageIsSatisfied_iff found').mp satisfied⟩

/-- Under one membership graph a stage of mode all that an approval completes is covered,
provided that the graph forces it. -/
theorem run_allModeCovered (initial : Initial db)
    (fixed : ∀ event ∈ events, event.env.memberships = graph) :
    ∀ pre event post, events = pre ++ event :: post → ∀ workflow row policyStage,
      CompletedByApproval (run step db pre) event workflow row →
      db.policies.stage? row.policyStageId = some policyStage →
      policyStage.approvalMode = .all → CoverageForced graph workflow policyStage →
      Covered graph (step (run step db pre) event) workflow row policyStage := by
  rintro pre event post rfl workflow row policyStage completed found mode forced
  have holds : Consistent (run step db pre) ∧ ApproversEligible graph (run step db pre) :=
    run_approversEligible initial fun e inside => fixed e (List.mem_append_left _ inside)
  have same := fixed event (List.mem_append_right _ List.mem_cons_self)
  have found' : (run step db pre).policies.stage? row.policyStageId = some policyStage := by
    rwa [run_policies]
  have within := (completed.reached holds same found').1
  have satisfied := (completed.satisfied holds.1).1
  rw [← step_policies _ event] at found'
  exact (satisfied_covers_iff graph workflow found' mode).mpr forced
    (step (run step db pre) event).decisions within satisfied

theorem run_allModeCovered_sample :
    ∃ workflow row, CompletedByApproval
        (run step (sampleDb bothUsersPolicies)
          [sampleStart noMembers, sampleDecide noMembers 2 21 .approve 0])
        (sampleDecide noMembers 3 22 .approve 1) workflow row ∧
      Covered noMembers
        (step (run step (sampleDb bothUsersPolicies)
          [sampleStart noMembers, sampleDecide noMembers 2 21 .approve 0])
          (sampleDecide noMembers 3 22 .approve 1)) workflow row bothUsers := by
  have before : ∃ workflow ∈ (run step (sampleDb bothUsersPolicies)
        [sampleStart noMembers, sampleDecide noMembers 2 21 .approve 0]).workflow,
      ∃ stage ∈ workflow.stages, stage.id = .ofNat 1004 ∧ stage.state ≠ .completed := by decide
  have after : ∃ workflow ∈ (step (run step (sampleDb bothUsersPolicies)
        [sampleStart noMembers, sampleDecide noMembers 2 21 .approve 0])
        (sampleDecide noMembers 3 22 .approve 1)).workflow,
      ∃ row ∈ workflow.stages, row.id = .ofNat 1004 ∧ row.state = .completed ∧
        row.policyStageId = .ofNat 11 ∧ CoverageForced noMembers workflow bothUsers := by decide
  obtain ⟨old, storedOld, stage, inside, sameId, unfinished⟩ := before
  obtain ⟨workflow, stored, row, member, id, done, policy, forced⟩ := after
  have completed : CompletedByApproval (run step (sampleDb bothUsersPolicies)
      [sampleStart noMembers, sampleDecide noMembers 2 21 .approve 0])
      (sampleDecide noMembers 3 22 .approve 1) workflow row :=
    ⟨⟨_, rfl, rfl⟩, ⟨old, storedOld, stage, inside, sameId.trans id.symm, unfinished⟩, stored,
      member, done⟩
  exact ⟨workflow, row, completed, @run_allModeCovered (sampleDb bothUsersPolicies) noMembers
    [sampleStart noMembers, sampleDecide noMembers 2 21 .approve 0,
      sampleDecide noMembers 3 22 .approve 1] ⟨rfl, rfl⟩
    (by simp [sampleStart, sampleDecide, sampleEnv])
    [sampleStart noMembers, sampleDecide noMembers 2 21 .approve 0] _ [] rfl workflow row bothUsers
    completed (by rw [policy]; decide) rfl forced⟩

end

/-- What mode all says on its face: an approval completes a stage only when every listed entry
is covered, whatever the membership graph. -/
def AllModeSound : Prop :=
  ∀ (db : ReviewDb) (graph : MembershipGraph) (events : List Event), Initial db →
    (∀ event ∈ events, event.env.memberships = graph) →
    ∀ pre event post, events = pre ++ event :: post → ∀ workflow row policyStage,
      CompletedByApproval (run step db pre) event workflow row →
      db.policies.stage? row.policyStageId = some policyStage →
      policyStage.approvalMode = .all →
      Covered graph (step (run step db pre) event) workflow row policyStage

/-- One stage for all of a role that two people have and a user who is neither of them. -/
def rolePlusUserPolicies : PolicyTables where
  versions := [sampleVersion [sampleStage 11 1 .all none ["legal_reviewer"] [21]]]
  publishedValid := by decide
  versionIds := by decide
  stageIds := by decide

def twoReviewersRun : List Event :=
  [sampleStart (reviewers [31, 32]), sampleDecide (reviewers [31, 32]) 2 31 .approve 0]

theorem not_allModeSound : ¬ AllModeSound := by
  intro sound
  have bypassed : ∃ workflow ∈ (step (run step (sampleDb rolePlusUserPolicies) twoReviewersRun)
        (sampleDecide (reviewers [31, 32]) 3 32 .approve 1)).workflow,
      ∃ row ∈ workflow.stages, row.id = .ofNat 1004 ∧ row.state = .completed ∧
        row.policyStageId = .ofNat 11 ∧
        ∀ decision ∈ stageApprovals (step (run step (sampleDb rolePlusUserPolicies)
          twoReviewersRun) (sampleDecide (reviewers [31, 32]) 3 32 .approve 1)) workflow row,
          decision.actorId ≠ .ofNat 21 := by decide
  have before : ∃ workflow ∈ (run step (sampleDb rolePlusUserPolicies) twoReviewersRun).workflow,
      ∃ stage ∈ workflow.stages, stage.id = .ofNat 1004 ∧ stage.state ≠ .completed := by decide
  obtain ⟨workflow, stored, row, member, id, completed, policy, absent⟩ := bypassed
  obtain ⟨old, storedOld, stage, inside, sameId, unfinished⟩ := before
  obtain ⟨decision, approves, actor⟩ := (sound (sampleDb rolePlusUserPolicies)
    (reviewers [31, 32]) (twoReviewersRun ++ [sampleDecide (reviewers [31, 32]) 3 32 .approve 1])
    ⟨rfl, rfl⟩ (by simp [twoReviewersRun, sampleStart, sampleDecide, sampleEnv])
    twoReviewersRun _ [] rfl workflow row (sampleStage 11 1 .all none ["legal_reviewer"] [21])
    ⟨⟨_, rfl, rfl⟩, ⟨old, storedOld, stage, inside, sameId.trans id.symm, unfinished⟩, stored,
      member, completed⟩ (by rw [policy]; decide) rfl).1 (.ofNat 21) (by decide)
  exact absent decision approves actor

/-- Whoever was eligible for the stage in one of the calls. -/
def everEligible (events : List Event) (workflow : ReviewWorkflow)
    (policyStage : ApprovalPolicyStage) : Finset Uuid :=
  (events.flatMap fun event => eligibleActorIds event.env.memberships workflow policyStage).toFinset

/-- However the memberships change, a stage whose mode asks for more approvals than there are
people who were ever eligible for it is never completed by an approval. -/
theorem run_neverCompletes {db : ReviewDb} (initial : Initial db) (calls : List Event)
    (event : Event) {workflow : ReviewWorkflow} {row : ReviewWorkflowStage}
    {policyStage : ApprovalPolicyStage}
    (found : db.policies.stage? row.policyStageId = some policyStage)
    (short : (everEligible (calls ++ [event]) workflow policyStage).card <
      requiredApprovals policyStage) :
    ¬ CompletedByApproval (run step db calls) event workflow row := by
  intro completed
  -- the graphs of all calls up to this one
  have holds := @run_approversKnown _ ((calls ++ [event]).map (·.env.memberships)) _ initial
    fun call member => List.mem_map_of_mem (List.mem_append_left [event] member)
  have now : event.env.memberships ∈ (calls ++ [event]).map (·.env.memberships) :=
    List.mem_map.mpr ⟨event, by simp, rfl⟩
  have after := (step_approversKnown _ _ event now holds).2
  have satisfied := (completed.satisfied holds.1).1
  obtain ⟨-, -, stored, member, -⟩ := completed
  have found' : (step (run step db calls) event).policies.stage? row.policyStageId =
      some policyStage := by
    rwa [step_policies, run_policies]
  have enough := (stageIsSatisfied_iff found').mp satisfied
  have within : approvers (step (run step db calls) event) workflow row ⊆
      everEligible (calls ++ [event]) workflow policyStage := by
    intro actorId approver
    obtain ⟨graph, listed, eligible⟩ :=
      after workflow stored row member policyStage found' actorId approver
    obtain ⟨call, called, rfl⟩ := List.mem_map.mp listed
    exact List.mem_toFinset.mpr
      (List.mem_flatMap.mpr ⟨call, called, List.mem_toFinset.mp eligible⟩)
  have bound := Finset.card_le_card within
  omega

theorem run_neverCompletes_sample :
    ∃ workflow ∈ (step (run step (sampleDb rolePlusUserPolicies) [sampleStart noMembers])
        (sampleDecide noMembers 2 21 .approve 0)).workflow, ∃ row ∈ workflow.stages,
      row.id = .ofNat 1004 ∧
        ¬ CompletedByApproval (run step (sampleDb rolePlusUserPolicies) [sampleStart noMembers])
          (sampleDecide noMembers 2 21 .approve 0) workflow row := by
  have short : ∃ workflow ∈ (step (run step (sampleDb rolePlusUserPolicies)
        [sampleStart noMembers]) (sampleDecide noMembers 2 21 .approve 0)).workflow,
      ∃ row ∈ workflow.stages, row.id = .ofNat 1004 ∧ row.policyStageId = .ofNat 11 ∧
        (everEligible ([sampleStart noMembers] ++ [sampleDecide noMembers 2 21 .approve 0]) workflow
          (sampleStage 11 1 .all none ["legal_reviewer"] [21])).card <
        requiredApprovals (sampleStage 11 1 .all none ["legal_reviewer"] [21]) := by decide
  obtain ⟨workflow, stored, row, member, id, policy, few⟩ := short
  refine ⟨workflow, stored, row, member, id, ?_⟩
  exact run_neverCompletes ⟨rfl, rfl⟩ [sampleStart noMembers] _ (by rw [policy]; decide) few

end AgreementIntelligence.Reviews
