import AgreementIntelligence.Reviews.Transitions

/-! A review passes its stages one after another. The abstract model is a phase: how many
stages are done and whether the review waits at the next one or has ended. The workflow row
and its stage rows follow the phase, every call moves the phase along or leaves it, and what
the tables look like in any reachable state is read off the phase. -/

namespace AgreementIntelligence.Reviews
open Identity ApprovalPolicies Lib.Runs

inductive Phase where
  | waiting (done : Nat)
  | ended (done : Nat) (outcome : TerminalState)

namespace Phase

def stageState : Phase → Nat → StageState
  | .waiting done, i => if i < done then .completed else if i = done then .active else .pending
  | .ended done _, i => if i < done then .completed else .pending

def state : Phase → WorkflowState
  | .waiting _ => .waitingForApproval
  | .ended _ outcome => .terminal outcome

def activeOrdinal : Phase → Option Nat
  | .waiting done => some (done + 1)
  | .ended _ _ => none

/-- A phase of a review with `n` stages: one of them is waited at, or the review has ended at
one of them, at the last one when it is approved. -/
def Fits (n : Nat) : Phase → Prop
  | .waiting done => done < n
  | .ended done outcome => 0 < done ∧ done ≤ n ∧ (outcome = .approved → done = n)

/-- The moves of the abstract model. -/
inductive Moves (n : Nat) : Phase → Phase → Prop
  | stays (done : Nat) : Moves n (.waiting done) (.waiting done)
  | moves (done : Nat) (more : done + 1 < n) : Moves n (.waiting done) (.waiting (done + 1))
  | finishes (done : Nat) (last : done + 1 = n) :
      Moves n (.waiting done) (.ended (done + 1) .approved)
  | stops (done : Nat) (outcome : TerminalState) (unfinished : outcome ≠ .approved) :
      Moves n (.waiting done) (.ended (done + 1) outcome)

theorem stageState_eq_active {phase : Phase} {i : Nat} :
    phase.stageState i = .active ↔ phase = .waiting i := by
  cases phase with
  | waiting done =>
      simp only [stageState, waiting.injEq]
      split_ifs <;> simp only [false_iff, true_iff] <;> omega
  | ended done outcome =>
      simp only [stageState]
      split_ifs <;> simp

end Phase

/-- The stage rows of a version in a phase: row `i` is numbered `i + 1`, stands for the policy
stage at `i` and is in the state the phase gives it. -/
def StagesFollow (version : ApprovalPolicyVersion) (phase : Phase)
    (stages : List ReviewWorkflowStage) : Prop :=
  ∀ i stage, stages[i]? = some stage → stage.ordinal = i + 1 ∧ stage.state = phase.stageState i ∧
    (version.stages[i]?).map (·.id) = some stage.policyStageId

structure Follows (db : ReviewDb) (workflow : ReviewWorkflow) (version : ApprovalPolicyVersion)
    (phase : Phase) : Prop where
  stored : db.workflow = some workflow
  listed : version ∈ db.policies.versions
  published : version.status = .published
  versionId : version.id = workflow.policyVersionId
  count : workflow.stages.length = version.stages.length
  stages : StagesFollow version phase workflow.stages
  stageIds : (workflow.stages.map (·.id)).Nodup
  fits : phase.Fits workflow.stages.length
  state : workflow.state = phase.state
  activeOrdinal : workflow.activeStageOrdinal = phase.activeOrdinal
  review : ∀ outcome, workflow.state = .terminal outcome → db.reviewCase.state = .terminal outcome
  revision : workflow.revision = db.decisions.length
  decisions : ∀ decision ∈ db.decisions, decision.workflowId = workflow.id

@[simp] theorem updateStage_length (stages : List ReviewWorkflowStage) (id : Uuid)
    (change : ReviewWorkflowStage → ReviewWorkflowStage) :
    (updateStage stages id change).length = stages.length := Lib.Table.length_update

/-- Completing the stage that is waited at leaves the rows of an ended review. -/
theorem StagesFollow.complete {version : ApprovalPolicyVersion} {done : Nat}
    {stages : List ReviewWorkflowStage} {stage : ReviewWorkflowStage}
    (follow : StagesFollow version (.waiting done) stages) (now : Time) (outcome : TerminalState)
    (distinct : (stages.map (·.id)).Nodup) (here : stages[done]? = some stage) :
    StagesFollow version (.ended (done + 1) outcome)
      (updateStage stages stage.id (completeStage now)) := by
  intro i row found
  rcases Lib.Table.getElem?_update distinct here found with ⟨rfl, rfl⟩ | ⟨other, there⟩
  · obtain ⟨ordinal, -, policy⟩ := follow i stage here
    refine ⟨ordinal, ?_, policy⟩
    simp [completeStage, Phase.stageState]
  · obtain ⟨ordinal, state, policy⟩ := follow i row there
    refine ⟨ordinal, ?_, policy⟩
    rw [state]
    simp only [Phase.stageState]
    split_ifs <;> first | rfl | omega

/-- Activating the next stage makes the review wait there. -/
theorem StagesFollow.activate {version : ApprovalPolicyVersion} {done : Nat}
    {outcome : TerminalState} {stages : List ReviewWorkflowStage} {next : ReviewWorkflowStage}
    {now : Time} {policyStage : Option ApprovalPolicyStage}
    (follow : StagesFollow version (.ended done outcome) stages)
    (distinct : (stages.map (·.id)).Nodup) (here : stages[done]? = some next) :
    StagesFollow version (.waiting done)
      (updateStage stages next.id (activateStage now policyStage)) := by
  intro i row found
  rcases Lib.Table.getElem?_update distinct here found with ⟨rfl, rfl⟩ | ⟨other, there⟩
  · obtain ⟨ordinal, -, policy⟩ := follow i next here
    refine ⟨ordinal, ?_, policy⟩
    simp [activateStage, Phase.stageState]
  · obtain ⟨ordinal, state, policy⟩ := follow i row there
    refine ⟨ordinal, ?_, policy⟩
    rw [state]
    simp only [Phase.stageState]
    split_ifs <;> rfl

theorem StagesFollow.escalate {version : ApprovalPolicyVersion} {phase : Phase} {id : Uuid}
    {stages : List ReviewWorkflowStage} {now : Time} (follow : StagesFollow version phase stages) :
    StagesFollow version phase
      (updateStage stages id (escalateStage now)) := by
  intro i row found
  rw [updateStage, Lib.Table.update, List.getElem?_map, Option.map_eq_some_iff] at found
  obtain ⟨old, there, rfl⟩ := found
  by_cases hit : old.id = id
  · rw [if_pos hit]
    exact follow i old there
  · rw [if_neg hit]
    exact follow i old there

theorem StagesFollow.ordinal_index {version : ApprovalPolicyVersion} {phase : Phase}
    {stages : List ReviewWorkflowStage} {stage : ReviewWorkflowStage} {k : Nat}
    (follow : StagesFollow version phase stages)
    (found : stages.find? (fun row => row.ordinal = k + 1) = some stage) :
    stages[k]? = some stage := by
  obtain ⟨i, there⟩ := List.mem_iff_getElem?.mp (List.mem_of_find?_eq_some found)
  have numbered : stage.ordinal = k + 1 := by simpa using List.find?_some found
  have same : i = k := by
    have ordinal := (follow i stage there).1
    omega
  rwa [same] at there

theorem StagesFollow.ordinal_absent {version : ApprovalPolicyVersion} {phase : Phase}
    {stages : List ReviewWorkflowStage} {k : Nat} (follow : StagesFollow version phase stages)
    (absent : stages.find? (fun row => row.ordinal = k + 1) = none) : stages.length ≤ k := by
  by_contra inside
  have there := List.getElem?_eq_getElem (Nat.lt_of_not_le inside)
  have numbered := (follow k _ there).1
  rw [List.find?_eq_none] at absent
  exact absent _ (List.getElem_mem (Nat.lt_of_not_le inside)) (by simpa using numbered)

/-- The stage that `decide` finds active is the one the phase waits at. -/
theorem Follows.active {db : ReviewDb} {workflow : ReviewWorkflow}
    {version : ApprovalPolicyVersion} {phase : Phase} {stage : ReviewWorkflowStage}
    (follows : Follows db workflow version phase) (active : activeStage workflow = .ok stage) :
    ∃ done, phase = .waiting done ∧ workflow.stages[done]? = some stage := by
  have found := activeStage_ok.mp active
  obtain ⟨i, there⟩ := List.mem_iff_getElem?.mp (List.mem_of_find?_eq_some found)
  have isActive : stage.state = .active := by simpa using List.find?_some found
  rw [(follows.stages i stage there).2.1, Phase.stageState_eq_active] at isActive
  exact ⟨i, isActive, there⟩

/-- Every stage of a version that passed the check is numbered by its position. -/
theorem validated_ordinal {version : ApprovalPolicyVersion} {i : Nat}
    {policyStage : ApprovalPolicyStage} (passed : validateDraft version = .ok ())
    (there : version.stages[i]? = some policyStage) : policyStage.ordinal = i + 1 := by
  obtain ⟨inside, rfl⟩ := List.getElem?_eq_some_iff.mp there
  exact ((validateDraft_ok_iff.mp passed).2 i inside).ordinal

theorem startWorkflow_follows {env : CallEnv} {reviewCase : ReviewCase}
    {version : ApprovalPolicyVersion} (passed : validateDraft version = .ok ()) :
    StagesFollow version (.waiting 0) (startWorkflow env reviewCase version 1).stages := by
  intro i row found
  simp only [startWorkflow, List.getElem?_map, List.getElem?_zipIdx, Option.map_map,
    Option.map_eq_some_iff, Function.comp_apply] at found
  obtain ⟨policyStage, there, rfl⟩ := found
  have numbered := validated_ordinal passed there
  refine ⟨numbered, ?_, by rw [there]; rfl⟩
  simp only [startStage, numbered, Phase.stageState]
  split_ifs <;> first | rfl | omega

theorem Started.follows {env : CallEnv} {db after : ReviewDb} {policyVersionId : Uuid}
    (started : Started env db policyVersionId after)
    (empty : db.decisions = []) :
    ∃ workflow version, Follows after workflow version (.waiting 0) := by
  obtain ⟨version, activeOrdinal, work, event, audit, listed, published, first, distinct, rfl, -⟩ :=
    started
  have passed := db.policies.publishedValid version listed published
  have one : activeOrdinal = 1 := by
    rw [List.head?_eq_getElem?, Option.map_eq_some_iff] at first
    obtain ⟨policyStage, there, rfl⟩ := first
    exact validated_ordinal passed there
  subst one
  have nonempty := (validateDraft_ok_iff.mp passed).1
  refine ⟨_, version, ⟨rfl, listed, published, rfl, by simp [startWorkflow],
    startWorkflow_follows passed, distinct, ?_, rfl, rfl, ?_, ?_, ?_⟩⟩
  · simpa [Phase.Fits, startWorkflow] using List.length_pos_iff.mpr nonempty
  · intro outcome ended
    cases ended
  · simp [startWorkflow, empty]
  · simp [empty]

/-- A recorded decision moves the phase along. -/
theorem Recorded.follows {env : CallEnv} {db after : ReviewDb} {req : DecideRequest}
    {admission : Admission} {version : ApprovalPolicyVersion} {phase : Phase}
    (recorded : Recorded env db req admission after) (admitted : Admitted env db req admission)
    (follows : Follows db admission.workflow version phase) :
    ∃ workflow phase', Follows after workflow version phase' ∧
      phase.Moves version.stages.length phase' := by
  obtain ⟨workflow, applied, event, done, -, rfl⟩ := recorded
  obtain ⟨k, rfl, here⟩ := follows.active admitted.stage
  obtain ⟨ordinal, -, -⟩ := follows.stages k _ here
  have inside : k < version.stages.length := follows.count ▸ follows.fits
  have completedIds : ((updateStage admission.workflow.stages admission.stage.id
      (completeStage env.now)).map (·.id)).Nodup := Lib.Table.nodup_update (fun _ => rfl) follows.stageIds
  have counted : admission.workflow.revision + 1 =
      (withDecision env db req admission).decisions.length := by
    simp [withDecision, follows.revision]
  have owned : ∀ decision ∈ (withDecision env db req admission).decisions,
      decision.workflowId = admission.workflow.id := by
    intro decision member
    rcases List.mem_append.mp member with old | new
    · exact follows.decisions decision old
    · rw [List.mem_singleton.mp new]
      rfl
  generalize req.action = action at done
  cases done with
  | stays short =>
      exact ⟨_, _, ⟨rfl, follows.listed, follows.published, follows.versionId, follows.count,
        follows.stages, follows.stageIds, follows.fits, follows.state, follows.activeOrdinal,
        follows.review, counted, owned⟩, .stays k⟩
  | moves work next met found =>
      have ended := follows.stages.complete env.now .approved follows.stageIds here
      rw [ordinal] at found
      have nextHere := ended.ordinal_index found
      have more : k + 1 < admission.workflow.stages.length := by
        have bound := (List.getElem?_eq_some_iff.mp nextHere).1
        rwa [updateStage_length] at bound
      have nextOrdinal := (ended _ next nextHere).1
      refine ⟨_, .waiting (k + 1), ⟨rfl, follows.listed, follows.published, follows.versionId,
        by simpa using follows.count,
        ended.activate completedIds nextHere, Lib.Table.nodup_update (fun _ => rfl) completedIds,
        by simpa [Phase.Fits] using more, follows.state, by rw [nextOrdinal]; rfl, follows.review,
        counted, owned⟩, .moves k (follows.count ▸ more)⟩
  | finishes work met last =>
      have ended := follows.stages.complete env.now .approved follows.stageIds here
      rw [ordinal] at last
      have short := ended.ordinal_absent last
      rw [updateStage_length, follows.count] at short
      have exact_ : k + 1 = version.stages.length := by omega
      refine ⟨_, .ended (k + 1) .approved, ⟨rfl, follows.listed, follows.published,
        follows.versionId, by simpa [closedWorkflow] using follows.count, ended, completedIds, ?_,
        rfl, rfl,
        fun outcome same => ?_, counted, owned⟩, .finishes k exact_⟩
      · exact ⟨Nat.succ_pos k, by simp [closedWorkflow, follows.count, exact_],
          fun _ => by simp [closedWorkflow, follows.count, exact_]⟩
      · cases same
        rfl
  | stops work _ outcome stopping =>
      have ended := follows.stages.complete env.now outcome follows.stageIds here
      have unfinished : outcome ≠ .approved := by
        rintro rfl
        revert stopping
        cases action <;> simp [WorkflowAction.stopsWith]
      refine ⟨_, .ended (k + 1) outcome, ⟨rfl, follows.listed, follows.published,
        follows.versionId, by simpa [closedWorkflow] using follows.count, ended, completedIds, ?_,
        rfl, rfl,
        fun other same => ?_, counted, owned⟩, .stops k outcome unfinished⟩
      · exact ⟨Nat.succ_pos k, by simpa [closedWorkflow, follows.count] using Nat.succ_le_of_lt inside,
          fun approved => absurd approved unfinished⟩
      · cases same
        rfl

theorem Escalated.follows {db after : ReviewDb} {now : Time} {workflow : ReviewWorkflow}
    {version : ApprovalPolicyVersion} {phase : Phase} (escalated : Escalated db now after)
    (follows : Follows db workflow version phase) :
    ∃ workflow', Follows after workflow' version phase := by
  obtain ⟨workflow', stage, event, audit, stored, -, -, rfl⟩ := escalated
  rw [follows.stored] at stored
  cases stored
  exact ⟨_, rfl, follows.listed, follows.published, follows.versionId,
    by simpa using follows.count, follows.stages.escalate,
    Lib.Table.nodup_update (fun _ => rfl) follows.stageIds, by simpa using follows.fits,
    follows.state, follows.activeOrdinal, follows.review, follows.revision, follows.decisions⟩

/-- Before `start` the review has no workflow and no decision. -/
def Initial (db : ReviewDb) : Prop :=
  db.workflow = none ∧ db.decisions = []

/-- The invariant of the coordinator: nothing is started, or the rows follow a phase. -/
def Consistent (db : ReviewDb) : Prop :=
  Initial db ∨ ∃ workflow version phase, Follows db workflow version phase

theorem step_consistent (db : ReviewDb) (event : Event) (consistent : Consistent db) :
    Consistent (step db event) := by
  rcases step_cases db event with same | ⟨_, _, _, -, fresh, started⟩ |
    ⟨req, admission, -, admitted, recorded⟩ | ⟨now, escalated⟩
  · rwa [same]
  · rcases consistent with ⟨-, empty⟩ | ⟨workflow, version, phase, follows⟩
    · obtain ⟨workflow, version, follows⟩ := started.follows empty
      exact .inr ⟨workflow, version, _, follows⟩
    · rw [follows.stored] at fresh
      cases fresh
  · have stored := (workflow?_eq_some.mp admitted.stored).1
    rcases consistent with ⟨fresh, -⟩ | ⟨workflow, version, phase, follows⟩
    · rw [fresh] at stored
      cases stored
    · rw [follows.stored] at stored
      cases stored
      obtain ⟨workflow', phase', after, -⟩ := recorded.follows admitted follows
      exact .inr ⟨workflow', version, phase', after⟩
  · rcases consistent with ⟨fresh, -⟩ | ⟨workflow, version, phase, follows⟩
    · obtain ⟨workflow, stage, event', audit, stored, -⟩ := escalated
      rw [fresh] at stored
      cases stored
    · obtain ⟨workflow', after⟩ := escalated.follows follows
      exact .inr ⟨workflow', version, phase, after⟩

theorem reachable_consistent {db : ReviewDb} (reached : Reachable step Initial db) :
    Consistent db :=
  reached.invariant (fun _ initial => .inl initial) step_consistent

/-- What the rows of a started review look like: one stage waited at between the completed and
the pending ones, or none once the workflow is terminal, and a revision that counts the
recorded decisions. -/
structure WellStructured (db : ReviewDb) (workflow : ReviewWorkflow) : Prop where
  numbered : workflow.stages.map (·.ordinal) = (List.range workflow.stages.length).map (· + 1)
  waiting_iff : workflow.state = .waitingForApproval ↔
    ∃ stage ∈ workflow.stages, stage.state = .active ∧
      (∀ other ∈ workflow.stages, other.state = .active → other = stage) ∧
      workflow.activeStageOrdinal = some stage.ordinal ∧
      (∀ other ∈ workflow.stages, other.ordinal < stage.ordinal → other.state = .completed) ∧
      (∀ other ∈ workflow.stages, stage.ordinal < other.ordinal → other.state = .pending)
  approved : workflow.state = .terminal .approved →
    ∀ stage ∈ workflow.stages, stage.state = .completed
  stopped : ∀ outcome, outcome ≠ .approved → workflow.state = .terminal outcome →
    ∃ done, 0 < done ∧ done ≤ workflow.stages.length ∧ ∀ stage ∈ workflow.stages,
      stage.state = if stage.ordinal ≤ done then .completed else .pending
  inactive : ∀ outcome, workflow.state = .terminal outcome → workflow.activeStageOrdinal = none
  review : ∀ outcome, workflow.state = .terminal outcome → db.reviewCase.state = .terminal outcome
  revision : workflow.revision =
    (db.decisions.filter fun decision => decision.workflowId = workflow.id).length

section
variable {db : ReviewDb} {workflow : ReviewWorkflow} {version : ApprovalPolicyVersion}
  {phase : Phase}

theorem Follows.row (follows : Follows db workflow version phase) {stage : ReviewWorkflowStage}
    (member : stage ∈ workflow.stages) :
    ∃ i, workflow.stages[i]? = some stage ∧ stage.ordinal = i + 1 ∧
      stage.state = phase.stageState i ∧ i < workflow.stages.length := by
  obtain ⟨i, there⟩ := List.mem_iff_getElem?.mp member
  obtain ⟨ordinal, state, -⟩ := follows.stages i stage there
  exact ⟨i, there, ordinal, state, (List.getElem?_eq_some_iff.mp there).1⟩

theorem Follows.numbered (follows : Follows db workflow version phase) :
    workflow.stages.map (·.ordinal) = (List.range workflow.stages.length).map (· + 1) := by
  refine List.ext_getElem (by simp) fun i inside _ => ?_
  rw [List.length_map] at inside
  have ordinal := (follows.stages i _ (List.getElem?_eq_getElem inside)).1
  simpa using ordinal

theorem Follows.waits (follows : Follows db workflow version phase)
    (waiting : workflow.state = .waitingForApproval) :
    ∃ done stage, phase = .waiting done ∧ workflow.stages[done]? = some stage := by
  rw [follows.state] at waiting
  cases phase with
  | waiting done =>
      exact ⟨done, _, rfl, List.getElem?_eq_getElem follows.fits⟩
  | ended done outcome => cases waiting

theorem Follows.ended (follows : Follows db workflow version phase) {outcome : TerminalState}
    (terminal : workflow.state = .terminal outcome) : ∃ done, phase = .ended done outcome := by
  rw [follows.state] at terminal
  cases phase with
  | waiting done => cases terminal
  | ended done other =>
      cases terminal
      exact ⟨done, rfl⟩

theorem Follows.waiting_iff (follows : Follows db workflow version phase) :
    workflow.state = .waitingForApproval ↔
      ∃ stage ∈ workflow.stages, stage.state = .active ∧
        (∀ other ∈ workflow.stages, other.state = .active → other = stage) ∧
        workflow.activeStageOrdinal = some stage.ordinal ∧
        (∀ other ∈ workflow.stages, other.ordinal < stage.ordinal → other.state = .completed) ∧
        (∀ other ∈ workflow.stages, stage.ordinal < other.ordinal → other.state = .pending) := by
  constructor
  · intro waiting
    obtain ⟨done, stage, rfl, here⟩ := follows.waits waiting
    obtain ⟨ordinal, state, -⟩ := follows.stages done stage here
    refine ⟨stage, List.mem_of_getElem? here, by simpa [Phase.stageState] using state, ?_,
      by rw [follows.activeOrdinal, ordinal]; rfl, ?_, ?_⟩
    · intro other member active
      obtain ⟨i, there, -, otherState, -⟩ := follows.row member
      rw [otherState, Phase.stageState_eq_active] at active
      cases active
      rw [here] at there
      exact (Option.some.inj there).symm
    · intro other member below
      obtain ⟨i, -, otherOrdinal, otherState, -⟩ := follows.row member
      rw [otherState, Phase.stageState, if_pos (by omega)]
    · intro other member above
      obtain ⟨i, -, otherOrdinal, otherState, -⟩ := follows.row member
      rw [otherState, Phase.stageState, if_neg (by omega), if_neg (by omega)]
  · rintro ⟨stage, member, active, -⟩
    obtain ⟨i, -, -, state, -⟩ := follows.row member
    rw [state, Phase.stageState_eq_active] at active
    rw [follows.state, active]
    rfl

theorem Follows.wellStructured (follows : Follows db workflow version phase) :
    WellStructured db workflow where
  numbered := follows.numbered
  waiting_iff := follows.waiting_iff
  approved terminal stage member := by
    obtain ⟨done, rfl⟩ := follows.ended terminal
    obtain ⟨i, -, -, state, inside⟩ := follows.row member
    have complete := follows.fits.2.2 rfl
    rw [state, Phase.stageState, if_pos (by omega)]
  stopped outcome unfinished terminal := by
    obtain ⟨done, rfl⟩ := follows.ended terminal
    refine ⟨done, follows.fits.1, follows.fits.2.1, fun stage member => ?_⟩
    obtain ⟨i, -, ordinal, state, -⟩ := follows.row member
    rw [state, Phase.stageState, ordinal]
    exact if_congr (by omega) rfl rfl
  inactive outcome terminal := by
    obtain ⟨done, rfl⟩ := follows.ended terminal
    exact follows.activeOrdinal
  review := follows.review
  revision := by
    rw [List.filter_eq_self.mpr fun decision member => by simpa using follows.decisions _ member]
    exact follows.revision

end

/-- No call touches a workflow that has ended. -/
theorem step_ended {db : ReviewDb} {workflow : ReviewWorkflow} {outcome : TerminalState}
    (stored : db.workflow = some workflow) (terminal : workflow.state = .terminal outcome)
    (event : Event) : step db event = db := by
  rcases step_cases db event with same | ⟨_, _, _, -, fresh, -⟩ | ⟨req, admission, -, admitted, -⟩ |
    ⟨now, workflow', stage, event', audit, stored', waiting, -⟩
  · exact same
  · rw [fresh] at stored
    cases stored
  · have found := (workflow?_eq_some.mp admitted.stored).1
    rw [stored] at found
    cases found
    rw [admitted.waiting] at terminal
    cases terminal
  · rw [stored] at stored'
    cases stored'
    rw [waiting] at terminal
    cases terminal

/-- In every state that calls lead to, the rows of a started review are well structured, and
from a terminal one no call changes the workflow or its decisions. -/
theorem reachable_wellStructured {db : ReviewDb} {workflow : ReviewWorkflow}
    (reached : Reachable step Initial db) (stored : db.workflow = some workflow) :
    WellStructured db workflow ∧
      ∀ outcome, workflow.state = .terminal outcome → ∀ event,
        (step db event).workflow = some workflow ∧ (step db event).decisions = db.decisions := by
  constructor
  · rcases reachable_consistent reached with ⟨fresh, -⟩ | ⟨workflow', version, phase, follows⟩
    · rw [fresh] at stored
      cases stored
    · rw [follows.stored] at stored
      cases stored
      exact follows.wellStructured
  · intro outcome terminal event
    rw [step_ended stored terminal event]
    exact ⟨stored, rfl⟩

def sampleStage (id ordinal : Nat) (mode : ApprovalMode) (quorum : Option Nat)
    (roles : List String) (users : List Nat) : ApprovalPolicyStage where
  id := .ofNat id
  policyVersionId := .ofNat 10
  ordinal := ordinal
  name := "stage"
  approvalMode := mode
  quorumCount := quorum
  eligibleRoleKeys := roles
  eligibleUserIds := users.map .ofNat
  deadlineHours := some 24
  escalationRoleKey := none

def sampleVersion (stages : List ApprovalPolicyStage) : ApprovalPolicyVersion where
  id := .ofNat 10
  organizationId := .ofNat 1
  workspaceId := .ofNat 2
  policyId := .ofNat 9
  version := 1
  status := .published
  submitterMayApprove := false
  allowCrossStageSameApprover := false
  stages := stages

/-- A review whose workspace has one published policy and that nobody has started. -/
def sampleDb (policies : PolicyTables) : ReviewDb where
  policies := policies
  reviewCase := ⟨.ofNat 3, .ofNat 1, .ofNat 2, .ofNat 4, none, .opened, .ofNat 20, 0, 0⟩
  workflow := none
  decisions := []
  work := ⟨[], []⟩
  outbox := []
  comments := []
  findings := []
  audit := []

def sampleEnv (memberships : MembershipGraph) (turn : Nat) : CallEnv where
  now := 100 + turn
  emittedAt := 100 + turn
  memberships := memberships
  deletionRequested := false
  uuid4 n := .ofNat (1000 * turn + n)

def sampleStart (memberships : MembershipGraph) : Event :=
  ⟨sampleEnv memberships 1, .start (.ofNat 3) (.ofNat 10) "c"⟩

/-- The decision of an actor in a later turn; the key names the turn. -/
def sampleDecide (memberships : MembershipGraph) (turn actor : Nat) (action : WorkflowAction)
    (revision : Nat) : Event :=
  ⟨sampleEnv memberships turn,
    .decide ⟨.ofNat 1000, .ofNat actor, action, toString turn, revision, "c"⟩⟩

def noMembers : MembershipGraph := ⟨[], []⟩

def twoStagePolicies : PolicyTables where
  versions := [sampleVersion [sampleStage 11 1 .any none [] [21], sampleStage 12 2 .any none [] [22]]]
  publishedValid := by decide
  versionIds := by decide
  stageIds := by decide

def twoStageRun : List Event :=
  [sampleStart noMembers, sampleDecide noMembers 2 21 .approve 0,
    sampleDecide noMembers 3 22 .approve 1]

theorem reachable_wellStructured_sample :
    ∃ workflow, (run step (sampleDb twoStagePolicies) twoStageRun).workflow = some workflow ∧
      workflow.state = .terminal .approved ∧
      WellStructured (run step (sampleDb twoStagePolicies) twoStageRun) workflow := by
  have ended : (run step (sampleDb twoStagePolicies) twoStageRun).workflow.map (·.state) =
      some (.terminal .approved) := by decide
  obtain ⟨workflow, stored, state⟩ := Option.map_eq_some_iff.mp ended
  exact ⟨workflow, stored, state,
    (reachable_wellStructured ⟨_, twoStageRun, ⟨rfl, rfl⟩, rfl⟩ stored).1⟩

end AgreementIntelligence.Reviews
