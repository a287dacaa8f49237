import AgreementIntelligence.Reviews.Structure

/-! Decisions are recorded exactly once. The lock on the workflow row puts the transactions
that decide on it in some order; every duplicate, retry and competing decision of any number
of callers is a call somewhere in that order, with surroundings of its own. -/

namespace AgreementIntelligence.Reviews
open Identity ApprovalPolicies Lib.Runs

structure DecideCall where
  env : CallEnv
  req : DecideRequest

def decideStep (db : ReviewDb) (call : DecideCall) : ReviewDb :=
  committed db (decide call.env db call.req)

/-- The guards let the call record a new decision. -/
def Admissible (db : ReviewDb) (call : DecideCall) : Prop :=
  ∃ admission, Admitted call.env db call.req admission

instance (db : ReviewDb) (call : DecideCall) : Decidable (Admissible db call) :=
  match passed : decideGuards call.env db call.req with
  | .ok (.fresh admission) => isTrue (by
      rcases decideGuards_ok_cases passed with ⟨_, same, -⟩ | ⟨admission, -, admitted⟩
      · cases same
      · exact ⟨admission, admitted⟩)
  | .ok (.replay workflow) => isFalse fun ⟨admission, admitted⟩ => by
      rw [decideGuards_of_admitted admitted] at passed
      cases passed
  | .error e => isFalse fun ⟨admission, admitted⟩ => by
      rw [decideGuards_of_admitted admitted] at passed
      cases passed

theorem decideStep_of_error {db : ReviewDb} {call : DecideCall} {e : ReviewWorkflowError}
    (raised : decide call.env db call.req = .error e) : decideStep db call = db := by
  rw [decideStep, raised]
  rfl

theorem decideStep_of_admitted {db : ReviewDb} {call : DecideCall} {admission : Admission}
    (admitted : Admitted call.env db call.req admission) :
    Recorded call.env db call.req admission (decideStep db call) := by
  obtain ⟨seen, after, returned, recorded⟩ := decide_ok_of_admitted admitted
  rwa [decideStep, committed_ok db returned]

/-- A call that the guards do not let record a new decision changes nothing at all. -/
theorem decideStep_of_not_admissible {db : ReviewDb} {call : DecideCall}
    (refused : ¬ Admissible db call) : decideStep db call = db := by
  cases returned : decide call.env db call.req with
  | error e => exact decideStep_of_error returned
  | ok pair =>
      rcases decide_returns returned with ⟨workflow, -, same⟩ | ⟨admission, admitted, -⟩
      · rw [decideStep, committed_ok db returned, same]
      · exact absurd ⟨admission, admitted⟩ refused

theorem run_decideStep_eq_run (db : ReviewDb) (calls : List DecideCall) :
    run decideStep db calls =
      run step db (calls.map fun call => ⟨call.env, .decide call.req⟩) := by
  induction calls generalizing db with
  | nil => rfl
  | cons call rest ih => exact ih (decideStep db call)

/-- At most one decision exists for a workflow and an idempotency key. -/
def KeysDistinct (db : ReviewDb) : Prop :=
  (db.decisions.map fun decision => (decision.workflowId, decision.idempotencyKey)).Nodup

theorem Recorded.keysDistinct {env : CallEnv} {db after : ReviewDb} {req : DecideRequest}
    {admission : Admission} (recorded : Recorded env db req admission after)
    (admitted : Admitted env db req admission) (distinct : KeysDistinct db) :
    KeysDistinct after := by
  obtain ⟨workflow, kept⟩ := recorded.frame
  have absent := decision?_eq_none.mp admitted.unrecorded
  rw [KeysDistinct, kept.decisions, List.map_append, List.nodup_append]
  refine ⟨distinct, List.nodup_singleton _, ?_⟩
  rintro pair old pair' new rfl
  obtain ⟨decision, member, rfl⟩ := List.mem_map.mp old
  rw [List.map_singleton, List.mem_singleton] at new
  obtain ⟨sameWorkflow, sameKey⟩ := Prod.mk.inj new
  exact absent decision member sameWorkflow sameKey

theorem step_keysDistinct (db : ReviewDb) (event : Event)
    (holds : Consistent db ∧ KeysDistinct db) :
    Consistent (step db event) ∧ KeysDistinct (step db event) := by
  obtain ⟨consistent, distinct⟩ := holds
  refine ⟨step_consistent db event consistent, ?_⟩
  rcases step_cases db event with same |
    ⟨_, _, _, -, -, version, activeOrdinal, work, event', audit, -, -, -, -, after, -⟩ | ⟨req, admission, -, admitted, recorded⟩ | ⟨now, workflow, stage, event', audit, -,
    -, -, after⟩
  · rwa [same]
  · rw [after]
    exact distinct
  · exact recorded.keysDistinct admitted distinct
  · rw [after]
    exact distinct

theorem reachable_keysDistinct {db : ReviewDb} (reached : Reachable step Initial db) :
    Consistent db ∧ KeysDistinct db :=
  reached.invariant (fun db initial => ⟨.inl initial, by simp [KeysDistinct, initial.2]⟩)
    step_keysDistinct

/-- What one decision call promises on a workflow: it records one decision and counts the
revision up, or it changes nothing; and which of the two is settled by the guards. -/
structure CallContract (db : ReviewDb) (workflow : ReviewWorkflow) (call : DecideCall) : Prop where
  recorded : Admissible db call → ∃ decision workflow',
    (decideStep db call).decisions = db.decisions ++ [decision] ∧
    decision.idempotencyKey = call.req.idempotencyKey ∧ decision.actorId = call.req.actorId ∧
    decision.action = call.req.action ∧ (decideStep db call).workflow = some workflow' ∧
    workflow'.id = workflow.id ∧ workflow'.revision = workflow.revision + 1
  unchanged : ¬ Admissible db call → decideStep db call = db
  replayed : ∀ decision ∈ db.decisions, call.req.workflowId = workflow.id →
    decision.idempotencyKey = call.req.idempotencyKey → decision.actorId = call.req.actorId →
    decision.action = call.req.action → ∃ seen, decide call.env db call.req = .ok (seen, db)
  mismatched : ∀ decision ∈ db.decisions, call.req.workflowId = workflow.id →
    decision.idempotencyKey = call.req.idempotencyKey →
    (decision.actorId ≠ call.req.actorId ∨ decision.action ≠ call.req.action) →
    ∃ e, decide call.env db call.req = .error e
  stale : (∀ decision ∈ db.decisions, decision.idempotencyKey ≠ call.req.idempotencyKey) →
    workflow.revision ≠ call.req.expectedRevision → ∃ e, decide call.env db call.req = .error e
  refused : ∀ e, decide call.env db call.req = .error e ↔
    decideGuards call.env db call.req = .error e
  rolledBack : ∀ e, decide call.env db call.req = .error e → decideStep db call = db

section
variable {db : ReviewDb} {workflow : ReviewWorkflow} {version : ApprovalPolicyVersion}
  {phase : Phase} {call : DecideCall}

/-- The record that a key is answered from is the only one with the key. -/
theorem Follows.decision? (follows : Follows db workflow version phase)
    (distinct : KeysDistinct db) {decision : ReviewWorkflowDecision} {key : String}
    (member : decision ∈ db.decisions) (keyed : decision.idempotencyKey = key) :
    db.decision? workflow key = some decision := by
  cases found : db.decision? workflow key with
  | none =>
      exact absurd keyed (decision?_eq_none.mp found decision member
        (follows.decisions decision member))
  | some other =>
      obtain ⟨inside, ofWorkflow, otherKey⟩ := decision?_eq_some found
      congr 1
      refine List.inj_on_of_nodup_map distinct inside member ?_
      rw [ofWorkflow, follows.decisions decision member, otherKey, keyed]

theorem decide_of_replayed {workflow : ReviewWorkflow}
    (replayed : Replayed db call.req workflow) :
    decide call.env db call.req = .ok (snapshot workflow db.outbox, db) := by
  simp only [decide, decideGuards_of_replayed replayed, bind, Except.bind]
  rfl

theorem decide_mismatched {decision : ReviewWorkflowDecision}
    (stored : db.workflow? call.req.workflowId = some workflow)
    (found : db.decision? workflow call.req.idempotencyKey = some decision)
    (differs : decision.actorId ≠ call.req.actorId ∨ decision.action ≠ call.req.action) :
    decide call.env db call.req = .error (.conflict none) := by
  rw [decide_raises_iff]
  simp only [decideGuards, stored, found, if_pos differs]
  rfl

theorem decide_stale (stored : db.workflow = some workflow)
    (unrecorded : db.decision? workflow call.req.idempotencyKey = none)
    (moved : workflow.revision ≠ call.req.expectedRevision) :
    decide call.env db call.req = .error (.conflict none) := by
  rw [decide_raises_iff]
  by_cases addressed : workflow.id = call.req.workflowId
  · have found : db.workflow? call.req.workflowId = some workflow :=
      workflow?_eq_some.mpr ⟨stored, addressed⟩
    simp only [decideGuards, found, unrecorded, if_pos (Or.inl moved)]
    rfl
  · have missing : db.workflow? call.req.workflowId = none := by
      simp [ReviewDb.workflow?, stored, addressed]
    simp only [decideGuards, missing]
    rfl

theorem Follows.callContract (follows : Follows db workflow version phase)
    (distinct : KeysDistinct db) (call : DecideCall) : CallContract db workflow call where
  recorded := by
    rintro ⟨admission, admitted⟩
    have stored := (workflow?_eq_some.mp admitted.stored).1
    rw [follows.stored] at stored
    cases stored
    obtain ⟨workflow', kept⟩ := (decideStep_of_admitted admitted).frame
    exact ⟨_, workflow', kept.decisions, rfl, rfl, rfl, kept.stored, kept.id, kept.revision⟩
  unchanged := decideStep_of_not_admissible
  replayed decision member addressed keyed actor action :=
    ⟨_, decide_of_replayed ⟨workflow?_eq_some.mpr ⟨follows.stored, addressed.symm⟩, decision,
      follows.decision? distinct member keyed, actor, action⟩⟩
  mismatched decision member addressed keyed differs :=
    ⟨_, decide_mismatched (workflow?_eq_some.mpr ⟨follows.stored, addressed.symm⟩)
      (follows.decision? distinct member keyed) differs⟩
  stale absent moved :=
    ⟨_, decide_stale follows.stored
      (decision?_eq_none.mpr fun decision member _ => absent decision member) moved⟩
  refused e := decide_raises_iff
  rolledBack e raised := decideStep_of_error raised

end

/-- How many of the calls made against revision `r` record a decision. -/
def recordedAgainst (r : Nat) : ReviewDb → List DecideCall → Nat
  | _, [] => 0
  | db, call :: rest =>
    (if call.req.expectedRevision = r ∧ Admissible db call then 1 else 0) +
      recordedAgainst r (decideStep db call) rest

/-- The revision counts the decisions of the workflow, before and after a call alike. -/
theorem Follows.afterCall {db : ReviewDb} {workflow : ReviewWorkflow}
    {version : ApprovalPolicyVersion} {phase : Phase}
    (follows : Follows db workflow version phase) (call : DecideCall) :
    ∃ workflow' phase', Follows (decideStep db call) workflow' version phase' ∧
      workflow'.id = workflow.id ∧ workflow'.revision =
        workflow.revision + if Admissible db call then 1 else 0 := by
  by_cases admissible : Admissible db call
  · obtain ⟨admission, admitted⟩ := admissible
    have stored := (workflow?_eq_some.mp admitted.stored).1
    rw [follows.stored] at stored
    cases stored
    have recorded := decideStep_of_admitted admitted
    obtain ⟨workflow', phase', after, -⟩ := recorded.follows admitted follows
    obtain ⟨kept', kept⟩ := recorded.frame
    have same := kept.stored
    rw [after.stored] at same
    cases same
    exact ⟨workflow', phase', after, kept.id, by rw [if_pos ⟨admission, admitted⟩, kept.revision]⟩
  · rw [decideStep_of_not_admissible admissible]
    exact ⟨workflow, phase, follows, rfl, by rw [if_neg admissible, Nat.add_zero]⟩

/-- An admissible call names the current revision. -/
theorem Follows.expected {db : ReviewDb} {workflow : ReviewWorkflow}
    {version : ApprovalPolicyVersion} {phase : Phase} {call : DecideCall}
    (follows : Follows db workflow version phase) (admissible : Admissible db call) :
    call.req.expectedRevision = workflow.revision := by
  obtain ⟨admission, admitted⟩ := admissible
  have stored := (workflow?_eq_some.mp admitted.stored).1
  rw [follows.stored] at stored
  cases stored
  exact admitted.revision.symm

/-- Nothing is recorded against a revision that has passed. -/
theorem recordedAgainst_passed {r : Nat} {db : ReviewDb} {workflow : ReviewWorkflow}
    {version : ApprovalPolicyVersion} {phase : Phase}
    (follows : Follows db workflow version phase) (passed : r < workflow.revision)
    (calls : List DecideCall) : recordedAgainst r db calls = 0 := by
  induction calls generalizing db workflow phase with
  | nil => rfl
  | cons call rest ih =>
      obtain ⟨workflow', phase', after, -, revision⟩ := follows.afterCall call
      have later : r < workflow'.revision := by omega
      rw [recordedAgainst, ih after later, if_neg]
      rintro ⟨expected, admissible⟩
      have current := follows.expected admissible
      omega

/-- Of the calls made against one revision at most one is recorded, whatever that revision. -/
theorem recordedAgainst_le_one {db : ReviewDb} {workflow : ReviewWorkflow}
    {version : ApprovalPolicyVersion} {phase : Phase}
    (follows : Follows db workflow version phase) (r : Nat) (calls : List DecideCall) :
    recordedAgainst r db calls ≤ 1 := by
  induction calls generalizing db workflow phase with
  | nil => exact Nat.zero_le 1
  | cons call rest ih =>
      obtain ⟨workflow', phase', after, -, revision⟩ := follows.afterCall call
      by_cases recorded : call.req.expectedRevision = r ∧ Admissible db call
      · have current := follows.expected recorded.2
        rw [if_pos recorded.2] at revision
        rw [recordedAgainst, if_pos recorded, recordedAgainst_passed after (by omega)]
      · rw [recordedAgainst, if_neg recorded, Nat.zero_add]
        exact ih after

/-- Of the calls made against the current revision exactly one is recorded as soon as one of
them is admissible. -/
theorem recordedAgainst_current {db : ReviewDb} {workflow : ReviewWorkflow}
    {version : ApprovalPolicyVersion} {phase : Phase}
    (follows : Follows db workflow version phase) (calls : List DecideCall) :
    recordedAgainst workflow.revision db calls =
      if ∃ call ∈ calls, Admissible db call then 1 else 0 := by
  induction calls with
  | nil => simp [recordedAgainst]
  | cons call rest ih =>
      by_cases admissible : Admissible db call
      · obtain ⟨workflow', phase', after, -, revision⟩ := follows.afterCall call
        rw [if_pos admissible] at revision
        rw [recordedAgainst, if_pos ⟨follows.expected admissible, admissible⟩,
          recordedAgainst_passed after (by omega), if_pos ⟨call, List.mem_cons_self, admissible⟩]
      · have rest' : (∃ other ∈ call :: rest, Admissible db other) ↔
            ∃ other ∈ rest, Admissible db other := by simp [admissible]
        rw [recordedAgainst, if_neg (fun both => admissible both.2), Nat.zero_add,
          decideStep_of_not_admissible admissible, ih]
        exact if_congr rest'.symm rfl rfl

theorem Follows.afterCalls {db : ReviewDb} {workflow : ReviewWorkflow}
    {version : ApprovalPolicyVersion} {phase : Phase}
    (follows : Follows db workflow version phase) (calls : List DecideCall) :
    ∃ workflow' phase', Follows (run decideStep db calls) workflow' version phase' ∧
      workflow'.id = workflow.id := by
  induction calls generalizing db workflow phase with
  | nil => exact ⟨workflow, phase, follows, rfl⟩
  | cons call rest ih =>
      obtain ⟨workflow₁, phase₁, after, sameId, -⟩ := follows.afterCall call
      obtain ⟨workflow₂, phase₂, last, sameId'⟩ := ih after
      exact ⟨workflow₂, phase₂, last, sameId'.trans sameId⟩

/-- Decisions are recorded exactly once: however the calls on a started review are ordered,
keys stay distinct, the revision grows by one with every new decision, every call keeps its
contract, and of the calls made against one revision at most one is recorded, exactly one of
those against the current revision once any of them is admissible. -/
theorem run_decidesOnce {db : ReviewDb} {workflow : ReviewWorkflow}
    (reached : Reachable step Initial db) (stored : db.workflow = some workflow)
    (calls : List DecideCall) :
    KeysDistinct (run decideStep db calls) ∧
    (∃ workflow', (run decideStep db calls).workflow = some workflow' ∧
      workflow'.id = workflow.id ∧ workflow'.revision + db.decisions.length =
        workflow.revision + (run decideStep db calls).decisions.length) ∧
    (∀ pre call post, calls = pre ++ call :: post → ∀ current,
      (run decideStep db pre).workflow = some current →
      CallContract (run decideStep db pre) current call) ∧
    (∀ r, recordedAgainst r db calls ≤ 1) ∧
    recordedAgainst workflow.revision db calls =
      if ∃ call ∈ calls, Admissible db call then 1 else 0 := by
  have distinct : ∀ calls, KeysDistinct (run decideStep db calls) := by
    intro calls
    rw [run_decideStep_eq_run]
    exact (run_invariant (fun db => Consistent db ∧ KeysDistinct db)
      (reachable_keysDistinct reached) step_keysDistinct).2
  rcases reachable_consistent reached with ⟨fresh, -⟩ | ⟨workflow', version, phase, follows⟩
  · rw [fresh] at stored
    cases stored
  rw [follows.stored] at stored
  cases stored
  refine ⟨distinct calls, ?_, ?_, fun r => recordedAgainst_le_one follows r calls,
    recordedAgainst_current follows calls⟩
  · obtain ⟨last, phase', after, sameId⟩ := follows.afterCalls calls
    exact ⟨last, after.stored, sameId, by rw [after.revision, follows.revision, Nat.add_comm]⟩
  · intro pre call post _ current there
    obtain ⟨last, phase', after, -⟩ := follows.afterCalls pre
    rw [after.stored] at there
    cases there
    exact after.callContract (distinct pre) call

/-- A retry under its own key, a competing decision and a duplicate of the first. -/
def competingCalls : List DecideCall :=
  [⟨sampleEnv noMembers 2, ⟨.ofNat 1000, .ofNat 21, .approve, "a", 0, "c"⟩⟩,
    ⟨sampleEnv noMembers 3, ⟨.ofNat 1000, .ofNat 21, .reject, "b", 0, "c"⟩⟩,
    ⟨sampleEnv noMembers 4, ⟨.ofNat 1000, .ofNat 21, .approve, "a", 0, "c"⟩⟩]

theorem run_decidesOnce_sample :
    ∃ workflow, (run step (sampleDb twoStagePolicies) [sampleStart noMembers]).workflow =
        some workflow ∧
      recordedAgainst workflow.revision
        (run step (sampleDb twoStagePolicies) [sampleStart noMembers]) competingCalls = 1 := by
  have started : ∃ workflow ∈
      (run step (sampleDb twoStagePolicies) [sampleStart noMembers]).workflow,
      workflow.revision = 0 := by decide
  obtain ⟨workflow, stored, -⟩ := started
  refine ⟨workflow, stored, ?_⟩
  have once := (run_decidesOnce ⟨_, [sampleStart noMembers], ⟨rfl, rfl⟩, rfl⟩ stored
    competingCalls).2.2.2.2
  rw [once]
  exact if_pos (by decide)

end AgreementIntelligence.Reviews
