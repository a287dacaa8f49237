import AgreementIntelligence.Lib.Table
import AgreementIntelligence.Identity

/-! Approval policy versions, their stages and the check that publication makes. A stage row
lists role keys and users; a version loads its stages ordered by ordinal. Users are listed by
identifier, which is what the stored canonical text of each of them says. Routing and the
uniqueness of the published version are outside this file. -/

namespace AgreementIntelligence.ApprovalPolicies
open Identity

inductive ApprovalMode where
  | any
  | all
  | quorum
  deriving DecidableEq, Repr

structure ApprovalPolicyStage where
  id : Uuid
  policyVersionId : Uuid
  ordinal : Nat
  name : String
  approvalMode : ApprovalMode
  quorumCount : Option Nat
  eligibleRoleKeys : List String
  eligibleUserIds : List Uuid
  deadlineHours : Option Nat
  escalationRoleKey : Option String
  deriving DecidableEq, Repr

inductive ApprovalPolicyStatus where
  | draft
  | published
  deriving DecidableEq, Repr

structure ApprovalPolicyVersion where
  id : Uuid
  organizationId : Uuid
  workspaceId : Uuid
  policyId : Uuid
  version : Nat
  status : ApprovalPolicyStatus
  submitterMayApprove : Bool
  allowCrossStageSameApprover : Bool
  stages : List ApprovalPolicyStage
  deriving DecidableEq, Repr

/-- Listed entries, roles and users counted apart and each without repetition. -/
def ApprovalPolicyStage.eligibleCount (stage : ApprovalPolicyStage) : Nat :=
  stage.eligibleRoleKeys.dedup.length + stage.eligibleUserIds.dedup.length

structure HttpException where
  status : Nat
  code : String
  message : String
  deriving DecidableEq, Repr

def invalidDraft (message : String) : HttpException :=
  ⟨422, "invalid_approval_policy_draft", message⟩

def supportedRoles : List String := RoleKey.all.map RoleKey.value

/-- One turn of the loop of `_validate_draft`. -/
def validateStage (expectedOrdinal : Nat) (stage : ApprovalPolicyStage) :
    Except HttpException Unit :=
  if stage.ordinal ≠ expectedOrdinal then
    .error (invalidDraft "approval policy stages must have consecutive ordering")
  else if stage.eligibleRoleKeys = [] ∧ stage.eligibleUserIds = [] then
    .error (invalidDraft "approval policy stage requires an eligible role or user")
  else if ∃ key ∈ stage.eligibleRoleKeys, key ∉ supportedRoles then
    .error (invalidDraft "approval policy stage contains an unsupported role")
  else if ∃ key ∈ stage.escalationRoleKey, key ≠ "" ∧ key ∉ supportedRoles then
    .error (invalidDraft "approval policy stage contains an unsupported escalation role")
  else if stage.approvalMode = .quorum then
    match stage.quorumCount with
    | none => .error (invalidDraft "approval policy stage quorum exceeds eligible approvers")
    | some quorum =>
      if quorum > stage.eligibleCount then
        .error (invalidDraft "approval policy stage quorum exceeds eligible approvers")
      else .ok ()
  else if stage.quorumCount ≠ none then
    .error (invalidDraft "approval policy stage quorum is only valid for quorum mode")
  else .ok ()

def validateStages : Nat → List ApprovalPolicyStage → Except HttpException Unit
  | _, [] => .ok ()
  | expectedOrdinal, stage :: rest =>
    match validateStage expectedOrdinal stage with
    | .error e => .error e
    | .ok () => validateStages (expectedOrdinal + 1) rest

def validateDraft (version : ApprovalPolicyVersion) : Except HttpException Unit :=
  if version.stages = [] then
    .error (invalidDraft "approval policy requires at least one stage")
  else validateStages 1 version.stages

/-- What a stage that passed the check satisfies. -/
structure StageValid (expectedOrdinal : Nat) (stage : ApprovalPolicyStage) : Prop where
  ordinal : stage.ordinal = expectedOrdinal
  listed : stage.eligibleRoleKeys ≠ [] ∨ stage.eligibleUserIds ≠ []
  roles : ∀ key ∈ stage.eligibleRoleKeys, key ∈ supportedRoles
  escalation : ∀ key ∈ stage.escalationRoleKey, key ≠ "" → key ∈ supportedRoles
  quorum : stage.approvalMode = .quorum →
    ∃ quorum, stage.quorumCount = some quorum ∧ quorum ≤ stage.eligibleCount
  noQuorum : stage.approvalMode ≠ .quorum → stage.quorumCount = none

theorem validateStage_ok_iff {expectedOrdinal : Nat} {stage : ApprovalPolicyStage} :
    validateStage expectedOrdinal stage = .ok () ↔ StageValid expectedOrdinal stage := by
  constructor
  · intro passed
    unfold validateStage at passed
    split at passed <;> [cases passed; rename_i ordinal]
    split at passed <;> [cases passed; rename_i listed]
    split at passed <;> [cases passed; rename_i roles]
    split at passed <;> [cases passed; rename_i escalation]
    push Not at ordinal listed roles escalation
    refine ⟨ordinal, ?_, roles, escalation, ?_, ?_⟩
    · by_cases none : stage.eligibleRoleKeys = []
      · exact .inr (listed none)
      · exact .inl none
    · intro mode
      rw [if_pos mode] at passed
      split at passed
      · cases passed
      · rename_i quorum stored
        split at passed
        · cases passed
        · rename_i small
          exact ⟨quorum, stored, Nat.le_of_not_lt small⟩
    · intro mode
      rw [if_neg mode] at passed
      split at passed
      · cases passed
      · rename_i absent
        exact not_not.mp absent
  · intro valid
    unfold validateStage
    rw [if_neg (not_not.mpr valid.ordinal), if_neg, if_neg, if_neg]
    · by_cases mode : stage.approvalMode = .quorum
      · obtain ⟨quorum, stored, small⟩ := valid.quorum mode
        rw [if_pos mode, stored]
        exact if_neg (Nat.not_lt.mpr small)
      · rw [if_neg mode, if_neg (not_not.mpr (valid.noQuorum mode))]
    · rintro ⟨key, stored, filled, unsupported⟩
      exact unsupported (valid.escalation key stored filled)
    · rintro ⟨key, stored, unsupported⟩
      exact unsupported (valid.roles key stored)
    · rintro ⟨noRoles, noUsers⟩
      exact valid.listed.elim (fun some => some noRoles) fun some => some noUsers

theorem validateStages_ok_iff {start : Nat} {stages : List ApprovalPolicyStage} :
    validateStages start stages = .ok () ↔
      ∀ i (h : i < stages.length), StageValid (start + i) stages[i] := by
  induction stages generalizing start with
  | nil => simp [validateStages]
  | cons stage rest ih =>
      have head : validateStages start (stage :: rest) = .ok () ↔
          StageValid start stage ∧ validateStages (start + 1) rest = .ok () := by
        rw [validateStages, ← validateStage_ok_iff]
        cases validateStage start stage with
        | error e => simp
        | ok u => simp
      rw [head, ih]
      constructor
      · rintro ⟨first, others⟩ i h
        cases i with
        | zero => exact first
        | succ i =>
            have later := others i (Nat.lt_of_succ_lt_succ h)
            rwa [Nat.add_right_comm] at later
      · intro each
        refine ⟨each 0 (Nat.succ_pos _), fun i h => ?_⟩
        have later := each (i + 1) (Nat.succ_lt_succ h)
        rwa [← Nat.add_assoc, Nat.add_right_comm] at later

/-- A version passes the check exactly when it has a stage and its stages are numbered from
one and are valid each. -/
theorem validateDraft_ok_iff {version : ApprovalPolicyVersion} :
    validateDraft version = .ok () ↔ version.stages ≠ [] ∧
      ∀ i (h : i < version.stages.length), StageValid (i + 1) version.stages[i] := by
  unfold validateDraft
  by_cases empty : version.stages = []
  · simp [empty]
  · rw [if_neg empty, validateStages_ok_iff, and_iff_right empty]
    simp only [Nat.add_comm 1]

/-- The policy tables. Publication has checked every published version, and rows are
addressed by their primary keys. -/
structure PolicyTables where
  versions : List ApprovalPolicyVersion
  publishedValid : ∀ version ∈ versions, version.status = .published →
    validateDraft version = .ok ()
  versionIds : (versions.map (·.id)).Nodup
  stageIds : (versions.flatMap fun version => version.stages.map (·.id)).Nodup

def PolicyTables.version? (tables : PolicyTables) (id : Uuid) : Option ApprovalPolicyVersion :=
  tables.versions.find? fun version => version.id = id

def PolicyTables.stages (tables : PolicyTables) : List ApprovalPolicyStage :=
  tables.versions.flatMap (·.stages)

def PolicyTables.stage? (tables : PolicyTables) (id : Uuid) : Option ApprovalPolicyStage :=
  tables.stages.find? fun stage => stage.id = id

/-- A stage is found by its identifier in any version it belongs to. -/
theorem PolicyTables.stage?_of_mem {tables : PolicyTables} {version : ApprovalPolicyVersion}
    {stage : ApprovalPolicyStage} (listed : version ∈ tables.versions)
    (member : stage ∈ version.stages) : tables.stage? stage.id = some stage := by
  have inside : stage ∈ tables.stages := List.mem_flatMap.mpr ⟨version, listed, member⟩
  have distinct : (tables.stages.map (·.id)).Nodup := by
    rw [PolicyTables.stages, List.map_flatMap]
    exact tables.stageIds
  exact Lib.Table.find?_of_mem distinct inside

end AgreementIntelligence.ApprovalPolicies
