import Mathlib.Data.List.Sort
import AgreementIntelligence.Lib.Json
import AgreementIntelligence.Playbooks

/-! The worker's choice of a playbook version for an agreement. A recorded override is taken first;
otherwise the published versions whose playbook fits the family, the direction and the jurisdiction
of the agreement are ranked, and the first one is taken. -/

namespace AgreementIntelligence.Playbooks
open Identity Lib.Casing Lib.Runs Lib.Json
open ApprovalPolicies (AgreementFamily DocumentDirection HttpException)

/-- What routing reads of a processing job. -/
structure RoutedJob where
  organizationId : Uuid
  workspaceId : Uuid
  agreementId : Uuid
  deriving DecidableEq, Repr

structure RoutedAgreement (φ : Type) where
  agreementType : String
  auditMetadata : Json φ

variable {φ : Type}

/-- `metadata if isinstance(metadata, dict) else {}` -/
def RoutedAgreement.routeMetadata (agreement : RoutedAgreement φ) : List (String × Json φ) :=
  match agreement.auditMetadata with
  | .object fields => fields
  | _ => []

def RoutedAgreement.direction (agreement : RoutedAgreement φ) : String :=
  stringOr (get agreement.routeMetadata "document_direction") "any"

def RoutedAgreement.jurisdiction (casing : CaseTable) (agreement : RoutedAgreement φ) : String :=
  casing.upperText (stringOr (get agreement.routeMetadata "jurisdiction") "any")

abbrev Candidate := PlaybookVersion × LegalPlaybook

/-- The override events that count, and the newest of them. -/
def PlaybookDb.overrides (db : PlaybookDb) (job : RoutedJob) : List PlaybookAuditEvent :=
  db.auditEvents.filter fun event => event.organizationId = job.organizationId ∧
    event.workspaceId = job.workspaceId ∧ event.agreementId = some job.agreementId ∧
    event.action = "agreement_override_recorded" ∧
    ∃ pair ∈ db.joined, pair.1.id = event.playbookVersionId ∧ pair.1.status = .published ∧
      pair.2.archivedAt = none

def newerEvent (a b : PlaybookAuditEvent) : Bool :=
  b.occurredAt < a.occurredAt ||
    (a.occurredAt = b.occurredAt && b.id.bits.toNat ≤ a.id.bits.toNat)

def PlaybookDb.overrideVersion (db : PlaybookDb) (job : RoutedJob) : Option Uuid :=
  ((db.overrides job).insertionSort fun a b => newerEvent a b).head?.map (·.playbookVersionId)

def fits (casing : CaseTable) (job : RoutedJob) (agreement : RoutedAgreement φ)
    (candidate : Candidate) : Bool :=
  candidate.1.organizationId = job.organizationId ∧ candidate.1.workspaceId = job.workspaceId ∧
    candidate.1.status = .published ∧
    candidate.2.organizationId = job.organizationId ∧ candidate.2.workspaceId = job.workspaceId ∧
    candidate.2.archivedAt = none ∧
    candidate.2.agreementFamily.value = agreement.agreementType ∧
    candidate.2.documentDirection.value ∈ ["any", agreement.direction] ∧
    candidate.2.jurisdiction ∈ ["any", agreement.jurisdiction casing]

def PlaybookDb.candidates (db : PlaybookDb) (casing : CaseTable) (job : RoutedJob)
    (agreement : RoutedAgreement φ) : List Candidate :=
  db.joined.filter (fits casing job agreement)

/-- `case((value != "any", 1), else_=0)` -/
def specific (value : String) : Nat :=
  if value ≠ "any" then 1 else 0

/-- Priority, then a direction of its own, then a jurisdiction of its own, the greater first; then
the identifier. -/
def ranksBefore (a b : Candidate) : Bool :=
  b.2.priority < a.2.priority ∨ a.2.priority = b.2.priority ∧
    (specific b.2.documentDirection.value < specific a.2.documentDirection.value ∨
      specific a.2.documentDirection.value = specific b.2.documentDirection.value ∧
        (specific b.2.jurisdiction < specific a.2.jurisdiction ∨
          specific a.2.jurisdiction = specific b.2.jurisdiction ∧
            a.1.id.bits.toNat < b.1.id.bits.toNat))

/-- Not ranked before by the other one. -/
def ranksFirst (a b : Candidate) : Prop :=
  ranksBefore b a = false

instance : DecidableRel ranksFirst := fun a b => inferInstanceAs (Decidable (ranksBefore b a = false))

instance : IsTrans Candidate ranksFirst where
  trans a b c first second := by
    simp only [ranksFirst, ranksBefore, decide_eq_false_iff_not] at *
    omega

instance : Std.Total ranksFirst where
  total a b := by
    simp only [ranksFirst, ranksBefore, decide_eq_false_iff_not]
    omega

def selectRoutedPlaybookVersion (casing : CaseTable) (db : PlaybookDb) (job : RoutedJob)
    (agreement : RoutedAgreement φ) : Option Uuid :=
  match db.overrideVersion job with
  | some versionId => some versionId
  | none => ((db.candidates casing job agreement).insertionSort ranksFirst).head?.map (·.1.id)

theorem id_eq_of_ties {a b : Candidate} (first : ranksFirst a b) (second : ranksFirst b a) :
    a.1.id = b.1.id := by
  have bits : a.1.id.bits.toNat = b.1.id.bits.toNat := by
    simp only [ranksFirst, ranksBefore, decide_eq_false_iff_not] at first second
    omega
  have same : a.1.id.bits = b.1.id.bits := BitVec.eq_of_toNat_eq bits
  rw [← Uuid.mk.injEq] at same
  exact same

/-- A candidate that no other one ranks before is the version that is taken. -/
theorem select_of_first {casing : CaseTable} {db : PlaybookDb} {job : RoutedJob}
    {agreement : RoutedAgreement φ} {candidate : Candidate}
    (free : db.overrideVersion job = none)
    (member : candidate ∈ db.candidates casing job agreement)
    (first : ∀ other ∈ db.candidates casing job agreement, ranksFirst candidate other) :
    selectRoutedPlaybookVersion casing db job agreement = some candidate.1.id := by
  have sorted := List.pairwise_insertionSort ranksFirst (db.candidates casing job agreement)
  have kept := (List.mem_insertionSort ranksFirst).mpr member
  have every : ∀ other ∈ (db.candidates casing job agreement).insertionSort ranksFirst,
      ranksFirst candidate other := fun other inside =>
    first other ((List.mem_insertionSort ranksFirst).mp inside)
  cases shape : (db.candidates casing job agreement).insertionSort ranksFirst with
  | nil =>
      rw [shape] at kept
      cases kept
  | cons head rest =>
      rw [shape] at kept sorted every
      have ties : candidate.1.id = head.1.id := by
        cases kept with
        | head => rfl
        | tail _ later =>
            have before := (List.pairwise_cons.mp sorted).1 candidate later
            exact id_eq_of_ties (every head List.mem_cons_self) before
      simp only [selectRoutedPlaybookVersion, free, shape, ties, List.head?_cons, Option.map_some]

end AgreementIntelligence.Playbooks
