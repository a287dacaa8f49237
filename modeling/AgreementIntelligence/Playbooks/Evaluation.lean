import AgreementIntelligence.Lib.Json
import AgreementIntelligence.Lib.Results
import AgreementIntelligence.Playbooks

/-! Evaluation of a rule against the clauses of an analysis document, in the API and in the worker.
The two have their own copies of the same helpers, which are defined once here; what differs is how
candidates are found and how a finding is put together. Floating-point numbers are a parameter.
Risk payloads and fallback suggestions are left out. -/

namespace AgreementIntelligence.Playbooks
open Lib.Casing Lib.Json Lib.Text Lib.Results

/-- The floating-point numbers of the platform. -/
structure Floats (φ : Type) where
  /-- `0.0` -/
  zero : φ
  /-- `_MINIMUM_CONFIDENCE`, 0.8 -/
  minimumConfidence : φ
  /-- `float(value)` of an integer, `none` when it is too large. -/
  ofInt : Int → Option φ
  lt : φ → φ → Bool
  le : φ → φ → Bool

inductive EvaluationError where
  | overflowError
  deriving DecidableEq, Repr

inductive FindingResult where
  | satisfied
  | missing
  | nonCompliant
  | needsReview
  deriving DecidableEq, Repr

structure Finding (φ : Type) where
  result : FindingResult
  confidence : φ
  method : EvaluationMethod
  citationIds : List String
  extractionVersion : String
  deriving DecidableEq, Repr

variable {φ : Type}

/-- A JSON object, as `isinstance(value, Mapping)` finds it. -/
abbrev Mapping (φ : Type) := List (String × Json φ)

def mapping? : Json φ → Option (Mapping φ)
  | .object fields => some fields
  | _ => none

def keepsInName (c : Char) : Bool :=
  ('a' ≤ c && c ≤ 'z') || ('0' ≤ c && c ≤ '9')

/-- `_normalized` -/
def normalized (casing : CaseTable) (value : Json φ) : String :=
  trim (· = '_') (String.ofList
    (replaceRuns keepsInName '_' false (casing.casefold (stringOr value "")).toList))

/-- `_canonical_clause_type`, which the worker has and the API has not. -/
def canonicalClauseType (casing : CaseTable) (value : Json φ) : String :=
  if normalized casing value = "liability" then "limitation_of_liability"
  else normalized casing value

/-- `_confidence`; a Boolean is no number here. -/
def confidence (floats : Floats φ) (clause : Mapping φ) : Except EvaluationError φ :=
  match get clause "confidence" with
  | .int n =>
    match floats.ofInt n with
    | none => .error .overflowError
    | some x => .ok x
  | .float x => .ok x
  | _ => .ok floats.zero

def isDeterministicClause (clause : Mapping φ) : Bool :=
  match get clause "extraction_version" with
  | .string version => startsWith version "clause-rules."
  | _ => false

/-- `_clause_authority` -/
def clauseAuthority (floats : Floats φ) (clause : Mapping φ) : Except EvaluationError (Bool × φ) := do
  let value ← confidence floats clause
  .ok (isDeterministicClause clause, value)

/-- `a > b` for two authorities. -/
def authorityExceeds (floats : Floats φ) (a b : Bool × φ) : Bool :=
  if a.1 = b.1 then floats.lt b.2 a.2 else a.1

def citationItem : Json φ → Option String
  | .string text => if text = "" then none else some text
  | _ => none

/-- `_citations` -/
def citations (clause : Mapping φ) : List String :=
  match get clause "citation_anchor_ids" with
  | .array items => items.filterMap citationItem
  | _ => []

/-- `max(…, key=…)` from a best item on; the first of the greatest is kept. -/
def maxFrom (floats : Floats φ) : Mapping φ × (Bool × φ) → List (Mapping φ) →
    Except EvaluationError (Mapping φ)
  | best, [] => .ok best.1
  | best, clause :: rest => do
    let authority ← clauseAuthority floats clause
    maxFrom floats (if authorityExceeds floats authority best.2 then (clause, authority) else best)
      rest

/-- `max(candidates, key=_clause_authority)` -/
def maxClause (floats : Floats φ) (first : Mapping φ) (rest : List (Mapping φ)) :
    Except EvaluationError (Mapping φ) := do
  let authority ← clauseAuthority floats first
  maxFrom floats (first, authority) rest

section Api

/-- The candidates of `_evaluate`. -/
def apiCandidates (casing : CaseTable) (rule : PlaybookRule) (analysis : Mapping φ) :
    List (Mapping φ) :=
  match get analysis "clauses" with
  | .array clauses => (clauses.filterMap mapping?).filter fun clause =>
      normalized casing (get clause "category") =
          normalized casing (.string rule.clauseType : Json φ) &&
        isDeterministicClause clause
  | _ => []

/-- `_evaluate` of the API. -/
def evaluate (floats : Floats φ) (casing : CaseTable) (rule : PlaybookRule)
    (analysis : Mapping φ) : Except EvaluationError (Finding φ) :=
  match apiCandidates casing rule analysis with
  | [] => .ok ⟨.needsReview, floats.zero, .deterministic, [], "unknown"⟩
  | first :: rest => do
    let clause ← maxClause floats first rest
    let value ← confidence floats clause
    let cited := citations clause
    let version := stringOr (get clause "extraction_version") "unknown"
    if floats.lt value floats.minimumConfidence || cited = [] then
      .ok ⟨.needsReview, value, .deterministic, cited, version⟩
    else
      let sourceText := casing.casefold (stringOr (get clause "source_text") "")
      let expected := casing.casefold (strip (rule.preferredLanguage.getD ""))
      if expected = "" then .ok ⟨.needsReview, value, .deterministic, cited, version⟩
      else if rule.policyType = .prohibited then
        .ok ⟨if contains sourceText expected then .nonCompliant else .satisfied, value,
          .deterministic, cited, version⟩
      else
        .ok ⟨if contains sourceText expected then .satisfied else .needsReview, value,
          .deterministic, cited, version⟩

end Api

section Worker

/-- `_clauses` -/
def clauses (analysis : Mapping φ) : List (Mapping φ) :=
  match get analysis "clauses" with
  | .array items => items.filterMap mapping?
  | _ => []

/-- `_deterministic_finding`: the finding and the clause it is about. -/
def deterministicFinding (floats : Floats φ) (casing : CaseTable) (rule : PlaybookRule)
    (candidates : List (Mapping φ)) : Except EvaluationError (Finding φ × Option (Mapping φ)) :=
  match candidates with
  | [] => .ok (⟨.needsReview, floats.zero, .deterministic, [], "unknown"⟩, none)
  | first :: rest => do
    let clause ← maxClause floats first rest
    let value ← confidence floats clause
    let cited := citations clause
    let version := stringOr (get clause "extraction_version") "unknown"
    if floats.lt value floats.minimumConfidence || cited = [] then
      .ok (⟨.needsReview, value, .deterministic, cited, version⟩, some clause)
    else
      let sourceText := casing.casefold (stringOr (get clause "source_text") "")
      let expectedLanguage := casing.casefold (strip (rule.preferredLanguage.getD ""))
      if expectedLanguage = "" then
        .ok (⟨.needsReview, value, .deterministic, cited, version⟩, some clause)
      else
        let matchesPolicyLanguage := expectedLanguage ≠ "" && contains sourceText expectedLanguage
        let result : FindingResult :=
          if rule.policyType = .prohibited then
            if matchesPolicyLanguage then .nonCompliant else .satisfied
          else if matchesPolicyLanguage then .satisfied
          else .needsReview
        .ok (⟨result, value, .deterministic, cited, version⟩, some clause)

abbrev SemanticAssessor (φ : Type) := PlaybookRule → Mapping φ → FindingResult

/-- `_may_assess_semantically`, with a selected clause. -/
def mayAssessSemantically (floats : Floats φ) (rule : PlaybookRule) (finding : Finding φ) : Bool :=
  rule.evaluationConfig.method = .semantic && rule.evaluationConfig.semanticAssessmentPermitted &&
    finding.result = .needsReview && finding.citationIds ≠ [] &&
    floats.le floats.minimumConfidence finding.confidence

/-- Model assistance can flag a deviation but cannot create compliance. -/
def assessed (floats : Floats φ) (assessor : Option (SemanticAssessor φ)) (rule : PlaybookRule)
    (found : Finding φ × Option (Mapping φ)) : Finding φ :=
  match assessor, found.2 with
  | some assess, some clause =>
    if mayAssessSemantically floats rule found.1 then
      if assess rule clause ∈ [FindingResult.needsReview, .nonCompliant] then
        { found.1 with result := assess rule clause, method := .semantic }
      else found.1
    else found.1
  | _, _ => found.1

/-- The candidates of `evaluate_playbook`. -/
def workerCandidates (casing : CaseTable) (rule : PlaybookRule) (analysis : Mapping φ) :
    List (Mapping φ) :=
  (clauses analysis).filter fun clause =>
    canonicalClauseType casing (get clause "category") =
        canonicalClauseType casing (.string rule.clauseType : Json φ) &&
      isDeterministicClause clause

/-- `evaluate_playbook` -/
def evaluatePlaybook (floats : Floats φ) (casing : CaseTable)
    (assessor : Option (SemanticAssessor φ)) (analysis : Mapping φ) :
    List PlaybookRule → Except EvaluationError (List (Finding φ))
  | [] => .ok []
  | rule :: rest => do
    let found ← deterministicFinding floats casing rule (workerCandidates casing rule analysis)
    let findings ← evaluatePlaybook floats casing assessor analysis rest
    .ok (assessed floats assessor rule found :: findings)

end Worker

end AgreementIntelligence.Playbooks
