import AgreementIntelligence.Playbooks.Evaluation

/-! Where the API and the worker find the same. Both judge the clause of greatest confidence among
their candidates in the same way; the worker takes liability for limitation of liability when it
looks for candidates and the API does not. -/

namespace AgreementIntelligence.Playbooks
open Lib.Casing Lib.Json Lib.Text Lib.Results

variable {φ : Type} {floats : Floats φ} {casing : CaseTable} {rule : PlaybookRule}
  {analysis : Mapping φ}

/-- What a finding is made of: the confidence, the citations and the extraction version of the clause
that is judged, and whether the clause is sure, cited and holds the preferred language. -/
structure Evidence (φ : Type) where
  confidence : φ
  citationIds : List String
  extractionVersion : String
  holds : Bool
  deriving DecidableEq, Repr

def expectedLanguage (casing : CaseTable) (rule : PlaybookRule) : String :=
  casing.casefold (strip (rule.preferredLanguage.getD ""))

/-- Enough is known for a verdict. -/
def decisive (floats : Floats φ) (casing : CaseTable) (rule : PlaybookRule) (value : φ)
    (cited : List String) : Bool :=
  !floats.lt value floats.minimumConfidence && cited ≠ [] && expectedLanguage casing rule ≠ ""

def clauseEvidence (floats : Floats φ) (casing : CaseTable) (rule : PlaybookRule)
    (clause : Mapping φ) : Except EvaluationError (Evidence φ) := do
  let value ← confidence floats clause
  .ok ⟨value, citations clause, stringOr (get clause "extraction_version") "unknown",
    decisive floats casing rule value (citations clause) &&
      contains (casing.casefold (stringOr (get clause "source_text") ""))
        (expectedLanguage casing rule)⟩

/-- The evidence of the first clause of greatest confidence. -/
def evidence (floats : Floats φ) (casing : CaseTable) (rule : PlaybookRule) :
    List (Mapping φ) → Except EvaluationError (Option (Evidence φ))
  | [] => .ok none
  | first :: rest => do
    let clause ← maxClause floats first rest
    let shown ← clauseEvidence floats casing rule clause
    .ok (some shown)

def verdict (floats : Floats φ) (casing : CaseTable) (rule : PlaybookRule) (shown : Evidence φ) :
    FindingResult :=
  if decisive floats casing rule shown.confidence shown.citationIds then
    if rule.policyType = .prohibited then if shown.holds then .nonCompliant else .satisfied
    else if shown.holds then .satisfied else .needsReview
  else .needsReview

def findingOf (floats : Floats φ) (casing : CaseTable) (rule : PlaybookRule) :
    Option (Evidence φ) → Finding φ
  | none => ⟨.needsReview, floats.zero, .deterministic, [], "unknown"⟩
  | some shown => ⟨verdict floats casing rule shown, shown.confidence, .deterministic,
      shown.citationIds, shown.extractionVersion⟩

theorem decisive_of_unsure {value : φ} {cited : List String}
    (unsure : floats.lt value floats.minimumConfidence = true ∨ cited = []) :
    decisive floats casing rule value cited = false := by
  rcases unsure with low | uncited
  · simp [decisive, low]
  · simp [decisive, uncited]

theorem decisive_of_silent {value : φ} {cited : List String}
    (silent : expectedLanguage casing rule = "") :
    decisive floats casing rule value cited = false := by
  simp [decisive, silent]

theorem decisive_of {value : φ} {cited : List String}
    (sure : ¬ (floats.lt value floats.minimumConfidence = true ∨ cited = []))
    (spoken : expectedLanguage casing rule ≠ "") :
    decisive floats casing rule value cited = true := by
  rw [not_or, Bool.not_eq_true] at sure
  simp [decisive, sure.1, sure.2, spoken]

theorem deterministicFinding_eq (candidates : List (Mapping φ)) :
    (deterministicFinding floats casing rule candidates).map Prod.fst =
      (evidence floats casing rule candidates).map (findingOf floats casing rule) := by
  have expected : casing.casefold (strip (rule.preferredLanguage.getD "")) =
      expectedLanguage casing rule := rfl
  cases candidates with
  | nil => rfl
  | cons first rest =>
      simp only [deterministicFinding, evidence, clauseEvidence, bind, Except.bind, expected]
      cases maxClause floats first rest with
      | error e => rfl
      | ok clause =>
          dsimp only
          cases confidence floats clause with
          | error e => rfl
          | ok value =>
              by_cases unsure : floats.lt value floats.minimumConfidence = true ∨ citations clause = []
              · have weak := @decisive_of_unsure _ _ casing rule _ _ unsure
                simp [unsure, weak, Except.map, findingOf, verdict]
              · by_cases silent : expectedLanguage casing rule = ""
                · have weak := @decisive_of_silent _ floats _ _ value (citations clause) silent
                  simp [unsure, silent, weak, Except.map, findingOf, verdict]
                · have strong := decisive_of unsure silent
                  simp [unsure, silent, strong, Except.map, findingOf, verdict]

/-- Once its candidates are found the API goes on as the worker does. -/
theorem evaluate_eq_deterministicFinding : evaluate floats casing rule analysis =
    (deterministicFinding floats casing rule (apiCandidates casing rule analysis)).map Prod.fst := by
  unfold evaluate deterministicFinding
  cases apiCandidates casing rule analysis with
  | nil => rfl
  | cons first rest =>
      simp only [bind, Except.bind]
      cases maxClause floats first rest with
      | error e => rfl
      | ok clause =>
          dsimp only
          cases confidence floats clause with
          | error e => rfl
          | ok value =>
              dsimp only
              by_cases unsure : floats.lt value floats.minimumConfidence = true ∨ citations clause = []
              · simp [unsure, Except.map]
              · by_cases silent : casing.casefold (strip (rule.preferredLanguage.getD "")) = ""
                · simp [unsure, silent, Except.map]
                · by_cases prohibited : rule.policyType = .prohibited
                  · simp [unsure, silent, prohibited, Except.map]
                  · simp [unsure, silent, prohibited, Except.map]

theorem evaluatePlaybook_single : evaluatePlaybook floats casing none analysis [rule] =
    ((deterministicFinding floats casing rule (workerCandidates casing rule analysis)).map
      Prod.fst).map fun finding => [finding] := by
  simp only [evaluatePlaybook, bind, Except.bind]
  cases deterministicFinding floats casing rule (workerCandidates casing rule analysis) with
  | error e => rfl
  | ok found => rfl

/-- Findings show all of the evidence they are made of. -/
theorem findingOf_inj {first second : Evidence φ}
    (sure : first.holds = true → decisive floats casing rule first.confidence first.citationIds = true)
    (sure' : second.holds = true →
      decisive floats casing rule second.confidence second.citationIds = true)
    (same : findingOf floats casing rule (some first) = findingOf floats casing rule (some second)) :
    first = second := by
  obtain ⟨value, cited, version, holds⟩ := first
  obtain ⟨value', cited', version', holds'⟩ := second
  simp only [findingOf, Finding.mk.injEq, true_and] at same
  obtain ⟨result, rfl, rfl, rfl⟩ := same
  by_cases enough : decisive floats casing rule value cited = true
  · by_cases prohibited : rule.policyType = .prohibited
    · cases holds <;> cases holds' <;> simp_all [verdict]
    · cases holds <;> cases holds' <;> simp_all [verdict]
  · cases holds <;> cases holds' <;> simp_all

theorem clauseEvidence_ok {clause : Mapping φ} {shown : Evidence φ}
    (read : clauseEvidence floats casing rule clause = .ok shown) :
    shown.extractionVersion = stringOr (get clause "extraction_version") "unknown" ∧
      (shown.holds = true → decisive floats casing rule shown.confidence shown.citationIds = true) := by
  obtain ⟨value, -, last⟩ := bind_ok.mp read
  cases last
  refine ⟨rfl, fun holds => ?_⟩
  exact (Bool.and_eq_true _ _ ▸ holds).1

theorem maxFrom_mem {best : Mapping φ × (Bool × φ)} {rest : List (Mapping φ)} {clause : Mapping φ}
    (chosen : maxFrom floats best rest = .ok clause) : clause = best.1 ∨ clause ∈ rest := by
  induction rest generalizing best with
  | nil =>
      cases chosen
      exact .inl rfl
  | cons next later ih =>
      obtain ⟨authority, -, chosen⟩ := bind_ok.mp chosen
      rcases ih chosen with kept | inside
      · split_ifs at kept
        · exact .inr (kept ▸ List.mem_cons_self)
        · exact .inl kept
      · exact .inr (List.mem_cons_of_mem next inside)

theorem maxClause_mem {first clause : Mapping φ} {rest : List (Mapping φ)}
    (chosen : maxClause floats first rest = .ok clause) : clause ∈ first :: rest := by
  obtain ⟨authority, -, chosen⟩ := bind_ok.mp chosen
  exact List.mem_cons.mpr (maxFrom_mem chosen)

theorem deterministic_version {clause : Mapping φ} (deterministic : isDeterministicClause clause) :
    stringOr (get clause "extraction_version") "unknown" ≠ "unknown" := by
  unfold isDeterministicClause at deterministic
  split at deterministic
  next version read =>
    rw [read]
    intro unknown
    have text : version = "unknown" := unknown
    rw [text] at deterministic
    exact absurd deterministic (by decide)
  next => cases deterministic

theorem evidence_some {candidates : List (Mapping φ)} {shown : Evidence φ}
    (found : evidence floats casing rule candidates = .ok (some shown)) :
    ∃ clause ∈ candidates, clauseEvidence floats casing rule clause = .ok shown := by
  cases candidates with
  | nil => cases found
  | cons first rest =>
      obtain ⟨clause, chosen, found⟩ := bind_ok.mp found
      obtain ⟨other, read, last⟩ := bind_ok.mp found
      cases last
      exact ⟨clause, maxClause_mem chosen, read⟩

theorem evidence_none {candidates : List (Mapping φ)}
    (found : evidence floats casing rule candidates = .ok none) : candidates = [] := by
  cases candidates with
  | nil => rfl
  | cons first rest =>
      obtain ⟨clause, -, found⟩ := bind_ok.mp found
      obtain ⟨other, -, last⟩ := bind_ok.mp found
      cases last

/-- Findings about deterministic clauses are the same only when the evidence is. -/
theorem findings_eq_iff {first second : List (Mapping φ)}
    (sure : ∀ clause ∈ first, isDeterministicClause clause)
    (sure' : ∀ clause ∈ second, isDeterministicClause clause) :
    (evidence floats casing rule first).map (findingOf floats casing rule) =
        (evidence floats casing rule second).map (findingOf floats casing rule) ↔
      evidence floats casing rule first = evidence floats casing rule second := by
  refine ⟨fun same => ?_, fun same => by rw [same]⟩
  have known : ∀ {candidates : List (Mapping φ)} {shown : Evidence φ},
      (∀ clause ∈ candidates, isDeterministicClause clause) →
      evidence floats casing rule candidates = .ok (some shown) →
      shown.extractionVersion ≠ "unknown" ∧ (shown.holds = true →
        decisive floats casing rule shown.confidence shown.citationIds = true) := by
    intro candidates shown deterministic found
    obtain ⟨clause, member, read⟩ := evidence_some found
    obtain ⟨version, holds⟩ := clauseEvidence_ok read
    exact ⟨version ▸ deterministic_version (deterministic clause member), holds⟩
  cases one : evidence floats casing rule first with
  | error e =>
      cases other : evidence floats casing rule second with
      | error e' => rfl
      | ok shown' =>
          rw [one, other] at same
          cases same
  | ok shown =>
      cases other : evidence floats casing rule second with
      | error e' =>
          rw [one, other] at same
          cases same
      | ok shown' =>
          rw [one, other] at same
          have equal : findingOf floats casing rule shown = findingOf floats casing rule shown' :=
            Except.ok.inj same
          cases shown with
          | none =>
              cases shown' with
              | none => rfl
              | some shown' =>
                  have version := congrArg Finding.extractionVersion equal
                  exact absurd version.symm (known sure' other).1
          | some shown =>
              cases shown' with
              | none =>
                  have version := congrArg Finding.extractionVersion equal
                  exact absurd version (known sure one).1
              | some shown' =>
                  rw [findingOf_inj (known sure one).2 (known sure' other).2 equal]

/-- The two names that the worker takes for one. -/
def liabilityNames : List String := ["liability", "limitation_of_liability"]

/-- The deterministic clauses of a document whose category says one of the names. -/
def filed (casing : CaseTable) (names : List String) (analysis : Mapping φ) : List (Mapping φ) :=
  (clauses analysis).filter fun clause =>
    normalized casing (get clause "category") ∈ names && isDeterministicClause clause

def ruleName (casing : CaseTable) (rule : PlaybookRule) : String :=
  normalized casing (.string rule.clauseType : Json Unit)

/-- The rule is about something else; or no clause is filed under the other of the two names; or
clauses are filed under the name of the rule, and the first clause of greatest confidence under both
names shows the evidence that the first one under this name shows. -/
def Unaffected (floats : Floats φ) (casing : CaseTable) (rule : PlaybookRule)
    (analysis : Mapping φ) : Prop :=
  ruleName casing rule ∉ liabilityNames ∨
    (∀ clause ∈ filed casing liabilityNames analysis,
      normalized casing (get clause "category") = ruleName casing rule) ∨
    (filed casing [ruleName casing rule] analysis ≠ [] ∧
      evidence floats casing rule (filed casing liabilityNames analysis) =
        evidence floats casing rule (filed casing [ruleName casing rule] analysis))

theorem normalized_rule : normalized casing (.string rule.clauseType : Json φ) =
    ruleName casing rule := rfl

theorem apiCandidates_eq :
    apiCandidates casing rule analysis = filed casing [ruleName casing rule] analysis := by
  have listed : apiCandidates casing rule analysis = (clauses analysis).filter fun clause =>
      normalized casing (get clause "category") =
          normalized casing (.string rule.clauseType : Json φ) &&
        isDeterministicClause clause := by
    unfold apiCandidates clauses
    split <;> rfl
  rw [listed]
  refine List.filter_congr fun clause _ => ?_
  rw [normalized_rule]
  by_cases own : normalized casing (get clause "category") = ruleName casing rule
  · simp [own]
  · simp [own]

theorem canonical_of_other {value : Json φ} (other : normalized casing value ∉ liabilityNames) :
    canonicalClauseType casing value = normalized casing value :=
  if_neg fun liability => other (by simp [liability, liabilityNames])

theorem canonical_of_liability {value : Json φ} (named : normalized casing value ∈ liabilityNames) :
    canonicalClauseType casing value = "limitation_of_liability" := by
  unfold canonicalClauseType
  split_ifs with liability
  · rfl
  · simpa [liabilityNames, liability] using named

theorem canonical_eq_iff_of_other {first second : Json φ}
    (other : normalized casing second ∉ liabilityNames) :
    canonicalClauseType casing first = canonicalClauseType casing second ↔
      normalized casing first = normalized casing second := by
  rw [canonical_of_other other]
  by_cases named : normalized casing first ∈ liabilityNames
  · have apart : "limitation_of_liability" ≠ normalized casing second := fun same =>
      other (by simp [← same, liabilityNames])
    have different : normalized casing first ≠ normalized casing second := fun same =>
      other (same ▸ named)
    rw [canonical_of_liability named]
    simp [apart, different]
  · rw [canonical_of_other named]

theorem canonical_eq_iff_of_liability {first second : Json φ}
    (named : normalized casing second ∈ liabilityNames) :
    canonicalClauseType casing first = canonicalClauseType casing second ↔
      normalized casing first ∈ liabilityNames := by
  rw [canonical_of_liability named]
  constructor
  · intro same
    by_contra other
    rw [canonical_of_other other] at same
    exact other (by simp [same, liabilityNames])
  · exact canonical_of_liability

theorem workerCandidates_of_other (other : ruleName casing rule ∉ liabilityNames) :
    workerCandidates casing rule analysis = filed casing [ruleName casing rule] analysis := by
  refine List.filter_congr fun clause _ => ?_
  rw [← normalized_rule (φ := φ)] at other
  simp [canonical_eq_iff_of_other other, normalized_rule]

theorem workerCandidates_of_liability (named : ruleName casing rule ∈ liabilityNames) :
    workerCandidates casing rule analysis = filed casing liabilityNames analysis := by
  refine List.filter_congr fun clause _ => ?_
  rw [← normalized_rule (φ := φ)] at named
  simp [canonical_eq_iff_of_liability named]

theorem filed_deterministic {names : List String} :
    ∀ clause ∈ filed casing names analysis, isDeterministicClause clause := fun _ member => by
  have kept := (List.mem_filter.mp member).2
  rw [Bool.and_eq_true] at kept
  exact kept.2

theorem filed_own (named : ruleName casing rule ∈ liabilityNames)
    (own : ∀ clause ∈ filed casing liabilityNames analysis,
      normalized casing (get clause "category") = ruleName casing rule) :
    filed casing liabilityNames analysis = filed casing [ruleName casing rule] analysis := by
  refine List.filter_congr fun clause inside => ?_
  by_cases deterministic : isDeterministicClause clause = true
  · have turn : normalized casing (get clause "category") ∈ liabilityNames ↔
        normalized casing (get clause "category") = ruleName casing rule := by
      constructor
      · intro either
        exact own clause (List.mem_filter.mpr ⟨inside, by simp [either, deterministic]⟩)
      · intro same
        rwa [same]
    simp [turn]
  · simp [deterministic]

/-- The API and the worker find the same about a rule exactly when the second name of liability
makes no difference. -/
theorem evaluate_agrees_iff : evaluatePlaybook floats casing none analysis [rule] =
      (evaluate floats casing rule analysis).map (fun finding => [finding]) ↔
    Unaffected floats casing rule analysis := by
  have lists : ∀ {first second : Except EvaluationError (Finding φ)},
      (first.map (fun finding => [finding]) = second.map fun finding => [finding]) ↔
        first = second := by
    intro first second
    cases first <;> cases second <;> simp [Except.map]
  rw [evaluatePlaybook_single, evaluate_eq_deterministicFinding, lists, deterministicFinding_eq,
    deterministicFinding_eq, apiCandidates_eq]
  by_cases named : ruleName casing rule ∈ liabilityNames
  · rw [workerCandidates_of_liability named,
      findings_eq_iff filed_deterministic filed_deterministic]
    constructor
    · intro same
      by_cases own : filed casing [ruleName casing rule] analysis = []
      · rw [own] at same
        refine .inr (.inl fun clause member => ?_)
        rw [evidence_none same] at member
        cases member
      · exact .inr (.inr ⟨own, same⟩)
    · rintro (other | own | ⟨-, same⟩)
      · exact absurd named other
      · rw [filed_own named own]
      · exact same
  · rw [workerCandidates_of_other named]
    exact ⟨fun _ => .inl named, fun _ => rfl⟩

/-- Numbers in tenths. -/
def sampleFloats : Floats Nat where
  zero := 0
  minimumConfidence := 8
  ofInt n := some (n.toNat * 10)
  lt a b := a < b
  le a b := a ≤ b

def sampleRule : PlaybookRule :=
  ⟨.ofNat 1, .ofNat 2, "liability", "t", .required, some "cap", none, .high, "l", "g",
    ⟨.deterministic, false⟩⟩

def sampleAnalysis : Mapping Nat :=
  [("clauses", .array [.object [("category", .string "limitation_of_liability"),
    ("extraction_version", .string "clause-rules.v1"), ("confidence", .int 1),
    ("citation_anchor_ids", .array [.string "a"]), ("source_text", .string "Cap")]])]

/-- A rule on liability and a clause on limitation of liability: the worker is satisfied and the API
finds no clause. -/
theorem not_alwaysAgree : ¬ ∀ (floats : Floats Nat) (casing : CaseTable) (rule : PlaybookRule)
    (analysis : Mapping Nat), evaluatePlaybook floats casing none analysis [rule] =
      (evaluate floats casing rule analysis).map fun finding => [finding] := by
  intro always
  have same := always sampleFloats .ascii sampleRule sampleAnalysis
  have found : evaluatePlaybook sampleFloats .ascii none sampleAnalysis [sampleRule] =
      .ok [⟨.satisfied, 10, .deterministic, ["a"], "clause-rules.v1"⟩] := by
    decide +kernel
  have missed : evaluate sampleFloats .ascii sampleRule sampleAnalysis =
      .ok ⟨.needsReview, 0, .deterministic, [], "unknown"⟩ := by
    decide +kernel
  rw [found, missed] at same
  exact absurd same (by decide)

end AgreementIntelligence.Playbooks
