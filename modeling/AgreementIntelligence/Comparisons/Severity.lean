import AgreementIntelligence.Comparisons.Materiality
import AgreementIntelligence.Comparisons.Partition

/-! What an assessment says of a clause whose text is the same in both versions, and what a model
may add to an assessment. An unchanged clause that has not moved counts as a modified one, so its
concepts decide. A model may raise the severity, and the flag for a review stays as it was. -/

namespace AgreementIntelligence.Comparisons
open Lib Text Words Patterns Json Results

variable {table : PatternTable} {matcher : Matcher} {φ : Type}

/-! Unchanged clauses -/

theorem cosmetic_not_mentioned (text : String) : .cosmetic ∉ mentionedConcepts table text := by
  intro member
  simp only [mentionedConcepts, List.mem_append, List.mem_map, List.mem_filter] at member
  rcases member with (⟨entry, ⟨listed, -⟩, same⟩ | number) | date
  · simp only [conceptPatterns, List.mem_cons, List.not_mem_nil, or_false] at listed
    rcases listed with rfl | rfl | rfl | rfl | rfl | rfl <;> cases same
  · split at number <;> simp at number
  · split at date <;> simp at date

/-- The cosmetic concept stands alone. -/
theorem concepts_cosmetic (table : PatternTable) (baselineText targetText : String) :
    concepts table baselineText targetText = [.cosmetic] ∨
      ∃ concept ∈ concepts table baselineText targetText, concept ≠ .cosmetic := by
  rw [concepts]
  split
  · exact .inl rfl
  · next some_ =>
      obtain ⟨concept, member⟩ := List.exists_mem_of_ne_nil _ some_
      exact .inr ⟨concept, member, fun same => cosmetic_not_mentioned _ (same ▸ member)⟩

/-- A clause that counts as modified is of low severity only when it mentions nothing. -/
theorem mentions_of_low {candidate : MaterialityCandidate} {found : List Concept}
    (modified : candidate.changeType = .modified)
    (low : severityOf candidate found = .low) : ∀ concept ∈ found, concept = .cosmetic := by
  simp only [severityOf, modified, reduceCtorEq, false_and, if_false, List.mem_cons,
    List.not_mem_nil, or_self] at low
  split_ifs at low with h₁ h₂ h₃
  intro concept member
  rw [mentionsRisk, List.any_eq_true] at h₂
  rw [List.any_eq_true] at h₃
  push Not at h₂ h₃
  have risk := h₂ concept member
  have other := h₃ concept member
  cases concept <;> simp_all

/-- A candidate keeps what its alignment says. -/
theorem of_prepareCandidate {baseline target : CanonicalVersion} {alignment : Alignment}
    {candidate : MaterialityCandidate}
    (prepared : prepareCandidate baseline target alignment = .ok candidate) :
    candidate.changeType = changeTypeOf alignment.kind ∧
      candidate.alignmentConfidence = alignment.confidence ∧
      candidate.reviewRequired = alignment.reviewRequired := by
  rw [prepareCandidate, bind_ok] at prepared
  obtain ⟨sources, -, prepared⟩ := prepared
  rw [bind_ok] at prepared
  obtain ⟨destinations, -, made⟩ := prepared
  simp only [MaterialityCandidate.new] at made
  split_ifs at made
  cases made
  exact ⟨rfl, rfl, rfl⟩

/-- A matched or moved clause with an unchanged text, sure enough and not flagged, is assessed
without a model as of low severity and without a review if and only if it moved or mentions none of
the concepts, no number and no date. -/
theorem unchangedClause_immaterial_iff {baseline target : CanonicalVersion} {alignment : Alignment}
    {candidate : MaterialityCandidate} (configuration : ResolvedConfiguration φ)
    (kind : alignment.kind = .matched ∨ alignment.kind = .moved)
    (sure : 75 / 100 ≤ alignment.confidence) (plain : alignment.reviewRequired = false)
    (prepared : prepareCandidate baseline target alignment = .ok candidate)
    (same : candidate.baselineText = candidate.targetText) :
    ∃ result, assessMaterialityWithModel table matcher candidate none configuration = .ok result ∧
      (result.severity = .low ∧ result.reviewRequired = false ↔
        alignment.kind = .moved ∨
          concepts table candidate.baselineText candidate.targetText = [.cosmetic]) := by
  refine ⟨_, rfl, ?_⟩
  obtain ⟨change, confidence, review⟩ := of_prepareCandidate prepared
  have unflagged : (candidate.reviewRequired || candidate.alignmentConfidence < 75 / 100) =
      false := by
    simpa [review, plain, confidence] using sure
  simp only [assessMateriality, unflagged, Bool.false_or, beq_eq_false_iff_ne, ne_eq]
  rcases kind with matched | moved
  · have modified : candidate.changeType = .modified := by rw [change, matched, changeTypeOf]
    constructor
    · rintro ⟨low, -⟩
      have alone := mentions_of_low modified low
      rcases concepts_cosmetic table candidate.baselineText candidate.targetText with
        cosmetic | ⟨concept, member, other⟩
      · exact .inr cosmetic
      · exact absurd (alone concept member) other
    · rintro (moved | cosmetic)
      · rw [matched] at moved
        cases moved
      · simp [severityOf, modified, cosmetic, mentionsRisk]
  · have low (found : List Concept) : severityOf candidate found = .low := by
      rw [severityOf, if_pos ⟨by rw [change, moved, changeTypeOf], same, review ▸ plain⟩]
    simp [low, moved]

/-- One operation for texts that are the same. -/
def wholeMatcher : Matcher := fun baseline target =>
  [⟨.equal, 0, baseline.length, 0, target.length⟩]

def builtInConfiguration : ResolvedConfiguration Unit where
  operation := "version_materiality"
  version := "builtin.version_materiality.v1"
  promptTemplate := ""
  schema := []
  modelRoute := "environment-default"
  parameters := []
  schemaChecksum := ""

/-- A matched alignment of a clause with itself, sure and not flagged, of this severity. -/
def unchangedAt (severity : Severity) (version : CanonicalVersion) (alignment : Alignment) : Bool :=
  alignment.kind == .matched && alignment.confidence == 1 && !alignment.reviewRequired &&
    match prepareCandidate version version alignment with
    | .error _ => false
    | .ok candidate => candidate.baselineText == candidate.targetText &&
      severityOf candidate (concepts .ascii candidate.baselineText candidate.targetText) == severity

theorem of_unchangedAt {severity : Severity} {version : CanonicalVersion}
    (reads : (alignVersions .ascii version version).toOption.map
      (List.map (unchangedAt severity version)) = some [true]) :
    ∃ alignment candidate, alignVersions .ascii version version = .ok [alignment] ∧
      alignment.kind = .matched ∧ alignment.confidence = 1 ∧ alignment.reviewRequired = false ∧
      prepareCandidate version version alignment = .ok candidate ∧
      candidate.baselineText = candidate.targetText ∧
      severityOf candidate (concepts .ascii candidate.baselineText candidate.targetText) =
        severity := by
  obtain ⟨alignment, returns, known⟩ := only_alignment reads
  rw [unchangedAt] at known
  cases prepared : prepareCandidate version version alignment with
  | error error =>
      rw [prepared] at known
      simp at known
  | ok candidate =>
      rw [prepared] at known
      simp only [Bool.and_eq_true, beq_iff_eq, Bool.not_eq_true'] at known
      exact ⟨alignment, candidate, returns, known.1.1.1, known.1.1.2, known.1.2, prepared, known.2.1,
        known.2.2⟩

def headingClause : CanonicalVersion := plainVersion [⟨"Definitions", by decide⟩]

def capClause : CanonicalVersion := plainVersion [⟨"liability cap 100", by decide⟩]

theorem unchangedClause_immaterial_heading : ∃ (baseline target : CanonicalVersion)
    (alignment : Alignment) (candidate : MaterialityCandidate),
    prepareCandidate baseline target alignment = .ok candidate ∧
    ∃ result, assessMaterialityWithModel .ascii wholeMatcher candidate none
        builtInConfiguration = .ok result ∧
      (result.severity = .low ∧ result.reviewRequired = false ↔
        alignment.kind = .moved ∨
          concepts .ascii candidate.baselineText candidate.targetText = [.cosmetic]) := by
  obtain ⟨alignment, candidate, -, kind, confidence, review, prepared, same, -⟩ :=
    of_unchangedAt (by decide +kernel : (alignVersions .ascii headingClause headingClause).toOption.map
      (List.map (unchangedAt .low headingClause)) = some [true])
  exact ⟨_, _, alignment, candidate, prepared, unchangedClause_immaterial_iff builtInConfiguration
    (.inl kind) (by rw [confidence]; norm_num) review prepared same⟩

/-- An unchanged clause on a cap of the liability is assessed as critical. -/
theorem not_unchangedImmaterial : ¬ ∀ (baseline target : CanonicalVersion)
    (results : List Alignment), alignVersions .ascii baseline target = .ok results →
    ∀ alignment ∈ results, (alignment.kind = .matched ∨ alignment.kind = .moved) →
      75 / 100 ≤ alignment.confidence → alignment.reviewRequired = false →
      ∀ candidate, prepareCandidate baseline target alignment = .ok candidate →
        candidate.baselineText = candidate.targetText →
        ∃ result, assessMaterialityWithModel .ascii wholeMatcher candidate none
            builtInConfiguration = .ok result ∧
          result.severity = .low ∧ result.reviewRequired = false := by
  intro claim
  obtain ⟨alignment, candidate, returns, kind, confidence, review, prepared, same, critical⟩ :=
    of_unchangedAt (by decide +kernel : (alignVersions .ascii capClause capClause).toOption.map
      (List.map (unchangedAt .critical capClause)) = some [true])
  obtain ⟨result, assessed, low, -⟩ := claim _ _ _ returns alignment List.mem_cons_self (.inl kind)
    (by rw [confidence]; norm_num) review candidate prepared same
  cases assessed
  rw [assessMateriality, critical] at low
  cases low

/-! Augmented assessments -/

/-- What the model may do to a deterministic assessment: add to it and raise its severity. -/
structure OnlyRaises (deterministic result : MaterialityResult φ) : Prop where
  severity : deterministic.severity.order ≤ result.severity.order
  changeType : result.changeType = deterministic.changeType
  legalConcepts : result.legalConcepts = deterministic.legalConcepts
  rationale : result.rationale = deterministic.rationale
  confidence : result.confidence = deterministic.confidence
  baselineCitationIds : result.baselineCitationIds = deterministic.baselineCitationIds
  targetCitationIds : result.targetCitationIds = deterministic.targetCitationIds
  wordDiff : result.wordDiff = deterministic.wordDiff
  reviewRequired : deterministic.reviewRequired = true → result.reviewRequired = true

/-- An accepted interpretation is at least as severe. -/
theorem order_le_of_accepted {deterministic : MaterialityResult φ} {payload : Json φ}
    {severity : Severity} {rationale : String}
    (accepted : acceptedInterpretation deterministic payload = some (severity, rationale)) :
    deterministic.severity.order ≤ severity.order := by
  rw [acceptedInterpretation.eq_def] at accepted
  split at accepted
  · split at accepted
    · split at accepted
      · split at accepted
        · split at accepted
          · cases accepted
          · next checked =>
              cases accepted
              push Not at checked
              exact checked.2.2.2
        · cases accepted
      · cases accepted
    · cases accepted
  · cases accepted

theorem augmentMateriality_onlyRaises (deterministic : MaterialityResult φ) (payload : Json φ)
    (provenance : List (String × Json φ)) :
    OnlyRaises deterministic (augmentMateriality deterministic payload provenance) := by
  rw [augmentMateriality]
  split
  · exact ⟨le_refl _, rfl, rfl, rfl, rfl, rfl, rfl, rfl, id⟩
  · next severity rationale accepted =>
      exact ⟨order_le_of_accepted accepted, rfl, rfl, rfl, rfl, rfl, rfl, rfl, id⟩

/-- The gateway answers with an acceptable payload of critical severity, for a candidate that asks
for no review itself. -/
def Escalates (table : PatternTable) (matcher : Matcher) (candidate : MaterialityCandidate)
    (gateway : Option (MaterialityRequest φ → GatewayOutcome φ))
    (configuration : ResolvedConfiguration φ) : Prop :=
  (candidate.reviewRequired = false ∧ 75 / 100 ≤ candidate.alignmentConfidence ∧
    severityOf candidate (concepts table candidate.baselineText candidate.targetText) ≠
      .critical) ∧
  ∃ generateJson payload provenance rationale, gateway = some generateJson ∧
    generateJson (materialityRequest candidate (assessMateriality table matcher candidate)
      configuration) = .response payload provenance ∧
    acceptedInterpretation (assessMateriality table matcher candidate) payload =
      some (.critical, rationale)

theorem assessMateriality_critical (candidate : MaterialityCandidate)
    (critical : (assessMateriality table matcher candidate : MaterialityResult φ).severity =
      .critical) :
    (assessMateriality table matcher candidate : MaterialityResult φ).reviewRequired = true := by
  simp only [assessMateriality] at critical ⊢
  simp [critical]

theorem assessMateriality_unreviewed {candidate : MaterialityCandidate} :
    (assessMateriality table matcher candidate : MaterialityResult φ).reviewRequired = false ↔
      candidate.reviewRequired = false ∧ 75 / 100 ≤ candidate.alignmentConfidence ∧
        severityOf candidate (concepts table candidate.baselineText candidate.targetText) ≠
          .critical := by
  simp [assessMateriality, and_assoc]

/-- An accepted payload is shown as critical without a review where it says so of an assessment
that asks for none. -/
theorem augmentMateriality_critical_iff {deterministic : MaterialityResult φ}
    (reviewed : deterministic.severity = .critical → deterministic.reviewRequired = true)
    (payload : Json φ) (provenance : List (String × Json φ)) :
    ((augmentMateriality deterministic payload provenance).severity = .critical →
        (augmentMateriality deterministic payload provenance).reviewRequired = true) ↔
      ¬ (deterministic.reviewRequired = false ∧
        ∃ rationale, acceptedInterpretation deterministic payload = some (.critical, rationale)) := by
  rw [augmentMateriality]
  cases accepted : acceptedInterpretation deterministic payload with
  | none => exact iff_of_true reviewed fun ⟨_, _, found⟩ => nomatch found
  | some interpretation =>
      obtain ⟨severity, rationale⟩ := interpretation
      simp only [Option.some.injEq, Prod.mk.injEq]
      constructor
      · rintro asks ⟨unreviewed, other, critical, -⟩
        rw [unreviewed] at asks
        exact Bool.false_ne_true (asks critical)
      · intro quiet critical
        by_contra unreviewed
        exact quiet ⟨Bool.not_eq_true _ ▸ unreviewed, rationale, critical, rfl⟩

theorem escalates_iff_of_response {candidate : MaterialityCandidate}
    {generateJson : MaterialityRequest φ → GatewayOutcome φ}
    {configuration : ResolvedConfiguration φ} {payload : Json φ}
    {provenance : List (String × Json φ)}
    (answers : generateJson (materialityRequest candidate
      (assessMateriality table matcher candidate) configuration) = .response payload provenance) :
    Escalates table matcher candidate (some generateJson) configuration ↔
      (assessMateriality table matcher candidate : MaterialityResult φ).reviewRequired = false ∧
        ∃ rationale, acceptedInterpretation (assessMateriality table matcher candidate) payload =
          some (.critical, rationale) := by
  rw [Escalates, assessMateriality_unreviewed]
  refine and_congr_right fun _ => ?_
  constructor
  · rintro ⟨other, payload', provenance', rationale, same, answers', accepted⟩
    cases same
    rw [answers] at answers'
    cases answers'
    exact ⟨rationale, accepted⟩
  · rintro ⟨rationale, accepted⟩
    exact ⟨generateJson, payload, provenance, rationale, rfl, answers, accepted⟩

/-- An assessment with a model is as the deterministic one or raises it, and asks for a review
where it is critical, if and only if the model does not escalate a candidate that asks for none. -/
theorem assessMaterialityWithModel_raises_iff {candidate : MaterialityCandidate}
    {gateway : Option (MaterialityRequest φ → GatewayOutcome φ)}
    {configuration : ResolvedConfiguration φ} {result : MaterialityResult φ}
    (assessed : assessMaterialityWithModel table matcher candidate gateway configuration =
      .ok result) :
    (OnlyRaises (assessMateriality table matcher candidate) result ∧
        (result.severity = .critical → result.reviewRequired = true)) ↔
      ¬ Escalates table matcher candidate gateway configuration := by
  have settled : OnlyRaises (assessMateriality table matcher candidate : MaterialityResult φ)
      (assessMateriality table matcher candidate) :=
    ⟨le_refl _, rfl, rfl, rfl, rfl, rfl, rfl, rfl, id⟩
  simp only [assessMaterialityWithModel] at assessed
  split at assessed
  · cases assessed
    refine iff_of_true ⟨settled, assessMateriality_critical candidate⟩ ?_
    rintro ⟨-, generateJson, payload, provenance, rationale, given_, -⟩
    cases given_
  · next generateJson =>
      split at assessed
      · next refused =>
          cases assessed
          refine iff_of_true ⟨settled, assessMateriality_critical candidate⟩ ?_
          rintro ⟨-, other, payload, provenance, rationale, same, answers, -⟩
          cases same
          rw [refused] at answers
          cases answers
      · cases assessed
      · next payload provenance answers =>
          cases assessed
          rw [and_iff_right (augmentMateriality_onlyRaises _ _ _),
            augmentMateriality_critical_iff (assessMateriality_critical candidate),
            escalates_iff_of_response answers]

/-- A clause whose words are replaced. -/
def feesCandidate : MaterialityCandidate where
  changeType := .modified
  baselineText := "Fees"
  targetText := "Costs"
  baselineCitationIds := ["old"]
  targetCitationIds := ["new"]
  alignmentConfidence := 1
  reviewRequired := false
  measured := by norm_num
  cited := by decide
  adds := nofun
  removes := nofun

def answering (severity : String) : Option (MaterialityRequest Unit → GatewayOutcome Unit) :=
  some fun _ => .response (.object [("severity", .string severity), ("rationale", .string "risk"),
    ("citation_ids", .array [.string "new"])]) []

/-- One replacement, for texts of one word each that differ. -/
def replacingMatcher : Matcher := fun baseline target =>
  [⟨.replace, 0, baseline.length, 0, target.length⟩]

theorem assessMaterialityWithModel_raises_fees : ∃ result,
    assessMaterialityWithModel .ascii replacingMatcher feesCandidate (answering "high")
      builtInConfiguration = .ok result ∧
    ((OnlyRaises (assessMateriality .ascii replacingMatcher feesCandidate) result ∧
        (result.severity = .critical → result.reviewRequired = true)) ↔
      ¬ Escalates .ascii replacingMatcher feesCandidate (answering "high")
        builtInConfiguration) :=
  ⟨_, rfl, assessMaterialityWithModel_raises_iff rfl⟩

/-- A model makes a change critical that nobody is asked to review. -/
theorem not_alwaysReviewed : ¬ ∀ (candidate : MaterialityCandidate)
    (gateway : Option (MaterialityRequest Unit → GatewayOutcome Unit))
    (configuration : ResolvedConfiguration Unit) (result : MaterialityResult Unit),
    assessMaterialityWithModel .ascii replacingMatcher candidate gateway configuration =
      .ok result →
    OnlyRaises (assessMateriality .ascii replacingMatcher candidate) result ∧
      (result.severity = .critical → result.reviewRequired = true) := by
  intro claim
  have reads : ((assessMaterialityWithModel .ascii replacingMatcher feesCandidate
      (answering "critical") builtInConfiguration).toOption.map fun result =>
        (result.severity, result.reviewRequired)) = some (.critical, false) := by
    decide +kernel
  cases assessed : assessMaterialityWithModel .ascii replacingMatcher feesCandidate
      (answering "critical") builtInConfiguration with
  | error error =>
      rw [assessed] at reads
      cases reads
  | ok result =>
      rw [assessed] at reads
      have both := Prod.mk.inj (Option.some.inj reads)
      have asks := (claim _ _ _ _ assessed).2 both.1
      rw [both.2] at asks
      cases asks

end AgreementIntelligence.Comparisons
