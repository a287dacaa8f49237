import AgreementIntelligence.Lib.Table
import AgreementIntelligence.Playbooks.FindingPayloads
import AgreementIntelligence.UuidText

/-! The API shows what the worker has stored: each payload reads back as it was written, the bounds
that the API recomputes are the ones of the worker, and a comparison that the worker has taken from
a model is one that the API takes. -/

namespace AgreementIntelligence.Playbooks
open Identity Lib.Casing Lib.Json Lib.Text Lib.Results

variable {φ : Type} {floats : RiskFloats φ} {validation : Validation φ}

theorem ofValue?_value (result : FindingResult) :
    FindingResult.ofValue? result.value = some result := by
  cases result <;> decide

theorem eq_clipped (value : φ) : floats.eq (clipped floats value) (clipped floats value) = true := by
  simp only [clipped]
  split_ifs with low high
  · exact (floats.eq_of_lt _ _ high).1
  · exact floats.eq_one
  · exact floats.eq_zero
  · exact floats.eq_one

/-! Reading back -/

theorem texts_texts (items : List String) :
    validation.texts (texts items : Json φ) = some items := by
  rw [texts, Validation.texts]
  induction items with
  | nil => rfl
  | cons item rest ih => simp [List.mapM_cons, validation.text_string, ih]

theorem optional_nullable (text : Option String) :
    validation.optional (nullable text : Json φ) = some text := by
  cases text with
  | none => rfl
  | some text => simp [nullable, Validation.optional, validation.text_string]

theorem riskPayload_value (payload : RiskPayload φ) (current : payload.version = riskPayloadVersion) :
    validation.riskPayload (riskPayloadValue payload) = some payload := by
  obtain ⟨version, severity, rationale, confidence, status, cited, explanation⟩ := payload
  obtain rfl := current
  simp [Validation.riskPayload, riskPayloadValue, hasKeys, Lib.Json.get, List.lookup_cons,
    validation.text_string, validation.number_float, texts_texts, optional_nullable, Option.filter]

/-- What the worker's suggestion is to the API. -/
def FallbackSuggestionResponse.shows (response : FallbackSuggestionResponse) : FallbackSuggestion where
  version := fallbackSuggestionPayloadVersion
  ruleId := response.ruleId.str
  playbookVersionId := response.playbookVersionId.str
  suggestedLanguage := response.suggestedLanguage
  reviewRecommendation := response.reviewRecommendation
  citationIds := response.citationIds
  comparisonKind := response.comparisonKind
  comparison := response.comparison
  aiGenerated := response.aiGenerated

theorem fallbackSuggestion_value (response : FallbackSuggestionResponse)
    (known : response.comparisonKind.all (· = clauseDiffersFromApprovedPosition) = true) :
    validation.fallbackSuggestion (fallbackSuggestionValue response.shows) = some response := by
  obtain ⟨ruleId, versionId, language, recommendation, cited, kind, comparison, generated⟩ := response
  dsimp only at known
  simp [Validation.fallbackSuggestion, fallbackSuggestionValue, FallbackSuggestionResponse.shows,
    hasKeys, Lib.Json.get, List.lookup_cons, validation.text_string, validation.uuid_str,
    validation.flag_bool, texts_texts, optional_nullable, Option.filter, known]

/-! Comparisons -/

theorem mapM_text? (items : List String) :
    items.mapM (text? ∘ (.string : String → Json φ)) = some items := by
  induction items with
  | nil => rfl
  | cons item rest ih => simp [List.mapM_cons, text?, ih]

theorem cited_of_grounded {response : Json φ} {key text : String} {allowed : List String}
    (grounded : groundedModelText response key allowed = some text) : allowed ≠ [] := by
  rintro rfl
  unfold groundedModelText at grounded
  split at grounded
  next fields =>
    split_ifs at grounded
    split at grounded
    next rationale items _ _ =>
      split_ifs at grounded
      split at grounded
      next => cases grounded
      next citationIds _ =>
        cases citationIds <;> simp at grounded
    next => cases grounded
  next => cases grounded

theorem comparisonKind_some {request : FallbackSuggestionRequest}
    {comparator : Option (Model FallbackSuggestionRequest φ)} {kind : String}
    (compared : comparisonKind request comparator = some kind) :
    kind = clauseDiffersFromApprovedPosition ∧ request.citationIds ≠ [] := by
  have bounded : ∃ value citationIds : Json φ,
      boundedComparisonKind request value citationIds = some kind := by
    unfold comparisonKind at compared
    split at compared
    next => cases compared
    next compare =>
      split_ifs at compared
      split at compared
      next fields _ => exact ⟨_, _, compared⟩
      next => cases compared
  obtain ⟨value, citationIds, bounded⟩ := bounded
  obtain ⟨grounded, known⟩ := Option.filter_eq_some_iff.mp bounded
  exact ⟨by simpa [comparisonRenderings] using known, cited_of_grounded grounded⟩

theorem boundedComparisonKind_texts {request : FallbackSuggestionRequest}
    (cited : request.citationIds ≠ []) :
    boundedComparisonKind request (.string clauseDiffersFromApprovedPosition : Json φ)
      (texts request.citationIds) = some clauseDiffersFromApprovedPosition := by
  have plain : strip clauseDiffersFromApprovedPosition = clauseDiffersFromApprovedPosition := by
    decide
  have some_ : clauseDiffersFromApprovedPosition ≠ "" := by decide
  simp [boundedComparisonKind, groundedModelText, hasKeys, Lib.Json.get, List.lookup_cons, texts,
    mapM_text?, plain, some_, cited, comparisonRenderings]

/-- A suggestion is made of the approved language, and of a comparison that cites the finding. -/
theorem suggestFallback_some {request : FallbackSuggestionRequest}
    {comparator : Option (Model FallbackSuggestionRequest φ)} {made : FallbackSuggestion}
    (suggested : suggestFallback request comparator = some made) :
    request.findingResult ∈ ["missing", "non_compliant"] ∧
      ∃ kind : Option String, made = suggestion request (approvedLanguage request) kind ∧
        ∀ text, kind = some text →
          text = clauseDiffersFromApprovedPosition ∧ request.citationIds ≠ [] := by
  unfold suggestFallback at suggested
  split_ifs at suggested with other
  refine ⟨other, ?_⟩
  cases approved : approvedLanguage request with
  | none =>
    simp only [approved, Option.some.injEq] at suggested
    exact ⟨none, suggested.symm, by simp⟩
  | some language =>
    simp only [approved, Option.some.injEq] at suggested
    exact ⟨_, suggested.symm, fun text => comparisonKind_some⟩

theorem suggestFallback_none {request : FallbackSuggestionRequest}
    (suggestible : request.findingResult ∈ ["missing", "non_compliant"]) :
    suggestFallback (φ := φ) request none =
      some (suggestion request (approvedLanguage request) none) := by
  unfold suggestFallback
  rw [if_neg (not_not_intro suggestible)]
  cases approvedLanguage request <;> rfl

/-- What the API compares a stored suggestion with. -/
def readRequest (finding : PlaybookFindingRecord φ) (versionId : Uuid) (rule : PlaybookRule)
    (result : FindingResult) : FallbackSuggestionRequest :=
  ⟨rule.id.str, versionId.str, result.value, finding.citationIds, none, rule.preferredLanguage,
    rule.fallbackLanguage⟩

/-- The one suggestion of a finding, with a comparison of the given kind. -/
def singleResponse (finding : PlaybookFindingRecord φ) (versionId : Uuid) (rule : PlaybookRule)
    (result : FindingResult) (kind : Option String) : FallbackSuggestionResponse :=
  let made := suggestion (readRequest finding versionId rule result)
    (approvedLanguage (readRequest finding versionId rule result)) kind
  ⟨rule.id, versionId, made.suggestedLanguage, made.reviewRecommendation, made.citationIds, kind,
    made.comparison, made.aiGenerated⟩

theorem fallbackSuggestionResponses_single {finding : PlaybookFindingRecord φ} {versionId : Uuid}
    {rule : PlaybookRule} {result : FindingResult} {kind : Option String}
    (found : finding.result = result.value) (about : finding.ruleId = rule.id)
    (suggestible : result.value ∈ ["missing", "non_compliant"])
    (compared : ∀ text, kind = some text →
      text = clauseDiffersFromApprovedPosition ∧ finding.citationIds ≠ [])
    (stored : finding.fallbackSuggestions =
      .array [fallbackSuggestionValue (singleResponse finding versionId rule result kind).shows]) :
    fallbackSuggestionResponses validation finding versionId (some rule) =
      [singleResponse finding versionId rule result kind] := by
  have validated : validation.fallbackSuggestion
      (fallbackSuggestionValue (singleResponse finding versionId rule result kind).shows) =
        some (singleResponse finding versionId rule result kind) := by
    apply fallbackSuggestion_value
    cases kind with
    | none => rfl
    | some text => simpa [singleResponse] using (compared text rfl).1
  have again := @suggestFallback_none φ (readRequest finding versionId rule result) suggestible
  have taken : (kind.any fun text =>
      (boundedComparisonKind (readRequest finding versionId rule result) (.string text : Json φ)
        (texts finding.citationIds)).isNone) = false := by
    cases kind with
    | none => rfl
    | some text =>
      obtain ⟨rfl, cited⟩ := compared text rfl
      have bounded := @boundedComparisonKind_texts φ (readRequest finding versionId rule result) cited
      exact Option.isNone_eq_false_iff.mpr (Option.isSome_of_eq_some bounded)
  unfold fallbackSuggestionResponses
  rw [stored, found, ofValue?_value]
  rw [readRequest] at again taken
  simp only [again, validated]
  rw [if_neg, if_neg]
  · exact Bool.eq_false_iff.mp taken
  · simp only [singleResponse, suggestion, about, readRequest, ne_eq, not_true_eq_false,
      decide_false, Bool.or_self, Bool.false_or, Bool.or_false, Bool.not_eq_true]
    exact decide_eq_false fun differ => differ rfl

/-! What is shown of a finding -/

section Finding
variable {explainer : Option (Model (RiskExplanationRequest φ) φ)}
  {comparator : Option (Model FallbackSuggestionRequest φ)} {versionId : Uuid}
  (rule : PlaybookRule) (finding : Finding φ) (clause : Option (Mapping φ))

theorem riskResponse_record : riskResponse floats validation
    (withRiskExplanation floats explainer comparator versionId rule finding clause).record =
      (withRiskExplanation floats explainer comparator versionId rule finding clause).risk := by
  have read := @riskPayload_value _ validation
    (withRiskExplanation floats explainer comparator versionId rule finding clause).risk rfl
  rw [riskResponse, EvaluatedFinding.record, read]
  simp [withRiskExplanation, explainRisk, fallbackRiskPayload, eq_clipped]

theorem fallbackSuggestionResponses_record :
    (fallbackSuggestionResponses validation
      (withRiskExplanation floats explainer comparator versionId rule finding clause).record versionId
      (some rule)).map FallbackSuggestionResponse.shows =
    (withRiskExplanation floats explainer comparator versionId rule finding
      clause).fallbackSuggestions := by
  cases suggested : suggestFallback
      ⟨rule.id.str, versionId.str, finding.result.value, finding.citationIds,
        clause.map fun fields => stringOr (Lib.Json.get fields "source_text") "",
        rule.preferredLanguage, rule.fallbackLanguage⟩
      (if finding.method = .deterministic then comparator else none) with
  | none =>
    simp [fallbackSuggestionResponses, EvaluatedFinding.record, withRiskExplanation, suggested]
  | some made =>
    obtain ⟨suggestible, kind, rfl, compared⟩ := suggestFallback_some suggested
    have shown := @fallbackSuggestionResponses_single _ validation
      (withRiskExplanation floats explainer comparator versionId rule finding clause).record versionId
      rule finding.result kind rfl rfl suggestible compared
      (by simp only [EvaluatedFinding.record, withRiskExplanation, suggested]; rfl)
    rw [shown]
    simp only [withRiskExplanation, suggested]
    rfl

end Finding

section Document
variable {explainer : Option (Model (RiskExplanationRequest φ) φ)}
  {comparator : Option (Model FallbackSuggestionRequest φ)} {versionId : Uuid} {casing : CaseTable}
  {assessor : Option (SemanticAssessor φ)} {analysis : Mapping φ}

theorem exists_rule {rules : List PlaybookRule} {evaluated : List (EvaluatedFinding φ)}
    (done : evaluateWithPayloads floats explainer comparator versionId casing assessor analysis rules =
      .ok evaluated) {finding : EvaluatedFinding φ} (member : finding ∈ evaluated) :
    ∃ rule ∈ rules, ∃ base clause,
      finding = withRiskExplanation floats explainer comparator versionId rule base clause := by
  induction rules generalizing evaluated with
  | nil =>
    cases done
    cases member
  | cons rule rest ih =>
    simp only [evaluateWithPayloads, bind_ok] at done
    obtain ⟨found, -, findings, later, last⟩ := done
    cases last
    rcases List.mem_cons.mp member with rfl | member
    · exact ⟨rule, List.mem_cons_self, _, _, rfl⟩
    · obtain ⟨other, known, shown⟩ := ih later member
      exact ⟨other, List.mem_cons_of_mem rule known, shown⟩

/-- What the API shows of a stored finding is what the worker has stored. -/
theorem stored_shown {rules : List PlaybookRule} (keys : (rules.map (·.id)).Nodup)
    {evaluated : List (EvaluatedFinding φ)}
    (done : evaluateWithPayloads floats explainer comparator versionId casing assessor analysis rules =
      .ok evaluated) (finding : EvaluatedFinding φ) (member : finding ∈ evaluated) :
    riskResponse floats validation finding.record = finding.risk ∧
      (fallbackSuggestionResponses validation finding.record versionId
        (rules.find? fun rule => rule.id = finding.ruleId)).map FallbackSuggestionResponse.shows =
          finding.fallbackSuggestions := by
  obtain ⟨rule, known, base, clause, rfl⟩ := exists_rule done member
  have found := Lib.Table.find?_of_mem keys known
  refine ⟨riskResponse_record rule base clause, ?_⟩
  rw [show (withRiskExplanation floats explainer comparator versionId rule base clause).ruleId =
    rule.id from rfl, found]
  exact fallbackSuggestionResponses_record rule base clause

end Document

/-- Numbers in tenths. -/
def tenths : RiskFloats Nat where
  zero := 0
  minimumConfidence := 8
  ofInt n := some (n.toNat * 10)
  lt a b := a < b
  le a b := a ≤ b
  one := 10
  eq a b := a = b
  eq_zero := by decide
  eq_one := by decide
  eq_of_lt _ _ _ := by simp

/-- A library that reads no value as one of another type, but texts as identifiers. -/
def strictValidation : Validation Nat where
  text
    | .string value => some value
    | _ => none
  number
    | .float value => some value
    | _ => none
  flag
    | .bool value => some value
    | _ => none
  uuid
    | .string value => UuidText.parse? value
    | _ => none
  text_string _ := rfl
  number_float _ := rfl
  flag_bool _ := rfl
  uuid_str := UuidText.parse?_str

def sampleRules : List PlaybookRule :=
  [⟨.ofNat 1, .ofNat 2, "liability", "t", .prohibited, some "no cap", some "a cap", .high, "l", "g",
    ⟨.deterministic, false⟩⟩]

def sampleClauses : Mapping Nat :=
  [("clauses", .array [.object [("category", .string "liability"),
    ("extraction_version", .string "clause-rules.v1"), ("confidence", .float 9),
    ("citation_anchor_ids", .array [.string "a"]), ("source_text", .string "With no cap.")]])]

/-- A model that answers with one text and cites the clause. -/
def citing {ρ : Type} (key text : String) : Option (Model ρ Nat) :=
  some fun _ => some (.object [(key, .string text), ("citation_ids", .array [.string "a"])])

theorem stored_shown_liability : ∃ evaluated,
    evaluateWithPayloads tenths (citing "rationale" "wide")
      (citing "comparison_kind" clauseDiffersFromApprovedPosition) (.ofNat 2) .ascii none
      sampleClauses sampleRules = .ok evaluated ∧ evaluated.length = 1 ∧
    ∀ finding ∈ evaluated, riskResponse tenths strictValidation finding.record = finding.risk ∧
      (fallbackSuggestionResponses strictValidation finding.record (.ofNat 2)
        (sampleRules.find? fun rule => rule.id = finding.ruleId)).map
          FallbackSuggestionResponse.shows = finding.fallbackSuggestions := by
  refine ⟨_, rfl, rfl, ?_⟩
  intro finding member
  apply @stored_shown Nat tenths strictValidation (citing "rationale" "wide")
    (citing "comparison_kind" clauseDiffersFromApprovedPosition) (.ofNat 2) .ascii none
    sampleClauses sampleRules
  · decide
  · rfl
  · exact member

end AgreementIntelligence.Playbooks
