import AgreementIntelligence.Analysis.Validation
import Mathlib.Algebra.Group.Int.Defs
import Mathlib.Algebra.Group.Nat.Defs

/-! Whether the validation of a provider's answer fails closed: it refuses with its own error, or
what it accepts cites blocks of the document, quotes what it cites and has confidences in range.
The one way out is an integer confidence that is too large for a float. -/

namespace AgreementIntelligence.Analysis
open Lib Casing Json Text Results

variable {φ : Type}

/-! What is accepted -/

/-- Every citation names a block of the document. -/
def Cites (blocks : List (String × String)) (citationAnchorIds : List String) : Prop :=
  ∀ anchorId ∈ citationAnchorIds, anchorId ∈ blocks.map Prod.fst

/-- The text stands, but for case, quotes and white space, in a block that is cited. -/
def Quotes (casing : CaseTable) (blocks : List (String × String)) (citationAnchorIds : List String)
    (text : String) : Prop :=
  ∃ anchorId ∈ citationAnchorIds, ∃ evidence, Dict.get? blocks anchorId = some evidence ∧
    contains (normalizedEvidenceText casing evidence) (normalizedEvidenceText casing text) = true

def InRange (runtime : Runtime φ) (confidence : φ) : Prop :=
  runtime.le runtime.zero confidence = true ∧ runtime.le confidence runtime.one = true

/-- Every item cites blocks of the document only, every text is quoted from a block that its item
cites, and every confidence is in range. -/
structure Grounded (runtime : Runtime φ) (blocks : List (String × String))
    (result : ValidatedAnalysis φ) : Prop where
  classification : Cites blocks result.classification.citationAnchorIds ∧
    Quotes runtime.casing blocks result.classification.citationAnchorIds
      result.classification.rationale ∧
    InRange runtime result.classification.confidence
  clauses : ∀ clause ∈ result.clauses, Cites blocks clause.citationAnchorIds ∧
    Quotes runtime.casing blocks clause.citationAnchorIds clause.sourceExcerpt ∧
    (∀ field ∈ clause.normalizedFields,
      Quotes runtime.casing blocks clause.citationAnchorIds field.value) ∧
    InRange runtime clause.confidence
  risks : ∀ risk ∈ result.risks, Cites blocks risk.citationAnchorIds ∧
    Quotes runtime.casing blocks risk.citationAnchorIds risk.explanation ∧
    InRange runtime risk.confidence
  summaries : ∀ written ∈ result.summaries, Cites blocks written.2.citationAnchorIds ∧
    Quotes runtime.casing blocks written.2.citationAnchorIds written.2.claim

/-- The validation raises its own error and no other, and what it accepts is grounded. -/
structure FailsClosed (runtime : Runtime φ) (analysis : ProviderAnalysis φ)
    (blocks : List (String × String)) : Prop where
  refuses : ∀ error, validateProviderAnalysis runtime analysis blocks = .error error →
    ∃ message, error = .providerOutputValidationError message
  grounded : ∀ result, validateProviderAnalysis runtime analysis blocks = .ok result →
    Grounded runtime blocks result

/-! Confidences that are reached -/

/-- `float(value)` raises. -/
def Oversized (runtime : Runtime φ) (value : Json φ) : Prop :=
  ∃ n, value = .int n ∧ runtime.ofInt n = none

def Accepted {α : Type} (outcome : Except ValidationError α) : Prop :=
  ∃ result, outcome = .ok result

/-- The keys, the family and the citations of a classification pass, and its confidence is
oversized. -/
def ClassificationOversized (runtime : Runtime φ) (value : Json φ)
    (allowed : List (String × String)) : Prop :=
  ∃ payload family, mapping value "classification" = .ok payload ∧
    Accepted (requiredKeys payload ["family", "confidence", "rationale", "citation_anchor_ids"]) ∧
    string (get payload "family") "classification family" = .ok family ∧
    family ∈ agreementFamilies ∧
    Accepted (citationAnchors (get payload "citation_anchor_ids") allowed) ∧
    Oversized runtime (get payload "confidence")

/-- All other fields of a clause pass, and its confidence is oversized. -/
def ClauseOversized (runtime : Runtime φ) (allowed : List (String × String)) (value : Json φ) :
    Prop :=
  ∃ payload category fieldsValue citations, mapping value "clause" = .ok payload ∧
    Accepted (requiredKeys payload
      ["category", "normalized_fields", "source_excerpt", "confidence", "citation_anchor_ids"]) ∧
    string (get payload "category") "clause category" = .ok category ∧
    category ∈ clauseCategories ∧
    list (get payload "normalized_fields") "normalized fields" = .ok fieldsValue ∧
    Accepted (boundedCollection fieldsValue maxNormalizedFields "normalized fields") ∧
    citationAnchors (get payload "citation_anchor_ids") allowed = .ok citations ∧
    Accepted (groundedText runtime.casing (get payload "source_excerpt") "source excerpt" citations
      allowed) ∧
    Accepted (fieldsValue.mapM fun item => normalizedField runtime.casing item citations allowed) ∧
    Oversized runtime (get payload "confidence")

/-- All other fields of a risk pass, and its confidence is oversized. -/
def RiskOversized (runtime : Runtime φ) (allowed : List (String × String)) (value : Json φ) :
    Prop :=
  ∃ payload severity category citations, mapping value "risk" = .ok payload ∧
    Accepted (requiredKeys payload
      ["severity", "explanation", "affected_category", "confidence", "citation_anchor_ids"]) ∧
    string (get payload "severity") "risk severity" = .ok severity ∧
    string (get payload "affected_category") "risk affected category" = .ok category ∧
    severity ∈ riskSeverities ∧ category ∈ clauseCategories ∧
    citationAnchors (get payload "citation_anchor_ids") allowed = .ok citations ∧
    Accepted (groundedText runtime.casing (get payload "explanation") "risk explanation" citations
      allowed) ∧
    Oversized runtime (get payload "confidence")

/-- An oversized item of a list that is not too long, behind items that pass. -/
def ListOversized {α : Type} (values : Json φ) (limit : Nat) (name : String)
    (validator : Json φ → Except ValidationError α) (oversized : Json φ → Prop) : Prop :=
  ∃ before value after, list values name = .ok (before ++ value :: after) ∧
    Accepted (boundedCollection (before ++ value :: after) limit name) ∧
    (∀ earlier ∈ before, Accepted (validator earlier)) ∧ oversized value

/-- The validation gets to a confidence that is oversized. -/
def MeetsOversized (runtime : Runtime φ) (analysis : ProviderAnalysis φ)
    (blocks : List (String × String)) : Prop :=
  Accepted (allowedAnchors blocks) ∧
    (ClassificationOversized runtime analysis.classification blocks ∨
      Accepted (classification runtime analysis.classification blocks) ∧
        (ListOversized analysis.clauses maxClauses "clauses" (clause runtime · blocks)
            (ClauseOversized runtime blocks) ∨
          Accepted (claims analysis.clauses maxClauses (clause runtime) blocks "clauses") ∧
            ListOversized analysis.risks maxRisks "risks" (risk runtime · blocks)
              (RiskOversized runtime blocks)))

/-! The checks that never overflow -/

def Tame {α : Type} (outcome : Except ValidationError α) : Prop :=
  outcome ≠ .error .overflowError

theorem tame_ok {α : Type} (a : α) : Tame (.ok a) := nofun

theorem tame_invalid {α : Type} (message : String) : Tame (invalid (α := α) message) := nofun

theorem Tame.bind {α β : Type} {first : Except ValidationError α}
    {rest : α → Except ValidationError β} (tame : Tame first)
    (later : ∀ a, first = .ok a → Tame (rest a)) : Tame (first >>= rest) := by
  intro raises
  rcases bind_error.mp raises with early | ⟨a, returns, late⟩
  · exact tame early
  · exact later a returns late

theorem Tame.bind_raises {α β : Type} {first : Except ValidationError α}
    {rest : α → Except ValidationError β} (tame : Tame first) :
    (first >>= rest) = .error .overflowError ↔
      ∃ a, first = .ok a ∧ rest a = .error .overflowError := by
  rw [bind_error]
  exact or_iff_right tame

theorem tame_mapM {α β : Type} {f : α → Except ValidationError β} {xs : List α}
    (tame : ∀ x ∈ xs, Tame (f x)) : Tame (xs.mapM f) := by
  intro raises
  obtain ⟨before, x, after, rfl, -, here⟩ := mapM_error.mp raises
  exact tame x (by simp) here

theorem tame_mapping (value : Json φ) (name : String) : Tame (mapping value name) := by
  cases value <;> nofun

theorem tame_list (value : Json φ) (name : String) : Tame (list value name) := by
  cases value <;> nofun

theorem tame_requiredKeys (payload : List (String × Json φ)) (keys : List String) :
    Tame (requiredKeys payload keys) := by
  rw [requiredKeys]
  split_ifs <;> nofun

theorem tame_string (value : Json φ) (name : String) : Tame (string value name) := by
  rw [string.eq_def]
  split
  · split_ifs <;> nofun
  · nofun

theorem tame_materialString (value : Json φ) (name : String) : Tame (materialString value name) := by
  rw [materialString]
  refine (tame_string value name).bind fun text _ => ?_
  split_ifs <;> nofun

theorem tame_boundedCollection {α : Type} (values : List α) (limit : Nat) (name : String) :
    Tame (boundedCollection values limit name) := by
  rw [boundedCollection]
  split_ifs <;> nofun

theorem tame_citationAnchors (value : Json φ) (allowed : List (String × String)) :
    Tame (citationAnchors value allowed) := by
  rw [citationAnchors]
  refine (tame_list value _).bind fun citations _ => ?_
  refine (tame_boundedCollection citations _ _).bind fun _ _ => ?_
  refine (tame_mapM fun anchor _ => tame_string anchor _).bind fun anchorIds _ => ?_
  split_ifs <;> nofun

theorem tame_groundedText (casing : CaseTable) (value : Json φ) (name : String)
    (citationAnchorIds : List String) (allowed : List (String × String)) :
    Tame (groundedText casing value name citationAnchorIds allowed) := by
  rw [groundedText]
  refine (tame_materialString value name).bind fun text _ => ?_
  have evidence : Tame (requireEvidence citationAnchorIds) := by
    rw [requireEvidence]
    split_ifs
    · exact tame_invalid _
    · exact tame_ok _
  refine evidence.bind fun _ _ => ?_
  split_ifs
  · exact tame_ok _
  · exact tame_invalid _

theorem tame_normalizedField (casing : CaseTable) (value : Json φ) (citations : List String)
    (allowed : List (String × String)) :
    Tame (normalizedField casing value citations allowed) := by
  rw [normalizedField]
  refine (tame_mapping value _).bind fun payload _ => ?_
  refine (tame_requiredKeys payload _).bind fun _ _ => ?_
  have name : Tame (normalizedFieldName casing (get payload "name")) := by
    rw [normalizedFieldName]
    refine (tame_materialString _ _).bind fun text _ => ?_
    dsimp only
    split_ifs <;> nofun
  refine name.bind fun _ _ => ?_
  exact (tame_groundedText casing _ _ citations allowed).bind fun _ _ => tame_ok _

theorem tame_summaries (casing : CaseTable) (value : Json φ) (allowed : List (String × String)) :
    Tame (summaries casing value allowed) := by
  have written (value : Json φ) : Tame (summary casing value allowed) := by
    rw [summary]
    refine (tame_mapping value _).bind fun claim _ => ?_
    refine (tame_requiredKeys claim _).bind fun _ _ => ?_
    refine (tame_citationAnchors _ allowed).bind fun citations _ => ?_
    exact (tame_groundedText casing _ _ citations allowed).bind fun _ _ => tame_ok _
  rw [summaries]
  refine (tame_mapping value _).bind fun payload _ => ?_
  split_ifs
  · exact tame_invalid _
  · refine tame_mapM fun item _ => ?_
    split_ifs
    · exact (written item.2).bind fun _ _ => tame_ok _
    · exact tame_invalid _

theorem tame_provenance (analysis : ProviderAnalysis φ) : Tame (provenance analysis) := by
  have integer (value : Json φ) (name : String) : Tame (nonnegativeInteger value name) := by
    rw [nonnegativeInteger.eq_def]
    split
    · split_ifs <;> nofun
    · nofun
  have optional (value : Json φ) (name : String) :
      Tame (optionalNonnegativeInteger value name) := by
    rw [optionalNonnegativeInteger.eq_def]
    split
    · nofun
    · exact (integer _ name).bind fun _ _ => tame_ok _
  rw [provenance]
  refine (tame_string _ _).bind fun _ _ => ?_
  refine (optional _ _).bind fun _ _ => ?_
  refine (optional _ _).bind fun _ _ => ?_
  refine (integer _ _).bind fun _ _ => ?_
  split <;> nofun

theorem tame_allowedAnchors (blocks : List (String × String)) : Tame (allowedAnchors blocks) := by
  rw [allowedAnchors]
  split_ifs
  · exact tame_invalid _
  · refine tame_mapM fun block _ => ?_
    refine (tame_materialString _ _).bind fun _ _ => ?_
    exact (tame_materialString _ _).bind fun _ _ => tame_ok _

/-! Where the validation overflows -/

variable {runtime : Runtime φ} {allowed : List (String × String)}

theorem numericConfidence_raises {value : Json φ} :
    numericConfidence runtime value = .error .overflowError ↔ Oversized runtime value := by
  have bounded (x : φ) : Tame (boundedConfidence runtime x) := by
    rw [boundedConfidence]
    split_ifs <;> nofun
  cases value with
  | int n =>
      rw [numericConfidence]
      cases converts : runtime.ofInt n with
      | none => simp [Oversized, converts]
      | some x => simp [Oversized, converts, show ¬ _ from bounded x]
  | float x => simp [numericConfidence, Oversized, show ¬ _ from bounded x]
  | _ => simp [numericConfidence, Oversized, invalid]

theorem confidence_bind_raises {α : Type} {value : Json φ} {rest : φ → Except ValidationError α}
    (tame : ∀ x, Tame (rest x)) : (numericConfidence runtime value >>= rest) =
      .error .overflowError ↔ Oversized runtime value := by
  rw [bind_error, numericConfidence_raises]
  exact or_iff_left fun ⟨x, _, raises⟩ => tame x raises

theorem classification_raises {value : Json φ} :
    classification runtime value allowed = .error .overflowError ↔
      ClassificationOversized runtime value allowed := by
  rw [classification]
  constructor
  · intro raises
    obtain ⟨payload, maps, raises⟩ := (tame_mapping value _).bind_raises.mp raises
    obtain ⟨only, keys, raises⟩ := (tame_requiredKeys payload _).bind_raises.mp raises
    obtain ⟨family, named, raises⟩ := (tame_string _ _).bind_raises.mp raises
    split_ifs at raises with known
    · obtain ⟨citations, cites, raises⟩ := (tame_citationAnchors _ allowed).bind_raises.mp raises
      have oversized := (confidence_bind_raises fun x =>
        (tame_groundedText _ _ _ citations allowed).bind fun _ _ => tame_ok _).mp raises
      exact ⟨payload, family, maps, ⟨only, keys⟩, named, known, ⟨citations, cites⟩, oversized⟩
    · cases raises
  · rintro ⟨payload, family, maps, ⟨only, keys⟩, named, known, ⟨citations, cites⟩, oversized⟩
    refine (tame_mapping value _).bind_raises.mpr ⟨payload, maps, ?_⟩
    refine (tame_requiredKeys payload _).bind_raises.mpr ⟨only, keys, ?_⟩
    refine (tame_string _ _).bind_raises.mpr ⟨family, named, ?_⟩
    rw [if_neg (not_not.mpr known)]
    refine (tame_citationAnchors _ allowed).bind_raises.mpr ⟨citations, cites, ?_⟩
    exact (confidence_bind_raises fun x =>
      (tame_groundedText _ _ _ citations allowed).bind fun _ _ => tame_ok _).mpr oversized

theorem clause_raises {value : Json φ} : clause runtime value allowed = .error .overflowError ↔
    ClauseOversized runtime allowed value := by
  rw [clause]
  constructor
  · intro raises
    obtain ⟨payload, maps, raises⟩ := (tame_mapping value _).bind_raises.mp raises
    obtain ⟨only, keys, raises⟩ := (tame_requiredKeys payload _).bind_raises.mp raises
    obtain ⟨category, named, raises⟩ := (tame_string _ _).bind_raises.mp raises
    split_ifs at raises with known
    · obtain ⟨fieldsValue, lists, raises⟩ := (tame_list _ _).bind_raises.mp raises
      obtain ⟨short, few, raises⟩ := (tame_boundedCollection fieldsValue _ _).bind_raises.mp raises
      obtain ⟨citations, cites, raises⟩ := (tame_citationAnchors _ allowed).bind_raises.mp raises
      obtain ⟨excerpt, quotes, raises⟩ :=
        (tame_groundedText _ _ _ citations allowed).bind_raises.mp raises
      obtain ⟨fields, normal, raises⟩ := (tame_mapM fun item _ =>
        tame_normalizedField runtime.casing item citations allowed).bind_raises.mp raises
      have oversized := (confidence_bind_raises fun x => tame_ok _).mp raises
      exact ⟨payload, category, fieldsValue, citations, maps, ⟨only, keys⟩, named, known, lists,
        ⟨short, few⟩, cites, ⟨excerpt, quotes⟩, ⟨fields, normal⟩, oversized⟩
    · cases raises
  · rintro ⟨payload, category, fieldsValue, citations, maps, ⟨only, keys⟩, named, known, lists,
      ⟨short, few⟩, cites, ⟨excerpt, quotes⟩, ⟨fields, normal⟩, oversized⟩
    refine (tame_mapping value _).bind_raises.mpr ⟨payload, maps, ?_⟩
    refine (tame_requiredKeys payload _).bind_raises.mpr ⟨only, keys, ?_⟩
    refine (tame_string _ _).bind_raises.mpr ⟨category, named, ?_⟩
    rw [if_neg (not_not.mpr known)]
    refine (tame_list _ _).bind_raises.mpr ⟨fieldsValue, lists, ?_⟩
    refine (tame_boundedCollection fieldsValue _ _).bind_raises.mpr ⟨short, few, ?_⟩
    refine (tame_citationAnchors _ allowed).bind_raises.mpr ⟨citations, cites, ?_⟩
    refine (tame_groundedText _ _ _ citations allowed).bind_raises.mpr ⟨excerpt, quotes, ?_⟩
    refine (tame_mapM fun item _ =>
      tame_normalizedField runtime.casing item citations allowed).bind_raises.mpr ⟨fields, normal, ?_⟩
    exact (confidence_bind_raises fun x => tame_ok _).mpr oversized

theorem risk_raises {value : Json φ} : risk runtime value allowed = .error .overflowError ↔
    RiskOversized runtime allowed value := by
  rw [risk]
  constructor
  · intro raises
    obtain ⟨payload, maps, raises⟩ := (tame_mapping value _).bind_raises.mp raises
    obtain ⟨only, keys, raises⟩ := (tame_requiredKeys payload _).bind_raises.mp raises
    obtain ⟨severity, named, raises⟩ := (tame_string _ _).bind_raises.mp raises
    obtain ⟨category, named', raises⟩ := (tame_string _ _).bind_raises.mp raises
    split_ifs at raises with known known'
    · obtain ⟨citations, cites, raises⟩ := (tame_citationAnchors _ allowed).bind_raises.mp raises
      obtain ⟨explanation, quotes, raises⟩ :=
        (tame_groundedText _ _ _ citations allowed).bind_raises.mp raises
      have oversized := (confidence_bind_raises fun x => tame_ok _).mp raises
      exact ⟨payload, severity, category, citations, maps, ⟨only, keys⟩, named, named', known,
        known', cites, ⟨explanation, quotes⟩, oversized⟩
    · cases raises
    · cases raises
  · rintro ⟨payload, severity, category, citations, maps, ⟨only, keys⟩, named, named', known,
      known', cites, ⟨explanation, quotes⟩, oversized⟩
    refine (tame_mapping value _).bind_raises.mpr ⟨payload, maps, ?_⟩
    refine (tame_requiredKeys payload _).bind_raises.mpr ⟨only, keys, ?_⟩
    refine (tame_string _ _).bind_raises.mpr ⟨severity, named, ?_⟩
    refine (tame_string _ _).bind_raises.mpr ⟨category, named', ?_⟩
    rw [if_neg (not_not.mpr known), if_neg (not_not.mpr known')]
    refine (tame_citationAnchors _ allowed).bind_raises.mpr ⟨citations, cites, ?_⟩
    refine (tame_groundedText _ _ _ citations allowed).bind_raises.mpr ⟨explanation, quotes, ?_⟩
    exact (confidence_bind_raises fun x => tame_ok _).mpr oversized

/-- A list overflows at an item behind items that pass. -/
theorem claims_raises {α : Type} {values : Json φ} {limit : Nat} {name : String}
    {validator : Json φ → List (String × String) → Except ValidationError α}
    {oversized : Json φ → Prop}
    (item : ∀ value, validator value allowed = .error .overflowError ↔ oversized value) :
    claims values limit validator allowed name = .error .overflowError ↔
      ListOversized values limit name (validator · allowed) oversized := by
  rw [claims, (tame_list values name).bind_raises]
  constructor
  · rintro ⟨items, lists, raises⟩
    obtain ⟨only, few, raises⟩ := (tame_boundedCollection items limit name).bind_raises.mp raises
    obtain ⟨before, value, after, rfl, passed, here⟩ := mapM_error.mp raises
    exact ⟨before, value, after, lists, ⟨only, few⟩, passed, (item value).mp here⟩
  · rintro ⟨before, value, after, lists, ⟨only, few⟩, passed, here⟩
    refine ⟨_, lists, (tame_boundedCollection _ limit name).bind_raises.mpr ⟨only, few, ?_⟩⟩
    exact mapM_error.mpr ⟨before, value, after, rfl, passed, (item value).mpr here⟩

/-! What is accepted is grounded -/

theorem materialString_ok {text name result : String}
    (passes : materialString (.string text : Json φ) name = .ok result) : result = text := by
  rw [materialString, bind_ok] at passes
  obtain ⟨read, reads, passes⟩ := passes
  rw [string] at reads
  split_ifs at reads
  · cases reads
  · cases reads
    split_ifs at passes
    · cases passes
    · cases passes
      rfl

/-- The blocks pass as they are. -/
theorem allowedAnchors_eq {blocks : List (String × String)}
    (passes : allowedAnchors blocks = .ok allowed) : allowed = blocks := by
  rw [allowedAnchors] at passes
  split_ifs at passes
  · cases passes
  · have same : allowed.map id = blocks.map id := map_of_mapM (fun block pair made => by
      obtain ⟨anchor, named, made⟩ := bind_ok.mp made
      obtain ⟨text, told, made⟩ := bind_ok.mp made
      cases made
      rw [id, id, materialString_ok named, materialString_ok told]) passes
    simpa using same

theorem groundedText_ok {casing : CaseTable} {value : Json φ} {name text : String}
    {citations : List String}
    (passes : groundedText casing value name citations allowed = .ok text) :
    Quotes casing allowed citations text := by
  rw [groundedText] at passes
  obtain ⟨read, -, passes⟩ := bind_ok.mp passes
  obtain ⟨only, -, passes⟩ := bind_ok.mp passes
  split_ifs at passes with found
  · cases passes
    obtain ⟨anchorId, cited, stands⟩ := List.any_eq_true.mp found
    cases block : Dict.get? allowed anchorId with
    | none => simp [block] at stands
    | some evidence => exact ⟨anchorId, cited, evidence, block, by simpa [block] using stands⟩
  · cases passes

theorem citationAnchors_ok {value : Json φ} {citations : List String}
    (passes : citationAnchors value allowed = .ok citations) : Cites allowed citations := by
  rw [citationAnchors] at passes
  obtain ⟨listed, -, passes⟩ := bind_ok.mp passes
  obtain ⟨only, -, passes⟩ := bind_ok.mp passes
  obtain ⟨anchorIds, -, passes⟩ := bind_ok.mp passes
  split_ifs at passes with known
  · cases passes
    exact fun anchorId cited => of_decide_eq_true (List.all_eq_true.mp known anchorId cited)
  · cases passes

theorem numericConfidence_ok {value : Json φ} {confidence : φ}
    (passes : numericConfidence runtime value = .ok confidence) : InRange runtime confidence := by
  have bounded {x : φ} (passes : boundedConfidence runtime x = .ok confidence) :
      InRange runtime confidence := by
    rw [boundedConfidence] at passes
    split_ifs at passes with fits
    · cases passes
      simpa [InRange] using fits
    · cases passes
  rw [numericConfidence.eq_def] at passes
  split at passes
  · split at passes
    · cases passes
    · exact bounded passes
  · exact bounded passes
  · cases passes

theorem classification_ok {value : Json φ} {made : Classification φ}
    (passes : classification runtime value allowed = .ok made) :
    Cites allowed made.citationAnchorIds ∧
      Quotes runtime.casing allowed made.citationAnchorIds made.rationale ∧
      InRange runtime made.confidence := by
  rw [classification] at passes
  obtain ⟨payload, -, passes⟩ := bind_ok.mp passes
  obtain ⟨only, -, passes⟩ := bind_ok.mp passes
  obtain ⟨family, -, passes⟩ := bind_ok.mp passes
  split_ifs at passes
  · obtain ⟨citations, cites, passes⟩ := bind_ok.mp passes
    obtain ⟨confidence, ranges, passes⟩ := bind_ok.mp passes
    obtain ⟨rationale, quotes, passes⟩ := bind_ok.mp passes
    cases passes
    exact ⟨citationAnchors_ok cites, groundedText_ok quotes, numericConfidence_ok ranges⟩
  · cases passes

theorem normalizedField_ok {casing : CaseTable} {value : Json φ} {citations : List String}
    {field : NormalizedField}
    (passes : normalizedField casing value citations allowed = .ok field) :
    Quotes casing allowed citations field.value := by
  rw [normalizedField] at passes
  obtain ⟨payload, -, passes⟩ := bind_ok.mp passes
  obtain ⟨only, -, passes⟩ := bind_ok.mp passes
  obtain ⟨name, -, passes⟩ := bind_ok.mp passes
  obtain ⟨text, quotes, passes⟩ := bind_ok.mp passes
  cases passes
  exact groundedText_ok quotes

theorem clause_ok {value : Json φ} {made : Clause φ}
    (passes : clause runtime value allowed = .ok made) :
    Cites allowed made.citationAnchorIds ∧
      Quotes runtime.casing allowed made.citationAnchorIds made.sourceExcerpt ∧
      (∀ field ∈ made.normalizedFields,
        Quotes runtime.casing allowed made.citationAnchorIds field.value) ∧
      InRange runtime made.confidence := by
  rw [clause] at passes
  obtain ⟨payload, -, passes⟩ := bind_ok.mp passes
  obtain ⟨only, -, passes⟩ := bind_ok.mp passes
  obtain ⟨category, -, passes⟩ := bind_ok.mp passes
  split_ifs at passes
  · obtain ⟨fieldsValue, -, passes⟩ := bind_ok.mp passes
    obtain ⟨short, -, passes⟩ := bind_ok.mp passes
    obtain ⟨citations, cites, passes⟩ := bind_ok.mp passes
    obtain ⟨excerpt, quotes, passes⟩ := bind_ok.mp passes
    obtain ⟨fields, normal, passes⟩ := bind_ok.mp passes
    obtain ⟨confidence, ranges, passes⟩ := bind_ok.mp passes
    cases passes
    refine ⟨citationAnchors_ok cites, groundedText_ok quotes, fun field member => ?_,
      numericConfidence_ok ranges⟩
    obtain ⟨item, -, made⟩ := mem_of_mapM normal member
    exact normalizedField_ok made
  · cases passes

theorem risk_ok {value : Json φ} {made : Risk φ} (passes : risk runtime value allowed = .ok made) :
    Cites allowed made.citationAnchorIds ∧
      Quotes runtime.casing allowed made.citationAnchorIds made.explanation ∧
      InRange runtime made.confidence := by
  rw [risk] at passes
  obtain ⟨payload, -, passes⟩ := bind_ok.mp passes
  obtain ⟨only, -, passes⟩ := bind_ok.mp passes
  obtain ⟨severity, -, passes⟩ := bind_ok.mp passes
  obtain ⟨category, -, passes⟩ := bind_ok.mp passes
  split_ifs at passes
  · obtain ⟨citations, cites, passes⟩ := bind_ok.mp passes
    obtain ⟨explanation, quotes, passes⟩ := bind_ok.mp passes
    obtain ⟨confidence, ranges, passes⟩ := bind_ok.mp passes
    cases passes
    exact ⟨citationAnchors_ok cites, groundedText_ok quotes, numericConfidence_ok ranges⟩
  · cases passes
  · cases passes

theorem mem_claims {α : Type} {values : Json φ} {limit : Nat} {name : String}
    {validator : Json φ → List (String × String) → Except ValidationError α} {made : List α}
    (passes : claims values limit validator allowed name = .ok made) {item : α}
    (member : item ∈ made) : ∃ value, validator value allowed = .ok item := by
  rw [claims] at passes
  obtain ⟨items, -, passes⟩ := bind_ok.mp passes
  obtain ⟨short, -, passes⟩ := bind_ok.mp passes
  obtain ⟨value, -, validated⟩ := mem_of_mapM passes member
  exact ⟨value, validated⟩

theorem mem_summaries {casing : CaseTable} {value : Json φ} {made : List (String × Summary)}
    (passes : summaries casing value allowed = .ok made) {written : String × Summary}
    (member : written ∈ made) : Cites allowed written.2.citationAnchorIds ∧
      Quotes casing allowed written.2.citationAnchorIds written.2.claim := by
  rw [summaries] at passes
  obtain ⟨payload, -, passes⟩ := bind_ok.mp passes
  split_ifs at passes
  · cases passes
  · obtain ⟨item, -, validated⟩ := mem_of_mapM passes member
    split_ifs at validated
    · obtain ⟨result, summarized, same⟩ := bind_ok.mp validated
      cases same
      rw [summary] at summarized
      obtain ⟨claim, -, summarized⟩ := bind_ok.mp summarized
      obtain ⟨only, -, summarized⟩ := bind_ok.mp summarized
      obtain ⟨citations, cites, summarized⟩ := bind_ok.mp summarized
      obtain ⟨text, quotes, summarized⟩ := bind_ok.mp summarized
      cases summarized
      exact ⟨citationAnchors_ok cites, groundedText_ok quotes⟩
    · cases validated

theorem validated_grounded {analysis : ProviderAnalysis φ} {blocks : List (String × String)}
    {result : ValidatedAnalysis φ}
    (passes : validateProviderAnalysis runtime analysis blocks = .ok result) :
    Grounded runtime blocks result := by
  rw [validateProviderAnalysis] at passes
  obtain ⟨allowed, anchors, passes⟩ := bind_ok.mp passes
  obtain ⟨family, classified, passes⟩ := bind_ok.mp passes
  obtain ⟨found, clauses, passes⟩ := bind_ok.mp passes
  obtain ⟨risky, risks, passes⟩ := bind_ok.mp passes
  obtain ⟨written, summaries, passes⟩ := bind_ok.mp passes
  obtain ⟨origin, -, passes⟩ := bind_ok.mp passes
  cases passes
  cases allowedAnchors_eq anchors
  exact
    { classification := classification_ok classified
      clauses := fun made member => by
        obtain ⟨value, validated⟩ := mem_claims clauses member
        exact clause_ok validated
      risks := fun made member => by
        obtain ⟨value, validated⟩ := mem_claims risks member
        exact risk_ok validated
      summaries := fun made member => mem_summaries summaries member }

/-- The validation overflows exactly when it gets to an oversized confidence. -/
theorem validate_raises {analysis : ProviderAnalysis φ} {blocks : List (String × String)} :
    validateProviderAnalysis runtime analysis blocks = .error .overflowError ↔
      MeetsOversized runtime analysis blocks := by
  have rest (written : List (String × Summary)) (family : Classification φ)
      (found : List (Clause φ)) (risky : List (Risk φ)) : Tame (do
        let origin ← provenance analysis
        .ok (⟨family, found, risky, written, origin⟩ : ValidatedAnalysis φ)) :=
    (tame_provenance analysis).bind fun _ _ => tame_ok _
  rw [validateProviderAnalysis, (tame_allowedAnchors blocks).bind_raises, MeetsOversized]
  constructor
  · rintro ⟨allowed, anchors, raises⟩
    cases allowedAnchors_eq anchors
    refine ⟨⟨_, anchors⟩, ?_⟩
    rw [bind_error, classification_raises] at raises
    refine raises.imp id ?_
    rintro ⟨family, classified, raises⟩
    refine ⟨⟨family, classified⟩, ?_⟩
    rw [bind_error, claims_raises fun _ => clause_raises] at raises
    refine raises.imp id ?_
    rintro ⟨found, clauses, raises⟩
    refine ⟨⟨found, clauses⟩, ?_⟩
    rw [bind_error, claims_raises fun _ => risk_raises] at raises
    refine raises.resolve_right ?_
    rintro ⟨risky, -, raises⟩
    exact ((tame_summaries _ _ _).bind fun written _ => rest written family found risky) raises
  · rintro ⟨⟨allowed, anchors⟩, meets⟩
    cases allowedAnchors_eq anchors
    refine ⟨_, anchors, ?_⟩
    rw [bind_error, classification_raises]
    refine meets.imp id ?_
    rintro ⟨⟨family, classified⟩, meets⟩
    refine ⟨family, classified, ?_⟩
    rw [bind_error, claims_raises fun _ => clause_raises]
    refine meets.imp id ?_
    rintro ⟨⟨found, clauses⟩, meets⟩
    refine ⟨found, clauses, ?_⟩
    rw [bind_error, claims_raises fun _ => risk_raises]
    exact .inl meets

/-- The validation fails closed exactly when it gets to no integer confidence that is too large for
a float. -/
theorem validation_failsClosed_iff (runtime : Runtime φ) (analysis : ProviderAnalysis φ)
    (blocks : List (String × String)) :
    FailsClosed runtime analysis blocks ↔ ¬ MeetsOversized runtime analysis blocks := by
  rw [← validate_raises]
  constructor
  · intro closed raises
    obtain ⟨message, same⟩ := closed.refuses _ raises
    cases same
  · intro tame
    constructor
    · intro error raises
      cases error with
      | providerOutputValidationError message => exact ⟨message, rfl⟩
      | overflowError => exact absurd raises tame
    · exact fun result => validated_grounded

/-- Numbers without rounding, of which those that a double rounds to infinity are too large. -/
def exactRuntime : Runtime Rat where
  zero := 0
  minimumConfidence := 8 / 10
  ofInt n := if n.natAbs < 2 ^ 1024 - 2 ^ 970 then some n else none
  lt a b := a < b
  le a b := a ≤ b
  nineTenths := 9 / 10
  one := 1
  casing := .ascii
  lower text := String.ofList (text.toList.map Char.toLower)

def huge : Int := 10 ^ 400

def oversizedFields : List (String × Json Rat) :=
  [("family", .string "client_agreement"), ("confidence", .int huge),
    ("rationale", .string "Fees are due."), ("citation_anchor_ids", .array [.string "a1"])]

/-- A classification with a confidence of 10 ^ 400. -/
def oversizedAnalysis : ProviderAnalysis Rat where
  classification := .object oversizedFields
  clauses := .array []
  risks := .array []
  summaries := .null
  model := .string "m"
  inputTokens := .null
  outputTokens := .null
  latencyMs := .int 1

theorem not_failsClosed : ¬ ∀ (analysis : ProviderAnalysis Rat) (blocks : List (String × String)),
    FailsClosed exactRuntime analysis blocks := by
  intro claim
  have anchors : allowedAnchors [("a1", "Fees are due.")] = .ok [("a1", "Fees are due.")] := by
    decide +kernel
  have keys : requiredKeys oversizedFields
      ["family", "confidence", "rationale", "citation_anchor_ids"] = .ok () := by decide +kernel
  have family : string (get oversizedFields "family") "classification family" =
      .ok "client_agreement" := by decide +kernel
  have citations : citationAnchors (get oversizedFields "citation_anchor_ids")
      [("a1", "Fees are due.")] = .ok ["a1"] := by decide +kernel
  have value : get oversizedFields "confidence" = .int huge := by
    simp [oversizedFields, Json.get, List.lookup_cons]
  have large : exactRuntime.ofInt huge = none := by decide +kernel
  have oversized : Oversized exactRuntime (get oversizedFields "confidence") := ⟨huge, value, large⟩
  have meets : MeetsOversized exactRuntime oversizedAnalysis [("a1", "Fees are due.")] :=
    ⟨⟨_, anchors⟩, .inl ⟨oversizedFields, _, rfl, ⟨_, keys⟩, family, by decide, ⟨_, citations⟩,
      oversized⟩⟩
  obtain ⟨message, same⟩ :=
    (claim oversizedAnalysis [("a1", "Fees are due.")]).refuses _ (validate_raises.mpr meets)
  cases same

end AgreementIntelligence.Analysis
