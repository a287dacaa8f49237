import AgreementIntelligence.Lib.Dict
import AgreementIntelligence.Lib.Json
import AgreementIntelligence.Lib.Results
import AgreementIntelligence.Lib.Sightings
import Mathlib.Data.List.Dedup
import Mathlib.Data.List.Sort
import Mathlib.Data.String.Basic

/-! The evaluation of version comparisons against a frozen dataset: what a case expects, what was
observed for it and the metrics that the release gate reads. Quotients are exact, and how a metric
compares to a threshold that is a floating-point number is a parameter. -/

namespace AgreementIntelligence.Comparisons
open Lib Json Sightings

structure AlignmentLabel where
  id : String
  kind : String
  reviewRequired : Bool
deriving DecidableEq

structure ExpectedChange where
  id : String
  changeType : String
  severity : String
  citationIds : List String
deriving DecidableEq

structure ComparisonObservationChange extends ExpectedChange where
  accepted : Bool
deriving DecidableEq

structure ComparisonObservation where
  caseId : String
  alignments : List AlignmentLabel
  changes : List ComparisonObservationChange
  unauthorizedEvidenceIds : List String

structure ComparisonEvaluationMetrics where
  alignmentF1 : ℚ
  alignmentPrecision : ℚ
  alignmentRecall : ℚ
  citationPrecision : ℚ
  criticalMaterialChangeRecall : ℚ
  deterministicChangeAccuracy : ℚ
  unauthorizedEvidenceCount : ℕ
  unsupportedAcceptedClaims : ℕ

structure BaselineResult where
  passed : Bool
  failures : List String

structure ComparisonEvaluationReport where
  datasetVersion : String
  cases : ℕ
  metrics : ComparisonEvaluationMetrics
  baseline : BaselineResult

/-- The cases stand in a dictionary, by their ids. -/
structure ComparisonEvaluationDataset (φ : Type) where
  version : String
  cases : List (String × List (String × Json φ))
  baseline : List (String × Json φ)
  distinct : (cases.map Prod.fst).Nodup

/-- A `ValueError` by its text; of the two that print lists of ids, the lists. -/
inductive EvaluationError where
  | text (text : String)
  | duplicateCases (caseIds : List String)
  | otherCases (missing unexpected : List String)
  | keyError (caseId : String)

variable {φ : Type}

/-! Parsing -/

/-- `_object` -/
def asObject (value : Json φ) (label : String) : Except EvaluationError (List (String × Json φ)) :=
  match value with
  | .object fields => .ok fields
  | _ => .error (.text (label ++ " must be an object"))

/-- `_list` -/
def asList (value : Json φ) (label : String) : Except EvaluationError (List (Json φ)) :=
  match value with
  | .array items => .ok items
  | _ => .error (.text (label ++ " must be a list"))

/-- `_string` -/
def asString (value : Json φ) (label : String) : Except EvaluationError String :=
  match value with
  | .string text =>
    if text = "" then .error (.text (label ++ " must be a non-empty string")) else .ok text
  | _ => .error (.text (label ++ " must be a non-empty string"))

/-- `_strings` -/
def asStrings (value : Json φ) (label : String) : Except EvaluationError (List String) := do
  (← asList value label).mapM fun item => asString item label

def alignmentKinds : List String :=
  ["matched", "moved", "split", "merged", "added", "removed"]

def changeTypes : List String :=
  ["added", "removed", "modified", "moved", "split", "merged"]

def severities : List String :=
  ["low", "medium", "high", "critical"]

/-- One round of `_alignments` -/
def alignmentOf (label : String) (item : Json φ) : Except EvaluationError AlignmentLabel := do
  let alignment ← asObject item (label ++ " item")
  let kind ← asString (get alignment "kind") (label ++ " kind")
  if kind ∉ alignmentKinds then
    .error (.text (label ++ " has unsupported alignment kind: " ++ kind))
  else
    match get alignment "review_required" with
    | .bool reviewRequired => do
      return ⟨← asString (get alignment "id") (label ++ " id"), kind, reviewRequired⟩
    | _ => .error (.text (label ++ " review_required must be a boolean"))

/-- `_alignments` -/
def alignments (value : Json φ) (label : String) : Except EvaluationError (List AlignmentLabel) := do
  (← asList value label).mapM (alignmentOf label)

/-- `_change` -/
def changeOf (change : List (String × Json φ)) (label : String) :
    Except EvaluationError ExpectedChange := do
  let changeType ← asString (get change "change_type") (label ++ " change_type")
  if changeType ∉ changeTypes then
    .error (.text (label ++ " has unsupported change_type: " ++ changeType))
  else
    let severity ← asString (get change "severity") (label ++ " severity")
    if severity ∉ severities then
      .error (.text (label ++ " has unsupported severity: " ++ severity))
    else
      return {
        id := ← asString (get change "id") (label ++ " id")
        changeType
        severity
        citationIds := ← asStrings (get change "citation_ids") (label ++ " citation_ids") }

/-- `_expected_changes` -/
def expectedChanges (value : Json φ) (label : String) :
    Except EvaluationError (List ExpectedChange) := do
  (← asList value label).mapM fun item => do
    changeOf (← asObject item (label ++ " item")) label

/-! The tally -/

/-- The counters of the loop. -/
structure Tally where
  alignmentExpected : ℕ := 0
  alignmentFound : ℕ := 0
  alignmentReturned : ℕ := 0
  changeExpected : ℕ := 0
  changeCorrect : ℕ := 0
  criticalExpected : ℕ := 0
  criticalFound : ℕ := 0
  citationValid : ℕ := 0
  citationReturned : ℕ := 0
  unsupportedClaims : ℕ := 0
  unauthorizedEvidenceCount : ℕ := 0

/-- `len(set(items))` -/
def countDistinct {α : Type} [DecidableEq α] (items : List α) : ℕ :=
  items.dedup.length

/-- `len(set(items) & set(others))` -/
def countShared {α : Type} [DecidableEq α] (items others : List α) : ℕ :=
  (items.dedup.filter (· ∈ others)).length

/-- The change has the type and the severity that are expected. -/
def isCorrect (expected : ExpectedChange) (change : ComparisonObservationChange) : Bool :=
  change.changeType = expected.changeType && change.severity = expected.severity

/-- Both are critical. -/
def findsCritical (expected : ExpectedChange) (change : ComparisonObservationChange) : Bool :=
  expected.severity = "critical" && change.severity = "critical"

/-- One round of the inner loop. -/
def countChange (expected : List (String × ExpectedChange)) (tally : Tally)
    (change : ComparisonObservationChange) : Tally :=
  match Dict.get? expected change.id with
  | none => { tally with
      unsupportedClaims := tally.unsupportedClaims + if change.accepted then 1 else 0
      citationReturned := tally.citationReturned + countDistinct change.citationIds }
  | some expected => { tally with
      changeCorrect := tally.changeCorrect + if isCorrect expected change then 1 else 0
      citationReturned := tally.citationReturned + countDistinct change.citationIds
      citationValid := tally.citationValid + countShared change.citationIds expected.citationIds
      unsupportedClaims := tally.unsupportedClaims +
        if change.accepted && !expected.citationIds.all (· ∈ change.citationIds) then 1 else 0
      criticalFound := tally.criticalFound + if findsCritical expected change then 1 else 0 }

/-- The expected changes of a case by their ids; of several with one id the last. -/
def byId (changes : List ExpectedChange) : List (String × ExpectedChange) :=
  Dict.ofItems ExpectedChange.id changes

def isCritical (expected : ExpectedChange) : Bool :=
  expected.severity = "critical"

/-- One round of the outer loop. -/
def countCase (observationsById : List (String × ComparisonObservation)) (tally : Tally)
    (item : String × List (String × Json φ)) : Except EvaluationError Tally := do
  let (caseId, fields) := item
  match Dict.get? observationsById caseId with
  | none => .error (.keyError caseId)
  | some observation =>
    let expectedAlignments ← alignments (get fields "expected_alignments")
      ("case " ++ caseId ++ " alignments")
    let tally := { tally with
      alignmentExpected := tally.alignmentExpected + countDistinct expectedAlignments
      alignmentFound := tally.alignmentFound +
        countShared expectedAlignments observation.alignments
      alignmentReturned := tally.alignmentReturned + countDistinct observation.alignments }
    let expected := byId (← expectedChanges (get fields "expected_changes")
      ("case " ++ caseId ++ " changes"))
    let tally := { tally with changeExpected := tally.changeExpected + expected.length }
    let tally := observation.changes.foldl (countChange expected) tally
    return { tally with
      criticalExpected := tally.criticalExpected +
        (expected.map Prod.snd).countP isCritical
      unauthorizedEvidenceCount := tally.unauthorizedEvidenceCount +
        observation.unauthorizedEvidenceIds.length }

/-- `sorted(set(identifiers))` -/
def sortedIds (identifiers : List String) : List String :=
  identifiers.dedup.mergeSort (· ≤ ·)

/-- `_observations_by_id` -/
def observationsById (dataset : ComparisonEvaluationDataset φ)
    (observations : List ComparisonObservation) :
    Except EvaluationError (List (String × ComparisonObservation)) :=
  let identifiers := observations.map ComparisonObservation.caseId
  let duplicates := sortedIds (identifiers.filter fun identifier => identifiers.count identifier > 1)
  if duplicates ≠ [] then .error (.duplicateCases duplicates)
  else
    let observationsById := Dict.ofItems ComparisonObservation.caseId observations
    let caseIds := dataset.cases.map Prod.fst
    let unexpected := (observationsById.map Prod.fst).filter (· ∉ caseIds)
    let missing := caseIds.filter (· ∉ observationsById.map Prod.fst)
    if unexpected ≠ [] ∨ missing ≠ [] then
      .error (.otherCases (sortedIds missing) (sortedIds unexpected))
    else .ok observationsById

/-! Metrics -/

def Tally.metrics (tally : Tally) : ComparisonEvaluationMetrics :=
  let precision := ratio tally.alignmentFound tally.alignmentReturned
  let recalled := ratio tally.alignmentFound tally.alignmentExpected
  { alignmentF1 := f1 precision recalled
    alignmentPrecision := precision
    alignmentRecall := recalled
    citationPrecision := ratio tally.citationValid tally.citationReturned
    criticalMaterialChangeRecall := ratio tally.criticalFound tally.criticalExpected
    deterministicChangeAccuracy := ratio tally.changeCorrect tally.changeExpected
    unauthorizedEvidenceCount := tally.unauthorizedEvidenceCount
    unsupportedAcceptedClaims := tally.unsupportedClaims }

/-- `metrics.get(metric_name)` -/
def ComparisonEvaluationMetrics.get? (metrics : ComparisonEvaluationMetrics) (name : String) :
    Option ℚ :=
  List.lookup name
    [("alignment_f1", metrics.alignmentF1),
      ("alignment_precision", metrics.alignmentPrecision),
      ("alignment_recall", metrics.alignmentRecall),
      ("citation_precision", metrics.citationPrecision),
      ("critical_material_change_recall", metrics.criticalMaterialChangeRecall),
      ("deterministic_change_accuracy", metrics.deterministicChangeAccuracy),
      ("unauthorized_evidence_count", (metrics.unauthorizedEvidenceCount : ℚ)),
      ("unsupported_accepted_claims", (metrics.unsupportedAcceptedClaims : ℚ))]

/-- How a number compares to a floating-point number. -/
structure FloatOrder (φ : Type) where
  below : ℚ → φ → Bool
  above : ℚ → φ → Bool

variable (order : FloatOrder φ)

/-- Whether a threshold fails: it is no number, there is no metric or the metric is beyond it. A
Boolean is the number that it is to Python. -/
def fails (beyond : ℚ → ℚ → Bool) (beyondFloat : ℚ → φ → Bool) (metric : Option ℚ) :
    Json φ → Bool
  | .null => false
  | .int value => metric.all fun metric => beyond metric value
  | .bool value => metric.all fun metric => beyond metric (if value then 1 else 0)
  | .float value => metric.all fun metric => beyondFloat metric value
  | _ => true

/-- One round of `_compare_baseline` -/
def baselineFailures (metrics : ComparisonEvaluationMetrics) (item : String × Json φ) :
    Except EvaluationError (List String) := do
  let (metricName, threshold) := item
  let metric := metrics.get? metricName
  let thresholdValue ← asObject threshold ("baseline " ++ metricName)
  return (if fails (fun metric bound => metric < bound) order.below metric
        (get thresholdValue "minimum") then
      [metricName ++ " is below its accepted minimum"] else []) ++
    (if fails (fun metric bound => metric > bound) order.above metric
        (get thresholdValue "maximum") then
      [metricName ++ " exceeds its accepted maximum"] else [])

/-- `_compare_baseline` -/
def compareBaseline (metrics : ComparisonEvaluationMetrics) (baseline : List (String × Json φ)) :
    Except EvaluationError BaselineResult := do
  let failures := (← baseline.mapM (baselineFailures order metrics)).flatten
  return ⟨failures.isEmpty, failures⟩

def evaluateVersionComparisons (dataset : ComparisonEvaluationDataset φ)
    (observations : List ComparisonObservation) :
    Except EvaluationError ComparisonEvaluationReport := do
  let observationsById ← observationsById dataset observations
  let tally ← dataset.cases.foldlM (countCase observationsById) {}
  let baseline ← compareBaseline order tally.metrics dataset.baseline
  return ⟨dataset.version, dataset.cases.length, tally.metrics, baseline⟩

end AgreementIntelligence.Comparisons
