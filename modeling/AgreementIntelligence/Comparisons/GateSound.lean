import AgreementIntelligence.Comparisons.Evaluation

/-! When the metrics of an evaluation say what was missed. The counters of correct and of critical
changes count what was observed, the counters they are divided by what is expected. An expected
change that is observed twice therefore makes up for one that is not observed at all. -/

namespace AgreementIntelligence.Comparisons
open Lib Json Results Sightings

variable {φ : Type}

/-! What is expected and what was seen -/

/-- The expected changes of a case as they are listed. -/
def changesOf (item : String × List (String × Json φ)) : List ExpectedChange :=
  match expectedChanges (get item.2 "expected_changes") ("case " ++ item.1 ++ " changes") with
  | .ok changes => changes
  | .error _ => []

def listedOf (item : String × List (String × Json φ)) : List (String × ExpectedChange) :=
  (changesOf item).map fun change => (item.1, change)

def countedOf (item : String × List (String × Json φ)) : List (String × ExpectedChange) :=
  (byId (changesOf item)).map fun entry => (item.1, entry.2)

def replacedOf (item : String × List (String × Json φ)) : List (String × ExpectedChange) :=
  ((changesOf item).filter fun change =>
    Dict.get? (byId (changesOf item)) change.id ≠ some change).map fun change => (item.1, change)

/-- All expected changes of a dataset, each with its case. -/
def listed (dataset : ComparisonEvaluationDataset φ) : List (String × ExpectedChange) :=
  dataset.cases.flatMap listedOf

/-- The expected changes that count: of several with one id in a case the last. -/
def counted (dataset : ComparisonEvaluationDataset φ) : List (String × ExpectedChange) :=
  dataset.cases.flatMap countedOf

/-- The expected changes that a later one of their case and id replaces. -/
def replaced (dataset : ComparisonEvaluationDataset φ) : List (String × ExpectedChange) :=
  dataset.cases.flatMap replacedOf

/-- The changes that were observed for a case. -/
def seen (observations : List ComparisonObservation) (caseId : String) :
    List ComparisonObservationChange :=
  (observations.filter fun observation => observation.caseId = caseId).flatMap
    ComparisonObservation.changes

/-- How often a change was observed with its type and severity. -/
def correctSightings (observations : List ComparisonObservation)
    (item : String × ExpectedChange) : ℕ :=
  (seen observations item.1).countP fun change => change.id = item.2.id && isCorrect item.2 change

/-- How often a change was observed as critical. -/
def criticalSightings (observations : List ComparisonObservation)
    (item : String × ExpectedChange) : ℕ :=
  (seen observations item.1).countP fun change =>
    change.id = item.2.id && change.severity = "critical"

def critical (items : List (String × ExpectedChange)) : List (String × ExpectedChange) :=
  items.filter fun item => isCritical item.2

theorem mem_listedOf_iff {item : String × List (String × Json φ)}
    {change : String × ExpectedChange} :
    change ∈ listedOf item ↔ change ∈ countedOf item ∨ change ∈ replacedOf item := by
  simp only [listedOf, countedOf, replacedOf, List.mem_map, List.mem_filter, decide_eq_true_eq]
  constructor
  · rintro ⟨expected, member, rfl⟩
    by_cases last : Dict.get? (byId (changesOf item)) expected.id = some expected
    · exact .inl ⟨_, Dict.mem_of_get? last, rfl⟩
    · exact .inr ⟨expected, ⟨member, last⟩, rfl⟩
  · rintro (⟨entry, member, rfl⟩ | ⟨expected, ⟨member, -⟩, rfl⟩)
    · exact ⟨entry.2, Dict.mem_ofItems ExpectedChange.id member, rfl⟩
    · exact ⟨expected, member, rfl⟩

theorem mem_listed_iff {dataset : ComparisonEvaluationDataset φ}
    {change : String × ExpectedChange} :
    change ∈ listed dataset ↔ change ∈ counted dataset ∨ change ∈ replaced dataset := by
  simp only [listed, counted, replaced, List.mem_flatMap, mem_listedOf_iff]
  simp only [and_or_left, exists_or]

/-! What the loops count -/

/-- The observed changes that fit the expected change of their id, counted over the expected
changes. -/
theorem sum_fits (changes : List (String × ExpectedChange))
    (distinct : (changes.map Prod.fst).Nodup) (observed : List ComparisonObservationChange)
    (fits : ExpectedChange → ComparisonObservationChange → Bool) :
    (observed.map fun change => ((Dict.get? changes change.id).map fun expected =>
      if fits expected change then 1 else 0).getD 0).sum =
    (changes.map fun entry =>
      observed.countP fun change => change.id = entry.1 && fits entry.2 change).sum := by
  induction changes with
  | nil => simp [Dict.get?]
  | cons entry rest ih =>
      rw [List.map_cons, List.nodup_cons] at distinct
      rw [List.map_cons, List.sum_cons, ← ih distinct.2, countP_eq_sum, ← List.sum_map_add]
      congr 1
      apply List.map_congr_left
      intro change _
      by_cases here : entry.1 = change.id
      · have absent : Dict.get? rest change.id = none := by
          rw [Option.eq_none_iff_forall_ne_some]
          intro other found
          exact distinct.1 (here ▸ List.mem_map_of_mem (Dict.mem_of_get? found))
        simp [Dict.get?_cons, here, absent]
      · simp [Dict.get?_cons, here, Ne.symm here]

section Inner
variable {expected : List (String × ExpectedChange)} (tally : Tally)
  (observed : List ComparisonObservationChange)

theorem changeCorrect_foldl (distinct : (expected.map Prod.fst).Nodup) :
    (observed.foldl (countChange expected) tally).changeCorrect = tally.changeCorrect +
      (expected.map fun entry => observed.countP fun change =>
        change.id = entry.1 && isCorrect entry.2 change).sum := by
  have once (tally : Tally) (change : ComparisonObservationChange) :
      (countChange expected tally change).changeCorrect = tally.changeCorrect +
        ((Dict.get? expected change.id).map fun expected =>
          if isCorrect expected change then 1 else 0).getD 0 := by
    rw [countChange]
    cases Dict.get? expected change.id <;> rfl
  rw [← sum_fits expected distinct]
  exact @counter_foldl _ _ _ Tally.changeCorrect _ once tally observed

theorem criticalFound_foldl (distinct : (expected.map Prod.fst).Nodup) :
    (observed.foldl (countChange expected) tally).criticalFound = tally.criticalFound +
      (expected.map fun entry => observed.countP fun change =>
        change.id = entry.1 && findsCritical entry.2 change).sum := by
  have once (tally : Tally) (change : ComparisonObservationChange) :
      (countChange expected tally change).criticalFound = tally.criticalFound +
        ((Dict.get? expected change.id).map fun expected =>
          if findsCritical expected change then 1 else 0).getD 0 := by
    rw [countChange]
    cases Dict.get? expected change.id <;> rfl
  rw [← sum_fits expected distinct]
  exact @counter_foldl _ _ _ Tally.criticalFound _ once tally observed

/-- The inner loop leaves the counters of the cases and never counts more valid citations than
citations. -/
theorem foldl_countChange_keeps :
    let after := observed.foldl (countChange expected) tally
    after.alignmentExpected = tally.alignmentExpected ∧
      after.alignmentFound = tally.alignmentFound ∧
      after.alignmentReturned = tally.alignmentReturned ∧
      after.changeExpected = tally.changeExpected ∧
      after.criticalExpected = tally.criticalExpected ∧
      (tally.citationValid ≤ tally.citationReturned →
        after.citationValid ≤ after.citationReturned) := by
  induction observed generalizing tally with
  | nil => exact ⟨rfl, rfl, rfl, rfl, rfl, id⟩
  | cons change rest ih =>
      have after := ih (countChange expected tally change)
      rw [List.foldl_cons]
      rw [countChange] at after ⊢
      cases here : Dict.get? expected change.id with
      | none =>
          simp only [here] at after ⊢
          refine ⟨after.1, after.2.1, after.2.2.1, after.2.2.2.1, after.2.2.2.2.1, fun few => ?_⟩
          exact after.2.2.2.2.2 (Nat.le_add_right_of_le few)
      | some found =>
          simp only [here] at after ⊢
          refine ⟨after.1, after.2.1, after.2.2.1, after.2.2.2.1, after.2.2.2.2.1, fun few => ?_⟩
          exact after.2.2.2.2.2 (Nat.add_le_add few (List.length_filter_le _ _))

end Inner

theorem countShared_le_left {α : Type} [DecidableEq α] (items others : List α) :
    countShared items others ≤ countDistinct items :=
  List.length_filter_le _ _

theorem countShared_le_right {α : Type} [DecidableEq α] (items others : List α) :
    countShared items others ≤ countDistinct others := by
  apply List.Subperm.length_le
  apply ((List.nodup_dedup items).filter _).subperm
  intro item member
  rw [List.mem_filter, decide_eq_true_eq] at member
  exact List.mem_dedup.mpr member.2

/-- An observation is the only one of its case. -/
theorem seen_eq {dataset : ComparisonEvaluationDataset φ}
    {observations : List ComparisonObservation} {indexed : List (String × ComparisonObservation)}
    (accepted : observationsById dataset observations = .ok indexed) {caseId : String}
    {observation : ComparisonObservation} (found : Dict.get? indexed caseId = some observation) :
    seen observations caseId = observation.changes := by
  simp only [observationsById] at accepted
  split_ifs at accepted with repeated others
  cases accepted
  obtain ⟨member, rfl⟩ := Dict.mem_of_get?_ofItems ComparisonObservation.caseId found
  let identifiers := observations.map ComparisonObservation.caseId
  have single : identifiers.count observation.caseId ≤ 1 := by
    by_contra more
    have listed : observation.caseId ∈
        identifiers.filter fun identifier => identifiers.count identifier > 1 :=
      List.mem_filter.mpr ⟨List.mem_map_of_mem member, by simpa using more⟩
    have sorted : observation.caseId ∈
        sortedIds (identifiers.filter fun identifier => identifiers.count identifier > 1) := by
      rw [sortedIds, List.mem_mergeSort]
      exact List.mem_dedup.mpr listed
    rw [not_not] at repeated
    exact absurd (repeated ▸ sorted) List.not_mem_nil
  have kept : observation ∈ observations.filter
      (fun other => other.caseId = observation.caseId) := by simpa using member
  have one : (observations.filter fun other => other.caseId = observation.caseId).length = 1 := by
    have some_ := List.length_pos_of_mem kept
    rw [List.count, List.countP_map, List.countP_eq_length_filter] at single
    exact Nat.le_antisymm single some_
  obtain ⟨other, alone⟩ := List.length_eq_one_iff.mp one
  rw [alone, List.mem_singleton] at kept
  subst kept
  rw [seen, alone, List.flatMap_singleton]

theorem byId_key {changes : List ExpectedChange} {entry : String × ExpectedChange}
    (member : entry ∈ byId changes) : entry.2.id = entry.1 := by
  have found := (Dict.get?_eq_some_iff (Dict.nodup_keys_ofItems _ _)).mpr member
  exact (Dict.mem_of_get?_ofItems ExpectedChange.id found).2

/-- The sightings of the expected changes of a case that count. -/
theorem sum_sightings {item : String × List (String × Json φ)}
    {observations : List ComparisonObservation} {observed : List ComparisonObservationChange}
    (same : seen observations item.1 = observed)
    (fits : ExpectedChange → ComparisonObservationChange → Bool) :
    ((byId (changesOf item)).map fun entry => observed.countP fun change =>
      change.id = entry.1 && fits entry.2 change).sum =
    ((countedOf item).map fun change => (seen observations change.1).countP fun other =>
      other.id = change.2.id && fits change.2 other).sum := by
  rw [countedOf, List.map_map]
  congr 1
  apply List.map_congr_left
  intro entry member
  simp only [Function.comp_apply, same, byId_key member]

/-- Only a critical change finds a critical one. -/
theorem sum_critical (observations : List ComparisonObservation)
    (items : List (String × ExpectedChange)) :
    (items.map fun item => (seen observations item.1).countP fun change =>
      change.id = item.2.id && findsCritical item.2 change).sum =
    ((critical items).map (criticalSightings observations)).sum := by
  induction items with
  | nil => rfl
  | cons item rest ih =>
      rw [List.map_cons, List.sum_cons, ih]
      cases severe : isCritical item.2 with
      | true =>
          have weight : item.2.severity = "critical" := of_decide_eq_true severe
          simp only [critical, List.filter_cons, severe, if_true, List.map_cons, List.sum_cons,
            criticalSightings, findsCritical, weight, decide_true, Bool.true_and]
      | false =>
          have weight : ¬ item.2.severity = "critical" := of_decide_eq_false severe
          have none : (seen observations item.1).countP (fun change =>
              change.id = item.2.id && findsCritical item.2 change) = 0 := by
            simp [findsCritical, weight]
          rw [none, Nat.zero_add]
          simp [critical, severe]

/-! The tally -/

/-- What the counters are after some cases. -/
structure Tallied (observations : List ComparisonObservation)
    (cases : List (String × List (String × Json φ))) (tally : Tally) : Prop where
  changeExpected : tally.changeExpected = (cases.flatMap countedOf).length
  changeCorrect : tally.changeCorrect =
    ((cases.flatMap countedOf).map (correctSightings observations)).sum
  criticalExpected : tally.criticalExpected = (critical (cases.flatMap countedOf)).length
  criticalFound : tally.criticalFound =
    ((critical (cases.flatMap countedOf)).map (criticalSightings observations)).sum
  alignmentExpected : tally.alignmentFound ≤ tally.alignmentExpected
  alignmentReturned : tally.alignmentFound ≤ tally.alignmentReturned
  citations : tally.citationValid ≤ tally.citationReturned

theorem countCase_tallied {dataset : ComparisonEvaluationDataset φ}
    {observations : List ComparisonObservation} {indexed : List (String × ComparisonObservation)}
    (accepted : observationsById dataset observations = .ok indexed)
    {cases : List (String × List (String × Json φ))} {tally next : Tally}
    {item : String × List (String × Json φ)} (tallied : Tallied observations cases tally)
    (counts : countCase indexed tally item = .ok next) :
    Tallied observations (cases ++ [item]) next := by
  simp only [countCase] at counts
  cases found : Dict.get? indexed item.1 with
  | none => simp [found] at counts
  | some observation =>
      have same := seen_eq accepted found
      simp only [found, bind_ok] at counts
      obtain ⟨expectedAlignments, -, changes, parsed, returned⟩ := counts
      cases returned
      have expected : changesOf item = changes := by rw [changesOf, parsed]
      have distinct : ((byId changes).map Prod.fst).Nodup := Dict.nodup_keys_ofItems _ changes
      have counted : (byId changes).map (fun entry => (item.1, entry.2)) = countedOf item := by
        rw [countedOf, expected]
      have size : (byId changes).length = (countedOf item).length := by
        rw [← counted, List.length_map]
      have severe : ((byId changes).map Prod.snd).countP isCritical =
          (critical (countedOf item)).length := by
        rw [critical, ← List.countP_eq_length_filter, ← counted, List.countP_map, List.countP_map]
        rfl
      let before : Tally := { tally with
        alignmentExpected := tally.alignmentExpected + countDistinct expectedAlignments
        alignmentFound := tally.alignmentFound +
          countShared expectedAlignments observation.alignments
        alignmentReturned := tally.alignmentReturned + countDistinct observation.alignments
        changeExpected := tally.changeExpected + (byId changes).length }
      obtain ⟨one, two, three, four, five, six⟩ :=
        @foldl_countChange_keeps (byId changes) before observation.changes
      constructor
      · rw [List.flatMap_append, List.flatMap_singleton, List.length_append, ← size,
          ← tallied.changeExpected]
        exact four
      · rw [List.flatMap_append, List.flatMap_singleton, List.map_append, List.sum_append,
          ← tallied.changeCorrect]
        refine (changeCorrect_foldl before observation.changes distinct).trans ?_
        rw [← expected]
        exact congrArg _ (sum_sightings same isCorrect)
      · rw [List.flatMap_append, List.flatMap_singleton, critical, List.filter_append,
          List.length_append, ← critical, ← critical, ← severe, ← tallied.criticalExpected]
        exact congrArg (· + _) five
      · rw [List.flatMap_append, List.flatMap_singleton, critical, List.filter_append,
          List.map_append, List.sum_append, ← critical, ← critical, ← tallied.criticalFound,
          ← sum_critical observations (countedOf item)]
        refine (criticalFound_foldl before observation.changes distinct).trans ?_
        rw [← expected]
        exact congrArg _ (sum_sightings same findsCritical)
      · rw [one, two]
        exact Nat.add_le_add tallied.alignmentExpected (countShared_le_left _ _)
      · rw [two, three]
        exact Nat.add_le_add tallied.alignmentReturned (countShared_le_right _ _)
      · exact six tallied.citations

theorem foldlM_tallied {dataset : ComparisonEvaluationDataset φ}
    {observations : List ComparisonObservation} {indexed : List (String × ComparisonObservation)}
    (accepted : observationsById dataset observations = .ok indexed)
    {done rest : List (String × List (String × Json φ))} {tally last : Tally}
    (tallied : Tallied observations done tally)
    (counts : rest.foldlM (countCase indexed) tally = .ok last) :
    Tallied observations (done ++ rest) last := by
  induction rest generalizing done tally with
  | nil =>
      cases counts
      rwa [List.append_nil]
  | cons item rest ih =>
      rw [List.foldlM_cons, bind_ok] at counts
      obtain ⟨next, first, later⟩ := counts
      have after := ih (countCase_tallied accepted tallied first) later
      rwa [List.append_assoc] at after

/-! The metrics -/

def ComparisonEvaluationMetrics.ratios (metrics : ComparisonEvaluationMetrics) : List ℚ :=
  [metrics.alignmentF1, metrics.alignmentPrecision, metrics.alignmentRecall,
    metrics.citationPrecision, metrics.criticalMaterialChangeRecall,
    metrics.deterministicChangeAccuracy]

/-- The metrics say what was missed. -/
structure GateSound (dataset : ComparisonEvaluationDataset φ)
    (observations : List ComparisonObservation) (metrics : ComparisonEvaluationMetrics) :
    Prop where
  ratios : ∀ score ∈ metrics.ratios, IsRatio score
  recalled : metrics.criticalMaterialChangeRecall = 1 ↔
    ∀ item ∈ listed dataset, item.2.severity = "critical" →
      ∃ change ∈ seen observations item.1, change.id = item.2.id ∧ change.severity = "critical"
  accuracy : metrics.deterministicChangeAccuracy = 1 ↔
    ∀ item ∈ listed dataset, ∃ change ∈ seen observations item.1, change.id = item.2.id ∧
      change.changeType = item.2.changeType ∧ change.severity = item.2.severity

variable (order : FloatOrder φ) {dataset : ComparisonEvaluationDataset φ}
  {observations : List ComparisonObservation} {report : ComparisonEvaluationReport}

theorem exists_tallied
    (accepted : evaluateVersionComparisons order dataset observations = .ok report) :
    ∃ tally, Tallied observations dataset.cases tally ∧ report.metrics = tally.metrics := by
  rw [evaluateVersionComparisons, bind_ok] at accepted
  obtain ⟨indexed, known, accepted⟩ := accepted
  rw [bind_ok] at accepted
  obtain ⟨tally, counts, accepted⟩ := accepted
  rw [bind_ok] at accepted
  obtain ⟨baseline, -, returned⟩ := accepted
  cases returned
  have start : Tallied observations ([] : List (String × List (String × Json φ))) {} :=
    ⟨rfl, rfl, rfl, rfl, Nat.le_refl 0, Nat.le_refl 0, Nat.le_refl 0⟩
  exact ⟨tally, foldlM_tallied known start counts, rfl⟩

theorem correctSightings_pos_iff {item : String × ExpectedChange} :
    0 < correctSightings observations item ↔
      ∃ change ∈ seen observations item.1, change.id = item.2.id ∧
        change.changeType = item.2.changeType ∧ change.severity = item.2.severity := by
  simp [correctSightings, isCorrect, List.countP_pos_iff]

theorem criticalSightings_pos_iff {item : String × ExpectedChange} :
    0 < criticalSightings observations item ↔
      ∃ change ∈ seen observations item.1, change.id = item.2.id ∧
        change.severity = "critical" := by
  simp [criticalSightings, List.countP_pos_iff]

theorem all_correct_iff (observations : List ComparisonObservation)
    (dataset : ComparisonEvaluationDataset φ) :
    (∀ item ∈ listed dataset, ∃ change ∈ seen observations item.1, change.id = item.2.id ∧
      change.changeType = item.2.changeType ∧ change.severity = item.2.severity) ↔
    (∀ item ∈ counted dataset, 0 < correctSightings observations item) ∧
      ∀ item ∈ replaced dataset, 0 < correctSightings observations item := by
  simp only [← correctSightings_pos_iff, mem_listed_iff, or_imp, forall_and]

theorem all_critical_iff (observations : List ComparisonObservation)
    (dataset : ComparisonEvaluationDataset φ) :
    (∀ item ∈ listed dataset, item.2.severity = "critical" →
      ∃ change ∈ seen observations item.1, change.id = item.2.id ∧ change.severity = "critical") ↔
    (∀ item ∈ critical (counted dataset), 0 < criticalSightings observations item) ∧
      ∀ item ∈ critical (replaced dataset), 0 < criticalSightings observations item := by
  simp only [← criticalSightings_pos_iff, mem_listed_iff, critical, List.mem_filter, isCritical,
    decide_eq_true_eq, or_imp, and_imp, forall_and]

/-- A score of all sightings over all changes that count. -/
theorem score_iff {times : String × ExpectedChange → ℕ} {found expected : ℕ}
    {items others : List (String × ExpectedChange)} (sightings : found = (items.map times).sum)
    (size : expected = items.length) {all : Prop}
    (whole : all ↔ (∀ item ∈ items, 0 < times item) ∧ ∀ item ∈ others, 0 < times item) :
    (IsRatio (ratio found expected) ∧ (ratio found expected = 1 ↔ all)) ↔
      Uncompensated times items others := by
  have empty : expected = 0 → found = 0 := by
    intro none
    rw [sightings, List.eq_nil_of_length_eq_zero (size.symm.trans none)]
    rfl
  rw [isRatio_ratio_iff empty, ratio_eq_one_iff empty, whole, sightings, size, uncompensated_iff]

/-- The metrics of an evaluation say what was missed exactly when neither among the expected
changes nor among the critical ones sightings make up for missed changes. -/
theorem gateSound_iff
    (accepted : evaluateVersionComparisons order dataset observations = .ok report) :
    GateSound dataset observations report.metrics ↔
      Uncompensated (criticalSightings observations) (critical (counted dataset))
        (critical (replaced dataset)) ∧
      Uncompensated (correctSightings observations) (counted dataset) (replaced dataset) := by
  obtain ⟨tally, tallied, metrics⟩ := exists_tallied order accepted
  have recalled := score_iff tallied.criticalFound tallied.criticalExpected
    (all_critical_iff observations dataset)
  have accuracy := score_iff tallied.changeCorrect tallied.changeExpected
    (all_correct_iff observations dataset)
  have precise := isRatio_ratio tallied.alignmentReturned
  have whole := isRatio_ratio tallied.alignmentExpected
  rw [metrics]
  constructor
  · intro sound
    exact ⟨recalled.mp ⟨sound.ratios _ (by simp [ComparisonEvaluationMetrics.ratios, Tally.metrics]),
      sound.recalled⟩, accuracy.mp
        ⟨sound.ratios _ (by simp [ComparisonEvaluationMetrics.ratios, Tally.metrics]),
          sound.accuracy⟩⟩
  · intro ⟨severe, every⟩
    obtain ⟨severeRatio, severeAll⟩ := recalled.mpr severe
    obtain ⟨everyRatio, everyAll⟩ := accuracy.mpr every
    refine ⟨?_, severeAll, everyAll⟩
    simp only [ComparisonEvaluationMetrics.ratios, List.forall_mem_cons, List.not_mem_nil,
      false_imp_iff, implies_true, and_true]
    exact ⟨isRatio_f1 precise whole, precise, whole, isRatio_ratio tallied.citations, severeRatio,
      everyRatio⟩

/-- Thresholds without rounding. -/
def exactOrder : FloatOrder ℚ where
  below metric bound := metric < bound
  above metric bound := metric > bound

def sampleChange (id : String) : ExpectedChange :=
  ⟨id, "modified", "critical", ["anchor"]⟩

def sampleItem (id : String) : Json ℚ :=
  .object [("id", .string id), ("change_type", .string "modified"), ("severity", .string "critical"),
    ("citation_ids", .array [.string "anchor"])]

/-- Two critical changes are expected and a release has to find all. -/
def sampleDataset : ComparisonEvaluationDataset ℚ where
  version := "1.0"
  cases := [("services", [("expected_alignments", .array []),
    ("expected_changes", .array [sampleItem "cap", sampleItem "term"])])]
  baseline := [("critical_material_change_recall", .object [("minimum", .int 1)])]
  distinct := by decide

/-- One of them was observed twice. -/
def repeatedObservations : List ComparisonObservation :=
  [⟨"services", [], [⟨sampleChange "cap", true⟩, ⟨sampleChange "cap", true⟩], []⟩]

def repeatedTally : Tally :=
  { changeExpected := 2, changeCorrect := 2, criticalExpected := 2, criticalFound := 2,
    citationValid := 2, citationReturned := 2 }

theorem baselineFailures_none {φ : Type} {order : FloatOrder φ}
    {metrics : ComparisonEvaluationMetrics} {metricName : String}
    {fields : List (String × Json φ)}
    (enough : fails (fun metric bound => metric < bound) order.below (metrics.get? metricName)
      (Json.get fields "minimum") = false)
    (few : fails (fun metric bound => metric > bound) order.above (metrics.get? metricName)
      (Json.get fields "maximum") = false) :
    baselineFailures order metrics (metricName, .object fields) = .ok [] := by
  simp only [baselineFailures, asObject, bind, Except.bind, enough, few]
  rfl

theorem repeated_recall : repeatedTally.metrics.criticalMaterialChangeRecall = 1 := by
  simp [Tally.metrics, repeatedTally, ratio]

theorem repeated_accepted : evaluateVersionComparisons exactOrder sampleDataset
    repeatedObservations = .ok ⟨"1.0", 1, repeatedTally.metrics, ⟨true, []⟩⟩ := by
  have indexed : observationsById sampleDataset repeatedObservations =
      .ok [("services", repeatedObservations.head (by decide))] := by
    simp [observationsById, sortedIds, repeatedObservations, sampleDataset, Dict.ofItems, Dict.set]
  have counts : sampleDataset.cases.foldlM
      (countCase [("services", repeatedObservations.head (by decide))]) {} =
        Except.ok repeatedTally := by
    rfl
  have metric : repeatedTally.metrics.get? "critical_material_change_recall" = some 1 := by
    rw [← repeated_recall]
    rfl
  have threshold : baselineFailures exactOrder repeatedTally.metrics
      ("critical_material_change_recall", .object [("minimum", .int 1)]) = .ok [] := by
    exact baselineFailures_none (by rw [metric]; decide) rfl
  have passes : compareBaseline exactOrder repeatedTally.metrics sampleDataset.baseline =
      .ok ⟨true, []⟩ := by
    simp [compareBaseline, sampleDataset, threshold, bind, Except.bind, pure, Except.pure]
  simp [evaluateVersionComparisons, indexed, counts, passes, bind, Except.bind, pure, Except.pure]
  exact ⟨rfl, rfl⟩

theorem gateSound_iff_repeated :
    GateSound sampleDataset repeatedObservations repeatedTally.metrics ↔
      Uncompensated (criticalSightings repeatedObservations) (critical (counted sampleDataset))
        (critical (replaced sampleDataset)) ∧
      Uncompensated (correctSightings repeatedObservations) (counted sampleDataset)
        (replaced sampleDataset) :=
  gateSound_iff exactOrder repeated_accepted

/-- A critical change that was not observed is masked by one that was observed twice. -/
theorem not_gateSound : ¬ ∀ (dataset : ComparisonEvaluationDataset ℚ)
    (observations : List ComparisonObservation) (report : ComparisonEvaluationReport),
    evaluateVersionComparisons exactOrder dataset observations = .ok report →
      GateSound dataset observations report.metrics := by
  intro sound
  have gate := sound _ _ _ repeated_accepted
  obtain ⟨change, member, same, -⟩ := gate.recalled.mp repeated_recall ("services", sampleChange "term") (by decide) rfl
  have only : change ∈ [⟨sampleChange "cap", true⟩, ⟨sampleChange "cap", true⟩] := member
  simp [sampleChange] at only
  rw [only] at same
  exact absurd same (by decide)

end AgreementIntelligence.Comparisons
