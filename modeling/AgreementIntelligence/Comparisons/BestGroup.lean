import AgreementIntelligence.Comparisons.Candidates
import AgreementIntelligence.Lib.HalfEven
import AgreementIntelligence.Lib.RunningGreatest

/-! Which group is chosen. The confidence of the best group so far is kept rounded and compared
with confidences that are not, so that an earlier pair may stand in the way of a better one, and a
later pair may take the place of one as good. -/

namespace AgreementIntelligence.Comparisons
open Lib Text Casing HalfEven RunningGreatest

/-! Rounding to four digits -/

theorem round4_eq (value : ℚ) : round4 value = roundHalfEven (value * 10000) / 10000 := rfl

theorem round4_mono : Monotone round4 := by
  intro value other below
  have nearest : roundHalfEven (value * 10000) ≤ roundHalfEven (other * 10000) :=
    roundHalfEven_mono (by linarith)
  rw [round4_eq, round4_eq]
  gcongr

theorem round4_round4 (value : ℚ) : round4 (round4 value) = round4 value := by
  rw [round4_eq (round4 value), round4_eq value, div_mul_cancel₀ _ (by norm_num),
    roundHalfEven_intCast]

/-! The pass over the candidates -/

section Pass
variable (table : CaseTable) (source : CanonicalElement)
  (candidates : List (CanonicalElement × CanonicalElement))
  (sourceElements candidateElements : List CanonicalElement)

/-- The pairs that pass the tests of clause type, of coverage and of improvement. -/
def passingPairs : List (CanonicalElement × CanonicalElement) :=
  candidates.filter fun pair => coveredByGroup table source pair.1 pair.2

/-- The confidence of a pair before it is rounded. -/
def pairConfidence (pair : CanonicalElement × CanonicalElement) : ℚ :=
  groupConfidence table source pair.1 pair.2 sourceElements.length candidateElements.length

/-- No group is chosen exactly where no pair passes, and else the first one of those with the
greatest confidence. -/
structure ChoosesBest : Prop where
  nothing : bestGroupCandidate table source candidates sourceElements candidateElements = none ↔
    ∀ pair ∈ candidates, coveredByGroup table source pair.1 pair.2 = false
  greatest :
    (bestGroupCandidate table source candidates sourceElements candidateElements).map
        (fun chosen => (chosen.1, chosen.2.1)) =
      (passingPairs table source candidates).argmax
        (pairConfidence table source sourceElements candidateElements)

theorem bestGroupCandidate_eq :
    bestGroupCandidate table source candidates sourceElements candidateElements =
      (coarseGreatest (pairConfidence table source sourceElements candidateElements) round4
        (passingPairs table source candidates)).map
          fun best => (best.1.1, best.1.2, best.2) := by
  induction candidates using List.reverseRecOn with
  | nil => rfl
  | append_singleton candidates pair ih =>
      rw [bestGroupCandidate, List.foldl_append, List.foldl_cons, List.foldl_nil,
        ← bestGroupCandidate, ih, betterGroup]
      split
      · next covered =>
          have passed : passingPairs table source (candidates ++ [pair]) =
              passingPairs table source candidates ++ [pair] := by
            simp [passingPairs, covered]
          rw [passed, coarseGreatest_concat]
          cases coarseGreatest (pairConfidence table source sourceElements candidateElements) round4
            (passingPairs table source candidates) with
          | none => rfl
          | some known =>
              by_cases above : known.2 < pairConfidence table source sourceElements
                candidateElements pair
              · rw [betterOf_of_lt above]
                exact if_pos above
              · rw [betterOf_of_not_lt above]
                exact if_neg above
      · next uncovered =>
          have passed : passingPairs table source (candidates ++ [pair]) =
              passingPairs table source candidates := by
            simp [passingPairs, uncovered]
          rw [passed]

theorem map_bestGroupCandidate :
    (bestGroupCandidate table source candidates sourceElements candidateElements).map
        (fun chosen => (chosen.1, chosen.2.1)) =
      (coarseGreatest (pairConfidence table source sourceElements candidateElements) round4
        (passingPairs table source candidates)).map Prod.fst := by
  rw [bestGroupCandidate_eq, Option.map_map]
  rfl

end Pass

/-! Two groups of one confidence -/

section Tied

def tiedElement (elementId : String) (ordinal : ℕ) (headingPath : List String) (text : String)
    (named : elementId ≠ "" := by decide) (spoken : strip text ≠ "" := by decide) :
    CanonicalElement :=
  ⟨elementId, ordinal, headingPath, none, text, ["citation-1"], named, spoken, by simp⟩

def tiedSource : CanonicalElement := tiedElement "b0" 0 [] "a b c d e f g"

def tiedFirst : CanonicalElement × CanonicalElement :=
  (tiedElement "t0" 0 ["Term"] "a b c", tiedElement "t1" 1 ["Term"] "d e f")

def tiedSecond : CanonicalElement × CanonicalElement :=
  (tiedFirst.2, tiedElement "t2" 2 ["Term"] "a b c")

def tiedTargets : List CanonicalElement := [tiedFirst.1, tiedFirst.2, tiedSecond.2]

/-- Either pair of neighbours covers six of the seven words. -/
def tiedPairs : List (CanonicalElement × CanonicalElement) := [tiedFirst, tiedSecond]

example : adjacentPairs tiedTargets {"t0", "t1", "t2"} = tiedPairs := by decide

theorem covered_tied : ∀ pair ∈ tiedPairs,
    coveredByGroup .ascii tiedSource pair.1 pair.2 = true ∧
      tokenCoverage .ascii tiedSource.text (combinedElement pair.1 pair.2).text = 6 / 7 ∧
      tokenSimilarity .ascii (heading tiedSource) (heading (combinedElement pair.1 pair.2)) = 0 ∧
      (combinedElement pair.1 pair.2).clauseType = none := by
  decide +kernel

/-- Without a heading and a clause type in common the score stays below the coverage. -/
theorem pairConfidence_tied {pair : CanonicalElement × CanonicalElement}
    (member : pair ∈ tiedPairs) :
    pairConfidence .ascii tiedSource [tiedSource] tiedTargets pair = 6 / 7 := by
  obtain ⟨-, coverage, headings, clause⟩ := covered_tied pair member
  have text := Difflib.ratio_le_one (normalizedText .ascii tiedSource.text).toList
    (normalizedText .ascii (combinedElement pair.1 pair.2).text).toList
  have apart : 0 ≤ positionDistance tiedSource (combinedElement pair.1 pair.2) [tiedSource].length
    tiedTargets.length := abs_nonneg _
  have taxonomy : taxonomySimilarity .ascii tiedSource.clauseType
      (combinedElement pair.1 pair.2).clauseType = 1 / 2 := by
    rw [clause]
    rfl
  rw [pairConfidence, groupConfidence, coverage, max_eq_right]
  rw [candidateScore, headings, taxonomy]
  linarith

end Tied

end AgreementIntelligence.Comparisons
