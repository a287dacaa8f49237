import AgreementIntelligence.Comparisons.Alignment
import Mathlib.Tactic.NormNum

/-! What the scores and the choices of an alignment are bound by: similarities lie between zero
and one, a chosen group is one of the adjacent pairs, and a pair that is left is one of two
unmatched elements. -/

namespace AgreementIntelligence.Comparisons
open Lib Text Casing Queries

variable (table : CaseTable)

/-! Scores -/

theorem share_le_one {part whole : ℕ} (within : part ≤ whole) : (part / whole : ℚ) ≤ 1 :=
  div_le_one_of_le₀ (by exact_mod_cast within) (Nat.cast_nonneg whole)

theorem share_nonneg (part whole : ℕ) : 0 ≤ (part / whole : ℚ) :=
  div_nonneg (Nat.cast_nonneg part) (Nat.cast_nonneg whole)

theorem tokenSimilarity_le_one (first second : String) :
    tokenSimilarity table first second ≤ 1 := by
  simp only [tokenSimilarity]
  split
  · exact le_refl 1
  · split
    · exact zero_le_one
    · exact share_le_one (Finset.card_le_card Finset.inter_subset_union)

theorem tokenSimilarity_self (value : String) : tokenSimilarity table value value = 1 := by
  simp only [tokenSimilarity, and_self, or_self, Finset.inter_self, Finset.union_self]
  split
  · rfl
  · next some_ =>
      have counted := Finset.card_ne_zero.mpr (Finset.nonempty_iff_ne_empty.mpr some_)
      exact div_self (Nat.cast_ne_zero.mpr counted)

theorem tokenCoverage_nonneg (source candidate : String) :
    0 ≤ tokenCoverage table source candidate := by
  simp only [tokenCoverage]
  split
  · exact le_refl 0
  · exact share_nonneg _ _

theorem tokenCoverage_le_one (source candidate : String) :
    tokenCoverage table source candidate ≤ 1 := by
  simp only [tokenCoverage]
  split
  · exact zero_le_one
  · exact share_le_one (Finset.card_le_card Finset.inter_subset_left)

theorem taxonomySimilarity_le_one (first second : Option String) :
    taxonomySimilarity table first second ≤ 1 := by
  cases first <;> cases second <;> simp only [taxonomySimilarity]
  · norm_num
  · norm_num
  · norm_num
  · split <;> norm_num

theorem candidateScore_le_one (source destination : CanonicalElement) (m n : ℕ) :
    candidateScore table source destination m n ≤ 1 := by
  have text := Difflib.ratio_le_one (normalizedText table source.text).toList
    (normalizedText table destination.text).toList
  have heading := tokenSimilarity_le_one table (heading source) (heading destination)
  have taxonomy := taxonomySimilarity_le_one table source.clauseType destination.clauseType
  have apart : 0 ≤ positionDistance source destination m n := abs_nonneg _
  rw [candidateScore]
  linarith

theorem round4_mem {value : ℚ} (low : 0 ≤ value) (high : value ≤ 1) :
    0 ≤ round4 value ∧ round4 value ≤ 1 := by
  have floor_nonneg : 0 ≤ ⌊value * 10000⌋ := Int.floor_nonneg.mpr (by positivity)
  have floor_le : (⌊value * 10000⌋ : ℚ) ≤ value * 10000 := Int.floor_le _
  have small : ⌊value * 10000⌋ ≤ 10000 := by
    have bound : (⌊value * 10000⌋ : ℚ) ≤ 10000 := by linarith
    exact_mod_cast bound
  -- the floor is at most 9999 wherever there is a rest to round up
  have below : (0 : ℚ) < value * 10000 - ⌊value * 10000⌋ → ⌊value * 10000⌋ < 10000 := by
    intro rest
    have bound : (⌊value * 10000⌋ : ℚ) < 10000 := by linarith
    exact_mod_cast bound
  suffices nearest : ∀ n : ℤ, 0 ≤ n → n ≤ 10000 → (0 : ℚ) ≤ n / 10000 ∧ (n : ℚ) / 10000 ≤ 1 by
    rw [round4]
    apply nearest
    · split_ifs <;> omega
    · split_ifs with h₁ h₂ h₃
      · exact small
      · exact below (by linarith)
      · exact small
      · exact below (by linarith)
  intro n positive bounded
  constructor
  · positivity
  · rw [div_le_one (by norm_num)]
    exact_mod_cast bounded

/-! Choices -/

theorem mem_adjacentPairs {elements : List CanonicalElement} {unmatched : Finset String}
    {first second : CanonicalElement}
    (member : (first, second) ∈ adjacentPairs elements unmatched) :
    (first ∈ elements ∧ first.elementId ∈ unmatched) ∧
      (second ∈ elements ∧ second.elementId ∈ unmatched) ∧
        second.ordinal = first.ordinal + 1 := by
  simp only [adjacentPairs, List.mem_filter, decide_eq_true_eq] at member
  have left := (List.of_mem_zip member.1).1
  have right := List.mem_of_mem_tail (List.of_mem_zip member.1).2
  rw [List.mem_filter, decide_eq_true_eq] at left right
  exact ⟨left, right, member.2⟩

/-- Two items that stand next to each other are one of the pairs of neighbours. -/
theorem mem_zip_tail {α : Type} (before : List α) (first second : α) (after : List α) :
    (first, second) ∈ (before ++ first :: second :: after).zip
      (before ++ first :: second :: after).tail := by
  induction before with
  | nil => simp
  | cons item before ih =>
      rw [List.cons_append, List.tail_cons]
      cases before with
      | nil => simp
      | cons next before => exact List.mem_cons_of_mem _ ih

/-- Unmatched elements of adjacent ordinals are an adjacent pair. -/
theorem adjacentPairs_mem {elements : List CanonicalElement} {unmatched : Finset String}
    {first second : CanonicalElement}
    (sorted : elements.Pairwise fun a b => a.ordinal < b.ordinal)
    (one : first ∈ elements ∧ first.elementId ∈ unmatched)
    (two : second ∈ elements ∧ second.elementId ∈ unmatched)
    (next : second.ordinal = first.ordinal + 1) :
    (first, second) ∈ adjacentPairs elements unmatched := by
  have left : first ∈ elements.filter fun element => element.elementId ∈ unmatched := by
    simpa using one
  have right : second ∈ elements.filter fun element => element.elementId ∈ unmatched := by
    simpa using two
  have available := sorted.sublist
    (List.filter_sublist (p := fun element => element.elementId ∈ unmatched))
  simp only [adjacentPairs, List.mem_filter, decide_eq_true_eq]
  refine ⟨?_, next⟩
  generalize elements.filter (fun element => element.elementId ∈ unmatched) = rows at *
  obtain ⟨before, after, rfl⟩ := List.append_of_mem left
  rw [List.pairwise_append, List.pairwise_cons] at available
  obtain ⟨-, ⟨above, rest⟩, below⟩ := available
  -- what stands right after the first element cannot be passed by the second one
  have later : second ∈ after := by
    rcases List.mem_append.mp right with earlier | here
    · have less := below second earlier first List.mem_cons_self
      omega
    · rcases List.mem_cons.mp here with rfl | deeper
      · omega
      · exact deeper
  cases after with
  | nil => cases later
  | cons neighbour after =>
      rcases List.mem_cons.mp later with rfl | deeper
      · exact mem_zip_tail before first second after
      · have close := above neighbour List.mem_cons_self
        have far := (List.pairwise_cons.mp rest).1 second deeper
        omega

variable {table}

/-- The best group is one of the candidates, with its confidence rounded. -/
theorem mem_of_bestGroupCandidate {source first second : CanonicalElement} {confidence : ℚ}
    {candidates : List (CanonicalElement × CanonicalElement)}
    {sources others : List CanonicalElement}
    (chosen : bestGroupCandidate table source candidates sources others =
      some (first, second, confidence)) :
    (first, second) ∈ candidates ∧ coveredByGroup table source first second = true ∧
      confidence = round4 (groupConfidence table source first second sources.length
        others.length) := by
  suffices kept : ∀ (rest : List (CanonicalElement × CanonicalElement))
      (best : Option (CanonicalElement × CanonicalElement × ℚ)),
      rest.foldl (betterGroup table source sources.length others.length) best =
        some (first, second, confidence) →
      best = some (first, second, confidence) ∨ (first, second) ∈ rest ∧
        coveredByGroup table source first second = true ∧
        confidence = round4 (groupConfidence table source first second sources.length
          others.length) by
    rcases kept candidates none chosen with impossible | found
    · cases impossible
    · exact found
  intro rest
  induction rest with
  | nil => exact fun best folds => .inl folds
  | cons pair rest ih =>
      intro best folds
      rcases ih _ folds with here | later
      · -- the round of this pair left the group behind
        rw [betterGroup] at here
        split at here
        · next covered =>
            have new : some (pair.1, pair.2, round4 (groupConfidence table source pair.1 pair.2
                sources.length others.length)) = some (first, second, confidence) →
                (first, second) ∈ pair :: rest ∧ coveredByGroup table source first second = true ∧
                  confidence = round4 (groupConfidence table source first second sources.length
                    others.length) := by
              intro same
              cases same
              exact ⟨List.mem_cons_self, covered, rfl⟩
            dsimp only at here
            split at here
            · exact .inr (new here)
            · split at here
              · exact .inr (new here)
              · exact .inl here
        · exact .inl here
      · exact .inr ⟨List.mem_cons_of_mem pair later.1, later.2⟩

theorem betterGroup_covered {source : CanonicalElement} {m n : ℕ}
    {best : Option (CanonicalElement × CanonicalElement × ℚ)}
    {pair : CanonicalElement × CanonicalElement}
    (covered : best ≠ none ∨ coveredByGroup table source pair.1 pair.2 = true) :
    betterGroup table source m n best pair ≠ none := by
  rw [betterGroup]
  split
  · dsimp only
    split
    · simp
    · split <;> simp
  · next uncovered => exact covered.resolve_right uncovered

/-- No group is chosen when none of the candidates covers the source. -/
theorem bestGroupCandidate_eq_none {source : CanonicalElement}
    {candidates : List (CanonicalElement × CanonicalElement)}
    {sources others : List CanonicalElement} :
    bestGroupCandidate table source candidates sources others = none ↔
      ∀ pair ∈ candidates, coveredByGroup table source pair.1 pair.2 = false := by
  suffices folds : ∀ (rest : List (CanonicalElement × CanonicalElement))
      (best : Option (CanonicalElement × CanonicalElement × ℚ)),
      rest.foldl (betterGroup table source sources.length others.length) best = none ↔
      best = none ∧ ∀ pair ∈ rest, coveredByGroup table source pair.1 pair.2 = false by
    exact (folds candidates none).trans (and_iff_right rfl)
  intro rest
  induction rest with
  | nil => simp
  | cons pair rest ih =>
      intro best
      rw [List.foldl_cons, ih]
      constructor
      · intro ⟨nothing, others_⟩
        have neither : ¬ (best ≠ none ∨ coveredByGroup table source pair.1 pair.2 = true) :=
          fun covered => betterGroup_covered covered nothing
        push Not at neither
        rw [ne_eq, Bool.not_eq_true] at neither
        exact ⟨neither.1, List.forall_mem_cons.mpr ⟨neither.2, others_⟩⟩
      · intro ⟨nothing, uncovered⟩
        rw [List.forall_mem_cons] at uncovered
        refine ⟨?_, uncovered.2⟩
        rw [betterGroup, if_neg (by simp [uncovered.1])]
        exact nothing

theorem mem_remainingCandidates {baseline target : List CanonicalElement} {progress : Progress}
    {confidence : ℚ} {source destination : CanonicalElement} :
    (confidence, source, destination) ∈ remainingCandidates table baseline target progress ↔
      (source ∈ baseline ∧ source.elementId ∈ progress.unmatchedBaseline) ∧
      (destination ∈ target ∧ destination.elementId ∈ progress.unmatchedTarget) ∧
      compatibleClauseType table source destination = true ∧
      confidence = candidateScore table source destination baseline.length target.length := by
  simp only [remainingCandidates, mem_orderBy, List.mem_flatMap, List.mem_filter, List.mem_map,
    decide_eq_true_eq, Bool.and_eq_true, Prod.mk.injEq]
  constructor
  · rintro ⟨_, left, _, right, rfl, rfl, rfl⟩
    exact ⟨left, ⟨right.1, right.2.1⟩, right.2.2, rfl⟩
  · rintro ⟨left, right, fits, rfl⟩
    exact ⟨source, left, destination, ⟨right.1, right.2, fits⟩, rfl, rfl, rfl⟩

end AgreementIntelligence.Comparisons
