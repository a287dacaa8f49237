import AgreementIntelligence.Comparisons.Partition
import AgreementIntelligence.Lib.Table

/-! A version compared with itself. The exact phase pairs an element with itself unless its text
stands elsewhere too. Of the elements that are left, a pair of one element with itself scores above
every pair of two, so the last phase finds no change either; but the phase between them may split
a repeated element into two others. -/

namespace AgreementIntelligence.Comparisons
open Lib Text Casing Queries Table

variable (table : CaseTable)

/-- Another element could be taken for this one. -/
def Repeated (elements : List CanonicalElement) (element : CanonicalElement) : Prop :=
  ∃ other ∈ elements, other ≠ element ∧
    normalizedText table other.text = normalizedText table element.text ∧
    compatibleClauseType table element other = true

/-- A repeated element is covered by two neighbours that are themselves repeated. -/
def Regroups (elements : List CanonicalElement) : Prop :=
  ∃ source ∈ elements, ∃ first ∈ elements, ∃ second ∈ elements,
    Repeated table elements source ∧ Repeated table elements first ∧
    Repeated table elements second ∧ second.ordinal = first.ordinal + 1 ∧
    coveredByGroup table source first second = true

/-- One matched alignment of each element with itself. -/
def FindsNoChange (version : CanonicalVersion) : Prop :=
  ∃ results, alignVersions table version version = .ok results ∧
    (results.map fun alignment =>
        (alignment.kind, alignment.baselineElementIds, alignment.targetElementIds)).Perm
      (version.elements.map fun element =>
        (AlignmentKind.matched, [element.elementId], [element.elementId]))

/-- Matched with itself. -/
def Unchanged (alignment : Alignment) : Prop :=
  alignment.kind = .matched ∧
    ∃ id, alignment.baselineElementIds = [id] ∧ alignment.targetElementIds = [id]

variable {table} {elements : List CanonicalElement} {progress : Progress}

theorem compatibleClauseType_self (element : CanonicalElement) :
    compatibleClauseType table element element = true := by
  rw [compatibleClauseType]
  cases element.clauseType <;> simp

theorem compatibleClauseType_comm (first second : CanonicalElement) :
    compatibleClauseType table first second = compatibleClauseType table second first := by
  rw [compatibleClauseType, compatibleClauseType]
  cases first.clauseType <;> cases second.clauseType <;> simp [eq_comm]

theorem Repeated.symm {element other : CanonicalElement} (member : element ∈ elements)
    (apart : other ≠ element)
    (same : normalizedText table other.text = normalizedText table element.text)
    (fits : compatibleClauseType table element other = true) : Repeated table elements other :=
  ⟨element, member, apart.symm, same.symm, compatibleClauseType_comm element other ▸ fits⟩

/-! Scores of an element with itself -/

theorem positionDistance_self (element : CanonicalElement) (n : ℕ) :
    positionDistance element element n n = 0 := by
  simp [positionDistance]

theorem positionDistance_pos {first second : CanonicalElement}
    (apart : first.ordinal ≠ second.ordinal) (n : ℕ) : 0 < positionDistance first second n n := by
  have positive : max (n - 1) 1 ≠ 0 := by omega
  rw [positionDistance, abs_pos, ← sub_div, div_ne_zero_iff, sub_ne_zero]
  exact ⟨by exact_mod_cast apart, by exact_mod_cast positive⟩

theorem taxonomySimilarity_le_self (table : CaseTable) (first second : Option String) :
    taxonomySimilarity table first second ≤ taxonomySimilarity table first first := by
  cases first <;> cases second <;> simp only [taxonomySimilarity, if_true]
  · norm_num
  · norm_num
  · norm_num
  · split <;> norm_num

/-- An element fits itself better than any other one. -/
theorem candidateScore_lt_self (table : CaseTable) {first second : CanonicalElement}
    (apart : first.ordinal ≠ second.ordinal) (n : ℕ) :
    candidateScore table first second n n < candidateScore table first first n n := by
  have text := Difflib.ratio_le_one (normalizedText table first.text).toList
    (normalizedText table second.text).toList
  have heading := tokenSimilarity_le_one table (heading first) (heading second)
  have taxonomy := taxonomySimilarity_le_self table first.clauseType second.clauseType
  have distance := positionDistance_pos apart n
  rw [candidateScore, candidateScore, Difflib.ratio_self, tokenSimilarity_self,
    positionDistance_self]
  linarith

theorem le_candidateScore_self (table : CaseTable) (element : CanonicalElement) (n : ℕ) :
    minimumCandidateScore ≤ candidateScore table element element n n := by
  have taxonomy : 0 ≤ taxonomySimilarity table element.clauseType element.clauseType := by
    cases element.clauseType <;> simp only [taxonomySimilarity, if_true] <;> norm_num
  rw [candidateScore, Difflib.ratio_self, tokenSimilarity_self, positionDistance_self,
    minimumCandidateScore]
  linarith

/-- A pair of an element with itself is an unchanged one. -/
theorem unchanged_of_pairs {reason : String} {confidence : ℚ} {reviewRequired : Bool}
    {element : CanonicalElement} {alignment : Alignment}
    (pairs : Pairs reason confidence reviewRequired elements elements element element alignment) :
    Unchanged alignment := by
  refine ⟨?_, element.elementId, pairs.baseline_ids, pairs.target_ids⟩
  rw [pairs.kind, positionDistance_self, if_neg (by norm_num [movedPositionDistance])]

/-! The exact phase -/

/-- Both versions have the same unmatched elements, and nothing has changed so far. -/
structure Mirrored (elements : List CanonicalElement) (open_ : CanonicalElement → Prop)
    (progress : Progress) : Prop where
  same : progress.unmatchedBaseline = progress.unmatchedTarget
  unmatched : ∀ element ∈ elements, element.elementId ∈ progress.unmatchedTarget ↔ open_ element
  unchanged : ∀ alignment ∈ progress.results, Unchanged alignment

/-- An element is paired with itself and is no longer unmatched. -/
theorem Mirrored.take {open_ open' : CanonicalElement → Prop} {element : CanonicalElement}
    {reason : String} {confidence : ℚ} {reviewRequired : Bool} {alignment : Alignment}
    (distinct : (elements.map (·.elementId)).Nodup) (member : element ∈ elements)
    (mirrored : Mirrored elements open_ progress)
    (pairs : Pairs reason confidence reviewRequired elements elements element element alignment)
    (closes : ∀ other ∈ elements, open' other ↔ open_ other ∧ other ≠ element) :
    Mirrored elements open' (progress.take alignment) := by
  constructor
  · simp only [Progress.take, pairs.baseline_ids, pairs.target_ids, mirrored.same]
  · intro other inside
    have apart : other.elementId = element.elementId ↔ other = element :=
      ⟨List.inj_on_of_nodup_map distinct inside member, fun same => same ▸ rfl⟩
    simp only [Progress.take, pairs.target_ids, List.toFinset_cons, List.toFinset_nil,
      insert_empty_eq, Finset.mem_sdiff, Finset.mem_singleton, mirrored.unmatched other inside,
      closes other inside, apart, ne_eq]
  · intro other inside
    rcases List.mem_append.mp inside with old | new
    · exact mirrored.unchanged other old
    · exact List.mem_singleton.mp new ▸ unchanged_of_pairs pairs

/-- The candidates of an unmatched element are itself alone, unless it is repeated. -/
theorem exactCandidates_self {unmatched : Finset String} {element : CanonicalElement}
    (distinct : (elements.map (·.elementId)).Nodup) (member : element ∈ elements)
    (free : element.elementId ∈ unmatched)
    (others : ∀ other ∈ elements, Repeated table elements other → other.elementId ∈ unmatched) :
    (∃ candidate, exactCandidates table elements unmatched element = [candidate]) ↔
      ¬ Repeated table elements element := by
  have self : element ∈ exactCandidates table elements unmatched element := by
    simp [exactCandidates, member, free, compatibleClauseType_self]
  constructor
  · rintro ⟨candidate, only⟩ ⟨other, inside, apart, same, fits⟩
    have too : other ∈ exactCandidates table elements unmatched element := by
      simp [exactCandidates, inside, same, fits,
        others other inside (Repeated.symm member apart same fits)]
    rw [only, List.mem_singleton] at self too
    exact apart (too.trans self.symm)
  · intro alone
    have once : (exactCandidates table elements unmatched element).Nodup :=
      ((distinct.of_map _).filter _).filter _
    have copies : ∀ other ∈ exactCandidates table elements unmatched element,
        other = element := by
      intro other inside
      simp only [exactCandidates, List.mem_filter, decide_eq_true_eq, Bool.and_eq_true] at inside
      by_contra apart
      exact alone ⟨other, inside.1.1, apart, inside.1.2, inside.2.2⟩
    rw [List.eq_replicate_of_mem copies, List.nodup_replicate] at once
    exact ⟨element, eq_singleton_of_mem self once⟩

theorem alignExactElement_repeated {element : CanonicalElement}
    (distinct : (elements.map (·.elementId)).Nodup) (member : element ∈ elements)
    (free : element.elementId ∈ progress.unmatchedTarget)
    (others : ∀ other ∈ elements, Repeated table elements other →
      other.elementId ∈ progress.unmatchedTarget)
    (repeated : Repeated table elements element) :
    alignExactElement table elements elements progress element = .ok progress := by
  have several := (exactCandidates_self distinct member free others).not.mpr (not_not.mpr repeated)
  rw [alignExactElement]
  split
  · split
    · next candidate only => exact absurd ⟨candidate, only⟩ several
    · rfl
  · rfl

theorem alignExactElement_alone {element : CanonicalElement}
    (distinct : (elements.map (·.elementId)).Nodup) (member : element ∈ elements)
    (same : progress.unmatchedBaseline = progress.unmatchedTarget)
    (free : element.elementId ∈ progress.unmatchedTarget)
    (others : ∀ other ∈ elements, Repeated table elements other →
      other.elementId ∈ progress.unmatchedTarget)
    (alone : ¬ Repeated table elements element) :
    ∃ alignment, alignExactElement table elements elements progress element =
        .ok (progress.take alignment) ∧
      Pairs exactReason 1 false elements elements element element alignment := by
  obtain ⟨candidate, only⟩ := (exactCandidates_self distinct member free others).mpr alone
  have self : element ∈ exactCandidates table elements progress.unmatchedTarget element := by
    simp [exactCandidates, member, free, compatibleClauseType_self]
  rw [only, List.mem_singleton] at self
  subst self
  rw [alignExactElement, if_pos (same ▸ free), only]
  exact alignPair_ok exactReason false (same ▸ free) free ⟨zero_le_one, le_refl (1 : ℚ)⟩

theorem Mirrored.congr {open_ open' : CanonicalElement → Prop}
    (mirrored : Mirrored elements open_ progress)
    (same : ∀ element ∈ elements, open' element ↔ open_ element) :
    Mirrored elements open' progress :=
  ⟨mirrored.same, fun element member => (mirrored.unmatched element member).trans
    (same element member).symm, mirrored.unchanged⟩

/-- The exact phase leaves the repeated elements, on both sides. -/
theorem alignExactElements_self (table : CaseTable)
    (distinct : (elements.map (·.elementId)).Nodup)
    (start : Mirrored elements (fun _ => True) progress) :
    ∃ next, alignExactElements table elements elements progress = .ok next ∧
      Mirrored elements (Repeated table elements) next := by
  suffices loop : ∀ rest : List CanonicalElement, (∀ element ∈ rest, element ∈ elements) →
      rest.Nodup → ∀ progress, Mirrored elements
        (fun element => element ∈ rest ∨ Repeated table elements element) progress →
      ∃ next, rest.foldlM (alignExactElement table elements elements) progress = .ok next ∧
        Mirrored elements (Repeated table elements) next from
    loop elements (fun _ member => member) (distinct.of_map _) progress
      (start.congr fun element member => by simp [member])
  intro rest
  induction rest with
  | nil => exact fun _ _ progress mirrored => ⟨progress, rfl, mirrored.congr (by simp)⟩
  | cons element rest ih =>
      intro within once progress mirrored
      have member := within element List.mem_cons_self
      have later := fun other deeper => within other (List.mem_cons_of_mem element deeper)
      rw [List.nodup_cons] at once
      have free := (mirrored.unmatched element member).mpr (.inl List.mem_cons_self)
      have others := fun other inside repeated =>
        (mirrored.unmatched other inside).mpr (.inr repeated)
      rw [List.foldlM_cons]
      by_cases repeated : Repeated table elements element
      · rw [alignExactElement_repeated distinct member free others repeated]
        refine ih later once.2 progress (mirrored.congr fun other _ => ?_)
        rw [List.mem_cons]
        constructor
        · exact Or.imp_left .inr
        · rintro ((rfl | deeper) | twice)
          · exact .inr repeated
          · exact .inl deeper
          · exact .inr twice
      · obtain ⟨alignment, returns, pairs⟩ :=
          alignExactElement_alone distinct member mirrored.same free others repeated
        rw [returns]
        refine ih later once.2 _ (mirrored.take distinct member pairs fun other _ => ?_)
        rw [List.mem_cons]
        constructor
        · rintro (deeper | twice)
          · exact ⟨.inl (.inr deeper), fun same => once.1 (same ▸ deeper)⟩
          · exact ⟨.inr twice, fun same => repeated (same ▸ twice)⟩
        · rintro ⟨(rfl | deeper) | twice, apart⟩
          · exact absurd rfl apart
          · exact .inl deeper
          · exact .inr twice

/-! The group phase -/

/-- The source, covered by two neighbours that are unmatched as well. -/
theorem adjacentPairs_regroup {open_ : CanonicalElement → Prop} {unmatched : Finset String}
    (known : ∀ element ∈ elements, element.elementId ∈ unmatched ↔ open_ element)
    {source : CanonicalElement} {sources others : List CanonicalElement}
    (uncovered : ∀ first ∈ elements, ∀ second ∈ elements, open_ first → open_ second →
      second.ordinal = first.ordinal + 1 → coveredByGroup table source first second = false) :
    bestGroupCandidate table source (adjacentPairs elements unmatched) sources others = none := by
  rw [bestGroupCandidate_eq_none]
  rintro ⟨first, second⟩ member
  obtain ⟨one, two, next⟩ := mem_adjacentPairs member
  exact uncovered first one.1 second two.1 ((known first one.1).mp one.2)
    ((known second two.1).mp two.2) next

/-- Without such neighbours the group phase changes nothing. -/
theorem alignAdjacentGroups_self (mirrored : Mirrored elements (Repeated table elements) progress)
    (plain : ¬ Regroups table elements) :
    alignAdjacentGroups table elements elements progress = .ok progress := by
  have none : ∀ source ∈ elements, source.elementId ∈ progress.unmatchedTarget →
      bestGroupCandidate table source (adjacentPairs elements progress.unmatchedTarget)
        elements elements = none := by
    intro source member free
    refine adjacentPairs_regroup mirrored.unmatched fun first one second two open_ open' next => ?_
    by_contra covered
    exact plain ⟨source, member, first, one, second, two, (mirrored.unmatched source member).mp free,
      open_, open', next, by simpa using covered⟩
  have still : ∀ f : Progress → CanonicalElement → Except AlignmentError Progress,
      (∀ element ∈ elements, f progress element = .ok progress) →
      elements.foldlM f progress = .ok progress := by
    intro f stays
    have round : ∀ element ∈ elements, ∀ s, s = progress →
        ∃ next, f s element = .ok next ∧ next = progress :=
      fun element member s here => ⟨progress, here ▸ stays element member, rfl⟩
    obtain ⟨last, returns, same⟩ := Results.foldlM_ok round rfl
    exact same ▸ returns
  rw [alignAdjacentGroups, still (alignSplit table elements elements) fun source member => ?_]
  · refine still _ fun destination member => ?_
    rw [alignMerged]
    split
    · next free => rw [mirrored.same, none destination member free]
    · rfl
  · rw [alignSplit]
    split
    · next free =>
        rw [none source member (mirrored.same ▸ free)]
    · rfl

/-- With them an element is split. -/
theorem alignAdjacentGroups_splits (distinct : (elements.map (·.elementId)).Nodup)
    (sorted : elements.Pairwise fun a b => a.ordinal < b.ordinal)
    (sound : Sound elements elements progress)
    (mirrored : Mirrored elements (Repeated table elements) progress)
    (regroups : Regroups table elements) :
    ∃ next, alignAdjacentGroups table elements elements progress = .ok next ∧
      Sound elements elements next ∧ ∃ alignment ∈ next.results, alignment.kind = .split := by
  obtain ⟨source, from_, first, one, second, two, repeated, open_, open', next, covered⟩ := regroups
  have free := (mirrored.unmatched source from_).mpr repeated
  have some_ : bestGroupCandidate table source
      (adjacentPairs elements progress.unmatchedTarget) elements elements ≠ none := by
    intro none
    have uncovered := bestGroupCandidate_eq_none.mp none _ (adjacentPairs_mem sorted
      ⟨one, (mirrored.unmatched first one).mpr open_⟩
      ⟨two, (mirrored.unmatched second two).mpr open'⟩ next)
    rw [covered] at uncovered
    cases uncovered
  -- the source is split in its round, unless some element before it was
  have loop : ∀ rest : List CanonicalElement, (∀ element ∈ rest, element ∈ elements) →
      source ∈ rest → ∃ last, rest.foldlM (alignSplit table elements elements) progress = .ok last ∧
        Sound elements elements last ∧
        ∃ alignment ∈ last.results, alignment.kind = .split := by
    intro rest
    induction rest with
    | nil => nofun
    | cons element rest ih =>
        intro within inside
        have member := within element List.mem_cons_self
        have later := fun other deeper => within other (List.mem_cons_of_mem element deeper)
        rw [List.foldlM_cons]
        by_cases mine : element.elementId ∈ progress.unmatchedBaseline
        · cases chosen : bestGroupCandidate table element
              (adjacentPairs elements progress.unmatchedTarget) elements elements with
          | none =>
              rw [alignSplit, if_pos mine, chosen]
              exact ih later ((List.mem_cons.mp inside).resolve_left fun same =>
                some_ (same ▸ chosen))
          | some group =>
              obtain ⟨alignment, admits, kind, returns⟩ :=
                alignSplit_splits distinct member mine chosen
              obtain ⟨last, folds, sound', grows⟩ := returns_foldlM
                (fun other deeper _ kept => alignSplit_returns kept distinct (later other deeper))
                (sound.take admits)
              rw [returns]
              exact ⟨last, folds, sound', alignment, grows (by simp [Progress.take]), kind⟩
        · rw [alignSplit, if_neg mine]
          exact ih later ((List.mem_cons.mp inside).resolve_left fun same =>
            mine (mirrored.same ▸ same ▸ free))
  obtain ⟨split, splits, sound', alignment, member, kind⟩ :=
    loop elements (fun _ member => member) from_
  obtain ⟨last, merges, sound'', grows⟩ :=
    returns_foldlM (fun _ to_ _ kept => alignMerged_returns kept distinct to_) sound'
  rw [alignAdjacentGroups, splits]
  exact ⟨last, merges, sound'', alignment, grows member, kind⟩

/-! The last phase -/

/-- The pairs of an element with itself come first, so the others find nothing unmatched. -/
theorem alignCandidates_self (table : CaseTable) {open_ : CanonicalElement → Prop}
    {candidates : List (ℚ × CanonicalElement × CanonicalElement)}
    (distinct : (elements.map (·.elementId)).Nodup)
    (ordinals : ∀ first ∈ elements, ∀ second ∈ elements, first.ordinal = second.ordinal →
      first = second)
    (scored : ∀ confidence source destination, (confidence, source, destination) ∈ candidates →
      source ∈ elements ∧ destination ∈ elements ∧ confidence =
        candidateScore table source destination elements.length elements.length)
    (best : candidates.Pairwise fun a b => b.1 ≤ a.1)
    (listed : ∀ element ∈ elements, open_ element →
      (candidateScore table element element elements.length elements.length, element, element) ∈
        candidates)
    (mirrored : Mirrored elements open_ progress) :
    ∃ next, alignCandidates elements elements candidates progress = .ok next ∧
      Mirrored elements (fun _ => False) next := by
  induction candidates generalizing progress open_ with
  | nil =>
      refine ⟨progress, rfl, mirrored.congr fun element member => ?_⟩
      exact ⟨False.elim, fun free => by cases listed element member free⟩
  | cons candidate rest ih =>
      obtain ⟨confidence, source, destination⟩ := candidate
      obtain ⟨from_, to_, score⟩ := scored _ _ _ List.mem_cons_self
      have later := fun c s d member => scored c s d (List.mem_cons_of_mem _ member)
      rw [List.pairwise_cons] at best
      -- an unmatched element has its pair with itself at the head or behind it
      have bound : ∀ element ∈ elements, open_ element →
          candidateScore table element element elements.length elements.length ≤ confidence := by
        intro element member free
        rcases List.mem_cons.mp (listed element member free) with same | deeper
        · exact le_of_eq (Prod.mk.inj same).1
        · exact best.1 _ deeper
      rw [alignCandidates]
      split
      · next low =>
          refine ⟨progress, rfl, mirrored.congr fun element member => ?_⟩
          refine ⟨False.elim, fun free => ?_⟩
          have enough := le_candidateScore_self table element elements.length
          linarith [bound element member free]
      · next enough =>
          split
          · next free =>
              have open' := (mirrored.unmatched source from_).mp (mirrored.same ▸ free.1)
              have same : source = destination := by
                by_contra apart
                have less := candidateScore_lt_self table
                  (fun equal => apart (ordinals source from_ destination to_ equal)) elements.length
                linarith [bound source from_ open']
              subst same
              have measured : 0 ≤ confidence ∧ confidence ≤ 1 := by
                refine ⟨?_, score ▸ candidateScore_le_one table source source _ _⟩
                exact le_trans (by norm_num [minimumCandidateScore]) (not_lt.mp enough)
              obtain ⟨alignment, returns, pairs⟩ := alignPair_ok
                "Text, heading, clause taxonomy, and relative position were compared."
                (confidence < reviewConfidence) free.1 free.2 (round4_mem measured.1 measured.2)
              simp only [bind, Except.bind]
              rw [returns]
              refine ih later best.2 (fun element member still => ?_)
                (mirrored.take distinct from_ pairs fun _ _ => Iff.rfl)
              rcases List.mem_cons.mp (listed element member still.1) with same | deeper
              · exact absurd (Prod.mk.inj (Prod.mk.inj same).2).1 still.2
              · exact deeper
          · next taken =>
              refine ih later best.2 (fun element member free => ?_) mirrored
              rcases List.mem_cons.mp (listed element member free) with same | deeper
              · obtain ⟨rfl, rfl⟩ := Prod.mk.inj (Prod.mk.inj same).2
                have inside := (mirrored.unmatched element member).mpr free
                exact absurd ⟨mirrored.same ▸ inside, inside⟩ taken
              · exact deeper

theorem alignRemainingPairs_self (table : CaseTable)
    (distinct : (elements.map (·.elementId)).Nodup)
    (ordinals : ∀ first ∈ elements, ∀ second ∈ elements, first.ordinal = second.ordinal →
      first = second)
    {open_ : CanonicalElement → Prop} (mirrored : Mirrored elements open_ progress) :
    ∃ next, alignRemainingPairs table elements elements progress = .ok next ∧
      Mirrored elements (fun _ => False) next := by
  refine alignCandidates_self table distinct ordinals (fun confidence source destination member => ?_)
    ?_ (fun element member free => ?_) mirrored
  · obtain ⟨from_, to_, -, score⟩ := mem_remainingCandidates.mp member
    exact ⟨from_.1, to_.1, score⟩
  · refine (pairwise_orderBy _ _).imp fun {a b} below => ?_
    rw [Prod.Lex.le_iff] at below
    simp only [ofLex_toLex, neg_lt_neg_iff, neg_inj] at below
    rcases below with less | ⟨same, -⟩
    · exact less.le
    · exact same.ge
  · have inside := (mirrored.unmatched element member).mpr free
    exact mem_remainingCandidates.mpr ⟨⟨member, mirrored.same ▸ inside⟩, ⟨member, inside⟩,
      compatibleClauseType_self element, rfl⟩

/-! The whole alignment -/

theorem sides_of_unchanged {results : List Alignment}
    (unchanged : ∀ alignment ∈ results, Unchanged alignment) :
    (results.map fun alignment =>
        (alignment.kind, alignment.baselineElementIds, alignment.targetElementIds)) =
      (results.flatMap (·.baselineElementIds)).map fun id =>
        (AlignmentKind.matched, [id], [id]) := by
  induction results with
  | nil => rfl
  | cons alignment rest ih =>
      rw [List.forall_mem_cons] at unchanged
      obtain ⟨⟨kind, id, left, right⟩, others⟩ := unchanged
      rw [List.map_cons, ih others, List.flatMap_cons, left, kind, right]
      rfl

theorem regroups_congr {others : List CanonicalElement} (perm : elements.Perm others) :
    Regroups table elements ↔ Regroups table others := by
  simp only [Regroups, Repeated, perm.mem_iff]

/-- Two clauses of two words each, and the words again as clauses of their own. -/
def repeatedClauses : CanonicalVersion :=
  plainVersion [⟨"a b", by decide⟩, ⟨"a b", by decide⟩, ⟨"a", by decide⟩, ⟨"b", by decide⟩,
    ⟨"a", by decide⟩, ⟨"b", by decide⟩]

end AgreementIntelligence.Comparisons
