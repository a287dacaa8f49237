import AgreementIntelligence.Comparisons.Candidates
import AgreementIntelligence.Lib.Pools
import AgreementIntelligence.Lib.Results

/-! An alignment is a partition. Every phase takes unmatched ids only and aligns them at once, so
what is aligned and what is unmatched make up both versions throughout, and in the end each element
is in one alignment. -/

namespace AgreementIntelligence.Comparisons
open Lib Text Casing Queries Pools Results

variable (table : CaseTable)

/-- The sides that an alignment of a kind has. -/
def Shaped (baseline target : List CanonicalElement) (alignment : Alignment) : Prop :=
  match alignment.kind with
  | .matched | .moved => ∃ source ∈ baseline, ∃ destination ∈ target,
      alignment.baselineElementIds = [source.elementId] ∧
        alignment.targetElementIds = [destination.elementId]
  | .split => ∃ source ∈ baseline, ∃ first ∈ target, ∃ second ∈ target,
      second.ordinal = first.ordinal + 1 ∧ alignment.baselineElementIds = [source.elementId] ∧
        alignment.targetElementIds = [first.elementId, second.elementId]
  | .merged => ∃ first ∈ baseline, ∃ second ∈ baseline, ∃ destination ∈ target,
      second.ordinal = first.ordinal + 1 ∧
        alignment.baselineElementIds = [first.elementId, second.elementId] ∧
        alignment.targetElementIds = [destination.elementId]
  | .added => ∃ destination ∈ target, alignment.baselineElementIds = [] ∧
      alignment.targetElementIds = [destination.elementId]
  | .removed => ∃ source ∈ baseline, alignment.baselineElementIds = [source.elementId] ∧
      alignment.targetElementIds = []

/-- Each element is in one alignment, and each alignment has the sides of its kind. -/
structure Partition (baseline target : CanonicalVersion) (results : List Alignment) : Prop where
  baseline_once : (results.flatMap (·.baselineElementIds)).Perm (baseline.elements.map (·.elementId))
  target_once : (results.flatMap (·.targetElementIds)).Perm (target.elements.map (·.elementId))
  shaped : ∀ alignment ∈ results, Shaped baseline.elements target.elements alignment
  measured : ∀ alignment ∈ results, 0 ≤ alignment.confidence ∧ alignment.confidence ≤ 1

theorem Shaped.of_subset {sources sources' destinations destinations' : List CanonicalElement}
    {alignment : Alignment} (shaped : Shaped sources destinations alignment)
    (within : sources ⊆ sources') (within' : destinations ⊆ destinations') :
    Shaped sources' destinations' alignment := by
  rw [Shaped] at shaped ⊢
  split at shaped
  · obtain ⟨source, from_, destination, to_, sides⟩ := shaped
    exact ⟨source, within from_, destination, within' to_, sides⟩
  · obtain ⟨source, from_, destination, to_, sides⟩ := shaped
    exact ⟨source, within from_, destination, within' to_, sides⟩
  · obtain ⟨source, from_, first, one, second, two, sides⟩ := shaped
    exact ⟨source, within from_, first, within' one, second, within' two, sides⟩
  · obtain ⟨first, one, second, two, destination, to_, sides⟩ := shaped
    exact ⟨first, within one, second, within two, destination, within' to_, sides⟩
  · obtain ⟨destination, to_, sides⟩ := shaped
    exact ⟨destination, within' to_, sides⟩
  · obtain ⟨source, from_, sides⟩ := shaped
    exact ⟨source, within from_, sides⟩

/-! Steps -/

/-- The ids of an alignment are matched by it. -/
def Progress.take (progress : Progress) (alignment : Alignment) : Progress where
  unmatchedBaseline := progress.unmatchedBaseline \ alignment.baselineElementIds.toFinset
  unmatchedTarget := progress.unmatchedTarget \ alignment.targetElementIds.toFinset
  results := progress.results ++ [alignment]

/-- What a phase may align next. -/
structure Admits (baseline target : List CanonicalElement) (progress : Progress)
    (alignment : Alignment) : Prop where
  baseline_free : alignment.baselineElementIds.Nodup ∧
    ∀ id ∈ alignment.baselineElementIds, id ∈ progress.unmatchedBaseline
  target_free : alignment.targetElementIds.Nodup ∧
    ∀ id ∈ alignment.targetElementIds, id ∈ progress.unmatchedTarget
  shaped : Shaped baseline target alignment

structure Sound (baseline target : List CanonicalElement) (progress : Progress) : Prop where
  baseline_counted : Accounts (baseline.map (·.elementId)) progress.unmatchedBaseline
    (progress.results.flatMap (·.baselineElementIds))
  target_counted : Accounts (target.map (·.elementId)) progress.unmatchedTarget
    (progress.results.flatMap (·.targetElementIds))
  shaped : ∀ alignment ∈ progress.results, Shaped baseline target alignment

variable {table} {baseline target : List CanonicalElement} {progress : Progress}

theorem Sound.take {alignment : Alignment} (sound : Sound baseline target progress)
    (admits : Admits baseline target progress alignment) :
    Sound baseline target (progress.take alignment) := by
  constructor
  · simp only [Progress.take, List.flatMap_append, List.flatMap_singleton]
    exact sound.baseline_counted.take admits.baseline_free.1 admits.baseline_free.2
  · simp only [Progress.take, List.flatMap_append, List.flatMap_singleton]
    exact sound.target_counted.take admits.target_free.1 admits.target_free.2
  · intro other member
    rcases List.mem_append.mp member with old | new
    · exact sound.shaped other old
    · exact List.mem_singleton.mp new ▸ admits.shaped

theorem sound_start (distinct : (baseline.map (·.elementId)).Nodup)
    (distinct' : (target.map (·.elementId)).Nodup) :
    Sound baseline target ⟨(baseline.map (·.elementId)).toFinset,
      (target.map (·.elementId)).toFinset, []⟩ where
  baseline_counted := accounts_start distinct
  target_counted := accounts_start distinct'
  shaped := nofun

theorem alignment_new (kind : AlignmentKind) {sources destinations : List String}
    {confidence : ℚ} (reviewRequired : Bool) (rationale : List String)
    (measured : 0 ≤ confidence ∧ confidence ≤ 1)
    (adds : kind = .added → sources = [] ∧ destinations ≠ [])
    (removes : kind = .removed → sources ≠ [] ∧ destinations = [])
    (maps : kind ≠ .added → kind ≠ .removed → sources ≠ [] ∧ destinations ≠ []) :
    Alignment.new kind sources destinations confidence reviewRequired rationale =
      .ok ⟨kind, sources, destinations, confidence, reviewRequired, rationale, measured, adds,
        removes, maps⟩ := by
  rw [Alignment.new, dif_pos measured, dif_pos adds, dif_pos removes, dif_pos maps]

theorem alignment_mapped (kind : AlignmentKind) (mapped : kind ≠ .added ∧ kind ≠ .removed)
    {sources destinations : List String} (some_ : sources ≠ [] ∧ destinations ≠ [])
    {confidence : ℚ} (measured : 0 ≤ confidence ∧ confidence ≤ 1) (reviewRequired : Bool)
    (rationale : List String) : ∃ alignment : Alignment,
      Alignment.new kind sources destinations confidence reviewRequired rationale =
        .ok alignment ∧ alignment.kind = kind ∧ alignment.baselineElementIds = sources ∧
      alignment.targetElementIds = destinations ∧ alignment.confidence = confidence ∧
      alignment.reviewRequired = reviewRequired ∧ alignment.rationale = rationale :=
  ⟨_, alignment_new kind reviewRequired rationale measured (fun added => absurd added mapped.1)
    (fun removed => absurd removed mapped.2) (fun _ _ => some_), rfl, rfl, rfl, rfl, rfl, rfl⟩

theorem removeId_ok {unmatched : Finset String} {id : String} (free : id ∈ unmatched) :
    removeId unmatched id = .ok (unmatched.erase id) :=
  if_pos free

/-- One source and one destination aligned for a reason. -/
structure Pairs (reason : String) (confidence : ℚ) (reviewRequired : Bool)
    (baseline target : List CanonicalElement) (source destination : CanonicalElement)
    (alignment : Alignment) : Prop where
  kind : alignment.kind = if movedPositionDistance ≤
    positionDistance source destination baseline.length target.length then .moved else .matched
  baseline_ids : alignment.baselineElementIds = [source.elementId]
  target_ids : alignment.targetElementIds = [destination.elementId]
  confidence : alignment.confidence = confidence
  reviewRequired : alignment.reviewRequired = reviewRequired
  reason : alignment.rationale.head? = some reason

/-- Two unmatched elements are paired without an error. -/
theorem alignPair_ok (reason : String) {confidence : ℚ} (reviewRequired : Bool)
    {source destination : CanonicalElement}
    (free : source.elementId ∈ progress.unmatchedBaseline)
    (free' : destination.elementId ∈ progress.unmatchedTarget)
    (measured : 0 ≤ confidence ∧ confidence ≤ 1) :
    ∃ alignment, alignPair reason confidence reviewRequired baseline target source destination
        progress = .ok (progress.take alignment) ∧
      Pairs reason confidence reviewRequired baseline target source destination alignment := by
  let moved : Bool :=
    movedPositionDistance ≤ positionDistance source destination baseline.length target.length
  have mapped : (if moved then AlignmentKind.moved else .matched) ≠ .added ∧
      (if moved then AlignmentKind.moved else .matched) ≠ .removed := by
    cases moved <;> simp
  have some_ : [source.elementId] ≠ [] ∧ [destination.elementId] ≠ [] := by simp
  obtain ⟨alignment, made, kind, sources, destinations, rest⟩ :=
    alignment_mapped _ mapped some_ measured reviewRequired (pairRationale reason moved)
  refine ⟨alignment, ?_, ?_⟩
  · simp only [alignPair, removeId_ok free, removeId_ok free', bind, Except.bind]
    rw [made]
    simp [Progress.take, sources, destinations, Finset.sdiff_singleton_eq_erase]
  · exact
      { kind := by simpa [moved] using kind
        baseline_ids := sources
        target_ids := destinations
        confidence := rest.1
        reviewRequired := rest.2.1
        reason := by rw [rest.2.2]; rfl }

theorem Pairs.shaped {reason : String} {confidence : ℚ} {reviewRequired : Bool}
    {source destination : CanonicalElement} {alignment : Alignment}
    (pairs : Pairs reason confidence reviewRequired baseline target source destination alignment)
    (from_ : source ∈ baseline) (to_ : destination ∈ target) :
    Shaped baseline target alignment := by
  have sides : ∃ source ∈ baseline, ∃ destination ∈ target,
      alignment.baselineElementIds = [source.elementId] ∧
        alignment.targetElementIds = [destination.elementId] :=
    ⟨source, from_, destination, to_, pairs.baseline_ids, pairs.target_ids⟩
  rw [Shaped, pairs.kind]
  split_ifs
  · exact sides
  · exact sides

theorem Pairs.admits {reason : String} {confidence : ℚ} {reviewRequired : Bool}
    {source destination : CanonicalElement} {alignment : Alignment}
    (pairs : Pairs reason confidence reviewRequired baseline target source destination alignment)
    (from_ : source ∈ baseline) (to_ : destination ∈ target)
    (free : source.elementId ∈ progress.unmatchedBaseline)
    (free' : destination.elementId ∈ progress.unmatchedTarget) :
    Admits baseline target progress alignment where
  baseline_free := by simpa [pairs.baseline_ids] using free
  target_free := by simpa [pairs.target_ids] using free'
  shaped := pairs.shaped from_ to_

/-! Phases -/

section Phases

/-- A round returns, leaves what is sound and keeps the alignments there are. -/
def Returns (baseline target : List CanonicalElement) (progress : Progress)
    (round : Except AlignmentError Progress) : Prop :=
  ∃ next, round = .ok next ∧ Sound baseline target next ∧ progress.results ⊆ next.results

theorem Sound.stays (sound : Sound baseline target progress) :
    Returns baseline target progress (.ok progress) :=
  ⟨progress, rfl, sound, List.Subset.refl _⟩

theorem Sound.moves {round : Except AlignmentError Progress} {alignment : Alignment}
    (sound : Sound baseline target progress)
    (admits : Admits baseline target progress alignment)
    (returns : round = .ok (progress.take alignment)) :
    Returns baseline target progress round :=
  ⟨_, returns, sound.take admits, List.subset_append_left _ _⟩

/-- A loop of such rounds is such a round. -/
theorem returns_foldlM {elements : List CanonicalElement}
    {f : Progress → CanonicalElement → Except AlignmentError Progress}
    (round : ∀ element ∈ elements, ∀ progress, Sound baseline target progress →
      Returns baseline target progress (f progress element))
    (sound : Sound baseline target progress) :
    Returns baseline target progress (elements.foldlM f progress) := by
  have start : Sound baseline target progress ∧ progress.results ⊆ progress.results :=
    ⟨sound, List.Subset.refl _⟩
  refine foldlM_ok (fun element member before kept => ?_) start
  obtain ⟨next, returns, sound', grows⟩ := round element member before kept.1
  exact ⟨next, returns, sound', List.Subset.trans kept.2 grows⟩

theorem mem_exactCandidates {unmatched : Finset String} {source element : CanonicalElement}
    (member : element ∈ exactCandidates table target unmatched source) :
    element ∈ target ∧ element.elementId ∈ unmatched := by
  simp only [exactCandidates, List.mem_filter, decide_eq_true_eq, Bool.and_eq_true] at member
  exact ⟨member.1.1, member.2.1⟩

theorem alignExactElement_returns (sound : Sound baseline target progress)
    {source : CanonicalElement} (from_ : source ∈ baseline) :
    Returns baseline target progress
      (alignExactElement table baseline target progress source) := by
  rw [alignExactElement]
  split
  · next free =>
      split
      · next candidate only =>
          have found := mem_exactCandidates (only ▸ List.mem_singleton_self candidate)
          obtain ⟨alignment, returns, pairs⟩ := alignPair_ok exactReason false free found.2
            ⟨zero_le_one, le_refl (1 : ℚ)⟩
          exact sound.moves (pairs.admits from_ found.1 free found.2) returns
      · exact sound.stays
  · exact sound.stays

theorem groupConfidence_mem {source first second : CanonicalElement} (m n : ℕ) :
    0 ≤ round4 (groupConfidence table source first second m n) ∧
      round4 (groupConfidence table source first second m n) ≤ 1 := by
  apply round4_mem
  · exact (tokenCoverage_nonneg table _ _).trans (le_max_right _ _)
  · exact max_le (candidateScore_le_one table _ _ m n) (tokenCoverage_le_one table _ _)

/-- A chosen group is two unmatched elements that stand next to each other. -/
theorem chosenGroup {elements sources others : List CanonicalElement} {unmatched : Finset String}
    {source first second : CanonicalElement} {confidence : ℚ}
    (distinct : (elements.map (·.elementId)).Nodup)
    (chosen : bestGroupCandidate table source (adjacentPairs elements unmatched) sources others =
      some (first, second, confidence)) :
    (first ∈ elements ∧ first.elementId ∈ unmatched) ∧
      (second ∈ elements ∧ second.elementId ∈ unmatched) ∧
      second.ordinal = first.ordinal + 1 ∧ first.elementId ≠ second.elementId ∧
      0 ≤ confidence ∧ confidence ≤ 1 := by
  obtain ⟨pair, -, measure⟩ := mem_of_bestGroupCandidate chosen
  obtain ⟨one, two, next⟩ := mem_adjacentPairs pair
  refine ⟨one, two, next, ?_, measure ▸ groupConfidence_mem _ _⟩
  intro same
  have equal := List.inj_on_of_nodup_map distinct one.1 two.1 same
  rw [equal] at next
  omega

/-- A source that a group covers is split. -/
theorem alignSplit_splits {source first second : CanonicalElement} {confidence : ℚ}
    (distinct : (target.map (·.elementId)).Nodup) (from_ : source ∈ baseline)
    (free : source.elementId ∈ progress.unmatchedBaseline)
    (chosen : bestGroupCandidate table source (adjacentPairs target progress.unmatchedTarget)
      baseline target = some (first, second, confidence)) :
    ∃ alignment, Admits baseline target progress alignment ∧ alignment.kind = .split ∧
      alignSplit table baseline target progress source = .ok (progress.take alignment) := by
  obtain ⟨⟨one, one_free⟩, ⟨two, two_free⟩, next, apart, measured⟩ := chosenGroup distinct chosen
  have some_ : [source.elementId] ≠ [] ∧ [first.elementId, second.elementId] ≠ [] := by simp
  obtain ⟨alignment, made, kind, sources, destinations, -⟩ :=
    alignment_mapped .split ⟨nofun, nofun⟩ some_ measured (confidence < reviewConfidence)
      ["One baseline element is covered by two adjacent target elements."]
  refine ⟨alignment, ?_, kind, ?_⟩
  · constructor
    · simpa [sources] using free
    · simpa [destinations, one_free, two_free] using apart
    · rw [Shaped, kind]
      exact ⟨source, from_, first, one, second, two, next, sources, destinations⟩
  · rw [alignSplit, if_pos free, chosen]
    simp only [removeId_ok free, bind, Except.bind]
    rw [made]
    simp [Progress.take, sources, destinations, Finset.sdiff_singleton_eq_erase]

theorem alignSplit_returns (sound : Sound baseline target progress)
    (distinct : (target.map (·.elementId)).Nodup) {source : CanonicalElement}
    (from_ : source ∈ baseline) :
    Returns baseline target progress (alignSplit table baseline target progress source) := by
  by_cases free : source.elementId ∈ progress.unmatchedBaseline
  · cases chosen : bestGroupCandidate table source (adjacentPairs target progress.unmatchedTarget)
        baseline target with
    | none =>
        rw [alignSplit, if_pos free, chosen]
        exact sound.stays
    | some group =>
        obtain ⟨alignment, admits, -, returns⟩ := alignSplit_splits distinct from_ free chosen
        exact sound.moves admits returns
  · rw [alignSplit, if_neg free]
    exact sound.stays

theorem alignMerged_returns (sound : Sound baseline target progress)
    (distinct : (baseline.map (·.elementId)).Nodup) {destination : CanonicalElement}
    (to_ : destination ∈ target) :
    Returns baseline target progress
      (alignMerged table baseline target progress destination) := by
  rw [alignMerged]
  split
  · next free =>
      split
      · exact sound.stays
      · next first second confidence chosen =>
          obtain ⟨⟨one, one_free⟩, ⟨two, two_free⟩, next, apart, measured⟩ :=
            chosenGroup distinct chosen
          have some_ : [first.elementId, second.elementId] ≠ [] ∧ [destination.elementId] ≠ [] := by
            simp
          obtain ⟨alignment, made, kind, sources, destinations, -⟩ :=
            alignment_mapped .merged ⟨nofun, nofun⟩ some_ measured
              (confidence < reviewConfidence)
              ["Two adjacent baseline elements are covered by one target element."]
          have admits : Admits baseline target progress alignment := by
            constructor
            · simpa [sources, one_free, two_free] using apart
            · simpa [destinations] using free
            · rw [Shaped, kind]
              exact ⟨first, one, second, two, destination, to_, next, sources, destinations⟩
          refine sound.moves admits ?_
          simp only [removeId_ok free, bind, Except.bind]
          rw [made]
          simp [Progress.take, sources, destinations, Finset.sdiff_singleton_eq_erase]
  · exact sound.stays

theorem alignCandidates_returns {candidates : List (ℚ × CanonicalElement × CanonicalElement)}
    (known : ∀ confidence source destination, (confidence, source, destination) ∈ candidates →
      source ∈ baseline ∧ destination ∈ target ∧ confidence ≤ 1)
    (sound : Sound baseline target progress) :
    Returns baseline target progress
      (alignCandidates baseline target candidates progress) := by
  induction candidates generalizing progress with
  | nil => exact sound.stays
  | cons candidate rest ih =>
      obtain ⟨confidence, source, destination⟩ := candidate
      obtain ⟨from_, to_, bounded⟩ := known _ _ _ List.mem_cons_self
      have others := fun c s d member => known c s d (List.mem_cons_of_mem _ member)
      rw [alignCandidates]
      split
      · exact sound.stays
      · next enough =>
          split
          · next free =>
              have positive : 0 ≤ confidence :=
                le_trans (by norm_num [minimumCandidateScore]) (not_lt.mp enough)
              obtain ⟨alignment, returns, pairs⟩ := alignPair_ok
                "Text, heading, clause taxonomy, and relative position were compared."
                (confidence < reviewConfidence) free.1 free.2 (round4_mem positive bounded)
              simp only [bind, Except.bind]
              rw [returns]
              obtain ⟨last, returns', sound', grows⟩ := ih others (sound.take
                (pairs.admits from_ to_ free.1 free.2))
              exact ⟨last, returns', sound', List.Subset.trans (List.subset_append_left _ _) grows⟩
          · exact ih others sound

theorem alignExactElements_returns (sound : Sound baseline target progress) :
    Returns baseline target progress
      (alignExactElements table baseline target progress) :=
  returns_foldlM (fun _ from_ _ kept => alignExactElement_returns kept from_) sound

theorem alignAdjacentGroups_returns (sound : Sound baseline target progress)
    (distinct : (baseline.map (·.elementId)).Nodup)
    (distinct' : (target.map (·.elementId)).Nodup) :
    Returns baseline target progress
      (alignAdjacentGroups table baseline target progress) := by
  obtain ⟨split, splits, sound', grows⟩ :=
    returns_foldlM (fun _ from_ _ kept => alignSplit_returns kept distinct' from_) sound
  obtain ⟨last, merges, sound'', grows'⟩ :=
    returns_foldlM (fun _ to_ _ kept => alignMerged_returns kept distinct to_) sound'
  rw [alignAdjacentGroups, splits]
  exact ⟨last, merges, sound'', List.Subset.trans grows grows'⟩

theorem alignRemainingPairs_returns (sound : Sound baseline target progress) :
    Returns baseline target progress
      (alignRemainingPairs table baseline target progress) := by
  refine alignCandidates_returns (fun confidence source destination member => ?_) sound
  obtain ⟨from_, to_, -, rfl⟩ := mem_remainingCandidates.mp member
  exact ⟨from_.1, to_.1, candidateScore_le_one table source destination _ _⟩

end Phases

/-! What no alignment has at the end -/

theorem removed_returns (baseline target : List CanonicalElement)
    (unmatched : Finset String) :
    ∃ removed, (baseline.filter fun element => element.elementId ∈ unmatched).mapM
        removedAlignment = .ok removed ∧
      removed.flatMap (·.baselineElementIds) =
        (baseline.filter fun element => element.elementId ∈ unmatched).map (·.elementId) ∧
      removed.flatMap (·.targetElementIds) = [] ∧
      ∀ alignment ∈ removed, Shaped baseline target alignment := by
  suffices each : ∀ elements : List CanonicalElement, (∀ element ∈ elements, element ∈ baseline) →
      ∃ removed, elements.mapM removedAlignment = .ok removed ∧
        removed.flatMap (·.baselineElementIds) = elements.map (·.elementId) ∧
        removed.flatMap (·.targetElementIds) = [] ∧
        ∀ alignment ∈ removed, Shaped baseline target alignment from
    each _ fun element member => (List.mem_filter.mp member).1
  intro elements from_
  induction elements with
  | nil => exact ⟨[], rfl, rfl, rfl, nofun⟩
  | cons element rest ih =>
      obtain ⟨removed, returns, sides, empty, known⟩ :=
        ih fun other member => from_ other (List.mem_cons_of_mem element member)
      have made := alignment_new .removed false ["No compatible target element was found."]
        ⟨zero_le_one, le_refl (1 : ℚ)⟩ nofun
        (fun _ => ⟨List.cons_ne_nil element.elementId [], rfl⟩) fun _ other => absurd rfl other
      refine ⟨_, by rw [List.mapM_cons, removedAlignment, made, returns]; rfl, ?_, ?_, ?_⟩
      · simp [sides]
      · simp [empty]
      · rw [List.forall_mem_cons]
        exact ⟨⟨element, from_ element List.mem_cons_self, rfl, rfl⟩, known⟩

theorem added_returns (baseline target : List CanonicalElement)
    (unmatched : Finset String) :
    ∃ added, (target.filter fun element => element.elementId ∈ unmatched).mapM
        addedAlignment = .ok added ∧
      added.flatMap (·.targetElementIds) =
        (target.filter fun element => element.elementId ∈ unmatched).map (·.elementId) ∧
      added.flatMap (·.baselineElementIds) = [] ∧
      ∀ alignment ∈ added, Shaped baseline target alignment := by
  suffices each : ∀ elements : List CanonicalElement, (∀ element ∈ elements, element ∈ target) →
      ∃ added, elements.mapM addedAlignment = .ok added ∧
        added.flatMap (·.targetElementIds) = elements.map (·.elementId) ∧
        added.flatMap (·.baselineElementIds) = [] ∧
        ∀ alignment ∈ added, Shaped baseline target alignment from
    each _ fun element member => (List.mem_filter.mp member).1
  intro elements to_
  induction elements with
  | nil => exact ⟨[], rfl, rfl, rfl, nofun⟩
  | cons element rest ih =>
      obtain ⟨added, returns, sides, empty, known⟩ :=
        ih fun other member => to_ other (List.mem_cons_of_mem element member)
      have made := alignment_new .added false ["No compatible baseline element was found."]
        ⟨zero_le_one, le_refl (1 : ℚ)⟩
        (fun _ => ⟨rfl, List.cons_ne_nil element.elementId []⟩) nofun fun other => absurd rfl other
      refine ⟨_, by rw [List.mapM_cons, addedAlignment, made, returns]; rfl, ?_, ?_, ?_⟩
      · simp [sides]
      · simp [empty]
      · rw [List.forall_mem_cons]
        exact ⟨⟨element, to_ element List.mem_cons_self, rfl, rfl⟩, known⟩

theorem ordinalOf_returns {elements : List CanonicalElement} {element : CanonicalElement}
    (member : element ∈ elements) : ∃ ordinal, ordinalOf elements element.elementId = .ok ordinal := by
  rw [ordinalOf]
  cases found : elements.reverse.find? fun other => other.elementId = element.elementId with
  | some other => exact ⟨other.ordinal, rfl⟩
  | none =>
      have missed := List.find?_eq_none.mp found element (List.mem_reverse.mpr member)
      simp at missed

theorem leastOrdinal_returns {elements : List CanonicalElement} {ids : List String}
    (some_ : ids ≠ []) (known : ∀ id ∈ ids, ∃ element ∈ elements, id = element.elementId) :
    ∃ least, leastOrdinal elements ids = .ok least := by
  have ordinals : ∃ ordinals, ids.mapM (ordinalOf elements) = .ok ordinals := by
    clear some_
    induction ids with
    | nil => exact ⟨[], rfl⟩
    | cons id rest ih =>
        obtain ⟨element, member, rfl⟩ := known id List.mem_cons_self
        obtain ⟨ordinal, first⟩ := ordinalOf_returns member
        obtain ⟨others, later⟩ := ih fun other deeper => known other (List.mem_cons_of_mem _ deeper)
        exact ⟨ordinal :: others, by rw [List.mapM_cons, first, later]; rfl⟩
  obtain ⟨ordinals, returns⟩ := ordinals
  have lengths := (mapM_ok.mp returns).length_eq
  rw [leastOrdinal, returns]
  cases ordinals with
  | nil => exact absurd (List.length_eq_zero_iff.mp lengths) some_
  | cons ordinal others => exact ⟨_, rfl⟩

/-- The sort key finds the elements of an alignment. -/
theorem alignmentSortKey_returns {alignment : Alignment}
    (shaped : Shaped baseline target alignment) :
    ∃ key, alignmentSortKey baseline target alignment = .ok key := by
  have known : (∀ id ∈ alignment.baselineElementIds, ∃ element ∈ baseline, id = element.elementId) ∧
      (∀ id ∈ alignment.targetElementIds, ∃ element ∈ target, id = element.elementId) := by
    rw [Shaped] at shaped
    split at shaped
    · obtain ⟨source, from_, destination, to_, left, right⟩ := shaped
      rw [left, right]
      exact ⟨by simpa using ⟨source, from_, rfl⟩, by simpa using ⟨destination, to_, rfl⟩⟩
    · obtain ⟨source, from_, destination, to_, left, right⟩ := shaped
      rw [left, right]
      exact ⟨by simpa using ⟨source, from_, rfl⟩, by simpa using ⟨destination, to_, rfl⟩⟩
    · obtain ⟨source, from_, first, one, second, two, -, left, right⟩ := shaped
      rw [left, right]
      exact ⟨by simpa using ⟨source, from_, rfl⟩,
        by simpa using ⟨⟨first, one, rfl⟩, ⟨second, two, rfl⟩⟩⟩
    · obtain ⟨first, one, second, two, destination, to_, -, left, right⟩ := shaped
      rw [left, right]
      exact ⟨by simpa using ⟨⟨first, one, rfl⟩, ⟨second, two, rfl⟩⟩,
        by simpa using ⟨destination, to_, rfl⟩⟩
    · obtain ⟨destination, to_, left, right⟩ := shaped
      rw [left, right]
      exact ⟨nofun, by simpa using ⟨destination, to_, rfl⟩⟩
    · obtain ⟨source, from_, left, right⟩ := shaped
      rw [left, right]
      exact ⟨by simpa using ⟨source, from_, rfl⟩, nofun⟩
  rw [alignmentSortKey]
  split
  · next some_ =>
      obtain ⟨least, returns⟩ := leastOrdinal_returns some_ known.1
      exact ⟨_, by rw [returns]; rfl⟩
  · next none =>
      have other : alignment.targetElementIds ≠ [] := by
        by_cases added : alignment.kind = .added
        · exact (alignment.adds added).2
        · by_cases removed : alignment.kind = .removed
          · exact absurd (alignment.removes removed).1 none
          · exact (alignment.maps added removed).2
      obtain ⟨least, returns⟩ := leastOrdinal_returns other known.2
      exact ⟨_, by rw [returns]; rfl⟩

theorem sortAlignments_returns {results : List Alignment}
    (shaped : ∀ alignment ∈ results, Shaped baseline target alignment) :
    ∃ sorted, sortAlignments baseline target results = .ok sorted ∧ sorted.Perm results := by
  have keyed : ∃ keyed : List ((ℕ ×ₗ ℕ) × Alignment),
      (results.mapM fun alignment => (alignmentSortKey baseline target alignment).map
        fun key => (key, alignment)) = .ok keyed ∧ keyed.map (·.2) = results := by
    induction results with
    | nil => exact ⟨[], rfl, rfl⟩
    | cons alignment rest ih =>
        rw [List.forall_mem_cons] at shaped
        obtain ⟨key, first⟩ := alignmentSortKey_returns shaped.1
        obtain ⟨others, later, sides⟩ := ih shaped.2
        exact ⟨(key, alignment) :: others, by rw [List.mapM_cons, first, later]; rfl, by simp [sides]⟩
  obtain ⟨keyed, returns, sides⟩ := keyed
  refine ⟨_, by rw [sortAlignments, returns]; rfl, ?_⟩
  exact sides ▸ (perm_orderBy _ keyed).map _

/-! The whole alignment -/

theorem nodup_unmatched {elements : List CanonicalElement} {unmatched : Finset String}
    (distinct : (elements.map (·.elementId)).Nodup) :
    ((elements.filter fun element => element.elementId ∈ unmatched).map (·.elementId)).Nodup :=
  distinct.sublist (List.filter_sublist.map _)

theorem mem_unmatched {elements : List CanonicalElement} {unmatched : Finset String}
    (known : ∀ id ∈ unmatched, id ∈ elements.map (·.elementId)) (id : String) :
    id ∈ (elements.filter fun element => element.elementId ∈ unmatched).map (·.elementId) ↔
      id ∈ unmatched := by
  simp only [List.mem_map, List.mem_filter, decide_eq_true_eq]
  constructor
  · rintro ⟨element, ⟨-, free⟩, rfl⟩
    exact free
  · intro free
    obtain ⟨element, member, rfl⟩ := List.mem_map.mp (known id free)
    exact ⟨element, ⟨member, free⟩, rfl⟩

/-- What the phases leave unmatched is aligned on its own, and the alignments are sorted. -/
theorem alignVersions_of_phases {table : CaseTable} {baseline target : CanonicalVersion}
    (distinct : (baseline.elements.map (·.elementId)).Nodup)
    (distinct' : (target.elements.map (·.elementId)).Nodup)
    {sourceElements targetElements : List CanonicalElement} {start exact_ grouped paired : Progress}
    (sources : orderBy (·.ordinal) baseline.elements = sourceElements)
    (targets : orderBy (·.ordinal) target.elements = targetElements)
    (starts : start = ⟨(sourceElements.map (·.elementId)).toFinset,
      (targetElements.map (·.elementId)).toFinset, []⟩)
    (exactly : alignExactElements table sourceElements targetElements start = .ok exact_)
    (groups : alignAdjacentGroups table sourceElements targetElements exact_ = .ok grouped)
    (pairs : alignRemainingPairs table sourceElements targetElements grouped = .ok paired)
    (sound : Sound sourceElements targetElements paired) :
    ∃ results, alignVersions table baseline target = .ok results ∧
      Partition baseline target results ∧
      paired.results ⊆ results ∧
      (paired.unmatchedBaseline = ∅ → paired.unmatchedTarget = ∅ → results ⊆ paired.results) := by
  have same := perm_orderBy (·.ordinal) baseline.elements
  have same' := perm_orderBy (·.ordinal) target.elements
  rw [sources] at same
  rw [targets] at same'
  have apart := (same.map (·.elementId)).nodup_iff.mpr distinct
  have apart' := (same'.map (·.elementId)).nodup_iff.mpr distinct'
  obtain ⟨removed, removes, removed_ids, removed_none, removed_known⟩ :=
    removed_returns sourceElements targetElements paired.unmatchedBaseline
  obtain ⟨added, adds, added_ids, added_none, added_known⟩ :=
    added_returns sourceElements targetElements paired.unmatchedTarget
  have known : ∀ alignment ∈ paired.results ++ removed ++ added,
      Shaped sourceElements targetElements alignment := by
    intro alignment member
    rcases List.mem_append.mp member with before | last
    · rcases List.mem_append.mp before with first | next
      · exact sound.shaped alignment first
      · exact removed_known alignment next
    · exact added_known alignment last
  obtain ⟨sorted, sorts, perm⟩ := sortAlignments_returns known
  refine ⟨sorted, ?_, ?_, ?_, fun none none' => ?_⟩
  · simp only [alignVersions, sources, targets, ← starts, exactly, groups, pairs, removes, adds,
      bind, Except.bind]
    exact sorts
  · constructor
    · refine (perm.flatMap_right _).trans (.trans ?_ (same.map _))
      rw [List.flatMap_append, List.flatMap_append, removed_ids, added_none, List.append_nil]
      exact sound.baseline_counted.finish (nodup_unmatched apart)
        (mem_unmatched fun id free => sound.baseline_counted.mem_whole free)
    · refine (perm.flatMap_right _).trans (.trans ?_ (same'.map _))
      rw [List.flatMap_append, List.flatMap_append, removed_none, added_ids, List.append_nil]
      exact sound.target_counted.finish (nodup_unmatched apart')
        (mem_unmatched fun id free => sound.target_counted.mem_whole free)
    · intro alignment member
      exact (known alignment (perm.subset member)).of_subset same.subset same'.subset
    · exact fun alignment _ => alignment.measured
  · intro alignment member
    exact perm.symm.subset (by simp [member])
  · simp only [none, Finset.notMem_empty, decide_false, List.filter_false] at removes
    simp only [none', Finset.notMem_empty, decide_false, List.filter_false] at adds
    cases removes
    cases adds
    intro alignment member
    simpa using perm.subset member

/-- A version of elements with one anchor each and no clause types. -/
def plainVersion (texts : List {text : String // strip text ≠ ""}) : CanonicalVersion where
  sourceChecksum := "checksum"
  elements := texts.zipIdx.map fun entry =>
    { elementId := "section-checksum-" ++ toString entry.2
      ordinal := entry.2
      headingPath := []
      clauseType := none
      text := entry.1.1
      citationAnchorIds := ["anchor-" ++ toString entry.2]
      named := by simp
      spoken := entry.1.2
      cited := by simp }
  checked := by decide
  ordered := by
    rw [List.map_map]
    exact List.zipIdx_map_snd 0 texts ▸ List.nodup_range'

/-- Two versions whose elements have ids of their own are aligned without an error: every element
is in exactly one alignment, and each alignment has the sides of its kind. -/
theorem alignVersions_partition (table : CaseTable) (baseline target : CanonicalVersion)
    (distinct : (baseline.elements.map (·.elementId)).Nodup)
    (distinct' : (target.elements.map (·.elementId)).Nodup) :
    ∃ results, alignVersions table baseline target = .ok results ∧
      Partition baseline target results := by
  have apart := ((perm_orderBy (·.ordinal) baseline.elements).map (·.elementId)).nodup_iff.mpr
    distinct
  have apart' := ((perm_orderBy (·.ordinal) target.elements).map (·.elementId)).nodup_iff.mpr
    distinct'
  obtain ⟨exact_, exactly, sound₁, -⟩ := alignExactElements_returns (sound_start apart apart')
  obtain ⟨grouped, groups, sound₂, -⟩ := alignAdjacentGroups_returns sound₁ apart apart'
  obtain ⟨paired, pairs, sound₃, -⟩ := alignRemainingPairs_returns sound₂
  obtain ⟨results, returns, partition, -⟩ :=
    alignVersions_of_phases distinct distinct' rfl rfl rfl exactly groups pairs sound₃
  exact ⟨results, returns, partition⟩

theorem alignVersions_partition_twoClauses :
    ∃ results, alignVersions .ascii (plainVersion [⟨"Fees are due", by decide⟩])
        (plainVersion [⟨"Fees", by decide⟩, ⟨"are due", by decide⟩]) = .ok results ∧
      Partition (plainVersion [⟨"Fees are due", by decide⟩])
        (plainVersion [⟨"Fees", by decide⟩, ⟨"are due", by decide⟩]) results :=
  alignVersions_partition _ _ _ (by decide +kernel) (by decide +kernel)

/-- What is known of the only alignment of a run. -/
theorem only_alignment {ε β : Type} {run : Except ε (List Alignment)} {f : Alignment → β} {b : β}
    (reads : run.toOption.map (List.map f) = some [b]) :
    ∃ alignment, run = .ok [alignment] ∧ f alignment = b := by
  cases run with
  | error error => cases reads
  | ok results =>
      match results, reads with
      | [alignment], reads =>
          exact ⟨alignment, rfl, List.singleton_inj.mp (Option.some.inj reads)⟩

end AgreementIntelligence.Comparisons
