import AgreementIntelligence.Comparisons.Partition

/-! An exact match compares what normalization leaves of two texts: the runs of `a` to `z` and `0`
to `9` in the case-folded text. Two texts of one normalized text have the same words where the
letters and digits that were dropped are the same and stand at the same places in them. -/

namespace AgreementIntelligence.Comparisons
open Lib Text Casing Queries MaximalRuns Results

/-- The tables of the Unicode standard, with the characters that are letters or digits. What is
neither is not folded to a letter or digit of ASCII. -/
structure WordTable extends CaseTable where
  alnum : Char → Bool
  tokenChar_alnum : ∀ c, tokenChar c = true → alnum c = true
  fold_separator : ∀ c, alnum c = false → fold c ≠ [] ∧ ∀ d ∈ fold c, tokenChar d = false

/-- The words of a text, case-folded. -/
def caseFoldedWords (table : WordTable) (text : String) : List (List Char) :=
  (runs table.alnum text.toList).map (·.flatMap table.fold)

/-- What normalization drops of the words: the characters other than `a` to `z` and `0` to `9`, and
where those stand among them. -/
def droppedLetters (table : WordTable) (text : String) : List (List (Option Char)) :=
  (caseFoldedWords table text).map (outline tokenChar)

/-- The tokens of a text are those of its words. -/
theorem tokens_eq (table : WordTable) (text : String) : tokens table.toCaseTable text =
    ((caseFoldedWords table text).flatMap (runs tokenChar)).map String.ofList := by
  rw [tokens, CaseTable.casefold, String.toList_ofList, runs_flatMap table.fold_separator,
    caseFoldedWords, List.flatMap_map]

theorem tokens_of_normalizedText (table : CaseTable) (text : String) :
    (runs tokenChar (normalizedText table text).toList).map String.ofList = tokens table text := by
  rw [normalizedText, tokens, runs_joined (by decide) fun part member => mem_runs member]

/-- Texts of one normalized text have the same words where the letters that were dropped agree. -/
theorem caseFoldedWords_eq_iff (table : WordTable) {first second : String}
    (same : normalizedText table.toCaseTable first = normalizedText table.toCaseTable second) :
    caseFoldedWords table first = caseFoldedWords table second ↔
      droppedLetters table first = droppedLetters table second := by
  constructor
  · intro words
    rw [droppedLetters, words, droppedLetters]
  · intro dropped
    have tokens_same : tokens table.toCaseTable first = tokens table.toCaseTable second := by
      rw [← tokens_of_normalizedText, same, tokens_of_normalizedText]
    rw [tokens_eq, tokens_eq] at tokens_same
    have injective : Function.Injective String.ofList := fun a b equal => by
      simpa using congrArg String.toList equal
    exact eq_of_flatMap_runs (List.map_injective_iff.mpr injective tokens_same) dropped

/-! Where an exact alignment comes from -/

variable {table : CaseTable} {baseline target : List CanonicalElement} {progress next : Progress}

/-- The elements that an exact alignment pairs have one normalized text. -/
def Justified (table : CaseTable) (baseline target : List CanonicalElement)
    (alignment : Alignment) : Prop :=
  alignment.rationale.head? = some exactReason →
    ∃ source ∈ baseline, ∃ destination ∈ target,
      alignment.baselineElementIds = [source.elementId] ∧
        alignment.targetElementIds = [destination.elementId] ∧
        normalizedText table source.text = normalizedText table destination.text

def AllJustified (table : CaseTable) (baseline target : List CanonicalElement)
    (results : List Alignment) : Prop :=
  ∀ alignment ∈ results, Justified table baseline target alignment

theorem AllJustified.concat {results : List Alignment} {alignment : Alignment}
    (all : AllJustified table baseline target results)
    (last : Justified table baseline target alignment) :
    AllJustified table baseline target (results ++ [alignment]) := by
  intro other member
  rcases List.mem_append.mp member with old | new
  · exact all other old
  · exact List.mem_singleton.mp new ▸ last

theorem of_alignment_new {kind : AlignmentKind} {sources destinations : List String}
    {confidence : ℚ} {reviewRequired : Bool} {rationale : List String} {alignment : Alignment}
    (made : Alignment.new kind sources destinations confidence reviewRequired rationale =
      .ok alignment) :
    alignment.baselineElementIds = sources ∧ alignment.targetElementIds = destinations ∧
      alignment.rationale = rationale := by
  simp only [Alignment.new] at made
  split_ifs at made
  cases made
  exact ⟨rfl, rfl, rfl⟩

/-- An alignment for another reason needs no justification. -/
theorem justified_of_reason {kind : AlignmentKind} {sources destinations : List String}
    {confidence : ℚ} {reviewRequired : Bool} {reason : String} {rest : List String}
    {alignment : Alignment} (made : Alignment.new kind sources destinations confidence
      reviewRequired (reason :: rest) = .ok alignment) (other : reason ≠ exactReason) :
    Justified table baseline target alignment := by
  intro exact_
  rw [(of_alignment_new made).2.2, List.head?_cons, Option.some.injEq] at exact_
  exact absurd exact_ other

theorem of_alignPair {reason : String} {confidence : ℚ} {reviewRequired : Bool}
    {source destination : CanonicalElement}
    (returns : alignPair reason confidence reviewRequired baseline target source destination
      progress = .ok next) :
    ∃ alignment kind rest, next.results = progress.results ++ [alignment] ∧
      Alignment.new kind [source.elementId] [destination.elementId] confidence reviewRequired
        (reason :: rest) = .ok alignment := by
  rw [alignPair, bind_ok] at returns
  obtain ⟨unmatched, -, returns⟩ := returns
  rw [bind_ok] at returns
  obtain ⟨unmatched', -, returns⟩ := returns
  rw [bind_ok] at returns
  obtain ⟨alignment, made, returns⟩ := returns
  cases returns
  exact ⟨alignment, _, _, rfl, made⟩

theorem alignExactElement_justified {source : CanonicalElement} (from_ : source ∈ baseline)
    (returns : alignExactElement table baseline target progress source = .ok next)
    (all : AllJustified table baseline target progress.results) :
    AllJustified table baseline target next.results := by
  rw [alignExactElement] at returns
  split at returns
  · split at returns
    · next candidate only =>
        have found : candidate ∈ exactCandidates table target progress.unmatchedTarget source :=
          only ▸ List.mem_singleton_self candidate
        simp only [exactCandidates, List.mem_filter, decide_eq_true_eq] at found
        obtain ⟨alignment, kind, rest, grows, made⟩ := of_alignPair returns
        obtain ⟨left, right, -⟩ := of_alignment_new made
        rw [grows]
        exact all.concat fun _ => ⟨source, from_, candidate, found.1.1, left, right,
          found.1.2.symm⟩
    · cases returns
      exact all
  · cases returns
    exact all

theorem alignSplit_justified {source : CanonicalElement}
    (returns : alignSplit table baseline target progress source = .ok next)
    (all : AllJustified table baseline target progress.results) :
    AllJustified table baseline target next.results := by
  rw [alignSplit] at returns
  split at returns
  · split at returns
    · cases returns
      exact all
    · rw [bind_ok] at returns
      obtain ⟨unmatched, -, returns⟩ := returns
      rw [bind_ok] at returns
      obtain ⟨alignment, made, returns⟩ := returns
      cases returns
      exact all.concat (justified_of_reason made (by decide))
  · cases returns
    exact all

theorem alignMerged_justified {destination : CanonicalElement}
    (returns : alignMerged table baseline target progress destination = .ok next)
    (all : AllJustified table baseline target progress.results) :
    AllJustified table baseline target next.results := by
  rw [alignMerged] at returns
  split at returns
  · split at returns
    · cases returns
      exact all
    · rw [bind_ok] at returns
      obtain ⟨unmatched, -, returns⟩ := returns
      rw [bind_ok] at returns
      obtain ⟨alignment, made, returns⟩ := returns
      cases returns
      exact all.concat (justified_of_reason made (by decide))
  · cases returns
    exact all

theorem alignCandidates_justified {candidates : List (ℚ × CanonicalElement × CanonicalElement)}
    (returns : alignCandidates baseline target candidates progress = .ok next)
    (all : AllJustified table baseline target progress.results) :
    AllJustified table baseline target next.results := by
  induction candidates generalizing progress with
  | nil =>
      cases returns
      exact all
  | cons candidate rest ih =>
      obtain ⟨confidence, source, destination⟩ := candidate
      rw [alignCandidates] at returns
      split at returns
      · cases returns
        exact all
      · split at returns
        · rw [bind_ok] at returns
          obtain ⟨paired, pairs, returns⟩ := returns
          obtain ⟨alignment, kind, reasons, grows, made⟩ := of_alignPair pairs
          refine ih returns ?_
          rw [grows]
          exact all.concat (justified_of_reason made (by decide))
        · exact ih returns all

/-- Sorting returns alignments that were there. -/
theorem mem_of_sortAlignments {results sorted : List Alignment}
    (sorts : sortAlignments baseline target results = .ok sorted) {alignment : Alignment}
    (member : alignment ∈ sorted) : alignment ∈ results := by
  rw [sortAlignments, bind_ok] at sorts
  obtain ⟨keyed, loops, sorts⟩ := sorts
  cases sorts
  obtain ⟨entry, inside, rfl⟩ := List.mem_map.mp member
  obtain ⟨original, from_, keys⟩ := mem_of_mapM loops (mem_orderBy.mp inside)
  cases key : alignmentSortKey baseline target original with
  | error error =>
      rw [key] at keys
      cases keys
  | ok found =>
      rw [key] at keys
      cases keys
      exact from_

/-- Every alignment for the reason of the exact phase pairs elements of one normalized text. -/
theorem alignVersions_justified {baseline target : CanonicalVersion} {results : List Alignment}
    (returns : alignVersions table baseline target = .ok results) :
    AllJustified table baseline.elements target.elements results := by
  rw [alignVersions, bind_ok] at returns
  obtain ⟨exact_, exactly, returns⟩ := returns
  rw [bind_ok] at returns
  obtain ⟨grouped, groups, returns⟩ := returns
  rw [bind_ok] at returns
  obtain ⟨paired, pairs, returns⟩ := returns
  rw [bind_ok] at returns
  obtain ⟨removed, removes, returns⟩ := returns
  rw [bind_ok] at returns
  obtain ⟨added, adds, sorts⟩ := returns
  have all₁ : AllJustified table (orderBy (·.ordinal) baseline.elements)
      (orderBy (·.ordinal) target.elements) exact_.results := by
    refine foldlM_keeps (P := fun progress => AllJustified table _ _ progress.results)
      (fun source from_ _ _ round => alignExactElement_justified from_ round) exactly ?_
    intro alignment member
    cases member
  rw [alignAdjacentGroups, bind_ok] at groups
  obtain ⟨split, splits, merges⟩ := groups
  have all₂ := foldlM_keeps (P := fun progress => AllJustified table _ _ progress.results)
    (fun _ _ _ _ round => alignSplit_justified round) splits all₁
  have all₃ := foldlM_keeps (P := fun progress => AllJustified table _ _ progress.results)
    (fun _ _ _ _ round => alignMerged_justified round) merges all₂
  have all₄ := alignCandidates_justified pairs all₃
  intro alignment member exact_
  have known : Justified table (orderBy (·.ordinal) baseline.elements)
      (orderBy (·.ordinal) target.elements) alignment := by
    rcases List.mem_append.mp (mem_of_sortAlignments sorts member) with before | last
    · rcases List.mem_append.mp before with first | next
      · exact all₄ alignment first
      · obtain ⟨element, -, made⟩ := mem_of_mapM removes next
        exact justified_of_reason made (by decide)
    · obtain ⟨element, -, made⟩ := mem_of_mapM adds last
      exact justified_of_reason made (by decide)
  obtain ⟨source, from_, destination, to_, sides⟩ := known exact_
  exact ⟨source, mem_orderBy.mp from_, destination, mem_orderBy.mp to_, sides⟩

/-- Two elements that are exactly aligned have the same words if and only if what normalization
dropped of them is the same. -/
theorem exactMatch_sameWords_iff (table : WordTable) {baseline target : CanonicalVersion}
    {results : List Alignment}
    (returns : alignVersions table.toCaseTable baseline target = .ok results)
    {alignment : Alignment} (member : alignment ∈ results)
    (exact_ : alignment.rationale.head? = some exactReason) :
    ∃ source ∈ baseline.elements, ∃ destination ∈ target.elements,
      alignment.baselineElementIds = [source.elementId] ∧
      alignment.targetElementIds = [destination.elementId] ∧
      (caseFoldedWords table source.text = caseFoldedWords table destination.text ↔
        droppedLetters table source.text = droppedLetters table destination.text) := by
  obtain ⟨source, from_, destination, to_, left, right, same⟩ :=
    alignVersions_justified returns alignment member exact_
  exact ⟨source, from_, destination, to_, left, right, caseFoldedWords_eq_iff table same⟩

/-- A text world whose letters and digits are those of ASCII and the letters of Arabic. -/
def arabicTable : WordTable where
  toCaseTable := .ascii
  alnum c := tokenChar c.toLower || (0x620 ≤ c.toNat && c.toNat ≤ 0x64A)
  tokenChar_alnum c token := by
    have small : c.toLower = c := by
      refine toLower_of_not_capital fun capital => ?_
      simp only [tokenChar, Char.le_def, UInt32.le_iff_toNat_le, Bool.or_eq_true, Bool.and_eq_true,
        decide_eq_true_eq] at token
      have value : c.val.toNat = c.toNat := rfl
      simp at token
      omega
    simp [small, token]
  fold_separator c other := by
    simp only [Bool.or_eq_false_iff] at other
    simp [CaseTable.ascii, other.1]

theorem exactMatch_sameWords_fees : ∃ alignment,
    alignVersions arabicTable.toCaseTable (plainVersion [⟨"Fees", by decide⟩])
      (plainVersion [⟨"FEES.", by decide⟩]) = .ok [alignment] ∧
    ∃ source ∈ (plainVersion [⟨"Fees", by decide⟩]).elements,
      ∃ destination ∈ (plainVersion [⟨"FEES.", by decide⟩]).elements,
        alignment.baselineElementIds = [source.elementId] ∧
        alignment.targetElementIds = [destination.elementId] ∧
        (caseFoldedWords arabicTable source.text = caseFoldedWords arabicTable destination.text ↔
          droppedLetters arabicTable source.text = droppedLetters arabicTable destination.text) := by
  have reads : (alignVersions arabicTable.toCaseTable (plainVersion [⟨"Fees", by decide⟩])
      (plainVersion [⟨"FEES.", by decide⟩])).toOption.map (List.map (·.rationale.head?)) =
        some [some exactReason] := by decide +kernel
  obtain ⟨alignment, returns, exact_⟩ := only_alignment reads
  exact ⟨alignment, returns,
    exactMatch_sameWords_iff arabicTable returns List.mem_cons_self exact_⟩

/-- Two Arabic clauses with no word in common are aligned exactly. -/
theorem not_exactMatchesAgree : ¬ ∀ (table : WordTable) (baseline target : CanonicalVersion)
    (results : List Alignment),
    alignVersions table.toCaseTable baseline target = .ok results →
    ∀ alignment ∈ results, alignment.confidence = 1 →
      alignment.rationale.head? = some exactReason →
      ∃ source ∈ baseline.elements, ∃ destination ∈ target.elements,
        alignment.baselineElementIds = [source.elementId] ∧
        alignment.targetElementIds = [destination.elementId] ∧
        caseFoldedWords table source.text = caseFoldedWords table destination.text := by
  intro claim
  have reads : (alignVersions arabicTable.toCaseTable (plainVersion [⟨"بند", by decide⟩])
      (plainVersion [⟨"شرط", by decide⟩])).toOption.map
        (List.map fun alignment => (alignment.confidence, alignment.rationale.head?)) =
        some [(1, some exactReason)] := by decide +kernel
  obtain ⟨alignment, returns, full⟩ := only_alignment reads
  obtain ⟨source, from_, destination, to_, -, -, words⟩ := claim arabicTable _ _ _ returns alignment
    List.mem_cons_self (Prod.mk.inj full).1 (Prod.mk.inj full).2
  have different : ∀ source ∈ (plainVersion [⟨"بند", by decide⟩]).elements,
      ∀ destination ∈ (plainVersion [⟨"شرط", by decide⟩]).elements,
      caseFoldedWords arabicTable source.text ≠ caseFoldedWords arabicTable destination.text := by
    decide +kernel
  exact different source from_ destination to_ words

end AgreementIntelligence.Comparisons
