import AgreementIntelligence.Evidence.Answers
import AgreementIntelligence.Evidence.Chunks

/-! The evidence of a question, as it is made from the results of a search. An anchor that
results cite from different sources is left out. -/

namespace AgreementIntelligence.Evidence
open Identity Lib.Text Lib.Words Lib.Dict Lib.Json

structure SearchCitation where
  chunkId : String
  anchorIds : List String
  sourceChecksum : String
  sourceVersion : String
  deriving DecidableEq, Repr

structure SearchResult where
  agreementId : Uuid
  contentPreview : String
  citation : SearchCitation
  deriving DecidableEq, Repr

structure CitationSource where
  agreementId : Uuid
  sourceChecksum : String
  sourceVersion : String
  deriving DecidableEq, Repr

/-- `_to_result`, for a chunk of an agreement. -/
def toResult (agreementId : Uuid) (sourceChecksum : String) (chunk : RetrievalChunk) :
    SearchResult where
  agreementId := agreementId
  contentPreview := String.ofList (chunk.text.toList.take 500)
  citation := ⟨chunk.chunkId, chunk.anchorIds, sourceChecksum, sourceChecksum⟩

def SearchResult.source (result : SearchResult) : CitationSource :=
  ⟨result.agreementId, result.citation.sourceChecksum, result.citation.sourceVersion⟩

/-- Every anchor that is cited, with its source, in the order of the two loops. -/
def citings (items : List SearchResult) : List (String × CitationSource) :=
  items.flatMap fun result => result.citation.anchorIds.map fun anchorId => (anchorId, result.source)

/-- The body of the loops of `_citation_sources_from_search`: the sources, and the ambiguous
anchors. -/
def noteSource (state : List (String × CitationSource) × List String)
    (citing : String × CitationSource) : List (String × CitationSource) × List String :=
  match get? state.1 citing.1 with
  | none => (set state.1 citing.1 citing.2, state.2)
  | some existing => if existing ≠ citing.2 then (state.1, citing.1 :: state.2) else state

def citationSourcesFromSearch (items : List SearchResult) : List (String × CitationSource) :=
  let noted := (citings items).foldl noteSource ([], [])
  noted.2.foldl pop noted.1

def snippetOf (result : SearchResult) (anchorId : String) : EvidenceSnippet where
  anchor := ⟨anchorId, result.citation.sourceChecksum, 1, 0, result.contentPreview.length, []⟩
  text := result.contentPreview

def evidenceFromSearch (items : List SearchResult)
    (citationSources : List (String × CitationSource)) : List EvidenceSnippet :=
  items.flatMap fun result => (result.citation.anchorIds.filter fun anchorId =>
    (get? citationSources anchorId).isSome).map (snippetOf result)

/-! Which anchors have a source -/

theorem get?_noted (state : List (String × CitationSource) × List String)
    (pairs : List (String × CitationSource)) (anchorId : String) :
    get? (pairs.foldl noteSource state).1 anchorId =
      (get? state.1 anchorId).or (get? pairs anchorId) := by
  induction pairs generalizing state with
  | nil => simp
  | cons pair rest ih =>
      rw [List.foldl_cons, ih, get?_cons]
      unfold noteSource
      split
      · rename_i fresh
        rw [get?_set]
        by_cases same : pair.1 = anchorId
        · subst same
          simp [fresh]
        · simp [same]
      · rename_i existing known
        by_cases same : pair.1 = anchorId
        · subst same
          split <;> simp [known]
        · split <;> simp [same]

/-- An anchor is ambiguous when one of its sources is not the first. -/
theorem mem_ambiguous (state : List (String × CitationSource) × List String)
    (pairs : List (String × CitationSource)) (anchorId : String) :
    anchorId ∈ (pairs.foldl noteSource state).2 ↔ anchorId ∈ state.2 ∨
      ∃ source, (anchorId, source) ∈ pairs ∧
        (get? state.1 anchorId).or (get? pairs anchorId) ≠ some source := by
  induction pairs generalizing state with
  | nil => simp
  | cons pair rest ih =>
      obtain ⟨other, given⟩ := pair
      rw [List.foldl_cons, ih]
      have sources := get?_noted state [(other, given)] anchorId
      rw [List.foldl_cons, List.foldl_nil] at sources
      have later : (get? (noteSource state (other, given)).1 anchorId).or (get? rest anchorId) =
          (get? state.1 anchorId).or (get? ((other, given) :: rest) anchorId) := by
        rw [sources, Option.or_assoc, get?_cons, get?_cons]
        by_cases same : other = anchorId <;> simp [same]
      have noted : anchorId ∈ (noteSource state (other, given)).2 ↔ anchorId ∈ state.2 ∨
          (anchorId = other ∧
            (get? state.1 anchorId).or (get? ((other, given) :: rest) anchorId) ≠ some given) := by
        rw [get?_cons]
        unfold noteSource
        split
        · rename_i fresh
          by_cases same : other = anchorId
          · subst same
            simp only at fresh
            simp [fresh]
          · simp [Ne.symm same]
        · rename_i existing known
          simp only at known
          split
          · rename_i apart
            by_cases same : other = anchorId
            · subst same
              simp only [List.mem_cons, true_or, known, Option.some_or, true_and, ne_eq,
                Option.some.injEq, true_iff]
              exact .inr apart
            · simp [Ne.symm same]
          · rename_i alike
            by_cases same : other = anchorId
            · subst same
              simp only [known, Option.some_or, ne_eq, Option.some.injEq, true_and]
              exact ⟨.inl, fun held => held.resolve_right (fun apart => alike apart)⟩
            · simp [Ne.symm same]
      rw [later, noted]
      constructor
      · rintro ((old | ⟨rfl, apart⟩) | ⟨source, member, apart⟩)
        · exact .inl old
        · exact .inr ⟨given, List.mem_cons_self, apart⟩
        · exact .inr ⟨source, List.mem_cons_of_mem _ member, apart⟩
      · rintro (old | ⟨source, member, apart⟩)
        · exact .inl (.inl old)
        · rcases List.mem_cons.mp member with first | deeper
          · cases first
            exact .inl (.inr ⟨rfl, apart⟩)
          · exact .inr ⟨source, deeper, apart⟩

/-- Some result cites the anchor, and all results that do have the same source. -/
def Unshared (items : List SearchResult) (anchorId : String) : Prop :=
  ∃ source, (anchorId, source) ∈ citings items ∧
    ∀ other, (anchorId, other) ∈ citings items → other = source

end AgreementIntelligence.Evidence
