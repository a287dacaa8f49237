import AgreementIntelligence.Evidence.CompleteSentences
import AgreementIntelligence.Evidence.UsableEvidence

/-! Whether a citation points at the text that it quotes. Each anchor of a chunk is evidence with
the preview of the whole chunk, so a quote from one block passes under the anchor of another. -/

namespace AgreementIntelligence.Evidence
open Identity Lib.Text Lib.Words Lib.Dict Lib.Json Lib.Results

/-- The analysed document of every agreement, from which its active index was built. -/
abbrev Documents (φ : Type) := Uuid → List (String × Json φ)

/-- A chunk that a search has found in the index of an agreement. -/
structure Hit {φ : Type} (documents : Documents φ) where
  agreementId : Uuid
  checksum : String
  chunks : List RetrievalChunk
  chunk : RetrievalChunk
  checksummed : sourceChecksum (documents agreementId) = .ok checksum
  chunked : structuralChunksFromManifest (documents agreementId) = .ok chunks
  member : chunk ∈ chunks

variable {φ : Type} {documents : Documents φ}

def Hit.result (hit : Hit documents) : SearchResult :=
  toResult hit.agreementId hit.checksum hit.chunk

def sourcesOf (hits : List (Hit documents)) : List (String × CitationSource) :=
  citationSourcesFromSearch (hits.map Hit.result)

def evidenceOf (hits : List (Hit documents)) : List EvidenceSnippet :=
  evidenceFromSearch (hits.map Hit.result) (sourcesOf hits)

variable (table : TextTable)

/-- The document has a block with this anchor whose text contains the quote, up to case and
white space. -/
def Quotes (manifest : List (String × Json φ)) (anchorId quote : String) : Prop :=
  ∃ found, blocks manifest = .ok found ∧ ∃ block, .object block ∈ found ∧
    get block "anchor_id" = .string anchorId ∧ ∃ text, get block "text" = .string text ∧
      quoteIsInSnippet table quote text = true

/-- Each citation of the answer has a source, and the block that its anchor names there contains
the quote. -/
def GroundedAnswer.PointsHome (answer : GroundedAnswer) (hits : List (Hit documents)) : Prop :=
  ∀ claim ∈ answer.claims, ∀ citation ∈ claim.citations, ∃ source,
    get? (sourcesOf hits) citation.anchorId = some source ∧
      Quotes table (documents source.agreementId) citation.anchorId citation.supportingQuote

/-- Where the evidence is used at all, every preview with a word stands whole in each block that
it is usable evidence for. -/
def WholePreviews (guardrail : Guardrail) (hits : List (Hit documents)) : Prop :=
  validEvidence (evidenceOf hits) = true →
    (guardrailDecision guardrail (evidenceOf hits)).status = .allow →
      ∀ hit ∈ hits, ∀ anchorId ∈ hit.chunk.anchorIds, Unshared (hits.map Hit.result) anchorId →
        tokens table hit.result.contentPreview ≠ [] →
          Quotes table (documents hit.agreementId) anchorId hit.result.contentPreview

section Texts
variable {table}

theorem quoteIsInSnippet_self (text : String) : quoteIsInSnippet table text text = true := by
  rw [quoteIsInSnippet, contains]
  exact decide_eq_true List.infix_rfl

theorem quoteIsInSnippet_trans {quote preview text : String}
    (inside : quoteIsInSnippet table quote preview = true)
    (whole : quoteIsInSnippet table preview text = true) :
    quoteIsInSnippet table quote text = true := by
  rw [quoteIsInSnippet, contains, decide_eq_true_eq] at *
  exact inside.trans whole

theorem Quotes.mono {manifest : List (String × Json φ)} {anchorId quote preview : String}
    (inside : quoteIsInSnippet table quote preview = true)
    (whole : Quotes table manifest anchorId preview) : Quotes table manifest anchorId quote := by
  obtain ⟨found, read, block, member, named, text, given, held⟩ := whole
  exact ⟨found, read, block, member, named, text, given, quoteIsInSnippet_trans inside held⟩

theorem tokens_ne_nil_iff {text : String} :
    tokens table text ≠ [] ↔ ∃ c ∈ (table.casefold text).toList, table.alnum c = true := by
  constructor
  · intro spoken
    obtain ⟨c, member, joins⟩ := exists_of_parts spoken
    exact ⟨c, member, by simpa using joins⟩
  · rintro ⟨c, member, alnum⟩ silent
    have letters := flatten_splitOnP (fun c => decide (¬ table.alnum c = true))
      (table.casefold text).toList
    rw [← flatten_filter_nonempty] at letters
    change (tokens table text).flatten = _ at letters
    rw [silent, List.flatten_nil, eq_comm, List.filter_eq_nil_iff] at letters
    exact letters c member (by simp [alnum])

/-- A text that contains one with a word has a word, up to case and white space. -/
theorem tokens_of_normalized {text other : String} (spoken : tokens table text ≠ [])
    (inside : ∀ c ∈ (normalized table text).toList, c ∈ (normalized table other).toList) :
    tokens table other ≠ [] := by
  obtain ⟨c, member, alnum⟩ := tokens_ne_nil_iff.mp spoken
  have visible := table.alnum_visible c alnum
  exact tokens_ne_nil_iff.mpr
    ⟨c, (mem_normalized table visible).mp (inside c ((mem_normalized table visible).mpr member)),
      alnum⟩

theorem exists_fold {text : String} {c : Char} (member : c ∈ (table.casefold text).toList) :
    ∃ d ∈ text.toList, c ∈ table.fold d := by
  simpa [Lib.Casing.CaseTable.casefold] using member

/-- A folded character that can be seen comes from one that can be seen. -/
theorem visible_of_fold {c d : Char} (folds : c ∈ table.fold d)
    (visible : isWhitespace c = false) : isWhitespace d = false := by
  by_contra space
  rw [Bool.not_eq_false] at space
  rw [table.fold_space d space, List.mem_singleton] at folds
  rw [folds, space] at visible
  cases visible

/-- A text has a word exactly if one of its sentences has. -/
theorem exists_sentence_tokens {text : String} :
    (∃ sentence ∈ sentences text, tokens table sentence ≠ []) ↔ tokens table text ≠ [] := by
  constructor
  · rintro ⟨sentence, member, spoken⟩
    obtain ⟨c, folded, alnum⟩ := tokens_ne_nil_iff.mp spoken
    obtain ⟨d, inside, folds⟩ := exists_fold folded
    have visible := visible_of_fold folds (table.alnum_visible c alnum)
    have held := (mem_sentence_iff visible).mp ⟨sentence, member, inside⟩
    refine tokens_ne_nil_iff.mpr ⟨c, ?_, alnum⟩
    simp only [Lib.Casing.CaseTable.casefold, String.toList_ofList]
    exact List.mem_flatMap.mpr ⟨d, held, folds⟩
  · intro spoken
    obtain ⟨c, folded, alnum⟩ := tokens_ne_nil_iff.mp spoken
    obtain ⟨d, inside, folds⟩ := exists_fold folded
    have visible := visible_of_fold folds (table.alnum_visible c alnum)
    obtain ⟨sentence, member, held⟩ := (mem_sentence_iff visible).mpr inside
    refine ⟨sentence, member, tokens_ne_nil_iff.mpr ⟨c, ?_, alnum⟩⟩
    simp only [Lib.Casing.CaseTable.casefold, String.toList_ofList]
    exact List.mem_flatMap.mpr ⟨d, held, folds⟩

end Texts

section Citations
variable {table}

/-- The quote of a citation that passes the checks stands in a snippet under its anchor. -/
theorem validCitations_snippet {claim : String} {snippets : List (String × EvidenceSnippet)}
    {citations : List Citation} (valid : (validCitations table claim snippets citations).1 = true)
    {citation : Citation} (member : citation ∈ citations) :
    ∃ snippet, get? snippets citation.anchorId = some snippet ∧
      quoteIsInSnippet table citation.supportingQuote snippet.text = true := by
  induction citations with
  | nil => cases member
  | cons first rest ih =>
      rw [validCitations] at valid
      split at valid
      · cases valid
      rename_i snippet found
      split at valid
      · cases valid
      split at valid
      · cases valid
      split at valid
      · cases valid
      rename_i inside
      split at valid
      · cases valid
      rcases List.mem_cons.mp member with rfl | later
      · exact ⟨snippet, found, not_not.mp inside⟩
      · exact ih valid later

theorem validClaim_snippet {claim : GroundedClaim} {snippets : List (String × EvidenceSnippet)}
    (valid : (validClaim table claim snippets).1 = true) :
    ∀ citation ∈ claim.citations, ∃ snippet, get? snippets citation.anchorId = some snippet ∧
      quoteIsInSnippet table citation.supportingQuote snippet.text = true := by
  unfold validClaim at valid
  split at valid
  · cases valid
  split at valid
  · cases valid
  split at valid
  · cases valid
  exact fun citation member => validCitations_snippet valid member

/-- A quote that supports a claim has a word. -/
theorem tokens_of_supports {claim quote sentence : String} (spoken : tokens table claim ≠ [])
    (supports : extractSupportingQuote table claim quote = some sentence) :
    tokens table quote ≠ [] := by
  have same := extractSupportingQuote_normalized supports
  unfold extractSupportingQuote at supports
  rw [if_neg spoken] at supports
  refine exists_sentence_tokens.mp ⟨sentence, List.mem_of_find?_eq_some supports, ?_⟩
  refine tokens_of_normalized spoken fun c member => ?_
  rw [same]
  exact member

/-- The claim that repeats a sentence of a snippet and quotes all of it. -/
theorem validClaim_whole {evidence : List EvidenceSnippet} {snippet : EvidenceSnippet}
    (agrees : ∀ other ∈ evidence, other.anchor.conflictsWith = [])
    (distinct : (evidence.map (·.anchor.anchorId)).Nodup) (member : snippet ∈ evidence)
    (material : materialText snippet.text = true) {sentence : String}
    (listed : sentence ∈ sentences snippet.text) (spoken : tokens table sentence ≠ []) :
    validClaim table ⟨sentence, [⟨snippet.anchor.anchorId, snippet.text⟩]⟩ (snippetsOf evidence) =
      (true, false) := by
  have visible : materialText sentence = true := by
    rw [materialText, decide_eq_true_eq]
    intro blank
    have empty := normalized_strip table sentence.toList
    rw [String.ofList_toList, blank, normalized_empty] at empty
    exact normalized_ne_of_tokens spoken empty.symm
  have found : get? (snippetsOf evidence) snippet.anchor.anchorId = some snippet :=
    get?_ofItems_of_mem (fun other : EvidenceSnippet => other.anchor.anchorId) distinct member
  have silent : hasAuthorizedConflict snippet.anchor (snippetsOf evidence) = false := by
    rw [hasAuthorizedConflict, agrees snippet member, List.any_nil, Bool.false_or,
      List.any_eq_false]
    intro entry inside
    rw [agrees entry.2 (mem_ofItems _ inside)]
    simp
  have supports : extractSupportingQuote table sentence snippet.text ≠ none := by
    rw [extractSupportingQuote, if_neg spoken]
    intro none_
    have apart := List.find?_eq_none.mp none_ sentence listed
    simp at apart
  simp [validClaim, validCitations, visible, spoken, found, material, silent,
    quoteIsInSnippet_self, supports]

end Citations

section Hits
variable {table} {hits : List (Hit documents)}

/-- A snippet of the evidence is the preview of a hit under an anchor of its own. -/
theorem mem_evidenceOf {snippet : EvidenceSnippet} : snippet ∈ evidenceOf hits ↔
    ∃ hit ∈ hits, ∃ anchorId ∈ hit.chunk.anchorIds, Unshared (hits.map Hit.result) anchorId ∧
      snippetOf hit.result anchorId = snippet := by
  rw [evidenceOf, sourcesOf, mem_evidenceFromSearch]
  constructor
  · rintro ⟨result, member, anchorId, listed, unshared, made⟩
    obtain ⟨hit, inside, rfl⟩ := List.mem_map.mp member
    exact ⟨hit, inside, anchorId, listed, unshared, made⟩
  · rintro ⟨hit, inside, anchorId, listed, unshared, made⟩
    exact ⟨hit.result, List.mem_map_of_mem inside, anchorId, listed, unshared, made⟩

/-- The source of an anchor that is not shared is that of the hit that cites it. -/
theorem sourcesOf_hit {hit : Hit documents} (inside : hit ∈ hits) {anchorId : String}
    (listed : anchorId ∈ hit.chunk.anchorIds)
    (unshared : Unshared (hits.map Hit.result) anchorId) :
    get? (sourcesOf hits) anchorId = some hit.result.source := by
  obtain ⟨source, found⟩ := Option.isSome_iff_exists.mp (isSome_source.mpr unshared)
  have noted := get?_noted ([], []) (citings (hits.map Hit.result)) anchorId
  rw [citationSourcesFromSearch, get?_foldl_pop] at found
  split at found
  · cases found
  rw [noted, get?_nil, Option.none_or] at found
  have cited : (anchorId, hit.result.source) ∈ citings (hits.map Hit.result) :=
    List.mem_flatMap.mpr ⟨hit.result, List.mem_map_of_mem inside,
      List.mem_map.mpr ⟨anchorId, listed, rfl⟩⟩
  obtain ⟨single, -, only⟩ := unshared
  have same : source = hit.result.source :=
    (only source (mem_of_get? found)).trans (only _ cited).symm
  rw [sourcesOf, ← same, citationSourcesFromSearch, get?_foldl_pop, if_neg ‹_›, noted, get?_nil,
    Option.none_or, found]

/-- Whatever is asked and answered, the citations point at the text that they quote, exactly if
the previews stand whole in the blocks that they are evidence for. -/
theorem citations_pointHome_iff (guardrail : Guardrail) (hits : List (Hit documents)) :
    (∀ (answerer : Answerer) (question : String) (organizationId workspaceId : Option Uuid),
      (answerQuestion table guardrail answerer question (evidenceOf hits) organizationId
        workspaceId).PointsHome table hits) ↔ WholePreviews table guardrail hits := by
  constructor
  · intro home usable allowed hit inside anchorId listed unshared spoken
    have agrees : ∀ snippet ∈ evidenceOf hits, snippet.anchor.conflictsWith = [] :=
      agrees_evidenceFromSearch
    obtain ⟨-, formed, distinct⟩ := (validEvidence_iff agrees).mp usable
    have member : snippetOf hit.result anchorId ∈ evidenceOf hits :=
      mem_evidenceOf.mpr ⟨hit, inside, anchorId, listed, unshared, rfl⟩
    have material : materialText hit.result.contentPreview = true := (formed _ member).2.2.2.2.2
    obtain ⟨sentence, stands, worded⟩ := exists_sentence_tokens.mpr spoken
    let claim : GroundedClaim := ⟨sentence, [⟨anchorId, hit.result.contentPreview⟩]⟩
    have valid : validClaim table claim (snippetsOf (evidenceOf hits)) = (true, false) :=
      validClaim_whole agrees distinct member material stands worded
    have checked : Checked table guardrail (fun _ => .ok (some ⟨[claim]⟩)) "?" (evidenceOf hits)
        none none ⟨[claim]⟩ :=
      { asked := ⟨by decide, usable⟩
        allowed := allowed
        answered := rfl
        agrees := fun other only => by
          rw [List.mem_singleton.mp only, valid] }
    have claimed := mem_claims.mpr ⟨⟨[claim]⟩, checked, List.mem_singleton_self claim,
      congrArg Prod.fst valid⟩
    obtain ⟨source, found, quotes⟩ := home _ _ none none claim claimed
      ⟨anchorId, hit.result.contentPreview⟩ (List.mem_singleton_self _)
    have same : source = hit.result.source :=
      Option.some.inj (found.symm.trans (sourcesOf_hit inside listed unshared))
    rw [same] at quotes
    exact quotes
  · intro whole answerer question organizationId workspaceId claim claimed citation cited
    obtain ⟨candidate, checked, member, valid⟩ := mem_claims.mp claimed
    obtain ⟨snippet, found, quoted⟩ := validClaim_snippet valid citation cited
    obtain ⟨worded, quotes⟩ := validClaim_quote valid
    obtain ⟨sentence, supports⟩ := quotes citation cited
    obtain ⟨held, named⟩ := mem_of_get?_ofItems _ found
    obtain ⟨hit, inside, anchorId, listed, unshared, rfl⟩ := mem_evidenceOf.mp held
    obtain rfl : anchorId = citation.anchorId := named
    have spoken : tokens table hit.result.contentPreview ≠ [] := by
      refine tokens_of_normalized (tokens_of_supports worded supports) fun c letter => ?_
      rw [quoteIsInSnippet, contains, decide_eq_true_eq] at quoted
      exact quoted.subset letter
    exact ⟨hit.result.source, sourcesOf_hit inside listed unshared,
      (whole checked.asked.2 checked.allowed hit inside citation.anchorId listed unshared
        spoken).mono quoted⟩

end Hits

/-- Whatever a search finds and the model answers, citations point at the text that they quote. -/
def AlwaysPointsHome : Prop :=
  ∀ (φ : Type) (documents : Documents φ) (hits : List (Hit documents)) (table : TextTable)
    (guardrail : Guardrail) (answerer : Answerer) (question : String)
    (organizationId workspaceId : Option Uuid),
    (answerQuestion table guardrail answerer question (evidenceOf hits) organizationId
      workspaceId).PointsHome table hits

/-! A heading that is cited for the paragraph below it. -/

def feeBlocks : List (Json Empty) :=
  [.object [("anchor_id", .string "h"), ("kind", .string "heading"), ("text", .string "Fees")],
    .object [("anchor_id", .string "p"), ("kind", .string "paragraph"),
      ("text", .string "The fee is due.")]]

def feeDocument : List (String × Json Empty) :=
  [("source", .object [("checksum", .string "c")]),
    ("document", .object [("pages", .array [.object [("blocks", .array feeBlocks)]])])]

def feeChunk : RetrievalChunk :=
  ⟨chunkId "c" ["h", "p"] 0, 0, ["Fees"], ["h", "p"], "Fees\nThe fee is due."⟩

theorem feeGroups : groupBlocks [] [] feeBlocks =
    .ok [(["Fees"], [("h", "Fees"), ("p", "The fee is due.")])] := by
  rfl

theorem feeChunks : structuralChunksFromManifest feeDocument = .ok [feeChunk] := by
  have few : (words ("\n".intercalate ["Fees", "The fee is due."]).toList).length ≤
      maxChunkTokens := by decide
  have single : chunksForGroup "c" ["Fees"] [("h", "Fees"), ("p", "The fee is due.")] 0 =
      [feeChunk] := by
    rw [chunksForGroup]
    exact if_pos few
  have read : blocks feeDocument = .ok feeBlocks := rfl
  have named : sourceChecksum feeDocument = .ok "c" := rfl
  simp [structuralChunksFromManifest, named, read, feeGroups, bind, Except.bind, chunksForGroups,
    single]

def feeHit : Hit fun _ => feeDocument where
  agreementId := Uuid.ofNat 1
  checksum := "c"
  chunks := [feeChunk]
  chunk := feeChunk
  checksummed := rfl
  chunked := feeChunks
  member := List.mem_singleton_self feeChunk

def feeClaim : GroundedClaim :=
  ⟨"The fee is due.", [⟨"h", "The fee is due."⟩]⟩

theorem not_alwaysPointsHome : ¬ AlwaysPointsHome := by
  intro always
  have home := always Empty _ [feeHit] asciiText allowing (fun _ => .ok (some ⟨[feeClaim]⟩)) "Due?"
    none none
  have accepted : feeClaim ∈ (answerQuestion asciiText allowing
      (fun _ => .ok (some ⟨[feeClaim]⟩)) "Due?" (evidenceOf [feeHit]) none none).claims := by
    decide +kernel
  obtain ⟨source, -, found, read, block, member, named, text, given, quoted⟩ :=
    home feeClaim accepted ⟨"h", "The fee is due."⟩ (List.mem_singleton_self _)
  obtain rfl : feeBlocks = found := Except.ok.inj read
  simp only [feeBlocks, List.mem_cons, Json.object.injEq, List.not_mem_nil, or_false] at member
  rcases member with rfl | rfl
  · obtain rfl : "Fees" = text := Json.string.inj given
    have apart : quoteIsInSnippet asciiText "The fee is due." "Fees" = false := by decide +kernel
    rw [apart] at quoted
    cases quoted
  · have other : "p" = "h" := Json.string.inj named
    exact absurd other (by decide)

end AgreementIntelligence.Evidence
