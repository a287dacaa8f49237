import AgreementIntelligence.Evidence.Retrieval

/-! When the evidence of a search is well formed. The validator wants every anchor once; windows
of one group overlap, so results from neighbouring windows cite an anchor twice. -/

namespace AgreementIntelligence.Evidence
open Identity Lib.Text Lib.Words Lib.Dict Lib.Json Lib.Results

theorem isSome_source {items : List SearchResult} {anchorId : String} :
    (get? (citationSourcesFromSearch items) anchorId).isSome ↔ Unshared items anchorId := by
  have sources := get?_noted ([], []) (citings items) anchorId
  have ambiguous := mem_ambiguous ([], []) (citings items) anchorId
  simp only [get?_nil, Option.none_or, List.not_mem_nil, false_or] at sources ambiguous
  rw [citationSourcesFromSearch, get?_foldl_pop, sources]
  constructor
  · intro some_
    split at some_
    · cases some_
    rename_i clear
    rw [ambiguous] at clear
    obtain ⟨source, found⟩ := Option.isSome_iff_exists.mp some_
    refine ⟨source, mem_of_get? found, fun other member => ?_⟩
    by_contra apart
    exact clear ⟨other, member, fun same => apart (Option.some.inj (same.symm.trans found))⟩
  · rintro ⟨source, member, only⟩
    have clear : anchorId ∉ ((citings items).foldl noteSource ([], [])).2 := by
      rw [ambiguous]
      rintro ⟨other, inside, apart⟩
      obtain ⟨first, found⟩ := Option.isSome_iff_exists.mp (get?_isSome_of_mem member)
      rw [found, only other inside, only first (mem_of_get? found)] at apart
      exact apart rfl
    rw [if_neg clear]
    exact get?_isSome_of_mem member

/-! What the validator accepts -/

def EvidenceSnippet.WellFormed (snippet : EvidenceSnippet) : Prop :=
  materialText snippet.anchor.anchorId = true ∧
    materialText snippet.anchor.sourceChecksum = true ∧ 1 ≤ snippet.anchor.pageNumber ∧
    0 ≤ snippet.anchor.startOffset ∧ snippet.anchor.startOffset ≤ snippet.anchor.endOffset ∧
    materialText snippet.text = true

theorem distinctAnchors_eq_some {anchorIds all : List String} {evidence : List EvidenceSnippet} :
    distinctAnchors anchorIds evidence = some all ↔ (∀ snippet ∈ evidence, snippet.WellFormed) ∧
      (∀ snippet ∈ evidence, snippet.anchor.anchorId ∉ anchorIds) ∧
      (evidence.map (·.anchor.anchorId)).Nodup ∧
      all = anchorIds ++ evidence.map (·.anchor.anchorId) := by
  induction evidence generalizing anchorIds with
  | nil => simp [distinctAnchors, eq_comm]
  | cons snippet rest ih =>
      rw [distinctAnchors]
      split
      · rename_i malformed
        simp only [reduceCtorEq, false_iff]
        rintro ⟨formed, fresh, -⟩
        have first := formed snippet List.mem_cons_self
        have apart := fresh snippet List.mem_cons_self
        simp only [EvidenceSnippet.WellFormed] at first
        grind
      · rename_i formed
        have first : snippet.WellFormed ∧ snippet.anchor.anchorId ∉ anchorIds := by
          simp only [EvidenceSnippet.WellFormed]
          grind
        rw [ih]
        simp only [List.mem_cons, forall_eq_or_imp, List.map_cons, List.nodup_cons,
          List.mem_map, not_exists, not_and, List.mem_append, not_or, List.append_assoc,
          List.cons_append, List.nil_append, List.not_mem_nil, or_false]
        constructor
        · rintro ⟨others, fresh, distinct, same⟩
          exact ⟨⟨first.1, others⟩, ⟨first.2, fun other member => (fresh other member).1⟩,
            ⟨fun other member => (fresh other member).2, distinct⟩, same⟩
        · rintro ⟨⟨-, others⟩, ⟨-, fresh⟩, ⟨apart, distinct⟩, same⟩
          exact ⟨others, fun other member => ⟨fresh other member, apart other member⟩, distinct,
            same⟩

theorem validEvidence_iff {evidence : List EvidenceSnippet}
    (agrees : ∀ snippet ∈ evidence, snippet.anchor.conflictsWith = []) :
    validEvidence evidence = true ↔ evidence ≠ [] ∧ (∀ snippet ∈ evidence, snippet.WellFormed) ∧
      (evidence.map (·.anchor.anchorId)).Nodup := by
  unfold validEvidence
  by_cases empty : evidence = []
  · simp [empty]
  rw [if_neg empty]
  cases outcome : distinctAnchors [] evidence with
  | none =>
      simp only [Bool.false_eq_true, false_iff]
      rintro ⟨-, formed, distinct⟩
      have accepted := distinctAnchors_eq_some.mpr
        ⟨formed, fun _ _ => List.not_mem_nil, distinct, rfl⟩
      rw [outcome] at accepted
      cases accepted
  | some all =>
      obtain ⟨formed, -, distinct, -⟩ := distinctAnchors_eq_some.mp outcome
      have silent : (evidence.all fun snippet => snippet.anchor.conflictsWith.all fun conflict =>
          decide (conflict ∈ all ∧ conflict ≠ snippet.anchor.anchorId)) = true := by
        rw [List.all_eq_true]
        intro snippet member
        rw [agrees snippet member]
        rfl
      exact iff_of_true silent ⟨empty, formed, distinct⟩

/-! The evidence of a search -/

section Search
variable {items : List SearchResult}

theorem mem_evidenceFromSearch {snippet : EvidenceSnippet} :
    snippet ∈ evidenceFromSearch items (citationSourcesFromSearch items) ↔
      ∃ result ∈ items, ∃ anchorId ∈ result.citation.anchorIds, Unshared items anchorId ∧
        snippetOf result anchorId = snippet := by
  simp only [evidenceFromSearch, List.mem_flatMap, List.mem_map, List.mem_filter, isSome_source,
    and_assoc]

/-- The anchors of the evidence are the anchors that are cited, without the shared ones. -/
theorem anchors_evidenceFromSearch :
    (evidenceFromSearch items (citationSourcesFromSearch items)).map (·.anchor.anchorId) =
      (items.flatMap (·.citation.anchorIds)).filter fun anchorId =>
        (get? (citationSourcesFromSearch items) anchorId).isSome := by
  rw [evidenceFromSearch, List.map_flatMap, List.filter_flatMap]
  congr 1
  funext result
  rw [List.map_map]
  exact List.map_id _

theorem count_usable {anchorId : String} (unshared : Unshared items anchorId) :
    ((items.flatMap (·.citation.anchorIds)).filter fun anchorId =>
      (get? (citationSourcesFromSearch items) anchorId).isSome).count anchorId =
        (items.flatMap (·.citation.anchorIds)).count anchorId := by
  apply List.count_filter
  exact isSome_source.mpr unshared

theorem agrees_evidenceFromSearch :
    ∀ snippet ∈ evidenceFromSearch items (citationSourcesFromSearch items),
      snippet.anchor.conflictsWith = [] := by
  intro snippet member
  obtain ⟨result, -, anchorId, -, -, rfl⟩ := mem_evidenceFromSearch.mp member
  rfl

theorem evidenceFromSearch_ne_nil (usable : ∃ anchorId, Unshared items anchorId) :
    evidenceFromSearch items (citationSourcesFromSearch items) ≠ [] := by
  obtain ⟨anchorId, unshared⟩ := usable
  have ⟨source, member, _⟩ := unshared
  obtain ⟨result, inside, cited⟩ := List.mem_flatMap.mp member
  obtain ⟨other, listed, same⟩ := List.mem_map.mp cited
  obtain rfl : other = anchorId := congrArg Prod.fst same
  exact List.ne_nil_of_mem (mem_evidenceFromSearch.mpr
    ⟨result, inside, other, listed, unshared, rfl⟩)

/-- The anchors of the evidence are distinct when no usable anchor is cited twice. -/
theorem nodup_anchors_iff :
    ((evidenceFromSearch items (citationSourcesFromSearch items)).map
      (·.anchor.anchorId)).Nodup ↔ ∀ anchorId, Unshared items anchorId →
        (items.flatMap (·.citation.anchorIds)).count anchorId ≤ 1 := by
  rw [anchors_evidenceFromSearch, List.nodup_iff_count_le_one]
  constructor
  · intro counts anchorId unshared
    rw [← count_usable unshared]
    exact counts anchorId
  · intro counts anchorId
    by_cases unshared : Unshared items anchorId
    · rw [count_usable unshared]
      exact counts anchorId unshared
    · have absent : anchorId ∉ (items.flatMap (·.citation.anchorIds)).filter fun anchorId =>
          (get? (citationSourcesFromSearch items) anchorId).isSome :=
        fun member => unshared (isSome_source.mp (List.mem_filter.mp member).2)
      rw [List.count_eq_zero.mpr absent]
      exact Nat.zero_le 1

/-- Every anchor with a single source is cited once, and neither it nor the checksum of the
result that cites it is blank. -/
structure CitesOnce (items : List SearchResult) : Prop where
  once : ∀ anchorId, Unshared items anchorId →
    (items.flatMap (·.citation.anchorIds)).count anchorId ≤ 1
  named : ∀ result ∈ items, ∀ anchorId ∈ result.citation.anchorIds, Unshared items anchorId →
    materialText anchorId = true ∧ materialText result.citation.sourceChecksum = true

theorem wellFormed_evidence_iff
    (previews : ∀ result ∈ items, materialText result.contentPreview = true) :
    (∀ snippet ∈ evidenceFromSearch items (citationSourcesFromSearch items),
      snippet.WellFormed) ↔ ∀ result ∈ items, ∀ anchorId ∈ result.citation.anchorIds,
        Unshared items anchorId →
          materialText anchorId = true ∧ materialText result.citation.sourceChecksum = true := by
  constructor
  · intro formed result inside anchorId listed unshared
    have snippet := formed _ (mem_evidenceFromSearch.mpr
      ⟨result, inside, anchorId, listed, unshared, rfl⟩)
    exact ⟨snippet.1, snippet.2.1⟩
  · intro named snippet member
    obtain ⟨result, inside, anchorId, listed, unshared, rfl⟩ := mem_evidenceFromSearch.mp member
    obtain ⟨first, second⟩ := named result inside anchorId listed unshared
    exact ⟨first, second, Int.le_refl 1, Int.le_refl 0, Int.natCast_nonneg _,
      previews result inside⟩

/-- The evidence of a search is well formed exactly if every usable anchor is cited once. -/
theorem searchEvidence_valid_iff
    (previews : ∀ result ∈ items, materialText result.contentPreview = true)
    (usable : ∃ anchorId, Unshared items anchorId) :
    validEvidence (evidenceFromSearch items (citationSourcesFromSearch items)) = true ↔
      CitesOnce items := by
  rw [validEvidence_iff agrees_evidenceFromSearch, wellFormed_evidence_iff previews,
    nodup_anchors_iff]
  constructor
  · rintro ⟨-, named, once⟩
    exact ⟨once, named⟩
  · rintro ⟨once, named⟩
    exact ⟨evidenceFromSearch_ne_nil usable, named, once⟩
end Search

def sampleResult : SearchResult :=
  ⟨Uuid.ofNat 1, "The fee is due.", ⟨"chunk-1", ["a", "b"], "c", "c"⟩⟩

theorem searchEvidence_valid_sample :
    validEvidence (evidenceFromSearch [sampleResult] (citationSourcesFromSearch [sampleResult])) =
      true ↔ CitesOnce [sampleResult] :=
  searchEvidence_valid_iff (by decide +kernel)
    ⟨"a", sampleResult.source, by decide +kernel, by simp [citings, sampleResult]⟩

/-! Windows overlap -/

/-- A window grows as long as it is not full. -/
theorem windows_fill {current block rest : List (String × List Char)} {start : Nat}
    (fits : current.length + block.length ≤ maxChunkTokens) :
    windows current start (block ++ rest) = windows (current ++ block) start rest := by
  induction block generalizing current with
  | nil => simp
  | cons token block ih =>
      have room : ¬ (current ≠ [] ∧ current.length = maxChunkTokens) := by
        rw [List.length_cons] at fits
        omega
      rw [List.cons_append, windows, if_neg room, ih]
      · simp
      · simp only [List.length_append, List.length_cons, List.length_nil] at *
        omega

/-- The next window begins with what has been read. -/
theorem windows_begin {current rest : List (String × List Char)} {start : Nat}
    (some_ : current ≠ []) :
    ∃ more later, windows current start rest = (current ++ more, start) :: later := by
  induction rest generalizing current with
  | nil => exact ⟨[], [], by rw [windows, if_neg some_, List.append_nil]⟩
  | cons token rest ih =>
      rw [windows]
      split
      · exact ⟨[], _, by rw [List.append_nil]⟩
      · obtain ⟨more, later, found⟩ := ih (List.append_ne_nil_of_right_ne_nil current
          (List.cons_ne_nil token []))
        exact ⟨token :: more, later, by rw [found, List.append_assoc]; rfl⟩

/-- The two first windows of a long group have tokens in common. -/
theorem windows_overlap {full rest : List (String × List Char)} {token : String × List Char}
    (whole : full.length = maxChunkTokens) :
    ∃ more later, windows [] 0 (full ++ token :: rest) =
      (full, 0) :: (full.drop 900 ++ token :: more, 900) :: later := by
  have some_ : full ≠ [] := by
    rintro rfl
    cases whole
  have grown := @windows_fill [] full (token :: rest) 0 (by rw [whole]; rfl)
  rw [List.nil_append] at grown
  have kept : maxChunkTokens - (full.drop 900).length = 900 := by
    rw [List.length_drop, whole]
    rfl
  have places : full.length - chunkOverlapTokens = 900 := by
    rw [whole]
    rfl
  rw [grown, windows, if_pos ⟨some_, whole⟩]
  simp only [places, kept]
  obtain ⟨more, later, found⟩ := @windows_begin (full.drop 900 ++ [token]) rest
    (0 + 900) (List.append_ne_nil_of_right_ne_nil _ (List.cons_ne_nil token []))
  exact ⟨more, later, by rw [found, List.append_assoc]; rfl⟩

theorem mem_windows {current rest window : List (String × List Char)} {start place : Nat}
    (member : (window, place) ∈ windows current start rest) {token : String × List Char}
    (inside : token ∈ window) : token ∈ current ++ rest := by
  induction rest generalizing current start with
  | nil =>
      rw [windows] at member
      split at member
      · cases member
      · cases List.mem_singleton.mp member
        simpa using inside
  | cons next rest ih =>
      rw [windows] at member
      split at member
      · rcases List.mem_cons.mp member with first | later
        · cases first
          exact List.mem_append_left _ inside
        · have held := ih later
          simp only [List.append_assoc, List.cons_append, List.nil_append, List.mem_append] at held
          exact List.mem_append.mpr (held.imp_left List.mem_of_mem_drop)
      · simpa using ih member

/-! The evidence of two neighbouring windows -/

/-- The result shows a chunk of an analysed document. -/
def SearchResult.Indexed (result : SearchResult) : Prop :=
  ∃ (φ : Type) (manifest : List (String × Json φ)) (chunks : List RetrievalChunk)
    (chunk : RetrievalChunk) (checksum : String),
    structuralChunksFromManifest manifest = .ok chunks ∧ sourceChecksum manifest = .ok checksum ∧
      chunk ∈ chunks ∧ result = toResult result.agreementId checksum chunk

/-- The evidence of every search of chunks is accepted. -/
def AlwaysUsable : Prop :=
  ∀ items : List SearchResult, (∀ result ∈ items, result.Indexed) →
    (items.map (·.citation.chunkId)).Nodup →
      (∀ result ∈ items, materialText result.contentPreview = true) →
        (∃ anchorId, Unshared items anchorId) →
          validEvidence (evidenceFromSearch items (citationSourcesFromSearch items)) = true

def paragraph (text : String) : List (String × Json Empty) :=
  [("anchor_id", .string "a"), ("kind", .string "paragraph"), ("text", .string text)]

def paragraphManifest (text : String) : List (String × Json Empty) :=
  [("source", .object [("checksum", .string "c")]),
    ("document", .object [("pages", .array [.object [("blocks",
      .array [.object (paragraph text)])]])])]

theorem checksum_paragraph (text : String) :
    sourceChecksum (paragraphManifest text) = .ok "c" := by
  simp [sourceChecksum, requiredString, paragraphManifest, Lib.Json.get]

theorem blocks_paragraph (text : String) :
    blocks (paragraphManifest text) = .ok [.object (paragraph text)] := by
  simp [blocks, pageBlocks, paragraphManifest, Lib.Json.get, List.lookup_cons, bind, Except.bind]

theorem requiredString_paragraph {text : String} (some_ : text ≠ "") :
    requiredString (paragraph text) "text" = .ok text := by
  have given : get (paragraph text) "text" = .string text := by
    simp [paragraph, Lib.Json.get, List.lookup_cons]
  rw [requiredString, given]
  exact if_neg some_

theorem groups_paragraph {text : String} (spoken : strip text ≠ "") :
    groupBlocks [] [] [Json.object (paragraph text)] = .ok [([], [("a", strip text)])] := by
  have some_ : text ≠ "" := by
    intro blank
    rw [blank] at spoken
    exact spoken (by simp [strip, trim])
  have anchor : requiredString (paragraph text) "anchor_id" = .ok "a" := by
    simp [requiredString, paragraph, Lib.Json.get]
  have kind : get (paragraph text) "kind" = .string "paragraph" := by
    simp [paragraph, Lib.Json.get, List.lookup_cons]
  simp [groupBlocks, requiredString_paragraph some_, spoken, anchor, kind, bind, Except.bind]

theorem chunks_paragraph {text : String} (spoken : strip text ≠ "") :
    structuralChunksFromManifest (paragraphManifest text) =
      .ok (chunksForGroup "c" [] [("a", strip text)] 0) := by
  simp [structuralChunksFromManifest, checksum_paragraph, blocks_paragraph,
    groups_paragraph spoken, bind, Except.bind, chunksForGroups]

def longText (count : Nat) : String :=
  String.ofList (List.replicate count ['w', ' ']).flatten

theorem words_longText (count : Nat) :
    words (strip (longText count)).toList = List.replicate count ['w'] := by
  rw [longText, words_strip]
  induction count with
  | zero => rfl
  | succ count ih =>
      have first := words_append_cons ['w'] (List.replicate count ['w', ' ']).flatten
        (show isWhitespace ' ' = true from rfl)
      rw [List.replicate_succ, List.flatten_cons, List.replicate_succ, ← ih]
      exact first

/-- The tokens are copies of one word of the paragraph. -/
theorem chunkFromTokens_repeated {tokens : List (String × List Char)} (some_ : tokens ≠ [])
    (repeated : ∀ token ∈ tokens, token = ("a", ['w'])) (ordinal startToken : Nat) :
    let chunk := chunkFromTokens "c" [] tokens ordinal startToken
    chunk.chunkId = chunkId "c" ["a"] startToken ∧ chunk.anchorIds = ["a"] ∧
      ∃ rest, chunk.text.toList = 'w' :: rest := by
  cases tokens with
  | nil => exact absurd rfl some_
  | cons token rest =>
      have first := repeated token List.mem_cons_self
      have others : (rest.map (·.1)).filter (fun other => !other == "a") = [] := by
        rw [List.filter_eq_nil_iff]
        intro anchorId member
        obtain ⟨other, inside, rfl⟩ := List.mem_map.mp member
        rw [repeated other (List.mem_cons_of_mem token inside)]
        decide
      have anchors : ((token :: rest).map (·.1)).eraseDups = ["a"] := by
        rw [List.map_cons, List.eraseDups_cons, first, others, List.eraseDups_nil]
      refine ⟨congrArg (fun anchorIds => chunkId "c" anchorIds startToken) anchors, anchors, ?_⟩
      simp only [chunkFromTokens, first]
      cases rest with
      | nil => exact ⟨[], rfl⟩
      | cons other rest =>
          rw [List.map_cons, List.map_cons, String.intercalate_cons_cons, String.toList_append,
            String.toList_append]
          exact ⟨_, rfl⟩

/-- A long text makes two chunks that both cite its paragraph. -/
theorem chunks_longText {count : Nat} (long : maxChunkTokens < count) :
    ∃ chunks first second,
      structuralChunksFromManifest (paragraphManifest (longText count)) = .ok chunks ∧
        first ∈ chunks ∧ second ∈ chunks ∧ first.chunkId = chunkId "c" ["a"] 0 ∧
          second.chunkId = chunkId "c" ["a"] 900 ∧ first.anchorIds = ["a"] ∧
            second.anchorIds = ["a"] ∧ (∃ rest, first.text.toList = 'w' :: rest) ∧
              ∃ rest, second.text.toList = 'w' :: rest := by
  have spoken : strip (longText count) ≠ "" := by
    intro blank
    have silent := congrArg List.length (words_longText count)
    rw [blank, List.length_replicate] at silent
    exact absurd (silent ▸ long) (Nat.not_lt_zero _)
  have many : ¬ (words (strip (longText count)).toList).length ≤ maxChunkTokens := by
    rw [words_longText, List.length_replicate]
    omega
  obtain ⟨extra, rfl⟩ := Nat.exists_eq_add_of_lt long
  let full := List.replicate maxChunkTokens ("a", ['w'])
  have tokens : groupTokens [("a", strip (longText (maxChunkTokens + extra + 1)))] =
      full ++ ("a", ['w']) :: List.replicate extra ("a", ['w']) := by
    rw [groupTokens, List.flatMap_cons, List.flatMap_nil, words_longText, List.map_replicate,
      List.append_nil, Nat.add_assoc, List.replicate_add, List.replicate_succ]
  obtain ⟨more, later, cut⟩ := @windows_overlap full (List.replicate extra ("a", ['w']))
    ("a", ['w']) List.length_replicate
  have repeated {window : List (String × List Char)} {place : Nat}
      (member : (window, place) ∈ windows [] 0 (full ++ ("a", ['w']) ::
        List.replicate extra ("a", ['w']))) : ∀ token ∈ window, token = ("a", ['w']) := by
    intro token inside
    have held := mem_windows member inside
    simp only [full, List.nil_append, List.mem_append, List.mem_cons, List.mem_replicate] at held
    grind
  have cuts : (full, 0) ∈ windows [] 0 (full ++ ("a", ['w']) ::
      List.replicate extra ("a", ['w'])) ∧ (full.drop 900 ++ ("a", ['w']) :: more, 900) ∈
        windows [] 0 (full ++ ("a", ['w']) :: List.replicate extra ("a", ['w'])) := by
    rw [cut]
    simp
  have made : chunksForGroup "c" [] [("a", strip (longText (maxChunkTokens + extra + 1)))] 0 =
      ((full, 0) :: (full.drop 900 ++ ("a", ['w']) :: more, 900) :: later).zipIdx.map fun window =>
        chunkFromTokens "c" [] window.1.1 (0 + window.2) window.1.2 := by
    rw [chunksForGroup, List.map_singleton, String.intercalate_singleton, if_neg many, tokens, cut]
  have first := chunkFromTokens_repeated (List.cons_ne_nil _ _) (repeated cuts.1) 0 0
  have second := chunkFromTokens_repeated (List.append_ne_nil_of_right_ne_nil _
    (List.cons_ne_nil _ _)) (repeated cuts.2) 1 900
  refine ⟨_, _, _, chunks_paragraph spoken, ?_, ?_, first.1, second.1, first.2.1, second.2.1,
    first.2.2, second.2.2⟩
  · rw [made, List.zipIdx_cons, List.map_cons]
    exact List.mem_cons_self
  · rw [made, List.zipIdx_cons, List.zipIdx_cons, List.map_cons, List.map_cons]
    exact List.mem_cons_of_mem _ List.mem_cons_self

/-- A text that begins with a visible character has a preview. -/
theorem materialText_take {text : List Char} {c : Char} (visible : isWhitespace c = false)
    (begins : ∃ rest, text = c :: rest) :
    materialText (String.ofList (text.take 500)) = true := by
  obtain ⟨rest, rfl⟩ := begins
  simp only [materialText, decide_eq_true_eq]
  intro blank
  have spoken := @words_ne_nil ((c :: rest).take 500) c List.mem_cons_self visible
  rw [← words_strip, blank] at spoken
  exact spoken rfl

theorem not_alwaysUsable : ¬ AlwaysUsable := by
  intro always
  obtain ⟨chunks, first, second, made, here, there, idOne, idTwo, anchorsOne, anchorsTwo, textOne,
    textTwo⟩ := @chunks_longText 1001 (by decide)
  let result := toResult (Uuid.ofNat 1) "c"
  have apart : chunkId "c" ["a"] 0 ≠ chunkId "c" ["a"] 900 := by decide +kernel
  have cited : citings [result first, result second] =
      [("a", ⟨Uuid.ofNat 1, "c", "c"⟩), ("a", ⟨Uuid.ofNat 1, "c", "c"⟩)] := by
    simp [citings, result, toResult, SearchResult.source, anchorsOne, anchorsTwo]
  have unshared : Unshared [result first, result second] "a" := by
    rw [Unshared, cited]
    simp
  have previews : ∀ shown ∈ [result first, result second],
      materialText shown.contentPreview = true := by
    simp only [List.mem_cons, List.not_mem_nil, or_false, forall_eq_or_imp, forall_eq]
    exact ⟨materialText_take rfl textOne, materialText_take rfl textTwo⟩
  have indexed : ∀ shown ∈ [result first, result second], shown.Indexed := by
    simp only [List.mem_cons, List.not_mem_nil, or_false, forall_eq_or_imp, forall_eq]
    exact ⟨⟨_, _, chunks, first, "c", made, checksum_paragraph _, here, rfl⟩,
      ⟨_, _, chunks, second, "c", made, checksum_paragraph _, there, rfl⟩⟩
  have distinct : ([result first, result second].map (·.citation.chunkId)).Nodup := by
    simp [result, toResult, idOne, idTwo, apart]
  have accepted := always _ indexed distinct previews ⟨"a", unshared⟩
  have once := nodup_anchors_iff.mp
    ((validEvidence_iff agrees_evidenceFromSearch).mp accepted).2.2 "a" unshared
  simp [result, toResult, anchorsOne, anchorsTwo] at once

end AgreementIntelligence.Evidence
