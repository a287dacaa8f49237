import AgreementIntelligence.Comparisons.Alignment
import AgreementIntelligence.Evidence.Sections
import AgreementIntelligence.Lib.Dict

/-! The canonical elements of an analysed document. The comparison of versions and the retrieval
index read one manifest with two loops; on a well-formed manifest the elements of the one are the
groups of the other. -/

namespace AgreementIntelligence.Comparisons
open Lib Lib.Text Lib.Words Lib.Json Lib.Results Evidence

variable {φ : Type}

/-! What is read of the manifest -/

/-- The mappings of a list; other values are left out. -/
def mappings : List (Json φ) → List (List (String × Json φ))
  | [] => []
  | .object fields :: rest => fields :: mappings rest
  | _ :: rest => mappings rest

theorem mappings_append (values others : List (Json φ)) :
    mappings (values ++ others) = mappings values ++ mappings others := by
  induction values with
  | nil => rfl
  | cons value rest ih => cases value <;> simp [mappings, ih]

def pageMappings : List (Json φ) → Except String (List (List (String × Json φ)))
  | [] => .ok []
  | .object page :: rest =>
    match get page "blocks" with
    | .array blocks => do
      let others ← pageMappings rest
      .ok (mappings blocks ++ others)
    | _ => .error "Canonical analysis artifact has malformed page blocks"
  | _ :: _ => .error "Canonical analysis artifact has malformed page blocks"

/-- `_blocks_from_manifest` -/
def blocksFromManifest (manifest : List (String × Json φ)) :
    Except String (List (List (String × Json φ))) :=
  match get manifest "document" with
  | .object document =>
    match get document "pages" with
    | .array pages => pageMappings pages
    | _ => .error "Canonical analysis artifact has no document pages"
  | _ => .error "Canonical analysis artifact has no document pages"

/-- The anchors that a clause gives its category to. -/
def clauseAnchors : Json φ → List (String × String)
  | .object clause =>
    match get clause "category", get clause "citation_anchor_ids" with
    | .string category, .array anchors => anchors.filterMap fun anchor =>
      match anchor with
      | .string anchorId => some (anchorId, category)
      | _ => none
    | _, _ => []
  | _ => []

/-- `_clause_types_by_anchor` -/
def clauseTypesByAnchor (manifest : List (String × Json φ)) : List (String × String) :=
  match get manifest "clauses" with
  | .array clauses =>
    (clauses.flatMap clauseAnchors).foldl (fun types item => Dict.set types item.1 item.2) []
  | _ => []

/-- `_clause_type` -/
def clauseTypeOf (anchorIds : List String) (byAnchor : List (String × String)) : Option String :=
  match (anchorIds.filterMap (Dict.get? byAnchor)).eraseDups with
  | [category] => some category
  | _ => none

/-! The loop -/

/-- `CanonicalElement(…)` with its `__post_init__` -/
def CanonicalElement.new (elementId : String) (ordinal : ℕ) (headingPath : List String)
    (clauseType : Option String) (text : String) (citationAnchorIds : List String) :
    Except String CanonicalElement :=
  if named : elementId ≠ "" then
    if spoken : strip text ≠ "" then
      if cited : citationAnchorIds ≠ [] then
        .ok ⟨elementId, ordinal, headingPath, clauseType, text, citationAnchorIds, named, spoken,
          cited⟩
      else .error "Canonical element requires at least one citation anchor"
    else .error "Canonical element text is required"
  else .error "Canonical element id is required"

/-- `CanonicalVersion(…)` with its `__post_init__` -/
def CanonicalVersion.new (sourceChecksum : String) (elements : List CanonicalElement) :
    Except String CanonicalVersion :=
  if checked : sourceChecksum ≠ "" then
    if ordered : (elements.map (·.ordinal)).Nodup then
      .ok ⟨sourceChecksum, elements, checked, ordered⟩
    else .error "Canonical version element ordinals must be unique"
  else .error "Canonical version source checksum is required"

/-- The variables of `canonical_version_from_manifest`. -/
structure Sectioning where
  elements : List CanonicalElement
  headingPath : List String
  currentEntries : List (String × String)

section Loop
variable (checksum : String) (byAnchor : List (String × String))

def flush (state : Sectioning) : Except String Sectioning :=
  if state.currentEntries = [] then .ok state
  else do
    let anchorIds := state.currentEntries.map (·.1)
    let element ← CanonicalElement.new
      ("section-" ++ String.ofList (checksum.toList.take 16) ++ "-" ++
        toString state.elements.length)
      state.elements.length state.headingPath (clauseTypeOf anchorIds byAnchor)
      ("\n".intercalate (state.currentEntries.map (·.2))) anchorIds
    .ok { state with elements := state.elements ++ [element], currentEntries := [] }

/-- A heading closes the section before it and extends the heading path. -/
def openSection (state : Sectioning) (entry : Entry) : Except String Sectioning :=
  if entry.heading then do
    let flushed ← flush checksum byAnchor state
    .ok { flushed with headingPath := flushed.headingPath ++ [entry.text] }
  else .ok state

/-- The body of the loop, for a block that is not blank. -/
def sectionEntry (state : Sectioning) (entry : Entry) : Except String Sectioning := do
  let opened ← openSection checksum byAnchor state entry
  .ok { opened with currentEntries := opened.currentEntries ++ [entry.pair] }

/-- The loop over the blocks. -/
def sectionBlocks (state : Sectioning) :
    List (List (String × Json φ)) → Except String Sectioning
  | [] => .ok state
  | block :: rest => do
    let raw ← requiredString block "text"
    if strip raw = "" then sectionBlocks state rest
    else
      let anchorId ← requiredString block "anchor_id"
      let next ← sectionEntry checksum byAnchor state ⟨isHeading block, anchorId, strip raw⟩
      sectionBlocks next rest

end Loop

def canonicalVersionFromManifest (manifest : List (String × Json φ)) :
    Except String CanonicalVersion := do
  let checksum ← sourceChecksum manifest
  let found ← blocksFromManifest manifest
  let byAnchor := clauseTypesByAnchor manifest
  let read ← sectionBlocks checksum byAnchor ⟨[], [], []⟩ found
  let state ← flush checksum byAnchor read
  CanonicalVersion.new checksum state.elements

/-! Both loops read the same entries -/

/-- A manifest as the analysis writes it: a source with a checksum, and pages of blocks each of
which is a mapping with a text and an anchor. -/
structure WellFormed (manifest : List (String × Json φ)) : Prop where
  source : ∃ checksum, sourceChecksum manifest = .ok checksum
  pages : ∃ found, blocks manifest = .ok found ∧ ∀ block ∈ found, ∃ fields, block = .object fields ∧
    (∃ text, requiredString fields "text" = .ok text) ∧
      ∃ anchorId, requiredString fields "anchor_id" = .ok anchorId

/-- The two readers of the pages return the same mappings, where there is nothing else. -/
theorem pageMappings_of_pageBlocks {pages : List (Json φ)} {found : List (Json φ)}
    (listed : pageBlocks pages = .ok found) : pageMappings pages = .ok (mappings found) := by
  induction pages generalizing found with
  | nil =>
      cases listed
      rfl
  | cons page rest ih =>
      cases page with
      | object page =>
          rw [pageBlocks] at listed
          cases here : get page "blocks" with
          | array blocks =>
              rw [here] at listed
              obtain ⟨others, later, same⟩ := bind_ok.mp listed
              cases same
              rw [pageMappings, here]
              refine bind_ok.mpr ⟨_, ih later, ?_⟩
              rw [mappings_append]
          | _ => simp [here] at listed
      | _ => cases listed

theorem blocksFromManifest_of_blocks {manifest : List (String × Json φ)} {found : List (Json φ)}
    (listed : blocks manifest = .ok found) :
    blocksFromManifest manifest = .ok (mappings found) := by
  rw [blocks] at listed
  cases here : get manifest "document" with
  | object document =>
      rw [here] at listed
      dsimp only at listed
      cases there : get document "pages" with
      | array pages =>
          rw [there] at listed
          rw [blocksFromManifest, here]
          dsimp only
          rw [there]
          exact pageMappings_of_pageBlocks listed
      | _ => simp [there] at listed
  | _ => simp [here] at listed

theorem strip_strip_ne_empty {value : String} (spoken : strip value ≠ "") :
    strip (strip value) ≠ "" := by
  obtain ⟨c, member, visible⟩ := strip_ne_empty_iff.mp spoken
  obtain ⟨before, after, leading, trailing, parts⟩ := exists_strip value.toList
  rw [String.ofList_toList] at parts
  rw [parts, List.mem_append, List.mem_append] at member
  refine strip_ne_empty_iff.mpr ⟨c, ?_, visible⟩
  rcases member with (before | inside) | after
  · simp [leading c before] at visible
  · exact inside
  · simp [trailing c after] at visible

/-- Every entry has a text that is not blank. -/
theorem readEntries_spoken {found : List (Json φ)} {entries : List Entry}
    (read : readEntries found = .ok entries) : ∀ entry ∈ entries, strip entry.text ≠ "" := by
  induction found generalizing entries with
  | nil =>
      cases read
      simp
  | cons block rest ih =>
      cases block with
      | object fields =>
          rw [readEntries] at read
          obtain ⟨raw, spoken, read⟩ := bind_ok.mp read
          split at read
          · exact ih read
          · rename_i visible
            obtain ⟨anchorId, cited, read⟩ := bind_ok.mp read
            obtain ⟨others, later, same⟩ := bind_ok.mp read
            cases same
            exact List.forall_mem_cons.mpr ⟨strip_strip_ne_empty visible, ih later⟩
      | _ => cases read

/-- Blocks that are well formed are read without an error. -/
theorem readEntries_of_wellFormed {found : List (Json φ)}
    (formed : ∀ block ∈ found, ∃ fields, block = .object fields ∧
      (∃ text, requiredString fields "text" = .ok text) ∧
        ∃ anchorId, requiredString fields "anchor_id" = .ok anchorId) :
    ∃ entries, readEntries found = .ok entries := by
  induction found with
  | nil => exact ⟨[], rfl⟩
  | cons block rest ih =>
      obtain ⟨⟨fields, rfl, ⟨text, spoken⟩, anchorId, cited⟩, others⟩ := List.forall_mem_cons.mp formed
      obtain ⟨entries, read⟩ := ih others
      by_cases blank : strip text = ""
      · exact ⟨entries, by rw [readEntries, spoken]; exact (if_pos blank).trans read⟩
      · refine ⟨⟨isHeading fields, anchorId, strip text⟩ :: entries, ?_⟩
        rw [readEntries, spoken]
        refine (if_neg blank).trans ?_
        rw [cited, read]
        rfl

theorem requiredString_ne_empty {value : List (String × Json φ)} {key text : String}
    (returned : requiredString value key = .ok text) : text ≠ "" := by
  rw [requiredString] at returned
  split at returned
  · split at returned
    · cases returned
    · cases returned
      assumption
  · cases returned

theorem sourceChecksum_ne_empty {manifest : List (String × Json φ)} {checksum : String}
    (source : sourceChecksum manifest = .ok checksum) : checksum ≠ "" := by
  rw [sourceChecksum] at source
  split at source
  · exact requiredString_ne_empty source
  · cases source

section Loop
variable (checksum : String) (byAnchor : List (String × String))

/-- The loop takes up the entries that reading the blocks returns. -/
theorem sectionBlocks_eq {found : List (Json φ)} {entries : List Entry}
    (read : readEntries found = .ok entries) (state : Sectioning) :
    sectionBlocks checksum byAnchor state (mappings found) =
      entries.foldlM (sectionEntry checksum byAnchor) state := by
  induction found generalizing entries state with
  | nil =>
      cases read
      rfl
  | cons block rest ih =>
      cases block with
      | object fields =>
          rw [readEntries] at read
          obtain ⟨raw, spoken, read⟩ := bind_ok.mp read
          rw [mappings, sectionBlocks, spoken]
          change (if strip raw = "" then _ else _) = _
          split at read
          · rename_i blank
            rw [if_pos blank, ih read]
          · rename_i visible
            obtain ⟨anchorId, cited, read⟩ := bind_ok.mp read
            obtain ⟨others, later, same⟩ := bind_ok.mp read
            cases same
            rw [if_neg visible, cited, List.foldlM_cons]
            change (sectionEntry checksum byAnchor state _).bind _ = _
            refine congrArg (Except.bind _) ?_
            funext next
            exact ih later next
      | _ => cases read

end Loop

/-! The state of the one loop is the state of the other -/

/-- What a group and an element have in common: a heading path, anchors and a joined text. -/
abbrev SectionView := List String × List String × String

def groupView (group : Group) : SectionView :=
  (group.1, group.2.map (·.1), "\n".intercalate (group.2.map (·.2)))

def CanonicalElement.view (element : CanonicalElement) : SectionView :=
  (element.headingPath, element.citationAnchorIds, element.text)

/-- The group that the next flush closes. -/
def pending (state : Sectioning) : List Group :=
  if state.currentEntries = [] then [] else [(state.headingPath, state.currentEntries)]

/-- The elements and the pending entries of the one loop are the groups of the other. -/
structure Simulates (state : Sectioning) (grouping : List String × List Group) : Prop where
  path : state.headingPath = grouping.1
  closed : ∃ closed, state.elements.map (·.view) = closed.map groupView ∧
    grouping.2 = closed ++ pending state
  ordinals : state.elements.map (·.ordinal) = List.range state.elements.length
  spoken : ∀ entry ∈ state.currentEntries, strip entry.2 ≠ ""
  begun : state.currentEntries = [] → state.elements = []

theorem CanonicalElement.new_ok {elementId : String} {ordinal : ℕ} {headingPath : List String}
    {clauseType : Option String} {text : String} {citationAnchorIds : List String}
    (named : elementId ≠ "") (spoken : strip text ≠ "") (cited : citationAnchorIds ≠ []) :
    CanonicalElement.new elementId ordinal headingPath clauseType text citationAnchorIds =
      .ok ⟨elementId, ordinal, headingPath, clauseType, text, citationAnchorIds, named, spoken,
        cited⟩ := by
  rw [CanonicalElement.new, dif_pos named, dif_pos spoken, dif_pos cited]

theorem joined_spoken {entries : List (String × String)} (some_ : entries ≠ [])
    (spoken : ∀ entry ∈ entries, strip entry.2 ≠ "") :
    strip ("\n".intercalate (entries.map (·.2))) ≠ "" := by
  cases entries with
  | nil => exact absurd rfl some_
  | cons first rest =>
      have here := spoken first List.mem_cons_self
      cases rest with
      | nil => simpa using here
      | cons next later =>
          rw [List.map_cons, List.map_cons, String.intercalate_cons_cons]
          rw [String.append_assoc]
          exact strip_append_ne_empty here _

section Loop
variable (checksum : String) (byAnchor : List (String × String)) {state : Sectioning}
  {grouping : List String × List Group}

/-- A flush closes the pending group, and nothing else changes. -/
theorem flush_simulates (simulates : Simulates state grouping) :
    ∃ next, flush checksum byAnchor state = .ok next ∧ next.headingPath = state.headingPath ∧
      next.currentEntries = [] ∧ next.elements.map (·.view) = grouping.2.map groupView ∧
        next.elements.map (·.ordinal) = List.range next.elements.length := by
  obtain ⟨closed, same, groups⟩ := simulates.closed
  by_cases none : state.currentEntries = []
  · refine ⟨state, if_pos none, rfl, none, ?_, simulates.ordinals⟩
    rw [groups, pending, if_pos none, List.append_nil, same]
  · have named : "section-" ++ String.ofList (checksum.toList.take 16) ++ "-" ++
        toString state.elements.length ≠ "" := by
      intro empty
      have chars := congrArg String.toList empty
      simp at chars
    have spoken := joined_spoken none simulates.spoken
    have cited : state.currentEntries.map (·.1) ≠ [] := by simpa using none
    refine ⟨_, (if_neg none).trans
      (bind_ok.mpr ⟨_, CanonicalElement.new_ok named spoken cited, rfl⟩), rfl, rfl, ?_, ?_⟩
    · rw [groups, pending, if_neg none, List.map_append, List.map_append, same]
      rfl
    · rw [List.map_append, simulates.ordinals, List.length_append, List.length_singleton,
        List.range_succ]
      rfl

/-- One entry is taken up by both loops alike. -/
theorem sectionEntry_simulates (simulates : Simulates state grouping) {entry : Entry}
    (visible : strip entry.text ≠ "") :
    ∃ next, sectionEntry checksum byAnchor state entry = .ok next ∧
      Simulates next (groupEntry grouping entry) := by
  obtain ⟨closed, same, groups⟩ := simulates.closed
  cases opens : entry.heading with
  | true =>
      obtain ⟨flushed, returned, path, none, views, ordinals⟩ :=
        flush_simulates checksum byAnchor simulates
      refine ⟨_, bind_ok.mpr ⟨_, (if_pos opens).trans (bind_ok.mpr ⟨_, returned, rfl⟩), rfl⟩, ?_⟩
      rw [groupEntry, if_pos opens]
      refine
        { path := by rw [path, simulates.path]
          closed := ⟨grouping.2, views, ?_⟩
          ordinals := ordinals
          spoken := ?_
          begun := ?_ }
      · simp [pending, none, path, simulates.path]
      · simpa [none, Entry.pair] using visible
      · simp
  | false =>
      have closes : ¬ entry.heading = true := by simp [opens]
      have spoken : ∀ pair ∈ state.currentEntries ++ [entry.pair], strip pair.2 ≠ "" := by
        intro pair member
        rcases List.mem_append.mp member with old | new
        · exact simulates.spoken pair old
        · rw [List.mem_singleton.mp new]
          exact visible
      refine ⟨_, bind_ok.mpr ⟨_, if_neg closes, rfl⟩, ?_⟩
      rw [groupEntry, if_neg closes]
      by_cases none : state.currentEntries = []
      · have nothing : closed = [] := by
          have elements := simulates.begun none
          rw [elements] at same
          simpa using same.symm
        have first : grouping.2 = [] := by rw [groups, nothing, pending, if_pos none]; rfl
        rw [if_neg (not_not_intro first)]
        refine
          { path := simulates.path
            closed := ⟨[], by rw [simulates.begun none]; rfl, ?_⟩
            ordinals := simulates.ordinals
            spoken := spoken
            begun := by simp }
        simp [pending, none, simulates.path]
      · have later : grouping.2 ≠ [] := by simp [groups, pending, none]
        rw [if_pos later]
        refine
          { path := simulates.path
            closed := ⟨closed, same, ?_⟩
            ordinals := simulates.ordinals
            spoken := spoken
            begun := by simp }
        rw [groups, pending, if_neg none, appendToLast_append_one]
        simp [pending]

theorem foldlM_simulates {entries : List Entry} (visible : ∀ entry ∈ entries, strip entry.text ≠ "")
    (simulates : Simulates state grouping) :
    ∃ next, entries.foldlM (sectionEntry checksum byAnchor) state = .ok next ∧
      Simulates next (entries.foldl groupEntry grouping) := by
  induction entries generalizing state grouping with
  | nil => exact ⟨state, rfl, simulates⟩
  | cons entry rest ih =>
      obtain ⟨here, others⟩ := List.forall_mem_cons.mp visible
      obtain ⟨next, step, grows⟩ := sectionEntry_simulates checksum byAnchor simulates here
      obtain ⟨last, run, ends⟩ := ih others grows
      exact ⟨last, bind_ok.mpr ⟨next, step, run⟩, ends⟩

end Loop

theorem simulates_nil : Simulates ⟨[], [], []⟩ ([], []) where
  path := rfl
  closed := ⟨[], rfl, rfl⟩
  ordinals := rfl
  spoken := by simp
  begun := fun _ => rfl

/-- The elements of the canonical version are the groups that chunking forms, one for one and in
order. -/
def SameSections (manifest : List (String × Json φ)) : Prop :=
  ∃ checksum found groups version, blocks manifest = .ok found ∧
    groupBlocks [] [] found = .ok groups ∧
    structuralChunksFromManifest manifest = .ok (chunksForGroups checksum [] groups) ∧
    canonicalVersionFromManifest manifest = .ok version ∧
    version.elements.map (fun element =>
      (element.headingPath, element.citationAnchorIds, element.text)) =
        groups.map (fun group =>
          (group.1, group.2.map (·.1), "\n".intercalate (group.2.map (·.2)))) ∧
    version.elements.map (·.ordinal) = List.range groups.length

theorem canonicalVersion_sections {manifest : List (String × Json φ)}
    (formed : WellFormed manifest) : SameSections manifest := by
  obtain ⟨checksum, source⟩ := formed.source
  obtain ⟨found, listed, blocks⟩ := formed.pages
  obtain ⟨entries, read⟩ := readEntries_of_wellFormed blocks
  obtain ⟨last, run, ends⟩ := foldlM_simulates checksum (clauseTypesByAnchor manifest)
    (readEntries_spoken read) simulates_nil
  obtain ⟨state, flushed, -, -, views, ordinals⟩ :=
    flush_simulates checksum (clauseTypesByAnchor manifest) ends
  have checked := sourceChecksum_ne_empty source
  have ordered : (state.elements.map (·.ordinal)).Nodup := by
    rw [ordinals]
    exact List.nodup_range
  have grouped : groupBlocks [] [] found = .ok (entries.foldl groupEntry ([], [])).2 := by
    rw [groupBlocks_eq, read]
    rfl
  refine ⟨checksum, found, _, ⟨checksum, state.elements, checked, ordered⟩, listed, grouped, ?_, ?_,
    views, ?_⟩
  · exact bind_ok.mpr ⟨_, source, bind_ok.mpr ⟨_, listed, bind_ok.mpr ⟨_, grouped, rfl⟩⟩⟩
  · have looped := sectionBlocks_eq checksum (clauseTypesByAnchor manifest) read ⟨[], [], []⟩
    have new : CanonicalVersion.new checksum state.elements =
        .ok ⟨checksum, state.elements, checked, ordered⟩ := by
      rw [CanonicalVersion.new, dif_pos checked, dif_pos ordered]
    exact bind_ok.mpr ⟨_, source, bind_ok.mpr ⟨_, blocksFromManifest_of_blocks listed,
      bind_ok.mpr ⟨_, looped.trans run, bind_ok.mpr ⟨_, flushed, new⟩⟩⟩⟩
  · have lengths := congrArg List.length views
    rw [List.length_map, List.length_map] at lengths
    rw [ordinals, lengths]

/-- A manifest of one page, with a title, two headings in a row, a blank block and a paragraph. -/
def titledManifest : List (String × Json Empty) :=
  let block (kind anchorId text : String) : Json Empty :=
    .object [("kind", .string kind), ("anchor_id", .string anchorId), ("text", .string text)]
  [("source", .object [("checksum", .string "c0ffee")]),
    ("document", .object [("pages", .array [.object [("blocks", .array
      [block "paragraph" "b1" "Agreement", block "heading" "b2" "Fees",
        block "heading" "b3" "Due dates", block "paragraph" "b4" " ",
        block "paragraph" "b5" " Fees are due. "])]])])]

theorem canonicalVersion_sections_titled : SameSections titledManifest := by
  refine canonicalVersion_sections ⟨⟨"c0ffee", rfl⟩, _, rfl, ?_⟩
  intro block member
  simp only [List.mem_append, List.mem_cons, List.not_mem_nil, or_false] at member
  rcases member with rfl | rfl | rfl | rfl | rfl <;>
    exact ⟨_, rfl, ⟨_, rfl⟩, _, rfl⟩

end AgreementIntelligence.Comparisons
