import AgreementIntelligence.Lib.Sha256
import Mathlib.Data.List.Flatten
import Mathlib.Data.List.Nodup
import Mathlib.Tactic.Common

/-! Pages of a parsed document. A block records where its text begins and ends in the text of its
page, whose blocks stand on lines of their own; its anchor is made of the document, of its place and
of both offsets. -/

namespace AgreementIntelligence.Evidence
open Lib.Sha256

inductive BlockKind where
  | heading
  | paragraph
  | listItem
  | table
deriving DecidableEq

structure DocumentBlock where
  anchorId : String
  kind : BlockKind
  text : String
  startOffset : ℕ
  endOffset : ℕ

structure DocumentPage where
  number : ℕ
  blocks : List DocumentBlock

section Page
variable (sourceChecksum : String)

/-- The text that an anchor id is the digest of. -/
def anchorPayload (pageNumber blockIndex startOffset endOffset : ℕ) : String :=
  ":".intercalate [sourceChecksum, toString pageNumber, toString blockIndex, toString startOffset,
    toString endOffset]

/-- `_anchor_id` -/
def anchorIdOf (payload : String) : String :=
  "citation-" ++ (hexdigest (utf8 payload)).take 24

/-- The loop of `_page_from_items`, from a block and an offset on. -/
def blocksFrom (pageNumber : ℕ) : ℕ → ℕ → List (BlockKind × String) → List DocumentBlock
  | _, _, [] => []
  | blockIndex, offset, (kind, text) :: rest =>
    let endOffset := offset + text.length
    { anchorId := anchorIdOf (anchorPayload sourceChecksum pageNumber blockIndex offset endOffset)
      kind := kind
      text := text
      startOffset := offset
      endOffset := endOffset } :: blocksFrom pageNumber (blockIndex + 1) (endOffset + 1) rest

/-- `_page_from_items` -/
def pageFromItems (pageNumber : ℕ) (items : List (BlockKind × String)) : DocumentPage :=
  ⟨pageNumber, blocksFrom sourceChecksum pageNumber 0 0 items⟩

/-- The pages of a document, which are numbered from one. -/
def documentPages (pages : List (List (BlockKind × String))) : List DocumentPage :=
  (pages.zipIdx 1).map fun page => pageFromItems sourceChecksum page.2 page.1

/-- What the anchor ids of a document are derived from. -/
def anchorPayloads (pages : List DocumentPage) : List String :=
  pages.flatMap fun page => page.blocks.mapIdx fun index block =>
    anchorPayload sourceChecksum page.number index block.startOffset block.endOffset

end Page

/-! Offsets -/

/-- `text[start:end]` -/
def textSlice (text : String) (start stop : ℕ) : String :=
  String.ofList ((text.toList.take stop).drop start)

/-- The texts of the blocks, joined with newlines. -/
def DocumentPage.text (page : DocumentPage) : String :=
  "\n".intercalate (page.blocks.map DocumentBlock.text)

/-- The offsets of the blocks locate their texts, one behind the other. -/
structure Located (page : DocumentPage) : Prop where
  slices : ∀ block ∈ page.blocks, textSlice page.text block.startOffset block.endOffset = block.text
  forward : ∀ block ∈ page.blocks, block.startOffset ≤ block.endOffset
  apart : page.blocks.Pairwise fun block later => block.endOffset < later.startOffset

section Offsets
variable {sourceChecksum : String} {pageNumber : ℕ}

theorem texts_blocksFrom (blockIndex offset : ℕ) (items : List (BlockKind × String)) :
    (blocksFrom sourceChecksum pageNumber blockIndex offset items).map DocumentBlock.text =
      items.map Prod.snd := by
  induction items generalizing blockIndex offset with
  | nil => rfl
  | cons item rest ih => rw [blocksFrom, List.map_cons, ih, List.map_cons]

theorem offset_le_of_blocksFrom {blockIndex offset : ℕ} {items : List (BlockKind × String)}
    {block : DocumentBlock}
    (member : block ∈ blocksFrom sourceChecksum pageNumber blockIndex offset items) :
    offset ≤ block.startOffset ∧ block.startOffset ≤ block.endOffset := by
  induction items generalizing blockIndex offset with
  | nil => cases member
  | cons item rest ih =>
      rw [blocksFrom, List.mem_cons] at member
      rcases member with rfl | later
      · simp
      · have bound := ih later
        omega

theorem apart_blocksFrom (blockIndex offset : ℕ) (items : List (BlockKind × String)) :
    (blocksFrom sourceChecksum pageNumber blockIndex offset items).Pairwise
      fun block later => block.endOffset < later.startOffset := by
  induction items generalizing blockIndex offset with
  | nil => exact .nil
  | cons item rest ih =>
      rw [blocksFrom, List.pairwise_cons]
      refine ⟨fun later member => ?_, ih _ _⟩
      have bound := (offset_le_of_blocksFrom member).1
      exact bound

/-- A block is cut out of any text in which the blocks begin at the offset. -/
theorem textSlice_blocksFrom {blockIndex : ℕ} {items : List (BlockKind × String)} (before : List Char)
    {block : DocumentBlock}
    (member : block ∈ blocksFrom sourceChecksum pageNumber blockIndex before.length items) :
    textSlice (String.ofList (before ++ ("\n".intercalate (items.map Prod.snd)).toList))
      block.startOffset block.endOffset = block.text := by
  induction items generalizing blockIndex before with
  | nil => cases member
  | cons item rest ih =>
      have joined : ∃ after, ("\n".intercalate ((item :: rest).map Prod.snd)).toList =
          item.2.toList ++ after := by
        cases rest with
        | nil => exact ⟨[], by simp⟩
        | cons next others =>
            exact ⟨_, by rw [List.map_cons, String.intercalate_cons_of_ne_nil (by simp),
              String.append_assoc, String.toList_append]⟩
      rw [blocksFrom, List.mem_cons] at member
      rcases member with rfl | later
      · obtain ⟨after, parts⟩ := joined
        have length : (before ++ item.2.toList).length = before.length + item.2.length := by
          rw [List.length_append, String.length_toList]
        rw [textSlice, String.toList_ofList, parts, ← List.append_assoc,
          List.take_left' length, List.drop_left, String.ofList_toList]
      · have some_ : rest ≠ [] := by
          rintro rfl
          cases later
        have whole : before ++ ("\n".intercalate ((item :: rest).map Prod.snd)).toList =
            (before ++ item.2.toList ++ ['\n']) ++
              ("\n".intercalate (rest.map Prod.snd)).toList := by
          rw [List.map_cons, String.intercalate_cons_of_ne_nil (by simpa using some_)]
          simp
        have length : (before ++ item.2.toList ++ ['\n']).length =
            before.length + item.2.length + 1 := by
          rw [List.length_append, List.length_append, String.length_toList, List.length_singleton]
        rw [whole]
        exact ih _ (length ▸ later)

end Offsets

theorem located_pageFromItems (sourceChecksum : String) (pageNumber : ℕ)
    (items : List (BlockKind × String)) : Located (pageFromItems sourceChecksum pageNumber items) where
  slices := by
    intro block member
    have cut := textSlice_blocksFrom [] member
    rw [List.nil_append, String.ofList_toList] at cut
    rwa [DocumentPage.text, pageFromItems, texts_blocksFrom]
  forward := fun _ member => (offset_le_of_blocksFrom member).2
  apart := apart_blocksFrom 0 0 items

/-! Anchors -/

theorem colon_unread (n : ℕ) : ':' ∉ (toString n).toList := by
  intro member
  rw [Nat.toString_eq_repr, Nat.toList_repr] at member
  have digit := Nat.isDigit_of_mem_toDigits (by decide) (by decide) member
  cases digit

theorem toString_injective {m n : ℕ} (same : (toString m).toList = (toString n).toList) : m = n := by
  rw [Nat.toString_eq_repr, Nat.toString_eq_repr, Nat.toList_repr, Nat.toList_repr] at same
  rw [← @Nat.ofDigitChars_ten_toDigits m, same, Nat.ofDigitChars_ten_toDigits]

/-- A list is told from what follows the first entry that it lacks. -/
theorem unread_cons_inj {α : Type} {x : α} {xs ys rest others : List α} (first : x ∉ xs)
    (second : x ∉ ys) (same : xs ++ x :: rest = ys ++ x :: others) : xs = ys ∧ rest = others := by
  induction xs generalizing ys with
  | nil =>
      cases ys with
      | nil => simpa using same
      | cons y ys =>
          rw [List.nil_append, List.cons_append, List.cons.injEq] at same
          simp [same.1] at second
  | cons c xs ih =>
      cases ys with
      | nil =>
          rw [List.nil_append, List.cons_append, List.cons.injEq] at same
          simp [same.1] at first
      | cons y ys =>
          rw [List.cons_append, List.cons_append, List.cons.injEq] at same
          rw [List.mem_cons, not_or] at first second
          have later := ih first.2 second.2 same.2
          exact ⟨by rw [same.1, later.1], later.2⟩

/-- A number up to its colon can be told. -/
theorem number_colon_inj {m n : ℕ} {rest others : List Char}
    (same : (toString m).toList ++ ':' :: rest = (toString n).toList ++ ':' :: others) :
    m = n ∧ rest = others := by
  have parts := unread_cons_inj (colon_unread m) (colon_unread n) same
  exact ⟨toString_injective parts.1, parts.2⟩

theorem anchorPayload_inj {sourceChecksum : String} {m n i j s t e f : ℕ}
    (same : anchorPayload sourceChecksum m i s e = anchorPayload sourceChecksum n j t f) :
    m = n ∧ i = j := by
  have parts (m i s e : ℕ) : (anchorPayload sourceChecksum m i s e).toList =
      sourceChecksum.toList ++ ':' :: ((toString m).toList ++ ':' :: ((toString i).toList ++
        ':' :: ((toString s).toList ++ ':' :: (toString e).toList))) := by
    simp [anchorPayload, String.intercalate_cons_cons]
  have texts := congrArg String.toList same
  rw [parts, parts, List.append_cancel_left_eq, List.cons.injEq] at texts
  obtain ⟨page, later⟩ := number_colon_inj texts.2
  exact ⟨page, (number_colon_inj later).1⟩

section Document
variable (sourceChecksum : String)

/-- A payload of a page begins with the number of the page, and no two of its blocks share one. -/
theorem nodup_payloads_page (page : DocumentPage) :
    (page.blocks.mapIdx fun index block =>
      anchorPayload sourceChecksum page.number index block.startOffset block.endOffset).Nodup := by
  rw [List.nodup_iff_injective_get]
  intro i j same
  rw [List.get_eq_getElem, List.get_eq_getElem, List.getElem_mapIdx, List.getElem_mapIdx] at same
  exact Fin.ext (anchorPayload_inj same).2

theorem nodup_anchorPayloads {pages : List DocumentPage}
    (numbered : pages.Pairwise fun page later => page.number ≠ later.number) :
    (anchorPayloads sourceChecksum pages).Nodup := by
  rw [anchorPayloads, List.nodup_flatMap]
  refine ⟨fun page _ => nodup_payloads_page sourceChecksum page, numbered.imp ?_⟩
  intro page later distinct payload inside outside
  rw [List.mem_mapIdx] at inside outside
  obtain ⟨i, below, rfl⟩ := inside
  obtain ⟨j, above, same⟩ := outside
  exact distinct (anchorPayload_inj same).1.symm

theorem numbered_documentPages (pages : List (List (BlockKind × String))) :
    (documentPages sourceChecksum pages).Pairwise fun page later => page.number ≠ later.number := by
  rw [documentPages, List.pairwise_map, List.pairwise_iff_getElem]
  intro i j below above before
  simp [pageFromItems]
  omega

theorem anchorIds_blocksFrom (pageNumber blockIndex offset : ℕ) (items : List (BlockKind × String)) :
    (blocksFrom sourceChecksum pageNumber blockIndex offset items).map DocumentBlock.anchorId =
      (blocksFrom sourceChecksum pageNumber blockIndex offset items).mapIdx fun index block =>
        anchorIdOf (anchorPayload sourceChecksum pageNumber (blockIndex + index) block.startOffset
          block.endOffset) := by
  induction items generalizing blockIndex offset with
  | nil => rfl
  | cons item rest ih =>
      rw [blocksFrom, List.map_cons, List.mapIdx_cons, ih]
      simp only [Nat.add_zero, Nat.add_assoc, Nat.add_comm 1]

/-- The ids of the blocks are derived from the payloads of their pages. -/
theorem anchorIds_documentPages (pages : List (List (BlockKind × String))) :
    (documentPages sourceChecksum pages).flatMap
        (fun page => page.blocks.map DocumentBlock.anchorId) =
      (anchorPayloads sourceChecksum (documentPages sourceChecksum pages)).map anchorIdOf := by
  rw [anchorPayloads, List.map_flatMap, documentPages, List.flatMap_map, List.flatMap_map]
  congr 1
  funext page
  simp only [pageFromItems, anchorIds_blocksFrom, Nat.zero_add]
  apply List.ext_getElem <;> simp

/-- Every page of a document locates the texts of its blocks, and no two blocks of the document
share what their anchor ids are derived from. -/
theorem documentPages_locate (pages : List (List (BlockKind × String))) :
    (documentPages sourceChecksum pages).map (fun page => page.blocks.map DocumentBlock.text) =
        pages.map (fun items => items.map Prod.snd) ∧
      (∀ page ∈ documentPages sourceChecksum pages, Located page) ∧
      (documentPages sourceChecksum pages).flatMap
          (fun page => page.blocks.map DocumentBlock.anchorId) =
        (anchorPayloads sourceChecksum (documentPages sourceChecksum pages)).map anchorIdOf ∧
      (anchorPayloads sourceChecksum (documentPages sourceChecksum pages)).Nodup := by
  refine ⟨?_, ?_, anchorIds_documentPages sourceChecksum pages,
    nodup_anchorPayloads sourceChecksum (numbered_documentPages sourceChecksum pages)⟩
  · apply List.ext_getElem
    · simp [documentPages]
    · intro index below above
      simp [documentPages, pageFromItems, texts_blocksFrom]
  · intro page member
    rw [documentPages, List.mem_map] at member
    obtain ⟨numbered, -, rfl⟩ := member
    exact located_pageFromItems sourceChecksum numbered.2 numbered.1

end Document

end AgreementIntelligence.Evidence
