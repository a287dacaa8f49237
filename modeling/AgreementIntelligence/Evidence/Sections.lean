import AgreementIntelligence.Evidence.Chunks
import Mathlib.Data.List.Induction

/-! The sections of an analysed document. A heading opens a section, what stands before the first
heading is a section of its own, and blank blocks are in none. The groups that chunking makes are
the sections of the document with the headings that lead to each of them. -/

namespace AgreementIntelligence.Evidence
open Lib.Text Lib.Json Lib.Results

variable {φ : Type}

/-- A block that is not blank, with its stripped text. -/
structure Entry where
  heading : Bool
  anchorId : String
  text : String
  deriving DecidableEq, Repr

def Entry.pair (entry : Entry) : String × String := (entry.anchorId, entry.text)

/-- `block.get("kind") == "heading"` -/
def isHeading (block : List (String × Json φ)) : Bool :=
  match get block "kind" with
  | .string "heading" => true
  | _ => false

theorem isHeading_iff {block : List (String × Json φ)} :
    isHeading block = true ↔ get block "kind" = .string "heading" := by
  unfold isHeading
  split <;> simp_all

/-- What the loops over the blocks read of them, with the errors that they raise. -/
def readEntries : List (Json φ) → Except String (List Entry)
  | [] => .ok []
  | .object block :: rest => do
    let raw ← requiredString block "text"
    if strip raw = "" then readEntries rest
    else
      let anchorId ← requiredString block "anchor_id"
      let entries ← readEntries rest
      .ok (⟨isHeading block, anchorId, strip raw⟩ :: entries)
  | _ :: _ => .error "AttributeError"

/-- The body of the loop of `structural_chunks_from_manifest`, for a block that is not blank. -/
def groupEntry (state : List String × List Group) (entry : Entry) : List String × List Group :=
  if entry.heading then
    (state.1 ++ [entry.text], state.2 ++ [(state.1 ++ [entry.text], [entry.pair])])
  else if state.2 ≠ [] then (state.1, appendToLast state.2 entry.pair)
  else (state.1, [(state.1, [entry.pair])])

theorem groupBlocks_eq (path : List String) (groups : List Group) (found : List (Json φ)) :
    groupBlocks path groups found =
      (readEntries found).map fun entries => (entries.foldl groupEntry (path, groups)).2 := by
  induction found generalizing path groups with
  | nil => rfl
  | cons first rest ih =>
      cases first with
      | object block =>
          rw [groupBlocks, readEntries]
          cases requiredString block "text" with
          | error message => rfl
          | ok raw =>
              change (if strip raw = "" then _ else _) =
                Except.map _ (if strip raw = "" then _ else _)
              by_cases blank : strip raw = ""
              · rw [if_pos blank, if_pos blank, ih]
              · rw [if_neg blank, if_neg blank]
                cases requiredString block "anchor_id" with
                | error message => rfl
                | ok anchorId =>
                    have later (entry : Entry) (state : List String × List Group)
                        (step : groupEntry (path, groups) entry = state) :
                        groupBlocks state.1 state.2 rest = Except.map
                          (fun entries => (entries.foldl groupEntry (path, groups)).2)
                          ((readEntries rest).bind fun entries => .ok (entry :: entries)) := by
                      rw [ih]
                      cases readEntries rest with
                      | error message => rfl
                      | ok entries => simp [Except.map, Except.bind, step]
                    refine Eq.trans ?_ (later ⟨isHeading block, anchorId, strip raw⟩ _ rfl)
                    change (match get block "kind" with
                      | .string "heading" => _
                      | _ => _) = _
                    split
                    · rename_i kind
                      have opens : isHeading block = true := by simp [isHeading, kind]
                      rw [groupEntry, if_pos opens]
                      rfl
                    · rename_i kind
                      have plain : ¬ isHeading block = true := fun opens =>
                        kind (isHeading_iff.mp opens)
                      rw [groupEntry, if_neg plain]
                      split <;> rfl
      | _ => rfl

/-! Sections -/

/-- The entries in their sections: none is empty, and headings are what opens them. -/
structure IsSections (entries : List Entry) (sections : List (List Entry)) : Prop where
  flatten : sections.flatten = entries
  nonempty : ∀ s ∈ sections, s ≠ []
  inner : ∀ s ∈ sections, ∀ entry ∈ s.tail, entry.heading = false
  outer : ∀ s ∈ sections.tail, ∃ entry ∈ s.head?, entry.heading = true

/-- The texts of the headings among some entries. -/
def headings (entries : List Entry) : List String :=
  (entries.filter (·.heading)).map (·.text)

/-- The sections with the headings before them and their own, as groups. -/
def groupsOf (before : List String) : List (List Entry) → List Group
  | [] => []
  | s :: rest => (before ++ headings s, s.map Entry.pair) :: groupsOf (before ++ headings s) rest

/-! Sections are what the loop makes -/

@[simp] theorem headings_append (entries more : List Entry) :
    headings (entries ++ more) = headings entries ++ headings more := by
  simp [headings]

theorem groupsOf_append_one (before : List String) (sections : List (List Entry))
    (s : List Entry) : groupsOf before (sections ++ [s]) =
      groupsOf before sections ++
        [(before ++ headings sections.flatten ++ headings s, s.map Entry.pair)] := by
  induction sections generalizing before with
  | nil => simp [groupsOf, headings]
  | cons first rest ih => simp [groupsOf, ih]

theorem appendToLast_append_one (groups : List Group) (last : Group) (pair : String × String) :
    appendToLast (groups ++ [last]) pair = groups ++ [(last.1, last.2 ++ [pair])] := by
  simp [appendToLast]

theorem groupsOf_eq_nil_iff {before : List String} {sections : List (List Entry)} :
    groupsOf before sections = [] ↔ sections = [] := by
  cases sections <;> simp [groupsOf]

theorem IsSections.open {entries : List Entry} {sections : List (List Entry)}
    (is : IsSections entries sections) {entry : Entry} (opens : entry.heading = true) :
    IsSections (entries ++ [entry]) (sections ++ [[entry]]) where
  flatten := by simp [is.flatten]
  nonempty s member := by
    rcases List.mem_append.mp member with old | new
    · exact is.nonempty s old
    · rw [List.mem_singleton.mp new]
      simp
  inner s member other behind := by
    rcases List.mem_append.mp member with old | new
    · exact is.inner s old other behind
    · rw [List.mem_singleton.mp new] at behind
      cases behind
  outer s member := by
    cases sections with
    | nil => cases member
    | cons first rest =>
        rw [List.cons_append, List.tail_cons] at member
        rcases List.mem_append.mp member with old | new
        · exact is.outer s old
        · rw [List.mem_singleton.mp new]
          exact ⟨entry, rfl, opens⟩

theorem IsSections.begin {entry : Entry} : IsSections [entry] [[entry]] where
  flatten := rfl
  nonempty := by simp
  inner := by simp
  outer := by simp

theorem IsSections.extend {entries : List Entry} {sections : List (List Entry)} {last : List Entry}
    (is : IsSections entries (sections ++ [last])) {entry : Entry}
    (plain : entry.heading = false) :
    IsSections (entries ++ [entry]) (sections ++ [last ++ [entry]]) := by
  have some_ : last ≠ [] := is.nonempty last (by simp)
  refine
    { flatten := by rw [← is.flatten]; simp
      nonempty := fun s member => ?_
      inner := fun s member other behind => ?_
      outer := fun s member => ?_ }
  · rcases List.mem_append.mp member with old | new
    · exact is.nonempty s (List.mem_append_left _ old)
    · rw [List.mem_singleton.mp new]
      simp
  · rcases List.mem_append.mp member with old | new
    · exact is.inner s (List.mem_append_left _ old) other behind
    · rw [List.mem_singleton.mp new, List.tail_append_of_ne_nil some_] at behind
      rcases List.mem_append.mp behind with before | here
      · exact is.inner last (by simp) other before
      · rw [List.mem_singleton.mp here]
        exact plain
  · cases sections with
    | nil => cases member
    | cons first rest =>
        rw [List.cons_append, List.tail_cons] at member
        rcases List.mem_append.mp member with old | new
        · exact is.outer s (List.mem_append_left _ old)
        · rw [List.mem_singleton.mp new, List.head?_append_of_ne_nil _ some_]
          exact is.outer last (by simp)

/-- The loop keeps the groups of the sections of the entries that it has read. -/
theorem groupEntry_sections {entries : List Entry} {sections : List (List Entry)}
    (is : IsSections entries sections) (entry : Entry) :
    ∃ next, IsSections (entries ++ [entry]) next ∧
      groupEntry (headings entries, groupsOf [] sections) entry =
        (headings (entries ++ [entry]), groupsOf [] next) := by
  cases opens : entry.heading with
  | true =>
      refine ⟨_, is.open opens, ?_⟩
      rw [groupEntry, if_pos opens, groupsOf_append_one, is.flatten]
      simp [headings, opens]
  | false =>
      have closed : ¬ entry.heading = true := by simp [opens]
      have path : headings (entries ++ [entry]) = headings entries := by simp [headings, opens]
      rcases List.eq_nil_or_concat sections with rfl | ⟨earlier, last, rfl⟩
      · have none := is.flatten
        rw [List.flatten_nil] at none
        subst none
        refine ⟨_, .begin, ?_⟩
        simp [groupEntry, groupsOf, opens, headings]
      · rw [List.concat_eq_append] at is ⊢
        have some_ : groupsOf [] (earlier ++ [last]) ≠ [] := by
          simp [groupsOf_eq_nil_iff]
        refine ⟨_, is.extend opens, ?_⟩
        rw [groupEntry, if_neg closed, if_pos some_, path, groupsOf_append_one,
          groupsOf_append_one, appendToLast_append_one]
        simp [headings, opens]

theorem IsSections.nil : IsSections [] [] where
  flatten := rfl
  nonempty := by simp
  inner := by simp
  outer := by simp

theorem foldl_groupEntry (entries : List Entry) : ∃ sections, IsSections entries sections ∧
    entries.foldl groupEntry ([], []) = (headings entries, groupsOf [] sections) := by
  induction entries using List.reverseRecOn with
  | nil => exact ⟨[], .nil, rfl⟩
  | append_singleton earlier entry ih =>
      obtain ⟨sections, is, grouped⟩ := ih
      obtain ⟨next, grows, step⟩ := groupEntry_sections is entry
      exact ⟨next, grows, by rw [List.foldl_append, grouped]; exact step⟩

/-- What chunking reads of a manifest: the checksum of its source and its blocks. -/
def readManifest (manifest : List (String × Json φ)) : Except String (String × List Entry) := do
  let checksum ← sourceChecksum manifest
  let found ← blocks manifest
  let entries ← readEntries found
  .ok (checksum, entries)

/-- Chunking raises what reading raises, and nothing else. -/
theorem structuralChunks_eq (manifest : List (String × Json φ)) :
    structuralChunksFromManifest manifest = (readManifest manifest).map fun read =>
      chunksForGroups read.1 [] (read.2.foldl groupEntry ([], [])).2 := by
  rw [structuralChunksFromManifest, readManifest]
  cases sourceChecksum manifest with
  | error message => rfl
  | ok checksum =>
      cases blocks manifest with
      | error message => rfl
      | ok found =>
          change (groupBlocks [] [] found).bind _ = Except.map _ ((readEntries found).bind _)
          rw [groupBlocks_eq]
          cases readEntries found <;> rfl

/-- Chunks are made of the sections of the document. -/
theorem structuralChunks_of_read {manifest : List (String × Json φ)} {checksum : String}
    {entries : List Entry} (read : readManifest manifest = .ok (checksum, entries)) :
    ∃ sections, IsSections entries sections ∧ structuralChunksFromManifest manifest =
      .ok (chunksForGroups checksum [] (groupsOf [] sections)) := by
  obtain ⟨sections, is, grouped⟩ := foldl_groupEntry entries
  refine ⟨sections, is, ?_⟩
  rw [structuralChunks_eq, read, Except.map, grouped]

end AgreementIntelligence.Evidence
