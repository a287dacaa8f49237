import AgreementIntelligence.Comparisons.Materiality

/-! The word difference of a change from the worker to the reader: operations over the words of
both texts, the parts that are stored of them, and the segments that the API shows. A text's words
are those of its segments in order, whatever the operations are. -/

namespace AgreementIntelligence.Comparisons
open Lib Text Words

/-! The worker's parts -/

/-- A stored object of strings -/
abbrev WordDiffPart := List (String × String)

/-- `" ".join(tokens)` -/
def joinTokens (tokens : List (List Char)) : String :=
  " ".intercalate (tokens.map String.ofList)

def WordDiffOperation.part (item : WordDiffOperation) : WordDiffPart :=
  [("kind", item.kind.value), ("baseline_tokens", joinTokens item.baselineTokens),
    ("target_tokens", joinTokens item.targetTokens)]

/-! The API's segments -/

structure Segment where
  operation : String
  text : String
deriving DecidableEq, Repr

/-- One round of the loop of `_render_word_diff` -/
def renderPart (part : WordDiffPart) : List Segment :=
  let operation := Dict.get? part "operation"
  let text := (Dict.get? part "text").getD ""
  if operation ∈ [some "equal", some "insert", some "delete"] ∧ text ≠ "" then
    [⟨operation.getD "", text⟩]
  else
    let kind := Dict.get? part "kind"
    let baseline := (Dict.get? part "baseline_tokens").getD ""
    let target := (Dict.get? part "target_tokens").getD ""
    if kind = some "equal" ∧ (baseline ≠ "" ∨ target ≠ "") then
      [⟨"equal", if baseline ≠ "" then baseline else target⟩]
    else if kind = some "delete" ∧ baseline ≠ "" then [⟨"delete", baseline⟩]
    else if kind = some "insert" ∧ target ≠ "" then [⟨"insert", target⟩]
    else if kind = some "replace" then
      (if baseline ≠ "" then [⟨"delete", baseline⟩] else []) ++
        (if target ≠ "" then [⟨"insert", target⟩] else [])
    else []

def renderWordDiff (parts : List WordDiffPart) : List Segment :=
  parts.flatMap renderPart

/-- The same object, its items in any order -/
def SamePart (part read : WordDiffPart) : Prop :=
  ∀ key, Dict.get? read key = Dict.get? part key

theorem renderPart_congr {part read : WordDiffPart} (same : SamePart part read) :
    renderPart read = renderPart part := by
  simp only [renderPart, same _]

theorem renderWordDiff_congr {parts read : List WordDiffPart}
    (same : List.Forall₂ SamePart parts read) : renderWordDiff read = renderWordDiff parts := by
  induction same with
  | nil => rfl
  | cons first _ ih =>
      simp only [renderWordDiff, List.flatMap_cons] at ih ⊢
      rw [renderPart_congr first, ih]

/-- The object that is shown of a segment -/
def Segment.part (segment : Segment) : WordDiffPart :=
  [("operation", segment.operation), ("text", segment.text)]

/-! Operations that cover two sequences -/

section Opcodes
variable {α : Type} (baseline target : List α)

/-- What the documentation of `get_opcodes` says of the tags -/
def Opcode.Means (opcode : Opcode) : Prop :=
  match opcode.tag with
  | .equal => slice baseline opcode.baselineStart opcode.baselineEnd =
      slice target opcode.targetStart opcode.targetEnd
  | .delete => opcode.targetStart = opcode.targetEnd
  | .insert => opcode.baselineStart = opcode.baselineEnd
  | .replace => True

/-- The operations start at two places and go on, each where the last one ended, to the ends of
both sequences. -/
def Covers : ℕ → ℕ → List Opcode → Prop
  | i, j, [] => i = baseline.length ∧ j = target.length
  | i, j, opcode :: rest =>
    (opcode.baselineStart = i ∧ i ≤ opcode.baselineEnd) ∧
      (opcode.targetStart = j ∧ j ≤ opcode.targetEnd) ∧
      opcode.Means baseline target ∧ Covers opcode.baselineEnd opcode.targetEnd rest

/-- The non-empty sides of an operation, what is equal only once -/
def Opcode.sides (opcode : Opcode) : List (String × List α) :=
  let before := slice baseline opcode.baselineStart opcode.baselineEnd
  let after := slice target opcode.targetStart opcode.targetEnd
  (match opcode.tag with
    | .equal => [("equal", before)]
    | .delete => [("delete", before)]
    | .insert => [("insert", after)]
    | .replace => [("delete", before), ("insert", after)]).filter fun side => !side.2.isEmpty

end Opcodes

@[simp] theorem slice_self {α : Type} (tokens : List α) (start : ℕ) :
    slice tokens start start = [] := by
  simp [slice]

theorem slice_append_drop {α : Type} (tokens : List α) {start stop : ℕ} (order : start ≤ stop) :
    slice tokens start stop ++ tokens.drop stop = tokens.drop start := by
  have parts := List.take_append_drop (stop - start) (tokens.drop start)
  rw [List.drop_drop, Nat.add_sub_cancel' order] at parts
  exact parts

theorem mem_of_mem_slice {α : Type} {tokens : List α} {start stop : ℕ} {token : α}
    (member : token ∈ slice tokens start stop) : token ∈ tokens :=
  List.mem_of_mem_drop (List.mem_of_mem_take member)

/-- The items of the sides with one of the given names -/
def sideItems {α : Type} (names : List String) (sides : List (String × List α)) : List α :=
  (sides.filter fun side => side.1 ∈ names).flatMap Prod.snd

theorem sideItems_append {α : Type} (names : List String) (first later : List (String × List α)) :
    sideItems names (first ++ later) = sideItems names first ++ sideItems names later := by
  simp [sideItems]

theorem sideItems_filter_nonempty {α : Type} (names : List String)
    (sides : List (String × List α)) :
    sideItems names (sides.filter fun side => !side.2.isEmpty) = sideItems names sides := by
  induction sides with
  | nil => rfl
  | cons side rest ih =>
      simp only [sideItems] at ih ⊢
      by_cases blank : side.2 = []
      · by_cases named : side.1 ∈ names <;> simp_all
      · by_cases named : side.1 ∈ names <;> simp_all

section Opcodes
variable {α : Type} {baseline target : List α}

theorem Opcode.sideItems_baseline {opcode : Opcode} (means : opcode.Means baseline target) :
    sideItems ["equal", "delete"] (opcode.sides baseline target) =
      slice baseline opcode.baselineStart opcode.baselineEnd := by
  rw [Opcode.sides, sideItems_filter_nonempty]
  cases tag : opcode.tag with
  | insert =>
      rw [Opcode.Means, tag] at means
      simp [sideItems, means]
  | _ => simp [sideItems]

theorem Opcode.sideItems_target {opcode : Opcode} (means : opcode.Means baseline target) :
    sideItems ["equal", "insert"] (opcode.sides baseline target) =
      slice target opcode.targetStart opcode.targetEnd := by
  rw [Opcode.sides, sideItems_filter_nonempty]
  cases tag : opcode.tag with
  | equal =>
      rw [Opcode.Means, tag] at means
      simp [sideItems, means]
  | delete =>
      rw [Opcode.Means, tag] at means
      simp [sideItems, means]
  | _ => simp [sideItems]

/-- Operations that cover two sequences give both of them back. -/
theorem sideItems_of_covers {i j : ℕ} {opcodes : List Opcode}
    (covers : Covers baseline target i j opcodes) :
    sideItems ["equal", "delete"] (opcodes.flatMap (Opcode.sides baseline target)) =
        baseline.drop i ∧
      sideItems ["equal", "insert"] (opcodes.flatMap (Opcode.sides baseline target)) =
        target.drop j := by
  induction opcodes generalizing i j with
  | nil => simp [Covers] at covers; simp [sideItems, covers.1, covers.2]
  | cons opcode rest ih =>
      obtain ⟨⟨rfl, before⟩, ⟨rfl, after⟩, means, later⟩ := covers
      rw [List.flatMap_cons, sideItems_append, sideItems_append,
        Opcode.sideItems_baseline means, Opcode.sideItems_target means, (ih later).1,
        (ih later).2, slice_append_drop baseline before, slice_append_drop target after]
      exact ⟨rfl, rfl⟩

end Opcodes

/-! What is shown of an operation -/

/-- A segment, as a reader splits it into words -/
def Segment.side (segment : Segment) : String × List (List Char) :=
  (segment.operation, words segment.text.toList)

/-- Tokens that are words -/
def Spoken (tokens : List (List Char)) : Prop :=
  ∀ token ∈ tokens, token ≠ [] ∧ ∀ c ∈ token, isWhitespace c = false

theorem Spoken.slice {text : List Char} (start stop : ℕ) :
    Spoken (slice (words text) start stop) :=
  fun _ member => mem_words (mem_of_mem_slice member)

@[simp] theorem joinTokens_nil : joinTokens [] = "" := rfl

theorem joinTokens_eq_empty_iff {tokens : List (List Char)} (spoken : Spoken tokens) :
    joinTokens tokens = "" ↔ tokens = [] :=
  joined_eq_empty_iff spoken

@[simp] theorem words_joinTokens {tokens : List (List Char)} (spoken : Spoken tokens) :
    words (joinTokens tokens).toList = tokens :=
  words_joined spoken

/-- A part is rendered as the sides of its operation. -/
theorem renderPart_part {baseline target : List (List Char)} {opcode : Opcode}
    (means : opcode.Means baseline target)
    (spoken : Spoken (slice baseline opcode.baselineStart opcode.baselineEnd))
    (spoken' : Spoken (slice target opcode.targetStart opcode.targetEnd)) :
    (renderPart (WordDiffOperation.part ⟨opcode.tag,
        slice baseline opcode.baselineStart opcode.baselineEnd,
        slice target opcode.targetStart opcode.targetEnd⟩)).map Segment.side =
      opcode.sides baseline target := by
  have blank := joinTokens_eq_empty_iff spoken
  have blank' := joinTokens_eq_empty_iff spoken'
  rw [Opcode.Means] at means
  rw [Opcode.sides]
  generalize slice baseline opcode.baselineStart opcode.baselineEnd = before at *
  generalize slice target opcode.targetStart opcode.targetEnd = after at *
  cases tag : opcode.tag with
  | equal =>
      simp only [tag] at means
      subst means
      by_cases none : before = []
      · simp [renderPart, WordDiffOperation.part, Dict.get?_cons, DiffKind.value, none]
      · simp [renderPart, WordDiffOperation.part, Dict.get?_cons, DiffKind.value, blank, none,
          Segment.side, spoken]
  | delete =>
      by_cases none : before = []
      · simp [renderPart, WordDiffOperation.part, Dict.get?_cons, DiffKind.value, none]
      · simp [renderPart, WordDiffOperation.part, Dict.get?_cons, DiffKind.value, blank, none,
          Segment.side, spoken]
  | insert =>
      by_cases none : after = []
      · simp [renderPart, WordDiffOperation.part, Dict.get?_cons, DiffKind.value, none]
      · simp [renderPart, WordDiffOperation.part, Dict.get?_cons, DiffKind.value, blank', none,
          Segment.side, spoken']
  | replace =>
      by_cases none : before = [] <;> by_cases none' : after = [] <;>
        simp [renderPart, WordDiffOperation.part, Dict.get?_cons, DiffKind.value, blank, blank',
          none, none', Segment.side, spoken, spoken']

theorem means_of_covers {α : Type} {baseline target : List α} {i j : ℕ} {opcodes : List Opcode}
    (covers : Covers baseline target i j opcodes) {opcode : Opcode} (member : opcode ∈ opcodes) :
    opcode.Means baseline target := by
  induction opcodes generalizing i j with
  | nil => cases member
  | cons first rest ih =>
      rcases List.mem_cons.mp member with rfl | later
      · exact covers.2.2.1
      · exact ih covers.2.2.2 later

/-- An equal operation without words has no sides. -/
theorem Opcode.sides_of_blank {α : Type} {baseline target : List α} {opcode : Opcode}
    (tag : opcode.tag = .equal)
    (blank : slice baseline opcode.baselineStart opcode.baselineEnd = []) :
    opcode.sides baseline target = [] := by
  simp [Opcode.sides, tag, blank]

/-- The segments of a word difference are the sides of the operations, one by one. -/
theorem render_wordDiff {matcher : Matcher} {baselineText targetText : String}
    (covers : Covers (words baselineText.toList) (words targetText.toList) 0 0
      (matcher (words baselineText.toList) (words targetText.toList))) :
    (renderWordDiff ((wordDiff matcher baselineText targetText).map
        WordDiffOperation.part)).map Segment.side =
      (matcher (words baselineText.toList) (words targetText.toList)).flatMap
        (Opcode.sides (words baselineText.toList) (words targetText.toList)) := by
  have means := fun (opcode : Opcode) (member : opcode ∈ matcher (words baselineText.toList)
    (words targetText.toList)) => means_of_covers covers member
  rw [wordDiff, renderWordDiff]
  generalize matcher (words baselineText.toList) (words targetText.toList) = opcodes at means
  induction opcodes with
  | nil => rfl
  | cons opcode rest ih =>
      rw [List.forall_mem_cons] at means
      have later := ih means.2
      simp only [List.flatMap_cons, List.filter_cons]
      split
      · simp only [List.map_cons, List.flatMap_cons, List.map_append]
        rw [renderPart_part means.1 (.slice _ _) (.slice _ _), later]
      · next dropped =>
          have blank : opcode.tag = .equal ∧ slice (words baselineText.toList)
              opcode.baselineStart opcode.baselineEnd = [] := by simpa using dropped
          rw [Opcode.sides_of_blank blank.1 blank.2, List.nil_append, later]

/-! Both texts from the segments -/

/-- The words of the segments with one of the given operations, in order -/
def segmentWords (operations : List String) (segments : List Segment) : List (List Char) :=
  (segments.filter fun segment => segment.operation ∈ operations).flatMap fun segment =>
    words segment.text.toList

theorem segmentWords_eq (operations : List String) (segments : List Segment) :
    segmentWords operations segments = sideItems operations (segments.map Segment.side) := by
  rw [segmentWords, sideItems, List.filter_map, List.flatMap_map]
  rfl

/-- What is read of a stored word difference has the words of both texts, and one segment for
each non-empty side of an operation. -/
theorem segments_reconstruct (matcher : Matcher)
    (covers : ∀ baseline target, Covers baseline target 0 0 (matcher baseline target))
    (stored : List WordDiffPart → List WordDiffPart)
    (keeps : ∀ parts, List.Forall₂ SamePart parts (stored parts))
    (baselineText targetText : String) :
    let segments := renderWordDiff (stored ((wordDiff matcher baselineText targetText).map
      WordDiffOperation.part))
    segmentWords ["equal", "delete"] segments = words baselineText.toList ∧
      segmentWords ["equal", "insert"] segments = words targetText.toList ∧
      segments.map Segment.side =
        (matcher (words baselineText.toList) (words targetText.toList)).flatMap
          (Opcode.sides (words baselineText.toList) (words targetText.toList)) := by
  intro segments
  have shown : segments.map Segment.side = _ :=
    (congrArg (List.map Segment.side) (renderWordDiff_congr (keeps _))).trans
      (render_wordDiff (covers _ _))
  have both := sideItems_of_covers (covers (words baselineText.toList) (words targetText.toList))
  rw [segmentWords_eq, segmentWords_eq, shown, both.1, both.2]
  exact ⟨rfl, rfl, rfl⟩

/-- Operations of two sequences that may begin with the same item and agree in nothing else -/
def leadingMatcher : Matcher := fun baseline target =>
  if baseline.take 1 = target.take 1 then
    [⟨.equal, 0, (baseline.take 1).length, 0, (target.take 1).length⟩,
      ⟨.replace, (baseline.take 1).length, baseline.length, (target.take 1).length,
        target.length⟩]
  else [⟨.replace, 0, baseline.length, 0, target.length⟩]

theorem leadingMatcher_covers (baseline target : List (List Char)) :
    Covers baseline target 0 0 (leadingMatcher baseline target) := by
  rw [leadingMatcher]
  split
  · next same =>
      have leading : baseline.take (min 1 baseline.length) = target.take (min 1 target.length) := by
        simpa [List.take_eq_take_min] using same
      simp [Covers, Opcode.Means, slice, leading]
  · simp [Covers, Opcode.Means]

theorem segments_reconstruct_fees :
    segmentWords ["equal", "insert"] (renderWordDiff ((wordDiff leadingMatcher "the  fee"
      "the annual cost ").map WordDiffOperation.part)) = ["the".toList, "annual".toList,
        "cost".toList] :=
  ((segments_reconstruct leadingMatcher leadingMatcher_covers id
    (fun parts => List.forall₂_same.mpr fun _ _ _ => rfl) "the  fee" "the annual cost ").2.1).trans
    (by decide +kernel)

end AgreementIntelligence.Comparisons
