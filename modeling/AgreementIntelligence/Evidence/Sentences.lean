import AgreementIntelligence.Lib.Words

/-! The sentences of a text. The scan cuts a text behind a full stop, an exclamation mark or a
question mark that white space or the end follows, and at line breaks; a sentence is what
stands between two cuts. -/

namespace AgreementIntelligence.Evidence
open Lib.Text Lib.Words

/-- `punctuation_boundary`, for a character and the text behind it. -/
def endsSentence (c : Char) (rest : List Char) : Bool :=
  c ∈ ['.', '!', '?'] && (match rest with
    | [] => true
    | next :: _ => isWhitespace next)

def isLineBreak (c : Char) : Bool :=
  c ∈ ['\r', '\n']

/-- The loop of `_sentences`, for the piece that has been read since the last cut. -/
def pieces : List Char → List Char → List (List Char)
  | piece, [] => [piece]
  | piece, c :: rest =>
    if endsSentence c rest then (piece ++ [c]) :: pieces [] rest
    else if isLineBreak c then piece :: pieces [] rest
    else pieces (piece ++ [c]) rest

/-- `_sentences` -/
def sentences (value : String) : List String :=
  ((pieces [] value.toList).map fun piece => strip (String.ofList piece)).filter
    fun sentence => sentence ≠ ""

/-! Cuts -/

/-- A sentence may begin between the two parts of a text. -/
def Opens (before after : List Char) : Prop :=
  before = [] ∨ ∃ init c, before = init ++ [c] ∧ (isLineBreak c = true ∨ endsSentence c after = true)

/-- A sentence that ends with the piece ends there. -/
def Closes (piece after : List Char) : Prop :=
  after = [] ∨ (∃ c rest, after = c :: rest ∧ isLineBreak c = true) ∨
    ∃ init c, piece = init ++ [c] ∧ endsSentence c after = true

/-- No sentence ends inside the piece. -/
def Unbroken (piece after : List Char) : Prop :=
  ∀ init c rest, piece = init ++ c :: rest →
    isLineBreak c = false ∧ (rest ≠ [] → endsSentence c (rest ++ after) = false)

/-- The piece stands in the text between two ends of sentences and has none inside. -/
def StandsBetweenEnds (text piece : List Char) : Prop :=
  ∃ before after, text = before ++ piece ++ after ∧ Opens before (piece ++ after) ∧
    Closes piece after ∧ Unbroken piece after

theorem isLineBreak_of_ends {c : Char} {rest : List Char} (ends : endsSentence c rest = true) :
    isLineBreak c = false := by
  simp only [endsSentence, Bool.and_eq_true, decide_eq_true_eq, List.mem_cons, List.not_mem_nil,
    or_false] at ends
  rcases ends.1 with rfl | rfl | rfl <;> rfl

theorem Opens.cons {before after : List Char} (c : Char) (some_ : before ≠ []) :
    Opens (c :: before) after ↔ Opens before after := by
  constructor
  · rintro (none | ⟨init, d, parts, cut⟩)
    · cases none
    · cases init with
      | nil =>
          simp only [List.nil_append, List.cons.injEq] at parts
          exact absurd parts.2 some_
      | cons e init =>
          simp only [List.cons_append, List.cons.injEq] at parts
          exact .inr ⟨init, d, parts.2, cut⟩
  · rintro (none | ⟨init, d, rfl, cut⟩)
    · exact absurd none some_
    · exact .inr ⟨c :: init, d, rfl, cut⟩

theorem opens_singleton {c : Char} {after : List Char} :
    Opens [c] after ↔ isLineBreak c = true ∨ endsSentence c after = true := by
  constructor
  · rintro (none | ⟨init, d, parts, cut⟩)
    · cases none
    · cases init with
      | nil =>
          simp only [List.nil_append, List.cons.injEq, and_true] at parts
          rwa [parts]
      | cons e init => simp at parts
  · exact fun cut => .inr ⟨[], c, rfl, cut⟩

theorem closes_nil {after : List Char} :
    Closes [] after ↔ after = [] ∨ ∃ c rest, after = c :: rest ∧ isLineBreak c = true := by
  constructor
  · rintro (none | cut | ⟨init, d, parts, -⟩)
    · exact .inl none
    · exact .inr cut
    · simp at parts
  · rintro (none | cut)
    · exact .inl none
    · exact .inr (.inl cut)

/-- A character in front of a piece changes neither where it ends nor what is inside, if
nothing ends at the character. -/
theorem closes_unbroken_cons {c : Char} {piece after : List Char}
    (plain : isLineBreak c = false) (goes : endsSentence c (piece ++ after) = false) :
    Closes (c :: piece) after ∧ Unbroken (c :: piece) after ↔
      Closes piece after ∧ Unbroken piece after := by
  have closes : Closes (c :: piece) after ↔ Closes piece after := by
    refine or_congr_right (or_congr_right ⟨?_, ?_⟩)
    · rintro ⟨init, d, parts, ends⟩
      cases init with
      | nil =>
          simp only [List.nil_append, List.cons.injEq] at parts
          rw [parts.2, List.nil_append, parts.1, ends] at goes
          cases goes
      | cons e init =>
          simp only [List.cons_append, List.cons.injEq] at parts
          exact ⟨init, d, parts.2, ends⟩
    · rintro ⟨init, d, rfl, ends⟩
      exact ⟨c :: init, d, rfl, ends⟩
  have unbroken : Unbroken (c :: piece) after ↔ Unbroken piece after := by
    constructor
    · intro whole init d rest parts
      exact whole (c :: init) d rest (by rw [parts, List.cons_append])
    · intro whole init d rest parts
      cases init with
      | nil =>
          simp only [List.nil_append, List.cons.injEq] at parts
          obtain ⟨rfl, rfl⟩ := parts
          exact ⟨plain, fun _ => goes⟩
      | cons e init =>
          simp only [List.cons_append, List.cons.injEq] at parts
          exact whole init d rest parts.2
  rw [closes, unbroken]

theorem unbroken_nil (after : List Char) : Unbroken [] after := by
  intro init c rest parts
  simp at parts

/-- The piece under way grows to the next end, or stands whole behind it. -/
def Reads (piece text found : List Char) : Prop :=
  (∃ head after, text = head ++ after ∧ found = piece ++ head ∧ Closes head after ∧
      Unbroken head after) ∨
    ∃ before after, before ≠ [] ∧ text = before ++ found ++ after ∧
      Opens before (found ++ after) ∧ Closes found after ∧ Unbroken found after

theorem standsBetweenEnds_iff {text piece : List Char} :
    StandsBetweenEnds text piece ↔ Reads [] text piece := by
  constructor
  · rintro ⟨before, after, parts, opens, closes, unbroken⟩
    by_cases first : before = []
    · subst first
      exact .inl ⟨piece, after, parts, rfl, closes, unbroken⟩
    · exact .inr ⟨before, after, first, parts, opens, closes, unbroken⟩
  · rintro (⟨head, after, parts, rfl, closes, unbroken⟩ |
      ⟨before, after, -, parts, opens, closes, unbroken⟩)
    · exact ⟨[], after, parts, .inl rfl, closes, unbroken⟩
    · exact ⟨before, after, parts, opens, closes, unbroken⟩

/-- Behind an end the next piece begins. -/
theorem reads_behind {c : Char} {rest found : List Char}
    (cut : isLineBreak c = true ∨ endsSentence c rest = true) :
    (∃ before after, before ≠ [] ∧ c :: rest = before ++ found ++ after ∧
      Opens before (found ++ after) ∧ Closes found after ∧ Unbroken found after) ↔
      Reads [] rest found := by
  constructor
  · rintro ⟨before, after, some_, parts, opens, closes, unbroken⟩
    cases before with
    | nil => exact absurd rfl some_
    | cons d before =>
        simp only [List.cons_append, List.cons.injEq] at parts
        obtain ⟨rfl, parts⟩ := parts
        by_cases first : before = []
        · subst first
          exact .inl ⟨found, after, parts, rfl, closes, unbroken⟩
        · exact .inr ⟨before, after, first, parts, (Opens.cons c first).mp opens, closes, unbroken⟩
  · rintro (⟨head, after, parts, rfl, closes, unbroken⟩ |
      ⟨before, after, some_, parts, opens, closes, unbroken⟩)
    · refine ⟨[c], after, List.cons_ne_nil _ _, by rw [parts]; rfl, ?_, closes, unbroken⟩
      refine opens_singleton.mpr ?_
      rwa [← parts]
    · refine ⟨c :: before, after, List.cons_ne_nil _ _, by rw [parts]; rfl, ?_, closes, unbroken⟩
      exact (Opens.cons c some_).mpr opens

theorem mem_pieces {piece text found : List Char} :
    found ∈ pieces piece text ↔ Reads piece text found := by
  induction text generalizing piece with
  | nil =>
      rw [pieces, List.mem_singleton]
      constructor
      · rintro rfl
        exact .inl ⟨[], [], rfl, (List.append_nil _).symm, .inl rfl, unbroken_nil []⟩
      · rintro (⟨head, after, parts, rfl, -, -⟩ | ⟨before, after, some_, parts, -, -, -⟩)
        · rw [(List.append_eq_nil_iff.mp parts.symm).1, List.append_nil]
        · rw [List.append_assoc] at parts
          exact absurd (List.append_eq_nil_iff.mp parts.symm).1 some_
  | cons c rest ih =>
      rw [pieces]
      by_cases ends : endsSentence c rest = true
      · have plain := isLineBreak_of_ends ends
        rw [if_pos ends, List.mem_cons, ih, ← @reads_behind c rest found (.inr ends)]
        refine or_congr_left ⟨?_, ?_⟩
        · rintro rfl
          refine ⟨[c], rest, rfl, rfl, .inr (.inr ⟨[], c, rfl, ends⟩), fun init d later parts => ?_⟩
          rcases List.append_eq_singleton_iff.mp parts.symm with ⟨-, shape⟩ | ⟨-, shape⟩
          · cases shape
            exact ⟨plain, fun some_ => absurd rfl some_⟩
          · cases shape
        · rintro ⟨head, after, parts, rfl, closes, unbroken⟩
          cases head with
          | nil =>
              rw [List.nil_append] at parts
              rcases closes_nil.mp closes with none | ⟨d, later, shape, line⟩
              · rw [none] at parts
                cases parts
              · rw [shape, List.cons.injEq] at parts
                rw [parts.1, line] at plain
                cases plain
          | cons d head =>
              simp only [List.cons_append, List.cons.injEq] at parts
              obtain ⟨rfl, rfl⟩ := parts
              have inside := (unbroken [] c head rfl).2
              by_cases last : head = []
              · rw [last]
              · rw [inside last] at ends
                cases ends
      rw [if_neg ends]
      by_cases line : isLineBreak c = true
      · rw [if_pos line, List.mem_cons, ih, ← @reads_behind c rest found (.inl line)]
        refine or_congr_left ⟨?_, ?_⟩
        · rintro rfl
          exact ⟨[], c :: rest, rfl, (List.append_nil _).symm, .inr (.inl ⟨c, rest, rfl, line⟩),
            unbroken_nil _⟩
        · rintro ⟨head, after, parts, rfl, -, unbroken⟩
          cases head with
          | nil => exact List.append_nil _
          | cons d head =>
              simp only [List.cons_append, List.cons.injEq] at parts
              obtain ⟨rfl, -⟩ := parts
              rw [(unbroken [] c head rfl).1] at line
              cases line
      · have plain := Bool.not_eq_true _ ▸ line
        have goes := Bool.not_eq_true _ ▸ ends
        rw [if_neg line, ih]
        refine or_congr ⟨?_, ?_⟩ ⟨?_, ?_⟩
        · rintro ⟨head, after, rfl, rfl, both⟩
          refine ⟨c :: head, after, rfl, by simp, ?_⟩
          exact (closes_unbroken_cons plain goes).mpr both
        · rintro ⟨head, after, parts, rfl, both⟩
          cases head with
          | nil =>
              rw [List.nil_append] at parts
              rcases closes_nil.mp both.1 with none | ⟨d, later, shape, breaks⟩
              · rw [none] at parts
                cases parts
              · rw [shape, List.cons.injEq] at parts
                exact absurd (parts.1 ▸ breaks) line
          | cons d head =>
              simp only [List.cons_append, List.cons.injEq] at parts
              obtain ⟨rfl, rfl⟩ := parts
              exact ⟨head, after, rfl, by simp, (closes_unbroken_cons plain goes).mp both⟩
        · rintro ⟨before, after, some_, rfl, opens, both⟩
          exact ⟨c :: before, after, List.cons_ne_nil _ _, rfl, (Opens.cons c some_).mpr opens, both⟩
        · rintro ⟨before, after, some_, parts, opens, both⟩
          cases before with
          | nil => exact absurd rfl some_
          | cons d before =>
              simp only [List.cons_append, List.cons.injEq] at parts
              obtain ⟨rfl, parts⟩ := parts
              by_cases first : before = []
              · subst first
                rw [List.nil_append] at parts
                rcases opens_singleton.mp opens with breaks | stops
                · exact absurd breaks line
                · exact absurd (parts ▸ stops) ends
              · exact ⟨before, after, first, parts, (Opens.cons c first).mp opens, both⟩

/-- The sentences of a text are the stretches between two ends, stripped. -/
theorem mem_sentences {value sentence : String} :
    sentence ∈ sentences value ↔ sentence ≠ "" ∧
      ∃ piece, StandsBetweenEnds value.toList piece ∧ sentence = strip (String.ofList piece) := by
  simp only [sentences, List.mem_filter, List.mem_map, mem_pieces, standsBetweenEnds_iff,
    decide_not, Bool.not_eq_true', decide_eq_false_iff_not]
  constructor
  · rintro ⟨⟨piece, reads, rfl⟩, some_⟩
    exact ⟨some_, piece, reads, rfl⟩
  · rintro ⟨some_, piece, reads, rfl⟩
    exact ⟨⟨piece, reads, rfl⟩, some_⟩

/-! Characters of sentences -/

/-- No character is lost between the pieces but the line breaks. -/
theorem exists_piece {piece text : List Char} {c : Char} (plain : isLineBreak c = false)
    (inside : c ∈ piece ++ text) : ∃ found ∈ pieces piece text, c ∈ found := by
  induction text generalizing piece with
  | nil =>
      rw [List.append_nil] at inside
      exact ⟨piece, List.mem_singleton_self piece, inside⟩
  | cons d rest ih =>
      rw [pieces]
      have parts : c ∈ piece ++ [d] ∨ c ∈ [] ++ rest := by
        simp only [List.mem_append, List.mem_cons] at inside ⊢
        tauto
      split
      · rcases parts with here | later
        · exact ⟨_, List.mem_cons_self, here⟩
        · obtain ⟨found, member, held⟩ := ih later
          exact ⟨found, List.mem_cons_of_mem _ member, held⟩
      · split
        · rename_i line
          have other : c ≠ d := by
            rintro rfl
            rw [line] at plain
            cases plain
          rcases parts with here | later
          · refine ⟨piece, List.mem_cons_self, ?_⟩
            simpa [other] using here
          · obtain ⟨found, member, held⟩ := ih later
            exact ⟨found, List.mem_cons_of_mem _ member, held⟩
        · exact ih (by simpa using inside)

theorem isLineBreak_of_visible {c : Char} (visible : isWhitespace c = false) :
    isLineBreak c = false := by
  rw [isLineBreak, decide_eq_false_iff_not, List.mem_cons, List.mem_singleton]
  rintro (rfl | rfl)
  · cases visible
  · cases visible

theorem mem_strip {text : List Char} {c : Char} (visible : isWhitespace c = false) :
    c ∈ (strip (String.ofList text)).toList ↔ c ∈ text := by
  obtain ⟨before, after, leading, trailing, parts⟩ := exists_strip text
  have outside {spaces : List Char} (space : ∀ d ∈ spaces, isWhitespace d = true) :
      c ∉ spaces := fun member => by
    rw [space c member] at visible
    cases visible
  conv_rhs => rw [parts]
  simp [outside leading, outside trailing]

/-- The visible characters of a text are those of its sentences. -/
theorem mem_sentence_iff {value : String} {c : Char} (visible : isWhitespace c = false) :
    (∃ sentence ∈ sentences value, c ∈ sentence.toList) ↔ c ∈ value.toList := by
  constructor
  · rintro ⟨sentence, member, inside⟩
    obtain ⟨-, piece, stands, rfl⟩ := mem_sentences.mp member
    obtain ⟨before, after, parts, -⟩ := stands
    rw [parts]
    simp [(mem_strip visible).mp inside]
  · intro member
    obtain ⟨found, listed, inside⟩ := @exists_piece [] value.toList c
      (isLineBreak_of_visible visible) member
    refine ⟨strip (String.ofList found), ?_, (mem_strip visible).mpr inside⟩
    rw [sentences, List.mem_filter]
    refine ⟨List.mem_map_of_mem listed, ?_⟩
    have held := (mem_strip visible).mpr inside
    rw [decide_eq_true_eq]
    intro blank
    rw [blank] at held
    cases held

end AgreementIntelligence.Evidence
