import AgreementIntelligence.Lib.Text
import AgreementIntelligence.Lib.Casing
import Mathlib.Data.List.TakeWhile

/-! Words of a text, which white space keeps apart. White space at either end of a text adds no
word and folds to itself, so a text and the same text stripped have the same words. -/

namespace AgreementIntelligence.Lib.Words
open Text Casing

/-- `text.split()` -/
def words (text : List Char) : List (List Char) :=
  (text.splitOnP isWhitespace).filter fun word => word ≠ []

@[simp] theorem words_nil : words [] = [] := rfl

theorem words_append_cons (before after : List Char) {c : Char} (space : isWhitespace c = true) :
    words (before ++ c :: after) = words before ++ words after := by
  rw [words, List.splitOnP_append_cons before after space, List.filter_append]
  rfl

theorem words_space_append {spaces : List Char} (space : ∀ c ∈ spaces, isWhitespace c = true)
    (text : List Char) : words (spaces ++ text) = words text := by
  induction spaces with
  | nil => rfl
  | cons c rest ih =>
      have first := words_append_cons [] (rest ++ text) (space c List.mem_cons_self)
      rw [List.nil_append, words_nil, List.nil_append] at first
      rw [List.cons_append, first]
      exact ih fun d later => space d (List.mem_cons_of_mem c later)

theorem words_append_space {spaces : List Char} (space : ∀ c ∈ spaces, isWhitespace c = true)
    (text : List Char) : words (text ++ spaces) = words text := by
  cases spaces with
  | nil => rw [List.append_nil]
  | cons c rest =>
      rw [words_append_cons text rest (space c List.mem_cons_self)]
      have none := words_space_append (fun d later => space d (List.mem_cons_of_mem c later)) []
      rw [List.append_nil] at none
      simp [none]

/-- A character that is no white space stands in a word. -/
theorem words_ne_nil {text : List Char} {c : Char} (member : c ∈ text)
    (visible : isWhitespace c = false) : words text ≠ [] := by
  induction text with
  | nil => cases member
  | cons d rest ih =>
      by_cases space : isWhitespace d = true
      · have blank : ∀ x ∈ [d], isWhitespace x = true := by simpa using space
        have skipped := words_space_append blank rest
        rw [List.singleton_append] at skipped
        rw [skipped]
        rcases List.mem_cons.mp member with rfl | later
        · rw [space] at visible
          cases visible
        · exact ih later
      · intro empty
        have parts := @List.splitOnP_cons_eq_if_modifyHead _ isWhitespace d rest
        rw [if_neg space] at parts
        rw [words, parts] at empty
        cases split : rest.splitOnP isWhitespace with
        | nil => exact List.splitOnP_ne_nil isWhitespace rest split
        | cons head tail =>
            rw [split] at empty
            simp at empty

/-- A part between separators that is not empty has a character that separates nothing. -/
theorem exists_of_parts {separates : Char → Bool} {text : List Char}
    (some_ : (text.splitOnP separates).filter (fun part => part ≠ []) ≠ []) :
    ∃ c ∈ text, separates c = false := by
  induction text with
  | nil => simp at some_
  | cons c rest ih =>
      by_cases apart : separates c = true
      · rw [List.splitOnP_cons_eq_if_modifyHead, if_pos apart] at some_
        obtain ⟨d, member, joins⟩ := ih (by simpa using some_)
        exact ⟨d, List.mem_cons_of_mem c member, joins⟩
      · exact ⟨c, List.mem_cons_self, Bool.not_eq_true _ ▸ apart⟩

/-- A text is its stripped text between white space. -/
theorem exists_strip (text : List Char) : ∃ before after : List Char,
    (∀ c ∈ before, isWhitespace c = true) ∧ (∀ c ∈ after, isWhitespace c = true) ∧
      text = before ++ (strip (String.ofList text)).toList ++ after := by
  refine ⟨text.takeWhile isWhitespace,
    ((text.dropWhile isWhitespace).reverse.takeWhile isWhitespace).reverse,
    fun c member => List.mem_takeWhile_imp member, fun c member => ?_, ?_⟩
  · exact List.mem_takeWhile_imp (List.mem_reverse.mp member)
  · simp only [strip, trim, String.toList_ofList]
    rw [List.append_assoc, ← List.reverse_append, List.takeWhile_append_dropWhile,
      List.reverse_reverse, List.takeWhile_append_dropWhile]

theorem words_strip (text : List Char) :
    words (strip (String.ofList text)).toList = words text := by
  obtain ⟨before, after, leading, trailing, parts⟩ := exists_strip text
  conv_rhs => rw [parts]
  rw [words_append_space trailing, words_space_append leading]

/-- The tables of the Unicode standard, with the characters that `\w` matches without the
underscore. -/
structure TextTable extends CaseTable where
  alnum : Char → Bool
  fold_space : ∀ c, isWhitespace c = true → fold c = [c]
  alnum_visible : ∀ c, alnum c = true → isWhitespace c = false

variable (table : TextTable)

/-- `" ".join(value.casefold().split())` -/
def normalized (value : String) : String :=
  " ".intercalate ((words (table.casefold value).toList).map String.ofList)

theorem normalized_ne_empty {value : String} {c : Char}
    (member : c ∈ (table.casefold value).toList) (visible : isWhitespace c = false) :
    normalized table value ≠ "" := by
  intro empty
  cases found : words (table.casefold value).toList with
  | nil => exact words_ne_nil member visible found
  | cons word rest =>
      have spoken : word ≠ [] := by
        have inside : word ∈ words (table.casefold value).toList := found ▸ List.mem_cons_self
        simpa using (List.mem_filter.mp inside).2
      rw [normalized, found] at empty
      have chars := congrArg String.toList empty
      cases rest with
      | nil => simp [spoken] at chars
      | cons other rest => simp [spoken] at chars

theorem casefold_append (first second : List Char) :
    (table.casefold (String.ofList (first ++ second))).toList =
      (table.casefold (String.ofList first)).toList ++
        (table.casefold (String.ofList second)).toList := by
  simp [CaseTable.casefold]

theorem casefold_space {spaces : List Char} (space : ∀ c ∈ spaces, isWhitespace c = true) :
    (table.casefold (String.ofList spaces)).toList = spaces := by
  simp only [CaseTable.casefold, String.toList_ofList]
  induction spaces with
  | nil => rfl
  | cons c rest ih =>
      rw [List.flatMap_cons, table.fold_space c (space c List.mem_cons_self),
        ih fun d later => space d (List.mem_cons_of_mem c later)]
      rfl

theorem words_casefold_strip (text : List Char) :
    words (table.casefold (strip (String.ofList text))).toList =
      words (table.casefold (String.ofList text)).toList := by
  obtain ⟨before, after, leading, trailing, parts⟩ := exists_strip text
  have whole : (table.casefold (String.ofList text)).toList =
      before ++ (table.casefold (strip (String.ofList text))).toList ++ after := by
    conv_lhs => rw [parts]
    rw [casefold_append, casefold_append, casefold_space table leading,
      casefold_space table trailing, String.ofList_toList]
  rw [whole, words_append_space trailing, words_space_append leading]

theorem normalized_strip (text : List Char) :
    normalized table (strip (String.ofList text)) = normalized table (String.ofList text) := by
  rw [normalized, normalized, words_casefold_strip]

/-! Visible characters -/

theorem flatten_splitOnP {α : Type} (separates : α → Bool) (text : List α) :
    (text.splitOnP separates).flatten = text.filter fun c => !separates c := by
  induction text with
  | nil => simp
  | cons c rest ih =>
      rw [List.splitOnP_cons_eq_if_modifyHead]
      by_cases apart : separates c = true
      · simp [apart, ih]
      · cases split : rest.splitOnP separates with
        | nil => exact absurd split (List.splitOnP_ne_nil separates rest)
        | cons head tail =>
            rw [split] at ih
            simp [apart, ← ih]

theorem flatten_filter_nonempty {α : Type} [DecidableEq α] (parts : List (List α)) :
    (parts.filter fun part => part ≠ []).flatten = parts.flatten := by
  induction parts with
  | nil => rfl
  | cons part rest ih =>
      by_cases empty : part = []
      · simp_all
      · simp_all

theorem strip_ne_empty_iff {value : String} :
    strip value ≠ "" ↔ ∃ c ∈ value.toList, isWhitespace c = false := by
  constructor
  · intro spoken
    by_contra blank
    push Not at blank
    refine spoken ?_
    have gone : value.toList.dropWhile isWhitespace = [] :=
      List.dropWhile_eq_nil_iff.mpr fun c member => by simpa using blank c member
    rw [strip, trim, gone]
    rfl
  · rintro ⟨c, member, visible⟩ empty
    obtain ⟨before, after, leading, trailing, parts⟩ := exists_strip value.toList
    rw [String.ofList_toList, empty] at parts
    rw [parts] at member
    have space : isWhitespace c = true := by
      simp only [String.toList_empty, List.append_nil, List.mem_append] at member
      exact member.elim (leading c) (trailing c)
    rw [space] at visible
    cases visible

theorem strip_append_ne_empty {value : String} (spoken : strip value ≠ "") (rest : String) :
    strip (value ++ rest) ≠ "" := by
  obtain ⟨c, member, visible⟩ := strip_ne_empty_iff.mp spoken
  refine strip_ne_empty_iff.mpr ⟨c, ?_, visible⟩
  rw [String.toList_append]
  exact List.mem_append_left _ member

/-- The words of a text have its visible characters. -/
theorem flatten_words (text : List Char) :
    (words text).flatten = text.filter fun c => !isWhitespace c := by
  rw [words, flatten_filter_nonempty, flatten_splitOnP]

/-- A word has characters, and all of them are visible. -/
theorem mem_words {text word : List Char} (member : word ∈ words text) :
    word ≠ [] ∧ ∀ c ∈ word, isWhitespace c = false := by
  constructor
  · simpa using (List.mem_filter.mp member).2
  · intro c inside
    have seen : c ∈ (words text).flatten := List.mem_flatten.mpr ⟨word, member, inside⟩
    rw [flatten_words] at seen
    simpa using (List.mem_filter.mp seen).2

theorem words_of_visible {word : List Char} (spoken : word ≠ [])
    (visible : ∀ c ∈ word, isWhitespace c = false) : words word = [word] := by
  have single : word.splitOnP isWhitespace = [word] :=
    List.splitOnP_eq_singleton fun c member => by simp [visible c member]
  simp [words, single, spoken]

/-- Words that are joined by spaces are found again. -/
theorem words_joined {parts : List (List Char)}
    (all : ∀ part ∈ parts, part ≠ [] ∧ ∀ c ∈ part, isWhitespace c = false) :
    words (" ".intercalate (parts.map String.ofList)).toList = parts := by
  induction parts with
  | nil => rfl
  | cons part rest ih =>
      rw [List.forall_mem_cons] at all
      cases rest with
      | nil => simpa using words_of_visible all.1.1 all.1.2
      | cons next later =>
          rw [List.map_cons, List.map_cons, String.intercalate_cons_cons, ← List.map_cons,
            String.toList_append, String.toList_append, String.toList_ofList, List.append_assoc]
          have gap := words_append_cons part
            (" ".intercalate ((next :: later).map String.ofList)).toList
            (c := ' ') (by decide)
          exact gap.trans (by rw [words_of_visible all.1.1 all.1.2, ih all.2]; rfl)

/-- Joined words are the empty text only when there are none. -/
theorem joined_eq_empty_iff {parts : List (List Char)}
    (all : ∀ part ∈ parts, part ≠ [] ∧ ∀ c ∈ part, isWhitespace c = false) :
    " ".intercalate (parts.map String.ofList) = "" ↔ parts = [] := by
  constructor
  · intro empty
    have found := words_joined all
    rw [empty] at found
    simpa using found.symm
  · rintro rfl
    rfl

theorem mem_joined {parts : List (List Char)} {c : Char} (visible : isWhitespace c = false) :
    c ∈ (" ".intercalate (parts.map String.ofList)).toList ↔ c ∈ parts.flatten := by
  have space : c ∉ " ".toList := by
    intro member
    rw [List.mem_singleton.mp member] at visible
    cases visible
  induction parts with
  | nil => simp
  | cons part rest ih =>
      cases rest with
      | nil => simp
      | cons next later =>
          rw [List.map_cons, List.map_cons, String.intercalate_cons_cons, ← List.map_cons,
            String.toList_append, String.toList_append, String.toList_ofList, List.mem_append,
            List.mem_append, List.flatten_cons, List.mem_append]
          exact or_congr (or_iff_left space) ih

/-- Case folding aside, a normalized text has the visible characters of the text. -/
theorem mem_normalized {value : String} {c : Char} (visible : isWhitespace c = false) :
    c ∈ (normalized table value).toList ↔ c ∈ (table.casefold value).toList := by
  rw [normalized, mem_joined visible, flatten_words]
  simp [visible]

end AgreementIntelligence.Lib.Words
