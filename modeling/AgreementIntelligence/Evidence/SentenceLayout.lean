import AgreementIntelligence.Evidence.Sentences
import Mathlib.Data.List.DropRight

/-! Where the sentences of a text stand in it. Between two of them, in front of the first and behind
the last there is only white space, so no character that can be seen is lost or read twice. -/

namespace AgreementIntelligence.Evidence
open Lib.Text Lib.Words

theorem strip_strip (text : String) : strip (strip text) = strip text := by
  have trimmed (text : String) : (strip text).toList =
      (text.toList.dropWhile isWhitespace).rdropWhile isWhitespace := by
    rw [strip, trim, String.toList_ofList, List.rdropWhile]
  apply String.toList_inj.mp
  have once : ((text.toList.dropWhile isWhitespace).rdropWhile isWhitespace).dropWhile
      isWhitespace = (text.toList.dropWhile isWhitespace).rdropWhile isWhitespace := by
    obtain ⟨rest, whole⟩ := List.rdropWhile_prefix isWhitespace (text.toList.dropWhile isWhitespace)
    have opened := List.dropWhile_idempotent isWhitespace text.toList
    cases kept : (text.toList.dropWhile isWhitespace).rdropWhile isWhitespace with
    | nil => rfl
    | cons c others =>
        rw [kept, List.cons_append] at whole
        rw [← whole, List.dropWhile_eq_self_iff] at opened
        have first : isWhitespace c = false := by simpa using opened (by simp)
        rw [List.dropWhile_cons, first]
        rfl
  rw [trimmed (strip text), trimmed text, once, List.rdropWhile_idempotent]

/-- Behind the text there is a line break or the end, after white space at most. -/
def BreaksOff (rest : List Char) : Prop :=
  ∃ gap after, rest = gap ++ after ∧ (∀ c ∈ gap, isWhitespace c = true) ∧
    (after = [] ∨ ∃ c later, after = c :: later ∧ isLineBreak c = true)

/-- A sentence as it stands in front of the rest of a text. -/
structure IsSentence (sentence : String) (rest : List Char) : Prop where
  some_ : sentence ≠ ""
  stripped : strip sentence = sentence
  oneLine : ∀ c ∈ sentence.toList, isLineBreak c = false
  ends : (∃ c ∈ sentence.toList.getLast?, c ∈ ['.', '!', '?']) ∨ BreaksOff rest

/-- A text consists of sentences, one behind the other, and of white space around them. -/
inductive LaidOut : List Char → List String → Prop
  | blank {gap : List Char} (white : ∀ c ∈ gap, isWhitespace c = true) : LaidOut gap []
  | sentence {gap rest : List Char} {sentence : String} {sentences : List String}
      (white : ∀ c ∈ gap, isWhitespace c = true) (first : IsSentence sentence rest)
      (later : LaidOut rest sentences) :
      LaidOut (gap ++ sentence.toList ++ rest) (sentence :: sentences)

theorem LaidOut.white_append {gap rest : List Char} {sentences : List String}
    (white : ∀ c ∈ gap, isWhitespace c = true) (laid : LaidOut rest sentences) :
    LaidOut (gap ++ rest) sentences := by
  have both {more : List Char} (also : ∀ c ∈ more, isWhitespace c = true) :
      ∀ c ∈ gap ++ more, isWhitespace c = true := by
    intro c member
    rw [List.mem_append] at member
    exact member.elim (white c) (also c)
  cases laid with
  | blank also => exact .blank (both also)
  | sentence also first later =>
      rw [← List.append_assoc, ← List.append_assoc]
      exact .sentence (both also) first later

/-- No character that can be seen is lost, and none is read twice. -/
theorem LaidOut.visible {text : List Char} {sentences : List String}
    (laid : LaidOut text sentences) :
    text.filter (fun c => !isWhitespace c) =
      (sentences.flatMap String.toList).filter fun c => !isWhitespace c := by
  have blank {gap : List Char} (white : ∀ c ∈ gap, isWhitespace c = true) :
      gap.filter (fun c => !isWhitespace c) = [] := by
    rw [List.filter_eq_nil_iff]
    intro c member
    simp [white c member]
  induction laid with
  | blank white => rw [blank white]; rfl
  | sentence white first later ih =>
      rw [List.filter_append, List.filter_append, blank white, List.nil_append, ih,
        List.flatMap_cons, List.filter_append]

theorem white_of_isLineBreak {c : Char} (breaks : isLineBreak c = true) :
    isWhitespace c = true := by
  by_contra visible
  rw [Bool.not_eq_true] at visible
  rw [isLineBreak_of_visible visible] at breaks
  cases breaks

/-- The pieces of a text without white space around them, those that are left empty dropped. -/
def spoken (pieces : List (List Char)) : List String :=
  (pieces.map fun piece => strip (String.ofList piece)).filter fun sentence => sentence ≠ ""

/-- A piece of the text, in front of what is laid out already. -/
theorem laidOut_piece {piece rest : List Char} {others : List (List Char)}
    (oneLine : ∀ c ∈ piece, isLineBreak c = false)
    (ends : (∃ c ∈ piece.getLast?, c ∈ ['.', '!', '?']) ∨ BreaksOff rest)
    (laid : LaidOut rest (spoken others)) : LaidOut (piece ++ rest) (spoken (piece :: others)) := by
  obtain ⟨before, after, leading, trailing, parts⟩ := exists_strip piece
  by_cases blank : strip (String.ofList piece) = ""
  · have white : ∀ c ∈ piece, isWhitespace c = true := by
      intro c member
      rw [parts, blank] at member
      simp only [String.toList_empty, List.append_nil, List.mem_append] at member
      exact member.elim (leading c) (trailing c)
    simpa [spoken, blank] using laid.white_append white
  · have still := laid.white_append trailing
    have first : IsSentence (strip (String.ofList piece)) (after ++ rest) := by
      refine ⟨blank, strip_strip _, fun c member => oneLine c ?_, ?_⟩
      · rw [parts]
        simp [member]
      · rcases ends with ⟨c, last, mark⟩ | ⟨gap, behind, rfl, white, breaks⟩
        · left
          refine ⟨c, ?_, mark⟩
          have visible : isWhitespace c = false := by
            simp only [List.mem_cons, List.not_mem_nil, or_false] at mark
            rcases mark with rfl | rfl | rfl <;> rfl
          have tight : after = [] := by
            by_contra more
            rw [parts, List.getLast?_append_of_ne_nil _ more] at last
            rw [trailing c (List.mem_of_getLast? last)] at visible
            cases visible
          rw [parts, tight, List.append_nil, List.getLast?_append_of_ne_nil] at last
          · exact last
          · simpa using blank
        · right
          refine ⟨after ++ gap, behind, by rw [List.append_assoc], ?_, breaks⟩
          intro c member
          rw [List.mem_append] at member
          exact member.elim (trailing c) (white c)
    have whole := LaidOut.sentence leading first still
    rw [← List.append_assoc, ← parts] at whole
    simpa [spoken, blank] using whole

theorem pieces_laidOut (piece text : List Char) (oneLine : ∀ c ∈ piece, isLineBreak c = false) :
    LaidOut (piece ++ text) (spoken (pieces piece text)) := by
  induction text generalizing piece with
  | nil =>
      have stops : BreaksOff [] := ⟨[], [], rfl, nofun, .inl rfl⟩
      have last : LaidOut [] (spoken []) := .blank nofun
      exact laidOut_piece oneLine (.inr stops) last
  | cons c rest ih =>
      have others := ih [] nofun
      rw [pieces]
      split_ifs with ends breaks
      · have lined : ∀ d ∈ piece ++ [c], isLineBreak d = false := by
          intro d member
          rw [List.mem_append, List.mem_singleton] at member
          rcases member with earlier | rfl
          · exact oneLine d earlier
          · exact isLineBreak_of_ends ends
        have mark : c ∈ ['.', '!', '?'] := by
          simp only [endsSentence, Bool.and_eq_true, decide_eq_true_eq] at ends
          exact ends.1
        have whole := laidOut_piece lined (.inl ⟨c, by simp, mark⟩) others
        rwa [List.append_assoc] at whole
      · have behind : LaidOut (c :: rest) (spoken (pieces [] rest)) :=
          @LaidOut.white_append [c] rest _ (by simp [white_of_isLineBreak breaks]) others
        exact laidOut_piece oneLine (.inr ⟨[], c :: rest, rfl, nofun, .inr ⟨c, rest, rfl, breaks⟩⟩)
          behind
      · have lined : ∀ d ∈ piece ++ [c], isLineBreak d = false := by
          intro d member
          rw [List.mem_append, List.mem_singleton] at member
          rcases member with earlier | rfl
          · exact oneLine d earlier
          · simpa using breaks
        have whole := ih (piece ++ [c]) lined
        rwa [List.append_assoc] at whole

/-- The sentences of a text stand in it in their order and apart from each other, and hold each
character that can be seen once. -/
theorem sentences_laidOut (value : String) : LaidOut value.toList (sentences value) ∧
    value.toList.filter (fun c => !isWhitespace c) =
      ((sentences value).flatMap String.toList).filter fun c => !isWhitespace c := by
  have laid : LaidOut value.toList (sentences value) := pieces_laidOut [] value.toList nofun
  exact ⟨laid, laid.visible⟩

end AgreementIntelligence.Evidence
