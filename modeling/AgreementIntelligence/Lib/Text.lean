import Mathlib.Data.List.Basic
import Mathlib.Data.List.Infix
import Mathlib.Tactic.Common

/-! Texts as lists of characters: prefixes, and paths that are split at a separator. -/

namespace AgreementIntelligence.Lib.Text

/-- `text.startswith(prefix)` -/
def startsWith (text lead : String) : Bool :=
  lead.toList.isPrefixOf text.toList

/-- `text.removeprefix(prefix)` -/
def removeLead (text lead : String) : String :=
  if startsWith text lead then String.ofList (text.toList.drop lead.length) else text

/-- The characters that `str.isspace` counts. -/
def isWhitespace (c : Char) : Bool :=
  (9 ≤ c.toNat && c.toNat ≤ 13) || (0x1C ≤ c.toNat && c.toNat ≤ 0x20) ||
    (0x2000 ≤ c.toNat && c.toNat ≤ 0x200A) ||
    c.toNat ∈ [0x85, 0xA0, 0x1680, 0x2028, 0x2029, 0x202F, 0x205F, 0x3000]

/-- The text without the characters at both ends that are to be dropped. -/
def trim (drops : Char → Bool) (text : String) : String :=
  String.ofList (((text.toList.dropWhile drops).reverse.dropWhile drops).reverse)

/-- `text.strip()` -/
def strip (text : String) : String :=
  trim isWhitespace text

/-- `re.sub("[^…]+", mark, text)`: each longest run of characters that are not kept becomes one
mark. -/
def replaceRuns (keeps : Char → Bool) (mark : Char) : Bool → List Char → List Char
  | _, [] => []
  | inRun, c :: rest =>
    if keeps c then c :: replaceRuns keeps mark false rest
    else if inRun then replaceRuns keeps mark true rest
    else mark :: replaceRuns keeps mark true rest

/-- `text.partition(mark)`, for a mark of one character. -/
def partition (text : String) (mark : Char) : String × String × String :=
  match text.toList.dropWhile (· ≠ mark) with
  | [] => (text, "", "")
  | _ :: rest => (String.ofList (text.toList.takeWhile (· ≠ mark)), String.singleton mark,
      String.ofList rest)

/-- `part in text` -/
def contains (text part : String) : Bool :=
  decide (part.toList <:+: text.toList)

theorem startsWith_self (text : String) : startsWith text text = true :=
  List.isPrefixOf_iff_prefix.mpr (List.prefix_refl _)

theorem startsWith_append_of {text lead : String} (starts : startsWith text lead = true)
    (rest : String) : startsWith (text ++ rest) lead = true := by
  rw [startsWith, List.isPrefixOf_iff_prefix] at *
  rw [String.toList_append]
  exact starts.trans (List.prefix_append _ _)

/-- Two leads of which neither starts the other never start the same text. -/
theorem startsWith_disjoint {text lead other : String} (starts : startsWith text lead = true)
    (apart : lead.toList.isPrefixOf other.toList = false ∧
      other.toList.isPrefixOf lead.toList = false) : startsWith text other = false := by
  rw [startsWith, List.isPrefixOf_iff_prefix] at starts
  by_contra both
  rw [Bool.not_eq_false, startsWith, List.isPrefixOf_iff_prefix] at both
  rcases List.prefix_or_prefix_of_prefix starts both with h | h
  · simp [List.isPrefixOf_iff_prefix.mpr h] at apart
  · simp [List.isPrefixOf_iff_prefix.mpr h] at apart

/-- `text.split("/")` -/
def splitPath (text : String) : List String :=
  (text.toList.splitOn '/').map String.ofList

/-- `"/".join(parts)` -/
def joinPath : List String → String
  | [] => ""
  | [part] => part
  | part :: rest => part ++ ("/" ++ joinPath rest)

theorem splitPath_of_plain {part : String} (plain : '/' ∉ part.toList) :
    splitPath part = [part] := by
  rw [splitPath, List.splitOn_eq_singleton plain]
  simp

theorem splitPath_append {part : String} (plain : '/' ∉ part.toList) (rest : String) :
    splitPath (part ++ ("/" ++ rest)) = part :: splitPath rest := by
  have slash : ("/" ++ rest).toList = '/' :: rest.toList := by
    rw [String.toList_append]
    rfl
  rw [splitPath, String.toList_append, slash, List.splitOn_append_cons_self_of_not_mem plain]
  simp [splitPath]

/-- Splitting a path gives back the parts it was joined from, when none has a slash. -/
theorem splitPath_joinPath {parts : List String} (some_ : parts ≠ [])
    (plain : ∀ part ∈ parts, '/' ∉ part.toList) : splitPath (joinPath parts) = parts := by
  induction parts with
  | nil => exact absurd rfl some_
  | cons part rest ih =>
      have first := plain part List.mem_cons_self
      cases rest with
      | nil => exact splitPath_of_plain first
      | cons next later =>
          have others := ih (List.cons_ne_nil next later) fun other member =>
            plain other (List.mem_cons_of_mem part member)
          rw [joinPath, splitPath_append first, others]
          exact List.cons_ne_nil next later

end AgreementIntelligence.Lib.Text
