import Mathlib.Data.List.Infix
import Mathlib.Tactic.Common

/-! Patterns of the operator `LIKE`: a percent sign stands for any text, an underscore for any
character, and a backslash takes the character after it literally.

A text that a pattern matches can be cut inside any stretch longer than the pattern, and whatever is
put into the cut, the pattern still matches: a long stretch is met by a percent sign somewhere. -/

namespace AgreementIntelligence.Lib.Like

inductive Token where
  | any
  | one
  | lit (c : Char)
  deriving DecidableEq, Repr

/-- The tokens of a pattern; one that ends in a lone backslash is refused. -/
def tokens : List Char → Option (List Token)
  | [] => some []
  | '\\' :: [] => none
  | '\\' :: c :: rest => (tokens rest).map (.lit c :: ·)
  | '%' :: rest => (tokens rest).map (.any :: ·)
  | '_' :: rest => (tokens rest).map (.one :: ·)
  | c :: rest => (tokens rest).map (.lit c :: ·)

def matchesTokens : List Token → List Char → Bool
  | [], text => text.isEmpty
  | .any :: rest, text => text.tails.any (matchesTokens rest)
  | .one :: rest, text => text.head?.isSome && matchesTokens rest text.tail
  | .lit c :: rest, text => text.head? == some c && matchesTokens rest text.tail

theorem matchesTokens_any {rest : List Token} {text : List Char} :
    matchesTokens (.any :: rest) text = true ↔
      ∃ before after, text = before ++ after ∧ matchesTokens rest after = true := by
  simp only [matchesTokens, List.any_eq_true, List.mem_tails]
  constructor
  · intro found
    obtain ⟨after, ⟨before, joined⟩, fits⟩ := found
    exact ⟨before, after, joined.symm, fits⟩
  · intro found
    obtain ⟨before, after, joined, fits⟩ := found
    exact ⟨after, ⟨before, joined.symm⟩, fits⟩

/-- A percent sign takes what is put before a text it is matched against. -/
theorem matchesTokens_any_append {rest : List Token} {text : List Char}
    (fits : matchesTokens (.any :: rest) text = true) (before : List Char) :
    matchesTokens (.any :: rest) (before ++ text) = true := by
  rw [matchesTokens_any] at fits ⊢
  obtain ⟨skipped, after, joined, later⟩ := fits
  exact ⟨before ++ skipped, after, by rw [joined, List.append_assoc], later⟩

/-- `PATTERN` matches `text`. -/
def like (pattern text : List Char) : Bool :=
  (tokens pattern).any fun parsed => matchesTokens parsed text

/-- `column.contains(text)`, without `autoescape` -/
def containing (text : List Char) : List Char :=
  '%' :: text ++ ['%']

/-- A percent sign at the end leaves no backslash without a character behind it. -/
theorem isSome_tokens_concat (text : List Char) : (tokens (text ++ ['%'])).isSome := by
  induction text using tokens.induct with
  | case1 => rfl
  | case2 => rfl
  | case3 c rest ih => simpa [tokens] using ih
  | case4 rest ih => simpa [tokens] using ih
  | case5 rest ih => simpa [tokens] using ih
  | case6 c rest lone escape percent underscore ih =>
      have plain : c ≠ '\\' := by
        intro backslash
        cases rest with
        | nil => exact lone backslash rfl
        | cons d rest => exact escape d rest backslash rfl
      rw [List.cons_append, tokens.eq_6 _ _ (by simp [plain]) (by simp [plain]) percent underscore,
        Option.isSome_map]
      exact ih

/-- No text is refused by the database once it stands between two percent signs. -/
theorem isSome_tokens_containing (text : List Char) : (tokens (containing text)).isSome := by
  simpa [containing, tokens] using isSome_tokens_concat text

theorem like_containing_nil (text : List Char) : like (containing []) text = true := by
  have whole : matchesTokens [.any, .any] text = true := by
    rw [matchesTokens_any]
    refine ⟨[], text, rfl, ?_⟩
    rw [matchesTokens_any]
    exact ⟨text, [], by simp, rfl⟩
  exact whole

/-! Cuts in long stretches -/

/-- `text` can be cut in two so that the tokens match whatever is put in between. -/
def Yields (parsed : List Token) (before stretch after : List Char) : Prop :=
  ∃ left right, stretch = left ++ right ∧
    ∀ inserted, matchesTokens parsed (before ++ (left ++ inserted ++ right) ++ after) = true

theorem Yields.cons_before {token : Token} {rest : List Token} {c : Char}
    {before stretch after : List Char} (later : Yields rest before stretch after)
    (reads : ∀ text, matchesTokens rest text = true →
      matchesTokens (token :: rest) (c :: text) = true) :
    Yields (token :: rest) (c :: before) stretch after := by
  obtain ⟨left, right, split, fits⟩ := later
  exact ⟨left, right, split, fun inserted => reads _ (fits inserted)⟩

theorem Yields.cons_stretch {token : Token} {rest : List Token} {c : Char}
    {stretch after : List Char} (later : Yields rest [] stretch after)
    (reads : ∀ text, matchesTokens rest text = true →
      matchesTokens (token :: rest) (c :: text) = true) :
    Yields (token :: rest) [] (c :: stretch) after := by
  obtain ⟨left, right, split, fits⟩ := later
  exact ⟨c :: left, right, by rw [split]; rfl, fun inserted => reads _ (fits inserted)⟩

/-- A token that reads one character leaves the cut to the tokens behind it. -/
theorem yields_of_reads {token : Token} {rest : List Token} {before stretch after : List Char}
    (long : (token :: rest).length < stretch.length)
    (reads : ∀ c text, matchesTokens (token :: rest) (c :: text) = true →
      matchesTokens rest text = true ∧
        ∀ other, matchesTokens rest other = true →
          matchesTokens (token :: rest) (c :: other) = true)
    (later : ∀ before stretch, rest.length < stretch.length →
      matchesTokens rest (before ++ stretch ++ after) = true → Yields rest before stretch after)
    (fits : matchesTokens (token :: rest) (before ++ stretch ++ after) = true) :
    Yields (token :: rest) before stretch after := by
  rw [List.length_cons] at long
  cases before with
  | cons c before =>
      have read := reads c (before ++ stretch ++ after) fits
      have cut := later before stretch (by omega) read.1
      exact cut.cons_before read.2
  | nil =>
      cases stretch with
      | nil => simp at long
      | cons c stretch =>
          rw [List.length_cons] at long
          have read := reads c (stretch ++ after) fits
          have cut := later [] stretch (by omega) read.1
          exact cut.cons_stretch read.2

theorem yields {parsed : List Token} {before stretch after : List Char}
    (long : parsed.length < stretch.length)
    (fits : matchesTokens parsed (before ++ stretch ++ after) = true) :
    Yields parsed before stretch after := by
  induction parsed generalizing before stretch with
  | nil =>
      have empty : before ++ stretch ++ after = [] := by simpa [matchesTokens] using fits
      simp_all
  | cons token rest ih =>
      cases token with
      | any =>
          rw [matchesTokens_any] at fits
          obtain ⟨skipped, met, joined, later⟩ := fits
          rw [List.append_assoc, List.append_eq_append_iff] at joined
          obtain ⟨gone, rfl, kept⟩ | ⟨kept, rfl, rfl⟩ := joined
          · -- what the percent sign skips ends in the stretch or behind it: cut before the stretch
            have met_stretch : matchesTokens (.any :: rest) (stretch ++ after) = true :=
              matchesTokens_any.mpr ⟨gone, met, kept, later⟩
            refine ⟨[], stretch, rfl, fun inserted => ?_⟩
            have wider := matchesTokens_any_append met_stretch (before ++ inserted)
            simpa using wider
          · have room : rest.length < stretch.length := by
              rw [List.length_cons] at long
              omega
            rw [← List.append_assoc] at later
            obtain ⟨left, right, split, cut⟩ := ih room later
            refine ⟨left, right, split, fun inserted => ?_⟩
            rw [List.append_assoc, List.append_assoc]
            apply matchesTokens_any.mpr
            exact ⟨skipped, kept ++ (left ++ inserted ++ right) ++ after, by simp, cut inserted⟩
      | one =>
          refine yields_of_reads long (fun c text met => ?_) (fun _ _ => ih) fits
          simpa [matchesTokens] using met
      | lit letter =>
          refine yields_of_reads long (fun c text met => ?_) (fun _ _ => ih) fits
          simp only [matchesTokens, List.head?_cons, List.tail_cons, Bool.and_eq_true] at met ⊢
          exact ⟨met.2, fun other fits => ⟨met.1, fits⟩⟩

end AgreementIntelligence.Lib.Like
