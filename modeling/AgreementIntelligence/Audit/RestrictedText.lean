import AgreementIntelligence.Lib.Patterns
import AgreementIntelligence.Lib.Text

/-! The texts that the audit log may not hold: long ones, and those in which credentials, tokens,
addresses of persons or the wording of an agreement or of a prompt are found. -/

namespace AgreementIntelligence.Audit
open Lib Text Patterns

/-- What the Unicode standard says of the characters outside ASCII: `\w` and `\d`. -/
structure UnicodeTable where
  wordChar : Char → Bool
  digit : Char → Bool

/-- The tables as the patterns read them. -/
def UnicodeTable.patterns (unicode : UnicodeTable) : PatternTable where
  wordChar c := if c.toNat < 128 then c.isAlphanum || c == '_' else unicode.wordChar c
  digit c := if c.toNat < 128 then c.isDigit else unicode.digit c
  fits := ignoreCase

/-- The tables of a text world that knows no letters and digits outside ASCII. -/
def UnicodeTable.ascii : UnicodeTable where
  wordChar _ := false
  digit _ := false

def maxSafeTextLength : Nat := 256

/-- `pattern{least,}`: every round reads a character, so the text bounds the rounds. -/
def atLeast (text : String) (least : Nat) (pattern : Pattern) : Pattern :=
  repeated pattern least (least + text.length)

/-- `[…]{least,}` -/
def run (least : Nat) (fits : Char → Bool) : Pattern :=
  .both (repeated (.one fits) least least) (.many fits)

/-- `[A-Za-z0-9]` and the given characters. -/
def alphanumericOr (others : List Char) (c : Char) : Bool :=
  c.isAlphanum || c ∈ others

/-- `[a-z]` under `re.IGNORECASE`: beside the letters of ASCII it fits four more. -/
def foldedLetter (c : Char) : Bool :=
  c.isAlpha || c.toNat ∈ [0x130, 0x131, 0x17F, 0x212A]

def foldedOr (others : List Char) (c : Char) : Bool :=
  foldedLetter c || c.isDigit || c ∈ others

/-- `\s+` -/
def blanks : Pattern := some_ isWhitespace

/-- `_CREDENTIAL_PATTERN` -/
def credentialPattern : Pattern :=
  alternatives
    (sequence [.boundary,
      alternatives (word "sk") [word "pk", word "ghp", word "github_pat",
        sequence [word "xox", .one fun c => "baprs".toList.any (ignoreCase · c)]],
      .one fun c => c == '-' || c == '_', run 8 (foldedOr ['_', '-'])])
    [sequence [.boundary, word "akia",
        repeated (.one (foldedOr [])) 16 16, .boundary],
      sequence [.boundary, word "bearer", blanks, run 8 (foldedOr "._~+/=-".toList)],
      sequence [word "-----begin ", some_ fun c => foldedLetter c || c == ' ',
        word "private key-----"]]

/-- `_JWT_PATTERN` -/
def jwtPattern : Pattern :=
  sequence [.boundary, literal (· == ·) "eyJ", run 8 (alphanumericOr ['_', '-']),
    .one (· == '.'), some_ (alphanumericOr ['_', '-']),
    .one (· == '.'), some_ (alphanumericOr ['_', '-']), .boundary]

/-- `_EMAIL_PATTERN` -/
def emailPattern : Pattern :=
  let part := some_ fun c => !isWhitespace c && c != '@'
  sequence [.boundary, part, .one (· == '@'), part, .one (· == '.'), part, .boundary]

/-- `_PHONE_PATTERN`, for a given text. -/
def phonePattern (table : PatternTable) (text : String) : Pattern :=
  sequence [notBehind table.wordChar, maybe (.one (· == '+')), .one table.digit,
    atLeast text 7
      (.both (.many fun c => isWhitespace c || c ∈ ['(', ')', '.', '-']) (.one table.digit)),
    notAhead table (.one table.wordChar)]

/-- `_UUID_PATTERN` -/
def uuidPattern : Pattern :=
  let hex (count : Nat) := repeated
    (.one fun c => c.isDigit || "abcdef".toList.any (ignoreCase · c)) count count
  let dash := Pattern.one (· == '-')
  sequence [hex 8, dash, hex 4, dash, hex 4, dash, hex 4, dash, hex 12]

/-- The parts one after another, with white space between them. -/
def phrase (first : Pattern) (rest : List Pattern) : Pattern :=
  rest.foldl (fun read next => sequence [read, blanks, next]) first

/-- `(?:…\s+)?` -/
def maybeBlanks (pattern : Pattern) : Pattern :=
  maybe (.both pattern blanks)

/-- `_RESTRICTED_TEXT_PATTERN` -/
def restrictedTextPattern : Pattern :=
  alternatives
    (sequence [.boundary, phrase (word "this") [words "agreement" ["contract"]], .boundary])
    [sequence [.boundary, word "whereas", .boundary],
      sequence [.boundary, phrase (word "governing") [word "law"], .boundary],
      sequence [.boundary, phrase (word "terms") [word "and", word "conditions"], .boundary],
      sequence [.boundary, maybeBlanks (word "the"),
        phrase (words "supplier" ["customer", "party", "parties"]) [word "shall"], .boundary],
      sequence [.boundary,
        phrase (word "the") [word "parties", word "agree", words "to" ["that"]], .boundary],
      sequence [.boundary, words "ignore" ["disregard", "override"], blanks,
        maybeBlanks (word "all"), words "previous" ["prior", "earlier"], blanks,
        alternatives (sequence [word "instruction", maybe (word "s")])
          [sequence [word "direction", maybe (word "s")]], .boundary],
      sequence [.boundary, word "hidden", blanks, word "instruction", maybe (word "s"), .boundary],
      sequence [.boundary, phrase (word "system") [word "prompt"], .boundary],
      sequence [.boundary, phrase (word "provider") [words "output" ["response"]], .boundary],
      sequence [.boundary, maybeBlanks (phrase (word "here") [word "is"]),
        maybeBlanks (word "the"), phrase (word "assistant") [words "output" ["response"]],
        .boundary],
      sequence [.boundary, phrase (word "model") [words "output" ["response", "completion"]],
        .boundary]]

/-- `_is_restricted_text` -/
def isRestrictedText (unicode : UnicodeTable) (value : String) : Bool :=
  let table := unicode.patterns
  !uuidPattern.fullMatch table value &&
    (decide (value.length > maxSafeTextLength) || credentialPattern.search table value ||
      jwtPattern.search table value || emailPattern.search table value ||
      (phonePattern table value).search table value || restrictedTextPattern.search table value)

/-! A text of ASCII characters without digits is judged alike in every text world. -/

theorem wordChar_ascii (unicode : UnicodeTable) {c : Char} (plain : c.toNat < 128) :
    unicode.patterns.wordChar c = UnicodeTable.ascii.patterns.wordChar c := by
  simp only [UnicodeTable.patterns, plain, if_true]

theorem exists_digit_of_found {table : PatternTable} {text : String} {chars : List Char}
    (found : Found table (phonePattern table text) chars) : ∃ c ∈ chars, table.digit c = true := by
  have digit : Found table (.one table.digit) chars := found.sequence (by simp)
  obtain ⟨⟨before, after⟩, stop, rfl, ends⟩ := digit
  cases after with
  | nil => simp [Pattern.ends] at ends
  | cons c after =>
      refine ⟨c, by simp [Place.whole], ?_⟩
      by_contra other
      simp [Pattern.ends, other] at ends

theorem unrestricted_of_plain (unicode : UnicodeTable) {text : String}
    (plain : ∀ c ∈ text.toList, c.toNat < 128 ∧ c.isDigit = false)
    (short : text.length ≤ maxSafeTextLength)
    (clean : ∀ pattern ∈ [credentialPattern, jwtPattern, emailPattern, restrictedTextPattern],
      pattern.search UnicodeTable.ascii.patterns text = false) :
    isRestrictedText unicode text = false := by
  have known : ∀ pattern ∈ [credentialPattern, jwtPattern, emailPattern, restrictedTextPattern],
      pattern.search unicode.patterns text = false := by
    intro pattern member
    rw [search_congr pattern fun c there => wordChar_ascii unicode (plain c there).1]
    exact clean pattern member
  have phone : (phonePattern unicode.patterns text).search unicode.patterns text = false := by
    rw [Bool.eq_false_iff]
    intro searched
    obtain ⟨c, there, digit⟩ := exists_digit_of_found (found_of_search searched)
    have digit' : c.isDigit = true := by
      simpa only [UnicodeTable.patterns, (plain c there).1, if_true] using digit
    rw [(plain c there).2] at digit'
    cases digit'
  simp only [List.forall_mem_cons] at known
  obtain ⟨credential, jwt, email, restricted, -⟩ := known
  simp only [isRestrictedText, credential, jwt, email, phone, restricted, Bool.or_false,
    Nat.not_lt.mpr short, decide_false, Bool.and_false]

end AgreementIntelligence.Audit
