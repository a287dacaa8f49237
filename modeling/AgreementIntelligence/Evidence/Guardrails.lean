import AgreementIntelligence.Evidence.Answers
import AgreementIntelligence.Lib.Base64
import AgreementIntelligence.Lib.Patterns
import Mathlib.Data.List.DropRight

/-! The classification of untrusted evidence. Texts are searched for three kinds of requests, as
they stand and, up to a bound, as Base64 or hexadecimal tokens decode. -/

namespace AgreementIntelligence.Evidence
open Lib Text Patterns

/-- What the Unicode standard says of the characters outside ASCII: `\w` and `str.isprintable`. -/
structure UnicodeTable where
  wordChar : Char → Bool
  printable : Char → Bool

namespace UnicodeTable
variable (unicode : UnicodeTable)

def isWord (c : Char) : Bool :=
  if c.toNat < 128 then c.isAlphanum || c == '_' else unicode.wordChar c

def isPrintable (text : String) : Bool :=
  text.toList.all fun c =>
    if c.toNat < 128 then decide (32 ≤ c.toNat ∧ c.toNat < 127) else unicode.printable c

/-- The tables as the patterns read them. -/
def patterns : PatternTable where
  wordChar := unicode.isWord
  digit c := c.isDigit
  fits := ignoreCase

end UnicodeTable

def spaces : Pattern := some_ isWhitespace

/-- `_INSTRUCTION_OVERRIDE` -/
def instructionOverride : Pattern :=
  sequence [.boundary, words "forget" ["ignore", "disregard", "override"], .boundary, anyUpTo 48,
    .boundary,
    alternatives (sequence [word "instruction", maybe (word "s")])
      [sequence [word "rule", maybe (word "s")], word "system", word "developer", word "message"],
    .boundary]

/-- `_PROMPT_EXFILTRATION` -/
def promptExfiltration : Pattern :=
  sequence [.boundary,
    alternatives (word "disclose")
      [word "repeat", word "reveal", word "show", word "print", word "expose", word "output",
        sequence [word "tell", maybe (sequence [spaces, word "me"])]],
    .boundary, anyUpTo 48, .boundary,
    words "system" ["developer", "hidden", "prompt", "instruction"], .boundary]

section Actions
variable (table : PatternTable)

/-- `text(?!\s+of\b)` -/
def notOf (text : String) : Pattern :=
  sequence [word text, notAhead table (sequence [spaces, word "of", .boundary])]

def toolAction : Pattern :=
  sequence [alternatives (notOf table "use") [notOf table "call", word "invoke", word "run",
      word "execute"],
    .boundary, anyUpTo 32, .boundary, words "tool" ["function", "mcp", "api"], .boundary]

def writeAction : Pattern :=
  sequence [words "delete" ["write", "update", "upload", "send"], .boundary, anyUpTo 32, .boundary,
    words "file" ["database", "record", "agreement", "external", "http"], .boundary]

def sendAction : Pattern :=
  sequence [words "email" ["send", "forward"], .boundary, anyUpTo 48, .boundary,
    alternatives (sequence [word "confidential", spaces, word "clause", maybe (word "s")])
      [sequence [word "complete", spaces, word "document"]],
    .boundary]

/-- `please`, `you must`, `you should` or `instruction:` before the action. -/
def leadIn : Pattern :=
  .either
    (sequence [.either (word "please") (sequence [word "you", spaces, words "must" ["should"]]),
      spaces])
    (sequence [word "instruction", .many isWhitespace, word ":", .many isWhitespace])

/-- `_TOOL_OR_WRITE_ACTION` -/
def toolOrWriteAction : Pattern :=
  sequence [.either lineStart (behind fun c => c == '.' || c == '!' || c == '?'),
    .many isWhitespace, maybe leadIn, alternatives (toolAction table) [writeAction, sendAction]]

end Actions

/-- `_BASE64_DATA_CHARACTERS` -/
def isBase64Data (c : Char) : Bool :=
  c.isAlphanum || c == '+' || c == '/' || c == '_' || c == '-'

def isHexDigit (c : Char) : Bool :=
  (Base64.hexValue? c).isSome

/-- `_BASE64_TOKEN` -/
def base64Token (table : PatternTable) : Pattern :=
  sequence [notBehind isBase64Data, repeated (.one isBase64Data) 8 4096,
    maybe (repeated (.one (· == '=')) 1 2),
    notAhead table (.one fun c => isBase64Data c || c == '=')]

/-- `_HEX_TOKEN` -/
def hexToken : Pattern :=
  sequence [.boundary, repeated (.both (.one isHexDigit) (.one isHexDigit)) 8 2048, .boundary]

def maxDecodeDepth : Nat := 2

def maxDecodeCandidates : Nat := 8

def maxDecodeCharacters : Nat := 4096

def decodeCandidateCap : String := "__decode_candidate_cap__"

section Decoding
variable (unicode : UnicodeTable)

/-- The bytes of a token, `none` when decoding them raises. -/
def tokenBytes (token : String) : Option (List UInt8) :=
  if hexToken.fullMatch unicode.patterns token then Base64.decodeHex token.toList
  else Base64.decode (token.toList ++ List.replicate ((4 - token.length % 4) % 4) '=')

/-- `_decode_token` -/
def decodeToken (token : String) : Option String :=
  match (tokenBytes unicode token).bind Base64.decodeUtf8 with
  | none => none
  | some value =>
    if unicode.isPrintable value ∧ value.length ≤ maxDecodeCharacters then some value else none

/-- `finish_fragment` -/
def finishFragment (fragments : List (List Char)) (current : List Char) : List (List Char) :=
  if current = [] then fragments else fragments ++ [current]

/-- `finish_sequence`, for the finished fragments: the token it appends. -/
def finishSequence (fragments : List (List Char)) : List String :=
  if 1 < fragments.length then
    let candidate := fragments.flatten
    let data := candidate.rdropWhile (· == '=')
    let padding := candidate.drop data.length
    if 8 ≤ data.length ∧ data.length ≤ maxDecodeCharacters ∧ data.length % 4 ≠ 1 ∧
        padding.length ≤ 2 ∧ '=' ∉ data then
      [String.ofList candidate]
    else []
  else []

def fragmentsFrom : List (List Char) → List Char → List Char → List String
  | fragments, current, [] => finishSequence (finishFragment fragments current)
  | fragments, current, c :: rest =>
    if isBase64Data c ∨ c = '=' then fragmentsFrom fragments (current ++ [c]) rest
    else if c ∈ [' ', '\t', '\r', '\n'] then fragmentsFrom (finishFragment fragments current) [] rest
    else finishSequence (finishFragment fragments current) ++ fragmentsFrom [] [] rest

/-- `_fragmented_base64_tokens` -/
def fragmentedBase64Tokens (value : String) : List String :=
  fragmentsFrom [] [] (value.toList.take maxDecodeCharacters)

def tokensOf (value : String) : List String :=
  (base64Token unicode.patterns).findAll unicode.patterns value ++ fragmentedBase64Tokens value ++
    hexToken.findAll unicode.patterns value

/-- The tokens of a round: the candidates, and those that are new. Finding one too many ends it
with an error that holds what is returned. -/
def decodeTokens : List String → List String → List String →
    Except (List String) (List String × List String)
  | candidates, fresh, [] => .ok (candidates, fresh)
  | candidates, fresh, token :: rest =>
    match decodeToken unicode token with
    | none => decodeTokens candidates fresh rest
    | some decoded =>
      if decoded ∈ candidates then decodeTokens candidates fresh rest
      else if maxDecodeCandidates ≤ candidates.length + 1 then
        .error (candidates ++ [decoded, decodeCandidateCap])
      else decodeTokens (candidates ++ [decoded]) (fresh ++ [decoded]) rest

def decodeRounds : Nat → List String → List String → List String
  | 0, candidates, _ => candidates
  | depth + 1, candidates, pending =>
    match decodeTokens unicode candidates [] (pending.flatMap (tokensOf unicode)) with
    | .error found => found
    | .ok (candidates, fresh) =>
      if fresh = [] then candidates else decodeRounds depth candidates fresh

/-- `_decoded_text_candidates` -/
def decodedTextCandidates (text : String) : List String :=
  decodeRounds unicode maxDecodeDepth [] [String.ofList (text.toList.take maxDecodeCharacters)]

/-- One of the three patterns is found. -/
def isProhibited (text : String) : Bool :=
  promptExfiltration.search unicode.patterns text ||
    (toolOrWriteAction unicode.patterns).search unicode.patterns text ||
    instructionOverride.search unicode.patterns text

/-- `_is_prohibited_decoded_request` -/
def isProhibitedDecodedRequest (text : String) : Bool :=
  text = decodeCandidateCap || isProhibited unicode text

/-- `_add_reason` -/
def addReason (reasons : List String) (reason : String) : List String :=
  if reason ∈ reasons then reasons else reasons ++ [reason]

/-- What a text is written down for as it stands. -/
def plainReasons (text : String) : List String :=
  if promptExfiltration.search unicode.patterns text then ["prompt_exfiltration_request"]
  else if (toolOrWriteAction unicode.patterns).search unicode.patterns text then
    ["tool_or_write_action_request"]
  else if instructionOverride.search unicode.patterns text then ["instruction_override_marker"]
  else []

/-- The reasons that one round of the loop adds. -/
def reasonsOf (allowed : List String) (evidence : String × String) : List String :=
  (if evidence.1 ∉ allowed then ["unknown_anchor_id"] else []) ++ plainReasons unicode evidence.2 ++
    if (decodedTextCandidates unicode evidence.2).any (isProhibitedDecodedRequest unicode) then
      ["encoded_exfiltration_request"]
    else []

def reasonCodes (evidence : List (String × String)) (allowed : List String) : List String :=
  (evidence.flatMap (reasonsOf unicode allowed)).foldl addReason []

/-- The reasons of `validate_untrusted_evidence` that block. -/
def blockReasons : List String :=
  ["unknown_anchor_id", "prompt_exfiltration_request", "encoded_exfiltration_request",
    "tool_or_write_action_request"]

def statusOf (reasons : List String) : GuardrailStatus :=
  if reasons.any (· ∈ blockReasons) then .block else if reasons ≠ [] then .review else .allow

def validateUntrustedEvidence : Guardrail := fun evidence allowedAnchorIds =>
  let reasons := reasonCodes unicode evidence allowedAnchorIds
  ⟨statusOf reasons, reasons, "untrusted-evidence.v1"⟩

end Decoding

/-! The reasons -/

theorem mem_addReason {reasons : List String} {reason other : String} :
    other ∈ addReason reasons reason ↔ other ∈ reasons ∨ other = reason := by
  rw [addReason]
  split_ifs with listed
  · exact ⟨.inl, fun either => either.elim id fun same => same ▸ listed⟩
  · simp

theorem nodup_addReason {reasons : List String} (distinct : reasons.Nodup) (reason : String) :
    (addReason reasons reason).Nodup := by
  rw [addReason]
  split_ifs with listed
  · exact distinct
  · simpa [List.nodup_append] using ⟨distinct, fun other member same => listed (same ▸ member)⟩

theorem foldl_addReason (added : List String) {reasons : List String} (distinct : reasons.Nodup) :
    (added.foldl addReason reasons).Nodup ∧
      ∀ reason, reason ∈ added.foldl addReason reasons ↔ reason ∈ reasons ∨ reason ∈ added := by
  induction added generalizing reasons with
  | nil => simp [distinct]
  | cons first rest ih =>
      obtain ⟨still, members⟩ := ih (nodup_addReason distinct first)
      refine ⟨still, fun reason => ?_⟩
      rw [List.foldl_cons, members, mem_addReason, List.mem_cons, or_assoc]

variable {unicode : UnicodeTable} {evidence : List (String × String)} {allowed : List String}

theorem mem_reasonCodes {reason : String} : reason ∈ reasonCodes unicode evidence allowed ↔
    ∃ entry ∈ evidence, reason ∈ reasonsOf unicode allowed entry := by
  rw [reasonCodes, (foldl_addReason _ List.nodup_nil).2]
  simp

end AgreementIntelligence.Evidence
