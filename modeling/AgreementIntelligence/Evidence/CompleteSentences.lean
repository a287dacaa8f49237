import AgreementIntelligence.Evidence.Answers

/-! Whether the claims of an answer are complete sentences of the cited evidence. A claim has to
be a complete sentence of its quote, and the quote a part of the evidence; nothing holds the
quote against the sentences of the evidence. -/

namespace AgreementIntelligence.Evidence
open Identity Lib.Text Lib.Words Lib.Dict Lib.Casing

section Checks
variable (table : TextTable)

/-- The text is a complete sentence of the snippet, up to case and white space. -/
def IsCompleteSentence (text snippet : String) : Prop :=
  ∃ sentence ∈ sentences snippet, normalized table sentence = normalized table text

def GroundedAnswer.Complete (answer : GroundedAnswer) (evidence : List EvidenceSnippet) : Prop :=
  ∀ claim ∈ answer.claims, ∀ citation ∈ claim.citations, ∃ snippet ∈ evidence,
    snippet.anchor.anchorId = citation.anchorId ∧ IsCompleteSentence table claim.text snippet.text

/-- The words of the text stand in the snippet between two ends of sentences, with no end
inside. -/
def CutAtEnds (text snippet : String) : Prop :=
  ∃ piece, StandsBetweenEnds snippet.toList piece ∧
    normalized table (String.ofList piece) = normalized table text

theorem normalized_empty : normalized table "" = "" := rfl

variable {table}

/-- A text with a letter or a digit is no white space. -/
theorem normalized_ne_of_tokens {text : String} (spoken : tokens table text ≠ []) :
    normalized table text ≠ "" := by
  obtain ⟨c, member, alnum⟩ := exists_of_parts spoken
  have letter : table.alnum c = true := by simpa using alnum
  exact normalized_ne_empty table member (table.alnum_visible c letter)

theorem isCompleteSentence_iff {text snippet : String} (spoken : tokens table text ≠ []) :
    IsCompleteSentence table text snippet ↔ CutAtEnds table text snippet := by
  constructor
  · rintro ⟨sentence, member, same⟩
    obtain ⟨-, piece, stands, rfl⟩ := mem_sentences.mp member
    exact ⟨piece, stands, (normalized_strip table piece).symm.trans same⟩
  · rintro ⟨piece, stands, same⟩
    refine ⟨strip (String.ofList piece), mem_sentences.mpr ⟨?_, piece, stands, rfl⟩, ?_⟩
    · intro blank
      have empty := normalized_strip table piece
      rw [blank, normalized_empty, same] at empty
      exact normalized_ne_of_tokens spoken empty.symm
    · exact (normalized_strip table piece).trans same

/-! What the checks leave of a candidate -/

theorem validateFrom_eq {snippets : List (String × EvidenceSnippet)}
    {claims accepted : List GroundedClaim} {rejected : Bool} :
    validateFrom table snippets accepted rejected claims =
      if claims.any fun claim => (validClaim table claim snippets).2 then ([], true, true)
      else (accepted ++ claims.filter (fun claim => (validClaim table claim snippets).1),
        rejected || claims.any (fun claim => !(validClaim table claim snippets).1), false) := by
  induction claims generalizing accepted rejected with
  | nil => simp [validateFrom]
  | cons claim rest ih =>
      cases outcome : validClaim table claim snippets with
      | mk valid conflicting =>
          simp only [validateFrom, outcome]
          cases conflicting
          · cases valid <;> simp [ih, outcome]
          · simp [outcome]

/-- Every citation of a valid claim has a quote with a sentence that repeats the claim. -/
theorem validCitations_quote {claim : String} {snippets : List (String × EvidenceSnippet)}
    {citations : List Citation} (valid : (validCitations table claim snippets citations).1 = true)
    {citation : Citation} (member : citation ∈ citations) :
    ∃ sentence, extractSupportingQuote table claim citation.supportingQuote = some sentence := by
  induction citations with
  | nil => cases member
  | cons first rest ih =>
      rw [validCitations] at valid
      split at valid
      · cases valid
      split at valid
      · cases valid
      split at valid
      · cases valid
      split at valid
      · cases valid
      split at valid
      · cases valid
      rename_i supported
      rcases List.mem_cons.mp member with rfl | later
      · exact Option.ne_none_iff_exists'.mp supported
      · exact ih valid later

theorem validClaim_quote {claim : GroundedClaim} {snippets : List (String × EvidenceSnippet)}
    (valid : (validClaim table claim snippets).1 = true) :
    tokens table claim.text ≠ [] ∧ ∀ citation ∈ claim.citations, ∃ sentence,
      extractSupportingQuote table claim.text citation.supportingQuote = some sentence := by
  unfold validClaim at valid
  split at valid
  · cases valid
  split at valid
  · cases valid
  split at valid
  · cases valid
  rename_i spoken
  exact ⟨spoken, fun citation member => validCitations_quote valid member⟩

theorem extractSupportingQuote_normalized {claim quote sentence : String}
    (found : extractSupportingQuote table claim quote = some sentence) :
    normalized table sentence = normalized table claim := by
  unfold extractSupportingQuote at found
  split at found
  · cases found
  · have repeats := List.find?_some found
    exact of_decide_eq_true repeats

variable (table) in
/-- The candidate that the answer is made from: the question, the evidence and the guardrails
let the model be asked, and none of its claims meets a conflict. -/
structure Checked (guardrail : Guardrail) (answerer : Answerer) (question : String)
    (evidence : List EvidenceSnippet) (organizationId workspaceId : Option Uuid)
    (candidate : AnswerCandidate) : Prop where
  asked : validQuestion question = true ∧ validEvidence evidence = true
  allowed : (guardrailDecision guardrail evidence).status = .allow
  answered : answerer (questionRequest question evidence organizationId workspaceId) =
    .ok (some candidate)
  agrees : ∀ claim ∈ candidate.claims, (validClaim table claim (snippetsOf evidence)).2 = false

section Answer
variable {guardrail : Guardrail} {answerer : Answerer} {question : String}
  {evidence : List EvidenceSnippet} {organizationId workspaceId : Option Uuid}

theorem mem_claims {claim : GroundedClaim} :
    claim ∈ (answerQuestion table guardrail answerer question evidence organizationId
      workspaceId).claims ↔
      ∃ candidate, Checked table guardrail answerer question evidence organizationId workspaceId
        candidate ∧ claim ∈ candidate.claims ∧
          (validClaim table claim (snippetsOf evidence)).1 = true := by
  unfold answerQuestion
  split
  · rename_i refused
    simp only [refusal, List.not_mem_nil, false_iff]
    rintro ⟨candidate, checked, -⟩
    rcases refused with blank | malformed
    · exact blank checked.asked.1
    · exact malformed checked.asked.2
  rename_i asked
  simp only [not_or, not_not] at asked
  simp only
  split
  · rename_i unsafe_
    simp only [refusal, List.not_mem_nil, false_iff]
    rintro ⟨candidate, checked, -⟩
    exact unsafe_ checked.allowed
  rename_i allowed
  rw [not_not] at allowed
  split
  · rename_i raised
    simp only [refusal, List.not_mem_nil, false_iff]
    rintro ⟨candidate, checked, -⟩
    cases raised.symm.trans checked.answered
  · rename_i other
    simp only [refusal, List.not_mem_nil, false_iff]
    rintro ⟨candidate, checked, -⟩
    cases other.symm.trans checked.answered
  rename_i candidate answered
  simp only [validateClaims, validateFrom_eq]
  split
  · rename_i conflict
    simp only [refusal, if_true, List.not_mem_nil, false_iff]
    rintro ⟨other, checked, -⟩
    cases answered.symm.trans checked.answered
    obtain ⟨one, member, conflicting⟩ := List.any_eq_true.mp conflict
    rw [checked.agrees one member] at conflicting
    cases conflicting
  rename_i agree
  have agrees : ∀ claim ∈ candidate.claims,
      (validClaim table claim (snippetsOf evidence)).2 = false := by
    simpa using agree
  have checked : Checked table guardrail answerer question evidence organizationId workspaceId
      candidate := ⟨asked, allowed, answered, agrees⟩
  have accepted : (∃ other, Checked table guardrail answerer question evidence organizationId
      workspaceId other ∧ claim ∈ other.claims ∧
        (validClaim table claim (snippetsOf evidence)).1 = true) ↔
      claim ∈ candidate.claims.filter fun claim =>
        (validClaim table claim (snippetsOf evidence)).1 := by
    rw [List.mem_filter]
    constructor
    · rintro ⟨other, same, held⟩
      cases answered.symm.trans same.answered
      exact held
    · exact fun held => ⟨candidate, checked, held⟩
  rw [accepted]
  simp only [List.nil_append, Bool.false_eq_true, if_false]
  split
  · rename_i none_
    simp [refusal, none_]
  · split <;> rfl

variable (table guardrail answerer question evidence organizationId workspaceId) in
/-- For every claim that passes the checks, the sentence of its quote that repeats it is cut out
of the cited evidence at ends of sentences. -/
def QuotedWhole : Prop :=
  ∀ candidate, Checked table guardrail answerer question evidence organizationId workspaceId
    candidate → ∀ claim ∈ candidate.claims,
      (validClaim table claim (snippetsOf evidence)).1 = true → ∀ citation ∈ claim.citations,
        ∀ sentence, extractSupportingQuote table claim.text citation.supportingQuote =
          some sentence → ∃ snippet ∈ evidence,
            snippet.anchor.anchorId = citation.anchorId ∧ CutAtEnds table sentence snippet.text

end Answer
end Checks

/-- Whatever the model answers, the claims of an answer are complete evidence sentences. -/
def AlwaysComplete : Prop :=
  ∀ (table : TextTable) (guardrail : Guardrail) (answerer : Answerer) (question : String)
    (evidence : List EvidenceSnippet) (organizationId workspaceId : Option Uuid),
    (answerQuestion table guardrail answerer question evidence organizationId
      workspaceId).Complete table evidence

/-! A quote that leaves out the condition of its sentence. -/

def asciiText : TextTable where
  toCaseTable := CaseTable.ascii
  alnum := Char.isAlphanum
  fold_space c space := by
    have small : ¬ (65 ≤ c.toNat ∧ c.toNat ≤ 90) := by
      rintro ⟨low, high⟩
      simp only [isWhitespace, Bool.or_eq_true, Bool.and_eq_true, decide_eq_true_eq,
        List.mem_cons, List.not_mem_nil, or_false] at space
      omega
    exact congrArg (fun d => [d]) (toLower_of_not_capital small)
  alnum_visible c alnum := by
    by_contra space
    rw [Bool.not_eq_false] at space
    simp only [isWhitespace, Bool.or_eq_true, Bool.and_eq_true, decide_eq_true_eq,
      List.mem_cons, List.not_mem_nil, or_false] at space
    rw [isAlphanum_iff] at alnum
    omega

def consentSnippet : EvidenceSnippet where
  anchor := ⟨"a", "sha", 1, 0, 18, []⟩
  text := "They pay if asked."

def consentClaim : GroundedClaim :=
  ⟨"They pay", [⟨"a", "They pay"⟩]⟩

def allowing : Guardrail :=
  fun _ _ => ⟨.allow, [], "untrusted-evidence.v1"⟩

end AgreementIntelligence.Evidence
