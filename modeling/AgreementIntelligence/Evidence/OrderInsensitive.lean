import AgreementIntelligence.Evidence.CompleteSentences
import AgreementIntelligence.Evidence.UsableEvidence
import AgreementIntelligence.Lib.Verdicts

/-! Whether the order of claims and of citations matters. Claims are all looked at, until one
meets a conflict, so their order does not. The citations of a claim are looked at until one is
refused or meets a conflict, so a refused citation hides a conflict that comes after it. -/

namespace AgreementIntelligence.Evidence
open Identity Lib.Text Lib.Words Lib.Dict Lib.Casing Lib.Verdicts

/-! The claim and its condition -/

/-- The same claim up to the order of its citations -/
structure SameClaim (one other : GroundedClaim) : Prop where
  text : one.text = other.text
  citations : one.citations.Perm other.citations

/-- The anchors are in an explicit conflict, whichever of the two says so. -/
def Conflicting (one other : EvidenceAnchor) : Prop :=
  other.anchorId ∈ one.conflictsWith ∨ one.anchorId ∈ other.conflictsWith

/-- The citation quotes something under an authorized anchor that is in conflict with another. -/
def MeetsConflict (evidence : List EvidenceSnippet) (citation : Citation) : Prop :=
  ∃ snippet, get? (snippetsOf evidence) citation.anchorId = some snippet ∧
    materialText citation.supportingQuote = true ∧
      hasAuthorizedConflict snippet.anchor (snippetsOf evidence) = true

section Checks
variable (table : TextTable)

/-- The citation meets no conflict and fails another check: its anchor is not authorized, or its
quote is blank, not in the snippet or no support of the text. -/
def Refused (evidence : List EvidenceSnippet) (text : String) (citation : Citation) : Prop :=
  ∀ snippet, get? (snippetsOf evidence) citation.anchorId = some snippet →
    materialText citation.supportingQuote = true →
      hasAuthorizedConflict snippet.anchor (snippetsOf evidence) = false ∧
        (quoteIsInSnippet table citation.supportingQuote snippet.text = false ∨
          extractSupportingQuote table text citation.supportingQuote = none)

/-- The claim has material text with a word in it, and citations, one of which meets a conflict. -/
def ClaimsConflict (evidence : List EvidenceSnippet) (claim : GroundedClaim) : Prop :=
  materialText claim.text = true ∧ tokens table claim.text ≠ [] ∧
    ∃ citation ∈ claim.citations, MeetsConflict evidence citation

section Answer
variable (guardrail : Guardrail) (question : String) (evidence : List EvidenceSnippet)
  (organizationId workspaceId : Option Uuid) (candidate : AnswerCandidate)

/-- The answer to a candidate that the model gives back -/
def answerTo : GroundedAnswer :=
  answerQuestion table guardrail (fun _ => .ok (some candidate)) question evidence organizationId
    workspaceId

/-- A candidate with the claims or the citations in another order gets the same status, and the
same claims up to such an order are accepted. -/
def OrderInsensitive : Prop :=
  ∀ other : AnswerCandidate, Reordered SameClaim candidate.claims other.claims →
    (answerTo table guardrail question evidence organizationId workspaceId other).status =
      (answerTo table guardrail question evidence organizationId workspaceId candidate).status ∧
    Reordered SameClaim
      (answerTo table guardrail question evidence organizationId workspaceId candidate).claims
      (answerTo table guardrail question evidence organizationId workspaceId other).claims

/-- An accepted claim is one of the candidate and cites authorized anchors that are in no conflict
with an authorized anchor. -/
def AcceptsSound : Prop :=
  ∀ claim ∈ (answerTo table guardrail question evidence organizationId workspaceId
    candidate).claims, claim ∈ candidate.claims ∧ ∀ citation ∈ claim.citations,
      ∃ snippet ∈ evidence, snippet.anchor.anchorId = citation.anchorId ∧
        ∀ other ∈ evidence, ¬ Conflicting snippet.anchor other.anchor

/-- If the candidate is looked at and one of its claims meets a conflict, then a claim does so
that has no refused citation. -/
def ConflictsShow : Prop :=
  validQuestion question = true → validEvidence evidence = true →
    (guardrailDecision guardrail evidence).status = .allow →
      (∃ claim ∈ candidate.claims, ClaimsConflict table evidence claim) →
        ∃ claim ∈ candidate.claims, ClaimsConflict table evidence claim ∧
          ∀ citation ∈ claim.citations, ¬ Refused table evidence claim.text citation
end Answer

/-! Verdicts -/

/-- One turn of the loop over the citations -/
def citationVerdict (evidence : List EvidenceSnippet) (text : String) (citation : Citation) :
    Verdict :=
  match get? (snippetsOf evidence) citation.anchorId with
  | none => .fails
  | some snippet =>
    if ¬ materialText citation.supportingQuote then .fails
    else if hasAuthorizedConflict snippet.anchor (snippetsOf evidence) then .escalates
    else if ¬ quoteIsInSnippet table citation.supportingQuote snippet.text then .fails
    else if extractSupportingQuote table text citation.supportingQuote = none then .fails
    else .passes

def claimVerdict (evidence : List EvidenceSnippet) (claim : GroundedClaim) : Verdict :=
  if materialText claim.text = true ∧ claim.citations ≠ [] ∧ tokens table claim.text ≠ [] then
    firstVerdict (citationVerdict table evidence claim.text) claim.citations
  else .fails

variable {table}
variable {evidence : List EvidenceSnippet}

theorem validCitations_eq (text : String) (citations : List Citation) :
    validCitations table text (snippetsOf evidence) citations =
      (decide (firstVerdict (citationVerdict table evidence text) citations = .passes),
        decide (firstVerdict (citationVerdict table evidence text) citations = .escalates)) := by
  induction citations with
  | nil => rfl
  | cons citation rest ih =>
      rw [validCitations, firstVerdict]
      cases found : get? (snippetsOf evidence) citation.anchorId with
      | none => simp [citationVerdict, found]
      | some snippet =>
          simp only [citationVerdict, found]
          split
          · rfl
          split
          · rfl
          split
          · rfl
          split
          · rfl
          · exact ih

theorem validClaim_eq (claim : GroundedClaim) :
    validClaim table claim (snippetsOf evidence) =
      (decide (claimVerdict table evidence claim = .passes),
        decide (claimVerdict table evidence claim = .escalates)) := by
  rw [validClaim, claimVerdict, validCitations_eq]
  split
  · next blank => simp_all
  split
  · next uncited => simp_all
  split
  · next wordless => simp_all
  · next material cited spoken =>
      rw [if_pos ⟨not_not.mp material, cited, spoken⟩]

theorem citationVerdict_escalates_iff {text : String} {citation : Citation} :
    citationVerdict table evidence text citation = .escalates ↔
      MeetsConflict evidence citation := by
  unfold citationVerdict MeetsConflict
  cases found : get? (snippetsOf evidence) citation.anchorId with
  | none => simp
  | some snippet =>
      simp only [Option.some.injEq, exists_eq_left']
      split <;> [simp_all; skip]
      split <;> [simp_all; skip]
      split <;> [simp_all; skip]
      split <;> simp_all

theorem citationVerdict_fails_iff {text : String} {citation : Citation} :
    citationVerdict table evidence text citation = .fails ↔
      Refused table evidence text citation := by
  unfold citationVerdict Refused
  cases found : get? (snippetsOf evidence) citation.anchorId with
  | none => simp
  | some snippet =>
      simp only [Option.some.injEq, forall_eq']
      split <;> [simp_all; skip]
      split <;> [simp_all; skip]
      split <;> [simp_all; skip]
      split <;> simp_all

/-! Claims in another order -/

theorem claimsConflict_of_escalates {claim : GroundedClaim}
    (escalates : claimVerdict table evidence claim = .escalates) :
    ClaimsConflict table evidence claim := by
  unfold claimVerdict at escalates
  split at escalates
  · next readable =>
      obtain ⟨citation, member, judged⟩ := exists_of_firstVerdict escalates nofun
      exact ⟨readable.1, readable.2.2, citation, member, citationVerdict_escalates_iff.mp judged⟩
  · cases escalates

theorem ClaimsConflict.claimVerdict_eq {claim : GroundedClaim}
    (conflict : ClaimsConflict table evidence claim) : claimVerdict table evidence claim =
      firstVerdict (citationVerdict table evidence claim.text) claim.citations := by
  obtain ⟨material, spoken, citation, member, -⟩ := conflict
  exact if_pos ⟨material, List.ne_nil_of_mem member, spoken⟩

theorem ClaimsConflict.same {one other : GroundedClaim}
    (conflict : ClaimsConflict table evidence one) (same : SameClaim one other) :
    ClaimsConflict table evidence other := by
  obtain ⟨material, spoken, citation, member, meets⟩ := conflict
  exact ⟨same.text ▸ material, same.text ▸ spoken, citation, same.citations.subset member, meets⟩

/-- A claim that meets no conflict has one verdict in any order. -/
theorem claimVerdict_same {one other : GroundedClaim} (same : SameClaim one other)
    (calm : ¬ ClaimsConflict table evidence one) :
    claimVerdict table evidence one = claimVerdict table evidence other := by
  have cited : other.citations = [] ↔ one.citations = [] := by
    rw [← List.length_eq_zero_iff, ← same.citations.length_eq, List.length_eq_zero_iff]
  simp only [claimVerdict, ← same.text, ne_eq, cited]
  split
  · next readable =>
      refine (firstVerdict_perm same.citations (.inr fun citation member judged => ?_)).symm
      exact calm ⟨readable.1, readable.2.2, citation, member,
        citationVerdict_escalates_iff.mp judged⟩
  · rfl

/-- A claim that meets a conflict and has no refused citation escalates in any order. -/
theorem ClaimsConflict.escalates {one other : GroundedClaim}
    (conflict : ClaimsConflict table evidence one) (same : SameClaim one other)
    (shows_ : ∀ citation ∈ one.citations, ¬ Refused table evidence one.text citation) :
    claimVerdict table evidence other = .escalates := by
  have conflict' := conflict.same same
  obtain ⟨-, -, citation, member, meets⟩ := conflict'
  rw [(conflict.same same).claimVerdict_eq]
  refine firstVerdict_escalates_of ⟨citation, member, citationVerdict_escalates_iff.mpr meets⟩
    fun later inside judged => ?_
  rw [← same.text] at judged
  exact shows_ later (same.citations.symm.subset inside) (citationVerdict_fails_iff.mp judged)

variable (table evidence) in
/-- The claim with the citations of one verdict before all others -/
def advanceCitations (verdict : Verdict) (claim : GroundedClaim) : GroundedClaim where
  text := claim.text
  citations := advance (citationVerdict table evidence claim.text) verdict claim.citations

theorem sameClaim_advanceCitations (verdict : Verdict) (claim : GroundedClaim) :
    SameClaim claim (advanceCitations table evidence verdict claim) :=
  ⟨rfl, perm_advance _ _ _⟩

theorem ClaimsConflict.advance {claim : GroundedClaim}
    (conflict : ClaimsConflict table evidence claim) {verdict : Verdict}
    (stops : verdict ≠ .passes)
    (some_ : ∃ citation ∈ claim.citations,
      citationVerdict table evidence claim.text citation = verdict) :
    claimVerdict table evidence (advanceCitations table evidence verdict claim) = verdict := by
  rw [(conflict.same (sameClaim_advanceCitations verdict claim)).claimVerdict_eq]
  exact firstVerdict_advance some_ stops

/-! Answers -/

section Answer
variable {guardrail : Guardrail} {question : String} {organizationId workspaceId : Option Uuid}
  {candidate : AnswerCandidate}

/-- The answer to a candidate that is looked at, told from the verdicts of its claims -/
theorem answerTo_eq (asked : validQuestion question = true)
    (usable : validEvidence evidence = true)
    (allowed : (guardrailDecision guardrail evidence).status = .allow)
    (candidate : AnswerCandidate) :
    answerTo table guardrail question evidence organizationId workspaceId candidate =
      if candidate.claims.any fun claim => claimVerdict table evidence claim = .escalates then
        refusal .conflictingEvidence
          "Authorized evidence contains an explicit conflict; no answer was produced."
          (guardrailDecision guardrail evidence)
      else if (candidate.claims.filter fun claim =>
          claimVerdict table evidence claim = .passes) = [] then
        refusal .insufficientEvidence
          "The authorized evidence does not support a material answer to this question."
          (guardrailDecision guardrail evidence)
      else if candidate.claims.any fun claim => claimVerdict table evidence claim ≠ .passes then
        ⟨.partiallyAnswered,
          candidate.claims.filter fun claim => claimVerdict table evidence claim = .passes,
          "Only the supported portion of the answer is shown.",
          guardrailDecision guardrail evidence⟩
      else
        ⟨.answered,
          candidate.claims.filter fun claim => claimVerdict table evidence claim = .passes,
          "Grounded answer.", guardrailDecision guardrail evidence⟩ := by
  simp only [answerTo, answerQuestion, asked, usable, allowed, not_true_eq_false, or_self,
    if_false, ne_eq, validateClaims, validateFrom_eq, validClaim_eq, List.nil_append,
    Bool.false_or]
  split
  · rfl
  · simp only [Bool.false_eq_true, if_false]
    simp

theorem answerTo_conflicting_iff (asked : validQuestion question = true)
    (usable : validEvidence evidence = true)
    (allowed : (guardrailDecision guardrail evidence).status = .allow) :
    (answerTo table guardrail question evidence organizationId workspaceId candidate).status =
        .conflictingEvidence ↔
      ∃ claim ∈ candidate.claims, claimVerdict table evidence claim = .escalates := by
  rw [answerTo_eq asked usable allowed]
  simp only [List.any_eq_true, decide_eq_true_eq]
  split
  · next conflict => exact iff_of_true rfl conflict
  · next calm =>
      refine iff_of_false ?_ calm
      split <;> [simp [refusal]; skip]
      split <;> simp

/-- A candidate that is not looked at makes no difference. -/
theorem answerTo_unread (unread : ¬ (validQuestion question = true ∧ validEvidence evidence = true ∧
    (guardrailDecision guardrail evidence).status = .allow)) (other : AnswerCandidate) :
    answerTo table guardrail question evidence organizationId workspaceId other =
        answerTo table guardrail question evidence organizationId workspaceId candidate ∧
      (answerTo table guardrail question evidence organizationId workspaceId candidate).claims =
        [] := by
  unfold answerTo answerQuestion
  split
  · exact ⟨rfl, rfl⟩
  · next asked =>
      rw [not_or, not_not, not_not] at asked
      have refused : (guardrailDecision guardrail evidence).status ≠ .allow :=
        fun allowed => unread ⟨asked.1, asked.2, allowed⟩
      simp only [if_pos refused]
      exact ⟨trivial, rfl⟩

theorem orderInsensitive_of_shows
    (shows_ : ConflictsShow table guardrail question evidence candidate) :
    OrderInsensitive table guardrail question evidence organizationId workspaceId candidate := by
  intro other reordered
  by_cases looked : validQuestion question = true ∧ validEvidence evidence = true ∧
      (guardrailDecision guardrail evidence).status = .allow
  · obtain ⟨asked, usable, allowed⟩ := looked
    rw [answerTo_eq asked usable allowed candidate, answerTo_eq asked usable allowed other]
    by_cases conflict : ∃ claim ∈ candidate.claims, ClaimsConflict table evidence claim
    · obtain ⟨claim, member, meets, clear⟩ := shows_ asked usable allowed conflict
      obtain ⟨image, member', same⟩ := reordered.related member
      have here : candidate.claims.any (fun claim =>
          claimVerdict table evidence claim = .escalates) = true :=
        List.any_eq_true.mpr ⟨claim, member,
          decide_eq_true (meets.escalates ⟨rfl, List.Perm.refl _⟩ clear)⟩
      have there : other.claims.any (fun claim =>
          claimVerdict table evidence claim = .escalates) = true :=
        List.any_eq_true.mpr ⟨image, member', decide_eq_true (meets.escalates same clear)⟩
      rw [if_pos here, if_pos there]
      exact ⟨rfl, [], List.Perm.refl _, .nil⟩
    · push Not at conflict
      have agree (p : Verdict → Bool) : ∀ one ∈ candidate.claims, ∀ image, SameClaim one image →
          p (claimVerdict table evidence one) = p (claimVerdict table evidence image) :=
        fun one member image same => congrArg p (claimVerdict_same same (conflict one member))
      have accepted := reordered.filter (agree fun verdict => decide (verdict = .passes))
      rw [← reordered.any (agree fun verdict => decide (verdict = .escalates)),
        ← reordered.any (agree fun verdict => decide (verdict ≠ .passes))]
      simp only [← accepted.nil_iff]
      split
      · exact ⟨rfl, [], List.Perm.refl _, .nil⟩
      split
      · exact ⟨rfl, [], List.Perm.refl _, .nil⟩
      split
      · exact ⟨rfl, accepted⟩
      · exact ⟨rfl, accepted⟩
  · obtain ⟨same, empty⟩ := answerTo_unread looked other
    rw [same, empty]
    exact ⟨rfl, [], List.Perm.refl _, .nil⟩

/-- If every claim that meets a conflict has a refused citation, then it depends on the order
whether the conflict is seen. -/
theorem shows_of_orderInsensitive (insensitive : OrderInsensitive table guardrail question evidence
    organizationId workspaceId candidate) :
    ConflictsShow table guardrail question evidence candidate := by
  intro asked usable allowed ⟨claim, member, meets⟩
  by_contra hidden
  push Not at hidden
  have status (verdict : Verdict) :=
    (insensitive ⟨candidate.claims.map (advanceCitations table evidence verdict)⟩
      (reordered_map fun claim _ => sameClaim_advanceCitations verdict claim)).1
  have escalated : (answerTo table guardrail question evidence organizationId workspaceId
      ⟨candidate.claims.map (advanceCitations table evidence .escalates)⟩).status =
        .conflictingEvidence := by
    obtain ⟨-, -, citation, cited, conflict⟩ := id meets
    exact (answerTo_conflicting_iff asked usable allowed).mpr ⟨_, List.mem_map_of_mem member,
      meets.advance nofun ⟨citation, cited, citationVerdict_escalates_iff.mpr conflict⟩⟩
  rw [status, ← status .fails, answerTo_conflicting_iff asked usable allowed] at escalated
  obtain ⟨image, inside, seen⟩ := escalated
  obtain ⟨one, present, rfl⟩ := List.mem_map.mp inside
  by_cases conflict : ClaimsConflict table evidence one
  · obtain ⟨citation, cited, refused⟩ := hidden one present conflict
    have failed : claimVerdict table evidence (advanceCitations table evidence .fails one) =
        .fails :=
      conflict.advance nofun ⟨citation, cited, citationVerdict_fails_iff.mpr refused⟩
    exact nomatch failed.symm.trans seen
  · rw [← claimVerdict_same (sameClaim_advanceCitations .fails one) conflict] at seen
    exact conflict (claimsConflict_of_escalates seen)

/-! Accepted claims -/

theorem distinct_of_validEvidence (usable : validEvidence evidence = true) :
    (evidence.map (·.anchor.anchorId)).Nodup := by
  unfold validEvidence at usable
  split at usable
  · cases usable
  · split at usable
    · cases usable
    · next anchorIds found => exact (distinctAnchors_eq_some.mp found).2.2.1

theorem citationVerdict_passes {text : String} {citation : Citation}
    (passes : citationVerdict table evidence text citation = .passes) :
    ∃ snippet, get? (snippetsOf evidence) citation.anchorId = some snippet ∧
      hasAuthorizedConflict snippet.anchor (snippetsOf evidence) = false := by
  unfold citationVerdict at passes
  split at passes
  · cases passes
  · next snippet found =>
      split at passes
      · cases passes
      split at passes
      · cases passes
      · next calm => exact ⟨snippet, found, Bool.not_eq_true _ ▸ calm⟩

theorem not_conflicting (distinct : (evidence.map (·.anchor.anchorId)).Nodup)
    {anchor : EvidenceAnchor}
    (calm : hasAuthorizedConflict anchor (snippetsOf evidence) = false) {other : EvidenceSnippet}
    (member : other ∈ evidence) : ¬ Conflicting anchor other.anchor := by
  have found : get? (snippetsOf evidence) other.anchor.anchorId = some other :=
    get?_ofItems_of_mem (fun snippet : EvidenceSnippet => snippet.anchor.anchorId) distinct member
  rw [hasAuthorizedConflict, Bool.or_eq_false_iff, List.any_eq_false, List.any_eq_false] at calm
  rintro (named | named)
  · exact calm.1 other.anchor.anchorId named (by rw [found]; rfl)
  · exact calm.2 _ (mem_of_get? found) (decide_eq_true named)

theorem acceptsSound :
    AcceptsSound table guardrail question evidence organizationId workspaceId candidate := by
  intro claim accepted
  obtain ⟨read, checked, member, valid⟩ := mem_claims.mp accepted
  have same : read = candidate := (Option.some.inj (Except.ok.inj checked.answered)).symm
  refine ⟨same ▸ member, fun citation cited => ?_⟩
  rw [validClaim_eq, decide_eq_true_eq] at valid
  unfold claimVerdict at valid
  split at valid
  · obtain ⟨snippet, found, calm⟩ :=
      citationVerdict_passes (firstVerdict_passes_iff.mp valid citation cited)
    obtain ⟨inside, named⟩ := mem_of_get?_ofItems _ found
    exact ⟨snippet, inside, named, fun other there =>
      not_conflicting (distinct_of_validEvidence checked.asked.2) calm there⟩
  · cases valid

/-- The answer does not depend on order exactly if conflicts show, and accepted claims are always
free of conflicts. -/
theorem answerQuestion_orderInsensitive_iff :
    (OrderInsensitive table guardrail question evidence organizationId workspaceId candidate ∧
      AcceptsSound table guardrail question evidence organizationId workspaceId candidate) ↔
      ConflictsShow table guardrail question evidence candidate :=
  ⟨fun both => shows_of_orderInsensitive both.1,
    fun shows_ => ⟨orderInsensitive_of_shows shows_, acceptsSound⟩⟩

end Answer
end Checks

/-- Whatever the model answers, the order of claims and citations makes no difference. -/
def AlwaysOrderInsensitive : Prop :=
  ∀ (table : TextTable) (guardrail : Guardrail) (question : String)
    (evidence : List EvidenceSnippet) (organizationId workspaceId : Option Uuid)
    (candidate : AnswerCandidate),
    OrderInsensitive table guardrail question evidence organizationId workspaceId candidate ∧
      AcceptsSound table guardrail question evidence organizationId workspaceId candidate

/-! Two snippets that contradict each other, and a third one that supports nothing. -/

def capEvidence : List EvidenceSnippet :=
  [⟨⟨"cap", "sha", 1, 0, 20, ["unlimited"]⟩, "Liability is capped."⟩,
    ⟨⟨"unlimited", "sha", 2, 0, 23, ["cap"]⟩, "Liability is unlimited."⟩,
    ⟨⟨"term", "sha", 3, 0, 20, []⟩, "The term is a month."⟩]

def capCitation : Citation := ⟨"cap", "Liability is capped."⟩

def termCitation : Citation := ⟨"term", "The term is a month."⟩

theorem not_alwaysOrderInsensitive : ¬ AlwaysOrderInsensitive := by
  intro always
  have same := ((always asciiText allowing "What is the cap?" capEvidence none none
    ⟨[⟨"Liability is capped.", [termCitation, capCitation]⟩]⟩).1
    ⟨[⟨"Liability is capped.", [capCitation, termCitation]⟩]⟩
    ⟨_, List.Perm.refl _, .cons ⟨rfl, List.Perm.swap _ _ _⟩ .nil⟩).1
  have hidden : (answerTo asciiText allowing "What is the cap?" capEvidence none none
      ⟨[⟨"Liability is capped.", [termCitation, capCitation]⟩]⟩).status =
        .insufficientEvidence := by
    decide +kernel
  have seen : (answerTo asciiText allowing "What is the cap?" capEvidence none none
      ⟨[⟨"Liability is capped.", [capCitation, termCitation]⟩]⟩).status =
        .conflictingEvidence := by
    decide +kernel
  exact nomatch seen.symm.trans (same.trans hidden)

end AgreementIntelligence.Evidence
