import AgreementIntelligence.Evidence.CompleteSentences
import AgreementIntelligence.Evidence.StoredTurns

/-! Question threads: what is shown of their history, and what of it the model is given with the
next question. Evidence is searched anew for every question, and of earlier turns only claims
pass whose sources are all visible still. The permission of the caller, the search and the audit
events are left to their own modules. -/

namespace AgreementIntelligence.Evidence
open Identity Lib.Json Lib.Dict Lib.Results Lib.Words

structure QuestionThread where
  id : Uuid
  organizationId : Uuid
  workspaceId : Uuid
  agreementIds : Option (List Uuid)
  deriving DecidableEq, Repr

structure QuestionThreadView where
  thread : QuestionThread
  turns : List QuestionTurn

/-- What the repository answers for a thread: its row, its turns in order, and which agreements
of its workspace are visible at the moment. -/
structure Repository (φ : Type) where
  thread : Option QuestionThread
  turns : List (QuestionTurnRecord φ)
  visible : List Uuid

variable {φ : Type}

/-- `visible_agreement_ids` -/
def Repository.visibleAgreementIds (repository : Repository φ) (agreementIds : List Uuid) :
    List Uuid :=
  agreementIds.filter (· ∈ repository.visible)

/-- `_load_thread` -/
def loadThread (repository : Repository φ) : Option QuestionThread :=
  match repository.thread with
  | none => none
  | some loaded =>
    let requested := loaded.agreementIds.getD []
    if requested ≠ [] ∧ ¬ requested ⊆ repository.visibleAgreementIds requested then none
    else some loaded

section Redaction

/-- The anchors of a turn whose sources are visible. -/
def validAnchorIds (turn : QuestionTurn) (visible : List Uuid) : List String :=
  (turn.citationSources.filter fun entry => entry.2.agreementId ∈ visible).map Prod.fst

/-- The claim has citations, and all name valid anchors. -/
def survives (turn : QuestionTurn) (visible : List Uuid) (claim : GroundedClaim) : Bool :=
  claim.citations ≠ [] &&
    claim.citations.all fun citation => citation.anchorId ∈ validAnchorIds turn visible

/-- The guardrail decision that a `GroundedAnswer` has by default. -/
def defaultDecision : GuardrailDecision := ⟨.allow, [], "untrusted-evidence.v1"⟩

/-- `_redact_turn` -/
def redactTurn (turn : QuestionTurn) (visible : List Uuid) : QuestionTurn :=
  let claims := turn.answer.claims.filter (survives turn visible)
  let citationSources := turn.citationSources.filter fun entry =>
    entry.1 ∈ validAnchorIds turn visible
  if claims.length = turn.answer.claims.length then
    { turn with citationSources := citationSources }
  else if claims = [] then
    { turn with
      answer := ⟨.insufficientEvidence, [],
        "Prior evidence is no longer available to your current access.", defaultDecision⟩
      citationSources := citationSources }
  else
    { turn with
      answer := ⟨.partiallyAnswered, claims,
        "Some prior evidence is no longer available to your current access.", defaultDecision⟩
      citationSources := citationSources }

/-- `_load_turns` -/
def loadTurns (shown : Json φ → String) (repository : Repository φ) :
    Except DecodeError (List QuestionTurn) :=
  repository.turns.mapM (turnFromRecord shown)

/-- `_redact_inaccessible_turns` -/
def redactInaccessibleTurns (shown : Json φ → String) (repository : Repository φ) :
    Except DecodeError (List QuestionTurn) := do
  let turns ← loadTurns shown repository
  let agreementIds := turns.flatMap fun turn => turn.citationSources.map fun entry =>
    entry.2.agreementId
  let visible := repository.visibleAgreementIds agreementIds
  .ok (turns.map fun turn => redactTurn turn visible)

end Redaction

/-- The claims that a turn gives to `_validated_context`. -/
def contextClaims (turn : QuestionTurn) : List GroundedClaim :=
  if turn.answer.status ∈ [AnswerStatus.answered, .partiallyAnswered] ∧
      turn.answer.guardrailDecision.status = .allow then turn.answer.claims
  else []

/-- `_validated_context` -/
def validatedContext (turns : List QuestionTurn) : List String :=
  turns.flatMap fun turn => (contextClaims turn).map (·.text)

/-- `turns[-10:]` -/
def lastTen {α : Type} (turns : List α) : List α :=
  turns.drop (turns.length - 10)

/-- The texts that the model is given as the conversation so far. -/
def conversationContext (shown : Json φ → String) (repository : Repository φ) :
    Except DecodeError (List String) := do
  let turns ← redactInaccessibleTurns shown repository
  .ok (validatedContext (lastTen turns))

/-- The model with the conversation so far. A history that cannot be read raises where the model
would be called. -/
def conversing (shown : Json φ → String) (repository : Repository φ) (answerer : Answerer) :
    Answerer := fun request =>
  match conversationContext shown repository with
  | .error _ => .error ()
  | .ok context => answerer { request with conversationContext := context }

/-- `ask`, for a caller with or without access and the results of the search. `none` is its
`PermissionError`; the turn is stored as `recordOf` says. -/
def ask (table : TextTable) (shown : Json φ → String) (guardrail : Guardrail)
    (answerer : Answerer) (repository : Repository φ) (canAccess : Bool)
    (results : List SearchResult) (turnId : Uuid) (question : String) (now : Nat) :
    Option QuestionTurn :=
  match loadThread repository with
  | none => none
  | some persisted =>
    if canAccess then
      let sources := citationSourcesFromSearch results
      some
        { id := turnId
          question := question
          answer := answerQuestion table guardrail (conversing shown repository answerer) question
            (evidenceFromSearch results sources) (some persisted.organizationId)
            (some persisted.workspaceId)
          createdAt := now
          citationSources := sources }
    else none

/-- `read_thread` -/
def readThread (shown : Json φ → String) (repository : Repository φ) (canAccess : Bool) :
    Except DecodeError (Option QuestionThreadView) :=
  match loadThread repository with
  | none => .ok none
  | some persisted =>
    if canAccess then do
      let turns ← redactInaccessibleTurns shown repository
      .ok (some ⟨persisted, turns⟩)
    else .ok none

end AgreementIntelligence.Evidence
