import AgreementIntelligence.Evidence.Guardrails
import AgreementIntelligence.Evidence.History

/-! What is stored of a turn decodes to the turn. The guardrails give known reasons, each once, and
the status that goes with them; the decoder accepts exactly such decisions. -/

namespace AgreementIntelligence.Evidence
open Identity Lib Json Dict Results Words

variable {φ : Type}

/-! Items that are encoded and read again -/

theorem mapM_encode {α : Type} {encode : α → Json φ}
    {read : Json φ → Except DecodeError (Option α)}
    (reads : ∀ x, read (encode x) = .ok (some x)) (xs : List α) :
    (xs.map encode).mapM read = .ok (xs.map some) := by
  induction xs with
  | nil => rfl
  | cons x xs ih => simp [reads x, ih, bind, Except.bind, pure, Except.pure]

theorem claimsFromPayload_claimsPayload (shown : Json φ → String) (answer : GroundedAnswer) :
    claimsFromPayload shown (claimsPayload answer) = .ok answer.claims := by
  have citation (citation : Citation) : citationFromPayload shown (.object
      [("anchor_id", .string citation.anchorId),
        ("supporting_quote", .string citation.supportingQuote)]) = .ok (some citation) := by
    simp [citationFromPayload, item, List.lookup_cons, showText, bind, Except.bind]
  have claim (claim : GroundedClaim) : claimFromPayload shown (.object
      [("text", .string claim.text),
        ("citations", .array (claim.citations.map fun citation => .object
          [("anchor_id", .string citation.anchorId),
            ("supporting_quote", .string citation.supportingQuote)]))]) = .ok (some claim) := by
    simp [claimFromPayload, Json.get, List.lookup_cons, iterate, mapM_encode citation, bind, Except.bind]
  simp [claimsFromPayload, claimsPayload, iterate, mapM_encode claim, bind, Except.bind]

theorem citationSourcesFromPayload_payload {payload : List (String × Json φ)}
    {sources : List (String × CitationSource)}
    (stored : Json.get payload "citation_sources" = citationSourcesPayload sources) :
    citationSourcesFromPayload payload = sources := by
  have source (entry : String × CitationSource) : citationSourceFrom (.object
      [("agreement_id", .string entry.2.agreementId.str),
        ("source_checksum", .string entry.2.sourceChecksum),
        ("source_version", .string entry.2.sourceVersion)] : Json φ) = some entry.2 := by
    simp [citationSourceFrom, Json.get, List.lookup_cons, UuidText.parse?_str]
  rw [citationSourcesFromPayload, stored, citationSourcesPayload]
  induction sources with
  | nil => rfl
  | cons entry rest ih => simp_all

/-! Decisions -/

/-- The decisions that the decoder knows. -/
structure Known (decision : GuardrailDecision) : Prop where
  version : decision.policyVersion = "untrusted-evidence.v1"
  distinct : decision.reasonCodes.Nodup
  known : ∀ reason ∈ decision.reasonCodes, reason ∈ blockingReasons ++ reviewReasons
  fits : reasonsFit decision.status decision.reasonCodes = true

theorem guardrailStatus_value (status : GuardrailStatus) :
    guardrailStatus (.string status.value : Json φ) = .ok (some status) := by
  cases status
  · rfl
  · rfl
  · rfl

theorem filterMap_textItem (texts : List String) :
    (texts.map .string).filterMap (textItem (φ := φ)) = texts := by
  induction texts with
  | nil => rfl
  | cons text texts ih => simp [textItem, ih]

/-- What the decoder says of the three parts of a decision. -/
theorem guardrailDecisionFrom_parts {fields : List (String × Json φ)} (status : GuardrailStatus)
    (reasons : List String)
    (version : Json.get fields "policy_version" = .string "untrusted-evidence.v1")
    (known : Json.get fields "status" = .string status.value)
    (listed : Json.get fields "reason_codes" = .array (reasons.map .string)) :
    guardrailDecisionFrom fields = .ok (if reasons.Nodup ∧
        (∀ reason ∈ reasons, reason ∈ blockingReasons ++ reviewReasons) ∧
        reasonsFit status reasons = true then
      some ⟨status, reasons, "untrusted-evidence.v1"⟩ else none) := by
  have reads : (reasons.map .string).filterMap (textItem (φ := φ)) = reasons :=
    filterMap_textItem reasons
  rw [guardrailDecisionFrom, version, known, listed]
  simp only [guardrailStatus_value, bind, Except.bind, reads, List.length_map, true_and]
  split_ifs <;> rfl

/-- A known decision survives its provenance. -/
theorem Known.decodes {decision : GuardrailDecision} (known : Known decision)
    {payload : List (String × Json φ)}
    (stored : Json.get payload "guardrail" = guardrailProvenance decision) :
    guardrailDecisionFromPayload payload = .ok (some decision) := by
  have keys : hasKeys (φ := φ) [("policy_version", .string decision.policyVersion),
      ("status", .string decision.status.value),
      ("reason_codes", .array (decision.reasonCodes.map .string))]
      ["policy_version", "status", "reason_codes"] = true := by
    simp [hasKeys]
  rw [guardrailDecisionFromPayload, stored, guardrailProvenance]
  simp only [keys, if_true]
  rw [guardrailDecisionFrom_parts decision.status decision.reasonCodes
    (by simp [Json.get, List.lookup_cons, known.version]) (by simp [Json.get, List.lookup_cons])
    (by simp [Json.get, List.lookup_cons]), if_pos ⟨known.distinct, known.known, known.fits⟩,
    ← known.version]

/-- The items of both objects are the same, in whatever order. -/
def SameItems (fields other : List (String × Json φ)) : Prop :=
  ∀ key, fields.lookup key = other.lookup key

theorem string_of_textItem {value : Json φ} {text : String} (reads : textItem value = some text) :
    value = .string text := by
  cases value <;> simp_all [textItem]

/-- A list whose items are all texts is the list of these texts. -/
theorem listed_of_texts {listed : List (Json φ)}
    (all : (listed.filterMap textItem).length = listed.length) :
    listed = (listed.filterMap textItem).map .string := by
  induction listed with
  | nil => rfl
  | cons value rest ih =>
      have shorter := List.length_filterMap_le textItem rest
      cases reads : textItem value with
      | none =>
          rw [List.filterMap_cons_none reads, List.length_cons] at all
          omega
      | some text =>
          rw [List.filterMap_cons_some reads, List.length_cons, List.length_cons] at all
          rw [List.filterMap_cons_some reads, List.map_cons, ← ih (by omega),
            string_of_textItem reads]

theorem value_of_guardrailStatus {value : Json φ} {status : GuardrailStatus}
    (reads : guardrailStatus value = .ok (some status)) : value = .string status.value := by
  unfold guardrailStatus at reads
  split at reads <;> simp_all [GuardrailStatus.value]
  all_goals subst reads; rfl

theorem lookup_eq_get {fields : List (String × Json φ)} {key : String}
    (listed : key ∈ fields.map Prod.fst) : fields.lookup key = some (Json.get fields key) := by
  rw [Json.get]
  cases found : fields.lookup key with
  | none =>
      obtain ⟨field, member, same⟩ := List.mem_map.mp listed
      have apart := List.lookup_eq_none_iff.mp found field member
      simp [same] at apart
  | some value => rfl

/-- An object with exactly the keys of a decision is made up of its three parts. -/
theorem sameItems_of_hasKeys {fields : List (String × Json φ)}
    (keys : hasKeys fields ["policy_version", "status", "reason_codes"] = true) :
    SameItems fields [("policy_version", Json.get fields "policy_version"),
      ("status", Json.get fields "status"), ("reason_codes", Json.get fields "reason_codes")] := by
  rw [hasKeys, Bool.and_eq_true, List.all_eq_true, List.all_eq_true] at keys
  obtain ⟨only, all⟩ := keys
  intro key
  by_cases expected : key ∈ ["policy_version", "status", "reason_codes"]
  · have listed : fields.lookup key = some (Json.get fields key) :=
      lookup_eq_get (of_decide_eq_true (all key expected))
    simp only [List.mem_cons, List.not_mem_nil, or_false] at expected
    rcases expected with rfl | rfl | rfl
    · simpa [List.lookup_cons] using listed
    · simpa [List.lookup_cons] using listed
    · simpa [List.lookup_cons] using listed
  · have absent : fields.lookup key = none := List.lookup_eq_none_iff.mpr fun field member => by
      have known := of_decide_eq_true (only field member)
      exact bne_iff_ne.mpr fun same => expected (same ▸ known)
    simp only [List.mem_cons, List.not_mem_nil, or_false, not_or] at expected
    rw [absent, eq_comm, List.lookup_eq_none_iff]
    simp [expected]

theorem accepted_reencodes {payload : List (String × Json φ)} {decision : GuardrailDecision}
    (accepted : guardrailDecisionFromPayload payload = .ok (some decision)) :
    ∃ fields stored, Json.get payload "guardrail" = .object fields ∧
      guardrailProvenance decision = .object stored ∧ SameItems fields stored := by
  rw [guardrailDecisionFromPayload] at accepted
  split at accepted
  · next fields found =>
      split at accepted
      · next keys =>
          rw [guardrailDecisionFrom.eq_def] at accepted
          split at accepted
          · next version =>
              rw [bind_ok] at accepted
              obtain ⟨status, reads, accepted⟩ := accepted
              split at accepted
              · next status listed known =>
                  dsimp only at accepted
                  split_ifs at accepted with fit
                  · cases accepted
                    refine ⟨fields, _, found, rfl, ?_⟩
                    have parts := sameItems_of_hasKeys keys
                    rwa [version, value_of_guardrailStatus reads, known,
                      listed_of_texts fit.1] at parts
                  · cases accepted
              · cases accepted
          · cases accepted
      · cases accepted
  · cases accepted

/-! What the guardrails decide -/

variable {unicode : UnicodeTable} {allowed : List String}

theorem known_of_mem_reasonsOf {entry : String × String} {reason : String}
    (member : reason ∈ reasonsOf unicode allowed entry) :
    reason ∈ blockingReasons ++ reviewReasons := by
  have plain : ∀ reason ∈ plainReasons unicode entry.2, reason ∈ blockingReasons ++ reviewReasons := by
    rw [plainReasons]
    split_ifs <;> simp [blockingReasons, reviewReasons]
  rw [reasonsOf, List.mem_append, List.mem_append] at member
  rcases member with (foreign | found) | encoded
  · split_ifs at foreign <;> simp_all [blockingReasons]
  · exact plain reason found
  · split_ifs at encoded <;> simp_all [blockingReasons]

theorem reasonsFit_statusOf {reasons : List String}
    (known : ∀ reason ∈ reasons, reason ∈ blockingReasons ++ reviewReasons) :
    reasonsFit (statusOf reasons) reasons = true := by
  rw [statusOf]
  split_ifs with blocked some_
  · exact blocked
  · have others : ∀ reason ∈ reasons, reason ∈ reviewReasons := fun reason member =>
      (List.mem_append.mp (known reason member)).resolve_left fun blocking =>
        blocked (List.any_eq_true.mpr ⟨reason, member, decide_eq_true blocking⟩)
    simpa [reasonsFit, some_] using others
  · simpa [reasonsFit] using some_

theorem validateUntrustedEvidence_known (unicode : UnicodeTable) (evidence : List (String × String))
    (allowed : List String) : Known (validateUntrustedEvidence unicode evidence allowed) := by
  have known : ∀ reason ∈ reasonCodes unicode evidence allowed,
      reason ∈ blockingReasons ++ reviewReasons := by
    intro reason member
    obtain ⟨entry, -, found⟩ := mem_reasonCodes.mp member
    exact known_of_mem_reasonsOf found
  exact
    { version := rfl
      distinct := (foldl_addReason _ List.nodup_nil).1
      known := known
      fits := reasonsFit_statusOf known }

/-! Turns -/

theorem answerStatusFrom_value (status : AnswerStatus) :
    answerStatusFrom (answerStatusValue status) = status := by
  cases status <;> rfl

/-- Whether a turn keeps its answer is up to the status of its decision. -/
theorem turnFromRecord_recordOf (shown : Json φ → String) {turn : QuestionTurn} (resultCount : Nat)
    (known : Known turn.answer.guardrailDecision) :
    turnFromRecord shown (recordOf turn resultCount) = .ok
      (if turn.answer.guardrailDecision.status = .allow then turn
      else { turn with
        answer := ⟨.insufficientEvidence, [], "Prior evidence requires review.",
          turn.answer.guardrailDecision⟩ }) := by
  have decision : guardrailDecisionFromPayload (φ := φ)
      [("result_count", .int resultCount),
        ("citation_sources", citationSourcesPayload turn.citationSources),
        ("guardrail", guardrailProvenance turn.answer.guardrailDecision)] =
      .ok (some turn.answer.guardrailDecision) :=
    known.decodes (by simp [Json.get, List.lookup_cons])
  have sources : citationSourcesFromPayload (φ := φ)
      [("result_count", .int resultCount),
        ("citation_sources", citationSourcesPayload turn.citationSources),
        ("guardrail", guardrailProvenance turn.answer.guardrailDecision)] = turn.citationSources :=
    citationSourcesFromPayload_payload (by simp [Json.get, List.lookup_cons])
  simp only [turnFromRecord, recordOf, claimsFromPayload_claimsPayload, provenanceOf, decision,
    bind, Except.bind, turnOf, sources, answerStatusFrom_value]
  split_ifs <;> rfl

/-- An answer has the decision on its evidence, or the default one where that was not asked for. -/
theorem answerQuestion_decision (table : TextTable) (guardrail : Guardrail) (answerer : Answerer)
    (question : String) (evidence : List EvidenceSnippet) (organizationId workspaceId : Option Uuid) :
    (answerQuestion table guardrail answerer question evidence organizationId
      workspaceId).guardrailDecision = defaultDecision ∨
    (answerQuestion table guardrail answerer question evidence organizationId
      workspaceId).guardrailDecision = guardrailDecision guardrail evidence := by
  rw [answerQuestion]
  split
  · exact .inl rfl
  · right
    dsimp only
    split
    · rfl
    · split
      · rfl
      · rfl
      · split_ifs <;> rfl

theorem defaultDecision_known : Known defaultDecision := by
  constructor <;> simp [defaultDecision, reasonsFit]

/-- The turns that `ask` gives back have decisions that the decoder knows. -/
theorem ask_known {table : TextTable} {shown : Json φ → String} {unicode : UnicodeTable}
    {answerer : Answerer} {repository : Repository φ} {canAccess : Bool}
    {results : List SearchResult} {turnId : Uuid} {question : String} {now : Nat}
    {turn : QuestionTurn}
    (asked : ask table shown (validateUntrustedEvidence unicode) answerer repository canAccess
      results turnId question now = some turn) : Known turn.answer.guardrailDecision := by
  rw [ask] at asked
  split at asked
  · cases asked
  · split_ifs at asked
    cases asked
    rcases answerQuestion_decision table (validateUntrustedEvidence unicode)
      (conversing shown repository answerer) question _ _ _ with plain | decided
    · exact plain ▸ defaultDecision_known
    · exact decided ▸ validateUntrustedEvidence_known unicode _ _

/-- Decisions survive their provenance; a turn that is asked for decodes to itself when its
decision allows it, and without claims otherwise; what the decoder of decisions accepts encodes
again to itself. -/
theorem storedTurns_decode (table : TextTable) (shown : Json φ → String) (unicode : UnicodeTable) :
    (∀ evidence allowedAnchorIds, ∀ payload : List (String × Json φ),
      Json.get payload "guardrail" =
        guardrailProvenance (validateUntrustedEvidence unicode evidence allowedAnchorIds) →
      guardrailDecisionFromPayload payload =
        .ok (some (validateUntrustedEvidence unicode evidence allowedAnchorIds))) ∧
    (∀ (answerer : Answerer) (repository : Repository φ) (canAccess : Bool)
      (results : List SearchResult) (turnId : Uuid) (question : String) (now : Nat)
      (turn : QuestionTurn),
      ask table shown (validateUntrustedEvidence unicode) answerer repository canAccess results
        turnId question now = some turn →
      (turn.answer.guardrailDecision.status = .allow →
        turnFromRecord shown (recordOf turn results.length) = .ok turn) ∧
      (turn.answer.guardrailDecision.status ≠ .allow →
        ∃ decoded, turnFromRecord shown (recordOf turn results.length) = .ok decoded ∧
          decoded.answer.claims = [])) ∧
    ∀ (payload : List (String × Json φ)) (decision : GuardrailDecision),
      guardrailDecisionFromPayload payload = .ok (some decision) →
      ∃ fields stored, Json.get payload "guardrail" = .object fields ∧
        guardrailProvenance decision = .object stored ∧ SameItems fields stored := by
  refine ⟨?_, ?_, ?_⟩
  · intro evidence allowedAnchorIds payload stored
    exact (validateUntrustedEvidence_known unicode evidence allowedAnchorIds).decodes stored
  · intro answerer repository canAccess results turnId question now turn asked
    have decodes := turnFromRecord_recordOf shown results.length (ask_known asked)
    constructor
    · intro allowed
      rw [decodes, if_pos allowed]
    · intro refused
      refine ⟨_, decodes, ?_⟩
      rw [if_neg refused]
  · intro payload decision accepted
    exact accepted_reencodes accepted

end AgreementIntelligence.Evidence
