import AgreementIntelligence.Evidence.History

/-! The history of a thread shows no claim on evidence that is hidden by now. Redaction keeps the
claims whose citations all have a visible source; what stands in the others, and how many there
are, has no bearing on what the model is told. -/

namespace AgreementIntelligence.Evidence
open Identity Lib.Json Lib.Dict Lib.Results Lib.Words

variable {φ : Type}

/-- The claim has citations, and the source of each is of a visible agreement. -/
def Backed (sources : List (String × CitationSource)) (visible : List Uuid)
    (claim : GroundedClaim) : Prop :=
  claim.citations ≠ [] ∧ ∀ citation ∈ claim.citations, ∃ source,
    (citation.anchorId, source) ∈ sources ∧ source.agreementId ∈ visible

section Turns
variable {turn : QuestionTurn} {visible wider : List Uuid}

theorem mem_validAnchorIds {anchorId : String} : anchorId ∈ validAnchorIds turn visible ↔
    ∃ source, (anchorId, source) ∈ turn.citationSources ∧ source.agreementId ∈ visible := by
  simp [validAnchorIds]

theorem survives_iff {claim : GroundedClaim} :
    survives turn visible claim = true ↔ Backed turn.citationSources visible claim := by
  simp [survives, Backed, mem_validAnchorIds]

/-- The claims that are left are those that are backed. -/
theorem claims_redactTurn :
    (redactTurn turn visible).answer.claims = turn.answer.claims.filter (survives turn visible) := by
  simp only [redactTurn]
  split
  · rename_i whole
    exact (List.filter_eq_self.mpr (List.length_filter_eq_length_iff.mp whole)).symm
  · split
    · rename_i none_
      exact none_.symm
    · rfl

theorem citationSources_redactTurn : (redactTurn turn visible).citationSources =
    turn.citationSources.filter fun entry => entry.1 ∈ validAnchorIds turn visible := by
  simp only [redactTurn]
  split
  · rfl
  · split <;> rfl

theorem mem_citationSources_redactTurn {anchorId : String} {source : CitationSource}
    (shown : source.agreementId ∈ visible) :
    (anchorId, source) ∈ (redactTurn turn visible).citationSources ↔
      (anchorId, source) ∈ turn.citationSources := by
  rw [citationSources_redactTurn, List.mem_filter, decide_eq_true_eq, mem_validAnchorIds]
  exact ⟨And.left, fun member => ⟨member, source, member, shown⟩⟩

theorem mem_validAnchorIds_redactTurn {anchorId : String} :
    anchorId ∈ validAnchorIds (redactTurn turn visible) visible ↔
      anchorId ∈ validAnchorIds turn visible := by
  rw [mem_validAnchorIds, mem_validAnchorIds]
  constructor
  · rintro ⟨source, member, shown⟩
    exact ⟨source, (mem_citationSources_redactTurn shown).mp member, shown⟩
  · rintro ⟨source, member, shown⟩
    exact ⟨source, (mem_citationSources_redactTurn shown).mpr member, shown⟩

theorem backed_redactTurn {claim : GroundedClaim} :
    Backed (redactTurn turn visible).citationSources visible claim ↔
      Backed turn.citationSources visible claim := by
  rw [← survives_iff, ← survives_iff, survives, survives]
  simp only [mem_validAnchorIds_redactTurn]

/-- Where nothing is to be left out, redaction changes nothing. -/
theorem redactTurn_eq_self (claims : ∀ claim ∈ turn.answer.claims, survives turn visible claim)
    (sources : ∀ entry ∈ turn.citationSources, entry.1 ∈ validAnchorIds turn visible) :
    redactTurn turn visible = turn := by
  have whole : turn.answer.claims.filter (survives turn visible) = turn.answer.claims :=
    List.filter_eq_self.mpr claims
  have every : (turn.citationSources.filter fun entry =>
      decide (entry.1 ∈ validAnchorIds turn visible)) = turn.citationSources :=
    List.filter_eq_self.mpr fun entry member => decide_eq_true (sources entry member)
  rw [redactTurn, whole, every, if_pos rfl]

theorem redactTurn_idem (turn : QuestionTurn) (visible : List Uuid) :
    redactTurn (redactTurn turn visible) visible = redactTurn turn visible := by
  apply redactTurn_eq_self
  · intro claim member
    rw [claims_redactTurn, List.mem_filter] at member
    exact survives_iff.mpr (backed_redactTurn.mpr (survives_iff.mp member.2))
  · intro entry member
    rw [citationSources_redactTurn, List.mem_filter, decide_eq_true_eq] at member
    exact mem_validAnchorIds_redactTurn.mpr member.2

/-- A smaller visible set leaves no more claims. -/
theorem claims_redactTurn_sublist (turn : QuestionTurn) (smaller : visible ⊆ wider) :
    (redactTurn turn visible).answer.claims.Sublist (redactTurn turn wider).answer.claims := by
  rw [claims_redactTurn, claims_redactTurn]
  apply List.monotone_filter_right
  intro claim kept
  obtain ⟨cites, backed⟩ := survives_iff.mp kept
  refine survives_iff.mpr ⟨cites, fun citation member => ?_⟩
  obtain ⟨source, listed, shown⟩ := backed citation member
  exact ⟨source, listed, smaller shown⟩

/-- Redaction asks of the visible set only for the agreements of the turn's sources. -/
theorem redactTurn_congr (same : ∀ entry ∈ turn.citationSources,
    entry.2.agreementId ∈ visible ↔ entry.2.agreementId ∈ wider) :
    redactTurn turn visible = redactTurn turn wider := by
  have anchors : validAnchorIds turn visible = validAnchorIds turn wider := by
    rw [validAnchorIds, validAnchorIds]
    congr 1
    exact List.filter_congr fun entry member => decide_eq_decide.mpr (same entry member)
  have kept : survives turn visible = survives turn wider := by
    funext claim
    rw [survives, survives, anchors]
  rw [redactTurn, redactTurn, kept, anchors]

/-- What a redacted turn tells the model: its backed claims, where it was answered or where
redaction has left some of its claims out. -/
theorem contextClaims_redactTurn : contextClaims (redactTurn turn visible) =
    if turn.answer.claims.filter (survives turn visible) ≠ turn.answer.claims ∨
        (turn.answer.status ∈ [AnswerStatus.answered, .partiallyAnswered] ∧
          turn.answer.guardrailDecision.status = .allow) then
      turn.answer.claims.filter (survives turn visible)
    else [] := by
  by_cases whole : turn.answer.claims.filter (survives turn visible) = turn.answer.claims
  · have length := congrArg List.length whole
    rw [contextClaims, redactTurn, if_pos length, whole]
    simp
  · have shorter : (turn.answer.claims.filter (survives turn visible)).length ≠
        turn.answer.claims.length := fun length =>
      whole (List.filter_eq_self.mpr (List.length_filter_eq_length_iff.mp length))
    rw [contextClaims, claims_redactTurn, if_pos (Or.inl whole)]
    simp only [redactTurn, if_neg shorter]
    split
    · rename_i none_
      rw [none_, ite_self]
    · exact if_pos ⟨List.mem_cons_of_mem _ List.mem_cons_self, rfl⟩

end Turns

section Threads
variable (shown : Json φ → String) (repository : Repository φ)

theorem redactInaccessibleTurns_eq : redactInaccessibleTurns shown repository =
    (loadTurns shown repository).map fun turns =>
      turns.map fun turn => redactTurn turn repository.visible := by
  rw [redactInaccessibleTurns]
  cases loadTurns shown repository with
  | error e => rfl
  | ok turns =>
      refine congrArg Except.ok (List.map_congr_left fun turn member => ?_)
      apply redactTurn_congr
      intro entry listed
      simp only [Repository.visibleAgreementIds, List.mem_filter, List.mem_flatMap, List.mem_map,
        decide_eq_true_eq, and_iff_right_iff_imp]
      exact fun _ => ⟨turn, member, entry, listed, rfl⟩

/-- What a stored turn tells the model. -/
def contextOf (visible : List Uuid) (record : QuestionTurnRecord φ) :
    Except DecodeError (List GroundedClaim) :=
  (turnFromRecord shown record).map fun turn => contextClaims (redactTurn turn visible)

theorem lastTen_map {α β : Type} (f : α → β) (items : List α) :
    lastTen (items.map f) = (lastTen items).map f := by
  rw [lastTen, lastTen, List.length_map, List.map_drop]

/-- The conversation so far is told turn by turn. -/
theorem conversationContext_eq : conversationContext shown repository =
    (repository.turns.mapM (contextOf shown repository.visible)).map fun found =>
      (lastTen found).flatten.map (·.text) := by
  have turnwise := map_mapM (turnFromRecord shown)
    (fun turn => contextClaims (redactTurn turn repository.visible)) repository.turns
  unfold contextOf
  rw [← turnwise, conversationContext, redactInaccessibleTurns_eq, loadTurns]
  cases repository.turns.mapM (turnFromRecord shown) with
  | error e => rfl
  | ok turns =>
      refine congrArg Except.ok ?_
      simp only [validatedContext, lastTen_map, List.flatMap_def, List.map_flatten, List.map_map]
      rfl

/-- The turn is read from a stored row. -/
def Stored (turn : QuestionTurn) : Prop :=
  ∃ record ∈ repository.turns, turnFromRecord shown record = .ok turn

variable {shown repository}

/-- Every text of the conversation so far is that of a stored claim that is backed. -/
theorem conversationContext_backed {context : List String}
    (told : conversationContext shown repository = .ok context) :
    ∃ passed : List (QuestionTurn × GroundedClaim), context = passed.map (·.2.text) ∧
      ∀ entry ∈ passed, Stored shown repository entry.1 ∧ entry.2 ∈ entry.1.answer.claims ∧
        Backed entry.1.citationSources repository.visible entry.2 := by
  rw [conversationContext, redactInaccessibleTurns_eq] at told
  cases loaded : loadTurns shown repository with
  | error e =>
      rw [loaded] at told
      cases told
  | ok turns =>
      rw [loaded] at told
      cases told
      refine ⟨(lastTen turns).flatMap fun turn =>
        (contextClaims (redactTurn turn repository.visible)).map fun claim => (turn, claim), ?_, ?_⟩
      · rw [lastTen_map, validatedContext, List.map_flatMap, List.flatMap_map]
        simp [List.map_map, Function.comp_def]
      · intro entry member
        obtain ⟨turn, listed, claimed⟩ := List.mem_flatMap.mp member
        obtain ⟨claim, told, rfl⟩ := List.mem_map.mp claimed
        obtain ⟨record, row, read⟩ := mem_of_mapM loaded (List.mem_of_mem_drop listed)
        rw [contextClaims_redactTurn] at told
        split at told
        · obtain ⟨inside, kept⟩ := List.mem_filter.mp told
          exact ⟨⟨record, row, read⟩, inside, survives_iff.mp kept⟩
        · cases told

/-- A turn that is shown has only claims of the stored turn, all of them backed. -/
theorem readThread_backed {canAccess : Bool} {view : QuestionThreadView}
    (read : readThread shown repository canAccess = .ok (some view)) :
    List.Forall₂ (fun record turn => ∃ stored, turnFromRecord shown record = .ok stored ∧
      ∀ claim ∈ turn.answer.claims, claim ∈ stored.answer.claims ∧
        Backed stored.citationSources repository.visible claim ∧
        Backed turn.citationSources repository.visible claim) repository.turns view.turns := by
  unfold readThread at read
  split at read
  · cases read
  split at read
  · rw [redactInaccessibleTurns_eq] at read
    cases loaded : loadTurns shown repository with
    | error e =>
        rw [loaded] at read
        cases read
    | ok turns =>
        rw [loaded] at read
        cases read
        rw [List.forall₂_map_right_iff]
        refine (mapM_ok.mp loaded).imp fun record stored found => ⟨stored, found, ?_⟩
        intro claim member
        rw [claims_redactTurn] at member
        obtain ⟨inside, kept⟩ := List.mem_filter.mp member
        have backed := survives_iff.mp kept
        exact ⟨inside, backed, backed_redactTurn.mpr backed⟩
  · cases read

end Threads

section Changes
variable (shown : Json φ → String) (visible : List Uuid)

/-- The sources that a row has stored. -/
def sourcesOfRecord (record : QuestionTurnRecord φ) : List (String × CitationSource) :=
  match record.retrievalProvenance with
  | .object payload => citationSourcesFromPayload payload
  | _ => []

/-- The claim cites an anchor that has no visible source. -/
def citesHidden (sources : List (String × CitationSource)) (claim : GroundedClaim) : Bool :=
  claim.citations.any fun citation =>
    !sources.any fun entry => entry.1 = citation.anchorId ∧ entry.2.agreementId ∈ visible

/-- A stored claim that cites hidden evidence. -/
def isHidden (sources : List (String × CitationSource)) (payload : Json φ) : Bool :=
  match claimFromPayload shown payload with
  | .ok found => found.any (citesHidden visible sources)
  | .error _ => false

/-- Other claims for a row, which differ in stored claims that cite hidden evidence and in
nothing else. Where the stored status is no answer's, so that no claim should be stored at all,
some such claim stays. -/
def AltersClaims (record : QuestionTurnRecord φ) (claims : Json φ) : Prop :=
  ∃ payloads payloads', iterate record.claims = .ok payloads ∧ iterate claims = .ok payloads' ∧
    (payloads.filter fun payload => !isHidden shown visible (sourcesOfRecord record) payload) =
      (payloads'.filter fun payload => !isHidden shown visible (sourcesOfRecord record) payload) ∧
    (answerStatusFrom record.answerStatus ∈ [AnswerStatus.answered, .partiallyAnswered] ∨
      payloads.any (isHidden shown visible (sourcesOfRecord record)) =
        payloads'.any (isHidden shown visible (sourcesOfRecord record)))

def Alters (record other : QuestionTurnRecord φ) : Prop :=
  other = record ∨
    ∃ claims, other = { record with claims := claims } ∧ AltersClaims shown visible record claims

variable {shown visible}

theorem not_citesHidden_of_backed {sources : List (String × CitationSource)} {claim : GroundedClaim}
    (backed : Backed sources visible claim) : citesHidden visible sources claim = false := by
  rw [citesHidden, List.any_eq_false]
  intro citation member
  obtain ⟨source, listed, shown⟩ := backed.2 citation member
  simp only [Bool.not_eq_true', Bool.not_eq_false, List.any_eq_true, decide_eq_true_eq]
  exact ⟨(citation.anchorId, source), listed, rfl, shown⟩

theorem filter_survives {turn : QuestionTurn} (claims : List GroundedClaim) :
    claims.filter (survives turn visible) =
      (claims.filter fun claim => !citesHidden visible turn.citationSources claim).filter
        (survives turn visible) := by
  rw [List.filter_filter]
  apply List.filter_congr
  intro claim _
  cases kept : survives turn visible claim with
  | false => rfl
  | true => rw [not_citesHidden_of_backed (survives_iff.mp kept), Bool.not_false, Bool.and_true]

/-- All claims survive when none cites hidden evidence and the others do. -/
theorem all_survive_iff {turn : QuestionTurn} (claims : List GroundedClaim) :
    claims.filter (survives turn visible) = claims ↔
      claims.any (citesHidden visible turn.citationSources) = false ∧
        ∀ claim ∈ claims.filter (fun claim => !citesHidden visible turn.citationSources claim),
          survives turn visible claim = true := by
  rw [List.filter_eq_self, List.any_eq_false]
  constructor
  · intro every
    refine ⟨fun claim member => ?_, fun claim member => every claim (List.mem_filter.mp member).1⟩
    rw [not_citesHidden_of_backed (survives_iff.mp (every claim member))]
    exact Bool.false_ne_true
  · rintro ⟨open_, others⟩ claim member
    refine others claim (List.mem_filter.mpr ⟨member, ?_⟩)
    rw [Bool.not_eq_true', Bool.eq_false_iff]
    exact open_ claim member

theorem survives_congr {turn other : QuestionTurn}
    (same : turn.citationSources = other.citationSources) :
    survives turn visible = survives other visible := by
  funext claim
  rw [survives, survives, validAnchorIds, validAnchorIds, same]

/-- The claims on hidden evidence do not matter to what a turn tells. -/
theorem contextClaims_congr {turn other : QuestionTurn}
    (sources : turn.citationSources = other.citationSources)
    (status : turn.answer.status = other.answer.status)
    (decision : turn.answer.guardrailDecision = other.answer.guardrailDecision)
    (same : (turn.answer.claims.filter fun claim =>
        !citesHidden visible turn.citationSources claim) =
      other.answer.claims.filter fun claim => !citesHidden visible turn.citationSources claim)
    (some_ : (turn.answer.status ∈ [AnswerStatus.answered, .partiallyAnswered] ∧
        turn.answer.guardrailDecision.status = .allow) ∨
      turn.answer.claims.any (citesHidden visible turn.citationSources) =
        other.answer.claims.any (citesHidden visible turn.citationSources)) :
    contextClaims (redactTurn turn visible) = contextClaims (redactTurn other visible) := by
  have kept : other.answer.claims.filter (survives other visible) =
      turn.answer.claims.filter (survives turn visible) := by
    rw [filter_survives turn.answer.claims, same, filter_survives other.answer.claims, ← sources,
      survives_congr sources]
  rw [contextClaims_redactTurn, contextClaims_redactTurn, kept, ← status, ← decision]
  rcases some_ with answered | hidden
  · rw [if_pos (.inr answered), if_pos (.inr answered)]
  · have whole : turn.answer.claims.filter (survives turn visible) = turn.answer.claims ↔
        turn.answer.claims.filter (survives turn visible) = other.answer.claims := by
      rw [all_survive_iff, same, hidden, ← kept, all_survive_iff, ← sources,
        survives_congr sources]
    exact if_congr (or_congr_left (not_congr whole)) rfl rfl

/-- What is left of the read claims when those on hidden evidence are left out. -/
theorem filterMap_open (sources : List (String × CitationSource))
    (found : List (Option GroundedClaim)) :
    (found.filterMap id).filter (fun claim => !citesHidden visible sources claim) =
      (found.filter fun read => !read.any (citesHidden visible sources)).filterMap id := by
  induction found with
  | nil => rfl
  | cons read rest ih =>
      cases read with
      | none => simpa using ih
      | some claim =>
          by_cases hidden : citesHidden visible sources claim = true
          · simpa [hidden] using ih
          · simpa [hidden] using ih

theorem any_filterMap (sources : List (String × CitationSource))
    (found : List (Option GroundedClaim)) :
    (found.filterMap id).any (citesHidden visible sources) =
      found.any fun read => read.any (citesHidden visible sources) := by
  induction found with
  | nil => rfl
  | cons read rest ih =>
      cases read with
      | none => exact ih
      | some claim => exact congrArg (citesHidden visible sources claim || ·) ih

theorem isHidden_returns {sources : List (String × CitationSource)} (payload : Json φ)
    (hidden : isHidden shown visible sources payload = true) :
    ∃ found, claimFromPayload shown payload = .ok found := by
  rw [isHidden] at hidden
  split at hidden
  · rename_i found read
    exact ⟨found, read⟩
  · cases hidden

theorem isHidden_of_read {sources : List (String × CitationSource)} (payload : Json φ)
    (found : Option GroundedClaim) (read : claimFromPayload shown payload = .ok found) :
    isHidden shown visible sources payload = found.any (citesHidden visible sources) := by
  rw [isHidden, read]

theorem any_isHidden {sources : List (String × CitationSource)} {payloads : List (Json φ)}
    {found : List (Option GroundedClaim)}
    (read : payloads.mapM (claimFromPayload shown) = .ok found) :
    payloads.any (isHidden shown visible sources) =
      (found.filterMap id).any (citesHidden visible sources) := by
  rw [any_filterMap]
  induction mapM_ok.mp read with
  | nil => rfl
  | cons first later ih =>
      rw [List.any_cons, List.any_cons, isHidden_of_read _ _ first, ih (mapM_ok.mpr later)]

theorem contextOf_error {record : QuestionTurnRecord φ} {payloads : List (Json φ)}
    {error : DecodeError} (iterates : iterate record.claims = .ok payloads)
    (fails : payloads.mapM (claimFromPayload shown) = .error error) :
    contextOf shown visible record = .error error := by
  rw [contextOf, turnFromRecord, claimsFromPayload, iterates]
  simp only [bind, Except.bind, fails]
  rfl

theorem contextOf_read {record : QuestionTurnRecord φ} {payloads : List (Json φ)}
    {found : List (Option GroundedClaim)} (iterates : iterate record.claims = .ok payloads)
    (read : payloads.mapM (claimFromPayload shown) = .ok found) :
    contextOf shown visible record = (do
      let provenance ← provenanceOf record
      let decision ← guardrailDecisionFromPayload provenance
      .ok (contextClaims
        (redactTurn (turnOf record (found.filterMap id) provenance decision) visible))) := by
  rw [contextOf, turnFromRecord, claimsFromPayload, iterates]
  simp only [bind, Except.bind, read]
  cases provenanceOf record with
  | error e => rfl
  | ok provenance =>
      simp only
      cases guardrailDecisionFromPayload provenance with
      | error e => rfl
      | ok decision => rfl

theorem contextClaims_turnOf {record : QuestionTurnRecord φ} {claims claims' : List GroundedClaim}
    {provenance : List (String × Json φ)} (decision : Option GuardrailDecision)
    (same : (claims.filter fun claim =>
        !citesHidden visible (citationSourcesFromPayload provenance) claim) =
      claims'.filter fun claim =>
        !citesHidden visible (citationSourcesFromPayload provenance) claim)
    (some_ : answerStatusFrom record.answerStatus ∈ [AnswerStatus.answered, .partiallyAnswered] ∨
      claims.any (citesHidden visible (citationSourcesFromPayload provenance)) =
        claims'.any (citesHidden visible (citationSourcesFromPayload provenance))) :
    contextClaims (redactTurn (turnOf record claims provenance decision) visible) =
      contextClaims (redactTurn (turnOf record claims' provenance decision) visible) := by
  cases decision with
  | none => rfl
  | some decision =>
      by_cases allowed : decision.status = .allow
      · have answer (claims : List GroundedClaim) :
            (turnOf record claims provenance (some decision)).answer =
              ⟨answerStatusFrom record.answerStatus, claims, record.answerMessage, decision⟩ :=
          if_pos allowed
        refine contextClaims_congr ?_ ?_ ?_ ?_ ?_
        · rfl
        · rw [answer, answer]
        · rw [answer, answer]
        · rw [answer, answer]
          exact same
        · rw [answer, answer]
          exact some_.imp_left fun answered => ⟨answered, allowed⟩
      · simp only [turnOf, if_neg allowed]

/-- Claims on hidden evidence may be changed: the row tells the model the same. -/
theorem contextOf_altered {record : QuestionTurnRecord φ} {claims : Json φ}
    (alters : AltersClaims shown visible record claims) :
    contextOf shown visible record =
      contextOf shown visible { record with claims := claims } := by
  obtain ⟨payloads, payloads', iterates, iterates', same, some_⟩ := alters
  have returns : ∀ payload, isHidden shown visible (sourcesOfRecord record) payload = true →
      ∃ found, claimFromPayload shown payload = .ok found := isHidden_returns
  have loops := mapM_filter returns isHidden_of_read
  have opened := loops payloads
  rw [same, loops payloads'] at opened
  cases read : payloads.mapM (claimFromPayload shown) with
  | error e =>
      cases read' : payloads'.mapM (claimFromPayload shown) with
      | error e' =>
          rw [read, read'] at opened
          cases opened
          rw [contextOf_error iterates read, contextOf_error iterates' read']
      | ok found' =>
          rw [read, read'] at opened
          cases opened
  | ok found =>
      cases read' : payloads'.mapM (claimFromPayload shown) with
      | error e' =>
          rw [read, read'] at opened
          cases opened
      | ok found' =>
          rw [read, read'] at opened
          have left := Except.ok.inj opened
          rw [any_isHidden read, any_isHidden read'] at some_
          rw [contextOf_read iterates read, contextOf_read iterates' read']
          change _ = (provenanceOf record >>= _)
          cases origin : provenanceOf record with
          | error e => rfl
          | ok provenance =>
              have sources : sourcesOfRecord record = citationSourcesFromPayload provenance := by
                unfold provenanceOf at origin
                split at origin
                · rename_i payload given
                  cases origin
                  rw [sourcesOfRecord, given]
                · cases origin
              rw [sources] at left some_
              change (guardrailDecisionFromPayload provenance >>= _) =
                (guardrailDecisionFromPayload provenance >>= _)
              cases guardrailDecisionFromPayload provenance with
              | error e => rfl
              | ok decision =>
                  refine congrArg Except.ok (contextClaims_turnOf decision ?_ some_)
                  rw [filterMap_open, filterMap_open, ← left]

end Changes

/-- The other history differs in stored claims that cite hidden evidence alone. -/
structure AltersHistory (shown : Json φ → String) (repository other : Repository φ) : Prop where
  thread : other.thread = repository.thread
  visible : other.visible = repository.visible
  turns : List.Forall₂ (Alters shown repository.visible) repository.turns other.turns

theorem conversationContext_altered {shown : Json φ → String} {repository other : Repository φ}
    (alters : AltersHistory shown repository other) :
    conversationContext shown other = conversationContext shown repository := by
  rw [conversationContext_eq, conversationContext_eq, alters.visible]
  have same := alters.turns.imp fun record other (altered : Alters shown repository.visible _ _) =>
    show contextOf shown repository.visible record = contextOf shown repository.visible other by
      rcases altered with rfl | ⟨claims, rfl, changed⟩
      · rfl
      · exact contextOf_altered changed
  rw [mapM_congr_map same]

def refusedRecord (claims : List (Json Empty)) : QuestionTurnRecord Empty where
  id := Uuid.ofNat 1
  question := "Due?"
  answerStatus := "insufficient_evidence"
  answerMessage := ""
  claims := .array claims
  retrievalProvenance := .object
    [("guardrail", .object [("policy_version", .string "untrusted-evidence.v1"),
      ("status", .string "allow"), ("reason_codes", .array [])]),
      ("citation_sources", .object [("a", .object
        [("agreement_id", .string (Uuid.ofNat 1).str), ("source_checksum", .string "c"),
          ("source_version", .string "c")])])]
  createdAt := 0

def storedClaim (text anchorId : String) : Json Empty :=
  .object [("text", .string text), ("citations", .array [.object
    [("anchor_id", .string anchorId), ("supporting_quote", .string text)]])]

def toldTexts (claims : List (Json Empty)) : Option (List String) :=
  (contextOf (fun _ => "") [Uuid.ofNat 1] (refusedRecord claims)).toOption.map
    (·.map (·.text))

example : toldTexts [storedClaim "Shown." "a", storedClaim "Hidden." "b"] = some ["Shown."] := by
  decide +kernel

example : toldTexts [storedClaim "Shown." "a"] = some [] := by decide +kernel

end AgreementIntelligence.Evidence
