import AgreementIntelligence.Agreements.System

/-! Question threads and their turns next to the deletion of agreements. A thread is scoped
to a list of agreements or to its whole workspace; every question searches anew, and the
turn keeps the anchors that the accepted claims cite together with the source of every
anchor that the search has returned. `ask` is two transactions, the search and the insert
of the turn, so an answer may be in flight while the agreement is deleted. The permission of
the caller, the ranking of the search and the texts of questions and claims are left out. -/

namespace AgreementIntelligence.Agreements
open Identity Lib.Table Lib.Runs

structure SearchResult where
  agreementId : Uuid
  sourceChecksum : String
  sourceVersion : String
  anchorIds : List String
  deriving DecidableEq, Repr

def SearchResult.source (result : SearchResult) : CitationSource :=
  ⟨result.agreementId, result.sourceChecksum, result.sourceVersion⟩

/-- The anchors of the results in order, each with its source. -/
def anchorSources (results : List SearchResult) : List (String × CitationSource) :=
  results.flatMap fun result => result.anchorIds.map fun anchorId => (anchorId, result.source)

/-- `_citation_sources_from_search`: the first source of every anchor, without the anchors
that results of different sources share. -/
def citationSourcesFromSearch (results : List SearchResult) : List (String × CitationSource) :=
  let entries := anchorSources results
  let sources := entries.foldl (fun sources entry =>
    if sources.any fun kept => kept.1 = entry.1 then sources else sources ++ [entry]) []
  sources.filter fun kept => ¬ entries.any fun entry => entry.1 = kept.1 ∧ entry.2 ≠ kept.2

/-- `_evidence_from_search`, by the anchors of the snippets. -/
def evidenceFromSearch (results : List SearchResult) : List String :=
  (results.flatMap (·.anchorIds)).filter fun anchorId =>
    (citationSourcesFromSearch results).any fun kept => kept.1 = anchorId

/-- A claim of the model: the anchors it cites, and what the tests on its texts say. -/
structure CandidateClaim where
  citations : List String
  supported : Bool
  deriving DecidableEq, Repr

/-- `answer_question`, by the citations of the claims it accepts. `allowed` says that the
question is material, that the guardrails allow the evidence and that the model answers;
anchors come without conflicts from a search. -/
def answerQuestion (allowed : Bool) (evidence : List String) (candidate : List CandidateClaim) :
    List (List String) :=
  if allowed = true ∧ evidence ≠ [] ∧ evidence.Nodup then
    (candidate.filter fun claim => claim.supported = true ∧ claim.citations ≠ [] ∧
      ∀ anchorId ∈ claim.citations, anchorId ∈ evidence).map (·.citations)
  else []

/-! The service -/

/-- `visible_agreement_ids` -/
def visibleAgreementIds (db : Database) (organizationId workspaceId : Uuid)
    (agreementIds : List Uuid) : List Uuid :=
  (db.agreements.filter fun agreement => agreement.organizationId = organizationId ∧
    agreement.workspaceId = workspaceId ∧ agreement.archivedAt = none ∧
    agreement.deletionRequestedAt = none ∧ agreement.id ∈ agreementIds).map (·.id)

/-- All of the agreements are visible. -/
def allVisible (db : Database) (organizationId workspaceId : Uuid) (agreementIds : List Uuid) :
    Bool :=
  agreementIds.all fun id => id ∈ visibleAgreementIds db organizationId workspaceId agreementIds

/-- `create_thread`; `threadId` is the uuid4 it draws. -/
def createThread (db : Database) (threadId organizationId workspaceId : Uuid)
    (agreementIds : Option (List Uuid)) : Except Raised Database :=
  let requested := agreementIds.getD []
  if requested ≠ [] ∧ ¬ allVisible db organizationId workspaceId requested then
    .error (.runtime "question thread is not available")
  else .ok { db with
    questionThreads := db.questionThreads ++ [{
      id := threadId, organizationId := organizationId, workspaceId := workspaceId
      agreementIds := if requested = [] then none else some requested }] }

/-- `_load_thread` -/
def loadThread (db : Database) (threadId organizationId workspaceId : Uuid) :
    Option QuestionThreadRecord :=
  (db.questionThreads.find? fun thread => thread.id = threadId ∧
    thread.organizationId = organizationId ∧ thread.workspaceId = workspaceId).filter
      fun thread => allVisible db organizationId workspaceId (thread.agreementIds.getD [])

/-- What the search of a thread may return: results of visible agreements of its workspace,
and of no others than the ones of the thread. -/
def Searchable (db : Database) (thread : QuestionThreadRecord) (results : List SearchResult) :
    Prop :=
  ∀ result ∈ results,
    result.agreementId ∈ visibleAgreementIds db thread.organizationId thread.workspaceId
      [result.agreementId] ∧
    ∀ ids ∈ thread.agreementIds, result.agreementId ∈ ids

instance (db : Database) (thread : QuestionThreadRecord) (results : List SearchResult) :
    Decidable (Searchable db thread results) :=
  inferInstanceAs (Decidable (∀ _ ∈ _, _))

/-- The insert of the turn, which the thread of its foreign key has to survive. -/
def addTurn (db : Database) (thread : QuestionThreadRecord) (results : List SearchResult)
    (allowed : Bool) (candidate : List CandidateClaim) : Except Raised Database :=
  if db.questionThreads.any fun row => row.id = thread.id ∧
      row.organizationId = thread.organizationId ∧ row.workspaceId = thread.workspaceId then
    .ok { db with
      questionTurns := db.questionTurns ++ [{
        organizationId := thread.organizationId, workspaceId := thread.workspaceId
        threadId := thread.id
        claims := answerQuestion allowed (evidenceFromSearch results) candidate
        citationSources := citationSourcesFromSearch results }] }
  else .error (.runtime "fk_question_turns_thread_scope")

/-- `AgreementService.archive` and `restore`: the agreement is visible, and changes unless it
already is as it should be. -/
def setArchived (db : Database) (organizationId workspaceId agreementId : Uuid)
    (archivedAt : Option Time) : Except Raised Database :=
  match db.agreement? agreementId organizationId workspaceId with
  | none => .error (.runtime "AgreementNotFoundError")
  | some agreement =>
    if agreement.deletionRequestedAt.isSome then .error (.runtime "AgreementNotFoundError")
    else if agreement.archivedAt.isSome = archivedAt.isSome then .ok db
    else .ok { db with
      agreements := update (·.id) db.agreements agreementId fun row =>
        { row with archivedAt := archivedAt } }

/-! The system -/

/-- The processing and deletion of agreements with the searches whose answers are in flight. -/
structure QuestionWorld where
  world : World
  asking : List (QuestionThreadRecord × List SearchResult)

inductive QuestionEvent where
  | system (event : Event)
  | createThread (threadId organizationId workspaceId : Uuid) (agreementIds : Option (List Uuid))
  /-- `ask` up to the answer of the search. -/
  | search (threadId organizationId workspaceId : Uuid) (results : List SearchResult)
  /-- The rest of `ask`. -/
  | answer (thread : QuestionThreadRecord) (results : List SearchResult) (allowed : Bool)
      (candidate : List CandidateClaim)
  | archive (organizationId workspaceId agreementId : Uuid) (now : Time)
  | restore (organizationId workspaceId agreementId : Uuid)

/-- A uuid4 key that no thread has had. -/
def QuestionWorld.FreshThread (s : QuestionWorld) (threadId : Uuid) : Prop :=
  (∀ thread ∈ s.world.db.questionThreads, thread.id ≠ threadId) ∧
    ∀ pair ∈ s.asking, pair.1.id ≠ threadId

instance (s : QuestionWorld) (threadId : Uuid) : Decidable (s.FreshThread threadId) :=
  inferInstanceAs (Decidable (_ ∧ _))

def QuestionWorld.transact (s : QuestionWorld) (outcome : Except Raised Database) :
    QuestionWorld :=
  { s with world := s.world.transact outcome }

def questionStep (s : QuestionWorld) : QuestionEvent → QuestionWorld
  | .system event => { s with world := step s.world event }
  | .createThread threadId organizationId workspaceId agreementIds =>
    if s.FreshThread threadId then
      s.transact (createThread s.world.db threadId organizationId workspaceId agreementIds)
    else s
  | .search threadId organizationId workspaceId results =>
    match loadThread s.world.db threadId organizationId workspaceId with
    | none => s
    | some thread =>
      if Searchable s.world.db thread results then
        { s with asking := s.asking ++ [(thread, results)] }
      else s
  | .answer thread results allowed candidate =>
    if (thread, results) ∈ s.asking then
      s.transact (addTurn s.world.db thread results allowed candidate)
    else s
  | .archive organizationId workspaceId agreementId now =>
    s.transact (setArchived s.world.db organizationId workspaceId agreementId (some now))
  | .restore organizationId workspaceId agreementId =>
    s.transact (setArchived s.world.db organizationId workspaceId agreementId none)

/-- Before any thread; the agreements of the table are the ones that ever exist. -/
structure QuestionWorld.Initial (s : QuestionWorld) : Prop where
  world : s.world.Initial
  agreementIds : (s.world.db.agreements.map (·.id)).Nodup
  questionThreads : s.world.db.questionThreads = []
  questionTurns : s.world.db.questionTurns = []
  asking : s.asking = []

end AgreementIntelligence.Agreements
