import AgreementIntelligence.Lib.Results
import AgreementIntelligence.Playbooks.Routing

/-! Playbooks for any jurisdiction. The API stores the upper-case spelling of the jurisdiction it is
given and the worker looks for the word in lower case, so the two meet only by accident. -/

namespace AgreementIntelligence.Playbooks
open Identity Lib.Casing Lib.Runs Lib.Json Lib.Results
open ApprovalPolicies (AgreementFamily DocumentDirection HttpException)

/-- The version row refers to the playbook row and its scope. -/
def Owns (playbook : LegalPlaybook) (version : PlaybookVersion) : Prop :=
  version.playbookId = playbook.id ∧ playbook.organizationId = version.organizationId ∧
    playbook.workspaceId = version.workspaceId

/-- What a call that returns does to the playbooks and their versions. -/
inductive Writes (casing : CaseTable) (event : PlaybookEvent) (db after : PlaybookDb) : Prop
  | created (request : CreatePlaybookRequest) (playbook : LegalPlaybook)
      (version : PlaybookVersion) (call : event.call = .create request)
      (drawn : playbook.id = event.uuid4 0)
      (stored : playbook.jurisdiction = casing.upperText request.jurisdiction)
      (fresh : playbook.id ∉ db.playbooks.map (·.id))
      (owner : Owns playbook version)
      (playbooks : after.playbooks = db.playbooks ++ [playbook])
      (versions : after.versions = db.versions ++ [version])
  | drafted (playbook : LegalPlaybook) (version : PlaybookVersion)
      (listed : playbook ∈ db.playbooks)
      (owner : Owns playbook version)
      (playbooks : after.playbooks = db.playbooks)
      (versions : after.versions = db.versions ++ [version])
  | kept (playbooks : after.playbooks = db.playbooks) (versions : after.versions = db.versions)
  | published (versionId : Uuid) (playbooks : after.playbooks = db.playbooks)
      (versions : after.versions = Lib.Table.update (·.id) db.versions versionId fun row =>
        { row with status := .published })
  | versionDeleted (versionId : Uuid) (playbooks : after.playbooks = db.playbooks)
      (versions : after.versions = db.versions.filter fun row => row.id ≠ versionId)
  | archived (playbookId : Uuid)
      (playbooks : after.playbooks = Lib.Table.update (·.id) db.playbooks playbookId fun row =>
        { row with archivedAt := some event.now })
      (versions : after.versions = db.versions)
  | playbookDeleted (playbook : LegalPlaybook) (listed : playbook ∈ db.playbooks)
      (playbooks : after.playbooks = db.playbooks.filter fun other => other.id ≠ playbook.id)
      (versions : after.versions = db.versions.filter fun version => version.id ∉
        (db.versions.filter fun version => version.playbookId = playbook.id ∧
          version.organizationId = playbook.organizationId ∧
          version.workspaceId = playbook.workspaceId).map (·.id))

section Calls

variable {casing : CaseTable} {uuid4 : Nat → Uuid} {now : Time} {db after : PlaybookDb}
  {caller : PlaybookCaller} {playbookId : Uuid}

theorem insertPlaybook_ok {playbook : LegalPlaybook}
    (inserted : insertPlaybook db playbook = .ok after) :
    playbook.id ∉ db.playbooks.map (·.id) ∧
      after = { db with playbooks := db.playbooks ++ [playbook] } := by
  unfold insertPlaybook at inserted
  split_ifs at inserted with long taken
  exact ⟨taken, (Except.ok.inj inserted).symm⟩

theorem insertVersion_ok {version : PlaybookVersion}
    (inserted : insertVersion db version = .ok after) :
    after = { db with versions := db.versions ++ [version] } := by
  unfold insertVersion at inserted
  split_ifs at inserted with taken
  exact (Except.ok.inj inserted).symm

theorem insertRule_ok {rule : PlaybookRule} (inserted : insertRule db rule = .ok after) :
    after = { db with rules := db.rules ++ [rule] } := by
  unfold insertRule at inserted
  split_ifs at inserted with taken
  exact (Except.ok.inj inserted).symm

theorem insertRules_ok {rules : List PlaybookRule} (inserted : insertRules db rules = .ok after) :
    after = { db with rules := db.rules ++ rules } := by
  induction rules generalizing db with
  | nil =>
      cases inserted
      simp
  | cons rule rest ih =>
      obtain ⟨next, first, later⟩ := bind_ok.mp inserted
      rw [ih later, insertRule_ok first]
      simp

theorem playbookInScope_ok {playbook : LegalPlaybook}
    (found : playbookInScope db caller playbookId = .ok playbook) :
    playbook ∈ db.playbooks ∧ playbook.id = playbookId ∧
      playbook.organizationId = caller.organizationId ∧
      playbook.workspaceId = caller.workspaceId := by
  unfold playbookInScope at found
  split at found <;> [cases found; rename_i here]
  cases found
  have holds := List.find?_some here
  exact ⟨List.mem_of_find?_eq_some here, of_decide_eq_true holds⟩

theorem auditAll_rows (action : String) (versions : List PlaybookVersion) :
    (auditAll uuid4 now action db versions).playbooks = db.playbooks ∧
      (auditAll uuid4 now action db versions).versions = db.versions ∧
      (auditAll uuid4 now action db versions).rules = db.rules := by
  unfold auditAll
  generalize versions.zipIdx = entries
  induction entries generalizing db with
  | nil => exact ⟨rfl, rfl, rfl⟩
  | cons entry rest ih => exact ih

theorem create_writes {event : PlaybookEvent} {request : CreatePlaybookRequest}
    (call : event.call = .create request)
    (returned : create casing event.uuid4 event.now db event.caller request = .ok after) :
    Writes casing event db after := by
  obtain ⟨-, -, entered⟩ := bind_ok.mp returned
  obtain ⟨withPlaybook, first, rest⟩ := bind_ok.mp entered
  obtain ⟨withVersion, second, rest⟩ := bind_ok.mp rest
  obtain ⟨withRules, third, last⟩ := bind_ok.mp rest
  obtain ⟨fresh, rfl⟩ := insertPlaybook_ok first
  obtain rfl := insertVersion_ok second
  obtain rfl := insertRules_ok third
  cases last
  exact .created request _ _ call rfl rfl fresh ⟨rfl, rfl, rfl⟩ rfl rfl

theorem createVersion_writes {event : PlaybookEvent} {source : Option Nat}
    (returned : createVersion event.uuid4 event.now db event.caller playbookId source =
      .ok after) : Writes casing event db after := by
  obtain ⟨-, -, entered⟩ := bind_ok.mp returned
  obtain ⟨playbook, found, rest⟩ := bind_ok.mp entered
  obtain ⟨copied, -, rest⟩ := bind_ok.mp rest
  obtain ⟨withVersion, second, rest⟩ := bind_ok.mp rest
  obtain ⟨withRules, third, last⟩ := bind_ok.mp rest
  obtain ⟨listed, -, organization, workspace⟩ := playbookInScope_ok found
  obtain rfl := insertVersion_ok second
  obtain rfl := insertRules_ok third
  cases last
  exact .drafted playbook _ listed ⟨rfl, organization, workspace⟩ rfl rfl

theorem overrideForAgreement_writes {event : PlaybookEvent} {agreement : Option ActiveAgreement}
    {versionId : Uuid} (returned : overrideForAgreement event.uuid4 event.now db event.caller
      agreement versionId = .ok after) : Writes casing event db after := by
  obtain ⟨-, -, entered⟩ := bind_ok.mp returned
  split at entered <;> [cases entered; skip]
  split at entered <;> [cases entered; skip]
  split_ifs at entered
  cases entered
  exact .kept rfl rfl

theorem addRule_writes {event : PlaybookEvent} {number : Nat} {request : PlaybookRuleWrite}
    (returned : addRule event.uuid4 event.now db event.caller playbookId number request =
      .ok after) : Writes casing event db after := by
  obtain ⟨-, -, entered⟩ := bind_ok.mp returned
  obtain ⟨version, -, rest⟩ := bind_ok.mp entered
  obtain ⟨-, -, rest⟩ := bind_ok.mp rest
  obtain ⟨withRule, inserted, last⟩ := bind_ok.mp rest
  obtain rfl := insertRule_ok inserted
  cases last
  exact .kept rfl rfl

theorem updateRule_writes {event : PlaybookEvent} {number : Nat} {ruleId : Uuid}
    {request : UpdatePlaybookRuleRequest} (returned : updateRule event.uuid4 event.now db
      event.caller playbookId number ruleId request = .ok after) : Writes casing event db after := by
  obtain ⟨-, -, entered⟩ := bind_ok.mp returned
  obtain ⟨version, -, rest⟩ := bind_ok.mp entered
  obtain ⟨-, -, rest⟩ := bind_ok.mp rest
  obtain ⟨rule, -, rest⟩ := bind_ok.mp rest
  obtain ⟨updated, -, last⟩ := bind_ok.mp rest
  split_ifs at last
  cases last
  exact .kept rfl rfl

theorem deleteRule_writes {event : PlaybookEvent} {number : Nat} {ruleId : Uuid}
    {confirmed : Bool} (returned : deleteRule event.uuid4 event.now db event.caller playbookId
      number ruleId confirmed = .ok after) : Writes casing event db after := by
  obtain ⟨-, -, entered⟩ := bind_ok.mp returned
  obtain ⟨-, -, rest⟩ := bind_ok.mp entered
  obtain ⟨version, -, rest⟩ := bind_ok.mp rest
  obtain ⟨-, -, rest⟩ := bind_ok.mp rest
  obtain ⟨rule, -, last⟩ := bind_ok.mp rest
  cases last
  exact .kept rfl rfl

theorem publish_writes {event : PlaybookEvent} {number : Nat}
    (returned : publish casing event.uuid4 event.now db event.caller playbookId number =
      .ok after) : Writes casing event db after := by
  obtain ⟨-, -, entered⟩ := bind_ok.mp returned
  obtain ⟨version, -, rest⟩ := bind_ok.mp entered
  obtain ⟨-, -, rest⟩ := bind_ok.mp rest
  obtain ⟨-, -, checked⟩ := bind_ok.mp rest
  split_ifs at checked
  obtain ⟨playbook, -, last⟩ := bind_ok.mp checked
  split_ifs at last
  cases last
  exact .published version.id rfl rfl

theorem deleteVersion_writes {event : PlaybookEvent} {number : Nat} {confirmed : Bool}
    (returned : deleteVersion event.uuid4 event.now db event.caller playbookId number confirmed =
      .ok after) : Writes casing event db after := by
  obtain ⟨-, -, entered⟩ := bind_ok.mp returned
  obtain ⟨-, -, rest⟩ := bind_ok.mp entered
  obtain ⟨version, -, rest⟩ := bind_ok.mp rest
  obtain ⟨-, -, last⟩ := bind_ok.mp rest
  cases last
  exact .versionDeleted version.id rfl rfl

theorem archive_writes {event : PlaybookEvent}
    (returned : archive event.uuid4 event.now db event.caller playbookId = .ok after) :
    Writes casing event db after := by
  obtain ⟨-, -, entered⟩ := bind_ok.mp returned
  obtain ⟨playbook, -, last⟩ := bind_ok.mp entered
  dsimp only at last
  split_ifs at last
  · cases last
    exact .kept rfl rfl
  · cases last
    refine .archived playbook.id ?_ ?_
    · simp [auditAll_rows]
    · simp [auditAll_rows]

theorem deletePlaybook_writes {event : PlaybookEvent} {confirmed : Bool}
    (returned : deletePlaybook event.uuid4 event.now db event.caller playbookId confirmed =
      .ok after) : Writes casing event db after := by
  obtain ⟨-, -, entered⟩ := bind_ok.mp returned
  obtain ⟨-, -, rest⟩ := bind_ok.mp entered
  obtain ⟨playbook, found, last⟩ := bind_ok.mp rest
  obtain ⟨listed, -, organization, workspace⟩ := playbookInScope_ok found
  dsimp only at last
  split_ifs at last
  cases last
  refine .playbookDeleted playbook listed ?_ ?_
  · simp [auditAll_rows]
  · simp [auditAll_rows, organization, workspace]

theorem answer_writes {event : PlaybookEvent} (returned : answer casing db event = .ok after) :
    Writes casing event db after := by
  unfold answer at returned
  split at returned
  next request call => exact create_writes call returned
  next => exact createVersion_writes returned
  next => exact overrideForAgreement_writes returned
  next => exact addRule_writes returned
  next => exact updateRule_writes returned
  next => exact deleteRule_writes returned
  next => exact publish_writes returned
  next => exact deleteVersion_writes returned
  next => exact archive_writes returned
  next => exact deletePlaybook_writes returned

end Calls

/-- Playbooks have a primary key, and every version row refers to one of them. -/
structure Registered (db : PlaybookDb) : Prop where
  ids : (db.playbooks.map (·.id)).Nodup
  owned : ∀ version ∈ db.versions, ∃ playbook ∈ db.playbooks, Owns playbook version

structure Catalogued (wild : Uuid) (db : PlaybookDb) : Prop where
  ids : (db.playbooks.map (·.id)).Nodup
  owned : ∀ version ∈ db.versions, ∃ playbook ∈ db.playbooks, Owns playbook version
  stored : ∀ playbook ∈ db.playbooks, playbook.id = wild → playbook.jurisdiction = "ANY"

/-- The word any, each letter in either case. -/
def AnyCase (text : String) : Prop :=
  text.toList.map Char.toLower = ['a', 'n', 'y']

instance (text : String) : Decidable (AnyCase text) := by
  unfold AnyCase
  infer_instance

/-- The playbook, when this call creates it, is created for any jurisdiction. -/
def CreatesAny (wild : Uuid) (event : PlaybookEvent) : Prop :=
  ∀ request, event.call = .create request → event.uuid4 0 = wild → AnyCase request.jurisdiction

variable {φ : Type} {casing : CaseTable} {wild : Uuid} {db : PlaybookDb}

theorem upperText_anyCase {text : String} (spelt : AnyCase text) :
    casing.upperText text = "ANY" := by
  rw [casing.upperText_of_lower spelt (by simp)]
  rfl

/-- One more version row whose playbook is on record. -/
theorem owned_append {playbooks : List LegalPlaybook} {versions : List PlaybookVersion}
    {version : PlaybookVersion} {playbook : LegalPlaybook}
    (owned : ∀ version ∈ versions, ∃ playbook ∈ playbooks, Owns playbook version)
    (listed : playbook ∈ playbooks) (owner : Owns playbook version) :
    ∀ row ∈ versions ++ [version], ∃ playbook ∈ playbooks, Owns playbook row := by
  intro row member
  rcases List.mem_append.mp member with old | new
  · exact owned row old
  · rw [List.mem_singleton.mp new]
    exact ⟨playbook, listed, owner⟩

theorem Registered.writes {event : PlaybookEvent} {after : PlaybookDb}
    (registered : Registered db) (writes : Writes casing event db after) : Registered after := by
  obtain ⟨ids, owned⟩ := registered
  cases writes with
  | created request playbook version call drawn kept fresh owner playbooks versions =>
      refine ⟨?_, ?_⟩
      · rw [playbooks, List.map_append, List.map_singleton]
        exact List.nodup_append.mpr ⟨ids, List.nodup_singleton _, by simp_all⟩
      · rw [playbooks, versions]
        refine owned_append (fun row old => ?_)
          (List.mem_append_right _ (List.mem_singleton_self playbook)) owner
        obtain ⟨its, inside, owns⟩ := owned row old
        exact ⟨its, List.mem_append_left _ inside, owns⟩
  | drafted playbook version listed owner playbooks versions =>
      refine ⟨playbooks ▸ ids, ?_⟩
      rw [playbooks, versions]
      exact owned_append owned listed owner
  | kept playbooks versions => exact ⟨playbooks ▸ ids, by rwa [playbooks, versions]⟩
  | published versionId playbooks versions =>
      refine ⟨playbooks ▸ ids, ?_⟩
      rw [playbooks, versions]
      intro row member
      obtain ⟨old, inside, rfl⟩ := Lib.Table.mem_update.mp member
      obtain ⟨its, listed, owns⟩ := owned old inside
      refine ⟨its, listed, ?_⟩
      split_ifs
      · exact owns
      · exact owns
  | versionDeleted versionId playbooks versions =>
      refine ⟨playbooks ▸ ids, ?_⟩
      rw [playbooks, versions]
      exact fun row member => owned row (List.mem_of_mem_filter member)
  | archived playbookId playbooks versions =>
      refine ⟨?_, ?_⟩
      · rw [playbooks]
        exact Lib.Table.nodup_update (fun _ => rfl) ids
      · rw [playbooks, versions]
        intro row member
        obtain ⟨its, listed, owns⟩ := owned row member
        refine ⟨_, Lib.Table.mem_update.mpr ⟨its, listed, rfl⟩, ?_⟩
        split_ifs
        · exact owns
        · exact owns
  | playbookDeleted playbook listed playbooks versions =>
      refine ⟨?_, ?_⟩
      · rw [playbooks]
        exact ids.sublist (List.Sublist.map _ List.filter_sublist)
      · rw [playbooks, versions]
        intro row member
        obtain ⟨inside, spared⟩ := List.mem_filter.mp member
        obtain ⟨its, old, owns⟩ := owned row inside
        refine ⟨its, List.mem_filter.mpr ⟨old, ?_⟩, owns⟩
        simp only [decide_eq_true_eq] at spared ⊢
        intro same
        have one : its = playbook := List.inj_on_of_nodup_map ids old listed same
        subst one
        refine spared (List.mem_map_of_mem (List.mem_filter.mpr ⟨inside, ?_⟩))
        exact decide_eq_true ⟨owns.1, owns.2.1.symm, owns.2.2.symm⟩

theorem Catalogued.writes {event : PlaybookEvent} {after : PlaybookDb}
    (catalogued : Catalogued wild db) (asked : CreatesAny wild event)
    (writes : Writes casing event db after) : Catalogued wild after := by
  obtain ⟨ids, owned, stored⟩ := catalogued
  have registered : Registered after := Registered.writes ⟨ids, owned⟩ writes
  refine ⟨registered.ids, registered.owned, ?_⟩
  cases writes with
  | created request playbook version call drawn kept fresh owner playbooks versions =>
      rw [playbooks]
      intro other member named
      rcases List.mem_append.mp member with old | new
      · exact stored other old named
      · rw [List.mem_singleton.mp new] at named ⊢
        rw [kept]
        exact upperText_anyCase (asked request call (drawn.symm.trans named))
  | drafted playbook version listed owner playbooks versions => exact playbooks ▸ stored
  | kept playbooks versions => exact playbooks ▸ stored
  | published versionId playbooks versions => exact playbooks ▸ stored
  | versionDeleted versionId playbooks versions => exact playbooks ▸ stored
  | archived playbookId playbooks versions =>
      rw [playbooks]
      intro other member named
      obtain ⟨old, listed, rfl⟩ := Lib.Table.mem_update.mp member
      split_ifs at named ⊢ with hit
      · exact stored old listed named
      · exact stored old listed named
  | playbookDeleted playbook listed playbooks versions =>
      rw [playbooks]
      exact fun other member => stored other (List.mem_of_mem_filter member)

theorem playbookStep_catalogued {event : PlaybookEvent} (asked : CreatesAny wild event)
    (catalogued : Catalogued wild db) : Catalogued wild (playbookStep casing db event) := by
  unfold playbookStep
  split
  next => exact catalogued
  next after returned => exact catalogued.writes asked (answer_writes returned)

theorem run_catalogued {events : List PlaybookEvent}
    (asked : ∀ event ∈ events, CreatesAny wild event) :
    Catalogued wild (run (playbookStep casing) .empty events) := by
  refine run_invariant_of (CreatesAny wild) (Catalogued wild) ?_
    (fun _ _ meets catalogued => playbookStep_catalogued meets catalogued) asked
  exact ⟨List.nodup_nil, fun _ member => (nomatch member), fun _ member => (nomatch member)⟩

theorem mem_joined {version : PlaybookVersion} {playbook : LegalPlaybook} :
    (version, playbook) ∈ db.joined ↔
      version ∈ db.versions ∧ playbook ∈ db.playbooks ∧ playbook.id = version.playbookId := by
  simp only [PlaybookDb.joined, List.mem_flatMap, List.mem_map, List.mem_filter,
    decide_eq_true_eq, Prod.mk.injEq]
  constructor
  · rintro ⟨row, inside, other, ⟨listed, named⟩, rfl, rfl⟩
    exact ⟨inside, listed, named⟩
  · rintro ⟨inside, listed, named⟩
    exact ⟨version, inside, playbook, ⟨listed, named⟩, rfl, rfl⟩

/-- The version is a candidate of the routing query and, when no override is on record and no other
candidate ranks before it, the one that is taken. -/
def Reached (casing : CaseTable) (db : PlaybookDb) (job : RoutedJob)
    (agreement : RoutedAgreement φ) (candidate : Candidate) : Prop :=
  candidate ∈ db.candidates casing job agreement ∧
    (db.overrideVersion job = none →
      (∀ other ∈ db.candidates casing job agreement, ranksBefore other candidate = false) →
        selectRoutedPlaybookVersion casing db job agreement = some candidate.1.id)

/-- The playbook is active in the workspace of the job and fits the family and the direction of the
agreement. -/
structure Fitting (job : RoutedJob) (agreement : RoutedAgreement φ) (candidate : Candidate) :
    Prop where
  published : candidate.1.status = .published
  unarchived : candidate.2.archivedAt = none
  organization : candidate.2.organizationId = job.organizationId
  workspace : candidate.2.workspaceId = job.workspaceId
  family : candidate.2.agreementFamily.value = agreement.agreementType
  direction : candidate.2.documentDirection.value ∈ ["any", agreement.direction]

theorem run_wildcardReached_iff {events : List PlaybookEvent} {job : RoutedJob}
    {agreement : RoutedAgreement φ} {candidate : Candidate}
    (asked : ∀ event ∈ events, CreatesAny candidate.2.id event)
    (stored : candidate ∈ (run (playbookStep casing) .empty events).joined)
    (fitting : Fitting job agreement candidate) :
    Reached casing (run (playbookStep casing) .empty events) job agreement candidate ↔
      agreement.jurisdiction casing = "ANY" := by
  obtain ⟨version, playbook⟩ := candidate
  obtain ⟨inside, listed, named⟩ := mem_joined.mp stored
  have catalogued : Catalogued playbook.id (run (playbookStep casing) .empty events) :=
    run_catalogued asked
  have jurisdiction : playbook.jurisdiction = "ANY" := catalogued.stored playbook listed rfl
  obtain ⟨its, here, owner, organization, workspace⟩ := catalogued.owned version inside
  have one : its = playbook :=
    List.inj_on_of_nodup_map catalogued.ids here listed (owner.symm.trans named.symm)
  subst one
  constructor
  · rintro ⟨member, -⟩
    have matched := of_decide_eq_true (List.mem_filter.mp member).2
    have spelt := matched.2.2.2.2.2.2.2.2
    rw [jurisdiction] at spelt
    simpa [eq_comm] using spelt
  · intro upper
    have member : (version, its) ∈
        (run (playbookStep casing) .empty events).candidates casing job agreement := by
      refine List.mem_filter.mpr ⟨stored, decide_eq_true ?_⟩
      refine ⟨organization.symm.trans fitting.organization,
        workspace.symm.trans fitting.workspace, fitting.published, fitting.organization,
        fitting.workspace, fitting.unarchived, fitting.family, fitting.direction, ?_⟩
      rw [jurisdiction, upper]
      simp
    exact ⟨member, fun free first => select_of_first free member first⟩

def sampleCaller : PlaybookCaller := ⟨.ofNat 1, .ofNat 2, true, true⟩

/-- A playbook for any jurisdiction with one rule, created and published. -/
def sampleEvents : List PlaybookEvent :=
  [⟨fun n => .ofNat (100 + n), 0, sampleCaller, .create ⟨.clientAgreement, .any, "any", 100,
      [⟨"c", "t", .required, some "p", none, .medium, "l", "g", ⟨.deterministic, false⟩⟩]⟩⟩,
    ⟨fun n => .ofNat (200 + n), 1, sampleCaller, .publish (.ofNat 100) 1⟩]

def sampleCandidate : Candidate :=
  (⟨.ofNat 101, .ofNat 1, .ofNat 2, .ofNat 100, 1, .published⟩,
    ⟨.ofNat 100, .ofNat 1, .ofNat 2, .clientAgreement, .any, "ANY", 100, none⟩)

def sampleJob : RoutedJob := ⟨.ofNat 1, .ofNat 2, .ofNat 3⟩

theorem sampleEvents_createAny : ∀ event ∈ sampleEvents, CreatesAny sampleCandidate.2.id event := by
  intro event member request call _
  simp only [sampleEvents, List.mem_cons, List.not_mem_nil, or_false] at member
  rcases member with rfl | rfl
  · cases call
    decide
  · cases call

theorem sampleCandidate_stored :
    sampleCandidate ∈ (run (playbookStep .ascii) .empty sampleEvents).joined := by
  decide +kernel

theorem sampleCandidate_fitting (metadata : Json Unit) :
    Fitting sampleJob ⟨"client_agreement", metadata⟩ sampleCandidate where
  published := rfl
  unarchived := rfl
  organization := rfl
  workspace := rfl
  family := rfl
  direction := List.mem_cons_self

theorem run_wildcardReached_iff_sample :
    Reached .ascii (run (playbookStep .ascii) .empty sampleEvents) sampleJob
      (⟨"client_agreement", .object []⟩ : RoutedAgreement Unit) sampleCandidate :=
  (run_wildcardReached_iff sampleEvents_createAny sampleCandidate_stored
    (sampleCandidate_fitting (.object []))).mpr (by decide +kernel)

/-- An agreement under German law never meets a playbook for any jurisdiction. -/
theorem not_everyWildcardReached : ¬ ∀ (casing : CaseTable) (events : List PlaybookEvent)
    (job : RoutedJob) (agreement : RoutedAgreement Unit) (candidate : Candidate),
    (∀ event ∈ events, CreatesAny candidate.2.id event) →
    candidate ∈ (run (playbookStep casing) .empty events).joined →
    Fitting job agreement candidate →
    Reached casing (run (playbookStep casing) .empty events) job agreement candidate := by
  intro always
  have reached := always .ascii sampleEvents sampleJob
    ⟨"client_agreement", .object [("jurisdiction", .string "DE")]⟩ sampleCandidate
    sampleEvents_createAny sampleCandidate_stored (sampleCandidate_fitting _)
  have fit := (List.mem_filter.mp reached.1).2
  have misfit : fits .ascii sampleJob (⟨"client_agreement",
      .object [("jurisdiction", .string "DE")]⟩ : RoutedAgreement Unit) sampleCandidate = false := by
    decide +kernel
  rw [misfit] at fit
  cases fit

end AgreementIntelligence.Playbooks
