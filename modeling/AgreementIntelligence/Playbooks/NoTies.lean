import AgreementIntelligence.Playbooks.Wildcards

/-! Ties in routing. A publication looks for a published playbook with the same routing fields, and
candidates for one agreement that rank alike have the same routing fields: an agreement decides what
a specific direction or jurisdiction is. So ranking never comes down to the identifiers. -/

namespace AgreementIntelligence.Playbooks
open Identity Lib.Casing Lib.Runs Lib.Json Lib.Results
open ApprovalPolicies (AgreementFamily DocumentDirection HttpException)

/-! What calls do to the versions -/

/-- What a call that returns does to the versions. -/
inductive WritesVersions (db after : PlaybookDb) : Prop
  | fewer (versions : after.versions.Sublist db.versions)
  | drafted (version : PlaybookVersion) (draft : version.status = .draft)
      (fresh : version.id ∉ db.versions.map (·.id))
      (versions : after.versions = db.versions ++ [version])
  | published (version : PlaybookVersion) (playbook : LegalPlaybook)
      (member : version ∈ db.versions) (listed : playbook ∈ db.playbooks)
      (named : playbook.id = version.playbookId)
      (alone : ∀ other ∈ db.versions, other.playbookId = version.playbookId →
        other.status ≠ .published)
      (clear : ∀ other ∈ db.joined, routesAlike playbook version other = false)
      (playbooks : after.playbooks = db.playbooks)
      (versions : after.versions = Lib.Table.update (·.id) db.versions version.id fun row =>
        { row with status := .published })

section Calls

variable {casing : CaseTable} {uuid4 : Nat → Uuid} {now : Time} {db after : PlaybookDb}
  {caller : PlaybookCaller} {playbookId : Uuid} {number : Nat} {confirmed : Bool}

theorem insertVersion_fresh {version : PlaybookVersion}
    (inserted : insertVersion db version = .ok after) :
    version.id ∉ db.versions.map (·.id) := by
  unfold insertVersion at inserted
  split_ifs at inserted with taken
  exact taken

theorem versionInScope_ok {version : PlaybookVersion}
    (found : versionInScope db caller playbookId number = .ok version) :
    version ∈ db.versions ∧ version.playbookId = playbookId := by
  unfold versionInScope at found
  split at found <;> [cases found; rename_i here]
  cases found
  have holds := List.find?_some here
  rw [decide_eq_true_eq] at holds
  exact ⟨List.mem_of_find?_eq_some here, holds.1⟩

theorem create_writesVersions {request : CreatePlaybookRequest}
    (returned : create casing uuid4 now db caller request = .ok after) :
    WritesVersions db after := by
  obtain ⟨-, -, entered⟩ := bind_ok.mp returned
  obtain ⟨withPlaybook, first, rest⟩ := bind_ok.mp entered
  obtain ⟨withVersion, second, rest⟩ := bind_ok.mp rest
  obtain ⟨withRules, third, last⟩ := bind_ok.mp rest
  obtain ⟨-, rfl⟩ := insertPlaybook_ok first
  have fresh := insertVersion_fresh second
  obtain rfl := insertVersion_ok second
  obtain rfl := insertRules_ok third
  cases last
  exact .drafted _ rfl fresh rfl

theorem createVersion_writesVersions {source : Option Nat}
    (returned : createVersion uuid4 now db caller playbookId source = .ok after) :
    WritesVersions db after := by
  obtain ⟨-, -, entered⟩ := bind_ok.mp returned
  obtain ⟨playbook, -, rest⟩ := bind_ok.mp entered
  obtain ⟨copied, -, rest⟩ := bind_ok.mp rest
  obtain ⟨withVersion, second, rest⟩ := bind_ok.mp rest
  obtain ⟨withRules, third, last⟩ := bind_ok.mp rest
  have fresh := insertVersion_fresh second
  obtain rfl := insertVersion_ok second
  obtain rfl := insertRules_ok third
  cases last
  exact .drafted _ rfl fresh rfl

theorem overrideForAgreement_versions {agreement : Option ActiveAgreement} {versionId : Uuid}
    (returned : overrideForAgreement uuid4 now db caller agreement versionId = .ok after) :
    after.versions = db.versions := by
  obtain ⟨-, -, entered⟩ := bind_ok.mp returned
  split at entered <;> [cases entered; skip]
  split at entered <;> [cases entered; skip]
  split_ifs at entered
  cases entered
  rfl

theorem addRule_versions {request : PlaybookRuleWrite}
    (returned : addRule uuid4 now db caller playbookId number request = .ok after) :
    after.versions = db.versions := by
  obtain ⟨-, -, entered⟩ := bind_ok.mp returned
  obtain ⟨version, -, rest⟩ := bind_ok.mp entered
  obtain ⟨-, -, rest⟩ := bind_ok.mp rest
  obtain ⟨withRule, inserted, last⟩ := bind_ok.mp rest
  obtain rfl := insertRule_ok inserted
  cases last
  rfl

theorem updateRule_versions {ruleId : Uuid} {request : UpdatePlaybookRuleRequest}
    (returned : updateRule uuid4 now db caller playbookId number ruleId request = .ok after) :
    after.versions = db.versions := by
  obtain ⟨-, -, entered⟩ := bind_ok.mp returned
  obtain ⟨version, -, rest⟩ := bind_ok.mp entered
  obtain ⟨-, -, rest⟩ := bind_ok.mp rest
  obtain ⟨rule, -, rest⟩ := bind_ok.mp rest
  obtain ⟨updated, -, last⟩ := bind_ok.mp rest
  split_ifs at last
  cases last
  rfl

theorem deleteRule_versions {ruleId : Uuid}
    (returned : deleteRule uuid4 now db caller playbookId number ruleId confirmed = .ok after) :
    after.versions = db.versions := by
  obtain ⟨-, -, entered⟩ := bind_ok.mp returned
  obtain ⟨-, -, rest⟩ := bind_ok.mp entered
  obtain ⟨version, -, rest⟩ := bind_ok.mp rest
  obtain ⟨-, -, rest⟩ := bind_ok.mp rest
  obtain ⟨rule, -, last⟩ := bind_ok.mp rest
  cases last
  rfl

theorem publish_writesVersions
    (returned : publish casing uuid4 now db caller playbookId number = .ok after) :
    WritesVersions db after := by
  obtain ⟨-, -, entered⟩ := bind_ok.mp returned
  obtain ⟨version, found, rest⟩ := bind_ok.mp entered
  obtain ⟨-, -, rest⟩ := bind_ok.mp rest
  obtain ⟨-, -, checked⟩ := bind_ok.mp rest
  split_ifs at checked with taken
  obtain ⟨playbook, its, last⟩ := bind_ok.mp checked
  split_ifs at last with conflict
  cases last
  obtain ⟨member, named⟩ := versionInScope_ok found
  obtain ⟨listed, id, -⟩ := playbookInScope_ok its
  refine .published version playbook member listed (id.trans named.symm) ?_ ?_ rfl rfl
  · intro other inside same published
    exact taken ⟨other, inside, same.trans named, published⟩
  · intro other inside
    by_contra alike
    exact conflict (List.any_eq_true.mpr ⟨other, inside, Bool.eq_true_of_not_eq_false alike⟩)

theorem deleteVersion_versions
    (returned : deleteVersion uuid4 now db caller playbookId number confirmed = .ok after) :
    after.versions.Sublist db.versions := by
  obtain ⟨-, -, entered⟩ := bind_ok.mp returned
  obtain ⟨-, -, rest⟩ := bind_ok.mp entered
  obtain ⟨version, -, rest⟩ := bind_ok.mp rest
  obtain ⟨-, -, last⟩ := bind_ok.mp rest
  cases last
  exact List.filter_sublist

theorem archive_versions (returned : archive uuid4 now db caller playbookId = .ok after) :
    after.versions = db.versions := by
  obtain ⟨-, -, entered⟩ := bind_ok.mp returned
  obtain ⟨playbook, -, last⟩ := bind_ok.mp entered
  dsimp only at last
  split_ifs at last
  · cases last
    rfl
  · cases last
    simp [auditAll_rows]

theorem deletePlaybook_versions
    (returned : deletePlaybook uuid4 now db caller playbookId confirmed = .ok after) :
    after.versions.Sublist db.versions := by
  obtain ⟨-, -, entered⟩ := bind_ok.mp returned
  obtain ⟨-, -, rest⟩ := bind_ok.mp entered
  obtain ⟨playbook, -, last⟩ := bind_ok.mp rest
  dsimp only at last
  split_ifs at last
  cases last
  simp [auditAll_rows]

theorem answer_writesVersions {event : PlaybookEvent}
    (returned : answer casing db event = .ok after) : WritesVersions db after := by
  unfold answer at returned
  split at returned
  next => exact create_writesVersions returned
  next => exact createVersion_writesVersions returned
  next => exact .fewer (overrideForAgreement_versions returned ▸ List.Sublist.refl _)
  next => exact .fewer (addRule_versions returned ▸ List.Sublist.refl _)
  next => exact .fewer (updateRule_versions returned ▸ List.Sublist.refl _)
  next => exact .fewer (deleteRule_versions returned ▸ List.Sublist.refl _)
  next => exact publish_writesVersions returned
  next => exact .fewer (deleteVersion_versions returned)
  next => exact .fewer (archive_versions returned ▸ List.Sublist.refl _)
  next => exact .fewer (deletePlaybook_versions returned)

end Calls

/-! Publications are apart -/

/-- A published version of a playbook that is not archived. -/
def Active (candidate : Candidate) : Prop :=
  candidate.1.status = .published ∧ candidate.2.archivedAt = none

/-- The same routing fields in the same workspace. -/
def SameRoute (a b : Candidate) : Prop :=
  a.1.organizationId = b.1.organizationId ∧ a.1.workspaceId = b.1.workspaceId ∧
    a.2.agreementFamily = b.2.agreementFamily ∧ a.2.documentDirection = b.2.documentDirection ∧
    a.2.jurisdiction = b.2.jurisdiction ∧ a.2.priority = b.2.priority

theorem SameRoute.symm {a b : Candidate} (same : SameRoute a b) : SameRoute b a :=
  ⟨same.1.symm, same.2.1.symm, same.2.2.1.symm, same.2.2.2.1.symm, same.2.2.2.2.1.symm,
    same.2.2.2.2.2.symm⟩

/-- A playbook has at most one published version, and active playbooks of a workspace differ in
their routing fields. -/
structure Apart (db : PlaybookDb) : Prop where
  registered : Registered db
  versionIds : (db.versions.map (·.id)).Nodup
  single : ∀ version ∈ db.versions, ∀ other ∈ db.versions, version.status = .published →
    other.status = .published → version.playbookId = other.playbookId → version = other
  routes : ∀ a ∈ db.joined, ∀ b ∈ db.joined, Active a → Active b → SameRoute a b →
    a.1.playbookId = b.1.playbookId

variable {φ : Type} {casing : CaseTable} {db after : PlaybookDb} {event : PlaybookEvent}

/-- A playbook that is not archived after a call is as it was, or is new. -/
theorem Writes.unarchived (writes : Writes casing event db after) {playbook : LegalPlaybook}
    (listed : playbook ∈ after.playbooks) (active : playbook.archivedAt = none) :
    playbook ∈ db.playbooks ∨ playbook.id ∉ db.playbooks.map (·.id) := by
  cases writes with
  | created request new version call drawn kept fresh owner playbooks versions =>
      rw [playbooks] at listed
      rcases List.mem_append.mp listed with old | new
      · exact .inl old
      · rw [List.mem_singleton.mp new]
        exact .inr fresh
  | drafted new version member owner playbooks versions => exact .inl (playbooks ▸ listed)
  | kept playbooks versions => exact .inl (playbooks ▸ listed)
  | published versionId playbooks versions => exact .inl (playbooks ▸ listed)
  | versionDeleted versionId playbooks versions => exact .inl (playbooks ▸ listed)
  | archived playbookId playbooks versions =>
      rw [playbooks] at listed
      obtain ⟨old, inside, rfl⟩ := Lib.Table.mem_update.mp listed
      by_cases hit : old.id = playbookId
      · rw [if_pos hit] at active
        cases active
      · rw [if_neg hit]
        exact .inl inside
  | playbookDeleted gone member playbooks versions =>
      rw [playbooks] at listed
      exact .inl (List.mem_of_mem_filter listed)

/-- Rows that were there before the call were joined then. -/
theorem Registered.joined (registered : Registered db) (writes : Writes casing event db after)
    {version : PlaybookVersion} {playbook : LegalPlaybook}
    (pair : (version, playbook) ∈ after.joined) (before : version ∈ db.versions)
    (active : playbook.archivedAt = none) : (version, playbook) ∈ db.joined := by
  obtain ⟨-, listed, named⟩ := mem_joined.mp pair
  rcases writes.unarchived listed active with old | fresh
  · exact mem_joined.mpr ⟨before, old, named⟩
  · obtain ⟨its, there, owns⟩ := registered.owned version before
    refine absurd ?_ fresh
    rw [named, owns.1]
    exact List.mem_map_of_mem there

theorem Apart.quiet (apart : Apart db) (writes : Writes casing event db after)
    (versionIds : (after.versions.map (·.id)).Nodup)
    (before : ∀ version ∈ after.versions, version.status = .published → version ∈ db.versions) :
    Apart after where
  registered := apart.registered.writes writes
  versionIds := versionIds
  single version member other inside first second :=
    apart.single version (before version member first) other (before other inside second) first
      second
  routes a left b right first second := by
    have held := before a.1 (mem_joined.mp left).1 first.1
    have kept := before b.1 (mem_joined.mp right).1 second.1
    exact apart.routes a (apart.registered.joined writes left held first.2) b
      (apart.registered.joined writes right kept second.2) first second

/-- A row of the versions after a publication that is published. -/
theorem published_cases (ids : (db.versions.map (·.id)).Nodup) {version row : PlaybookVersion}
    (member : version ∈ db.versions)
    (inside : row ∈ Lib.Table.update (·.id) db.versions version.id fun row =>
      { row with status := PlaybookStatus.published }) :
    row = { version with status := .published } ∨ row ∈ db.versions := by
  obtain ⟨old, held, rfl⟩ := Lib.Table.mem_update.mp inside
  by_cases hit : old.id = version.id
  · have same : old = version := List.inj_on_of_nodup_map ids held member hit
    rw [if_pos hit, same]
    exact .inl rfl
  · rw [if_neg hit]
    exact .inr held

theorem Apart.publishes (apart : Apart db) {version : PlaybookVersion} {playbook : LegalPlaybook}
    (member : version ∈ db.versions) (listed : playbook ∈ db.playbooks)
    (named : playbook.id = version.playbookId)
    (alone : ∀ other ∈ db.versions, other.playbookId = version.playbookId →
      other.status ≠ .published)
    (clear : ∀ other ∈ db.joined, routesAlike playbook version other = false)
    (playbooks : after.playbooks = db.playbooks)
    (versions : after.versions = Lib.Table.update (·.id) db.versions version.id fun row =>
      { row with status := .published }) (registered : Registered after) : Apart after := by
  have rows (row : PlaybookVersion) (inside : row ∈ after.versions) :=
    published_cases apart.versionIds member (versions ▸ inside)
  have joined {row : PlaybookVersion} {its : LegalPlaybook} (pair : (row, its) ∈ after.joined)
      (old : row ∈ db.versions) : (row, its) ∈ db.joined := by
    obtain ⟨-, there, same⟩ := mem_joined.mp pair
    exact mem_joined.mpr ⟨old, playbooks ▸ there, same⟩
  -- the published version against one that was published before
  have against {its : LegalPlaybook} {other : Candidate}
      (pair : ({ version with status := .published }, its) ∈ after.joined)
      (right : other ∈ after.joined) (old : other.1 ∈ db.versions) (active : Active other)
      (same : SameRoute ({ version with status := .published }, its) other) :
      version.playbookId = other.1.playbookId := by
    obtain ⟨-, there, owner⟩ := mem_joined.mp pair
    have one : its = playbook := List.inj_on_of_nodup_map apart.registered.ids (playbooks ▸ there)
      listed (owner.trans named.symm)
    subst one
    by_contra differ
    have free := clear other (joined right old)
    obtain ⟨organization, workspace, family, direction, jurisdiction, priority⟩ := same
    have alike : routesAlike its version other = true := decide_eq_true ⟨organization.symm,
      workspace.symm, active.1, fun same => differ same.symm, active.2, family.symm,
      direction.symm, jurisdiction.symm, priority.symm⟩
    rw [alike] at free
    cases free
  refine ⟨registered, ?_, ?_, ?_⟩
  · rw [versions]
    exact Lib.Table.nodup_update (fun _ => rfl) apart.versionIds
  · intro first left second right one two same
    rcases rows first left with rfl | old <;> rcases rows second right with rfl | kept
    · rfl
    · exact absurd two (alone second kept same.symm)
    · exact absurd one (alone first old same)
    · exact apart.single first old second kept one two same
  · rintro ⟨first, its⟩ left ⟨second, other⟩ right one two same
    rcases rows first (mem_joined.mp left).1 with rfl | old <;>
      rcases rows second (mem_joined.mp right).1 with rfl | kept
    · rfl
    · exact against left right kept two same
    · exact (against right left old one same.symm).symm
    · exact apart.routes _ (joined left old) _ (joined right kept) one two same

theorem playbookStep_apart (apart : Apart db) : Apart (playbookStep casing db event) := by
  unfold playbookStep
  split
  next => exact apart
  next after returned =>
    have writes := answer_writes returned
    cases answer_writesVersions returned with
    | fewer versions =>
        refine apart.quiet writes ?_ fun version member _ => versions.subset member
        exact apart.versionIds.sublist (versions.map _)
    | drafted version draft fresh versions =>
        refine apart.quiet writes ?_ fun row member published => ?_
        · rw [versions, List.map_append, List.map_singleton]
          refine List.nodup_append.mpr ⟨apart.versionIds, List.nodup_singleton _, ?_⟩
          intro id old other new
          rw [List.mem_singleton.mp new]
          exact fun same => fresh (same ▸ old)
        · rw [versions] at member
          rcases List.mem_append.mp member with old | new
          · exact old
          · rw [List.mem_singleton.mp new, draft] at published
            cases published
    | published version playbook member listed named alone clear playbooks versions =>
        exact apart.publishes member listed named alone clear playbooks versions
          (apart.registered.writes writes)

theorem run_apart (events : List PlaybookEvent) :
    Apart (run (playbookStep casing) .empty events) := by
  refine run_invariant Apart ?_ fun _ _ => playbookStep_apart
  exact ⟨⟨List.nodup_nil, nofun⟩, List.nodup_nil, nofun, nofun⟩

/-! Candidates -/

/-- The order of the worker's query looks at nothing but the identifiers to tell them apart. -/
def Ties (a b : Candidate) : Prop :=
  a.2.priority = b.2.priority ∧
    specific a.2.documentDirection.value = specific b.2.documentDirection.value ∧
    specific a.2.jurisdiction = specific b.2.jurisdiction

theorem family_value_injective {a b : AgreementFamily} (same : a.value = b.value) : a = b := by
  revert same
  cases a <;> cases b <;> decide

theorem direction_value_injective {a b : DocumentDirection} (same : a.value = b.value) :
    a = b := by
  revert same
  cases a <;> cases b <;> decide

/-- Fields that fit one agreement and are specific alike are the same. -/
theorem eq_of_specific {first second own : String} (left : first ∈ ["any", own])
    (right : second ∈ ["any", own]) (alike : specific first = specific second) :
    first = second := by
  have specific_iff (value : String) : specific value = 0 ↔ value = "any" := by
    unfold specific
    split_ifs with other <;> simp_all
  simp only [List.mem_cons, List.not_mem_nil, or_false] at left right
  by_cases any : first = "any"
  · rw [any, (specific_iff second).mp (alike.symm.trans ((specific_iff first).mpr any))]
  · have other : second ≠ "any" := fun same =>
      any ((specific_iff first).mp (alike.trans ((specific_iff second).mpr same)))
    rw [left.resolve_left any, right.resolve_left other]

theorem Apart.eq_of_ties (apart : Apart db) {job : RoutedJob} {agreement : RoutedAgreement φ}
    {a b : Candidate} (left : a ∈ db.candidates casing job agreement)
    (right : b ∈ db.candidates casing job agreement) (ties : Ties a b) : a = b := by
  obtain ⟨first, fits⟩ := List.mem_filter.mp left
  obtain ⟨second, suits⟩ := List.mem_filter.mp right
  obtain ⟨aOrganization, aWorkspace, aPublished, -, -, aActive, aFamily, aDirection,
    aJurisdiction⟩ := of_decide_eq_true fits
  obtain ⟨bOrganization, bWorkspace, bPublished, -, -, bActive, bFamily, bDirection,
    bJurisdiction⟩ := of_decide_eq_true suits
  obtain ⟨priority, direction, jurisdiction⟩ := ties
  have same : SameRoute a b := ⟨aOrganization.trans bOrganization.symm,
    aWorkspace.trans bWorkspace.symm, family_value_injective (aFamily.trans bFamily.symm),
    direction_value_injective (eq_of_specific aDirection bDirection direction),
    eq_of_specific aJurisdiction bJurisdiction jurisdiction, priority⟩
  have playbook := apart.routes a first b second ⟨aPublished, aActive⟩ ⟨bPublished, bActive⟩ same
  obtain ⟨version, its⟩ := a
  obtain ⟨other, owner⟩ := b
  obtain ⟨inside, listed, named⟩ := mem_joined.mp first
  obtain ⟨member, held, called⟩ := mem_joined.mp second
  have versions : version = other :=
    apart.single version inside other member aPublished bPublished playbook
  have playbooks : its = owner := List.inj_on_of_nodup_map apart.registered.ids listed held
    (named.trans (playbook.trans called.symm))
  rw [versions, playbooks]

/-! Other identifiers -/

def PlaybookVersion.rename (name : Uuid → Uuid) (version : PlaybookVersion) : PlaybookVersion :=
  { version with id := name version.id }

def PlaybookAuditEvent.rename (name : Uuid → Uuid) (event : PlaybookAuditEvent) :
    PlaybookAuditEvent :=
  { event with playbookVersionId := name event.playbookVersionId }

def renamed (name : Uuid → Uuid) (candidate : Candidate) : Candidate :=
  (candidate.1.rename name, candidate.2)

/-- The store with other identifiers for the versions. -/
def PlaybookDb.rename (name : Uuid → Uuid) (db : PlaybookDb) : PlaybookDb where
  playbooks := db.playbooks
  versions := db.versions.map (·.rename name)
  rules := db.rules.map fun rule =>
    { rule with playbookVersionId := name rule.playbookVersionId }
  auditEvents := db.auditEvents.map (·.rename name)

section Rename

variable {name : Uuid → Uuid} {job : RoutedJob} {agreement : RoutedAgreement φ}

theorem joined_rename : (db.rename name).joined = db.joined.map (renamed name) := by
  simp only [PlaybookDb.joined, PlaybookDb.rename, List.flatMap_map, List.map_flatMap,
    List.map_map]
  rfl

theorem candidates_rename : (db.rename name).candidates casing job agreement =
    (db.candidates casing job agreement).map (renamed name) := by
  rw [PlaybookDb.candidates, joined_rename, List.filter_map]
  rfl

theorem overrides_rename (injective : Function.Injective name) :
    (db.rename name).overrides job = (db.overrides job).map (·.rename name) := by
  have found (event : PlaybookAuditEvent) :
      (∃ pair ∈ (db.rename name).joined, pair.1.id = name event.playbookVersionId ∧
        pair.1.status = .published ∧ pair.2.archivedAt = none) ↔
      ∃ pair ∈ db.joined, pair.1.id = event.playbookVersionId ∧
        pair.1.status = .published ∧ pair.2.archivedAt = none := by
    rw [joined_rename]
    constructor
    · rintro ⟨pair, member, id, active⟩
      obtain ⟨old, inside, rfl⟩ := List.mem_map.mp member
      exact ⟨old, inside, injective id, active⟩
    · rintro ⟨pair, member, id, active⟩
      exact ⟨renamed name pair, List.mem_map_of_mem member, congrArg name id, active⟩
  simp only [PlaybookDb.overrides]
  rw [show (db.rename name).auditEvents = db.auditEvents.map (·.rename name) from rfl,
    List.filter_map]
  congr 1
  refine List.filter_congr fun event _ => ?_
  refine decide_eq_decide.mpr ?_
  exact and_congr_right fun _ => and_congr_right fun _ => and_congr_right fun _ =>
    and_congr_right fun _ => found event

theorem overrideVersion_rename (injective : Function.Injective name) :
    (db.rename name).overrideVersion job = (db.overrideVersion job).map name := by
  have sorted : ((db.overrides job).map (·.rename name)).insertionSort
      (fun a b => newerEvent a b) =
        ((db.overrides job).insertionSort fun a b => newerEvent a b).map (·.rename name) :=
    (List.map_insertionSort _ _ (PlaybookAuditEvent.rename name) _ fun _ _ _ _ => Iff.rfl).symm
  rw [PlaybookDb.overrideVersion, overrides_rename injective, sorted, PlaybookDb.overrideVersion,
    List.head?_map, Option.map_map, Option.map_map]
  rfl

/-- A candidate that ranks first still does under another identifier, if none ties with it. -/
theorem ranksFirst_rename {a b : Candidate} (ranks : ranksFirst a b)
    (apart : Ties a b → a = b) : ranksFirst (renamed name a) (renamed name b) := by
  by_cases ties : Ties a b
  · rw [apart ties]
    simp [ranksFirst, ranksBefore]
  · simp only [ranksFirst, ranksBefore, Ties, decide_eq_false_iff_not] at ranks ties
    refine decide_eq_false ?_
    simp only [renamed, PlaybookVersion.rename]
    omega

theorem Apart.select_rename (apart : Apart db) (injective : Function.Injective name) :
    selectRoutedPlaybookVersion casing (db.rename name) job agreement =
      (selectRoutedPlaybookVersion casing db job agreement).map name := by
  cases override : db.overrideVersion job with
  | some versionId =>
      have renamed : (db.rename name).overrideVersion job = some (name versionId) := by
        rw [overrideVersion_rename injective, override, Option.map_some]
      simp only [selectRoutedPlaybookVersion, override, renamed, Option.map_some]
  | none =>
      have free : (db.rename name).overrideVersion job = none := by
        rw [overrideVersion_rename injective, override, Option.map_none]
      cases sorted : (db.candidates casing job agreement).insertionSort ranksFirst with
      | nil =>
          have none_ : db.candidates casing job agreement = [] := by
            refine List.eq_nil_of_length_eq_zero ?_
            rw [← List.length_insertionSort ranksFirst, sorted, List.length_nil]
          have others : (db.rename name).candidates casing job agreement = [] := by
            rw [candidates_rename, none_, List.map_nil]
          simp [selectRoutedPlaybookVersion, override, free, none_, others]
      | cons first rest =>
          have listed : first ∈ db.candidates casing job agreement := by
            rw [← List.mem_insertionSort ranksFirst, sorted]
            exact List.mem_cons_self
          have order := List.pairwise_insertionSort ranksFirst
            (db.candidates casing job agreement)
          rw [sorted] at order
          have ranks : ∀ other ∈ db.candidates casing job agreement, ranksFirst first other := by
            intro other member
            rw [← List.mem_insertionSort ranksFirst, sorted] at member
            rcases List.mem_cons.mp member with rfl | later
            · simp [ranksFirst, ranksBefore]
            · exact (List.pairwise_cons.mp order).1 other later
          rw [select_of_first override listed ranks]
          have taken : (renamed name first) ∈ (db.rename name).candidates casing job agreement →
              (∀ other ∈ (db.rename name).candidates casing job agreement,
                ranksFirst (renamed name first) other) →
              selectRoutedPlaybookVersion casing (db.rename name) job agreement =
                some (renamed name first).1.id := select_of_first free
          refine taken ?_ ?_
          · rw [candidates_rename]
            exact List.mem_map_of_mem listed
          · intro other member
            rw [candidates_rename] at member
            obtain ⟨old, inside, rfl⟩ := List.mem_map.mp member
            exact ranksFirst_rename (ranks old inside) fun ties =>
              apart.eq_of_ties listed inside ties

end Rename

/-- After any run of the calls no two candidates of an agreement rank alike, and under other
identifiers of the versions the same version is taken. -/
theorem run_neverTies (casing : CaseTable) (events : List PlaybookEvent) (job : RoutedJob)
    (agreement : RoutedAgreement φ) :
    (∀ a ∈ (run (playbookStep casing) .empty events).candidates casing job agreement,
      ∀ b ∈ (run (playbookStep casing) .empty events).candidates casing job agreement,
        Ties a b → a = b) ∧
    ∀ name : Uuid → Uuid, Function.Injective name →
      selectRoutedPlaybookVersion casing
        ((run (playbookStep casing) .empty events).rename name) job agreement =
      (selectRoutedPlaybookVersion casing (run (playbookStep casing) .empty events) job
        agreement).map name := by
  have apart : Apart (run (playbookStep casing) .empty events) := run_apart events
  exact ⟨fun a left b right ties => apart.eq_of_ties left right ties,
    fun name injective => apart.select_rename injective⟩

end AgreementIntelligence.Playbooks
