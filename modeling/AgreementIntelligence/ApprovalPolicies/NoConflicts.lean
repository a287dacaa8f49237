import AgreementIntelligence.ApprovalPolicies.Publication

/-! No two published versions conflict, provided that no publication commits while another one
that conflicts with it is between its own check and its commit. Both checks of a publication are
instances of check-then-act: one item a draft, once with sharing a policy as the conflict and once
with routing that cannot tell two policies apart. -/

namespace AgreementIntelligence.ApprovalPolicies
open Identity Lib.Casing Lib.Runs Lib.CheckThenAct

/-- What a publication is about: a version and the policy it belongs to. -/
structure Draft where
  versionId : Uuid
  policy : ApprovalPolicy
  deriving DecidableEq, Repr

def Publication.draft (publication : Publication) : Draft :=
  ⟨publication.version.id, publication.policy⟩

def SamePolicy (first second : Draft) : Prop :=
  first.versionId ≠ second.versionId ∧ first.policy.id = second.policy.id

/-- Routing ranks the two the same and some request is covered by both. -/
def Ties (first second : ApprovalPolicy) : Prop :=
  first.organizationId = second.organizationId ∧ first.workspaceId = second.workspaceId ∧
    first.agreementFamily = second.agreementFamily ∧ routeSortKey first = routeSortKey second ∧
    routingScopesOverlap first second = true

def Clash (first second : Draft) : Prop :=
  first.versionId ≠ second.versionId ∧ Ties first.policy second.policy

instance (first second : Draft) : Decidable (SamePolicy first second) :=
  inferInstanceAs (Decidable (_ ∧ _))

instance (first second : ApprovalPolicy) : Decidable (Ties first second) :=
  inferInstanceAs (Decidable (_ ∧ _ ∧ _ ∧ _ ∧ _))

instance (first second : Draft) : Decidable (Clash first second) :=
  inferInstanceAs (Decidable (_ ∧ _))

theorem Ties.symm {first second : ApprovalPolicy} (ties : Ties first second) : Ties second first :=
  ⟨ties.1.symm, ties.2.1.symm, ties.2.2.1.symm, ties.2.2.2.1.symm,
    (routingScopesOverlap_comm second first).trans ties.2.2.2.2⟩

/-- The row of the draft, whatever its status. -/
def Stored (db : PolicyDb) (draft : Draft) : Prop :=
  draft.policy ∈ db.policies ∧
    ∃ version ∈ db.versions, version.id = draft.versionId ∧ version.policyId = draft.policy.id

def Published (db : PolicyDb) (draft : Draft) : Prop :=
  draft.policy ∈ db.policies ∧ ∃ version ∈ db.versions, version.id = draft.versionId ∧
    version.policyId = draft.policy.id ∧ version.status = .published

/-- The drafts of the publications that have come to one of the given points. -/
def Passed (publishing : List Publication) (points : List Progress) (draft : Draft) : Prop :=
  ∃ publication ∈ publishing, publication.draft = draft ∧ publication.progress ∈ points

/-- No publication commits while another one that conflicts with it has been checked already. -/
def Alone (system : PolicySystem) : PolicyAction → Prop
  | .continuePublish i =>
    ∀ publication ∈ system.publishing[i]?, publication.progress = .unmatched →
      ∀ other ∈ system.publishing,
        (other.progress ∈ [.unpublished, .unmatched] →
          ¬ SamePolicy other.draft publication.draft) ∧
        (other.progress ∈ [.unmatched] → ¬ Clash other.draft publication.draft)
  | _ => True

instance (system : PolicySystem) : ∀ action, Decidable (Alone system action)
  | .continuePublish i =>
    inferInstanceAs (Decidable (∀ publication ∈ system.publishing[i]?, _ → ∀ other ∈ _, _ ∧ _))
  | .create .. | .createVersion .. | .beginPublish .. | .abandonPublish .. =>
    inferInstanceAs (Decidable True)

structure Sound (system : PolicySystem) : Prop where
  policyIds : (system.db.policies.map (·.id)).Nodup
  versionIds : (system.db.versions.map (·.id)).Nodup
  owned : ∀ version ∈ system.db.versions, ∃ policy ∈ system.db.policies,
    policy.id = version.policyId ∧ policy.organizationId = version.organizationId ∧
      policy.workspaceId = version.workspaceId
  stored : ∀ publication ∈ system.publishing, Stored system.db publication.draft
  single : Guarded SamePolicy (Published system.db)
    (Passed system.publishing [.unpublished, .unmatched])
  routed : Guarded Clash (Published system.db) (Passed system.publishing [.unmatched])

theorem policy?_eq_some {db : PolicyDb} {id : Uuid} {policy : ApprovalPolicy}
    (found : db.policy? id = some policy) : policy ∈ db.policies ∧ policy.id = id := by
  have holds := List.find?_some found
  exact ⟨List.mem_of_find?_eq_some found, of_decide_eq_true holds⟩

theorem mem_publishedIn {db : PolicyDb} {organizationId workspaceId : Uuid}
    {version : ApprovalPolicyVersion} {policy : ApprovalPolicy} :
    (version, policy) ∈ db.publishedIn organizationId workspaceId ↔
      version ∈ db.versions ∧ version.organizationId = organizationId ∧
        version.workspaceId = workspaceId ∧ version.status = .published ∧
        db.policy? version.policyId = some policy := by
  simp only [PolicyDb.publishedIn, List.mem_filterMap, List.mem_filter, decide_eq_true_eq,
    Option.map_eq_some_iff, Prod.mk.injEq]
  constructor
  · rintro ⟨row, ⟨inside, organization, workspace, published⟩, found, here, rfl, rfl⟩
    exact ⟨inside, organization, workspace, published, here⟩
  · rintro ⟨inside, organization, workspace, published, here⟩
    exact ⟨version, ⟨inside, organization, workspace, published⟩, policy, here, rfl, rfl⟩

/-- The policy of a version row is found by its primary key. -/
theorem Sound.policy? {system : PolicySystem} (sound : Sound system) {policy : ApprovalPolicy}
    (member : policy ∈ system.db.policies) : system.db.policy? policy.id = some policy :=
  Lib.Table.find?_of_mem sound.policyIds member

theorem Sound.policy_eq {system : PolicySystem} (sound : Sound system)
    {first second : ApprovalPolicy} (one : first ∈ system.db.policies)
    (other : second ∈ system.db.policies) (same : first.id = second.id) : first = second :=
  List.inj_on_of_nodup_map sound.policyIds one other same

theorem ensureUnpublished_ok {db : PolicyDb} {policyId : Uuid} {draft : Draft}
    (passed : ensureUnpublished db policyId = .ok ()) (published : Published db draft) :
    draft.policy.id ≠ policyId := by
  unfold ensureUnpublished at passed
  split at passed <;> [cases passed; rename_i none_]
  obtain ⟨-, version, member, -, policy, status⟩ := published
  intro same
  refine none_ (List.any_eq_true.mpr ⟨version, member, ?_⟩)
  simp [policy, same, status]

theorem ensureNoEqualRoutingMatch_ok {system : PolicySystem} (sound : Sound system)
    {policy : ApprovalPolicy} {versionId : Uuid} {draft : Draft}
    (passed : ensureNoEqualRoutingMatch system.db policy versionId = .ok ())
    (published : Published system.db draft) (other : draft.versionId ≠ versionId) :
    ¬ Ties draft.policy policy := by
  unfold ensureNoEqualRoutingMatch at passed
  split at passed <;> [cases passed; rename_i none_]
  obtain ⟨listed, version, member, id, owner, status⟩ := published
  rintro ⟨organization, workspace, family, key, overlap⟩
  obtain ⟨owner', inside, same, itsOrganization, itsWorkspace⟩ := sound.owned version member
  have one : owner' = draft.policy := sound.policy_eq inside listed (same.trans owner)
  have candidate : (version, draft.policy) ∈
      system.db.publishedIn policy.organizationId policy.workspaceId := by
    refine mem_publishedIn.mpr ⟨member, ?_, ?_, status, ?_⟩
    · rw [← itsOrganization, one, organization]
    · rw [← itsWorkspace, one, workspace]
    · rw [owner]
      exact sound.policy? listed
  refine none_ (List.any_eq_true.mpr ⟨_, candidate, ?_⟩)
  simp [id, other, family, key, overlap]

/-- A new draft under a policy, which may be new as well. -/
theorem Sound.insert {system : PolicySystem} (sound : Sound system)
    {policies : List ApprovalPolicy} {version : ApprovalPolicyVersion}
    (more : ∀ policy ∈ system.db.policies, policy ∈ policies)
    (ids : (policies.map (·.id)).Nodup)
    (added : ∀ policy ∈ policies, policy ∈ system.db.policies ∨
      policy.id ∉ system.db.policies.map (·.id))
    (fresh : version.id ∉ system.db.versions.map (·.id)) (draft : version.status = .draft)
    (owner : ∃ policy ∈ policies, policy.id = version.policyId ∧
      policy.organizationId = version.organizationId ∧ policy.workspaceId = version.workspaceId) :
    Sound { system with db := ⟨policies, system.db.versions ++ [version]⟩ } := by
  have fewer : ∀ d, Published ⟨policies, system.db.versions ++ [version]⟩ d →
      Published system.db d := by
    rintro d ⟨listed, row, member, id, policy, status⟩
    rcases List.mem_append.mp member with inside | last
    · obtain ⟨its, old, same, -⟩ := sound.owned row inside
      refine ⟨(added d.policy listed).resolve_right fun absent => absent ?_, row, inside, id, policy,
        status⟩
      exact (same.trans policy) ▸ List.mem_map_of_mem old
    · rw [List.mem_singleton.mp last, draft] at status
      cases status
  refine ⟨ids, ?_, ?_, ?_, sound.single.mono fewer fun _ kept => kept,
    sound.routed.mono fewer fun _ kept => kept⟩
  · rw [List.map_append, List.map_singleton]
    exact List.nodup_append.mpr ⟨sound.versionIds, List.nodup_singleton _, by simp_all⟩
  · intro row member
    rcases List.mem_append.mp member with inside | last
    · obtain ⟨policy, old, facts⟩ := sound.owned row inside
      exact ⟨policy, more policy old, facts⟩
    · rw [List.mem_singleton.mp last]
      exact owner
  · intro publication member
    obtain ⟨listed, row, inside, facts⟩ := sound.stored publication member
    exact ⟨more _ listed, row, List.mem_append_left _ inside, facts⟩

theorem insertVersion_ok {db after : PolicyDb} {version : ApprovalPolicyVersion}
    (inserted : insertVersion db version = .ok after) :
    version.id ∉ db.versions.map (·.id) ∧ after = { db with versions := db.versions ++ [version] } := by
  unfold insertVersion at inserted
  split at inserted <;> [cases inserted; rename_i fresh]
  exact ⟨fresh, (Except.ok.inj inserted).symm⟩

theorem Sound.create {system : PolicySystem} (sound : Sound system) {casing : CaseTable}
    {uuid4 : Nat → Uuid} {caller : PolicyCaller} {request : CreateApprovalPolicyRequest}
    {after : PolicyDb}
    (created : ApprovalPolicies.create casing uuid4 system.db caller request = .ok after) :
    Sound { system with db := after } := by
  simp only [ApprovalPolicies.create, bind, Except.bind] at created
  split at created <;> [cases created; skip]
  split at created <;> [cases created; rename_i fresh]
  obtain ⟨new, rfl⟩ := insertVersion_ok created
  refine sound.insert (fun policy old => List.mem_append_left _ old) ?_ ?_ new rfl
    ⟨_, List.mem_append_right _ (List.mem_singleton.mpr rfl), rfl, rfl, rfl⟩
  · rw [List.map_append, List.map_singleton]
    exact List.nodup_append.mpr ⟨sound.policyIds, List.nodup_singleton _, by simp_all⟩
  · intro policy member
    refine (List.mem_append.mp member).imp_right fun last => ?_
    rw [List.mem_singleton.mp last]
    exact fresh

theorem policyInScope_ok {db : PolicyDb} {caller : PolicyCaller} {policyId : Uuid}
    {policy : ApprovalPolicy} (found : policyInScope db caller policyId = .ok policy) :
    policy ∈ db.policies ∧ policy.id = policyId ∧ policy.organizationId = caller.organizationId ∧
      policy.workspaceId = caller.workspaceId := by
  unfold policyInScope at found
  split at found <;> [cases found; rename_i here]
  cases found
  have holds := List.find?_some here
  exact ⟨List.mem_of_find?_eq_some here, of_decide_eq_true holds⟩

theorem Sound.insertDraft {system : PolicySystem} (sound : Sound system) {uuid4 : Nat → Uuid}
    {caller : PolicyCaller} {policyId : Uuid} {policy : ApprovalPolicy}
    {source : Option ApprovalPolicyVersion} {after : PolicyDb}
    (found : policyInScope system.db caller policyId = .ok policy)
    (inserted : insertVersion system.db (draftOf uuid4 system.db caller policy source) =
      .ok after) : Sound { system with db := after } := by
  obtain ⟨listed, -, organization, workspace⟩ := policyInScope_ok found
  obtain ⟨new, rfl⟩ := insertVersion_ok inserted
  exact sound.insert (fun _ old => old) sound.policyIds (fun _ old => .inl old) new rfl
    ⟨policy, listed, rfl, organization, workspace⟩

theorem Sound.createVersion {system : PolicySystem} (sound : Sound system) {uuid4 : Nat → Uuid}
    {caller : PolicyCaller} {policyId : Uuid} {sourceVersion : Option Nat} {after : PolicyDb}
    (created : ApprovalPolicies.createVersion uuid4 system.db caller policyId sourceVersion =
      .ok after) : Sound { system with db := after } := by
  simp only [ApprovalPolicies.createVersion, bind, Except.bind] at created
  split at created <;> [cases created; skip]
  split at created <;> [cases created; rename_i policy found]
  split at created
  · exact sound.insertDraft found created
  · split at created <;> [cases created; skip]
    exact sound.insertDraft found created

theorem loadDraft_ok {db : PolicyDb} {caller : PolicyCaller} {policyId : Uuid}
    {versionNumber : Nat} {version : ApprovalPolicyVersion} {policy : ApprovalPolicy}
    (loaded : loadDraft db caller policyId versionNumber = .ok (version, policy)) :
    Stored db ⟨version.id, policy⟩ := by
  simp only [loadDraft, bind, Except.bind] at loaded
  split at loaded <;> [cases loaded; skip]
  split at loaded <;> [cases loaded; rename_i row found]
  split at loaded <;> [cases loaded; skip]
  split at loaded <;> [cases loaded; skip]
  split at loaded <;> [cases loaded; rename_i owner here]
  cases loaded
  unfold versionInScope at found
  split at found <;> [cases found; rename_i hit]
  cases found
  obtain ⟨listed, same⟩ := policy?_eq_some here
  exact ⟨listed, version, List.mem_of_find?_eq_some hit, rfl, same.symm⟩

/-- The same rows with other publications in flight, each of which the old ones vouch for. -/
theorem Sound.reflight {system : PolicySystem} (sound : Sound system)
    {publishing : List Publication}
    (known : ∀ publication ∈ publishing, Stored system.db publication.draft)
    (single : Guarded SamePolicy (Published system.db)
      (Passed publishing [.unpublished, .unmatched]))
    (routed : Guarded Clash (Published system.db) (Passed publishing [.unmatched])) :
    Sound { system with publishing := publishing } where
  policyIds := sound.policyIds
  versionIds := sound.versionIds
  owned := sound.owned
  stored := known
  single := single
  routed := routed

theorem Sound.fewer {system : PolicySystem} (sound : Sound system) {publishing : List Publication}
    (kept : publishing ⊆ system.publishing) :
    Sound { system with publishing := publishing } := by
  have passed : ∀ points draft, Passed publishing points draft →
      Passed system.publishing points draft := fun points draft ⟨publication, member, facts⟩ =>
    ⟨publication, kept member, facts⟩
  exact sound.reflight (fun publication member => sound.stored publication (kept member))
    (sound.single.mono (fun _ same => same) (passed _))
    (sound.routed.mono (fun _ same => same) (passed _))

theorem Sound.launch {system : PolicySystem} (sound : Sound system) {caller : PolicyCaller}
    {policyId : Uuid} {versionNumber : Nat} {version : ApprovalPolicyVersion}
    {policy : ApprovalPolicy}
    (loaded : loadDraft system.db caller policyId versionNumber = .ok (version, policy)) :
    Sound { system with publishing := system.publishing ++ [⟨version, policy, .loaded⟩] } := by
  have passed : ∀ points, .loaded ∉ points → ∀ draft,
      Passed (system.publishing ++ [⟨version, policy, .loaded⟩]) points draft →
        Passed system.publishing points draft := by
    rintro points absent draft ⟨publication, member, same, point⟩
    rcases List.mem_append.mp member with inside | last
    · exact ⟨publication, inside, same, point⟩
    · rw [List.mem_singleton.mp last] at point
      exact absurd point absent
  refine sound.reflight ?_ (sound.single.mono (fun _ same => same) (passed _ (by decide)))
    (sound.routed.mono (fun _ same => same) (passed _ (by decide)))
  intro publication member
  rcases List.mem_append.mp member with inside | last
  · exact sound.stored publication inside
  · rw [List.mem_singleton.mp last]
    exact loadDraft_ok loaded

/-- After one publication has moved on, what has passed a point had passed it before or is that
publication. -/
theorem Passed.of_set {publishing : List Publication} {i : Nat} {publication : Publication}
    {points : List Progress} {progress : Progress} {draft : Draft}
    (passed : Passed (publishing.set i { publication with progress := progress }) points draft) :
    Passed publishing points draft ∨ draft = publication.draft ∧ progress ∈ points := by
  obtain ⟨other, member, same, point⟩ := passed
  rcases List.mem_or_eq_of_mem_set member with inside | rfl
  · exact .inl ⟨other, inside, same, point⟩
  · exact .inr ⟨same.symm, point⟩

theorem Sound.advance {system : PolicySystem} (sound : Sound system) {i : Nat}
    {publication : Publication} (inside : publication ∈ system.publishing) (progress : Progress)
    (single : progress ∈ [.unpublished, .unmatched] →
      ∀ d, Published system.db d → ¬ SamePolicy publication.draft d)
    (routed : progress ∈ [.unmatched] →
      ∀ d, Published system.db d → ¬ Clash publication.draft d) :
    Sound { system with
      publishing := system.publishing.set i { publication with progress := progress } } := by
  refine sound.reflight ?_ ?_ ?_
  · intro other member
    rcases List.mem_or_eq_of_mem_set member with old | rfl
    · exact sound.stored other old
    · exact sound.stored publication inside
  · refine ⟨sound.single.free, fun a b passed published => ?_⟩
    rcases passed.of_set with before | ⟨rfl, point⟩
    · exact sound.single.clear a b before published
    · exact single point b published
  · refine ⟨sound.routed.free, fun a b passed published => ?_⟩
    rcases passed.of_set with before | ⟨rfl, point⟩
    · exact sound.routed.clear a b before published
    · exact routed point b published

/-- Publishing a stored version publishes its draft and nothing else. -/
theorem Sound.published_mark {system : PolicySystem} (sound : Sound system) {draft d : Draft}
    (stored : Stored system.db draft)
    (published : Published (markPublished system.db draft.versionId) d) :
    Published system.db d ∨ d = draft := by
  obtain ⟨listed, version, member, id, owner, status⟩ := published
  obtain ⟨old, inside, rfl⟩ := Lib.Table.mem_update.mp member
  obtain ⟨policyListed, row, rowInside, rowId, rowOwner⟩ := stored
  split_ifs at id owner status with hit
  · have same : old = row :=
      List.inj_on_of_nodup_map sound.versionIds inside rowInside (hit.trans rowId.symm)
    have policy : d.policy = draft.policy := by
      refine sound.policy_eq listed policyListed ?_
      rw [← owner, ← rowOwner, same]
    right
    obtain ⟨versionId, policy'⟩ := d
    obtain ⟨versionId', policy''⟩ := draft
    cases policy
    rw [show versionId = versionId' from id.symm.trans hit]
  · exact .inl ⟨listed, old, inside, id, owner, status⟩

theorem Sound.commit {system : PolicySystem} (sound : Sound system) {i : Nat}
    {publication : Publication} (inside : publication ∈ system.publishing)
    (ready : publication.progress = .unmatched)
    (alone : ∀ other ∈ system.publishing,
      (other.progress ∈ [.unpublished, .unmatched] → ¬ SamePolicy other.draft publication.draft) ∧
      (other.progress ∈ [.unmatched] → ¬ Clash other.draft publication.draft)) :
    Sound {
      db := markPublished system.db publication.version.id
      publishing := system.publishing.eraseIdx i } := by
  have stored := sound.stored publication inside
  have only : ∀ d, Published (markPublished system.db publication.version.id) d →
      Published system.db d ∨ d = publication.draft := fun d published =>
    sound.published_mark stored published
  have left : ∀ points d, Passed (system.publishing.eraseIdx i) points d →
      Passed system.publishing points d := fun points d ⟨other, member, facts⟩ =>
    ⟨other, List.mem_of_mem_eraseIdx member, facts⟩
  have single : Guarded SamePolicy (fun d => Published system.db d ∨ d = publication.draft)
      (Passed system.publishing [.unpublished, .unmatched]) := by
    refine sound.single.commit (fun a b same => ⟨Ne.symm same.1, same.2.symm⟩)
      (fun a same => same.1 rfl) ⟨publication, inside, rfl, by simp [ready]⟩ ?_
    rintro _ ⟨other, member, rfl, point⟩
    exact (alone other member).1 point
  have routed : Guarded Clash (fun d => Published system.db d ∨ d = publication.draft)
      (Passed system.publishing [.unmatched]) := by
    refine sound.routed.commit (fun a b clash => ⟨Ne.symm clash.1, clash.2.symm⟩)
      (fun a clash => clash.1 rfl) ⟨publication, inside, rfl, by simp [ready]⟩ ?_
    rintro _ ⟨other, member, rfl, point⟩
    exact (alone other member).2 point
  have ids : ((markPublished system.db publication.version.id).versions.map (·.id)) =
      system.db.versions.map (·.id) := Lib.Table.map_update fun _ => rfl
  refine ⟨sound.policyIds, ids ▸ sound.versionIds, ?_, ?_, single.mono only (left _),
    routed.mono only (left _)⟩
  · intro version member
    obtain ⟨old, before, rfl⟩ := Lib.Table.mem_update.mp member
    obtain ⟨policy, listed, facts⟩ := sound.owned old before
    refine ⟨policy, listed, ?_⟩
    split_ifs <;> exact facts
  · intro other member
    obtain ⟨listed, row, before, id, owner⟩ :=
      sound.stored other (List.mem_of_mem_eraseIdx member)
    refine ⟨listed, _, Lib.Table.mem_update.mpr ⟨row, before, rfl⟩, ?_⟩
    split_ifs <;> exact ⟨id, owner⟩

theorem policyStep_sound {casing : CaseTable} {system : PolicySystem} {action : PolicyAction}
    (sound : Sound system) (alone : Alone system action) :
    Sound (policyStep casing system action) := by
  cases action with
  | create uuid4 caller request =>
      simp only [policyStep]
      split
      · exact sound
      · rename_i created
        exact sound.create created
  | createVersion uuid4 caller policyId sourceVersion =>
      simp only [policyStep]
      split
      · exact sound
      · rename_i created
        exact sound.createVersion created
  | beginPublish caller policyId versionNumber =>
      simp only [policyStep]
      split
      · exact sound
      · rename_i loaded
        exact sound.launch loaded
  | abandonPublish i => exact sound.fewer (List.eraseIdx_subset ..)
  | continuePublish i =>
      simp only [policyStep]
      split
      · exact sound
      · rename_i publication here
        have inside := List.mem_of_getElem? here
        unfold Publication.continue
        split
        · split
          · exact sound.fewer (List.eraseIdx_subset ..)
          · rename_i passed
            refine sound.advance inside .unpublished (fun _ d published same => ?_)
              fun point => nomatch point
            exact ensureUnpublished_ok passed published same.2.symm
        · rename_i point
          split
          · exact sound.fewer (List.eraseIdx_subset ..)
          · rename_i passed
            refine sound.advance inside .unmatched (fun _ d published => ?_)
              fun _ d published clash => ?_
            · exact sound.single.clear publication.draft d
                ⟨publication, inside, rfl, by simp [point]⟩ published
            · exact ensureNoEqualRoutingMatch_ok sound passed published (Ne.symm clash.1)
                clash.2.symm
        · rename_i ready
          exact sound.commit inside ready (alone publication here ready)

/-- Each policy has one published version at most, and no two published versions of different
policies tie. -/
structure NoConflicts (db : PolicyDb) : Prop where
  onePublished : ∀ first ∈ db.versions, ∀ second ∈ db.versions, first.status = .published →
    second.status = .published → first.policyId = second.policyId → first = second
  noTies : ∀ first ∈ db.versions, ∀ second ∈ db.versions, first.status = .published →
    second.status = .published → ∀ policy ∈ db.policies, ∀ other ∈ db.policies,
    policy.id = first.policyId → other.id = second.policyId → policy.id ≠ other.id →
    ¬ Ties policy other

theorem Sound.noConflicts {system : PolicySystem} (sound : Sound system) :
    NoConflicts system.db where
  onePublished first one second other published published' same := by
    obtain ⟨policy, listed, owner, -⟩ := sound.owned first one
    by_contra different
    have ids : first.id ≠ second.id := fun equal =>
      different (List.inj_on_of_nodup_map sound.versionIds one other equal)
    exact sound.single.free ⟨first.id, policy⟩ ⟨second.id, policy⟩
      ⟨listed, first, one, rfl, owner.symm, published⟩
      ⟨listed, second, other, rfl, (owner.trans same).symm, published'⟩ ⟨ids, rfl⟩
  noTies first one second other published published' policy listed policy' listed' owner owner'
      different ties := by
    refine sound.routed.free ⟨first.id, policy⟩ ⟨second.id, policy'⟩
      ⟨listed, first, one, rfl, owner.symm, published⟩
      ⟨listed', second, other, rfl, owner'.symm, published'⟩ ⟨fun equal => different ?_, ties⟩
    rw [owner, owner', List.inj_on_of_nodup_map sound.versionIds one other equal]

theorem join_sublist {α β : Type} (join : α → Option β) (rows : List α) :
    ((rows.filterMap fun row => (join row).map fun other => (row, other)).map
      Prod.fst).Sublist rows := by
  induction rows with
  | nil => exact List.Sublist.refl _
  | cons row rest ih =>
      cases found : join row with
      | none =>
          simp only [List.filterMap_cons, found, Option.map_none]
          exact ih.cons row
      | some other =>
          simp only [List.filterMap_cons, found, Option.map_some, List.map_cons]
          exact ih.cons_cons row

/-- No version matches a request twice. -/
theorem Sound.matches_nodup {system : PolicySystem} (sound : Sound system)
    (organizationId workspaceId : Uuid) (request : ApprovalPolicyRouteRequest) :
    ((system.db.routeMatches organizationId workspaceId request).map (·.1.id)).Nodup := by
  have rows : ((system.db.routeMatches organizationId workspaceId request).map
      Prod.fst).Sublist system.db.versions :=
    (List.filter_sublist.map Prod.fst).trans ((join_sublist _ _).trans List.filter_sublist)
  have ids := sound.versionIds.sublist (rows.map (·.id))
  rwa [List.map_map] at ids

/-- Two candidates that match a request and rank the same would tie. -/
theorem Sound.route_ok {system : PolicySystem} (sound : Sound system) (mayRead : Bool)
    (organizationId workspaceId : Uuid) (request : ApprovalPolicyRouteRequest) :
    route system.db mayRead organizationId workspaceId request ≠ .error routingConflict := by
  intro raised
  obtain ⟨⟨first, policy⟩, ⟨second, policy'⟩, both, key⟩ := route_conflict raised
  have member : ∀ version owner, (version, owner) ∈ [(first, policy), (second, policy')] →
      (version, owner) ∈ system.db.publishedIn organizationId workspaceId ∧
        owner.agreementFamily = request.agreementFamily ∧ owner.covers request = true := by
    intro version owner listed
    have matched := both.subset listed
    rw [PolicyDb.routeMatches, List.mem_filter, Bool.and_eq_true, decide_eq_true_eq] at matched
    exact matched
  obtain ⟨one, family, covers⟩ := member first policy (by simp)
  obtain ⟨other, family', covers'⟩ := member second policy' (by simp)
  obtain ⟨inside, organization, workspace, published, found⟩ := mem_publishedIn.mp one
  obtain ⟨inside', organization', workspace', published', found'⟩ := mem_publishedIn.mp other
  obtain ⟨listed, owner⟩ := policy?_eq_some found
  obtain ⟨listed', owner'⟩ := policy?_eq_some found'
  have distinct : first.id ≠ second.id := by
    obtain ⟨pair, same, part⟩ := both
    have ids := (sound.matches_nodup organizationId workspaceId request).sublist
      (part.map (·.1.id))
    simpa using (same.map (·.1.id)).nodup_iff.mp ids
  obtain ⟨its, old, same, itsOrganization, itsWorkspace⟩ := sound.owned first inside
  obtain ⟨its', old', same', itsOrganization', itsWorkspace'⟩ := sound.owned second inside'
  rw [sound.policy_eq old listed (same.trans owner.symm)] at itsOrganization itsWorkspace
  rw [sound.policy_eq old' listed' (same'.trans owner'.symm)] at itsOrganization' itsWorkspace'
  exact sound.routed.free ⟨first.id, policy⟩ ⟨second.id, policy'⟩
    ⟨listed, first, inside, rfl, owner.symm, published⟩
    ⟨listed', second, inside', rfl, owner'.symm, published'⟩
    ⟨distinct, (itsOrganization.trans organization).trans (itsOrganization'.trans organization').symm,
      (itsWorkspace.trans workspace).trans (itsWorkspace'.trans workspace').symm,
      family.trans family'.symm, key.symm, routingScopesOverlap_of_covers covers covers'⟩

def emptySystem : PolicySystem := ⟨⟨[], []⟩, []⟩

theorem emptySystem_sound : Sound emptySystem := by
  refine ⟨List.nodup_nil, List.nodup_nil, ?_, ?_, ⟨?_, ?_⟩, ⟨?_, ?_⟩⟩ <;>
    simp [emptySystem, Published, Passed]

/-- In a run whose commits are all alone, published versions never conflict and routing never
finds a tie. -/
theorem run_noConflicts {casing : CaseTable} {actions : List PolicyAction}
    (alone : ∀ pre action post, actions = pre ++ action :: post →
      Alone (run (policyStep casing) emptySystem pre) action) :
    NoConflicts (run (policyStep casing) emptySystem actions).db ∧
      ∀ mayRead organizationId workspaceId request,
        route (run (policyStep casing) emptySystem actions).db mayRead organizationId workspaceId
          request ≠ .error routingConflict := by
  have sound : Sound (run (policyStep casing) emptySystem actions) :=
    run_invariant_along Alone Sound emptySystem_sound
      (fun _ _ alone sound => policyStep_sound sound alone) alone
  exact ⟨sound.noConflicts, sound.route_ok⟩

def sampleManager : PolicyCaller := ⟨.ofNat 20, .ofNat 1, .ofNat 2, true⟩

/-- A client policy for any direction, jurisdiction and materiality that one user approves. -/
def samplePolicyRequest : CreateApprovalPolicyRequest :=
  ⟨"policy", .clientAgreement, .any, "any", .any, 100, false, false,
    [⟨"legal", .any, none, [], [.ofNat 21], none, none⟩]⟩

/-- Two policies with the same routing, their drafts ready to be published. -/
def twoDrafts : List PolicyAction :=
  [.create (fun n => .ofNat (100 + n)) sampleManager samplePolicyRequest,
    .create (fun n => .ofNat (200 + n)) sampleManager samplePolicyRequest]

def publishFirst : PolicyAction := .beginPublish sampleManager (.ofNat 100) 1

def publishSecond : PolicyAction := .beginPublish sampleManager (.ofNat 200) 1

/-- One publication after the other: the second one is refused. -/
def inTurn : List PolicyAction :=
  twoDrafts ++ [publishFirst, .continuePublish 0, .continuePublish 0, .continuePublish 0,
    publishSecond, .continuePublish 0, .continuePublish 0, .continuePublish 0]

theorem run_noConflicts_sample :
    ((run (policyStep .ascii) emptySystem inTurn).db.versions.map (·.status) =
      [.published, .draft]) ∧ NoConflicts (run (policyStep .ascii) emptySystem inTurn).db := by
  have alone : meetsAlong (policyStep .ascii) Alone emptySystem inTurn := by decide +kernel
  exact ⟨by decide +kernel, (run_noConflicts (meetsAlong_iff.mp alone)).1⟩

/-- Published policies never conflict, whatever runs beside what. -/
def NeverConflicts : Prop :=
  ∀ (casing : CaseTable) (actions : List PolicyAction),
    NoConflicts (run (policyStep casing) emptySystem actions).db ∧
      ∀ mayRead organizationId workspaceId request,
        route (run (policyStep casing) emptySystem actions).db mayRead organizationId workspaceId
          request ≠ .error routingConflict

/-- Both publications have made their checks before either commits. -/
theorem not_neverConflicts : ¬ NeverConflicts := by
  intro promised
  have routed := (promised .ascii (twoDrafts ++ [publishFirst, publishSecond, .continuePublish 0,
    .continuePublish 0, .continuePublish 1, .continuePublish 1, .continuePublish 0,
    .continuePublish 0])).2 true (.ofNat 1) (.ofNat 2) ⟨.clientAgreement, .any, "any", .any⟩
  exact routed (by decide +kernel)

end AgreementIntelligence.ApprovalPolicies
