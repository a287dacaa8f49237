import AgreementIntelligence.Agreements.SharedSources
import AgreementIntelligence.Lib.Runs

/-! Shared source objects stay. A removal is decided under the lock of the object, when nobody
refers to it; until the removal has committed, whoever would refer to the object by a version waits
for the lock, and finds the object unavailable afterwards. Only `AgreementService.create` refers to
objects without their locks, by the files that are not the last one. -/

namespace AgreementIntelligence.Agreements
open Identity Lib.Table Lib.Locks Lib.Runs

def DocumentObjectRegistryRecord.Names (entry : DocumentObjectRegistryRecord)
    (organizationId workspaceId : Uuid) (key : String) : Prop :=
  entry.organizationId = organizationId ∧ entry.workspaceId = workspaceId ∧
    entry.objectKey = key

section Registry

variable {registry : List DocumentObjectRegistryRecord} {organizationId workspaceId : Uuid}
  {key : String} {now : Time} {entry : DocumentObjectRegistryRecord}

theorem mem_recordSourceUpload
    (member : entry ∈ recordSourceUpload registry organizationId workspaceId key now) :
    entry ∈ registry ∨ entry.Names organizationId workspaceId key ∧ entry.state = .available := by
  unfold recordSourceUpload at member
  dsimp only at member
  split at member
  · obtain ⟨old, there, rfl⟩ := List.mem_map.mp member
    split
    · rename_i here
      exact .inr ⟨here, rfl⟩
    · exact .inl there
  · obtain old | new := List.mem_append.mp member
    · exact .inl old
    · rw [List.mem_singleton.mp new]
      exact .inr ⟨⟨rfl, rfl, rfl⟩, rfl⟩

theorem mem_registerDeleted
    (member : entry ∈ registerDeleted registry organizationId workspaceId key now) :
    entry ∈ registry ∧ ¬ entry.Names organizationId workspaceId key ∨
      entry.Names organizationId workspaceId key ∧ entry.state = .deleted := by
  unfold registerDeleted at member
  dsimp only at member
  split at member
  · obtain ⟨old, there, rfl⟩ := List.mem_map.mp member
    split
    · rename_i here
      exact .inr ⟨here, rfl⟩
    · rename_i apart
      exact .inl ⟨there, apart⟩
  · rename_i absent
    obtain old | new := List.mem_append.mp member
    · refine .inl ⟨old, fun here => absent (List.any_eq_true.mpr ⟨entry, old, ?_⟩)⟩
      exact decide_eq_true here
    · rw [List.mem_singleton.mp new]
      exact .inr ⟨⟨rfl, rfl, rfl⟩, rfl⟩

end Registry

def SourceSession.lock? (slot : String → Nat) (session : SourceSession) : Option Nat :=
  session.lockedKey?.map slot

/-- What a session works with is what it has read or been given. -/
def SourceSession.Lawful (db : Database) (claims : List AgreementDeletion) :
    SourceSession → Prop
  | .upload .. => True
  | .create agreement first _ => Database.Fits agreement first
  | .version agreement record _ =>
    (record.agreementId = agreement.id ∧ record.organizationId = agreement.organizationId ∧
      record.workspaceId = agreement.workspaceId) ∧
    agreement.scope ∈ db.agreements.map AgreementRecord.scope
  | .removal deletion item _ => deletion ∈ claims ∧
    validateOwnedKey deletion.organizationId deletion.workspaceId deletion.agreementId .source
      item.objectKey

/-- What a session has found under its lock still holds. -/
structure SourceSession.Stands (db : Database) (claims : List AgreementDeletion)
    (session : SourceSession) : Prop where
  lawful : session.Lawful db claims
  checked : ∀ record ∈ session.checkedVersion?, ∀ entry ∈ db.registry,
    entry.Names record.organizationId record.workspaceId record.storageKey →
      entry.state = .available
  spared : ∀ deletion item stage, session = .removal deletion item stage → stage ≠ .locked →
    db.Spared deletion.organizationId deletion.workspaceId item.objectKey

/-- The invariant. -/
structure SourceWorld.Sound (slot : String → Nat) (w : SourceWorld) : Prop where
  keyed : w.db.Keyed
  requests : ∀ request ∈ w.db.deletionRequests, w.db.Marked request.agreementId
  claims : ∀ deletion ∈ w.claims, w.db.Marked deletion.agreementId
  available : ∀ organizationId workspaceId key,
    w.db.VersionRefers organizationId workspaceId key → ∀ entry ∈ w.db.registry,
      entry.Names organizationId workspaceId key → entry.state = .available
  locks : Exclusive (SourceSession.lock? slot) w.sessions
  stands : ∀ session ∈ w.sessions, session.Stands w.db w.claims

variable {slot : String → Nat} {w : SourceWorld} {session next : SourceSession} {db : Database}

namespace SourceSession

@[simp] theorem lockedKey?_create (agreement : AgreementRecord)
    (first : Option AgreementVersionRecord) :
    (SourceSession.create agreement first false).lockedKey? = none := by
  cases first <;> rfl

@[simp] theorem checkedVersion?_create (agreement : AgreementRecord)
    (first : Option AgreementVersionRecord) :
    (SourceSession.create agreement first false).checkedVersion? = none := by
  cases first <;> rfl

/-- A session that only reads or writes under no lock. -/
theorem Stands.of_lawful {claims : List AgreementDeletion} (lawful : session.Lawful db claims)
    (unchecked : session.checkedVersion? = none)
    (undecided : ∀ deletion item stage, session = .removal deletion item stage →
      stage = .locked) : session.Stands db claims where
  lawful := lawful
  checked := by simp [unchecked]
  spared deletion item stage same decided := absurd (undecided deletion item stage same) decided

/-- A removal that nothing speaks against. -/
theorem Stands.of_spared {claims : List AgreementDeletion} {deletion : AgreementDeletion}
    {item : AgreementDeletionObject} {stage : RemovalStage}
    (lawful : (SourceSession.removal deletion item stage).Lawful db claims)
    (spared : db.Spared deletion.organizationId deletion.workspaceId item.objectKey) :
    (SourceSession.removal deletion item stage).Stands db claims where
  lawful := lawful
  checked := by simp [checkedVersion?]
  spared := by
    rintro _ _ _ ⟨⟩ -
    exact spared

theorem Lawful.mono {after : Database} {claims more : List AgreementDeletion}
    (lawful : session.Lawful db claims)
    (scopes : ∀ row ∈ db.agreements, ∃ later ∈ after.agreements, later.scope = row.scope)
    (known : claims ⊆ more) : session.Lawful after more := by
  cases session with
  | upload => trivial
  | create => exact lawful
  | version agreement record stage =>
      refine ⟨lawful.1, ?_⟩
      obtain ⟨row, there, same⟩ := List.mem_map.mp lawful.2
      obtain ⟨later, inside, scope⟩ := scopes row there
      exact List.mem_map.mpr ⟨later, inside, scope.trans same⟩
  | removal => exact ⟨known lawful.1, lawful.2⟩

theorem Stands.quiet {claims : List AgreementDeletion} (stands : session.Stands w.db claims)
    (quiet : w.db.Quiet db) (more : List AgreementDeletion) :
    session.Stands db (claims ++ more) where
  lawful := stands.lawful.mono (fun _ member => exists_mem_of_map_eq quiet.scopes.symm member)
    (List.subset_append_left _ _)
  checked := by
    rw [quiet.registry]
    exact stands.checked
  spared deletion item stage same decided :=
    quiet.spared (stands.spared deletion item stage same decided)

/-- Somebody else commits a version under another lock. -/
theorem Stands.adds {claims : List AgreementDeletion} {version : Option AgreementVersionRecord}
    (stands : session.Stands w.db claims) (adds : w.db.Adds db version)
    (apart : ∀ record ∈ version, session.lockedKey? ≠ some record.storageKey) :
    session.Stands db claims where
  lawful := stands.lawful.mono adds.scopes (List.Subset.refl _)
  checked := by
    rw [adds.registry]
    exact stands.checked
  spared := by
    rintro deletion item stage rfl decided
    obtain ⟨versions, files⟩ := stands.spared deletion item stage rfl decided
    have other : ¬ ∃ record ∈ version,
        record.Names deletion.organizationId deletion.workspaceId item.objectKey := by
      rintro ⟨record, made, -, -, same⟩
      exact apart record made (congrArg some same.symm)
    exact ⟨fun refers => (adds.versions _ _ _ refers).elim versions other,
      fun refers => (adds.files _ _ _ refers).elim files other⟩

/-- The registry changes for an object under another lock, or makes an object available. -/
theorem Stands.register {claims : List AgreementDeletion}
    {registry : List DocumentObjectRegistryRecord} (stands : session.Stands w.db claims)
    (entries : ∀ entry ∈ registry, entry ∈ w.db.registry ∨ entry.state = .available ∨
      session.lockedKey? ≠ some entry.objectKey) :
    session.Stands { w.db with registry } claims where
  lawful := stands.lawful.mono (fun row member => ⟨row, member, rfl⟩) (List.Subset.refl _)
  checked := by
    intro record made entry member names
    obtain old | available | apart := entries entry member
    · exact stands.checked record made entry old names
    · exact available
    · refine absurd ?_ apart
      rw [names.2.2]
      cases session with
      | upload => cases made
      | create agreement first checked =>
          cases first <;> cases checked <;> simp_all [checkedVersion?, lockedKey?]
      | version agreement other stage => cases stage <;> simp_all [checkedVersion?, lockedKey?]
      | removal => cases made
  spared := stands.spared

end SourceSession

theorem SourceSession.lockedKey?_of_checked {record : AgreementVersionRecord}
    (checked : record ∈ session.checkedVersion?) :
    session.lockedKey? = some record.storageKey := by
  cases session with
  | upload => cases checked
  | create agreement first passed =>
      cases first <;> cases passed <;> simp_all [checkedVersion?, lockedKey?]
  | version agreement other stage => cases stage <;> simp_all [checkedVersion?, lockedKey?]
  | removal => cases checked

theorem finishObject_quiet (db : Database) (deletion : AgreementDeletion) (objectId : Nat)
    (state : DeletionObjectState) (now : Time) :
    db.Quiet (finishObject db deletion objectId state now) := by
  refine .of_same rfl rfl rfl fun request member => ?_
  obtain ⟨old, there, rfl⟩ := List.mem_map.mp member
  refine ⟨old, there, ?_⟩
  split <;> rfl

/-- Whoever has asked for the deletion refers to the object no more, and nobody else does. -/
theorem spared_of_unshared {deletion : AgreementDeletion} {key : String} (keyed : db.Keyed)
    (marked : db.Marked deletion.agreementId)
    (unshared : ¬ sourceIsShared db deletion key = true) :
    db.Spared deletion.organizationId deletion.workspaceId key := by
  obtain ⟨owner, there, id, requested⟩ := marked
  have others : ∀ agreement ∈ db.agreements, agreement.deletionRequestedAt = none →
      agreement.id ≠ deletion.agreementId := by
    intro agreement member live same
    have equal : agreement = owner :=
      List.inj_on_of_nodup_map keyed.ids member there (same.trans id.symm)
    rw [← equal, live] at requested
    cases requested
  simp only [sourceIsShared, Bool.or_eq_true, not_or] at unshared
  constructor
  · rintro ⟨version, member, organization, workspace, same, agreement, inside, named, live⟩
    refine unshared.1.1 (List.any_eq_true.mpr ⟨version, member, decide_eq_true ?_⟩)
    refine ⟨same, named ▸ others agreement inside live, organization, workspace, ?_⟩
    exact List.any_eq_true.mpr ⟨agreement, inside, decide_eq_true ⟨named, live⟩⟩
  · rintro ⟨agreement, member, organization, workspace, live, last⟩
    refine unshared.1.2 (List.any_eq_true.mpr ⟨agreement, member, decide_eq_true ?_⟩)
    obtain ⟨file, listed, same⟩ := Option.map_eq_some_iff.mp last
    refine ⟨others agreement member live, organization, workspace, live, ?_⟩
    exact List.any_eq_true.mpr ⟨file, List.mem_of_getLast? listed, decide_eq_true same⟩

namespace SourceWorld

theorem unlocked_iff {key : String} : w.unlocked slot key = true ↔
    ∀ other ∈ w.sessions, other.lock? slot ≠ some (slot key) := by
  simp [unlocked, SourceSession.lock?]

/-- Nobody else has the lock of the object. -/
theorem Sound.apart (sound : w.Sound slot) (member : session ∈ w.sessions) {key : String}
    (held : session.lockedKey? = some key) :
    ∀ other ∈ w.sessions.erase session, other.lockedKey? ≠ some key := by
  intro other there same
  have locked : session.lock? slot = some (slot key) := by
    rw [SourceSession.lock?, held, Option.map_some]
  refine sound.locks.apart member locked other there ?_
  rw [SourceSession.lock?, same, Option.map_some]

/-- A write that adds no reference, and the claims that it returns. -/
theorem Sound.quiet (sound : w.Sound slot) (quiet : w.db.Quiet db) (more : List AgreementDeletion)
    (claimed : ∀ deletion ∈ more, db.Marked deletion.agreementId) :
    Sound slot { w with db, claims := w.claims ++ more } where
  keyed := sound.keyed.quiet quiet
  requests := by
    intro request member
    obtain ⟨old, there, same⟩ | marked := quiet.requests request member
    · exact same ▸ quiet.marked _ (sound.requests old there)
    · exact marked
  claims := by
    intro deletion member
    obtain old | new := List.mem_append.mp member
    · exact quiet.marked _ (sound.claims deletion old)
    · exact claimed deletion new
  available := by
    intro organizationId workspaceId key refers entry member names
    rw [quiet.registry] at member
    exact sound.available organizationId workspaceId key (quiet.versionRefers refers) entry member
      names
  locks := sound.locks
  stands other there := (sound.stands other there).quiet quiet more

theorem Sound.write (sound : w.Sound slot) (quiet : w.db.Quiet db) : Sound slot { w with db } := by
  have written := sound.quiet quiet [] (by simp)
  rwa [List.append_nil] at written

theorem Sound.stop (sound : w.Sound slot) (session : SourceSession) :
    (w.finish session w.db).Sound slot where
  keyed := sound.keyed
  requests := sound.requests
  claims := sound.claims
  available := sound.available
  locks := sound.locks.erase session
  stands other there := sound.stands other (List.mem_of_mem_erase there)

theorem Sound.start (sound : w.Sound slot) (stands : session.Stands w.db w.claims)
    (free : ∀ key, session.lockedKey? = some key → w.unlocked slot key = true) :
    (w.start session).Sound slot where
  keyed := sound.keyed
  requests := sound.requests
  claims := sound.claims
  available := sound.available
  locks := by
    refine sound.locks.start fun lock held => ?_
    obtain ⟨key, locked, rfl⟩ := Option.map_eq_some_iff.mp held
    exact unlocked_iff.mp (free key locked)
  stands other there := by
    obtain old | new := List.mem_append.mp there
    · exact sound.stands other old
    · rw [List.mem_singleton.mp new]
      exact stands

theorem Sound.proceed (sound : w.Sound slot) (member : session ∈ w.sessions)
    (stands : next.Stands w.db w.claims)
    (takes : ∀ key, next.lockedKey? = some key →
      session.lockedKey? = some key ∨ w.unlocked slot key = true) :
    (w.proceed session next).Sound slot where
  keyed := sound.keyed
  requests := sound.requests
  claims := sound.claims
  available := sound.available
  locks := by
    refine sound.locks.proceed member fun lock held => ?_
    obtain ⟨key, locked, rfl⟩ := Option.map_eq_some_iff.mp held
    refine (takes key locked).imp (fun kept => ?_) unlocked_iff.mp
    rw [SourceSession.lock?, kept, Option.map_some]
  stands other there := by
    obtain old | new := List.mem_append.mp there
    · exact sound.stands other (List.mem_of_mem_erase old)
    · rw [List.mem_singleton.mp new]
      exact stands

/-- Object storage does not matter to who refers to what. -/
theorem Sound.with_storage (sound : w.Sound slot) (storage : List String) :
    Sound slot { w with storage } :=
  ⟨sound.keyed, sound.requests, sound.claims, sound.available, sound.locks, sound.stands⟩

/-- A session commits the version it has checked. -/
theorem Sound.commit (sound : w.Sound slot) (member : session ∈ w.sessions)
    (adds : w.db.Adds db session.checkedVersion?) : (w.finish session db).Sound slot where
  keyed := adds.keyed
  requests := by
    rw [finish, adds.requests]
    exact fun request there => adds.marked _ (sound.requests request there)
  claims deletion there := adds.marked _ (sound.claims deletion there)
  available := by
    intro organizationId workspaceId key refers entry there names
    rw [finish, adds.registry] at there
    obtain before | ⟨record, checked, organization, workspace, same⟩ := adds.versions _ _ _ refers
    · exact sound.available organizationId workspaceId key before entry there names
    · subst organization workspace same
      exact (sound.stands session member).checked record checked entry there names
  locks := sound.locks.erase session
  stands other there := by
    refine (sound.stands other (List.mem_of_mem_erase there)).adds adds fun record checked => ?_
    exact sound.apart member (SourceSession.lockedKey?_of_checked checked) other there

theorem Sound.commitOutcome (sound : w.Sound slot) (member : session ∈ w.sessions)
    {outcome : Except Raised Database}
    (adds : ∀ db, outcome = .ok db → w.db.Adds db session.checkedVersion?) :
    (w.commit session outcome).Sound slot := by
  unfold SourceWorld.commit
  split
  · exact sound.stop session
  · exact sound.commit member (adds _ rfl)

/-- A session changes the registry for the object whose lock it holds, while no version refers to
it, or makes an object available. -/
theorem Sound.register (sound : w.Sound slot) (member : session ∈ w.sessions)
    {registry : List DocumentObjectRegistryRecord}
    (entries : ∀ entry ∈ registry, entry ∈ w.db.registry ∨ entry.state = .available ∨
      session.lockedKey? = some entry.objectKey ∧
        ¬ w.db.VersionRefers entry.organizationId entry.workspaceId entry.objectKey) :
    (w.finish session { w.db with registry }).Sound slot where
  keyed := ⟨sound.keyed.ids, sound.keyed.owned⟩
  requests := sound.requests
  claims := sound.claims
  available := by
    intro organizationId workspaceId key refers entry there names
    obtain old | available | ⟨-, unreferred⟩ := entries entry there
    · exact sound.available organizationId workspaceId key refers entry old names
    · exact available
    · obtain ⟨rfl, rfl, rfl⟩ := names
      exact absurd refers unreferred
  locks := sound.locks.erase session
  stands other there := by
    refine (sound.stands other (List.mem_of_mem_erase there)).register fun entry inside => ?_
    exact (entries entry inside).imp_right (.imp_right fun held =>
      sound.apart member held.1 other there)

/-! Steps -/

theorem Sound.check (sound : w.Sound slot) (member : session ∈ w.sessions)
    {record : AgreementVersionRecord} (lawful : next.Lawful w.db w.claims)
    (checks : next.checkedVersion? = some record)
    (undecided : ∀ deletion item stage, next ≠ .removal deletion item stage) :
    (w.check slot session next record).Sound slot := by
  unfold SourceWorld.check
  split
  · exact sound
  rename_i free
  split
  · exact sound.stop session
  rename_i found
  refine sound.proceed member ⟨lawful, fun other checked entry there names => ?_,
    fun deletion item stage same => absurd same (undecided deletion item stage)⟩ fun key held => ?_
  · cases (Option.some.inj (checks.symm.trans checked))
    by_contra gone
    exact found (List.any_eq_true.mpr ⟨entry, there,
      decide_eq_true ⟨names.1, names.2.1, names.2.2, gone⟩⟩)
  · rw [SourceSession.lockedKey?_of_checked checks] at held
    cases held
    exact .inr (not_not.mp free)

theorem Sound.reserve (sound : w.Sound slot) (member : session ∈ w.sessions)
    (stands : next.Stands w.db w.claims) (free : next.lockedKey? = none)
    (agreement : AgreementRecord) : (w.reserve session next agreement).Sound slot := by
  unfold SourceWorld.reserve
  split
  · exact sound
  split
  · exact sound.stop session
  · exact sound.proceed member stands fun key held => by simp [free] at held

theorem Sound.decideRemoval (sound : w.Sound slot) {deletion : AgreementDeletion}
    {item : AgreementDeletionObject} (member : .removal deletion item .locked ∈ w.sessions)
    (now : Time) :
    (w.decideRemoval (.removal deletion item .locked) deletion item now).Sound slot := by
  unfold SourceWorld.decideRemoval
  split
  · exact sound.stop _
  split
  · exact (sound.stop _).write (finishObject_quiet ..)
  rename_i unshared
  have lawful := (sound.stands _ member).lawful
  have spared := spared_of_unshared sound.keyed (sound.claims deletion lawful.1) unshared
  exact sound.proceed member (.of_spared lawful spared) fun key held => .inl held

theorem Sound.advance (sound : w.Sound slot) (member : session ∈ w.sessions) (now : Time) :
    (w.advance slot session now).Sound slot := by
  have stands := sound.stands session member
  cases session with
  | upload organizationId workspaceId sha256 extension stored =>
      cases stored with
      | false =>
          have moved : (w.proceed (.upload organizationId workspaceId sha256 extension false)
              (.upload organizationId workspaceId sha256 extension true)).Sound slot :=
            sound.proceed member (.of_lawful trivial rfl (by simp)) fun key held => .inl held
          exact moved.with_storage _
      | true =>
          refine sound.register member fun entry there => ?_
          exact (mem_recordSourceUpload there).imp_right fun new => .inl new.2
  | create agreement first passed =>
      cases first with
      | none =>
          refine sound.commitOutcome member fun db done => ?_
          exact Database.insertCreated_adds sound.keyed stands.lawful done
      | some record =>
          cases passed with
          | false => exact sound.check member stands.lawful rfl (by simp)
          | true =>
              refine sound.commitOutcome member fun db done => ?_
              exact Database.insertCreated_adds sound.keyed stands.lawful done
  | version agreement record stage =>
      cases stage with
      | planned =>
          have reserved : (SourceSession.version agreement record .reserved).Stands w.db w.claims :=
            .of_lawful stands.lawful rfl (by simp)
          exact sound.reserve member reserved rfl agreement
      | reserved => exact sound.check member stands.lawful rfl (by simp)
      | checked =>
          refine sound.commitOutcome member fun db done => ?_
          exact Database.insertPlanned_adds sound.keyed stands.lawful.1 stands.lawful.2 done
  | removal deletion item stage =>
      cases stage with
      | locked => exact sound.decideRemoval member now
      | unshared =>
          have spared := stands.spared deletion item .unshared rfl (by simp)
          have moved : (w.proceed (.removal deletion item .unshared)
              (.removal deletion item .removed)).Sound slot :=
            sound.proceed member (.of_spared stands.lawful spared) fun key held => .inl held
          exact moved.with_storage _
      | removed =>
          have spared := stands.spared deletion item .removed rfl (by simp)
          refine (sound.register member fun entry there => ?_).write (finishObject_quiet ..)
          obtain ⟨old, -⟩ | ⟨⟨organization, workspace, key⟩, -⟩ := mem_registerDeleted there
          · exact .inl old
          · refine .inr (.inr ⟨congrArg some key.symm, ?_⟩)
            rw [organization, workspace, key]
            exact spared.1

end SourceWorld

theorem plannedVersion_ok {organizationId workspaceId agreementId versionId : Uuid}
    {expectedCurrentVersion : Nat} {idempotencyKey : String} {uploaded : UploadedDocument}
    {agreement : AgreementRecord} {record : AgreementVersionRecord}
    (planned : plannedVersion db organizationId workspaceId agreementId expectedCurrentVersion
      idempotencyKey uploaded versionId = .ok (some (agreement, record))) :
    agreement ∈ db.agreements ∧ ∃ number,
      record = newVersion agreement versionId number idempotencyKey uploaded := by
  obtain ⟨found, inScope, reads⟩ := Lib.Results.bind_ok.mp planned
  split at reads
  · split at reads <;> cases reads
  · dsimp only at reads
    split at reads
    · cases reads
    split at reads
    · cases reads
    · cases reads
      exact ⟨(agreementInScope_ok inScope).1, _, rfl⟩

theorem createdAgreement_fits (organizationId workspaceId : Uuid) (request : CreateAgreementRequest)
    (agreementId versionId : Uuid) :
    let agreement := createdAgreement organizationId workspaceId request agreementId
    Database.Fits agreement
      (request.files.getLast?.map (initialVersion agreement · versionId)) where
  last := by
    rw [Option.map_map]
    rfl
  scope := by
    intro record made
    obtain ⟨source, -, rfl⟩ := Option.map_eq_some_iff.mp made
    exact ⟨rfl, rfl, rfl⟩

theorem claimed?_marked {call : DeletionCall} {deletion : AgreementDeletion}
    (requests : ∀ request ∈ db.deletionRequests, db.Marked request.agreementId)
    (claimed : deletion ∈ SourceWorld.claimed? db call) : db.Marked deletion.agreementId := by
  cases call with
  | claim deletionId organizationId workspaceId now claimToken =>
      simp only [SourceWorld.claimed?, claimDeletion, Option.mem_def] at claimed
      split at claimed
      · cases claimed
      · rename_i request found
        cases claimed
        exact requests request (List.mem_of_find?_eq_some found)
  | _ => cases claimed

theorem sourceStep_sound (slot : String → Nat) (sound : w.Sound slot) (event : SourceEvent) :
    (sourceStep slot w event).Sound slot := by
  unfold sourceStep
  split
  · rename_i call
    split
    · exact sound
    rename_i ready
    split
    · exact sound
    · rename_i after outcome
      have quiet := callOutcome_quiet (fun storage deletion item now same => ready (by
        rw [same]
        rfl)) outcome
      refine sound.quiet quiet _ fun deletion member => quiet.marked _ ?_
      exact claimed?_marked sound.requests (Option.mem_toList.mp member)
  · split
    · rename_i free
      refine sound.start (.of_lawful trivial rfl (by simp)) fun key held => ?_
      cases held
      exact free
    · exact sound
  · refine sound.start (.of_lawful ?_ (SourceSession.checkedVersion?_create ..) (by simp))
      fun key held => by simp at held
    exact createdAgreement_fits ..
  · split
    · exact sound
    · exact sound
    · rename_i agreement record planned
      obtain ⟨member, number, rfl⟩ := plannedVersion_ok planned
      refine sound.start (.of_lawful ⟨⟨rfl, rfl, rfl⟩, List.mem_map_of_mem member⟩ rfl (by simp)) ?_
      exact fun key held => by cases held
  · split
    · rename_i deletion item ready
      obtain ⟨claimed, -, owned, free⟩ := ready
      refine sound.start (.of_lawful ⟨claimed, owned⟩ rfl ?_) fun key held => ?_
      · rintro _ _ _ ⟨⟩
        rfl
      · cases held
        exact free
    · exact sound
  · split
    · rename_i member
      exact sound.advance member _
    · exact sound
  · split
    · exact sound.stop _
    · exact sound

/-! What is spared -/

/-- The files are not all the same object. -/
def MixesKeys (files : List AgreementFile) : Prop :=
  ∃ one ∈ files, ∃ other ∈ files, one.storageKey ≠ other.storageKey

/-- Nobody refers to the object, or is about to, but through a list of files that mixes it with
other objects. -/
structure SourceWorld.Spares (w : SourceWorld) (organizationId workspaceId : Uuid) (key : String) :
    Prop where
  versions : ∀ version ∈ w.db.versions, version.Names organizationId workspaceId key →
    ∀ agreement ∈ w.db.agreements, agreement.id = version.agreementId →
      agreement.deletionRequestedAt.isSome
  files : ∀ agreement ∈ w.db.agreements, agreement.organizationId = organizationId →
    agreement.workspaceId = workspaceId → agreement.deletionRequestedAt = none →
      (∃ file ∈ agreement.files, file.storageKey = key) → MixesKeys agreement.files
  checked : ∀ session ∈ w.sessions, ∀ record ∈ session.checkedVersion?, record.storageKey ≠ key
  created : ∀ agreement first, .create agreement first true ∈ w.sessions →
    (∃ file ∈ agreement.files, file.storageKey = key) → MixesKeys agreement.files

theorem mixesKeys_of_last {files : List AgreementFile} {key : String}
    (apart : files.getLast?.map (·.storageKey) ≠ some key)
    (named : ∃ file ∈ files, file.storageKey = key) : MixesKeys files := by
  obtain ⟨file, member, same⟩ := named
  have filled : files ≠ [] := List.ne_nil_of_mem member
  refine ⟨file, member, files.getLast filled, List.getLast_mem filled, fun equal => apart ?_⟩
  rw [List.getLast?_eq_some_getLast filled, Option.map_some, ← equal, same]

theorem SourceWorld.Sound.spares (sound : w.Sound slot) {deletion : AgreementDeletion}
    {item : AgreementDeletionObject} {stage : RemovalStage}
    (removes : .removal deletion item stage ∈ w.sessions) (decided : stage ≠ .locked) :
    w.Spares deletion.organizationId deletion.workspaceId item.objectKey := by
  obtain ⟨versions, files⟩ := (sound.stands _ removes).spared deletion item stage rfl decided
  have checked : ∀ session ∈ w.sessions, ∀ record ∈ session.checkedVersion?,
      record.storageKey ≠ item.objectKey := by
    intro session member record passed same
    have differs : session ≠ .removal deletion item stage := by
      rintro rfl
      cases passed
    refine sound.apart removes rfl session ((List.mem_erase_of_ne differs).mpr member) ?_
    rw [SourceSession.lockedKey?_of_checked passed, same]
  exact {
    versions := by
      intro version member names agreement there id
      by_contra live
      refine versions ⟨version, member, names.1, names.2.1, names.2.2, agreement, there, id, ?_⟩
      exact Option.not_isSome_iff_eq_none.mp live
    files := fun agreement member organization workspace live =>
      mixesKeys_of_last fun last => files ⟨agreement, member, organization, workspace, live, last⟩
    checked := checked
    created := by
      intro agreement first member
      refine mixesKeys_of_last fun last => ?_
      have fits : Database.Fits agreement first := (sound.stands _ member).lawful
      rw [fits.last] at last
      obtain ⟨record, rfl, same⟩ := Option.map_eq_some_iff.mp last
      exact checked _ member record rfl same }

/-! What storage keeps -/

theorem owned_documentKey {organizationId workspaceId agreementId organization workspace : Uuid}
    {sha256 : Sha256} {extension : DocumentExtension}
    (owned : validateOwnedKey organizationId workspaceId agreementId .source
      (documentKey organization workspace sha256 extension) = true) :
    organization = organizationId ∧ workspace = workspaceId := by
  unfold validateOwnedKey at owned
  rw [splitPath_documentKey] at owned
  simp only [List.take_succ_cons, List.take_zero, Bool.and_eq_true, decide_eq_true_eq,
    List.cons.injEq, and_true, true_and] at owned
  exact ⟨UuidText.str_inj owned.1.1.2.1, UuidText.str_inj owned.1.1.2.2⟩

/-- What the registry calls available is stored, unless its removal is about to commit. -/
structure SourceWorld.Stocked (w : SourceWorld) : Prop where
  entries : ∀ entry ∈ w.db.registry, entry.state = .available → ∃ sha256 extension,
    entry.objectKey = documentKey entry.organizationId entry.workspaceId sha256 extension
  stored : ∀ entry ∈ w.db.registry, entry.state = .available → entry.objectKey ∈ w.storage ∨
    ∃ deletion item, .removal deletion item .removed ∈ w.sessions ∧
      item.objectKey = entry.objectKey
  uploaded : ∀ organizationId workspaceId sha256 extension,
    .upload organizationId workspaceId sha256 extension true ∈ w.sessions →
      documentKey organizationId workspaceId sha256 extension ∈ w.storage

/-- A step that touches neither the registry nor what is stored, and ends no removal. -/
structure SourceWorld.Leaves (w after : SourceWorld) : Prop where
  registry : after.db.registry = w.db.registry
  storage : after.storage = w.storage
  removed : ∀ deletion item, .removal deletion item .removed ∈ w.sessions →
    .removal deletion item .removed ∈ after.sessions
  uploaded : ∀ organizationId workspaceId sha256 extension,
    .upload organizationId workspaceId sha256 extension true ∈ after.sessions →
      .upload organizationId workspaceId sha256 extension true ∈ w.sessions

/-- The session has removed its object. -/
def SourceSession.Removed : SourceSession → Prop
  | .removal _ _ .removed => True
  | _ => False

instance : DecidablePred SourceSession.Removed
  | .removal _ _ .removed => isTrue trivial
  | .removal _ _ .locked | .removal _ _ .unshared | .upload .. | .create .. | .version .. =>
    isFalse id

namespace SourceWorld

variable {after : SourceWorld}

theorem Leaves.refl (w : SourceWorld) : w.Leaves w :=
  ⟨rfl, rfl, fun _ _ there => there, fun _ _ _ _ there => there⟩

theorem Leaves.start (plain : ∀ organizationId workspaceId sha256 extension,
    session ≠ .upload organizationId workspaceId sha256 extension true) :
    w.Leaves (w.start session) where
  registry := rfl
  storage := rfl
  removed deletion item there := List.mem_append_left _ there
  uploaded organizationId workspaceId sha256 extension there := by
    obtain old | new := List.mem_append.mp there
    · exact old
    · exact absurd (List.mem_singleton.mp new).symm (plain _ _ _ _)

theorem Leaves.finish (keeps : ¬ session.Removed) (registry : db.registry = w.db.registry) :
    w.Leaves (w.finish session db) where
  registry := registry
  storage := rfl
  removed deletion item there := (List.mem_erase_of_ne (by
    rintro rfl
    exact keeps trivial)).mpr there
  uploaded organizationId workspaceId sha256 extension there := List.mem_of_mem_erase there

theorem Leaves.proceed (keeps : ¬ session.Removed) (plain : ∀ organizationId workspaceId sha256
    extension, next ≠ .upload organizationId workspaceId sha256 extension true) :
    w.Leaves (w.proceed session next) where
  registry := rfl
  storage := rfl
  removed deletion item there := List.mem_append_left _ ((List.mem_erase_of_ne (by
    rintro rfl
    exact keeps trivial)).mpr there)
  uploaded organizationId workspaceId sha256 extension there := by
    obtain old | new := List.mem_append.mp there
    · exact List.mem_of_mem_erase old
    · exact absurd (List.mem_singleton.mp new).symm (plain _ _ _ _)

theorem Leaves.commit {outcome : Except Raised Database} (keeps : ¬ session.Removed)
    (registry : ∀ db, outcome = .ok db → db.registry = w.db.registry) :
    w.Leaves (w.commit session outcome) := by
  unfold SourceWorld.commit
  split
  · exact .finish keeps rfl
  · exact .finish keeps (registry _ rfl)

theorem Leaves.check {record : AgreementVersionRecord} (keeps : ¬ session.Removed)
    (plain : ∀ organizationId workspaceId sha256 extension,
      next ≠ .upload organizationId workspaceId sha256 extension true) :
    w.Leaves (w.check slot session next record) := by
  unfold SourceWorld.check
  split
  · exact .refl w
  split
  · exact .finish keeps rfl
  · exact .proceed keeps plain

theorem Leaves.reserve {agreement : AgreementRecord} (keeps : ¬ session.Removed)
    (plain : ∀ organizationId workspaceId sha256 extension,
      next ≠ .upload organizationId workspaceId sha256 extension true) :
    w.Leaves (w.reserve session next agreement) := by
  unfold SourceWorld.reserve
  split
  · exact .refl w
  split
  · exact .finish keeps rfl
  · exact .proceed keeps plain

theorem Leaves.decideRemoval {deletion : AgreementDeletion} {item : AgreementDeletionObject}
    (keeps : ¬ session.Removed) (now : Time) :
    w.Leaves (w.decideRemoval session deletion item now) := by
  unfold SourceWorld.decideRemoval
  split
  · exact .finish keeps rfl
  split
  · exact .finish keeps (finishObject_quiet ..).registry
  · exact .proceed keeps (by simp)

theorem Stocked.leaves (stocked : w.Stocked) (leaves : w.Leaves after) : after.Stocked where
  entries := leaves.registry ▸ stocked.entries
  stored := by
    rw [leaves.registry, leaves.storage]
    intro entry there available
    refine (stocked.stored entry there available).imp_right ?_
    rintro ⟨deletion, item, removes, same⟩
    exact ⟨deletion, item, leaves.removed deletion item removes, same⟩
  uploaded := by
    rw [leaves.storage]
    exact fun organizationId workspaceId sha256 extension there =>
      stocked.uploaded _ _ _ _ (leaves.uploaded _ _ _ _ there)

/-- An upload has put its object. -/
theorem Stocked.put (stocked : w.Stocked) (organizationId workspaceId : Uuid) (sha256 : Sha256)
    (extension : DocumentExtension) (now : Time) :
    (w.advance slot (.upload organizationId workspaceId sha256 extension false) now).Stocked := by
  have more : ∀ key ∈ w.storage, key ∈ (w.advance slot (.upload organizationId workspaceId sha256
      extension false) now).storage := by
    intro key there
    dsimp only [SourceWorld.advance]
    split
    · exact there
    · exact List.mem_append_left _ there
  exact {
    entries := stocked.entries
    stored := by
      intro entry there available
      refine (stocked.stored entry there available).imp (more _) ?_
      rintro ⟨deletion, item, removes, same⟩
      exact ⟨deletion, item,
        List.mem_append_left _ ((List.mem_erase_of_ne (by simp)).mpr removes), same⟩
    uploaded := by
      intro organization workspace sha extension' there
      obtain old | new := List.mem_append.mp there
      · exact more _ (stocked.uploaded _ _ _ _ (List.mem_of_mem_erase old))
      · cases List.mem_singleton.mp new
        dsimp only [SourceWorld.advance]
        split
        · assumption
        · exact List.mem_append_right _ (List.mem_singleton_self _) }

/-- An upload commits the registration of its object. -/
theorem Stocked.registered (stocked : w.Stocked) {organizationId workspaceId : Uuid}
    {sha256 : Sha256} {extension : DocumentExtension}
    (member : .upload organizationId workspaceId sha256 extension true ∈ w.sessions) (now : Time) :
    (w.advance slot (.upload organizationId workspaceId sha256 extension true) now).Stocked where
  entries := by
    intro entry there available
    obtain old | ⟨⟨rfl, rfl, same⟩, -⟩ := mem_recordSourceUpload there
    · exact stocked.entries entry old available
    · exact ⟨sha256, extension, same⟩
  stored := by
    intro entry there available
    obtain old | ⟨⟨rfl, rfl, same⟩, -⟩ := mem_recordSourceUpload there
    · refine (stocked.stored entry old available).imp_right ?_
      rintro ⟨deletion, item, removes, key⟩
      exact ⟨deletion, item, (List.mem_erase_of_ne (by simp)).mpr removes, key⟩
    · rw [same]
      exact .inl (stocked.uploaded _ _ _ _ member)
  uploaded := fun _ _ _ _ there => stocked.uploaded _ _ _ _ (List.mem_of_mem_erase there)

/-- A removal takes its object away. -/
theorem Stocked.remove (stocked : w.Stocked) (sound : w.Sound slot) {deletion : AgreementDeletion}
    {item : AgreementDeletionObject} (member : .removal deletion item .unshared ∈ w.sessions)
    (now : Time) : (w.advance slot (.removal deletion item .unshared) now).Stocked where
  entries := stocked.entries
  stored := by
    intro entry there available
    by_cases same : entry.objectKey = item.objectKey
    · exact .inr ⟨deletion, item, List.mem_append_right _ (List.mem_singleton_self _), same.symm⟩
    · refine (stocked.stored entry there available).imp (fun stored => ?_) ?_
      · exact List.mem_filter.mpr ⟨stored, decide_eq_true same⟩
      · rintro ⟨other, object, removes, key⟩
        exact ⟨other, object,
          List.mem_append_left _ ((List.mem_erase_of_ne (by simp)).mpr removes), key⟩
  uploaded := by
    intro organizationId workspaceId sha256 extension there
    obtain old | new := List.mem_append.mp there
    · refine List.mem_filter.mpr ⟨stocked.uploaded _ _ _ _ (List.mem_of_mem_erase old), ?_⟩
      refine decide_eq_true fun same => ?_
      exact sound.apart member rfl _ old (congrArg some same)
    · cases List.mem_singleton.mp new

/-- A removal commits. -/
theorem Stocked.forget (stocked : w.Stocked) (sound : w.Sound slot) {deletion : AgreementDeletion}
    {item : AgreementDeletionObject} (member : .removal deletion item .removed ∈ w.sessions)
    (now : Time) : (w.advance slot (.removal deletion item .removed) now).Stocked where
  entries := by
    intro entry there available
    obtain ⟨old, -⟩ | ⟨-, gone⟩ := mem_registerDeleted there
    · exact stocked.entries entry old available
    · rw [gone] at available
      cases available
  stored := by
    intro entry there available
    obtain ⟨old, apart⟩ | ⟨-, gone⟩ := mem_registerDeleted there
    · refine (stocked.stored entry old available).imp_right ?_
      rintro ⟨other, object, removes, same⟩
      refine ⟨other, object, (List.mem_erase_of_ne ?_).mpr removes, same⟩
      rintro ⟨⟩
      obtain ⟨sha256, extension, key⟩ := stocked.entries entry old available
      have owned := (sound.stands _ member).lawful.2
      rw [same, key] at owned
      obtain ⟨organization, workspace⟩ := owned_documentKey owned
      exact apart ⟨organization, workspace, same.symm⟩
    · rw [gone] at available
      cases available
  uploaded := fun _ _ _ _ there => stocked.uploaded _ _ _ _ (List.mem_of_mem_erase there)

theorem Stocked.advance (stocked : w.Stocked) (sound : w.Sound slot)
    (member : session ∈ w.sessions) (now : Time) : (w.advance slot session now).Stocked := by
  have stands := sound.stands session member
  cases session with
  | upload organizationId workspaceId sha256 extension stored =>
      cases stored with
      | false => exact stocked.put ..
      | true => exact stocked.registered member now
  | create agreement first passed =>
      have committed : (w.commit (.create agreement first passed)
          (w.db.insertCreated agreement first)).Stocked :=
        stocked.leaves (.commit id fun db done =>
          (Database.insertCreated_adds sound.keyed stands.lawful done).registry)
      cases first with
      | none => exact committed
      | some record =>
          cases passed with
          | false => exact stocked.leaves (.check id (by simp))
          | true => exact committed
  | version agreement record stage =>
      cases stage with
      | planned => exact stocked.leaves (.reserve id (by simp))
      | reserved => exact stocked.leaves (.check id (by simp))
      | checked =>
          refine stocked.leaves (.commit id fun db done => ?_)
          exact (Database.insertPlanned_adds sound.keyed stands.lawful.1 stands.lawful.2
            done).registry
  | removal deletion item stage =>
      cases stage with
      | locked => exact stocked.leaves (.decideRemoval id now)
      | unshared => exact stocked.remove sound member now
      | removed => exact stocked.forget sound member now

/-- The transaction of a removal does not fail after the object is gone. -/
def Completes : SourceEvent → Prop
  | .abort session => ¬ session.Removed
  | _ => True

instance : DecidablePred Completes
  | .abort _ => inferInstanceAs (Decidable (¬ _))
  | .call _ | .startUpload .. | .startCreate .. | .startVersion .. | .startRemoval ..
  | .advance .. => isTrue trivial

theorem Stocked.step (stocked : w.Stocked) (sound : w.Sound slot) {event : SourceEvent}
    (completes : Completes event) : (sourceStep slot w event).Stocked := by
  unfold sourceStep
  split
  · rename_i call
    split
    · exact stocked
    rename_i ready
    split
    · exact stocked
    · rename_i outcome
      have quiet := callOutcome_quiet (fun storage deletion item now same => ready (by
        rw [same]
        rfl)) outcome
      exact stocked.leaves ⟨quiet.registry, rfl, fun _ _ there => there, fun _ _ _ _ there => there⟩
  · split
    · exact stocked.leaves (.start (by simp))
    · exact stocked
  · exact stocked.leaves (.start (by simp))
  · split
    · exact stocked
    · exact stocked
    · exact stocked.leaves (.start (by simp))
  · split
    · exact stocked.leaves (.start (by simp))
    · exact stocked
  · split
    · rename_i member
      exact stocked.advance sound member _
    · exact stocked
  · split
    · exact stocked.leaves (.finish completes rfl)
    · exact stocked

/-! Runs -/

/-- No transaction is under way, and the database keeps its keys and references; the registry is
right about the objects that versions refer to. -/
structure Initial (w : SourceWorld) : Prop where
  keyed : w.db.Keyed
  requests : ∀ request ∈ w.db.deletionRequests, w.db.Marked request.agreementId
  available : ∀ organizationId workspaceId key,
    w.db.VersionRefers organizationId workspaceId key → ∀ entry ∈ w.db.registry,
      entry.Names organizationId workspaceId key → entry.state = .available
  claims : w.claims = []
  sessions : w.sessions = []

theorem Initial.sound (initial : w.Initial) (slot : String → Nat) : w.Sound slot where
  keyed := initial.keyed
  requests := initial.requests
  claims := by simp [initial.claims]
  available := initial.available
  locks := by simp [initial.sessions, Exclusive]
  stands := by simp [initial.sessions]

/-- Whatever uploads, creations of agreements and versions, deletions and removals do in whatever
order, and wherever they are rolled back: when a source object is about to be removed, or has just
been removed, nobody refers to it, or is about to, but through a list of files that mixes it with
other objects. -/
theorem run_spares (slot : String → Nat) (initial : w.Initial) (events : List SourceEvent)
    {deletion : AgreementDeletion} {item : AgreementDeletionObject} {stage : RemovalStage}
    (removes : .removal deletion item stage ∈ (run (sourceStep slot) w events).sessions)
    (decided : stage ≠ .locked) :
    (run (sourceStep slot) w events).Spares deletion.organizationId deletion.workspaceId
      item.objectKey := by
  have sound : (run (sourceStep slot) w events).Sound slot :=
    run_invariant (Sound slot) (initial.sound slot) fun w event sound =>
      sourceStep_sound slot sound event
  exact sound.spares removes decided

def sourceDigest : Sha256 where
  text := "00000000000000000000000000000000000000000000000000000000000000ab"
  hex := by decide +kernel

def sampleSource : AgreementDeletionObject where
  id := 0
  category := .source
  objectKey := documentKey (.ofNat 1) (.ofNat 2) sourceDigest .pdf

/-- An agreement whose deletion has been accepted, with its source. -/
def deletingWorld : SourceWorld where
  db := { sampleDatabase with
    agreements := [{ sampleAgreement with deletionRequestedAt := some 90 }]
    jobs := [], comparisonRuns := []
    deletionRequests := [{
      id := .ofNat 7, organizationId := .ofNat 1, workspaceId := .ofNat 2, agreementId := .ofNat 3
      state := .accepted, attemptCount := 0, retryCycle := 1, claimToken := none
      leaseExpiresAt := none, nextAttemptAt := 90, failureCategory := none
      failureMessage := none, acceptedAt := 90, processingStartedAt := none
      completedAt := none, failedAt := none }]
    deletionObjects := [{
      id := 0, deletionId := .ofNat 7, agreementId := .ofNat 3, category := .source
      objectKey := sampleSource.objectKey, state := .pending, lastError := none }] }
  storage := [sampleSource.objectKey]
  claims := []
  sessions := []

/-- A worker claims the deletion and comes to the removal of the source. -/
def removingEvents : List SourceEvent :=
  [.call (.claim (.ofNat 7) (.ofNat 1) (.ofNat 2) 100 (.ofNat 70)),
    .startRemoval sampleDeletion sampleSource,
    .advance (.removal sampleDeletion sampleSource .locked) 101]

theorem deletingWorld_initial : deletingWorld.Initial where
  keyed := ⟨by decide, by simp [deletingWorld, sampleDatabase]⟩
  requests := by simp [deletingWorld, Database.Marked, sampleAgreement]
  available := by
    rintro _ _ _ ⟨version, member, -⟩
    cases member
  claims := rfl
  sessions := rfl

theorem run_spares_sample : .removal sampleDeletion sampleSource .unshared ∈
      (run (sourceStep fun _ => 0) deletingWorld removingEvents).sessions ∧
    (run (sourceStep fun _ => 0) deletingWorld removingEvents).Spares (.ofNat 1) (.ofNat 2)
      sampleSource.objectKey := by
  have removes : .removal sampleDeletion sampleSource .unshared ∈
      (run (sourceStep fun _ => 0) deletingWorld removingEvents).sessions := by
    decide +kernel
  exact ⟨removes, run_spares (fun _ => 0) deletingWorld_initial removingEvents removes (by decide)⟩

/-- The version refers to an object of its workspace that the registry knows. -/
def Registered (w : SourceWorld) (record : AgreementVersionRecord) : Prop :=
  ∃ entry ∈ w.db.registry,
    entry.Names record.organizationId record.workspaceId record.storageKey

theorem Stocked.kept (stocked : w.Stocked) (sound : w.Sound slot) {record : AgreementVersionRecord}
    (refers : w.db.VersionRefers record.organizationId record.workspaceId record.storageKey ∨
      ∃ session ∈ w.sessions, record ∈ session.checkedVersion?) (registered : w.Registered record) :
    record.storageKey ∈ w.storage := by
  obtain ⟨entry, there, names⟩ := registered
  have available : entry.state = .available := by
    obtain refers | ⟨session, member, checked⟩ := refers
    · exact sound.available _ _ _ refers entry there names
    · exact (sound.stands session member).checked record checked entry there names
  refine names.2.2 ▸ (stocked.stored entry there available).resolve_right ?_
  rintro ⟨deletion, item, removes, same⟩
  obtain ⟨sha256, extension, key⟩ := stocked.entries entry there available
  have owned := (sound.stands _ removes).lawful.2
  rw [same, key] at owned
  obtain ⟨organization, workspace⟩ := owned_documentKey owned
  have spares := sound.spares removes (by simp)
  rw [← organization, ← workspace, same, names.1, names.2.1, names.2.2] at spares
  obtain ⟨version, member, inOrganization, inWorkspace, here, agreement, inside, id, live⟩ |
    ⟨session, member, checked⟩ := refers
  · have marked := spares.versions version member ⟨inOrganization, inWorkspace, here⟩ agreement
      inside id
    rw [live] at marked
    cases marked
  · exact spares.checked session member record checked rfl

/-- The source of a version stays in storage, once it has been uploaded and as long as an
agreement that is not being deleted has the version or is about to have it, whatever else happens
in whatever order, unless a removal takes an object away and fails to commit. -/
theorem run_keeps_sources (slot : String → Nat) (initial : w.Initial) (stocked : w.Stocked)
    {events : List SourceEvent} (completes : ∀ event ∈ events, Completes event)
    {record : AgreementVersionRecord}
    (refers : (run (sourceStep slot) w events).db.VersionRefers record.organizationId
        record.workspaceId record.storageKey ∨
      ∃ session ∈ (run (sourceStep slot) w events).sessions, record ∈ session.checkedVersion?)
    (registered : (run (sourceStep slot) w events).Registered record) :
    record.storageKey ∈ (run (sourceStep slot) w events).storage := by
  have both : (run (sourceStep slot) w events).Sound slot ∧
      (run (sourceStep slot) w events).Stocked :=
    run_invariant_of Completes (fun w : SourceWorld => w.Sound slot ∧ w.Stocked)
      ⟨initial.sound slot, stocked⟩
      (fun w event completes kept =>
        ⟨sourceStep_sound slot kept.1 event, kept.2.step kept.1 completes⟩) completes
  exact both.2.kept both.1 refers registered

theorem pending_ne_deleted : ProcessingState.pending ≠ .deleted := by
  decide

def sharingRequest : CreateAgreementRequest where
  files := [⟨sampleSource.objectKey, sourceDigest.text, "application/pdf"⟩]
  processingState := .pending
  accepted := by decide +kernel
  notDeleted := pending_ne_deleted

def sharingAgreement : AgreementRecord :=
  createdAgreement (.ofNat 1) (.ofNat 2) sharingRequest (.ofNat 4)

def sharingVersion : AgreementVersionRecord :=
  initialVersion sharingAgreement ⟨sampleSource.objectKey, sourceDigest.text, "application/pdf"⟩
    (.ofNat 8)

/-- The source is uploaded again, and another agreement is created with it. -/
def sharingEvents : List SourceEvent :=
  let upload : Bool → SourceSession := .upload (.ofNat 1) (.ofNat 2) sourceDigest .pdf
  let create : Bool → SourceSession := .create sharingAgreement (some sharingVersion)
  [.startUpload (.ofNat 1) (.ofNat 2) sourceDigest .pdf, .advance (upload false) 50,
    .advance (upload true) 51,
    .startCreate (.ofNat 1) (.ofNat 2) sharingRequest (.ofNat 4) (.ofNat 8),
    .advance (create false) 52, .advance (create true) 53]

theorem run_keeps_sources_sample : sampleSource.objectKey ∈
    (run (sourceStep fun _ => 0) deletingWorld sharingEvents).storage := by
  have stocked : deletingWorld.Stocked := by
    constructor <;> simp [deletingWorld, sampleDatabase]
  have facts : (∀ event ∈ sharingEvents, Completes event) ∧
      (let ended := run (sourceStep fun _ => 0) deletingWorld sharingEvents
      (∃ version ∈ ended.db.versions, version.organizationId = .ofNat 1 ∧
        version.workspaceId = .ofNat 2 ∧ version.storageKey = sampleSource.objectKey ∧
        ∃ agreement ∈ ended.db.agreements, agreement.id = version.agreementId ∧
          agreement.deletionRequestedAt = none) ∧
      ∃ entry ∈ ended.db.registry, entry.organizationId = .ofNat 1 ∧
        entry.workspaceId = .ofNat 2 ∧ entry.objectKey = sampleSource.objectKey) := by
    decide +kernel
  obtain ⟨completes, refers, registered⟩ := facts
  have kept : sharingVersion.storageKey ∈ _ :=
    run_keeps_sources (fun _ => 0) deletingWorld_initial stocked completes (.inl refers) registered
  exact kept

end SourceWorld

end AgreementIntelligence.Agreements
