import AgreementIntelligence.Agreements.Catalog
import AgreementIntelligence.Agreements.LawfulDeletions

/-! Source objects are known by their contents, and agreements of a workspace share them. Here the
transactions that put an object, refer to it or remove it are cut at the places where others can
come between: an advisory lock on the object's key is taken in the middle of a transaction and held
to its end, rows are read as others have committed them, and what a transaction writes is seen when
it commits. The key of the lock is a hash, so two objects may have the same lock. -/

namespace AgreementIntelligence.Agreements
open Identity Lib.Table

/-! The calls, cut -/

/-- The check of `create_version`, under the lock of the object. -/
def Database.sourceUnavailable (db : Database) (record : AgreementVersionRecord) : Bool :=
  db.registry.any fun entry => entry.organizationId = record.organizationId ∧
    entry.workspaceId = record.workspaceId ∧ entry.objectKey = record.storageKey ∧
    entry.state ≠ .available

/-- The insert of `create_version`, with the keys of the table. -/
def Database.insertVersionRow (db : Database) (record : AgreementVersionRecord) :
    Except Raised Database :=
  if db.versions.any fun version => version.id = record.id ∨
      (version.agreementId = record.agreementId ∧
        (version.versionNumber = record.versionNumber ∨ version.checksum = record.checksum ∨
          version.idempotencyKey = record.idempotencyKey)) then
    .error (.runtime "IntegrityError")
  else .ok { db with versions := db.versions ++ [record] }

theorem insertVersion_eq (db : Database) (record : AgreementVersionRecord) :
    insertVersion db record = if db.sourceUnavailable record then
      .error (.runtime "source object is not available; upload it again")
    else db.insertVersionRow record := rfl

/-- The rows of `AgreementService.create`, as they are committed. -/
def Database.insertCreated (db : Database) (agreement : AgreementRecord)
    (version : Option AgreementVersionRecord) : Except Raised Database :=
  if db.agreements.any fun other => other.id = agreement.id then .error (.runtime "IntegrityError")
  else
    let created := { db with agreements := db.agreements ++ [agreement] }
    match version with
    | none => .ok created
    | some record => do
      let inserted ← created.insertVersionRow record
      .ok { inserted with
        agreements := update (·.id) inserted.agreements agreement.id fun row =>
          { row with currentVersionId := some record.id } }

@[simp] theorem sourceUnavailable_agreements (db : Database) (agreements : List AgreementRecord)
    (record : AgreementVersionRecord) :
    Database.sourceUnavailable { db with agreements } record = db.sourceUnavailable record := rfl

theorem createAgreement_eq (db : Database) (organizationId workspaceId : Uuid)
    (request : CreateAgreementRequest) (agreementId versionId : Uuid) :
    let agreement := createdAgreement organizationId workspaceId request agreementId
    let version := request.files.getLast?.map (initialVersion agreement · versionId)
    createAgreement db organizationId workspaceId request agreementId versionId =
      if ¬ (db.agreements.any fun other => other.id = agreementId) ∧
          version.any db.sourceUnavailable then
        .error (.runtime "source object is not available; upload it again")
      else db.insertCreated agreement version := by
  dsimp only
  unfold createAgreement Database.insertCreated
  by_cases taken : (db.agreements.any fun other => other.id = agreementId) = true
  · rw [if_pos taken, if_neg fun both => both.1 taken]
    exact (if_pos taken).symm
  rw [if_neg taken]
  cases request.files.getLast? with
  | none =>
      simp only [Option.map_none, Option.any_none, Bool.false_eq_true, and_false, if_false]
      exact (if_neg taken).symm
  | some source =>
      simp only [Option.map_some, Option.any_some, insertVersion_eq, sourceUnavailable_agreements]
      by_cases gone : db.sourceUnavailable (initialVersion
          (createdAgreement organizationId workspaceId request agreementId) source versionId) = true
      · simp only [gone, taken, if_true]
        rfl
      · simp only [gone, Bool.false_eq_true, and_false, if_false]
        exact (if_neg taken).symm

/-- What `AgreementVersionService.create` reads before it writes: the version it is going to
insert, or none if the call is answered with an earlier version. -/
def plannedVersion (db : Database) (organizationId workspaceId agreementId : Uuid)
    (expectedCurrentVersion : Nat) (idempotencyKey : String) (uploaded : UploadedDocument)
    (versionId : Uuid) : Except Raised (Option (AgreementRecord × AgreementVersionRecord)) := do
  let agreement ← agreementInScope db agreementId organizationId workspaceId
  match db.versions.find? fun version =>
      version.agreementId = agreementId ∧ version.idempotencyKey = idempotencyKey with
  | some existing =>
    if existing.checksum ≠ uploaded.sha256 then
      .error (.runtime "VersionIdempotencyConflictError")
    else .ok none
  | none =>
    let currentNumber := ((db.versionsOf agreementId).getLast?.map (·.versionNumber)).getD 0
    if expectedCurrentVersion ≠ currentNumber then .error (.runtime "StaleCurrentVersionError")
    else if db.versions.any fun version =>
        version.agreementId = agreementId ∧ version.checksum = uploaded.sha256 then
      .error (.runtime "DuplicateAgreementVersionError")
    else .ok (some (agreement,
      newVersion agreement versionId (currentNumber + 1) idempotencyKey uploaded))

/-- The rows of `AgreementVersionService.create`, as they are committed: what `replace` writes is
as it has been read. -/
def Database.insertPlanned (db : Database) (agreement : AgreementRecord)
    (record : AgreementVersionRecord) : Except Raised Database := do
  let inserted ← db.insertVersionRow record
  .ok { inserted with
    agreements := update (·.id) inserted.agreements agreement.id fun row => { row with
      files := [⟨record.storageKey, record.checksum, record.contentType⟩]
      currentVersionId := some record.id, processingState := .pending
      archivedAt := agreement.archivedAt } }

/-- `record_source_upload` -/
def recordSourceUpload (registry : List DocumentObjectRegistryRecord)
    (organizationId workspaceId : Uuid) (objectKey : String) (now : Time) :
    List DocumentObjectRegistryRecord :=
  let isEntry := fun entry : DocumentObjectRegistryRecord =>
    entry.organizationId = organizationId ∧ entry.workspaceId = workspaceId ∧
      entry.objectKey = objectKey
  if registry.any fun entry => isEntry entry then
    registry.map fun entry =>
      if isEntry entry then { entry with state := .available, updatedAt := now } else entry
  else registry ++ [⟨organizationId, workspaceId, objectKey, .available, now⟩]

/-! Transactions under way -/

instance : DecidableEq Sha256 := fun one other =>
  decidable_of_iff (one.text = other.text) (by cases one; cases other; simp)

inductive VersionStage where
  /-- The reads are done. -/
  | planned
  /-- The row of the agreement is locked. -/
  | reserved
  /-- The lock of the object is held, and the object is available. -/
  | checked
  deriving DecidableEq, Repr

inductive RemovalStage where
  | locked
  /-- Nobody has been found to refer to the object. -/
  | unshared
  | removed
  deriving DecidableEq, Repr

inductive SourceSession where
  /-- An upload under the lock, before and after `put_immutable`. -/
  | upload (organizationId workspaceId : Uuid) (sha256 : Sha256) (extension : DocumentExtension)
      (stored : Bool)
  /-- `AgreementService.create`, before and after the check of its version. -/
  | create (agreement : AgreementRecord) (version : Option AgreementVersionRecord) (checked : Bool)
  | version (agreement : AgreementRecord) (record : AgreementVersionRecord) (stage : VersionStage)
  /-- `delete_source_if_unreferenced` under the lock. -/
  | removal (deletion : AgreementDeletion) (item : AgreementDeletionObject) (stage : RemovalStage)
  deriving DecidableEq

namespace SourceSession

/-- The object whose lock is held. -/
def lockedKey? : SourceSession → Option String
  | .upload organizationId workspaceId sha256 extension _ =>
    some (documentKey organizationId workspaceId sha256 extension)
  | .create _ (some record) true => some record.storageKey
  | .version _ record .checked => some record.storageKey
  | .removal _ item _ => some item.objectKey
  | _ => none

/-- The version that has passed the check of its object. -/
def checkedVersion? : SourceSession → Option AgreementVersionRecord
  | .create _ (some record) true => some record
  | .version _ record .checked => some record
  | _ => none

/-- The agreement whose row is locked. -/
def reservedAgreement? : SourceSession → Option Uuid
  | .version agreement _ .reserved | .version agreement _ .checked => some agreement.id
  | _ => none

end SourceSession

structure SourceWorld where
  db : Database
  storage : List String
  claims : List AgreementDeletion
  sessions : List SourceSession

inductive SourceEvent where
  /-- Any other call on deletions, in one transaction. -/
  | call (call : DeletionCall)
  | startUpload (organizationId workspaceId : Uuid) (sha256 : Sha256)
      (extension : DocumentExtension)
  | startCreate (organizationId workspaceId : Uuid) (request : CreateAgreementRequest)
      (agreementId versionId : Uuid)
  | startVersion (organizationId workspaceId agreementId : Uuid) (expectedCurrentVersion : Nat)
      (idempotencyKey : String) (uploaded : UploadedDocument) (versionId : Uuid)
  | startRemoval (deletion : AgreementDeletion) (item : AgreementDeletionObject)
  | advance (session : SourceSession) (now : Time)
  /-- The transaction is rolled back. -/
  | abort (session : SourceSession)

namespace SourceWorld

variable (slot : String → Nat)

/-- Nobody holds the lock of the object. -/
def unlocked (w : SourceWorld) (key : String) : Bool :=
  w.sessions.all fun session => session.lockedKey?.map slot ≠ some (slot key)

/-- A transaction begins. -/
def start (w : SourceWorld) (session : SourceSession) : SourceWorld :=
  { w with sessions := w.sessions ++ [session] }

/-- A transaction comes further. -/
def proceed (w : SourceWorld) (session next : SourceSession) : SourceWorld :=
  { w with sessions := w.sessions.erase session ++ [next] }

/-- A transaction commits, or is rolled back with nothing written. -/
def finish (w : SourceWorld) (session : SourceSession) (db : Database) : SourceWorld :=
  { w with db, sessions := w.sessions.erase session }

/-- A transaction commits unless its last statements raise. -/
def commit (w : SourceWorld) (session : SourceSession) (outcome : Except Raised Database) :
    SourceWorld :=
  match outcome with
  | .error _ => w.finish session w.db
  | .ok db => w.finish session db

/-- `create_version` locks the row of the agreement, which must not be marked. -/
def reserve (w : SourceWorld) (session next : SourceSession) (agreement : AgreementRecord) :
    SourceWorld :=
  if w.sessions.any fun other => other.reservedAgreement? = some agreement.id then w
  else match agreementInScope w.db agreement.id agreement.organizationId agreement.workspaceId with
    | .error _ => w.finish session w.db
    | .ok _ => w.proceed session next

/-- `create_version` takes the lock of the object, and checks the object. -/
def check (w : SourceWorld) (session next : SourceSession) (record : AgreementVersionRecord) :
    SourceWorld :=
  if ¬ w.unlocked slot record.storageKey then w
  else if w.db.sourceUnavailable record then w.finish session w.db
  else w.proceed session next

/-- The statements of `delete_source_if_unreferenced` up to the removal. -/
def decideRemoval (w : SourceWorld) (session : SourceSession) (deletion : AgreementDeletion)
    (item : AgreementDeletionObject) (now : Time) : SourceWorld :=
  if (w.db.lockedClaim? deletion).isNone ∨ ¬ w.db.deletionObjects.any fun object =>
      object.id = item.id ∧ object.deletionId = deletion.id ∧ object.state = .pending then
    w.finish session w.db
  else if sourceIsShared w.db deletion item.objectKey then
    w.finish session (finishObject w.db deletion item.id .preserved now)
  else w.proceed session (.removal deletion item .unshared)

def advance (w : SourceWorld) (session : SourceSession) (now : Time) : SourceWorld :=
  match session with
  | .upload organizationId workspaceId sha256 extension false =>
    let key := documentKey organizationId workspaceId sha256 extension
    { w.proceed session (.upload organizationId workspaceId sha256 extension true) with
      storage := if key ∈ w.storage then w.storage else w.storage ++ [key] }
  | .upload organizationId workspaceId sha256 extension true =>
    w.finish session { w.db with
      registry := recordSourceUpload w.db.registry organizationId workspaceId
        (documentKey organizationId workspaceId sha256 extension) now }
  | .create agreement (some record) false =>
    w.check slot session (.create agreement (some record) true) record
  | .create agreement version _ => w.commit session (w.db.insertCreated agreement version)
  | .version agreement record .planned =>
    w.reserve session (.version agreement record .reserved) agreement
  | .version agreement record .reserved =>
    w.check slot session (.version agreement record .checked) record
  | .version agreement record .checked => w.commit session (w.db.insertPlanned agreement record)
  | .removal deletion item .locked => w.decideRemoval session deletion item now
  | .removal deletion item .unshared =>
    { w.proceed session (.removal deletion item .removed) with
      storage := w.storage.filter (· ≠ item.objectKey) }
  | .removal deletion item .removed =>
    w.finish session (finishObject { w.db with
      registry := registerDeleted w.db.registry deletion.organizationId deletion.workspaceId
        item.objectKey now } deletion item.id .deleted now)

/-- The claim that a call returns. -/
def claimed? (db : Database) : DeletionCall → Option AgreementDeletion
  | .claim deletionId organizationId workspaceId now claimToken =>
    (claimDeletion db deletionId organizationId workspaceId now claimToken).1
  | _ => none

/-- A call waits for the row of its agreement, and the removal of a source comes in steps. -/
def waits (w : SourceWorld) : DeletionCall → Bool
  | .acceptDeletion _ _ agreementId _ _ =>
    w.sessions.any fun session => session.reservedAgreement? = some agreementId
  | .deleteSource .. => true
  | _ => false

end SourceWorld

open SourceWorld in
def sourceStep (slot : String → Nat) (w : SourceWorld) : SourceEvent → SourceWorld
  | .call call =>
    if w.waits call then w
    else match callOutcome w.db call with
      | .error _ => w
      | .ok db => { w with db, claims := w.claims ++ (claimed? w.db call).toList }
  | .startUpload organizationId workspaceId sha256 extension =>
    if w.unlocked slot (documentKey organizationId workspaceId sha256 extension) then
      w.start (.upload organizationId workspaceId sha256 extension false)
    else w
  | .startCreate organizationId workspaceId request agreementId versionId =>
    let agreement := createdAgreement organizationId workspaceId request agreementId
    w.start (.create agreement (request.files.getLast?.map (initialVersion agreement · versionId))
      false)
  | .startVersion organizationId workspaceId agreementId expectedCurrentVersion idempotencyKey
      uploaded versionId =>
    match plannedVersion w.db organizationId workspaceId agreementId expectedCurrentVersion
        idempotencyKey uploaded versionId with
    | .error _ | .ok none => w
    | .ok (some (agreement, record)) => w.start (.version agreement record .planned)
  | .startRemoval deletion item =>
    if deletion ∈ w.claims ∧ item.category = .source ∧
        validateOwnedKey deletion.organizationId deletion.workspaceId deletion.agreementId .source
          item.objectKey ∧ w.unlocked slot item.objectKey then
      w.start (.removal deletion item .locked)
    else w
  | .advance session now => if session ∈ w.sessions then w.advance slot session now else w
  | .abort session => if session ∈ w.sessions then w.finish session w.db else w

end AgreementIntelligence.Agreements
