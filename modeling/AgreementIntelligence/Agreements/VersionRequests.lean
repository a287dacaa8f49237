import AgreementIntelligence.Agreements.Catalog
import AgreementIntelligence.Lib.Keyed

/-! Requests that create a version of an agreement, statement by statement. Nothing locks the
reads of a request, so each of them sees what is committed when it is made. From the lock on the
agreement's row to the commit a request holds that row, and every other writer of the row or of
its versions waits for it: this part is one step here. A request whose step raises, that a key of
the table refuses or that is cut off writes nothing.

Agreements are created, deleted and purged around the requests, and source objects come and go.
The rows are those of `Models` with the two columns that link versions. -/

namespace AgreementIntelligence.Agreements
open Identity Lib Lib.Runs

/-! Rows and tables -/

structure AgreementRow extends AgreementRecord where
  comparisonBaselineVersionId : Option Uuid
  deriving DecidableEq, Repr

structure VersionRow extends AgreementVersionRecord where
  predecessorVersionId : Option Uuid
  deriving DecidableEq, Repr

/-- Two rows that a key of `agreement_versions` keeps apart: the primary key,
`uq_agreement_version_number`, `uq_agreement_version_checksum` or
`uq_agreement_version_idempotency`. -/
def VersionRow.Clashes (one other : VersionRow) : Prop :=
  one.id = other.id ∨ one.agreementId = other.agreementId ∧
    (one.versionNumber = other.versionNumber ∨ one.checksum = other.checksum ∨
      one.idempotencyKey = other.idempotencyKey)

instance (one other : VersionRow) : Decidable (one.Clashes other) :=
  inferInstanceAs (Decidable (_ ∨ _))

structure VersionTable where
  rows : List VersionRow
  unique : rows.Pairwise fun one other => ¬ one.Clashes other

def VersionTable.empty : VersionTable := ⟨[], List.Pairwise.nil⟩

/-- `INSERT`, refused when a key is taken. -/
def VersionTable.insert (table : VersionTable) (record : VersionRow) : Option VersionTable :=
  if free : ∀ row ∈ table.rows, ¬ row.Clashes record then
    some ⟨table.rows ++ [record], by
      refine List.pairwise_append.mpr ⟨table.unique, List.pairwise_singleton .., ?_⟩
      intro row member last same
      rw [List.mem_singleton.mp same]
      exact free row member⟩
  else none

/-- `DELETE FROM agreement_versions WHERE agreement_id=:agreement_id` -/
def VersionTable.purge (table : VersionTable) (agreementId : Uuid) : VersionTable :=
  ⟨table.rows.filter fun row => row.agreementId ≠ agreementId, table.unique.filter _⟩

structure LineageTables where
  agreements : Keyed fun row : AgreementRow => row.id
  versions : VersionTable
  registry : List DocumentObjectRegistryRecord

namespace LineageTables

def empty : LineageTables := ⟨.empty, .empty, []⟩

/-- The repository's `get`. -/
def get (tables : LineageTables) (agreementId : Uuid) : Option AgreementRow :=
  tables.agreements.rows.find? fun row => row.id = agreementId ∧ row.deletionRequestedAt = none

/-- `active_agreement_statement` -/
def activeAgreement (tables : LineageTables) (agreementId organizationId workspaceId : Uuid) :
    Option AgreementRow :=
  tables.agreements.rows.find? fun row => row.id = agreementId ∧
    row.organizationId = organizationId ∧ row.workspaceId = workspaceId ∧
      row.deletionRequestedAt = none

/-- `AgreementService.get` -/
def visibleAgreement (tables : LineageTables) (agreementId organizationId workspaceId : Uuid) :
    Except Raised AgreementRow :=
  match tables.get agreementId with
  | none => agreementNotFound
  | some agreement =>
    if agreement.organizationId = organizationId ∧ agreement.workspaceId = workspaceId then
      .ok agreement
    else agreementNotFound

/-- The versions of an agreement by their numbers. -/
def versionsOf (tables : LineageTables) (agreementId : Uuid) : List VersionRow :=
  (tables.versions.rows.filter (·.agreementId = agreementId)).mergeSort
    fun one other => one.versionNumber ≤ other.versionNumber

/-- `list_versions`, which joins the agreement that is not deletion-requested. -/
def listVersions (tables : LineageTables) (agreementId : Uuid) : List VersionRow :=
  if (tables.get agreementId).isSome then tables.versionsOf agreementId else []

/-- `version_by_idempotency_key` -/
def versionByIdempotencyKey (tables : LineageTables) (agreementId : Uuid)
    (idempotencyKey : String) : Option VersionRow :=
  if (tables.get agreementId).isSome then
    tables.versions.rows.find? fun row =>
      row.agreementId = agreementId ∧ row.idempotencyKey = idempotencyKey
  else none

/-- `version_by_checksum` -/
def versionByChecksum (tables : LineageTables) (agreementId : Uuid) (checksum : String) :
    Option VersionRow :=
  if (tables.get agreementId).isSome then
    tables.versions.rows.find? fun row => row.agreementId = agreementId ∧ row.checksum = checksum
  else none

/-- The repository's `create_version`. -/
def createVersion (tables : LineageTables) (record : VersionRow) : Except Raised LineageTables :=
  if (tables.activeAgreement record.agreementId record.organizationId record.workspaceId).isNone
  then .error (.runtime "cannot create a version for a deleted agreement")
  else if tables.registry.any fun entry => entry.organizationId = record.organizationId ∧
      entry.workspaceId = record.workspaceId ∧ entry.objectKey = record.storageKey ∧
      entry.state ≠ .available then
    .error (.runtime "source object is not available; upload it again")
  else match tables.versions.insert record with
    | none => .error (.runtime "IntegrityError")
    | some versions => .ok { tables with versions }

/-- The columns that `replace` writes. -/
def replaced (agreement row : AgreementRow) : AgreementRow :=
  { row with
    files := agreement.files, processingState := agreement.processingState
    currentVersionId := agreement.currentVersionId
    comparisonBaselineVersionId := agreement.comparisonBaselineVersionId
    archivedAt := agreement.archivedAt }

/-- The repository's `replace`: what it is given goes over what the row holds by then. -/
def replace (tables : LineageTables) (agreement : AgreementRow) : Except Raised LineageTables :=
  if (tables.activeAgreement agreement.id agreement.organizationId agreement.workspaceId).isNone
  then .error (.runtime "cannot replace a missing agreement")
  else .ok { tables with
    agreements := tables.agreements.updateWhere (fun row => row.id = agreement.id)
      (replaced agreement) fun _ => rfl }

end LineageTables

/-! `AgreementVersionService.create` -/

/-- A call with the uuid4 that it draws for its version; the route asks for
`expected_current_version` to be at least 0. -/
structure VersionRequest where
  organizationId : Uuid
  workspaceId : Uuid
  agreementId : Uuid
  expectedCurrentVersion : Nat
  idempotencyKey : String
  uploaded : UploadedDocument
  versionId : Uuid
  deriving DecidableEq, Repr

/-- How far a call has come and what it has read: the agreement, then that no version has its
idempotency key, then the current version, then that no version has its checksum. -/
inductive Progress where
  | authorized
  | found (agreement : AgreementRow)
  | unused (agreement : AgreementRow)
  | expected (agreement : AgreementRow) (current : Option VersionRow)
  | distinct (agreement : AgreementRow) (current : Option VersionRow)
  | returned (response : VersionRow) (created : Bool)
  | raised (error : Raised)
  deriving DecidableEq, Repr

def currentNumber (current : Option VersionRow) : Nat :=
  (current.map (·.versionNumber)).getD 0

namespace VersionRequest

/-- `record` -/
def record (request : VersionRequest) (agreement : AgreementRow) (current : Option VersionRow) :
    VersionRow :=
  { newVersion agreement.toAgreementRecord request.versionId (currentNumber current + 1)
      request.idempotencyKey request.uploaded with
    organizationId := request.organizationId
    workspaceId := request.workspaceId
    predecessorVersionId := current.map (·.id) }

/-- The agreement that `create` hands to `replace`. -/
def updated (request : VersionRequest) (agreement : AgreementRow) (current : Option VersionRow) :
    AgreementRow :=
  { agreement with
    files := [⟨request.uploaded.objectKey, request.uploaded.sha256, request.uploaded.contentType⟩]
    currentVersionId := some request.versionId
    comparisonBaselineVersionId := current.map (·.id)
    processingState := .pending }

/-- The step that takes the locks. -/
def write (request : VersionRequest) (tables : LineageTables) (agreement : AgreementRow)
    (current : Option VersionRow) : Except Raised LineageTables := do
  let created ← tables.createVersion (request.record agreement current)
  created.replace (request.updated agreement current)

/-- The next statement of a call. -/
def next (request : VersionRequest) (tables : LineageTables) :
    Progress → LineageTables × Progress
  | .authorized =>
    match tables.visibleAgreement request.agreementId request.organizationId
        request.workspaceId with
    | .error error => (tables, .raised error)
    | .ok agreement => (tables, .found agreement)
  | .found agreement =>
    match tables.versionByIdempotencyKey agreement.id request.idempotencyKey with
    | none => (tables, .unused agreement)
    | some existing =>
      if existing.checksum ≠ request.uploaded.sha256 then
        (tables, .raised (.runtime "VersionIdempotencyConflictError"))
      else (tables, .returned existing false)
  | .unused agreement =>
    let current := (tables.listVersions agreement.id).getLast?
    if request.expectedCurrentVersion ≠ currentNumber current then
      (tables, .raised (.runtime "StaleCurrentVersionError"))
    else (tables, .expected agreement current)
  | .expected agreement current =>
    if (tables.versionByChecksum agreement.id request.uploaded.sha256).isSome then
      (tables, .raised (.runtime "DuplicateAgreementVersionError"))
    else (tables, .distinct agreement current)
  | .distinct agreement current =>
    match request.write tables agreement current with
    | .error error => (tables, .raised error)
    | .ok written => (written, .returned (request.record agreement current) true)
  | .returned response created => (tables, .returned response created)
  | .raised error => (tables, .raised error)

end VersionRequest

/-! What happens around the requests -/

def createdRow (organizationId workspaceId : Uuid) (request : CreateAgreementRequest)
    (agreementId : Uuid) : AgreementRow :=
  { createdAgreement organizationId workspaceId request agreementId with
    comparisonBaselineVersionId := none }

namespace LineageTables

/-- `AgreementService.create`, one transaction on an agreement that nobody else sees yet. -/
def createAgreement (tables : LineageTables) (organizationId workspaceId : Uuid)
    (request : CreateAgreementRequest) (agreementId versionId : Uuid) :
    Except Raised LineageTables :=
  let agreement := createdRow organizationId workspaceId request agreementId
  match tables.agreements.insert agreement with
  | none => .error (.runtime "IntegrityError")
  | some agreements =>
    let created := { tables with agreements }
    match request.files.getLast? with
    | none => .ok created
    | some source => do
      let inserted ← created.createVersion
        { initialVersion agreement.toAgreementRecord source versionId with
          predecessorVersionId := none }
      inserted.replace { agreement with currentVersionId := some versionId }

/-- What `accept_deletion` does to the agreement. -/
def acceptDeletion (tables : LineageTables) (agreementId : Uuid) (now : Time) : LineageTables :=
  { tables with
    agreements := tables.agreements.updateWhere
      (fun row => row.id = agreementId ∧ row.deletionRequestedAt = none)
      (fun row => { row with deletionRequestedAt := some now }) fun _ => rfl }

/-- What `_purge_owned_rows` does to an agreement that is deletion-requested, and to its
versions. -/
def purge (tables : LineageTables) (agreementId : Uuid) : LineageTables :=
  if tables.agreements.rows.any fun row =>
      row.id = agreementId ∧ row.deletionRequestedAt.isSome then
    { tables with
      versions := tables.versions.purge agreementId
      agreements := tables.agreements.updateWhere (fun row => row.id = agreementId)
        (fun row => { row with
          files := [], processingState := .deleted, currentVersionId := none
          comparisonBaselineVersionId := none, archivedAt := none }) fun _ => rfl }
  else tables

end LineageTables

/-! Runs -/

structure VersionSystem where
  tables : LineageTables
  requests : List (VersionRequest × Progress)

def VersionSystem.empty : VersionSystem := ⟨.empty, []⟩

inductive VersionEvent where
  /-- A call comes in; it is known by its place. -/
  | open (request : VersionRequest)
  | advance (place : Nat)
  /-- The call is cut off, and what it has not committed is rolled back. -/
  | cut (place : Nat)
  | createAgreement (organizationId workspaceId : Uuid) (request : CreateAgreementRequest)
      (agreementId versionId : Uuid)
  | acceptDeletion (agreementId : Uuid) (now : Time)
  | purge (agreementId : Uuid)
  /-- Uploads and removals of source objects. -/
  | register (registry : List DocumentObjectRegistryRecord)

namespace VersionSystem

def step (system : VersionSystem) : VersionEvent → VersionSystem
  | .open request => { system with requests := system.requests ++ [(request, .authorized)] }
  | .advance place =>
    match system.requests[place]? with
    | none => system
    | some (request, progress) =>
      let (tables, reached) := request.next system.tables progress
      ⟨tables, system.requests.set place (request, reached)⟩
  | .cut place =>
    match system.requests[place]? with
    | none => system
    | some (request, _) =>
      { system with requests :=
          system.requests.set place (request, .raised (.runtime "connection closed")) }
  | .createAgreement organizationId workspaceId request agreementId versionId =>
    match system.tables.createAgreement organizationId workspaceId request agreementId
        versionId with
    | .error _ => system
    | .ok tables => { system with tables }
  | .acceptDeletion agreementId now =>
    { system with tables := system.tables.acceptDeletion agreementId now }
  | .purge agreementId => { system with tables := system.tables.purge agreementId }
  | .register registry => { system with tables := { system.tables with registry } }

end VersionSystem

end AgreementIntelligence.Agreements
