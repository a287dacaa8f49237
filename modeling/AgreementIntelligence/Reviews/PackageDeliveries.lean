import AgreementIntelligence.Lib.Runs
import AgreementIntelligence.Reviews.FinalPackage

/-! Deliveries of workflow events to workers, step by step: the transaction that prepares the
package, the second transaction with its row locks, each read and each write of an object, and
the statements that end in the commit. Any number of deliveries are under way at a time, and each
of them can break off between any two steps; the objects that it has written stay. An object is
written only where none is.

The checkpoint that a delivery persists between its transactions is kept elsewhere. Rows of
before the migration 0035 come with the event that repairs them. Agreements are not purged here;
a deletion that is requested makes later deliveries skip. -/

namespace AgreementIntelligence.Reviews
open Identity Lib Lib.Results Lib.Runs Lib.Sha256

variable {φ : Type}

/-- The condition of the update in `_repair_metadata`. -/
def ToRepair (package : PreparedFinalPackage φ) (existing row : FinalPackageRecord) : Prop :=
  some row.id = package.repair.map (·.packageId) ∧ row.manifestKey = existing.manifestKey ∧
    row.pdfKey = existing.pdfKey ∧ row.manifestChecksum = existing.manifestChecksum ∧
      row.pdfChecksum = existing.pdfChecksum

instance (package : PreparedFinalPackage φ) (existing : FinalPackageRecord) :
    DecidablePred (ToRepair package existing) :=
  fun _ => inferInstanceAs (Decidable (_ ∧ _))

structure PackageAgreement where
  id : Uuid
  organizationId : Uuid
  workspaceId : Uuid
  deletionRequested : Bool
  deriving DecidableEq, Repr

/-- `review_final_packages` with its keys. -/
structure PackageTable where
  rows : List FinalPackageRecord
  unique : rows.Pairwise fun one other => ¬ one.Clashes other

def PackageTable.empty : PackageTable := ⟨[], List.Pairwise.nil⟩

def PackageTable.insert (table : PackageTable) (row : FinalPackageRecord) : Option PackageTable :=
  if free : ∀ old ∈ table.rows, ¬ old.Clashes row then
    some ⟨table.rows ++ [row], by
      refine List.pairwise_append.mpr ⟨table.unique, List.pairwise_singleton .., ?_⟩
      intro old member last same
      rw [List.mem_singleton.mp same]
      exact free old member⟩
  else none

/-- `UPDATE`, refused when a key is taken. -/
def PackageTable.update (table : PackageTable) (hit : FinalPackageRecord → Prop)
    [DecidablePred hit] (change : FinalPackageRecord → FinalPackageRecord) : Option PackageTable :=
  let rows := table.rows.map fun row => if hit row then change row else row
  if unique : rows.Pairwise fun one other => ¬ one.Clashes other then some ⟨rows, unique⟩
  else none

/-- What `_record_audit` writes of its own. -/
structure PackageAudit where
  packageId : Uuid
  eventId : Uuid
  correlationId : String
  manifestChecksum : String
  pdfChecksum : String
  deriving DecidableEq, Repr

structure WorkflowMessage where
  eventId : Uuid
  organizationId : Uuid
  workspaceId : Uuid
  deriving DecidableEq, Repr

inductive EnsurePhase where
  | read
  | put
  | readAgain
  deriving DecidableEq, Repr

/-- How far `process` has come. From `locked` to the end it holds the rows of the agreement, the
workflow and the event; `ensuring` has the objects that are left to ensure. -/
inductive PackageStage (φ : Type) where
  | received
  | prepared (candidate : PackageEvent φ) (package : Option (PreparedFinalPackage φ))
  | locked (candidate : PackageEvent φ) (package : Option (PreparedFinalPackage φ))
  | ensuring (candidate : PackageEvent φ) (package : PreparedFinalPackage φ)
      (existing : Option FinalPackageRecord) (rest : List PackageObject) (phase : EnsurePhase)
  | skipped
  | processed
  | raised (error : PackageError)

/-- The agreement whose row the delivery holds. -/
def PackageStage.holds : PackageStage φ → Option Uuid
  | .locked candidate _ | .ensuring candidate .. => some candidate.agreementId
  | .received | .prepared .. | .skipped | .processed | .raised _ => none

structure PackageDelivery (φ : Type) where
  message : WorkflowMessage
  stage : PackageStage φ

structure PackageSystem (φ : Type) where
  agreements : Keyed fun row : PackageAgreement => row.id
  outbox : Keyed fun row : PackageEvent φ => row.id
  packages : PackageTable
  audit : List PackageAudit
  storage : Keyed fun object : PackageObject => object.key
  deliveries : List (PackageDelivery φ)

namespace PackageSystem

def empty : PackageSystem φ := ⟨.empty, .empty, .empty, [], .empty, []⟩

/-- `storage.read(key)` -/
def read (system : PackageSystem φ) (key : String) : Option PackageObject :=
  system.storage.rows.find? fun object => object.key = key

def event? (system : PackageSystem φ) (eventId : Uuid) : Option (PackageEvent φ) :=
  system.outbox.rows.find? fun event => event.id = eventId

/-- The agreement, when its row can be locked and is not deletion-requested. -/
def activeAgreement? (system : PackageSystem φ) (agreementId organizationId workspaceId : Uuid) :
    Option PackageAgreement :=
  system.agreements.rows.find? fun row => row.id = agreementId ∧
    row.organizationId = organizationId ∧ row.workspaceId = workspaceId ∧ ¬ row.deletionRequested

def Held (system : PackageSystem φ) (agreementId : Uuid) : Prop :=
  ∃ delivery ∈ system.deliveries, delivery.stage.holds = some agreementId

instance (system : PackageSystem φ) (agreementId : Uuid) :
    Decidable (system.Held agreementId) :=
  inferInstanceAs (Decidable (∃ delivery ∈ _, _))

/-- The first transaction: the candidate and its package. -/
def prepare (codec : PackageCodec φ) (system : PackageSystem φ) (message : WorkflowMessage) :
    PackageStage φ :=
  match system.event? message.eventId with
  | none => .skipped
  | some candidate =>
    if candidate.processedAt.isSome ∨ candidate.organizationId ≠ message.organizationId ∨
        candidate.workspaceId ≠ message.workspaceId ∨
        (system.agreements.rows.any fun row =>
          row.id = candidate.agreementId ∧ row.deletionRequested) then .skipped
    else if candidate.eventType = terminalEvent then
      match prepareEvent codec candidate candidate.workflowId candidate.correlationId with
      | .error error => .raised error
      | .ok package => .prepared candidate (some package)
    else .prepared candidate none

/-- The row is the candidate's, and still to be processed. -/
def unchanged (message : WorkflowMessage) (candidate row : PackageEvent φ) : Bool :=
  row.processedAt.isNone && row.organizationId = message.organizationId &&
    row.workspaceId = message.workspaceId && row.workflowId = candidate.workflowId &&
    row.eventType = candidate.eventType && row.correlationId = candidate.correlationId &&
    row.agreementId = candidate.agreementId

/-- The locks of the second transaction, with what it checks under them; a row that another
delivery holds is waited for. -/
def lock (system : PackageSystem φ) (message : WorkflowMessage) (candidate : PackageEvent φ)
    (package : Option (PreparedFinalPackage φ)) : PackageStage φ :=
  if system.Held candidate.agreementId then .prepared candidate package
  else match system.activeAgreement? candidate.agreementId message.organizationId
      message.workspaceId with
    | none => .skipped
    | some _ =>
      match system.event? message.eventId with
      | none => .skipped
      | some row => if unchanged message candidate row then .locked candidate package else .skipped

/-- `commit` as far as the first object. -/
def begin (codec : PackageCodec φ) (system : PackageSystem φ) (candidate : PackageEvent φ)
    (package : PreparedFinalPackage φ) : PackageStage φ :=
  match existingPackage codec system.packages.rows package with
  | .error error => .raised error
  | .ok existing => .ensuring candidate package existing package.objects .read

/-- What `_ensure_object` asks of an object that it finds. -/
def asExpected (object stored : PackageObject) : Bool :=
  stored.contentType = object.contentType && hexdigest stored.content = hexdigest object.content

/-- The next step of `_ensure_object`; `next` is the stage after it. -/
def ensure (system : PackageSystem φ) (object : PackageObject) (phase : EnsurePhase)
    (here : EnsurePhase → PackageStage φ) (next : PackageStage φ) :
    (Keyed fun object : PackageObject => object.key) × PackageStage φ :=
  let conflict := .raised (.conflict ("immutable object conflict: " ++ object.key))
  match phase with
  | .read =>
    match system.read object.key with
    | none => (system.storage, here .put)
    | some stored => (system.storage, if asExpected object stored then next else conflict)
  | .put =>
    match system.storage.insert object with
    | some storage => (storage, next)
    | none => (system.storage, here .readAgain)
  | .readAgain =>
    match system.read object.key with
    | none => (system.storage, conflict)
    | some stored => (system.storage, if asExpected object stored then next else conflict)

/-- The rows that `commit` leaves: a new one, or the existing one, repaired where it differs. -/
def packagesAfter (codec : PackageCodec φ) (packages : PackageTable)
    (package : PreparedFinalPackage φ) (packageId : Uuid) :
    Option FinalPackageRecord → Except PackageError (PackageTable × Uuid)
  | none => do
    let row ← packageRow codec package packageId
    match packages.insert row with
    | none => .error .database
    | some packages => .ok (packages, packageId)
  | some existing =>
    if metadataMatches codec existing package then .ok (packages, existing.id)
    else if ¬ ∃ row ∈ packages.rows, ToRepair package existing row then
      .error (.conflict "legacy final package metadata changed during repair")
    else match packages.update (ToRepair package existing) (repairedRow codec package) with
      | none => .error .database
      | some packages => .ok (packages, existing.id)

/-- `_record_audit` -/
def recordAudit (audit : List PackageAudit) (package : PreparedFinalPackage φ) (packageId : Uuid) :
    List PackageAudit :=
  if audit.any fun row => row.packageId = packageId ∧ row.correlationId = package.correlationId
  then audit
  else audit ++ [⟨packageId, package.eventId, package.correlationId, package.manifestChecksum,
    package.pdfChecksum⟩]

/-- `UPDATE review_workflow_outbox SET processed_at = now()` -/
def markProcessed (system : PackageSystem φ) (eventId : Uuid) (now : Time) : PackageSystem φ :=
  { system with
    outbox := system.outbox.updateWhere
      (fun event => event.id = eventId ∧ event.processedAt = none)
      (fun event => { event with processedAt := some now }) fun _ => rfl }

/-- The statements after the objects, and the commit of them all. -/
def finish (codec : PackageCodec φ) (system : PackageSystem φ) (message : WorkflowMessage)
    (package : PreparedFinalPackage φ) (existing : Option FinalPackageRecord) (now : Time)
    (packageId : Uuid) : PackageSystem φ × PackageStage φ :=
  match packagesAfter codec system.packages package packageId existing with
  | .error error => (system, .raised error)
  | .ok (packages, rowId) =>
    ({ system with packages, audit := recordAudit system.audit package rowId }.markProcessed
      message.eventId now, .processed)

/-- The next step of a delivery, with the clock and the uuid4 that it would draw. -/
def next (codec : PackageCodec φ) (system : PackageSystem φ) (message : WorkflowMessage)
    (now : Time) (packageId : Uuid) : PackageStage φ → PackageSystem φ × PackageStage φ
  | .received => (system, prepare codec system message)
  | .prepared candidate package => (system, lock system message candidate package)
  | .locked candidate package =>
    if candidate.eventType = terminalEvent then
      match package with
      | none => (system, .raised (.runtime "terminal package generator is not configured"))
      | some package => (system, begin codec system candidate package)
    else (system.markProcessed message.eventId now, .processed)
  | .ensuring candidate package existing (object :: rest) phase =>
    let (storage, stage) := ensure system object phase
      (.ensuring candidate package existing (object :: rest))
      (.ensuring candidate package existing rest .read)
    ({ system with storage }, stage)
  | .ensuring _ package existing [] _ => finish codec system message package existing now packageId
  | .skipped => (system, .skipped)
  | .processed => (system, .processed)
  | .raised error => (system, .raised error)

end PackageSystem

/-! Repair events -/

/-- The snapshot that a package of the event is made of. -/
def PackageEvent.manifest? (event : PackageEvent φ) : Option (Fields φ) :=
  match event.packageSnapshot with
  | none => none
  | some frozen =>
    match Json.get frozen "repair", Json.get frozen "manifest" with
    | .null, _ => some frozen
    | _, .object manifest => some manifest
    | _, _ => none

/-- The snapshot carries a repair, as only the migration writes one. -/
def PackageEvent.repairs (event : PackageEvent φ) : Bool :=
  match event.packageSnapshot with
  | none => false
  | some frozen =>
    match Json.get frozen "repair" with
    | .null => false
    | _ => true

/-- The review that the event's package is of. -/
def PackageEvent.reviewId? (codec : PackageCodec φ) (event : PackageEvent φ) : Option Uuid :=
  event.manifest?.bind fun manifest => (columnUuid codec manifest "review_id").toOption

/-! Runs -/

inductive PackageStep (φ : Type) where
  | addAgreement (row : PackageAgreement)
  | requestDeletion (agreementId : Uuid)
  /-- An event is committed, not processed yet. -/
  | emit (event : PackageEvent φ)
  /-- A package of before the migration, with the event that repairs it. -/
  | legacy (row : FinalPackageRecord) (event : PackageEvent φ)
  /-- Somebody else writes an object. -/
  | put (object : PackageObject)
  | deliver (message : WorkflowMessage)
  | advance (place : Nat) (now : Time) (packageId : Uuid)
  /-- The worker dies, or a request of its fails. -/
  | breakOff (place : Nat)

namespace PackageSystem

def emit (system : PackageSystem φ) (event : PackageEvent φ) : PackageSystem φ :=
  match system.outbox.insert { event with processedAt := none } with
  | none => system
  | some outbox => { system with outbox }

def setStage (deliveries : List (PackageDelivery φ)) (place : Nat)
    (delivery : PackageDelivery φ) (stage : PackageStage φ) : List (PackageDelivery φ) :=
  deliveries.set place { delivery with stage }

def step (codec : PackageCodec φ) (system : PackageSystem φ) : PackageStep φ → PackageSystem φ
  | .addAgreement row =>
    match system.agreements.insert row with
    | none => system
    | some agreements => { system with agreements }
  | .requestDeletion agreementId =>
    -- the request takes the lock of the agreement's row
    if system.Held agreementId then system
    else
      let agreements := system.agreements.updateWhere (fun row => row.id = agreementId)
        (fun row => { row with deletionRequested := true }) fun _ => rfl
      { system with agreements }
  | .emit event => system.emit event
  | .legacy row event =>
    if event.repairs ∧ event.reviewId? codec = some row.reviewId ∧
        ∀ old ∈ system.outbox.rows, old.id ≠ event.id then
      match system.packages.insert row with
      | none => system
      | some packages => emit { system with packages } event
    else system
  | .put object =>
    match system.storage.insert object with
    | none => system
    | some storage => { system with storage }
  | .deliver message => { system with deliveries := system.deliveries ++ [⟨message, .received⟩] }
  | .advance place now packageId =>
    match system.deliveries[place]? with
    | none => system
    | some delivery =>
      let (after, stage) := system.next codec delivery.message now packageId delivery.stage
      { after with deliveries := setStage system.deliveries place delivery stage }
  | .breakOff place =>
    match system.deliveries[place]? with
    | none => system
    | some delivery =>
      let broken := .raised (.runtime "broken off")
      { system with deliveries := setStage system.deliveries place delivery broken }

end PackageSystem

end AgreementIntelligence.Reviews
