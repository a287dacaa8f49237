import AgreementIntelligence.Lib.JsonText
import AgreementIntelligence.Lib.Keyed
import AgreementIntelligence.Lib.Results
import AgreementIntelligence.Reviews.Workflow
import AgreementIntelligence.UuidText

/-! `final_package.py`: what a terminal event is turned into, the two objects that are written
under their keys, and the row that names them. A snapshot is whatever JSON document the event
carries. -/

namespace AgreementIntelligence.Reviews
open Identity Lib Lib.Json Lib.Sha256

abbrev Fields (φ : Type) := List (String × Json φ)

/-- Conversions of the language and of the database. -/
structure PackageCodec (φ : Type) where
  /-- `json.dumps` of a floating-point number -/
  floatText : φ → String
  /-- `str(value)` of what is no text -/
  otherText : Json φ → String
  /-- How the database reads a text into a column of identifiers -/
  uuidIn : String → Option Uuid

variable {φ : Type}

/-- `str(value)` -/
def PackageCodec.str (codec : PackageCodec φ) : Json φ → String
  | .string text => text
  | value => codec.otherText value

def text? : Json φ → Option String
  | .string text => some text
  | _ => none

/-- `value == text` -/
def isText (value : Json φ) (text : String) : Bool :=
  text? value = some text

/-! `_deterministic_pdf` -/

/-- `text.encode("latin-1")` -/
def latin1 (text : String) : Option (List UInt8) :=
  text.toList.mapM fun c => if c.toNat < 256 then some (UInt8.ofNat c.toNat) else none

/-- `_pdf_literal` -/
def pdfLiteral (value : String) : String :=
  String.ofList (value.toList.flatMap fun c =>
    if c = '\\' ∨ c = '(' ∨ c = ')' then ['\\', c] else [c])

def pdfCommands (lines : List String) : List String :=
  ["BT", "/F1 10 Tf", "72 720 Td"] ++
    (lines.mapIdx fun index line =>
      (if index = 0 then [] else ["0 -14 Td"]) ++ ["(" ++ pdfLiteral line ++ ") Tj"]).flatten ++
    ["ET"]

/-- Each object under its number, with the offset at which it begins. -/
def pdfBody (objects : List (List UInt8)) : List UInt8 × List Nat :=
  (objects.zipIdx 1).foldl
    (fun (content, offsets) (item, index) =>
      (content ++ utf8 (toString index ++ " 0 obj\n") ++ item ++ utf8 "\nendobj\n",
        offsets ++ [content.length]))
    (utf8 "%PDF-1.4\n%" ++ [0xe2, 0xe3, 0xcf, 0xd3] ++ utf8 "\n", [])

/-- `f"{offset:010d}"` -/
def tenDigits (offset : Nat) : String :=
  let digits := (toString offset).toList
  String.ofList (List.replicate (10 - digits.length) '0' ++ digits)

def deterministicPdf (lines : List String) : Option (List UInt8) := do
  let stream ← latin1 ("\n".intercalate (pdfCommands lines) ++ "\n")
  let objects := [
    utf8 "<< /Type /Catalog /Pages 2 0 R >>",
    utf8 "<< /Type /Pages /Kids [3 0 R] /Count 1 >>",
    utf8 ("<< /Type /Page /Parent 2 0 R /MediaBox [0 0 612 792] " ++
      "/Resources << /Font << /F1 4 0 R >> >> /Contents 5 0 R >>"),
    utf8 "<< /Type /Font /Subtype /Type1 /BaseFont /Helvetica >>",
    utf8 ("<< /Length " ++ toString stream.length ++ " >>\nstream\n") ++ stream ++
      utf8 "endstream"]
  let (content, offsets) := pdfBody objects
  some (content ++ utf8 ("xref\n0 " ++ toString (objects.length + 1) ++ "\n") ++
    utf8 "0000000000 65535 f \n" ++
    offsets.flatMap (fun offset => utf8 (tenDigits offset ++ " 00000 n \n")) ++
    utf8 ("trailer\n<< /Size " ++ toString (objects.length + 1) ++ " /Root 1 0 R >>\n" ++
      "startxref\n" ++ toString content.length ++ "\n%%EOF\n"))

/-! Events, packages and their rows -/

/-- A row of `review_workflow_outbox`, with the agreement that the joins of the worker find. -/
structure PackageEvent (φ : Type) where
  id : Uuid
  workflowId : Uuid
  organizationId : Uuid
  workspaceId : Uuid
  agreementId : Uuid
  eventType : String
  correlationId : String
  packageSnapshot : Option (Fields φ)
  packageManifestKey : Option String
  packagePdfKey : Option String
  processedAt : Option Time

/-- The texts of a package row that a repair expects. -/
structure PackageMetadata where
  workflowId : String
  state : String
  manifestKey : String
  pdfKey : String
  manifestChecksum : String
  pdfChecksum : String
  deriving DecidableEq, Repr

/-- `repair_package_id` and `repair_legacy_metadata`. -/
structure PackageRepair where
  packageId : Uuid
  legacy : PackageMetadata
  deriving DecidableEq, Repr

/-- An object under its key. -/
structure PackageObject where
  key : String
  content : List UInt8
  contentType : String
  deriving DecidableEq, Repr

/-- `PreparedFinalPackage` -/
structure PreparedFinalPackage (φ : Type) where
  eventId : Uuid
  workflowId : Uuid
  correlationId : String
  snapshot : Fields φ
  manifestKey : String
  pdfKey : String
  manifestContent : List UInt8
  pdfContent : List UInt8
  manifestChecksum : String
  pdfChecksum : String
  repair : Option PackageRepair
  manifestSummed : manifestChecksum = hexdigest manifestContent
  pdfSummed : pdfChecksum = hexdigest pdfContent

/-- What `commit` ensures, in its order. -/
def PreparedFinalPackage.objects (prepared : PreparedFinalPackage φ) : List PackageObject :=
  [⟨prepared.manifestKey, prepared.manifestContent, "application/json"⟩,
    ⟨prepared.pdfKey, prepared.pdfContent, "application/pdf"⟩]

inductive PackageError where
  /-- `FinalPackageConflictError` -/
  | conflict (message : String)
  | missingKey (key : String)
  | encoding
  /-- What the database raises. -/
  | database
  | runtime (message : String)
  deriving DecidableEq, Repr

/-! `prepare` -/

def terminalStates : List String :=
  ["approved", "rejected", "revision_requested"]

/-- `snapshot[key]` -/
def item (fields : Fields φ) (key : String) : Except PackageError (Json φ) :=
  match fields.lookup key with
  | none => .error (.missingKey key)
  | some value => .ok value

def legacyMetadata (repair : Fields φ) : Option PackageMetadata := do
  let workflowId ← text? (get repair "legacy_workflow_id")
  let state ← text? (get repair "legacy_state")
  let manifestKey ← text? (get repair "legacy_manifest_key")
  let pdfKey ← text? (get repair "legacy_pdf_key")
  let manifestChecksum ← text? (get repair "legacy_manifest_checksum")
  let pdfChecksum ← text? (get repair "legacy_pdf_checksum")
  some ⟨workflowId, state, manifestKey, pdfKey, manifestChecksum, pdfChecksum⟩

/-- The manifest of a frozen snapshot, with the repair that it asks for. -/
def unfreeze (codec : PackageCodec φ) (frozen : Fields φ) :
    Except PackageError (Fields φ × Option (Fields φ × PackageRepair)) :=
  match get frozen "repair" with
  | .null => .ok (frozen, none)
  | .object repair =>
    match get frozen "manifest" with
    | .object manifest =>
      if ¬ isText (get repair "source") "postgresql-terminal-migration-package-repair" then
        .error (.conflict "terminal package repair source is invalid")
      else match (repair.lookup "package_id").bind fun id => UuidText.parse? (codec.str id) with
        | none => .error (.conflict "terminal package repair identity is invalid")
        | some packageId =>
          match legacyMetadata repair with
          | none => .error (.conflict "terminal package legacy metadata is invalid")
          | some legacy => .ok (manifest, some (repair, ⟨packageId, legacy⟩))
    | _ => .error (.conflict "terminal package repair snapshot is invalid")
  | _ => .error (.conflict "terminal package repair snapshot is invalid")

/-- The snapshot names its event, its workflow and its tenant, and a terminal state. -/
def identified (event : PackageEvent φ) (snapshot : Fields φ) : Bool :=
  match get snapshot "provenance" with
  | .object provenance =>
    isText (get provenance "workflow_event_id") event.id.str &&
      isText (get provenance "workflow_correlation_id") event.correlationId &&
      isText (get snapshot "workflow_id") event.workflowId.str &&
      isText (get snapshot "organization_id") event.organizationId.str &&
      isText (get snapshot "workspace_id") event.workspaceId.str &&
      terminalStates.any (isText (get snapshot "state"))
  | _ => false

/-- The object keys of the snapshot and of the event are those of its review. -/
def keyed (event : PackageEvent φ) (snapshot : Fields φ) (manifestKey pdfKey : String) : Bool :=
  isText (get snapshot "manifest_key") manifestKey && isText (get snapshot "pdf_key") pdfKey &&
    event.packageManifestKey = some manifestKey && event.packagePdfKey = some pdfKey

def objectBase (codec : PackageCodec φ) (snapshot : Fields φ) (reviewId : Json φ)
    (repaired : Bool) : String :=
  let base := "reviews/" ++ codec.str (get snapshot "organization_id") ++ "/" ++
    codec.str (get snapshot "workspace_id") ++ "/" ++ codec.str reviewId ++ "/final-package"
  if repaired then base ++ "/recovery-0035" else base

/-- The contents of a package, with their checksums and keys. -/
def packageOf (codec : PackageCodec φ) (event : PackageEvent φ) (snapshot : Fields φ)
    (repair : Option (Fields φ × PackageRepair)) :
    Except PackageError (PreparedFinalPackage φ) := do
  let manifestContent := utf8 (dumps codec.floatText (.object snapshot))
  let manifestChecksum := hexdigest manifestContent
  let agreementId ← item snapshot "agreement_id"
  let reviewId ← item snapshot "review_id"
  match deterministicPdf [
      "Agreement Intelligence - Final Review Package",
      "Agreement ID: " ++ codec.str agreementId,
      "Review ID: " ++ codec.str reviewId,
      "Outcome: " ++ codec.str (get snapshot "state"),
      "Manifest checksum: sha256:" ++ manifestChecksum] with
  | none => .error .encoding
  | some pdfContent =>
    let pdfChecksum := hexdigest pdfContent
    let base := objectBase codec snapshot reviewId repair.isSome
    let manifestKey := base ++ "/manifest.json"
    let pdfKey := base ++ "/report.pdf"
    if ¬ keyed event snapshot manifestKey pdfKey then
      .error (.conflict "terminal package object key conflict")
    else if repair.any fun (fields, _) =>
        ¬ (isText (get fields "manifest_checksum") manifestChecksum ∧
          isText (get fields "pdf_checksum") pdfChecksum) then
      .error (.conflict "terminal package repair checksum conflict")
    else .ok {
      eventId := event.id
      workflowId := event.workflowId
      correlationId := event.correlationId
      snapshot := snapshot
      manifestKey := manifestKey
      pdfKey := pdfKey
      manifestContent := manifestContent
      pdfContent := pdfContent
      manifestChecksum := manifestChecksum
      pdfChecksum := pdfChecksum
      repair := repair.map Prod.snd
      manifestSummed := rfl
      pdfSummed := rfl }

/-- What `prepare` makes of the row that it reads. -/
def prepareEvent (codec : PackageCodec φ) (event : PackageEvent φ) (workflowId : Uuid)
    (correlationId : String) : Except PackageError (PreparedFinalPackage φ) :=
  if event.eventType ≠ terminalEvent ∨ event.workflowId ≠ workflowId ∨
      event.correlationId ≠ correlationId then
    .error (.conflict "terminal workflow event identity conflict")
  else match event.packageSnapshot with
    | none => .error (.conflict "terminal package snapshot is missing")
    | some frozen => do
      let (snapshot, repair) ← unfreeze codec frozen
      if ¬ identified event snapshot then
        .error (.conflict "terminal package snapshot identity conflict")
      else packageOf codec event snapshot repair

/-! `commit`, up to the objects -/

/-- A row of `review_final_packages`. -/
structure FinalPackageRecord where
  id : Uuid
  organizationId : Uuid
  workspaceId : Uuid
  reviewId : Uuid
  workflowId : Uuid
  state : String
  manifestKey : String
  pdfKey : String
  manifestChecksum : String
  pdfChecksum : String
  deriving DecidableEq, Repr

/-- Two rows that a key of `review_final_packages` keeps apart. -/
def FinalPackageRecord.Clashes (one other : FinalPackageRecord) : Prop :=
  one.id = other.id ∨ one.reviewId = other.reviewId ∨ one.manifestKey = other.manifestKey ∨
    one.pdfKey = other.pdfKey

instance (one other : FinalPackageRecord) : Decidable (one.Clashes other) :=
  inferInstanceAs (Decidable (_ ∨ _))

/-- A text of the snapshot as the database takes it for a column of identifiers. -/
def columnUuid (codec : PackageCodec φ) (snapshot : Fields φ) (key : String) :
    Except PackageError Uuid := do
  let value ← item snapshot key
  match (text? value).bind codec.uuidIn with
  | none => .error .database
  | some id => .ok id

/-- `metadata_matches` -/
def metadataMatches (codec : PackageCodec φ) (existing : FinalPackageRecord)
    (prepared : PreparedFinalPackage φ) : Bool :=
  existing.organizationId.str = codec.str (get prepared.snapshot "organization_id") &&
    existing.workspaceId.str = codec.str (get prepared.snapshot "workspace_id") &&
    existing.reviewId.str = codec.str (get prepared.snapshot "review_id") &&
    existing.workflowId.str = prepared.workflowId.str &&
    existing.state = codec.str (get prepared.snapshot "state") &&
    existing.manifestKey = prepared.manifestKey && existing.pdfKey = prepared.pdfKey &&
    existing.manifestChecksum = prepared.manifestChecksum &&
    existing.pdfChecksum = prepared.pdfChecksum

/-- The row as the texts of a repair describe it. -/
def FinalPackageRecord.metadata (row : FinalPackageRecord) : PackageMetadata :=
  ⟨row.workflowId.str, row.state, row.manifestKey, row.pdfKey, row.manifestChecksum,
    row.pdfChecksum⟩

/-- The row of the review, checked against the package; `none` when there is no row yet. -/
def existingPackage (codec : PackageCodec φ) (rows : List FinalPackageRecord)
    (prepared : PreparedFinalPackage φ) : Except PackageError (Option FinalPackageRecord) := do
  let reviewId ← columnUuid codec prepared.snapshot "review_id"
  match rows.find? fun row => row.reviewId = reviewId with
  | none =>
    if prepared.repair.isSome then .error (.conflict "legacy final package metadata is missing")
    else .ok none
  | some existing =>
    if prepared.repair.any fun repair => repair.packageId ≠ existing.id then
      .error (.conflict "legacy final package identity conflict")
    else if prepared.repair.any fun repair => repair.legacy ≠ existing.metadata then
      .error (.conflict "legacy final package metadata conflict")
    else if ¬ metadataMatches codec existing prepared ∧ prepared.repair.isNone then
      .error (.conflict "final package metadata conflict")
    else .ok (some existing)

/-- The row that `commit` inserts, under the uuid4 that it draws. -/
def packageRow (codec : PackageCodec φ) (prepared : PreparedFinalPackage φ) (packageId : Uuid) :
    Except PackageError FinalPackageRecord := do
  let organizationId ← columnUuid codec prepared.snapshot "organization_id"
  let workspaceId ← columnUuid codec prepared.snapshot "workspace_id"
  let reviewId ← columnUuid codec prepared.snapshot "review_id"
  let workflowId ← columnUuid codec prepared.snapshot "workflow_id"
  let state ← item prepared.snapshot "state"
  return {
    id := packageId
    organizationId := organizationId
    workspaceId := workspaceId
    reviewId := reviewId
    workflowId := workflowId
    state := codec.str state
    manifestKey := prepared.manifestKey
    pdfKey := prepared.pdfKey
    manifestChecksum := prepared.manifestChecksum
    pdfChecksum := prepared.pdfChecksum }

/-- The row after `_repair_metadata`. -/
def repairedRow (codec : PackageCodec φ) (prepared : PreparedFinalPackage φ)
    (row : FinalPackageRecord) : FinalPackageRecord :=
  { row with
    workflowId := prepared.workflowId
    state := codec.str (get prepared.snapshot "state")
    manifestKey := prepared.manifestKey
    pdfKey := prepared.pdfKey
    manifestChecksum := prepared.manifestChecksum
    pdfChecksum := prepared.pdfChecksum }

end AgreementIntelligence.Reviews
