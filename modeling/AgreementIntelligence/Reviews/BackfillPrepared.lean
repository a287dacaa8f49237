import AgreementIntelligence.Reviews.PackageBackfill
import Mathlib.Data.List.OfFn

/-! What the migration writes, the worker prepares: the snapshot that comes out of its column names
the event, the workflow and the tenant, the keys are laid out as the worker lays them out, and the
checksums of a repair are those that the worker computes again. -/

namespace AgreementIntelligence.Reviews.Backfill
open Identity Lib Lib.Json Lib.Results Lib.Sha256

variable {φ : Type} {codec : BackfillCodec φ} {candidate : Candidate} {event : OutboxRow φ}

/-! The report is ASCII -/

def Ascii (text : String) : Prop := ∀ c ∈ text.toList, c.toNat < 128

instance (text : String) : Decidable (Ascii text) :=
  List.decidableBAll _ text.toList

theorem Ascii.append {one other : String} (first : Ascii one) (second : Ascii other) :
    Ascii (one ++ other) := by
  intro c member
  rw [String.toList_append, List.mem_append] at member
  exact member.elim (first c) (second c)

/-- The texts that the report is made of, but for what is filled in. -/
theorem ascii_literals : ∀ text ∈ ["\n", "BT", "/F1 10 Tf", "72 720 Td", "0 -14 Td", "ET", "(",
    ") Tj", "\\", "Agreement Intelligence - Final Review Package", "Agreement ID: ", "Review ID: ",
    "Outcome: ", "Manifest checksum: sha256:"] ++ terminalStates, Ascii text := by
  decide +kernel

theorem ascii_newline : Ascii "\n" := ascii_literals _ (by simp)

theorem ascii_hexDigit : ∀ n < 16, (hexDigit n).toNat < 128 := by decide

theorem ascii_uuid (id : Uuid) : Ascii id.str := by
  intro c member
  cases UuidText.mem_str member with
  | inl hyphen => rw [hyphen]; decide
  | inr digit =>
      obtain ⟨d, small, same⟩ := UuidText.mem_hex digit
      exact same ▸ ascii_hexDigit d small

theorem ascii_hexDigits : ∀ n < 16, ("0123456789abcdef".toList.getD n '0').toNat < 128 := by decide

theorem ascii_hexdigest (message : List UInt8) : Ascii (hexdigest message) := by
  intro c member
  rw [hexdigest, String.toList_ofList, List.mem_flatMap] at member
  obtain ⟨word, -, digit⟩ := member
  rw [hexDigits, List.mem_map] at digit
  obtain ⟨place, -, same⟩ := digit
  exact same ▸ ascii_hexDigits _ (Nat.mod_lt _ (by decide))

theorem ascii_terminal {state : String} (terminal : state ∈ terminalStates) : Ascii state := by
  exact ascii_literals state (List.mem_append_right _ terminal)

theorem ascii_pdfLiteral {text : String} (ascii : Ascii text) : Ascii (pdfLiteral text) := by
  intro c member
  rw [pdfLiteral, String.toList_ofList, List.mem_flatMap] at member
  obtain ⟨d, there, here⟩ := member
  split at here
  · simp only [List.mem_cons, List.not_mem_nil, or_false] at here
    rcases here with rfl | rfl
    · exact ascii_literals "\\" (by simp) _ (by simp)
    · exact ascii c there
  · rw [List.mem_singleton.mp here]
    exact ascii d there

theorem ascii_intercalate {lines : List String} (ascii : ∀ line ∈ lines, Ascii line) :
    Ascii ("\n".intercalate lines) := by
  intro c member
  rw [String.toList_intercalate] at member
  induction lines with
  | nil => simp [List.intercalate] at member
  | cons first rest ih =>
      cases rest with
      | nil =>
          simp only [List.map_cons, List.map_nil, List.intercalate_singleton] at member
          exact ascii first List.mem_cons_self c member
      | cons next later =>
          rw [List.map_cons, List.map_cons, List.intercalate_cons_cons, List.mem_append,
            List.mem_append] at member
          rcases member with (here | mark) | others
          · exact ascii first List.mem_cons_self c here
          · exact ascii_newline c mark
          · exact ih (fun line there => ascii line (List.mem_cons_of_mem _ there)) others

theorem latin1_ascii {text : String} (ascii : Ascii text) : ∃ bytes, latin1 text = some bytes := by
  have total : ∀ chars : List Char, (∀ c ∈ chars, c.toNat < 128) → ∃ bytes,
      chars.mapM (fun c => if c.toNat < 256 then some (UInt8.ofNat c.toNat) else none) =
        some bytes := by
    intro chars
    induction chars with
    | nil => exact fun _ => ⟨[], rfl⟩
    | cons first rest ih =>
        intro small
        obtain ⟨bytes, encoded⟩ := ih fun c member => small c (List.mem_cons_of_mem _ member)
        have here : first.toNat < 256 := by have := small first List.mem_cons_self; omega
        exact ⟨UInt8.ofNat first.toNat :: bytes, by simp [List.mapM_cons, here, encoded]⟩
  exact total text.toList ascii

theorem ascii_pdfCommands {lines : List String} (ascii : ∀ line ∈ lines, Ascii line) :
    ∀ command ∈ pdfCommands lines, Ascii command := by
  intro command member
  rw [pdfCommands, List.mem_append, List.mem_append, List.mem_flatten] at member
  rcases member with (first | ⟨commands, drawn, here⟩) | last
  · simp only [List.mem_cons, List.not_mem_nil, or_false] at first
    rcases first with rfl | rfl | rfl <;> exact ascii_literals _ (by simp)
  · obtain ⟨index, bound, same⟩ := List.mem_mapIdx.mp drawn
    rw [← same, List.mem_append] at here
    cases here with
    | inl move =>
        split at move
        · cases move
        · rw [List.mem_singleton.mp move]
          exact ascii_literals _ (by simp)
    | inr shown =>
        rw [List.mem_singleton.mp shown]
        have literal := ascii_pdfLiteral (ascii _ (List.getElem_mem bound))
        exact ((ascii_literals "(" (by simp)).append literal).append
          (ascii_literals ") Tj" (by simp))
  · rw [List.mem_singleton.mp last]
    exact ascii_literals _ (by simp)

theorem deterministicPdf_ascii {lines : List String} (ascii : ∀ line ∈ lines, Ascii line) :
    ∃ content, deterministicPdf lines = some content := by
  obtain ⟨stream, encoded⟩ :=
    latin1_ascii ((ascii_intercalate (ascii_pdfCommands ascii)).append ascii_newline)
  exact ⟨_, by rw [deterministicPdf, encoded]; rfl⟩

theorem report_content {candidate : Candidate} (terminal : Terminal candidate.workflow)
    (message : List UInt8) :
    ∃ content, deterministicPdf (reportLines candidate (hexdigest message)) = some content := by
  refine deterministicPdf_ascii fun line member => ?_
  simp only [reportLines, List.mem_cons, List.not_mem_nil, or_false] at member
  rcases member with rfl | rfl | rfl | rfl | rfl
  · exact ascii_literals _ (by simp)
  · exact (ascii_literals "Agreement ID: " (by simp)).append (ascii_uuid _)
  · exact (ascii_literals "Review ID: " (by simp)).append (ascii_uuid _)
  · exact (ascii_literals "Outcome: " (by simp)).append (ascii_terminal terminal)
  · exact (ascii_literals "Manifest checksum: sha256:" (by simp)).append (ascii_hexdigest message)

/-! The event of a candidate -/

/-- The event is what the migration writes for the candidate, whatever it has read in the
collections of the workflow. -/
structure Written (codec : BackfillCodec φ) (candidate : Candidate) (event : OutboxRow φ) :
    Prop where
  terminal : Terminal candidate.workflow
  row : ∃ contents correlationId snapshot now,
    snapshotOf codec candidate (manifestOf candidate contents correlationId event.id) =
        .ok snapshot ∧
      event = backfillRow codec candidate correlationId event.id snapshot now

/-- A manifest as it comes out of the column of its event. -/
structure ReadsManifest (candidate : Candidate) (event : OutboxRow φ) (fields : Fields φ) :
    Prop where
  organizationId : fields.lookup "organization_id" =
    some (uuidJson candidate.workflow.organizationId)
  workspaceId : fields.lookup "workspace_id" = some (uuidJson candidate.workflow.workspaceId)
  reviewId : fields.lookup "review_id" = some (uuidJson candidate.workflow.reviewId)
  agreementId : fields.lookup "agreement_id" = some (uuidJson candidate.review.agreementId)
  workflowId : fields.lookup "workflow_id" = some (uuidJson candidate.workflow.id)
  manifestKey : fields.lookup "manifest_key" = some (.string candidate.manifestKey)
  pdfKey : fields.lookup "pdf_key" = some (.string candidate.pdfKey)
  state : fields.lookup "state" = some (.string candidate.workflow.state)
  provenance : ∃ provenance, fields.lookup "provenance" = some (.object provenance) ∧
    provenance.lookup "workflow_event_id" = some (uuidJson event.id) ∧
    provenance.lookup "workflow_correlation_id" = some (.string event.correlationId)

theorem readsManifest_of_same {contents : Contents φ} {fields : Fields φ}
    (same : Same (.object (manifestOf candidate contents event.correlationId event.id))
      (.object fields)) : ReadsManifest candidate event fields := by
  have at_keys := same.object
  obtain ⟨provenance, found, inner⟩ := at_keys.lookup_object "provenance"
    (provenanceOf candidate event.correlationId event.id) rfl
  exact {
    organizationId := at_keys.lookup_string rfl
    workspaceId := at_keys.lookup_string rfl
    reviewId := at_keys.lookup_string rfl
    agreementId := at_keys.lookup_string rfl
    workflowId := at_keys.lookup_string rfl
    manifestKey := at_keys.lookup_string rfl
    pdfKey := at_keys.lookup_string rfl
    state := at_keys.lookup_string rfl
    provenance := ⟨provenance, found, inner.object.lookup_string rfl,
      inner.object.lookup_string rfl⟩ }

theorem get_of_lookup {fields : Fields φ} {key : String} {value : Json φ}
    (held : fields.lookup key = some value) : Json.get fields key = value := by
  rw [Json.get, held]
  rfl

theorem isText_of_lookup {fields : Fields φ} {key text : String}
    (held : fields.lookup key = some (.string text)) :
    isText (Json.get fields key) text = true := by
  rw [get_of_lookup held, isText, text?]
  exact decide_eq_true rfl

theorem text?_of_lookup {fields : Fields φ} {key text : String}
    (held : fields.lookup key = some (.string text)) :
    text? (Json.get fields key) = some text := by
  rw [get_of_lookup held]
  rfl

theorem item_of_lookup {fields : Fields φ} {key : String} {value : Json φ}
    (held : fields.lookup key = some value) : item fields key = .ok value := by
  rw [item, held]

/-- The event under the fields that `prepare` compares with the snapshot. -/
structure Heads (candidate : Candidate) (event : OutboxRow φ) : Prop where
  eventType : event.eventType = terminalEvent
  workflowId : event.workflowId = candidate.workflow.id
  organizationId : event.organizationId = candidate.workflow.organizationId
  workspaceId : event.workspaceId = candidate.workflow.workspaceId
  manifestKey : event.packageManifestKey = some candidate.manifestKey
  pdfKey : event.packagePdfKey = some candidate.pdfKey
  unprocessed : event.processedAt = none
  idempotencyKey : event.idempotencyKey = backfillKey candidate.workflow.id

theorem Written.heads (written : Written codec candidate event) : Heads candidate event := by
  obtain ⟨contents, correlationId, snapshot, now, -, row⟩ := written.row
  rw [row]
  exact ⟨rfl, rfl, rfl, rfl, rfl, rfl, rfl, rfl⟩

theorem identified_written {fields : Fields φ} (terminal : Terminal candidate.workflow)
    (heads : Heads candidate event) (reads : ReadsManifest candidate event fields)
    (agreementId : Uuid) : identified (event.packageEvent agreementId) fields = true := by
  obtain ⟨provenance, found, eventId, correlationId⟩ := reads.provenance
  have state : terminalStates.any (isText (Json.get fields "state")) = true :=
    List.any_eq_true.mpr ⟨_, terminal, isText_of_lookup reads.state⟩
  unfold identified
  rw [get_of_lookup found]
  simp only [OutboxRow.packageEvent, heads.workflowId, heads.organizationId, heads.workspaceId,
    isText_of_lookup eventId, isText_of_lookup correlationId, isText_of_lookup reads.workflowId,
    isText_of_lookup reads.organizationId, isText_of_lookup reads.workspaceId, state, Bool.and_true]

/-! `packageOf` -/

/-- What the worker prepares of the event. -/
structure PreparedFor (codec : BackfillCodec φ) (candidate : Candidate) (event : OutboxRow φ)
    (prepared : PreparedFinalPackage φ) : Prop where
  eventId : prepared.eventId = event.id
  workflowId : prepared.workflowId = candidate.workflow.id
  manifestKey : prepared.manifestKey = candidate.manifestKey
  pdfKey : prepared.pdfKey = candidate.pdfKey
  reads : ReadsManifest candidate event prepared.snapshot
  repair : prepared.repair = candidate.package.map fun package =>
    ⟨package.id, package.metadata⟩

theorem objectBase_written {fields : Fields φ} (reads : ReadsManifest candidate event fields) :
    objectBase codec.toPackageCodec fields (uuidJson candidate.workflow.reviewId)
      candidate.package.isSome = backfillBase candidate := by
  simp only [objectBase, get_of_lookup reads.organizationId, get_of_lookup reads.workspaceId,
    uuidJson, PackageCodec.str, backfillBase]

theorem packageOf_written {contents : Contents φ} {fields : Fields φ}
    (heads : Heads candidate event)
    (same : Same (.object (manifestOf candidate contents event.correlationId event.id))
      (.object fields)) (repair : Option (Fields φ × PackageRepair))
    (asked : repair.map Prod.snd = candidate.package.map fun package =>
      ⟨package.id, package.metadata⟩) {manifestChecksum : String} {pdfContent : List UInt8}
    (sum : manifestChecksum = manifestChecksumOf codec
      (manifestOf candidate contents event.correlationId event.id))
    (report : deterministicPdf (reportLines candidate manifestChecksum) = some pdfContent)
    (sums : ∀ asked ∈ repair, isText (Json.get asked.1 "manifest_checksum") manifestChecksum ∧
      isText (Json.get asked.1 "pdf_checksum") (hexdigest pdfContent)) (agreementId : Uuid) :
    ∃ prepared, packageOf codec.toPackageCodec (event.packageEvent agreementId) fields repair =
        .ok prepared ∧ PreparedFor codec candidate event prepared ∧
      prepared.manifestChecksum = manifestChecksum ∧
      prepared.pdfChecksum = hexdigest pdfContent := by
  have reads := readsManifest_of_same same
  have isRepair : repair.isSome = candidate.package.isSome := by
    have sizes := congrArg Option.isSome asked
    rwa [Option.isSome_map, Option.isSome_map] at sizes
  have text : hexdigest (utf8 (dumps codec.floatText (.object fields))) = manifestChecksum := by
    rw [sum, manifestChecksumOf, dumps_same codec.floatText same]
  have keys : keyed (event.packageEvent agreementId) fields
      (backfillBase candidate ++ "/manifest.json") (backfillBase candidate ++ "/report.pdf") =
        true := by
    simp only [keyed, OutboxRow.packageEvent, heads.manifestKey, heads.pdfKey]
    rw [← Candidate.manifestKey, ← Candidate.pdfKey, isText_of_lookup reads.manifestKey,
      isText_of_lookup reads.pdfKey]
    simp
  have base : objectBase codec.toPackageCodec fields (uuidJson candidate.workflow.reviewId)
      repair.isSome = backfillBase candidate := isRepair ▸ objectBase_written reads
  rw [reportLines] at report
  unfold packageOf
  simp only [item_of_lookup reads.agreementId, item_of_lookup reads.reviewId, text, bind,
    Except.bind, base, get_of_lookup reads.state]
  simp only [uuidJson, PackageCodec.str] at base ⊢
  simp only [report]
  rw [if_neg (not_not_intro keys), if_neg]
  · refine ⟨_, rfl, ?_, rfl, rfl⟩
    exact ⟨rfl, heads.workflowId, rfl, rfl, reads, asked⟩
  · cases repair with
    | none => exact Bool.false_ne_true
    | some wanted => exact fun clash => of_decide_eq_true clash (sums wanted rfl)

/-! `prepare` -/

theorem unfreeze_manifest {contents : Contents φ} {correlationId : String} {eventId : Uuid}
    {fields : Fields φ}
    (same : Same (.object (manifestOf candidate contents correlationId eventId))
      (.object fields)) : unfreeze codec.toPackageCodec fields = .ok (fields, none) := by
  have absent : Json.get fields "repair" = .null := by
    rw [Json.get, same.object.lookup_none rfl]
    rfl
  rw [unfreeze, absent]

/-- The document of a repair event. -/
def repairSnapshot (package : PackageRow) (manifest : Fields φ)
    (manifestChecksum pdfChecksum : String) : Fields φ :=
  [("manifest", .object manifest),
    ("legacy_manifest_key", .string package.manifestKey),
    ("legacy_pdf_key", .string package.pdfKey),
    ("repair", .object (repairOf package manifestChecksum pdfChecksum))]

theorem legacyMetadata_repair {package : PackageRow} {manifestChecksum pdfChecksum : String}
    {repair : Fields φ}
    (same : SameFields (repairOf package manifestChecksum pdfChecksum) repair) :
    legacyMetadata repair = some package.metadata := by
  have held (key text : String)
      (listed : (repairOf package manifestChecksum pdfChecksum : Fields φ).lookup key =
        some (.string text)) : text? (Json.get repair key) = some text :=
    text?_of_lookup (same.lookup_string listed)
  rw [legacyMetadata, held "legacy_workflow_id" package.workflowId.str rfl,
    held "legacy_state" package.state rfl, held "legacy_manifest_key" package.manifestKey rfl,
    held "legacy_pdf_key" package.pdfKey rfl,
    held "legacy_manifest_checksum" package.manifestChecksum rfl,
    held "legacy_pdf_checksum" package.pdfChecksum rfl]
  rfl

theorem unfreeze_repair {package : PackageRow} {manifest fields : Fields φ}
    {manifestChecksum pdfChecksum : String}
    (same : Same (.object (repairSnapshot package manifest manifestChecksum pdfChecksum))
      (.object fields)) :
    ∃ inner repair, unfreeze codec.toPackageCodec fields =
        .ok (inner, some (repair, ⟨package.id, package.metadata⟩)) ∧
      Same (.object manifest) (.object inner) ∧
      fields.lookup "manifest" = some (.object inner) ∧
      fields.lookup "repair" = some (.object repair) ∧
      SameFields (repairOf package manifestChecksum pdfChecksum) repair := by
  obtain ⟨inner, manifestAt, sameManifest⟩ :=
    same.object.lookup_object "manifest" manifest rfl
  obtain ⟨repair, repairAt, sameRepair⟩ := same.object.lookup_object "repair"
    (repairOf package manifestChecksum pdfChecksum) rfl
  refine ⟨inner, repair, ?_, sameManifest, manifestAt, repairAt, sameRepair.object⟩
  have source : repair.lookup "source" = some (.string repairSource) :=
    sameRepair.object.lookup_string rfl
  have packageId : repair.lookup "package_id" = some (uuidJson package.id) :=
    sameRepair.object.lookup_string rfl
  have named : isText (Json.get repair "source") "postgresql-terminal-migration-package-repair" =
      true := isText_of_lookup source
  have identity : (some (uuidJson package.id)).bind (fun id : Json φ =>
      UuidText.parse? (codec.str id)) = some package.id := by
    simp only [Option.bind_some, uuidJson, PackageCodec.str, UuidText.parse?_str]
  unfold unfreeze
  simp only [get_of_lookup manifestAt, get_of_lookup repairAt, named, packageId, identity,
    legacyMetadata_repair sameRepair.object, not_true_eq_false, if_false]

/-- The repair of an event as the trigger reads it. -/
structure ReadsRepair (candidate : Candidate) (event : OutboxRow φ) (package : PackageRow)
    (prepared : PreparedFinalPackage φ) : Prop where
  repair : ∃ repair, arrow (event.packageSnapshot.map Json.object) "repair" =
      some (.object repair) ∧
    SameFields (repairOf package prepared.manifestChecksum prepared.pdfChecksum) repair
  manifest : ∃ manifest, arrow (event.packageSnapshot.map Json.object) "manifest" =
      some (.object manifest) ∧
    manifest.lookup "state" = some (.string candidate.workflow.state)

/-- The worker accepts what the migration has written. -/
theorem prepare_written (written : Written codec candidate event) (agreementId : Uuid) :
    ∃ prepared, event.prepare codec agreementId = .ok prepared ∧
      PreparedFor codec candidate event prepared ∧
      ∀ package ∈ candidate.package, ReadsRepair candidate event package prepared := by
  have heads := written.heads
  obtain ⟨contents, correlationId, snapshot, now, made, row⟩ := written.row
  have correlation : event.correlationId = correlationId := by rw [row]; rfl
  subst correlation
  have stored : event.packageSnapshot = some (codec.stored snapshot) := by rw [row]; rfl
  have kept := codec.stored_same snapshot
  have named : ¬ (event.eventType ≠ terminalEvent ∨ event.workflowId ≠ event.workflowId ∨
      event.correlationId ≠ event.correlationId) := by simp [heads.eventType]
  have prepares : ∀ {fields repair}, unfreeze codec.toPackageCodec (codec.stored snapshot) =
        .ok (fields, repair) → ReadsManifest candidate event fields →
      event.prepare codec agreementId =
        packageOf codec.toPackageCodec (event.packageEvent agreementId) fields repair := by
    intro fields repair opened reads
    have there : (event.packageEvent agreementId).packageSnapshot =
      some (codec.stored snapshot) := stored
    refine (if_neg named).trans ?_
    rw [there]
    simp only [bind, Except.bind, opened]
    exact if_neg (not_not_intro (identified_written written.terminal heads reads agreementId))
  cases package : candidate.package with
  | none =>
      rw [snapshotOf, package] at made
      cases made
      have opened : unfreeze codec.toPackageCodec (codec.stored _) = .ok (_, none) :=
        unfreeze_manifest kept
      obtain ⟨content, report⟩ := report_content written.terminal
        (utf8 (dumps codec.floatText (.object
          (manifestOf candidate contents event.correlationId event.id))))
      obtain ⟨prepared, packed, ready, -, -⟩ := packageOf_written heads kept none
        (by rw [package]; rfl) rfl report nofun agreementId
      exact ⟨prepared, (prepares opened (readsManifest_of_same kept)).trans packed, ready, nofun⟩
  | some legacy =>
      rw [snapshotOf, package] at made
      dsimp only at made
      split at made
      · cases made
      · rename_i content report
        obtain rfl := Except.ok.inj made
        obtain ⟨inner, repair, opened, same, manifestAt, repairAt, sameRepair⟩ :=
          unfreeze_repair kept
        have sums : ∀ wanted ∈ some (repair, (⟨legacy.id, legacy.metadata⟩ : PackageRepair)),
            isText (Json.get wanted.1 "manifest_checksum") (manifestChecksumOf codec
              (manifestOf candidate contents event.correlationId event.id)) ∧
            isText (Json.get wanted.1 "pdf_checksum") (hexdigest content) := by
          intro wanted asked
          cases asked
          exact ⟨isText_of_lookup (sameRepair.lookup_string rfl),
            isText_of_lookup (sameRepair.lookup_string rfl)⟩
        obtain ⟨prepared, packed, ready, manifestSum, pdfSum⟩ := packageOf_written heads same
          (some (repair, ⟨legacy.id, legacy.metadata⟩)) (by rw [package]; rfl) rfl report
          sums agreementId
        have reads := readsManifest_of_same same
        refine ⟨prepared, (prepares opened reads).trans packed, ready, fun row asked => ?_⟩
        cases asked
        refine ⟨⟨repair, ?_, ?_⟩, ⟨inner, ?_, reads.state⟩⟩
        · rw [stored]
          exact repairAt
        · rw [manifestSum, pdfSum]
          exact sameRepair
        · rw [stored]
          exact manifestAt

end AgreementIntelligence.Reviews.Backfill
