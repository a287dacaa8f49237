import AgreementIntelligence.Agreements.Deletion

/-! The keys of stored objects as their producers write them, and the grammar that the
deletion worker holds them against. Each key is a path, and the grammar takes it apart
again, so the lemmas compare the parts. -/

namespace AgreementIntelligence.Agreements
open Identity Lib.Text UuidText

/-- A SHA-256 digest in hexadecimal digits. -/
structure Sha256 where
  text : String
  hex : isSha256 text = true

inductive DocumentExtension where
  | pdf
  | docx
  deriving DecidableEq, Repr

def DocumentExtension.suffix : DocumentExtension → String
  | .pdf => "pdf"
  | .docx => "docx"

/-- `DocumentService._key` -/
def documentKey (organizationId workspaceId : Uuid) (sha256 : Sha256)
    (extension : DocumentExtension) : String :=
  "tenants/" ++ organizationId.str ++ "/workspaces/" ++ workspaceId.str ++ "/documents/" ++
    sha256.text ++ "/original." ++ extension.suffix

/-- `package_base` -/
def packageBase (organizationId workspaceId reviewId : Uuid) : String :=
  "reviews/" ++ organizationId.str ++ "/" ++ workspaceId.str ++ "/" ++ reviewId.str ++
    "/final-package"

/-- The base of a package that the migration has found and wants repaired. -/
def recoveryBase (organizationId workspaceId reviewId : Uuid) : String :=
  packageBase organizationId workspaceId reviewId ++ "/recovery-0035"

def manifestKey (base : String) : String :=
  base ++ "/manifest.json"

def pdfKey (base : String) : String :=
  base ++ "/report.pdf"

/-! The parts of a key -/

theorem isSha256_plain {text : String} (hex : isSha256 text = true) : '/' ∉ text.toList := by
  intro slash
  simp only [isSha256, Bool.and_eq_true, List.all_eq_true] at hex
  have digit := of_decide_eq_true (hex.2 '/' slash)
  simp at digit

theorem hexDigit_ne_slash : ∀ n < 16, hexDigit n ≠ '/' := by
  decide

theorem str_plain (u : Uuid) : '/' ∉ u.str.toList := by
  intro slash
  rcases mem_str slash with hyphen | digit
  · cases hyphen
  · obtain ⟨d, small, same⟩ := mem_hex digit
    exact hexDigit_ne_slash d small same.symm

theorem isUuid_str (u : Uuid) : isUuid u.str = true := by
  rw [isUuid, parse?_str]
  rfl

theorem splitPath_documentKey (organizationId workspaceId : Uuid) (sha256 : Sha256)
    (extension : DocumentExtension) :
    splitPath (documentKey organizationId workspaceId sha256 extension) =
      ["tenants", organizationId.str, "workspaces", workspaceId.str, "documents", sha256.text,
        "original." ++ extension.suffix] := by
  have joined : documentKey organizationId workspaceId sha256 extension =
      joinPath ["tenants", organizationId.str, "workspaces", workspaceId.str, "documents",
        sha256.text, "original." ++ extension.suffix] := by
    apply String.toList_inj.mp
    simp [documentKey, joinPath]
  rw [joined]
  refine splitPath_joinPath (List.cons_ne_nil _ _) ?_
  simp only [List.mem_cons, List.not_mem_nil, or_false, forall_eq_or_imp, forall_eq]
  refine ⟨by simp, str_plain _, by simp, str_plain _, by simp, isSha256_plain sha256.hex, ?_⟩
  cases extension <;> simp [DocumentExtension.suffix]

theorem splitPath_documentArtifactKey (job : ProcessingJob) {checksum : String}
    (hex : isSha256 checksum = true) :
    splitPath (documentArtifactKey job checksum) =
      ["tenants", job.organizationId.str, "workspaces", job.workspaceId.str, "agreements",
        job.agreementId.str, "analysis", checksum, "document-analysis.v1.json"] := by
  have joined : documentArtifactKey job checksum =
      joinPath ["tenants", job.organizationId.str, "workspaces", job.workspaceId.str,
        "agreements", job.agreementId.str, "analysis", checksum,
        "document-analysis.v1.json"] := by
    apply String.toList_inj.mp
    simp [documentArtifactKey, joinPath]
  rw [joined]
  refine splitPath_joinPath (List.cons_ne_nil _ _) ?_
  simp only [List.mem_cons, List.not_mem_nil, or_false, forall_eq_or_imp, forall_eq]
  exact ⟨by simp, str_plain _, by simp, str_plain _, by simp, str_plain _, by simp,
    isSha256_plain hex, by simp⟩

theorem splitPath_comparisonArtifactKey (runId : Uuid) :
    splitPath (comparisonArtifactKey runId) =
      ["comparisons", runId.str, "version-comparison.v1.json"] := by
  have joined : comparisonArtifactKey runId =
      joinPath ["comparisons", runId.str, "version-comparison.v1.json"] := by
    apply String.toList_inj.mp
    simp [comparisonArtifactKey, joinPath]
  rw [joined]
  refine splitPath_joinPath (List.cons_ne_nil _ _) ?_
  simp only [List.mem_cons, List.not_mem_nil, or_false, forall_eq_or_imp, forall_eq]
  exact ⟨by simp, str_plain _, by simp⟩

/-- A package key under its base, with a file that has no slash. -/
theorem splitPath_packageKey (organizationId workspaceId reviewId : Uuid) {file : String}
    (plain : '/' ∉ file.toList) :
    splitPath (packageBase organizationId workspaceId reviewId ++ ("/" ++ file)) =
      ["reviews", organizationId.str, workspaceId.str, reviewId.str, "final-package", file] := by
  have joined : packageBase organizationId workspaceId reviewId ++ ("/" ++ file) =
      joinPath ["reviews", organizationId.str, workspaceId.str, reviewId.str, "final-package",
        file] := by
    apply String.toList_inj.mp
    simp [packageBase, joinPath]
  rw [joined]
  refine splitPath_joinPath (List.cons_ne_nil _ _) ?_
  simp only [List.mem_cons, List.not_mem_nil, or_false, forall_eq_or_imp, forall_eq]
  exact ⟨by simp, str_plain _, str_plain _, str_plain _, by simp, plain⟩

/-! What the grammar accepts -/

theorem validateOwnedKey_document (organizationId workspaceId agreementId : Uuid)
    (sha256 : Sha256) (extension : DocumentExtension) :
    validateOwnedKey organizationId workspaceId agreementId .source
      (documentKey organizationId workspaceId sha256 extension) = true := by
  unfold validateOwnedKey
  rw [splitPath_documentKey]
  cases extension <;> simp [DocumentExtension.suffix, sha256.hex]

theorem validateOwnedKey_analysis (job : ProcessingJob) {checksum : String}
    (hex : isSha256 checksum = true) :
    validateOwnedKey job.organizationId job.workspaceId job.agreementId .analysis
      (documentArtifactKey job checksum) = true := by
  unfold validateOwnedKey
  rw [splitPath_documentArtifactKey job hex]
  simp [hex]

theorem validateOwnedKey_comparison (organizationId workspaceId agreementId runId : Uuid) :
    validateOwnedKey organizationId workspaceId agreementId .comparison
      (comparisonArtifactKey runId) = true := by
  unfold validateOwnedKey
  rw [splitPath_comparisonArtifactKey]
  simp [isUuid_str]

/-- A key under the package of a review of the tenant. -/
def IsPackageKey (organizationId workspaceId : Uuid) (file key : String) : Prop :=
  ∃ reviewId, isUuid reviewId = true ∧ splitPath key =
    ["reviews", organizationId.str, workspaceId.str, reviewId, "final-package", file]

theorem isPackageKey_manifest (organizationId workspaceId reviewId : Uuid) :
    IsPackageKey organizationId workspaceId "manifest.json"
      (manifestKey (packageBase organizationId workspaceId reviewId)) := by
  have parts := splitPath_packageKey organizationId workspaceId reviewId
    (show '/' ∉ "manifest.json".toList by simp)
  rw [show "/" ++ "manifest.json" = "/manifest.json" from rfl] at parts
  exact ⟨reviewId.str, isUuid_str reviewId, parts⟩

theorem isPackageKey_pdf (organizationId workspaceId reviewId : Uuid) :
    IsPackageKey organizationId workspaceId "report.pdf"
      (pdfKey (packageBase organizationId workspaceId reviewId)) := by
  have parts := splitPath_packageKey organizationId workspaceId reviewId
    (show '/' ∉ "report.pdf".toList by simp)
  rw [show "/" ++ "report.pdf" = "/report.pdf" from rfl] at parts
  exact ⟨reviewId.str, isUuid_str reviewId, parts⟩

theorem validateOwnedKey_package {organizationId workspaceId : Uuid} {file key : String}
    (package : IsPackageKey organizationId workspaceId file key) :
    validateOwnedKey.packageKey organizationId workspaceId (splitPath key) file = true := by
  obtain ⟨reviewId, uuid, parts⟩ := package
  rw [parts]
  simp [validateOwnedKey.packageKey, uuid]

end AgreementIntelligence.Agreements
