import AgreementIntelligence.Reviews.BackfillPackages

/-! Deliveries of the backfilled events, one after another in any order and any number of times.
The package of a review is written with the first delivery of its event: a new row, or one update
of the old row, which the trigger admits. Later deliveries find the event processed. -/

namespace AgreementIntelligence.Reviews.Backfill
open Identity Lib Lib.Json Lib.Results Lib.Table

variable {φ : Type} {codec : BackfillCodec φ} {candidate : Candidate} {event : OutboxRow φ}
  {prepared : PreparedFinalPackage φ}

/-! The row of a package -/

/-- The row that the package of the candidate comes to. -/
structure Fits (candidate : Candidate) (prepared : PreparedFinalPackage φ) (row : PackageRow) :
    Prop where
  organizationId : row.organizationId = candidate.workflow.organizationId
  workspaceId : row.workspaceId = candidate.workflow.workspaceId
  reviewId : row.reviewId = candidate.workflow.reviewId
  workflowId : row.workflowId = candidate.workflow.id
  state : row.state = candidate.workflow.state
  manifestKey : row.manifestKey = candidate.manifestKey
  pdfKey : row.pdfKey = candidate.pdfKey
  manifestChecksum : row.manifestChecksum = prepared.manifestChecksum
  pdfChecksum : row.pdfChecksum = prepared.pdfChecksum
  legacy : ∀ package ∈ candidate.package, row.id = package.id ∧ row.createdAt = package.createdAt

theorem columnUuid_of_lookup {snapshot : Fields φ} {key : String} {id : Uuid}
    (held : snapshot.lookup key = some (uuidJson id)) :
    columnUuid codec.toPackageCodec snapshot key = .ok id := by
  have read : (text? (uuidJson id : Json φ)).bind codec.uuidIn = some id := codec.uuidIn_str id
  simp only [columnUuid, item_of_lookup held, bind, Except.bind]
  rw [read]

theorem packageRow_fits (ready : PreparedFor codec candidate event prepared)
    (first : candidate.package = none) (packageId : Uuid) (now : Time) :
    ∃ row, packageRow codec.toPackageCodec prepared packageId = .ok row ∧
      row.id = packageId ∧ Fits candidate prepared ⟨row, now⟩ := by
  have reads := ready.reads
  simp only [packageRow, columnUuid_of_lookup reads.organizationId,
    columnUuid_of_lookup reads.workspaceId, columnUuid_of_lookup reads.reviewId,
    columnUuid_of_lookup reads.workflowId, item_of_lookup reads.state, bind, Except.bind]
  refine ⟨_, rfl, rfl, ⟨rfl, rfl, rfl, rfl, rfl, ready.manifestKey, ready.pdfKey, rfl, rfl, ?_⟩⟩
  simp [first]

/-- The tenant of the row is the one of the workflow, which the update leaves as it is. -/
theorem repaired_fits (ready : PreparedFor codec candidate event prepared) {package : PackageRow}
    (legacy : candidate.package = some package)
    (organizationId : package.organizationId = candidate.workflow.organizationId)
    (workspaceId : package.workspaceId = candidate.workflow.workspaceId)
    (reviewId : package.reviewId = candidate.workflow.reviewId) :
    Fits candidate prepared (repaired codec prepared package) where
  organizationId := organizationId
  workspaceId := workspaceId
  reviewId := reviewId
  workflowId := ready.workflowId
  state := by
    rw [repaired, repairedRow, get_of_lookup ready.reads.state]
    rfl
  manifestKey := ready.manifestKey
  pdfKey := ready.pdfKey
  manifestChecksum := rfl
  pdfChecksum := rfl
  legacy := by
    intro other same
    rw [legacy, Option.mem_some_iff] at same
    subst same
    exact ⟨rfl, rfl⟩

/-- The worker updates a row of its tenant exactly when that changes the row. -/
theorem metadataMatches_iff (ready : PreparedFor codec candidate event prepared)
    {package : PackageRow}
    (organizationId : package.organizationId = candidate.workflow.organizationId)
    (workspaceId : package.workspaceId = candidate.workflow.workspaceId)
    (reviewId : package.reviewId = candidate.workflow.reviewId) :
    metadataMatches codec.toPackageCodec package.toFinalPackageRecord prepared = true ↔
      repaired codec prepared package = package := by
  have reads := ready.reads
  obtain ⟨row, createdAt⟩ := package
  simp only at organizationId workspaceId reviewId
  simp only [metadataMatches, get_of_lookup reads.organizationId, get_of_lookup reads.workspaceId,
    get_of_lookup reads.reviewId, get_of_lookup reads.state, uuidJson, PackageCodec.str,
    organizationId, workspaceId, reviewId, decide_true, Bool.true_and, Bool.and_eq_true,
    decide_eq_true_eq, repaired, repairedRow, PackageRow.mk.injEq]
  constructor
  · rintro ⟨⟨⟨⟨⟨workflow, state⟩, manifestKey⟩, pdfKey⟩, manifestSum⟩, pdfSum⟩
    have workflowId := UuidText.str_inj workflow
    cases row
    simp_all
  · rintro ⟨same, -⟩
    rw [← same]
    simp

/-! `commit` -/

/-- The packages of a review. -/
def rowsOf (packages : List PackageRow) (reviewId : Uuid) : List PackageRow :=
  packages.filter fun row => row.reviewId = reviewId

theorem mem_rowsOf {packages : List PackageRow} {reviewId : Uuid} {row : PackageRow} :
    row ∈ rowsOf packages reviewId ↔ row ∈ packages ∧ row.reviewId = reviewId := by
  simp [rowsOf]

theorem rowsOf_concat (packages : List PackageRow) (row : PackageRow) (reviewId : Uuid) :
    rowsOf (packages ++ [row]) reviewId =
      rowsOf packages reviewId ++ if row.reviewId = reviewId then [row] else [] := by
  by_cases own : row.reviewId = reviewId <;> simp [rowsOf, own]

/-- Changes that keep the review of a row keep the packages of each review together. -/
theorem rowsOf_map (packages : List PackageRow) {change : PackageRow → PackageRow}
    (keeps : ∀ row, (change row).reviewId = row.reviewId) (reviewId : Uuid) :
    rowsOf (packages.map change) reviewId = (rowsOf packages reviewId).map change := by
  rw [rowsOf, rowsOf, List.filter_map]
  congr 1
  refine List.filter_congr fun row _ => ?_
  simp [keeps]

/-- What stands in the way of no package of the candidate: the rows of its review are those that
the migration saw, and its objects and the new key are free. -/
structure Free (candidate : Candidate) (store : Store φ) (packageId : Uuid) : Prop where
  unique : store.tables.packages.Pairwise fun one other => ¬ one.Clashes other.toFinalPackageRecord
  own : rowsOf store.tables.packages candidate.workflow.reviewId = candidate.package.toList
  tenant : ∀ package ∈ candidate.package,
    package.organizationId = candidate.workflow.organizationId ∧
      package.workspaceId = candidate.workflow.workspaceId
  keys : ∀ row ∈ store.tables.packages, row.reviewId ≠ candidate.workflow.reviewId →
    row.manifestKey ≠ candidate.manifestKey ∧ row.pdfKey ≠ candidate.pdfKey
  objects : ∀ object ∈ store.objects.rows, ¬ candidate.Owns object.key
  packageIds : ∀ row ∈ store.tables.packages, row.id ≠ packageId

/-- The updates of package rows that the delivery of a candidate comes to. -/
def updatesFor (candidate : Candidate) (row : PackageRow) : List PackageUpdate :=
  match candidate.package with
  | none => []
  | some package => if row = package then [] else [⟨package, row⟩]

/-- What `commit` makes of the store, with the row of the package. -/
structure Commits (candidate : Candidate) (prepared : PreparedFinalPackage φ) (packageId : Uuid)
    (before after : Store φ) (row : PackageRow) : Prop where
  tables : ∃ packages, after.tables = { before.tables with packages }
  unique : after.tables.packages.Pairwise fun one other => ¬ one.Clashes other.toFinalPackageRecord
  own : rowsOf after.tables.packages candidate.workflow.reviewId = [row]
  others : ∀ reviewId ≠ candidate.workflow.reviewId,
    rowsOf after.tables.packages reviewId = rowsOf before.tables.packages reviewId
  manifestKey : prepared.manifestKey = candidate.manifestKey
  pdfKey : prepared.pdfKey = candidate.pdfKey
  objects : after.objects.rows = before.objects.rows ++ prepared.objects
  fits : Fits candidate prepared row
  drawn : candidate.package = none → row.id = packageId

theorem clashes_comm {one other : FinalPackageRecord} : one.Clashes other ↔ other.Clashes one := by
  simp only [FinalPackageRecord.Clashes, eq_comm]

instance : Std.Symm fun one other : PackageRow => ¬ one.Clashes other.toFinalPackageRecord where
  symm _ _ apart clash := apart (clashes_comm.mp clash)

theorem Fits.clashes {row old : PackageRow} (fits : Fits candidate prepared row)
    (apart : old.id ≠ row.id) (review : old.reviewId ≠ candidate.workflow.reviewId)
    (keys : old.manifestKey ≠ candidate.manifestKey ∧ old.pdfKey ≠ candidate.pdfKey) :
    ¬ old.Clashes row.toFinalPackageRecord := by
  intro clash
  rw [FinalPackageRecord.Clashes, fits.reviewId, fits.manifestKey, fits.pdfKey] at clash
  tauto

theorem commitPackage_new {store : Store φ} {packageId : Uuid} (now : Time)
    (ready : PreparedFor codec candidate event prepared) (first : candidate.package = none)
    (free : Free candidate store packageId) :
    ∃ after row, commitPackage codec store prepared packageId now = .ok (after, []) ∧
      Commits candidate prepared packageId store after row := by
  obtain ⟨grown, ensured, objects⟩ := ensureObjects_new ready free.objects
  obtain ⟨row, made, id, fits⟩ := packageRow_fits ready first packageId now
  have empty : rowsOf store.tables.packages candidate.workflow.reviewId = [] := by
    rw [free.own, first, Option.toList_none]
  have absent : ∀ old ∈ store.tables.packages, old.reviewId ≠ candidate.workflow.reviewId := by
    intro old member same
    have own := mem_rowsOf.mpr ⟨member, same⟩
    rw [empty] at own
    cases own
  have apart : ∀ old ∈ store.tables.packages, ¬ old.Clashes row := fun old member =>
    fits.clashes (id ▸ free.packageIds old member) (absent old member)
      (free.keys old member (absent old member))
  have existing : existingPackage codec.toPackageCodec
      (store.tables.packages.map (·.toFinalPackageRecord)) prepared = .ok none := by
    have missing : ((store.tables.packages.map (·.toFinalPackageRecord)).find? fun old =>
        old.reviewId = candidate.workflow.reviewId) = none := by
      simpa [List.find?_eq_none] using absent
    simp [existingPackage, columnUuid_of_lookup ready.reads.reviewId, bind, Except.bind, missing,
      ready.repair, first]
  have inserted : insertPackage store.tables ⟨row, now⟩ =
      .ok { store.tables with packages := store.tables.packages ++ [⟨row, now⟩] } :=
    if_neg fun ⟨old, member, clash⟩ => apart old member clash
  refine ⟨⟨_, grown, PackageSystem.recordAudit store.audit prepared packageId⟩, ⟨row, now⟩, ?_,
    ⟨⟨store.tables.packages ++ [⟨row, now⟩], rfl⟩, ?_, ?_, ?_, ready.manifestKey, ready.pdfKey,
      objects, fits, fun _ => id⟩⟩
  · simp only [commitPackage, existing, ensured, made, inserted, bind, Except.bind]
    rfl
  · refine List.pairwise_append.mpr ⟨free.unique, List.pairwise_singleton .., ?_⟩
    intro old member last same
    rw [List.mem_singleton.mp same]
    exact apart old member
  · rw [rowsOf_concat, empty, if_pos fits.reviewId, List.nil_append]
  · intro reviewId other
    rw [rowsOf_concat, if_neg fun same => other (same.symm.trans fits.reviewId), List.append_nil]

/-! The repair of a row -/

theorem arrowText_of_arrow {value : Option (Json φ)} {key text : String}
    (held : arrow value key = some (.string text)) : arrowText codec value key = some text := by
  rw [arrowText, held]

/-- The texts of a repair, as the trigger reads them. -/
theorem arrowText_repair {package : PackageRow} {manifestChecksum pdfChecksum : String}
    {repair : Fields φ} (same : SameFields (repairOf package manifestChecksum pdfChecksum) repair)
    {key text : String}
    (listed : (repairOf package manifestChecksum pdfChecksum : Fields φ).lookup key =
      some (.string text)) : arrowText codec (some (.object repair)) key = some text :=
  arrowText_of_arrow (same.lookup_string listed)

/-- The update of the worker passes the trigger. -/
theorem repairs_repaired (heads : Heads candidate event)
    (ready : PreparedFor codec candidate event prepared) {package : PackageRow}
    (reads : ReadsRepair candidate event package prepared)
    (organizationId : package.organizationId = candidate.workflow.organizationId)
    (workspaceId : package.workspaceId = candidate.workflow.workspaceId)
    (reviewId : package.reviewId = candidate.workflow.reviewId) :
    repairs codec (some prepared.eventId.str) event candidate.workflow package
      (repaired codec prepared package) = true := by
  obtain ⟨repair, repairAt, same⟩ := reads.repair
  obtain ⟨manifest, manifestAt, state⟩ := reads.manifest
  have shown : arrowText codec (some (.object manifest)) "state" =
      some candidate.workflow.state := arrowText_of_arrow state
  have texts (key : String) {text : String} (listed : (repairOf package prepared.manifestChecksum
      prepared.pdfChecksum : Fields φ).lookup key = some (.string text)) :
      arrowText codec (some (.object repair)) key = some text := arrowText_repair same listed
  simp only [repairs, repairAt, manifestAt, shown, texts "source" rfl,
    texts "package_id" rfl, texts "legacy_workflow_id" rfl,
    texts "legacy_state" rfl, texts "legacy_manifest_key" rfl,
    texts "legacy_pdf_key" rfl, texts "legacy_manifest_checksum" rfl,
    texts "legacy_pdf_checksum" rfl, texts "manifest_checksum" rfl,
    texts "pdf_checksum" rfl, ready.eventId, heads.eventType, heads.unprocessed,
    heads.idempotencyKey, heads.organizationId, heads.workspaceId, heads.workflowId,
    heads.manifestKey, heads.pdfKey, organizationId, workspaceId, reviewId, repaired, repairedRow,
    ready.workflowId, ready.manifestKey, ready.pdfKey, get_of_lookup ready.reads.state,
    PackageCodec.str]
  simp

section Repair

variable {store : Store φ} {packageId : Uuid} {package : PackageRow}

/-- The rows of a table with one repaired. -/
def repairedPackages (codec : BackfillCodec φ) (prepared : PreparedFinalPackage φ)
    (package : PackageRow) (packages : List PackageRow) : List PackageRow :=
  packages.map fun row => if row = package then repaired codec prepared row else row

theorem rowsOf_repairedPackages (packages : List PackageRow) (reviewId : Uuid) :
    rowsOf (repairedPackages codec prepared package packages) reviewId =
      repairedPackages codec prepared package (rowsOf packages reviewId) := by
  refine rowsOf_map packages (fun row => ?_) reviewId
  split
  · rename_i here
    rw [here]
    rfl
  · rfl

/-- A table without the row is left as it is, and so is one that has the repair already. -/
theorem repairedPackages_of_same {packages : List PackageRow}
    (spared : ∀ row ∈ packages, row = package → repaired codec prepared package = package) :
    repairedPackages codec prepared package packages = packages := by
  refine (List.map_congr_left fun row member => ?_).trans (List.map_id _)
  split
  · rename_i here
    rw [here, spared row member here]
    rfl
  · rfl

theorem Free.legacy (free : Free candidate store packageId)
    (legacy : candidate.package = some package) :
    package ∈ store.tables.packages ∧ package.reviewId = candidate.workflow.reviewId := by
  have own : package ∈ rowsOf store.tables.packages candidate.workflow.reviewId := by
    rw [free.own, legacy]
    exact List.mem_singleton_self _
  exact mem_rowsOf.mp own

theorem Free.eq_of_clashes (free : Free candidate store packageId) {one other : PackageRow}
    (first : one ∈ store.tables.packages) (second : other ∈ store.tables.packages)
    (clash : one.Clashes other.toFinalPackageRecord) : one = other := by
  by_contra differ
  exact free.unique.forall first second differ clash

theorem toRepair_iff (ready : PreparedFor codec candidate event prepared)
    (free : Free candidate store packageId) (legacy : candidate.package = some package)
    {row : PackageRow} (member : row ∈ store.tables.packages) :
    ToRepair prepared package.toFinalPackageRecord row.toFinalPackageRecord ↔ row = package := by
  have asked : prepared.repair.map (·.packageId) = some package.id := by
    rw [ready.repair, legacy]
    rfl
  rw [ToRepair, asked, Option.some_inj]
  constructor
  · rintro ⟨id, -⟩
    exact free.eq_of_clashes member (free.legacy legacy).1 (.inl id)
  · rintro rfl
    exact ⟨rfl, rfl, rfl, rfl, rfl⟩

theorem repaired_unique (ready : PreparedFor codec candidate event prepared)
    (free : Free candidate store packageId) (legacy : candidate.package = some package) :
    (repairedPackages codec prepared package store.tables.packages).Pairwise
      fun one other => ¬ one.Clashes other.toFinalPackageRecord := by
  obtain ⟨held, review⟩ := free.legacy legacy
  have tenant := free.tenant package legacy
  have fits := repaired_fits ready legacy tenant.1 tenant.2 review
  have spared : ∀ old ∈ store.tables.packages, old ≠ package →
      ¬ old.Clashes (repaired codec prepared package).toFinalPackageRecord := by
    intro old member other
    have unlike : old.reviewId ≠ candidate.workflow.reviewId := fun same =>
      other (free.eq_of_clashes member held (.inr (.inl (same.trans review.symm))))
    exact fits.clashes (fun same => other (free.eq_of_clashes member held (.inl same))) unlike
      (free.keys old member unlike)
  rw [repairedPackages, List.pairwise_map]
  refine free.unique.imp_of_mem ?_
  intro one other first second apart
  have differ : one ≠ other := by
    rintro rfl
    exact apart (.inl rfl)
  by_cases here : one = package
  · rw [if_pos here, if_neg fun same => differ (here.trans same.symm), here]
    exact fun clash => spared other second (fun same => differ (here.trans same.symm))
      (clashes_comm.mp clash)
  · rw [if_neg here]
    by_cases there : other = package
    · rw [if_pos there, there]
      exact spared one first here
    · rwa [if_neg there]

theorem repairMetadata_ok (heads : Heads candidate event)
    (ready : PreparedFor codec candidate event prepared)
    (free : Free candidate store packageId) (legacy : candidate.package = some package)
    (reads : ReadsRepair candidate event package prepared)
    (waits : event ∈ store.tables.outbox) (held : candidate.workflow ∈ store.tables.workflows) :
    repairMetadata codec store.tables prepared package.toFinalPackageRecord =
      .ok ({ store.tables with
          packages := repairedPackages codec prepared package store.tables.packages },
        [⟨package, repaired codec prepared package⟩]) := by
  obtain ⟨member, review⟩ := free.legacy legacy
  have tenant := free.tenant package legacy
  have hits : store.tables.packages.filter (fun row => Decidable.decide
      (ToRepair prepared package.toFinalPackageRecord row.toFinalPackageRecord)) = [package] := by
    refine eq_singleton_of_mem (List.mem_filter.mpr ⟨member, ?_⟩)
      (length_filter_le_one free.unique ?_)
    · exact decide_eq_true ((toRepair_iff ready free legacy member).mpr rfl)
    · intro one other first second apart
      have first' := (of_decide_eq_true first).1
      have second' := (of_decide_eq_true second).1
      exact apart (.inl (Option.some.inj (first'.trans second'.symm)))
  have changed : (store.tables.packages.map fun row => if Decidable.decide (ToRepair prepared
        package.toFinalPackageRecord row.toFinalPackageRecord) = true then
          repaired codec prepared row else row) =
      repairedPackages codec prepared package store.tables.packages := by
    refine List.map_congr_left fun row inside => ?_
    simp only [decide_eq_true_eq, toRepair_iff ready free legacy inside]
  have admitted : admitsPackageUpdate codec store.tables (some prepared.eventId.str) package
      (repaired codec prepared package) = true :=
    List.any_eq_true.mpr ⟨event, waits, List.any_eq_true.mpr ⟨candidate.workflow, held, by
      rw [repairs_repaired heads ready reads tenant.1 tenant.2 review, heads.workflowId]
      simp⟩⟩
  have kept := repaired_unique ready free legacy
  unfold repairMetadata
  simp only [hits, changed, List.map_singleton, List.all_cons, List.all_nil, admitted,
    Bool.and_self, if_true, kept, List.length_singleton]

theorem existingPackage_legacy (ready : PreparedFor codec candidate event prepared)
    (free : Free candidate store packageId) (legacy : candidate.package = some package) :
    existingPackage codec.toPackageCodec (store.tables.packages.map (·.toFinalPackageRecord))
      prepared = .ok (some package.toFinalPackageRecord) := by
  have found : (store.tables.packages.map (·.toFinalPackageRecord)).find?
      (fun row => row.reviewId = candidate.workflow.reviewId) =
        some package.toFinalPackageRecord := by
    have first : (rowsOf store.tables.packages candidate.workflow.reviewId).head? =
        some package := by rw [free.own, legacy]; rfl
    rw [rowsOf, List.head?_filter] at first
    rw [List.find?_map]
    exact congrArg (Option.map (·.toFinalPackageRecord)) first
  have asked : prepared.repair = some ⟨package.id, package.metadata⟩ := by
    rw [ready.repair, legacy]
    rfl
  simp [existingPackage, columnUuid_of_lookup ready.reads.reviewId, bind, Except.bind, found, asked]

theorem commitPackage_legacy (now : Time) (heads : Heads candidate event)
    (ready : PreparedFor codec candidate event prepared)
    (free : Free candidate store packageId) (legacy : candidate.package = some package)
    (reads : ReadsRepair candidate event package prepared)
    (waits : event ∈ store.tables.outbox) (held : candidate.workflow ∈ store.tables.workflows) :
    ∃ after, commitPackage codec store prepared packageId now =
        .ok (after, updatesFor candidate (repaired codec prepared package)) ∧
      Commits candidate prepared packageId store after (repaired codec prepared package) := by
  obtain ⟨grown, ensured, objects⟩ := ensureObjects_new ready free.objects
  obtain ⟨-, review⟩ := free.legacy legacy
  have tenant := free.tenant package legacy
  have existing := existingPackage_legacy ready free legacy
  have matched := metadataMatches_iff ready tenant.1 tenant.2 review
  refine ⟨⟨{ store.tables with
        packages := repairedPackages codec prepared package store.tables.packages }, grown,
      PackageSystem.recordAudit store.audit prepared package.id⟩, ?_,
    ⟨⟨_, rfl⟩, repaired_unique ready free legacy, ?_, ?_, ready.manifestKey, ready.pdfKey, objects,
      repaired_fits ready legacy tenant.1 tenant.2 review, by simp [legacy]⟩⟩
  · rw [updatesFor, legacy]
    by_cases same : repaired codec prepared package = package
    · have untouched : repairedPackages codec prepared package store.tables.packages =
          store.tables.packages := repairedPackages_of_same fun _ _ _ => same
      simp only [commitPackage, existing, ensured, bind, Except.bind, matched.mpr same, same,
        untouched, if_true]
      rfl
    · have differs : metadataMatches codec.toPackageCodec package.toFinalPackageRecord prepared =
          false := Bool.eq_false_iff.mpr fun matches_ => same (matched.mp matches_)
      simp only [commitPackage, existing, ensured, bind, Except.bind, differs, if_neg same,
        repairMetadata_ok heads ready free legacy reads waits held]
      rfl
  · rw [rowsOf_repairedPackages, free.own, legacy]
    simp [repairedPackages]
  · intro reviewId other
    rw [rowsOf_repairedPackages]
    refine repairedPackages_of_same fun row inside here => absurd ?_ other
    rw [← (mem_rowsOf.mp inside).2, here, review]

end Repair

end AgreementIntelligence.Reviews.Backfill
