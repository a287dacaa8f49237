import AgreementIntelligence.Reviews.BackfillSettled

/-! The migration and all deliveries after it, as one run: each workflow that has ended gets its
package once, and no other update of a package passes the trigger on the way. -/

namespace AgreementIntelligence.Reviews.Backfill
open Identity Lib Lib.Json Lib.Results Lib.Table

variable {φ : Type} {codec : BackfillCodec φ} {uuid4 : Uuid → Uuid} {db : Tables EventRow}
  {pairs : List (Candidate × OutboxRow φ)} {events : List (OutboxRow φ)}

/-- Deliveries draw new identifiers for packages. -/
structure Draws (db : Tables EventRow) (deliveries : List Delivery) : Prop where
  differ : (deliveries.map (·.packageId)).Nodup
  unused : ∀ delivery ∈ deliveries, ∀ package ∈ db.packages, package.id ≠ delivery.packageId

theorem run_progress (schema : Schema db) (coherent : Coherent db)
    (pairing : Pairing codec db pairs) (deliveries : List Delivery) :
    ∀ {store : Store φ} {updates : List PackageUpdate} {delivered drawn : List Uuid},
      Progress codec db pairs store updates delivered drawn → Draws db deliveries →
      (∀ delivery ∈ deliveries, delivery.packageId ∉ drawn) →
      ∃ after log, runDeliveries codec store deliveries = .ok (after, log) ∧
        ∃ drawn', Progress codec db pairs after (updates ++ log.flatMap Prod.snd)
          (delivered ++ deliveries.map (·.eventId)) drawn' := by
  induction deliveries with
  | nil =>
      intro store updates delivered drawn progress _ _
      exact ⟨store, [], rfl, drawn, by simpa using progress⟩
  | cons delivery rest ih =>
      intro store updates delivered drawn progress draws undrawn
      have differ := draws.differ
      rw [List.map_cons, List.nodup_cons] at differ
      obtain ⟨next, now, processed, stepped⟩ := process_progress schema coherent pairing progress
        delivery (undrawn _ List.mem_cons_self) (draws.unused _ List.mem_cons_self)
      have later : ∀ other ∈ rest, other.packageId ∉ drawn ++ [delivery.packageId] := by
        intro other member
        rw [List.mem_append, List.mem_singleton, not_or]
        exact ⟨undrawn other (List.mem_cons_of_mem _ member),
          fun same => differ.1 (same ▸ List.mem_map_of_mem member)⟩
      obtain ⟨after, log, ran, drawn', final⟩ := ih stepped
        ⟨differ.2, fun other member => draws.unused other (List.mem_cons_of_mem _ member)⟩ later
      refine ⟨after, (delivery, now) :: log, ?_, drawn', ?_⟩
      · simp only [runDeliveries, processed, ran, bind, Except.bind]
        rfl
      · simpa using final

/-! After the migration -/

/-- The candidates of the migration, each with its event. -/
def pairsOf (db : Tables EventRow) (events : List (OutboxRow φ)) :
    List (Candidate × OutboxRow φ) :=
  (db.ordered.flatMap (candidates db)).zip events

theorem pairing_of_adds (schema : Schema db) (coherent : Coherent db) (fresh : Fresh uuid4 db)
    (adds : Adds codec uuid4 db events) : Pairing codec db (pairsOf db events) := by
  have each := List.forall₂_iff_zip.mp adds.each
  have firsts : (pairsOf db events).map Prod.fst = db.ordered.flatMap (candidates db) :=
    List.map_fst_zip each.1.le
  have seconds : (pairsOf db events).map Prod.snd = events := List.map_snd_zip each.1.ge
  have listed : ∀ pair ∈ pairsOf db events, pair.1 ∈ db.ordered.flatMap (candidates db) :=
    fun pair member => firsts ▸ List.mem_map_of_mem member
  have distinct := (insertable_all (φ := φ) schema coherent fresh).distinct
  exact {
    written := fun pair member => (each.2 member).1
    workflow := fun pair member => (mem_allCandidates (listed pair member)).1
    candidate := fun pair member => (mem_allCandidates (listed pair member)).2.2
    reviews := by
      have reviews := (allCandidates_perm schema coherent).map (·.reviewId)
      rw [← firsts, List.map_map, List.map_map] at reviews
      exact reviews.nodup_iff.mpr (schema.workflowReviews.sublist (List.filter_sublist.map _))
    eventIds := by
      have drawn : (pairsOf db events).map (·.2.id) =
          ((db.ordered.flatMap (candidates db)).map (·.workflow.id)).map uuid4 := by
        rw [← firsts, List.map_map, List.map_map]
        exact List.map_congr_left fun pair member => (each.2 member).2
      rw [drawn]
      refine distinct.map_on fun one first other second same => ?_
      obtain ⟨candidate, here, rfl⟩ := List.mem_map.mp first
      obtain ⟨candidate', there, rfl⟩ := List.mem_map.mp second
      exact fresh.differ _ (mem_allCandidates here).1 _ (mem_allCandidates there).1 same }

/-- No object of a package of the migration is there yet. -/
def Unowned (db : Tables EventRow) (objects : Objects) : Prop :=
  ∀ workflow ∈ db.workflows, Terminal workflow → ∀ candidate ∈ candidatesOf db workflow,
    ∀ object ∈ objects.rows, ¬ candidate.Owns object.key

/-- The package of a candidate is the one of its review, of any tenant. -/
theorem Pairing.rowsOf (schema : Schema db) (coherent : Coherent db)
    (pairing : Pairing codec db pairs) {pair : Candidate × OutboxRow φ} (paired : pair ∈ pairs) :
    rowsOf db.packages pair.1.workflow.reviewId = pair.1.package.toList := by
  have held := pairing.workflow pair paired
  have terminal := (pairing.written pair paired).terminal
  obtain ⟨-, -, joined⟩ := candidatesOf_workflow (pairing.candidate pair paired)
  have same : packagesOf db pair.1.workflow =
      Backfill.rowsOf db.packages pair.1.workflow.reviewId := by
    refine List.filter_congr fun package member => decide_eq_decide.mpr ⟨And.left, fun review => ?_⟩
    exact ⟨review, coherent.package _ held terminal package member review⟩
  have short : (Backfill.rowsOf db.packages pair.1.workflow.reviewId).length ≤ 1 := by
    refine length_filter_le_one schema.packageKeys fun one other first second => not_not_intro ?_
    exact .inr (.inl ((of_decide_eq_true first).trans (of_decide_eq_true second).symm))
  rw [leftJoined, same] at joined
  cases found : Backfill.rowsOf db.packages pair.1.workflow.reviewId with
  | nil =>
      rw [found] at joined
      rw [List.mem_singleton.mp joined]
      rfl
  | cons package rest =>
      rw [found, List.length_cons] at short
      have empty : rest = [] := List.length_eq_zero_iff.mp (by omega)
      rw [found, empty] at joined
      rw [List.mem_singleton.mp joined, empty]
      rfl

theorem progress_of_upgrade (schema : Schema db) (idle : NothingPending db)
    (coherent : Coherent db) (fresh : Fresh uuid4 db) (adds : Adds codec uuid4 db events)
    {objects : Objects} (unowned : Unowned db objects) (audit : List PackageAudit) :
    Progress codec db (pairsOf db events) ⟨db.withColumns.addEvents events, objects, audit⟩
      [] [] [] := by
  have each := List.forall₂_iff_zip.mp adds.each
  have pairing := pairing_of_adds schema coherent fresh adds
  have seconds : (pairsOf db events).map Prod.snd = events := List.map_snd_zip each.1.ge
  have olds : (db.withColumns : Tables (OutboxRow φ)).outbox.map (·.id) =
      db.outbox.map (·.id) := List.map_map ..
  exact {
    workflows := rfl
    reviews := rfl
    eventIds := by
      have news : events.map (·.id) = (pairsOf db events).map (·.2.id) := by
        conv_lhs => rw [← seconds]
        exact List.map_map ..
      refine (List.map_append ..).symm ▸ List.nodup_append.mpr ⟨olds ▸ schema.eventIds,
        news ▸ pairing.eventIds, ?_⟩
      intro id old other new same
      rw [olds] at old
      obtain ⟨event, held, rfl⟩ := List.mem_map.mp old
      obtain ⟨row, there, rfl⟩ := List.mem_map.mp new
      obtain ⟨candidate, listed, -, drawn⟩ := mem_of_forall₂ adds.each there
      exact fresh.unused _ (mem_allCandidates listed).1 event held (same.trans drawn)
    pending := by
      intro event member terminal unprocessed
      cases List.mem_append.mp member with
      | inl old =>
          obtain ⟨row, held, rfl⟩ := List.mem_map.mp old
          have processed := idle row held terminal
          rw [show row.processedAt = none from unprocessed] at processed
          cases processed
      | inr new =>
          rw [← seconds] at new
          obtain ⟨pair, paired, rfl⟩ := List.mem_map.mp new
          exact ⟨pair.1, paired⟩
    unique := schema.packageKeys
    packageIds := fun row member => .inl ⟨row, member, rfl⟩
    packageKeys := fun row member => .inl member
    waits := by
      intro pair paired _
      refine ⟨List.mem_append_right _ (seconds ▸ List.mem_map_of_mem paired),
        pairing.rowsOf schema coherent paired, ?_, rfl⟩
      exact unowned _ (pairing.workflow pair paired) (pairing.written pair paired).terminal _
        (pairing.candidate pair paired)
    settles := fun _ _ done => absurd done List.not_mem_nil }

/-! A tenant with one workflow that has ended and one that has not -/

def sampleCodec : BackfillCodec Unit where
  floatText _ := "0.0"
  otherText _ := "None"
  uuidIn := UuidText.parse?
  isoformat time := toString time
  jsonText _ := ""
  stored fields := fields
  sameDocument one other := one.isSome = other.isSome
  stored_same _ := .refl _
  uuidIn_str := UuidText.parse?_str

def sampleTables : Tables EventRow where
  organizations := [Uuid.ofNat 1]
  workflows :=
    [⟨Uuid.ofNat 20, Uuid.ofNat 1, Uuid.ofNat 10, Uuid.ofNat 30, Uuid.ofNat 40, "approved", 3, 100⟩,
      ⟨Uuid.ofNat 21, Uuid.ofNat 1, Uuid.ofNat 10, Uuid.ofNat 31, Uuid.ofNat 40, "in_review", 1,
        200⟩]
  reviews := [⟨Uuid.ofNat 30, Uuid.ofNat 1, Uuid.ofNat 10, Uuid.ofNat 50, none⟩,
    ⟨Uuid.ofNat 31, Uuid.ofNat 1, Uuid.ofNat 10, Uuid.ofNat 51, none⟩]
  packages := [⟨⟨Uuid.ofNat 60, Uuid.ofNat 1, Uuid.ofNat 10, Uuid.ofNat 30, Uuid.ofNat 20,
    "approved", "old/manifest.json", "old/report.pdf", "0a", "0b"⟩, 150⟩]
  outbox := []
  decisions := []
  stages := []
  assignments := []
  comments := []
  evaluations := []
  findings := []
  auditEvents := []

/-- The uuid4 of a workflow. -/
def sampleDraw (id : Uuid) : Uuid := Uuid.ofNat (id.bits.toNat + 50)

/-- The event of the workflow that has ended, twice. -/
def sampleDeliveries : List Delivery :=
  [⟨Uuid.ofNat 70, Uuid.ofNat 80, 300⟩, ⟨Uuid.ofNat 70, Uuid.ofNat 81, 400⟩]

theorem sample_schema : Schema sampleTables where
  organizationIds := by decide
  workflowIds := by decide
  workflowReviews := by decide
  reviewIds := by decide
  packageKeys := by decide
  eventIds := List.nodup_nil
  eventKeys := List.nodup_nil
  workflowOrganization := by decide
  workflowReview := by decide
  packageReview := by decide
  packageWorkflow := by decide
  eventWorkflow := by simp [sampleTables]

theorem sample_coherent : Coherent sampleTables where
  review := by decide
  package := by decide
  backfillKeys := by simp [sampleTables]
  objectKeys := by
    intro workflow member terminal candidate _ package held differs
    simp only [sampleTables, List.mem_cons, List.not_mem_nil, or_false] at member held
    rcases member with rfl | rfl
    · exact absurd (by rw [held]) differs
    · exact absurd terminal (by decide)

theorem sample_fresh : Fresh sampleDraw sampleTables where
  unused := by simp [sampleTables]
  differ := by decide

theorem sample_idle : NothingPending sampleTables := by
  simp [NothingPending, sampleTables]

theorem sample_unowned : Unowned sampleTables .empty := by
  simp [Unowned, Keyed.empty]

theorem sample_draws : Draws sampleTables sampleDeliveries where
  differ := by decide
  unused := by decide

/-! The run -/

/-- The migration writes one event for each workflow that has ended, and every run of deliveries
after it succeeds: the package of a workflow is settled with the first delivery of its event, and
nothing is written of it before. -/
theorem upgrade_settles (codec : BackfillCodec φ) (now : Time) (schema : Schema db)
    (idle : NothingPending db) (coherent : Coherent db) (fresh : Fresh uuid4 db)
    {objects : Objects} (unowned : Unowned db objects) (audit : List PackageAudit)
    {deliveries : List Delivery} (draws : Draws db deliveries) :
    ∃ events, upgrade codec uuid4 now db = .ok (db.withColumns.addEvents events) ∧
      (events.map (·.workflowId)).Perm
        ((db.workflows.filter fun workflow => Terminal workflow).map (·.id)) ∧
      ∃ store log,
        runDeliveries codec ⟨db.withColumns.addEvents events, objects, audit⟩ deliveries =
          .ok (store, log) ∧
        ∀ pair ∈ pairsOf db events,
          if pair.2.id ∈ deliveries.map (·.eventId) then
            Settles codec pair store (log.flatMap Prod.snd)
          else Waits pair store (log.flatMap Prod.snd) := by
  obtain ⟨events, upgraded, adds⟩ := upgrade_adds codec now schema idle coherent fresh
  have pairing := pairing_of_adds schema coherent fresh adds
  obtain ⟨store, log, ran, drawn, progress⟩ := run_progress schema coherent pairing deliveries
    (progress_of_upgrade schema idle coherent fresh adds unowned audit) draws (by simp)
  refine ⟨events, upgraded, adds.perm, store, log, ran, fun pair paired => ?_⟩
  split
  · rename_i delivered
    exact progress.settles pair paired delivered
  · rename_i undelivered
    exact progress.waits pair paired undelivered

theorem upgrade_settles_sample : ∃ events,
    upgrade sampleCodec sampleDraw 250 sampleTables =
        .ok (sampleTables.withColumns.addEvents events) ∧
      events.map (·.workflowId) = [Uuid.ofNat 20] ∧
      ∃ store log, runDeliveries sampleCodec
          ⟨sampleTables.withColumns.addEvents events, .empty, []⟩ sampleDeliveries =
            .ok (store, log) ∧
        ∀ pair ∈ pairsOf sampleTables events,
          if pair.2.id ∈ sampleDeliveries.map (·.eventId) then
            Settles sampleCodec pair store (log.flatMap Prod.snd)
          else Waits pair store (log.flatMap Prod.snd) := by
  obtain ⟨events, upgraded, perm, settled⟩ := upgrade_settles sampleCodec 250 sample_schema
    sample_idle sample_coherent sample_fresh sample_unowned [] sample_draws
  exact ⟨events, upgraded, List.perm_singleton.mp perm, settled⟩

/-! The trigger on packages -/

/-- What the trigger asks of the event of a candidate comes to the row that the worker writes. -/
theorem repaired_of_repairs {candidate : Candidate} {event : OutboxRow φ}
    {prepared : PreparedFinalPackage φ} (heads : Heads candidate event)
    (ready : PreparedFor codec candidate event prepared) {old new : PackageRow}
    (reads : ReadsRepair candidate event old prepared) {setting : Option String}
    (admits : repairs codec setting event candidate.workflow old new = true) :
    new = repaired codec prepared old := by
  obtain ⟨repair, repairAt, same⟩ := reads.repair
  obtain ⟨manifest, manifestAt, state⟩ := reads.manifest
  have shown : arrowText codec (some (.object manifest)) "state" =
      some candidate.workflow.state := arrowText_of_arrow state
  have manifestSum : arrowText codec (some (.object repair)) "manifest_checksum" =
      some prepared.manifestChecksum := arrowText_repair same rfl
  have pdfSum : arrowText codec (some (.object repair)) "pdf_checksum" =
      some prepared.pdfChecksum := arrowText_repair same rfl
  unfold repairs at admits
  simp only [repairAt, manifestAt, shown, manifestSum, pdfSum, Bool.and_eq_true, decide_eq_true_eq,
    heads.manifestKey, heads.pdfKey, Option.some_inj] at admits
  obtain ⟨⟨⟨⟨⟨⟨⟨⟨⟨⟨⟨-, manifestKey⟩, pdfKey⟩, manifestChecksum⟩, pdfChecksum⟩, id⟩, organizationId⟩,
    workspaceId⟩, reviewId⟩, workflowId⟩, newState⟩, createdAt⟩ := admits
  obtain ⟨⟨newId, _, _, _, _, _, _, _, _, _⟩, _⟩ := new
  simp_all [repaired, repairedRow, ready.workflowId, ready.manifestKey, ready.pdfKey,
    heads.workflowId, get_of_lookup ready.reads.state, PackageCodec.str]

/-- The trigger lets through the updates of the worker for the events that still wait, and no
other. -/
theorem Progress.admits_iff (schema : Schema db) (pairing : Pairing codec db pairs)
    {store : Store φ} {updates : List PackageUpdate} {delivered drawn : List Uuid}
    (progress : Progress codec db pairs store updates delivered drawn) {old : PackageRow}
    (member : old ∈ store.tables.packages) (setting : Option String) (new : PackageRow) :
    admitsPackageUpdate codec store.tables setting old new = true ↔
      ∃ pair ∈ pairs, pair.2.id ∉ delivered ∧ pair.1.package = some old ∧
        setting = some pair.2.id.str ∧ ∃ prepared,
          pair.2.prepare codec pair.1.review.agreementId = .ok prepared ∧
            new = repaired codec prepared old := by
  constructor
  · intro admitted
    obtain ⟨event, inside, found⟩ := List.any_eq_true.mp admitted
    obtain ⟨workflow, held, both⟩ := List.any_eq_true.mp found
    rw [Bool.and_eq_true, decide_eq_true_eq] at both
    obtain ⟨named, admits⟩ := both
    have asks := admits
    simp only [repairs, Bool.and_eq_true, decide_eq_true_eq, Option.isNone_iff_eq_none] at asks
    obtain ⟨candidate, paired, undelivered⟩ :=
      progress.of_pending inside (by tauto) (by tauto)
    have heads := (pairing.written _ paired).heads
    have same : workflow = candidate.workflow :=
      List.inj_on_of_nodup_map schema.workflowIds (progress.workflows ▸ held)
        (pairing.workflow _ paired) (named.trans heads.workflowId)
    subst same
    have own : old ∈ rowsOf store.tables.packages candidate.workflow.reviewId :=
      mem_rowsOf.mpr ⟨member, by tauto⟩
    have legacy : candidate.package = some old := by
      rw [(progress.waits _ paired undelivered).packages] at own
      simpa using own
    obtain ⟨prepared, prepares, ready, reads⟩ :=
      prepare_written (pairing.written _ paired) candidate.review.agreementId
    exact ⟨(candidate, event), paired, undelivered, legacy, by tauto, prepared, prepares,
      repaired_of_repairs heads ready (reads old legacy) admits⟩
  · rintro ⟨pair, paired, undelivered, legacy, rfl, prepared, prepares, rfl⟩
    have written := pairing.written pair paired
    obtain ⟨made, prepares', ready, reads⟩ := prepare_written written pair.1.review.agreementId
    obtain rfl : made = prepared := Except.ok.inj (prepares'.symm.trans prepares)
    have tenant := of_decide_eq_true (List.mem_filter.mp (pairing.package paired legacy)).2
    have admits := repairs_repaired written.heads ready (reads old legacy) tenant.2.1 tenant.2.2
      tenant.1
    rw [ready.eventId] at admits
    refine List.any_eq_true.mpr ⟨pair.2, (progress.waits pair paired undelivered).event,
      List.any_eq_true.mpr ⟨pair.1.workflow, progress.workflows ▸ pairing.workflow pair paired, ?_⟩⟩
    rw [Bool.and_eq_true, decide_eq_true_eq]
    exact ⟨written.heads.workflowId.symm, admits⟩

theorem run_admits_iff (codec : BackfillCodec φ) (now : Time) (schema : Schema db)
    (idle : NothingPending db) (coherent : Coherent db) (fresh : Fresh uuid4 db)
    {objects : Objects} (unowned : Unowned db objects) (audit : List PackageAudit)
    {deliveries : List Delivery} (draws : Draws db deliveries) :
    ∃ events, upgrade codec uuid4 now db = .ok (db.withColumns.addEvents events) ∧
      ∃ store log,
        runDeliveries codec ⟨db.withColumns.addEvents events, objects, audit⟩ deliveries =
          .ok (store, log) ∧
        ∀ old ∈ store.tables.packages, ∀ setting new,
          admitsPackageUpdate codec store.tables setting old new = true ↔
            ∃ pair ∈ pairsOf db events, pair.2.id ∉ deliveries.map (·.eventId) ∧
              pair.1.package = some old ∧ setting = some pair.2.id.str ∧ ∃ prepared,
                pair.2.prepare codec pair.1.review.agreementId = .ok prepared ∧
                  new = repaired codec prepared old := by
  obtain ⟨events, upgraded, adds⟩ := upgrade_adds codec now schema idle coherent fresh
  have pairing := pairing_of_adds schema coherent fresh adds
  obtain ⟨store, log, ran, drawn, progress⟩ := run_progress schema coherent pairing deliveries
    (progress_of_upgrade schema idle coherent fresh adds unowned audit) draws (by simp)
  exact ⟨events, upgraded, store, log, ran, fun old member setting new =>
    progress.admits_iff schema pairing member setting new⟩

theorem run_admits_iff_sample : ∃ events,
    upgrade sampleCodec sampleDraw 250 sampleTables =
        .ok (sampleTables.withColumns.addEvents events) ∧
      ∃ store log, runDeliveries sampleCodec
          ⟨sampleTables.withColumns.addEvents events, .empty, []⟩ sampleDeliveries =
            .ok (store, log) ∧
        ∀ old ∈ store.tables.packages, ∀ setting new,
          admitsPackageUpdate sampleCodec store.tables setting old new = true ↔
            ∃ pair ∈ pairsOf sampleTables events,
              pair.2.id ∉ sampleDeliveries.map (·.eventId) ∧ pair.1.package = some old ∧
                setting = some pair.2.id.str ∧ ∃ prepared,
                  pair.2.prepare sampleCodec pair.1.review.agreementId = .ok prepared ∧
                    new = repaired sampleCodec prepared old :=
  run_admits_iff sampleCodec 250 sample_schema sample_idle sample_coherent sample_fresh
    sample_unowned [] sample_draws

end AgreementIntelligence.Reviews.Backfill
