import AgreementIntelligence.Reviews.BackfillPrepared

/-! The events of the migration: one for each workflow that has ended. -/

namespace AgreementIntelligence.Reviews.Backfill
open Identity Lib Lib.Json Lib.Results Lib.Table

/-- The keys of the tables at revision 0034, and the references between them that the migration
follows. -/
structure Schema (db : Tables EventRow) : Prop where
  organizationIds : db.organizations.Nodup
  workflowIds : (db.workflows.map (·.id)).Nodup
  workflowReviews : (db.workflows.map (·.reviewId)).Nodup
  reviewIds : (db.reviews.map (·.id)).Nodup
  packageKeys : db.packages.Pairwise fun one other => ¬ one.Clashes other.toFinalPackageRecord
  eventIds : (db.outbox.map (·.id)).Nodup
  eventKeys : (db.outbox.map (·.idempotencyKey)).Nodup
  workflowOrganization : ∀ workflow ∈ db.workflows, workflow.organizationId ∈ db.organizations
  workflowReview : ∀ workflow ∈ db.workflows, ∃ review ∈ db.reviews, review.id = workflow.reviewId
  packageReview : ∀ package ∈ db.packages, ∃ review ∈ db.reviews, review.id = package.reviewId
  packageWorkflow : ∀ package ∈ db.packages, ∃ workflow ∈ db.workflows,
    workflow.id = package.workflowId
  eventWorkflow : ∀ event ∈ db.outbox, ∃ workflow ∈ db.workflows, workflow.id = event.workflowId

/-- No terminal event is left to be processed. -/
def NothingPending (db : Tables EventRow) : Prop :=
  ∀ event ∈ db.outbox, event.eventType = terminalEvent → event.processedAt.isSome

/-- A workflow that has ended, its review and the package of the review are of one tenant, no
other event has the key of its backfill, and no other package has its objects. -/
structure Coherent (db : Tables EventRow) : Prop where
  review : ∀ workflow ∈ db.workflows, Terminal workflow → ∀ review ∈ db.reviews,
    review.id = workflow.reviewId → review.organizationId = workflow.organizationId ∧
      review.workspaceId = workflow.workspaceId
  package : ∀ workflow ∈ db.workflows, Terminal workflow → ∀ package ∈ db.packages,
    package.reviewId = workflow.reviewId → package.organizationId = workflow.organizationId ∧
      package.workspaceId = workflow.workspaceId
  backfillKeys : ∀ workflow ∈ db.workflows, Terminal workflow → ∀ event ∈ db.outbox,
    event.idempotencyKey ≠ backfillKey workflow.id
  objectKeys : ∀ workflow ∈ db.workflows, Terminal workflow →
    ∀ candidate ∈ candidatesOf db workflow, ∀ package ∈ db.packages,
      package.reviewId ≠ workflow.reviewId →
        package.manifestKey ≠ candidate.manifestKey ∧ package.pdfKey ≠ candidate.pdfKey

/-- The draws of `uuid4` are new, and differ. -/
structure Fresh (uuid4 : Uuid → Uuid) (db : Tables EventRow) : Prop where
  unused : ∀ workflow ∈ db.workflows, ∀ event ∈ db.outbox, event.id ≠ uuid4 workflow.id
  differ : ∀ one ∈ db.workflows, ∀ other ∈ db.workflows, uuid4 one.id = uuid4 other.id →
    one.id = other.id

variable {φ ε : Type} {codec : BackfillCodec φ} {uuid4 : Uuid → Uuid} {now : Time}

/-! One insert -/

theorem backfillEvent_written (codec : BackfillCodec φ) (uuid4 : Uuid → Uuid) (now : Time)
    (db : Tables (OutboxRow φ)) {candidate : Candidate}
    (terminal : Terminal candidate.workflow) :
    ∃ row, backfillEvent codec db uuid4 now candidate = .ok row ∧ Written codec candidate row ∧
      row.id = uuid4 candidate.workflow.id := by
  have frozen : ∃ snapshot, snapshotOf codec candidate (manifestOf candidate
      (contentsOf codec db candidate) (correlationOf db candidate.workflow)
      (uuid4 candidate.workflow.id)) = .ok snapshot := by
    unfold snapshotOf
    cases candidate.package with
    | none => exact ⟨_, rfl⟩
    | some package =>
        obtain ⟨content, report⟩ := report_content terminal (Lib.Sha256.utf8 (dumps codec.floatText
          (.object (manifestOf candidate (contentsOf codec db candidate)
            (correlationOf db candidate.workflow) (uuid4 candidate.workflow.id)))))
        simp only [manifestChecksumOf, report]
        exact ⟨_, rfl⟩
  obtain ⟨snapshot, made⟩ := frozen
  refine ⟨backfillRow codec candidate (correlationOf db candidate.workflow)
    (uuid4 candidate.workflow.id) snapshot now, ?_, ⟨terminal, ?_⟩, rfl⟩
  · simp only [backfillEvent, made, bind, Except.bind]
    rfl
  · exact ⟨_, _, snapshot, now, made, rfl⟩

/-- The key of a backfill is that of one workflow. -/
theorem backfillKey_inj {one other : Uuid} (same : backfillKey one = backfillKey other) :
    one = other := by
  have texts := congrArg String.toList same
  simp only [backfillKey, String.toList_append, List.append_assoc] at texts
  have lengths : one.str.toList.length = other.str.toList.length := by
    rw [String.length_toList, String.length_toList, UuidText.length_str, UuidText.length_str]
  have inner := List.append_cancel_left texts
  exact UuidText.str_inj (String.toList_injective (List.append_inj_left inner lengths))

/-- Nothing is in the way of the events of the candidates. -/
structure Insertable (uuid4 : Uuid → Uuid) (db : Tables (OutboxRow φ))
    (candidates : List Candidate) : Prop where
  terminal : ∀ candidate ∈ candidates, Terminal candidate.workflow
  distinct : (candidates.map (·.workflow.id)).Nodup
  keys : ∀ candidate ∈ candidates, ∀ old ∈ db.outbox,
    old.idempotencyKey ≠ backfillKey candidate.workflow.id
  ids : ∀ candidate ∈ candidates, ∀ old ∈ db.outbox, old.id ≠ uuid4 candidate.workflow.id
  draws : ∀ one ∈ candidates, ∀ other ∈ candidates,
    uuid4 one.workflow.id = uuid4 other.workflow.id → one.workflow.id = other.workflow.id

def Tables.addEvents (db : Tables (OutboxRow φ)) (rows : List (OutboxRow φ)) :
    Tables (OutboxRow φ) :=
  { db with outbox := db.outbox ++ rows }

theorem addEvents_addEvents (db : Tables (OutboxRow φ)) (one other : List (OutboxRow φ)) :
    (db.addEvents one).addEvents other = db.addEvents (one ++ other) := by
  simp [Tables.addEvents]

/-- The event is the one of the candidate, under the uuid4 of its workflow. -/
def WrittenAs (codec : BackfillCodec φ) (uuid4 : Uuid → Uuid) (candidate : Candidate)
    (row : OutboxRow φ) : Prop :=
  Written codec candidate row ∧ row.id = uuid4 candidate.workflow.id

theorem Insertable.of_append {db : Tables (OutboxRow φ)} {first rest : List Candidate}
    (insertable : Insertable uuid4 db (first ++ rest)) : Insertable uuid4 db first where
  terminal candidate member := insertable.terminal candidate (List.mem_append_left _ member)
  distinct := by
    have distinct := insertable.distinct
    rw [List.map_append] at distinct
    exact distinct.of_append_left
  keys candidate member := insertable.keys candidate (List.mem_append_left _ member)
  ids candidate member := insertable.ids candidate (List.mem_append_left _ member)
  draws one member other there := insertable.draws one (List.mem_append_left _ member) other
    (List.mem_append_left _ there)

/-- The events of some candidates are not in the way of the others. -/
theorem Insertable.after {db : Tables (OutboxRow φ)} {first rest : List Candidate}
    (insertable : Insertable uuid4 db (first ++ rest)) {rows : List (OutboxRow φ)}
    (written : ∀ row ∈ rows, ∃ candidate ∈ first, WrittenAs codec uuid4 candidate row) :
    Insertable uuid4 (db.addEvents rows) rest := by
  have apart : ∀ one ∈ first, ∀ other ∈ rest, one.workflow.id ≠ other.workflow.id := by
    have distinct := insertable.distinct
    rw [List.map_append, List.nodup_append] at distinct
    exact fun one member other there => distinct.2.2 _ (List.mem_map_of_mem member) _
      (List.mem_map_of_mem there)
  exact {
    terminal := fun candidate member =>
      insertable.terminal candidate (List.mem_append_right _ member)
    distinct := by
      have distinct := insertable.distinct
      rw [List.map_append] at distinct
      exact distinct.of_append_right
    keys := by
      intro candidate member old there
      cases List.mem_append.mp there with
      | inl old_row => exact insertable.keys candidate (List.mem_append_right _ member) old old_row
      | inr new =>
          obtain ⟨other, held, writes, -⟩ := written old new
          rw [writes.heads.idempotencyKey]
          exact fun same => apart other held candidate member (backfillKey_inj same)
    ids := by
      intro candidate member old there
      cases List.mem_append.mp there with
      | inl old_row => exact insertable.ids candidate (List.mem_append_right _ member) old old_row
      | inr new =>
          obtain ⟨other, held, -, drawn⟩ := written old new
          rw [drawn]
          exact fun same => apart other held candidate member (insertable.draws other
            (List.mem_append_left _ held) candidate (List.mem_append_right _ member) same)
    draws := fun one member other there => insertable.draws one
      (List.mem_append_right _ member) other (List.mem_append_right _ there) }

/-- Each candidate gets its event. -/
theorem backfillEach_ok (codec : BackfillCodec φ) (uuid4 : Uuid → Uuid) (now : Time)
    (candidates : List Candidate) :
    ∀ db : Tables (OutboxRow φ), Insertable uuid4 db candidates →
      ∃ rows, backfillEach codec uuid4 now db candidates = .ok (db.addEvents rows) ∧
        List.Forall₂ (WrittenAs codec uuid4) candidates rows := by
  induction candidates with
  | nil => exact fun db _ => ⟨[], by simp [backfillEach, Tables.addEvents], .nil⟩
  | cons candidate rest ih =>
      intro db insertable
      have member : candidate ∈ candidate :: rest := List.mem_cons_self
      obtain ⟨row, made, written, drawn⟩ :=
        backfillEvent_written codec uuid4 now db (insertable.terminal candidate member)
      have free : ¬ ∃ old ∈ db.outbox, old.idempotencyKey = row.idempotencyKey := by
        rintro ⟨old, there, same⟩
        rw [written.heads.idempotencyKey] at same
        exact insertable.keys candidate member old there same
      have unused : ¬ ∃ old ∈ db.outbox, old.id = row.id := by
        rintro ⟨old, there, same⟩
        exact insertable.ids candidate member old there (same.trans drawn)
      have inserted : insertEvent db row = .ok (db.addEvents [row]) := by
        rw [insertEvent, if_neg free, if_neg unused]
        rfl
      have split : Insertable uuid4 db ([candidate] ++ rest) := insertable
      have own : ∀ event ∈ [row], ∃ other ∈ [candidate], WrittenAs codec uuid4 other event :=
        fun event here =>
          ⟨candidate, List.mem_singleton_self _, List.mem_singleton.mp here ▸ ⟨written, drawn⟩⟩
      have later := split.after own
      obtain ⟨rows, ran, all⟩ := ih (db.addEvents [row]) later
      refine ⟨row :: rows, ?_, .cons ⟨written, drawn⟩ all⟩
      rw [backfillEach, made]
      simp only [bind, Except.bind, inserted, ran, addEvents_addEvents]
      rfl

theorem backfillOrganizations_ok (codec : BackfillCodec φ) (uuid4 : Uuid → Uuid) (now : Time)
    (organizations : List Uuid) :
    ∀ db : Tables (OutboxRow φ), Insertable uuid4 db (organizations.flatMap (candidates db)) →
      ∃ rows, backfillOrganizations codec uuid4 now db organizations = .ok (db.addEvents rows) ∧
        List.Forall₂ (WrittenAs codec uuid4) (organizations.flatMap (candidates db)) rows := by
  induction organizations with
  | nil => exact fun db _ => ⟨[], by simp [backfillOrganizations, Tables.addEvents], .nil⟩
  | cons organizationId rest ih =>
      intro db insertable
      rw [List.flatMap_cons] at insertable
      obtain ⟨rows, ran, first⟩ := backfillEach_ok codec uuid4 now _ db insertable.of_append
      have written : ∀ row ∈ rows, ∃ candidate ∈ candidates db organizationId,
          WrittenAs codec uuid4 candidate row := by
        intro row member
        exact mem_of_forall₂ first member
      obtain ⟨others, ran', later⟩ := ih (db.addEvents rows) (insertable.after written)
      refine ⟨rows ++ others, ?_, ?_⟩
      · rw [backfillOrganizations, ran]
        simp only [bind, Except.bind, ran', addEvents_addEvents]
      · rw [List.flatMap_cons]
        exact List.rel_append first later

/-! The candidates -/

section Candidates

variable {db : Tables ε}

theorem candidatesOf_workflow {workflow : WorkflowRow} {candidate : Candidate}
    (member : candidate ∈ candidatesOf db workflow) :
    candidate.workflow = workflow ∧ candidate.review ∈ reviewsOf db workflow ∧
      candidate.package ∈ leftJoined (packagesOf db workflow) := by
  rw [candidatesOf, List.mem_flatMap] at member
  obtain ⟨review, there, joined⟩ := member
  obtain ⟨package, held, rfl⟩ := List.mem_map.mp joined
  exact ⟨rfl, there, held⟩

/-- A workflow with one review of its tenant, which has at most one package. -/
theorem candidatesOf_single {workflow : WorkflowRow} {review : CaseRow}
    (reviews : reviewsOf db workflow = [review])
    (packages : (packagesOf db workflow).length ≤ 1) :
    ∃ candidate, candidatesOf db workflow = [candidate] := by
  rw [candidatesOf, reviews, List.flatMap_singleton]
  cases found : packagesOf db workflow with
  | nil => exact ⟨_, rfl⟩
  | cons package rest =>
      rw [found, List.length_cons] at packages
      have empty : rest = [] := List.length_eq_zero_iff.mp (by omega)
      rw [empty]
      exact ⟨_, rfl⟩

theorem mem_candidates {organizationId : Uuid} {candidate : Candidate} :
    candidate ∈ candidates db organizationId ↔ ∃ workflow ∈ db.workflows,
      workflow.organizationId = organizationId ∧ Terminal workflow ∧
        candidate ∈ candidatesOf db workflow := by
  simp only [candidates, orderedBy, List.mem_flatMap, List.mem_insertionSort, List.mem_filter,
    decide_eq_true_eq, and_assoc]

theorem workflows_candidates
    (single : ∀ workflow ∈ db.workflows, Terminal workflow →
      ∃ candidate, candidatesOf db workflow = [candidate]) (organizationId : Uuid) :
    (candidates db organizationId).map (·.workflow) =
      orderedBy (·.createdAt) (·.id) (db.workflows.filter fun workflow =>
        workflow.organizationId = organizationId ∧ Terminal workflow) := by
  have each : ∀ workflows : List WorkflowRow, (∀ workflow ∈ workflows, workflow ∈ db.workflows ∧
      Terminal workflow) → (workflows.flatMap (candidatesOf db)).map (·.workflow) = workflows := by
    intro workflows
    induction workflows with
    | nil => exact fun _ => rfl
    | cons workflow rest ih =>
        intro own
        have here := own workflow List.mem_cons_self
        obtain ⟨candidate, found⟩ := single workflow here.1 here.2
        have same := (candidatesOf_workflow (found ▸ List.mem_singleton_self candidate)).1
        rw [List.flatMap_cons, List.map_append, found,
          ih fun other member => own other (List.mem_cons_of_mem _ member)]
        simp [same]
  refine each _ fun workflow member => ?_
  rw [orderedBy, List.mem_insertionSort, List.mem_filter, decide_eq_true_eq] at member
  exact ⟨member.1, member.2.2⟩

/-- Over all organizations there is one candidate for each workflow that has ended. -/
theorem candidates_perm {organizations : List Uuid} (distinct : organizations.Nodup)
    (ids : (db.workflows.map (·.id)).Nodup)
    (covered : ∀ workflow ∈ db.workflows, workflow.organizationId ∈ organizations)
    (single : ∀ workflow ∈ db.workflows, Terminal workflow →
      ∃ candidate, candidatesOf db workflow = [candidate]) :
    ((organizations.flatMap (candidates db)).map (·.workflow)).Perm
      (db.workflows.filter fun workflow => Terminal workflow) := by
  have rows : db.workflows.Nodup := List.Nodup.of_map _ ids
  rw [List.map_flatMap]
  simp only [workflows_candidates single]
  have member (organizationId : Uuid) (workflow : WorkflowRow) :
      workflow ∈ orderedBy (·.createdAt) (·.id) (db.workflows.filter fun workflow =>
        workflow.organizationId = organizationId ∧ Terminal workflow) ↔
      workflow ∈ db.workflows ∧ workflow.organizationId = organizationId ∧ Terminal workflow := by
    rw [orderedBy, List.mem_insertionSort, List.mem_filter, decide_eq_true_eq]
  refine (List.perm_ext_iff_of_nodup (List.nodup_flatMap.mpr ⟨fun organizationId _ => ?_, ?_⟩)
    (rows.filter _)).mpr fun workflow => ?_
  · exact (List.perm_insertionSort _ _).nodup_iff.mpr (rows.filter _)
  · refine distinct.imp fun differ workflow first second => differ ?_
    exact ((member _ workflow).mp first).2.1.symm.trans ((member _ workflow).mp second).2.1
  · simp only [List.mem_flatMap, member, List.mem_filter, decide_eq_true_eq]
    constructor
    · rintro ⟨organizationId, -, held, -, terminal⟩
      exact ⟨held, terminal⟩
    · rintro ⟨held, terminal⟩
      exact ⟨workflow.organizationId, covered workflow held, held, rfl, terminal⟩

end Candidates

/-! The migration -/

section Upgrade

variable {db : Tables EventRow}

theorem candidatesOf_coherent (schema : Schema db) (coherent : Coherent db)
    {workflow : WorkflowRow} (member : workflow ∈ db.workflows) (terminal : Terminal workflow) :
    ∃ candidate, candidatesOf db workflow = [candidate] := by
  obtain ⟨review, there, named⟩ := schema.workflowReview workflow member
  have tenant := coherent.review workflow member terminal review there named
  have reviews : reviewsOf db workflow = [review] := by
    refine eq_singleton_of_mem (List.mem_filter.mpr ⟨there, by simp [named, tenant]⟩) ?_
    refine length_filter_le_one (List.pairwise_map.mp schema.reviewIds) fun one other first second =>
      not_not_intro ?_
    rw [decide_eq_true_eq] at first second
    exact first.1.trans second.1.symm
  refine candidatesOf_single reviews
    (length_filter_le_one schema.packageKeys fun one other first second => not_not_intro ?_)
  rw [decide_eq_true_eq] at first second
  exact .inr (.inl (first.1.trans second.1.symm))

theorem mem_allCandidates {candidate : Candidate} {organizations : List Uuid}
    (member : candidate ∈ organizations.flatMap (candidates db)) :
    candidate.workflow ∈ db.workflows ∧ Terminal candidate.workflow ∧
      candidate ∈ candidatesOf db candidate.workflow := by
  obtain ⟨organizationId, -, here⟩ := List.mem_flatMap.mp member
  obtain ⟨workflow, held, -, terminal, found⟩ := mem_candidates.mp here
  have same := (candidatesOf_workflow found).1
  exact ⟨same ▸ held, same ▸ terminal, same ▸ found⟩

/-- The organizations in the order of the loop. -/
def Tables.ordered (db : Tables ε) : List Uuid :=
  db.organizations.insertionSort fun one other => one.bits.toNat ≤ other.bits.toNat

theorem allCandidates_perm (schema : Schema db) (coherent : Coherent db) :
    ((db.ordered.flatMap (candidates db)).map (·.workflow)).Perm
      (db.workflows.filter fun workflow => Terminal workflow) :=
  candidates_perm ((List.perm_insertionSort _ _).nodup_iff.mpr schema.organizationIds)
    schema.workflowIds
    (fun workflow member => (List.mem_insertionSort _).mpr (schema.workflowOrganization _ member))
    fun _ member terminal => candidatesOf_coherent schema coherent member terminal

theorem insertable_all (schema : Schema db) (coherent : Coherent db) (fresh : Fresh uuid4 db) :
    Insertable uuid4 (db.withColumns : Tables (OutboxRow φ))
      (db.ordered.flatMap (candidates db)) where
  terminal candidate member := (mem_allCandidates member).2.1
  distinct := by
    have ids := (allCandidates_perm schema coherent).map (·.id)
    rw [List.map_map] at ids
    exact ids.nodup_iff.mpr (schema.workflowIds.sublist (List.filter_sublist.map _))
  keys candidate member old there := by
    obtain ⟨held, terminal, -⟩ := mem_allCandidates member
    obtain ⟨event, row, rfl⟩ := List.mem_map.mp there
    exact coherent.backfillKeys _ held terminal event row
  ids candidate member old there := by
    obtain ⟨held, -, -⟩ := mem_allCandidates member
    obtain ⟨event, row, rfl⟩ := List.mem_map.mp there
    exact fresh.unused _ held event row
  draws one member other there :=
    fresh.differ _ (mem_allCandidates member).1 _ (mem_allCandidates there).1

/-- The events that the migration adds: one for each workflow that has ended, no other. -/
structure Adds (codec : BackfillCodec φ) (uuid4 : Uuid → Uuid) (db : Tables EventRow)
    (events : List (OutboxRow φ)) : Prop where
  each : List.Forall₂ (WrittenAs codec uuid4) (db.ordered.flatMap (candidates db)) events
  perm : (events.map (·.workflowId)).Perm
    ((db.workflows.filter fun workflow => Terminal workflow).map (·.id))

theorem upgrade_adds (codec : BackfillCodec φ) (now : Time) (schema : Schema db)
    (idle : NothingPending db) (coherent : Coherent db) (fresh : Fresh uuid4 db) :
    ∃ events, upgrade codec uuid4 now db = .ok (db.withColumns.addEvents events) ∧
      Adds codec uuid4 db events := by
  obtain ⟨events, ran, each⟩ := backfillOrganizations_ok codec uuid4 now db.ordered db.withColumns
    (insertable_all schema coherent fresh)
  have whole : (db.withColumns.addEvents events).outbox.all checked = true := by
    refine List.all_eq_true.mpr fun event member => ?_
    cases List.mem_append.mp member with
    | inl old =>
        obtain ⟨row, held, rfl⟩ := List.mem_map.mp old
        by_cases terminal : row.eventType = terminalEvent
        · simp [checked, addColumns, idle row held terminal]
        · simp [checked, addColumns, terminal]
    | inr new =>
        obtain ⟨candidate, -, written, -⟩ := mem_of_forall₂ each new
        obtain ⟨contents, correlationId, snapshot, at_, -, row⟩ := written.row
        rw [row]
        rfl
  refine ⟨events, ?_, each, ?_⟩
  · rw [upgrade, ← Tables.ordered, ran]
    simp only [bind, Except.bind, whole, if_true]
    rfl
  · have ids := (allCandidates_perm schema coherent).map (·.id)
    rw [List.map_map] at ids
    exact (List.Perm.of_eq (map_of_forall₂ (fun _ _ row => row.1.heads.workflowId) each)).trans ids

end Upgrade

end AgreementIntelligence.Reviews.Backfill
