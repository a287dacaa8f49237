import AgreementIntelligence.Reviews.BackfillDeliveries

/-! Runs of deliveries after the migration. An event waits until it is delivered first; from then
on its package is settled, whatever else is delivered. -/

namespace AgreementIntelligence.Reviews.Backfill
open Identity Lib Lib.Json Lib.Results Lib.Sha256 Lib.Table

variable {φ : Type} {codec : BackfillCodec φ} {db : Tables EventRow} {store after : Store φ}
  {pair : Candidate × OutboxRow φ} {pairs : List (Candidate × OutboxRow φ)}
  {updates now : List PackageUpdate} {delivered drawn : List Uuid}

/-- The package of a candidate as its event has frozen it. -/
structure Packs (codec : BackfillCodec φ) (pair : Candidate × OutboxRow φ) (row : PackageRow) :
    Prop where
  prepared : ∃ prepared, pair.2.prepare codec pair.1.review.agreementId = .ok prepared ∧
    Fits pair.1 prepared row
  frozen : pair.1.package.isSome →
    let repair := arrow (pair.2.packageSnapshot.map Json.object) "repair"
    arrowText codec repair "manifest_checksum" = some row.manifestChecksum ∧
      arrowText codec repair "pdf_checksum" = some row.pdfChecksum

/-- Under the key stands a content with the checksum. -/
def Holds (store : Store φ) (key checksum : String) : Prop :=
  ∃ object ∈ store.objects.rows, object.key = key ∧ hexdigest object.content = checksum

/-- The updates of packages of a review. -/
def updatesOf (updates : List PackageUpdate) (reviewId : Uuid) : List PackageUpdate :=
  updates.filter fun update => update.old.reviewId = reviewId

/-- Nothing is written yet of the package of the candidate. -/
structure Waits (pair : Candidate × OutboxRow φ) (store : Store φ) (updates : List PackageUpdate) :
    Prop where
  event : pair.2 ∈ store.tables.outbox
  packages : rowsOf store.tables.packages pair.1.workflow.reviewId = pair.1.package.toList
  objects : ∀ object ∈ store.objects.rows, ¬ pair.1.Owns object.key
  updates : updatesOf updates pair.1.workflow.reviewId = []

/-- The event is processed and the one package of the review is as the event has frozen it, with
its objects; where the review had a package before, it was updated at most once. -/
structure Settles (codec : BackfillCodec φ) (pair : Candidate × OutboxRow φ) (store : Store φ)
    (updates : List PackageUpdate) : Prop where
  event : ∃ processedAt, { pair.2 with processedAt := some processedAt } ∈ store.tables.outbox
  package : ∃ row, rowsOf store.tables.packages pair.1.workflow.reviewId = [row] ∧
    Packs codec pair row ∧ Holds store row.manifestKey row.manifestChecksum ∧
      Holds store row.pdfKey row.pdfChecksum ∧
        updatesOf updates pair.1.workflow.reviewId = updatesFor pair.1 row

/-! What a step leaves of a candidate -/

/-- A step leaves the event, the packages and the objects of the candidate alone. -/
structure Spares (pair : Candidate × OutboxRow φ) (before after : Store φ)
    (now : List PackageUpdate) : Prop where
  event : ∀ row ∈ before.tables.outbox, row.id = pair.2.id → row ∈ after.tables.outbox
  packages : rowsOf after.tables.packages pair.1.workflow.reviewId =
    rowsOf before.tables.packages pair.1.workflow.reviewId
  objects : ∀ object ∈ after.objects.rows, pair.1.Owns object.key → object ∈ before.objects.rows
  kept : ∀ object ∈ before.objects.rows, object ∈ after.objects.rows
  updates : updatesOf now pair.1.workflow.reviewId = []

theorem updatesOf_append (updates now : List PackageUpdate) (reviewId : Uuid) :
    updatesOf (updates ++ now) reviewId = updatesOf updates reviewId ++ updatesOf now reviewId :=
  List.filter_append ..

theorem Waits.spare (waits : Waits pair store updates) (spares : Spares pair store after now) :
    Waits pair after (updates ++ now) where
  event := spares.event _ waits.event rfl
  packages := spares.packages.trans waits.packages
  objects object member owns := waits.objects object (spares.objects object member owns) owns
  updates := by rw [updatesOf_append, waits.updates, spares.updates, List.append_nil]

theorem Holds.spare {key checksum : String} (holds : Holds store key checksum)
    (spares : Spares pair store after now) : Holds after key checksum := by
  obtain ⟨object, member, keyed⟩ := holds
  exact ⟨object, spares.kept object member, keyed⟩

theorem Settles.spare (settles : Settles codec pair store updates)
    (spares : Spares pair store after now) : Settles codec pair after (updates ++ now) := by
  obtain ⟨⟨processedAt, event⟩, row, own, packs, manifest, pdf, log⟩ := settles
  refine ⟨⟨processedAt, spares.event _ event rfl⟩, row, spares.packages.trans own, packs,
    manifest.spare spares, pdf.spare spares, ?_⟩
  rw [updatesOf_append, log, spares.updates, List.append_nil]

/-! The invariant -/

/-- The events of the migration, each with its candidate. -/
structure Pairing (codec : BackfillCodec φ) (db : Tables EventRow)
    (pairs : List (Candidate × OutboxRow φ)) : Prop where
  written : ∀ pair ∈ pairs, Written codec pair.1 pair.2
  workflow : ∀ pair ∈ pairs, pair.1.workflow ∈ db.workflows
  candidate : ∀ pair ∈ pairs, pair.1 ∈ candidatesOf db pair.1.workflow
  reviews : (pairs.map (·.1.workflow.reviewId)).Nodup
  eventIds : (pairs.map (·.2.id)).Nodup

/-- The store after some deliveries, which have drawn identifiers for packages. -/
structure Progress (codec : BackfillCodec φ) (db : Tables EventRow)
    (pairs : List (Candidate × OutboxRow φ)) (store : Store φ) (updates : List PackageUpdate)
    (delivered drawn : List Uuid) : Prop where
  workflows : store.tables.workflows = db.workflows
  reviews : store.tables.reviews = db.reviews
  eventIds : (store.tables.outbox.map (·.id)).Nodup
  pending : ∀ event ∈ store.tables.outbox, event.eventType = terminalEvent →
    event.processedAt = none → ∃ candidate, (candidate, event) ∈ pairs
  unique : store.tables.packages.Pairwise fun one other => ¬ one.Clashes other.toFinalPackageRecord
  packageIds : ∀ row ∈ store.tables.packages,
    (∃ package ∈ db.packages, package.id = row.id) ∨ row.id ∈ drawn
  packageKeys : ∀ row ∈ store.tables.packages, row ∈ db.packages ∨ ∃ pair ∈ pairs,
    row.reviewId = pair.1.workflow.reviewId ∧ row.manifestKey = pair.1.manifestKey ∧
      row.pdfKey = pair.1.pdfKey
  waits : ∀ pair ∈ pairs, pair.2.id ∉ delivered → Waits pair store updates
  settles : ∀ pair ∈ pairs, pair.2.id ∈ delivered → Settles codec pair store updates

theorem Progress.eq_of_id (progress : Progress codec db pairs store updates delivered drawn)
    {one other : OutboxRow φ} (first : one ∈ store.tables.outbox)
    (second : other ∈ store.tables.outbox) (same : one.id = other.id) : one = other :=
  List.inj_on_of_nodup_map progress.eventIds first second same

/-- An unprocessed terminal event is one of the migration, not delivered yet. -/
theorem Progress.of_pending (progress : Progress codec db pairs store updates delivered drawn)
    {event : OutboxRow φ} (member : event ∈ store.tables.outbox)
    (terminal : event.eventType = terminalEvent) (unprocessed : event.processedAt = none) :
    ∃ candidate, (candidate, event) ∈ pairs ∧ event.id ∉ delivered := by
  obtain ⟨candidate, paired⟩ := progress.pending event member terminal unprocessed
  refine ⟨candidate, paired, fun done => ?_⟩
  obtain ⟨⟨processedAt, there⟩, -⟩ := progress.settles _ paired done
  have same := progress.eq_of_id member there rfl
  rw [same] at unprocessed
  cases unprocessed

/-- The event of a candidate that is not delivered is unprocessed, and so is no other of its
identifier. -/
theorem Progress.event_of_id (pairing : Pairing codec db pairs)
    (progress : Progress codec db pairs store updates delivered drawn) (paired : pair ∈ pairs)
    (undelivered : pair.2.id ∉ delivered) {event : OutboxRow φ}
    (member : event ∈ store.tables.outbox) (same : event.id = pair.2.id) :
    event = pair.2 ∧ event.eventType = terminalEvent ∧ event.processedAt = none := by
  have heads := (pairing.written pair paired).heads
  obtain rfl := progress.eq_of_id member (progress.waits pair paired undelivered).event same
  exact ⟨rfl, heads.eventType, heads.unprocessed⟩

/-! One delivery -/

section Step

variable {objects : Objects}

theorem Pairing.review (pairing : Pairing codec db pairs) (paired : pair ∈ pairs) :
    pair.1.review ∈ db.reviews ∧ pair.1.review.id = pair.1.workflow.reviewId := by
  obtain ⟨-, reviews, -⟩ := candidatesOf_workflow (pairing.candidate pair paired)
  have found := List.mem_filter.mp reviews
  exact ⟨found.1, (of_decide_eq_true found.2).1⟩

theorem Pairing.package (pairing : Pairing codec db pairs) (paired : pair ∈ pairs)
    {package : PackageRow} (legacy : pair.1.package = some package) :
    package ∈ packagesOf db pair.1.workflow := by
  obtain ⟨-, -, joined⟩ := candidatesOf_workflow (pairing.candidate pair paired)
  rw [legacy, leftJoined] at joined
  split at joined
  · cases List.mem_singleton.mp joined
  · simpa using joined

/-- The joins of the worker find the agreement that the migration found. -/
theorem Progress.agreementOf (schema : Schema db) (pairing : Pairing codec db pairs)
    (progress : Progress codec db pairs store updates delivered drawn) (paired : pair ∈ pairs) :
    agreementOf store.tables pair.2 = some pair.1.review.agreementId := by
  obtain ⟨held, named⟩ := pairing.review paired
  have workflow : store.tables.workflows.find? (fun row => row.id = pair.2.workflowId) =
      some pair.1.workflow := by
    rw [progress.workflows, (pairing.written pair paired).heads.workflowId]
    exact find?_of_mem schema.workflowIds (pairing.workflow pair paired)
  have review : store.tables.reviews.find? (fun row => row.id = pair.1.workflow.reviewId) =
      some pair.1.review := by
    rw [progress.reviews, ← named]
    exact find?_of_mem schema.reviewIds held
  simp [Backfill.agreementOf, workflow, review]

theorem Progress.free (coherent : Coherent db) (pairing : Pairing codec db pairs)
    (progress : Progress codec db pairs store updates delivered drawn) (paired : pair ∈ pairs)
    (undelivered : pair.2.id ∉ delivered) {packageId : Uuid} (undrawn : packageId ∉ drawn)
    (unused : ∀ package ∈ db.packages, package.id ≠ packageId) :
    Free pair.1 store packageId where
  unique := progress.unique
  own := (progress.waits pair paired undelivered).packages
  tenant := by
    intro package legacy
    exact (of_decide_eq_true (List.mem_filter.mp (pairing.package paired legacy)).2).2
  keys := by
    intro row member unlike
    cases progress.packageKeys row member with
    | inl old =>
        exact coherent.objectKeys _ (pairing.workflow pair paired)
          (pairing.written pair paired).terminal _ (pairing.candidate pair paired) row old unlike
    | inr new =>
        obtain ⟨other, there, review, manifestKey, pdfKey⟩ := new
        have apart {key : String} (owned : other.1.Owns key) : ¬ pair.1.Owns key := fun own =>
          unlike (review.trans (Candidate.Owns.reviewId owned own))
        exact ⟨fun same => apart (.inl manifestKey) (.inl same),
          fun same => apart (.inr pdfKey) (.inr same)⟩
  objects := (progress.waits pair paired undelivered).objects
  packageIds := by
    intro row member same
    cases progress.packageIds row member with
    | inl old =>
        obtain ⟨package, there, id⟩ := old
        exact unused package there (id.trans same)
    | inr new => exact undrawn (same ▸ new)

/-- The worker prepares and commits the package of a candidate that waits. -/
theorem commit_ok (pairing : Pairing codec db pairs)
    (progress : Progress codec db pairs store updates delivered drawn) (paired : pair ∈ pairs)
    (undelivered : pair.2.id ∉ delivered) {packageId : Uuid}
    (free : Free pair.1 store packageId) (at_ : Time) :
    ∃ prepared after row, pair.2.prepare codec pair.1.review.agreementId = .ok prepared ∧
      commitPackage codec store prepared packageId at_ = .ok (after, updatesFor pair.1 row) ∧
      Commits pair.1 prepared packageId store after row ∧ Packs codec pair row := by
  have written := pairing.written pair paired
  obtain ⟨prepared, prepares, ready, reads⟩ := prepare_written written pair.1.review.agreementId
  have waits := progress.waits pair paired undelivered
  have held : pair.1.workflow ∈ store.tables.workflows :=
    progress.workflows ▸ pairing.workflow pair paired
  cases legacy : pair.1.package with
  | none =>
      obtain ⟨after, row, commits, leaves⟩ := commitPackage_new at_ ready legacy free
      refine ⟨prepared, after, row, prepares, ?_, leaves, ⟨⟨prepared, prepares, leaves.fits⟩, ?_⟩⟩
      · rw [commits, updatesFor, legacy]
      · simp [legacy]
  | some package =>
      obtain ⟨after, commits, leaves⟩ := commitPackage_legacy at_ written.heads ready free legacy
        (reads package legacy) waits.event held
      refine ⟨prepared, after, _, prepares, commits, leaves,
        ⟨⟨prepared, prepares, leaves.fits⟩, fun _ => ?_⟩⟩
      obtain ⟨repair, repairAt, same⟩ := (reads package legacy).repair
      rw [repairAt, leaves.fits.manifestChecksum, leaves.fits.pdfChecksum]
      exact ⟨arrowText_repair same rfl, arrowText_repair same rfl⟩

theorem mem_markProcessed {tables : Tables (OutboxRow φ)} {eventId : Uuid} {at_ : Time}
    {row : OutboxRow φ} : row ∈ (markProcessed tables eventId at_).outbox ↔
      ∃ old ∈ tables.outbox, (if old.id = eventId ∧ old.processedAt = none then
        { old with processedAt := some at_ } else old) = row :=
  List.mem_map

theorem markProcessed_spares {tables : Tables (OutboxRow φ)} {eventId : Uuid} (at_ : Time)
    {row : OutboxRow φ} (member : row ∈ tables.outbox)
    (other : row.id ≠ eventId ∨ row.processedAt.isSome) :
    row ∈ (markProcessed tables eventId at_).outbox := by
  refine mem_markProcessed.mpr ⟨row, member, if_neg ?_⟩
  rintro ⟨same, unprocessed⟩
  simp [same, unprocessed] at other

theorem markProcessed_eventIds (tables : Tables (OutboxRow φ)) (eventId : Uuid) (at_ : Time) :
    (markProcessed tables eventId at_).outbox.map (·.id) = tables.outbox.map (·.id) :=
  map_map_of_keeps fun row _ => by split <;> rfl

/-- What is unprocessed after a mark was so before. -/
theorem mem_of_unprocessed {tables : Tables (OutboxRow φ)} {eventId : Uuid} {at_ : Time}
    {row : OutboxRow φ} (member : row ∈ (markProcessed tables eventId at_).outbox)
    (unprocessed : row.processedAt = none) : row ∈ tables.outbox := by
  obtain ⟨old, there, rfl⟩ := mem_markProcessed.mp member
  split at unprocessed
  · cases unprocessed
  · rename_i unmarked
    rwa [if_neg unmarked]

/-- A delivery spares every candidate but the one whose event it is the first delivery of. -/
structure Steps (codec : BackfillCodec φ) (pairs : List (Candidate × OutboxRow φ))
    (delivered : List Uuid) (eventId : Uuid) (updates now : List PackageUpdate)
    (store after : Store φ) : Prop where
  spares : ∀ pair ∈ pairs, pair.2.id ≠ eventId ∨ pair.2.id ∈ delivered →
    Spares pair store after now
  settles : ∀ pair ∈ pairs, pair.2.id = eventId → pair.2.id ∉ delivered →
    Settles codec pair after (updates ++ now)

theorem Progress.step (progress : Progress codec db pairs store updates delivered drawn)
    {eventId packageId : Uuid} (steps : Steps codec pairs delivered eventId updates now store after)
    (workflows : after.tables.workflows = store.tables.workflows)
    (reviews : after.tables.reviews = store.tables.reviews)
    (eventIds : after.tables.outbox.map (·.id) = store.tables.outbox.map (·.id))
    (pending : ∀ event ∈ after.tables.outbox, event.processedAt = none →
      event ∈ store.tables.outbox)
    (unique : after.tables.packages.Pairwise fun one other =>
      ¬ one.Clashes other.toFinalPackageRecord)
    (rows : ∀ row ∈ after.tables.packages, row ∈ store.tables.packages ∨
      (((∃ package ∈ db.packages, package.id = row.id) ∨ row.id = packageId) ∧
        ∃ pair ∈ pairs, row.reviewId = pair.1.workflow.reviewId ∧
          row.manifestKey = pair.1.manifestKey ∧ row.pdfKey = pair.1.pdfKey)) :
    Progress codec db pairs after (updates ++ now) (delivered ++ [eventId])
      (drawn ++ [packageId]) where
  workflows := workflows.trans progress.workflows
  reviews := reviews.trans progress.reviews
  eventIds := eventIds ▸ progress.eventIds
  pending event member terminal unprocessed :=
    progress.pending event (pending event member unprocessed) terminal unprocessed
  unique := unique
  packageIds := by
    intro row member
    rw [List.mem_append, List.mem_singleton]
    cases rows row member with
    | inl old => exact (progress.packageIds row old).imp_right .inl
    | inr new => exact new.1.imp_right .inr
  packageKeys row member := (rows row member).elim (progress.packageKeys row) fun new => .inr new.2
  waits := by
    intro pair paired undelivered
    simp only [List.mem_append, List.mem_singleton, not_or] at undelivered
    exact (progress.waits pair paired undelivered.1).spare
      (steps.spares pair paired (.inl undelivered.2))
  settles := by
    intro pair paired done
    by_cases before : pair.2.id ∈ delivered
    · exact (progress.settles pair paired before).spare (steps.spares pair paired (.inr before))
    · simp only [List.mem_append, before, List.mem_singleton, false_or] at done
      exact steps.settles pair paired done before

/-- A delivery that finds nothing to do. -/
theorem Progress.idle (progress : Progress codec db pairs store updates delivered drawn)
    {eventId : Uuid} (packageId : Uuid)
    (known : ∀ pair ∈ pairs, pair.2.id = eventId → pair.2.id ∈ delivered) :
    Progress codec db pairs store (updates ++ []) (delivered ++ [eventId])
      (drawn ++ [packageId]) :=
  progress.step ⟨fun _ _ _ => ⟨fun _ member _ => member, rfl, fun _ member _ => member,
      fun _ member => member, rfl⟩, fun pair paired same new => absurd (known pair paired same) new⟩
    rfl rfl rfl (fun _ member _ => member) progress.unique fun _ member => .inl member

/-- An event of another kind is marked only. -/
theorem Progress.mark (pairing : Pairing codec db pairs)
    (progress : Progress codec db pairs store updates delivered drawn) {event : OutboxRow φ}
    (member : event ∈ store.tables.outbox) (other : event.eventType ≠ terminalEvent)
    (packageId : Uuid) (at_ : Time) :
    Progress codec db pairs
      { store with tables := markProcessed store.tables event.id at_ } (updates ++ [])
      (delivered ++ [event.id]) (drawn ++ [packageId]) := by
  have apart : ∀ pair ∈ pairs, pair.2.id ≠ event.id := by
    intro pair paired same
    have heads := (pairing.written pair paired).heads
    by_cases done : pair.2.id ∈ delivered
    · obtain ⟨⟨processedAt, there⟩, -⟩ := progress.settles pair paired done
      exact other (progress.eq_of_id member there same.symm ▸ heads.eventType)
    · exact other (progress.event_of_id pairing paired done member same.symm).2.1
  refine progress.step ⟨fun pair paired _ => ⟨fun row there id => ?_, rfl, fun _ there _ => there,
      fun _ there => there, rfl⟩, fun pair paired same => absurd same (apart pair paired)⟩ rfl rfl
    (markProcessed_eventIds ..) (fun _ there => mem_of_unprocessed there) progress.unique
    fun _ there => .inl there
  exact markProcessed_spares at_ there (.inl (id ▸ apart pair paired))

theorem Commits.rows {prepared : PreparedFinalPackage φ} {packageId : Uuid} {row : PackageRow}
    (commits : Commits pair.1 prepared packageId store after row) {held : PackageRow}
    (member : held ∈ after.tables.packages) : held ∈ store.tables.packages ∨ held = row := by
  by_cases own : held.reviewId = pair.1.workflow.reviewId
  · have listed := mem_rowsOf.mpr ⟨member, own⟩
    rw [commits.own, List.mem_singleton] at listed
    exact .inr listed
  · have listed := mem_rowsOf.mpr ⟨member, rfl⟩
    rw [commits.others _ own] at listed
    exact .inl (mem_rowsOf.mp listed).1

theorem Commits.holds {prepared : PreparedFinalPackage φ} {packageId : Uuid} {row : PackageRow}
    (commits : Commits pair.1 prepared packageId store after row) :
    Holds after row.manifestKey row.manifestChecksum ∧ Holds after row.pdfKey row.pdfChecksum := by
  have fits := commits.fits
  have written : ∀ object ∈ prepared.objects, object ∈ after.objects.rows := fun object member =>
    commits.objects ▸ List.mem_append_right _ member
  constructor
  · refine ⟨_, written _ List.mem_cons_self, ?_, ?_⟩
    · rw [fits.manifestKey, commits.manifestKey]
    · rw [fits.manifestChecksum, prepared.manifestSummed]
  · refine ⟨_, written _ (List.mem_cons_of_mem _ List.mem_cons_self), ?_, ?_⟩
    · rw [fits.pdfKey, commits.pdfKey]
    · rw [fits.pdfChecksum, prepared.pdfSummed]

/-- Each update of a candidate is of the package that its review had. -/
theorem Free.updatesOf {packageId : Uuid} (free : Free pair.1 store packageId) (row : PackageRow)
    (reviewId : Uuid) : updatesOf (updatesFor pair.1 row) reviewId =
      if pair.1.workflow.reviewId = reviewId then updatesFor pair.1 row else [] := by
  unfold updatesFor
  split
  · simp [Backfill.updatesOf]
  · rename_i package legacy
    have review := (free.legacy legacy).2
    by_cases same : row = package <;> by_cases own : pair.1.workflow.reviewId = reviewId <;>
      simp [Backfill.updatesOf, same, own, review]

/-- The first delivery of an event of the migration settles its package. -/
theorem Progress.settle (coherent : Coherent db) (pairing : Pairing codec db pairs)
    (progress : Progress codec db pairs store updates delivered drawn) (paired : pair ∈ pairs)
    (undelivered : pair.2.id ∉ delivered) {packageId : Uuid} (undrawn : packageId ∉ drawn)
    (unused : ∀ package ∈ db.packages, package.id ≠ packageId) (at_ : Time) :
    ∃ prepared after now, pair.2.prepare codec pair.1.review.agreementId = .ok prepared ∧
      commitPackage codec store prepared packageId at_ = .ok (after, now) ∧
      Progress codec db pairs
        { after with tables := markProcessed after.tables pair.2.id at_ } (updates ++ now)
        (delivered ++ [pair.2.id]) (drawn ++ [packageId]) := by
  have waits := progress.waits pair paired undelivered
  have free := progress.free coherent pairing paired undelivered undrawn unused
  obtain ⟨prepared, after, row, prepares, commits, leaves, packs⟩ :=
    commit_ok pairing progress paired undelivered free at_
  obtain ⟨packages, tables⟩ := leaves.tables
  have outbox : after.tables.outbox = store.tables.outbox := by rw [tables]
  have workflows : after.tables.workflows = store.tables.workflows := by rw [tables]
  have reviews : after.tables.reviews = store.tables.reviews := by rw [tables]
  have byId : ∀ other ∈ pairs, other.2.id = pair.2.id → other = pair := fun other there =>
    List.inj_on_of_nodup_map pairing.eventIds there paired
  have byReview : ∀ other ∈ pairs, other.1.workflow.reviewId = pair.1.workflow.reviewId →
      other = pair := fun other there => List.inj_on_of_nodup_map pairing.reviews there paired
  refine ⟨prepared, after, _, prepares, commits, progress.step ⟨?_, ?_⟩ ?_ ?_ ?_ ?_
    leaves.unique ?_⟩
  · intro other there apart
    have differs : other ≠ pair := by
      rintro rfl
      simp [undelivered] at apart
    exact {
      event := fun held member id => markProcessed_spares at_ (outbox ▸ member)
        (.inl fun same => differs (byId other there (id.symm.trans same)))
      packages := leaves.others _ fun same => differs (byReview other there same)
      objects := by
        intro object member owns
        rw [leaves.objects, List.mem_append] at member
        refine member.resolve_right fun new => differs (byReview other there ?_)
        simp only [PreparedFinalPackage.objects, List.mem_cons, List.not_mem_nil, or_false] at new
        rcases new with rfl | rfl
        · exact Candidate.Owns.reviewId owns (.inl leaves.manifestKey)
        · exact Candidate.Owns.reviewId owns (.inr leaves.pdfKey)
      kept := fun object member => leaves.objects ▸ List.mem_append_left _ member
      updates := by
        rw [free.updatesOf, if_neg fun same => differs (byReview other there same.symm)] }
  · intro other there same _
    obtain rfl := byId other there same
    have holds := leaves.holds
    have unprocessed := (pairing.written other paired).heads.unprocessed
    refine ⟨⟨at_, mem_markProcessed.mpr ⟨other.2, outbox ▸ waits.event, if_pos ⟨rfl, unprocessed⟩⟩⟩,
      row, leaves.own, packs, holds.1, holds.2, ?_⟩
    rw [updatesOf_append, waits.updates, List.nil_append, free.updatesOf, if_pos rfl]
  · exact workflows
  · exact reviews
  · exact (markProcessed_eventIds ..).trans (by rw [outbox])
  · exact fun event member unprocessed => outbox ▸ mem_of_unprocessed member unprocessed
  · intro held member
    refine (leaves.rows member).imp_right ?_
    rintro rfl
    have fits := leaves.fits
    refine ⟨?_, pair, paired, fits.reviewId, fits.manifestKey, fits.pdfKey⟩
    cases legacy : pair.1.package with
    | none => exact .inr (leaves.drawn legacy)
    | some package =>
        exact .inl ⟨package, (List.mem_filter.mp (pairing.package paired legacy)).1,
          (fits.legacy package legacy).1.symm⟩

theorem process_progress (schema : Schema db) (coherent : Coherent db)
    (pairing : Pairing codec db pairs)
    (progress : Progress codec db pairs store updates delivered drawn) (delivery : Delivery)
    (undrawn : delivery.packageId ∉ drawn)
    (unused : ∀ package ∈ db.packages, package.id ≠ delivery.packageId) :
    ∃ after now, process codec store delivery = .ok (after, now) ∧
      Progress codec db pairs after (updates ++ now) (delivered ++ [delivery.eventId])
        (drawn ++ [delivery.packageId]) := by
  unfold process
  cases found : store.tables.outbox.find? fun event => event.id = delivery.eventId with
  | none =>
      refine ⟨store, [], rfl, progress.idle _ fun pair paired same => ?_⟩
      by_contra undelivered
      have missing := List.find?_eq_none.mp found _ (progress.waits pair paired undelivered).event
      exact missing (decide_eq_true same)
  | some event =>
      dsimp only
      have member := List.mem_of_find?_eq_some found
      have id : event.id = delivery.eventId := by simpa using List.find?_some found
      -- the event of a candidate that waits is met as it was written
      have waiting : ∀ pair ∈ pairs, pair.2.id = delivery.eventId → pair.2.id ∉ delivered →
          event = pair.2 ∧ event.eventType = terminalEvent ∧ event.processedAt = none :=
        fun pair paired same undelivered =>
          progress.event_of_id pairing paired undelivered member (id.trans same.symm)
      cases joined : agreementOf store.tables event with
      | none =>
          refine ⟨store, [], rfl, progress.idle _ fun pair paired same => ?_⟩
          by_contra undelivered
          obtain ⟨rfl, -⟩ := waiting pair paired same undelivered
          rw [progress.agreementOf schema pairing paired] at joined
          cases joined
      | some agreementId =>
          cases processed : event.processedAt with
          | some processedAt =>
              refine ⟨store, [], rfl, progress.idle _ fun pair paired same => ?_⟩
              by_contra undelivered
              obtain ⟨-, -, unprocessed⟩ := waiting pair paired same undelivered
              rw [processed] at unprocessed
              cases unprocessed
          | none =>
              by_cases terminal : event.eventType = terminalEvent
              · obtain ⟨candidate, paired, undelivered⟩ :=
                  progress.of_pending member terminal processed
                have agreement := progress.agreementOf schema pairing paired
                rw [joined] at agreement
                obtain ⟨prepared, after, now, prepares, commits, settled⟩ :=
                  progress.settle coherent pairing paired undelivered undrawn unused delivery.now
                refine ⟨_, now, ?_, id ▸ settled⟩
                rw [Option.some.inj agreement]
                simp only [terminal, prepares, commits, bind, Except.bind]
                rw [id]
                rfl
              · exact ⟨_, [], if_neg terminal, id ▸ progress.mark
                  pairing member terminal delivery.packageId delivery.now⟩

end Step

end AgreementIntelligence.Reviews.Backfill
