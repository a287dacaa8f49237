import AgreementIntelligence.Agreements.Inventory

/-! The writes of a deletion on the books: the inventory of the request, the late inventory of
an artifact that a worker still holds, the end of an inventory row, and the purge. -/

namespace AgreementIntelligence.Agreements
open Identity Lib.Table Lib.Text

/-- Nothing that the books account for gets lost on the way from one world to another, and
after the request nothing is stored on the way. -/
structure Keeps (a : Scope) (before after : World) : Prop where
  sound : Sound a after
  accounted : ∀ key, Accounted key before → Accounted key after
  requested : before.db.Requested → after.db.Requested ∧ after.storage ⊆ before.storage

theorem Keeps.refl {a : Scope} {w : World} (sound : Sound a w) : Keeps a w w :=
  ⟨sound, fun _ => id, fun requested => ⟨requested, List.Subset.refl _⟩⟩

theorem Keeps.trans {a : Scope} {first second third : World} (one : Keeps a first second)
    (two : Keeps a second third) : Keeps a first third where
  sound := two.sound
  accounted key accounted := two.accounted key (one.accounted key accounted)
  requested requested :=
    have middle := one.requested requested
    have last := two.requested middle.1
    ⟨last.1, List.Subset.trans last.2 middle.2⟩

section Writes

variable {a : Scope} {w : World}

theorem Keeps.of_quiet {db : Database} (sound : Sound a w) (quiet : Quiet w.db db) :
    Keeps a w { w with db := db } :=
  ⟨Sound.of_quiet quiet sound, fun _ accounted => Accounted.of_quiet quiet accounted,
    fun requested => ⟨quiet.requested_iff.mpr requested, List.Subset.refl _⟩⟩

/-- A write to other tables than the one of agreements. -/
theorem Keeps.write {db : Database} (sound : Sound a { w with db := db })
    (accounted : ∀ key, Accounted key w → Accounted key { w with db := db })
    (agreements : db.agreements = w.db.agreements) : Keeps a w { w with db := db } :=
  ⟨sound, accounted, fun requested => ⟨by
    rw [Database.Requested, show ({ w with db := db } : World).db.agreements = w.db.agreements from
      agreements]
    exact requested, List.Subset.refl _⟩⟩

/-- Workers may learn anything that is sound. -/
theorem Keeps.learn {after : World} (sound : Sound a after) (db : after.db = w.db)
    (storage : after.storage = w.storage) : Keeps a w after where
  sound := sound
  accounted _ accounted :=
    ⟨fun active => db ▸ accounted.before (db ▸ active), fun requested stored =>
      db ▸ accounted.after (db ▸ requested) (storage ▸ stored)⟩
  requested requested := ⟨db ▸ requested, storage ▸ List.Subset.refl _⟩

theorem Keeps.remove (sound : Sound a w) (lost : String) :
    Keeps a w { w with storage := w.storage.filter (· ≠ lost) } :=
  ⟨sound.remove lost, fun _ accounted => accounted.remove lost,
    fun requested => ⟨requested, List.filter_subset_self _⟩⟩

/-- With a request there is exactly one, and it is the one of the agreement. -/
theorem Sound.request (sound : Sound a w) {request : AgreementDeletionRequestRecord}
    (member : request ∈ w.db.deletionRequests) :
    w.db.Requested ∧ w.db.deletionRequests = [request] ∧ request.scope = a := by
  rcases sound.requests with ⟨-, none⟩ | ⟨requested, other, only, scope⟩
  · rw [none] at member
    cases member
  · have same : request = other := by
      rw [only] at member
      exact List.mem_singleton.mp member
    rw [same]
    exact ⟨requested, only, scope⟩

/-! Late inventory -/

section Late

variable {objects : List AgreementDeletionObjectRecord} {next : Nat}
  {request : AgreementDeletionRequestRecord} {context : ArtifactContext}
  {category : ObjectCategory} {key : String} {object old : AgreementDeletionObjectRecord}

/-- A row after late inventory is a row from before, perhaps pending again, or a new one. -/
theorem mem_recordLateObject
    (member : object ∈ recordLateObject objects next request context category key) :
    (∃ old ∈ objects, old.id = object.id ∧ old.deletionId = object.deletionId ∧
        old.category = object.category ∧ old.objectKey = object.objectKey ∧
        (object.state = .pending ∨ object.state = old.state)) ∨
      object.id = next ∧ object.deletionId = request.id ∧ object.state = .pending ∧
        object.category = category ∧ object.objectKey = key := by
  unfold recordLateObject at member
  split at member
  · obtain ⟨old, there, rfl⟩ := List.mem_map.mp member
    refine .inl ⟨old, there, ?_⟩
    split
    · exact ⟨rfl, rfl, rfl, rfl, .inl rfl⟩
    · exact ⟨rfl, rfl, rfl, rfl, .inr rfl⟩
  · rcases List.mem_append.mp member with there | last
    · exact .inl ⟨object, there, rfl, rfl, rfl, rfl, .inr rfl⟩
    · rw [List.mem_singleton.mp last]
      exact .inr ⟨rfl, rfl, rfl, rfl, rfl⟩

/-- A pending row stays pending. -/
theorem recordLateObject_keeps (member : old ∈ objects) (pending : old.state = .pending) :
    old ∈ recordLateObject objects next request context category key := by
  unfold recordLateObject
  split
  · refine List.mem_map.mpr ⟨old, member, if_neg ?_⟩
    simp [pending]
  · exact List.mem_append_left _ member

/-- The late artifact has a pending row. -/
theorem recordLateObject_pending (objects : List AgreementDeletionObjectRecord) (next : Nat)
    (request : AgreementDeletionRequestRecord) (context : ArtifactContext)
    (category : ObjectCategory) (key : String) :
    ∃ object ∈ recordLateObject objects next request context category key,
      object.objectKey = key ∧ object.category = category ∧ object.state = .pending := by
  unfold recordLateObject
  split
  · rename_i listed
    obtain ⟨old, member, facts⟩ := List.any_eq_true.mp listed
    obtain ⟨deletion, sameCategory, sameKey⟩ := of_decide_eq_true facts
    refine ⟨_, List.mem_map_of_mem member, ?_⟩
    split
    · exact ⟨sameKey, sameCategory, rfl⟩
    · rename_i pending
      simp only [deletion, sameCategory, sameKey, true_and, ne_eq, not_not] at pending
      exact ⟨sameKey, sameCategory, pending⟩
  · exact ⟨_, List.mem_append_right _ (List.mem_singleton_self _), rfl, rfl, rfl⟩

theorem recordLateObject_ids (distinct : (objects.map (·.id)).Nodup)
    (below : ∀ object ∈ objects, object.id < next) :
    ((recordLateObject objects next request context category key).map (·.id)).Nodup := by
  unfold recordLateObject
  split
  · rw [List.map_map]
    have same : objects.map ((·.id) ∘ fun object : AgreementDeletionObjectRecord =>
        if object.deletionId = request.id ∧ object.category = category ∧
          object.objectKey = key ∧ object.state ≠ .pending
        then { object with state := .pending, lastError := none } else object) =
          objects.map (·.id) := by
      refine List.map_congr_left fun object _ => ?_
      rw [Function.comp_apply]
      split <;> rfl
    rwa [same]
  · rw [List.map_append, List.map_singleton]
    refine List.nodup_append.mpr ⟨distinct, List.nodup_singleton _, ?_⟩
    intro id here other last same
    rw [List.mem_singleton.mp last] at same
    obtain ⟨object, member, rfl⟩ := List.mem_map.mp here
    exact absurd (below object member) (by rw [same]; exact lt_irrefl _)

end Late

/-- The rows that late inventory writes. -/
def Database.inventoryLate (db : Database) (request : AgreementDeletionRequestRecord)
    (context : ArtifactContext) (category : ObjectCategory) (key : String) (now : Time) :
    Database :=
  { db with
    deletionObjects :=
      recordLateObject db.deletionObjects db.nextObjectId request context category key
    nextObjectId := db.nextObjectId + 1
    deletionRequests := update (·.id) db.deletionRequests request.id (reopen now)
    deletionOutbox := wakeOutbox db.deletionOutbox request.id context.agreementId now }

/-- Late inventory opens the request again and forgets nothing. -/
theorem Sound.inventoryLate (sound : Sound a w) {request : AgreementDeletionRequestRecord}
    (member : request ∈ w.db.deletionRequests) (context : ArtifactContext)
    (category : ObjectCategory) (key : String) (now : Time) :
    Sound a { w with db := w.db.inventoryLate request context category key now } := by
  obtain ⟨requested, only, scope⟩ := sound.request member
  have after : (w.db.inventoryLate request context category key now).deletionRequests =
      [reopen now request] := by
    simp [Database.inventoryLate, only, update]
  refine { sound with
    requests := .inr ⟨requested, reopen now request, after, scope⟩
    deletions := fun deletion held => ?_
    objects := fun object row => ?_
    objectIds := recordLateObject_ids sound.objectIds fun object row =>
      (sound.objects object row).2.1
    listed := fun pair held => ?_
    completed := fun finished => ?_ }
  · obtain ⟨inScope, row, there, named⟩ := sound.deletions deletion held
    rw [only, List.mem_singleton] at there
    refine ⟨inScope, reopen now request, ?_, there ▸ named⟩
    exact after ▸ List.mem_singleton_self _
  · have reopened : reopen now request ∈
        (w.db.inventoryLate request context category key now).deletionRequests :=
      after ▸ List.mem_singleton_self _
    rcases mem_recordLateObject row with ⟨old, there, id, deletion, sameCategory, sameKey, state⟩ |
      ⟨id, deletion, pending, -⟩
    · obtain ⟨⟨known, listed, named⟩, below, gone⟩ := sound.objects old there
      rw [only, List.mem_singleton] at listed
      rw [sameCategory, sameKey] at gone
      refine ⟨⟨_, reopened, by rw [← deletion, ← named, listed]; rfl⟩, ?_, ?_⟩
      · exact lt_of_le_of_lt (le_of_eq id.symm) (Nat.lt_succ_of_lt below)
      · intro nonSource notPending
        rcases state with pending | same
        · exact absurd pending notPending
        · exact gone nonSource (same ▸ notPending)
    · refine ⟨⟨_, reopened, deletion.symm⟩, ?_, fun _ notPending => absurd pending notPending⟩
      exact lt_of_le_of_lt (le_of_eq id) (Nat.lt_succ_self _)
  · obtain ⟨holder, below, alike⟩ := sound.listed pair held
    refine ⟨holder, Nat.lt_succ_of_lt below, fun object row named => ?_⟩
    rcases mem_recordLateObject row with ⟨old, there, id, -, sameCategory, sameKey, -⟩ | ⟨id, -⟩
    · obtain ⟨key, category⟩ := alike old there (id.trans named)
      exact ⟨sameKey.symm.trans key, sameCategory.symm.trans category⟩
    · exact absurd below (by rw [← named, id]; exact lt_irrefl _)
  · obtain ⟨other, row, done⟩ := finished
    rw [show ({ w with db := w.db.inventoryLate request context category key now } :
      World).db.deletionRequests = [reopen now request] from after, List.mem_singleton] at row
    rw [row] at done
    cases done

theorem Accounted.inventoryLate {key : String} (accounted : Accounted key w)
    (request : AgreementDeletionRequestRecord) (context : ArtifactContext)
    (category : ObjectCategory) (late : String) (now : Time) :
    Accounted key { w with db := w.db.inventoryLate request context category late now } where
  before := accounted.before
  after requested stored := by
    rcases accounted.after requested stored with intent | ⟨object, member, facts⟩
    · exact .inl intent
    · exact .inr ⟨object, recordLateObject_keeps member facts.2.2, facts⟩

/-- Late inventory by a worker's call: the artifact is pending, unless it has no category. -/
theorem Keeps.inventory (sound : Sound a w) {context : ArtifactContext} {key : String}
    {now : Time} {after : Database} (done : inventoryLateArtifact w.db context key now = .ok after) :
    Keeps a w { w with db := after } ∧ w.db.Requested ∧ after.intents = w.db.intents ∧
      after.agreements = w.db.agreements ∧
      ∀ category, lateArtifactCategory context.profile key = some category →
        after.PendingObject key := by
  obtain ⟨request, found, outcome⟩ := inventoryLateArtifact_ok done
  have member := (Database.deletionRequest?_eq_some found).1
  have requested := (sound.request member).1
  rcases outcome with ⟨uncategorised, rfl⟩ | ⟨category, known, rfl⟩
  · refine ⟨.refl sound, requested, rfl, rfl, fun category known => ?_⟩
    rw [uncategorised] at known
    cases known
  · refine ⟨.write (sound.inventoryLate member context category key now)
      (fun other accounted => accounted.inventoryLate request context category key now) rfl,
      requested, rfl, rfl, ?_⟩
    intro other same
    have isCategory := (lateArtifactCategory_some known).2.1
    obtain ⟨object, row, named, categorised, pending⟩ := recordLateObject_pending
      w.db.deletionObjects w.db.nextObjectId request context category key
    exact ⟨object, row, named, categorised ▸ isCategory, pending⟩

theorem Keeps.inventoried (sound : Sound a w) {claimed : ProcessingJob}
    {expected : Option CompletedArtifact} {now : Time} {after : Database}
    (inventoried : Inventoried w.db claimed expected now after) : Keeps a w { w with db := after } := by
  cases inventoried with
  | none => exact .refl sound
  | late computed known requested done => exact (Keeps.inventory sound done).1

/-- An intent is reconciled by the inventory row that replaces it. -/
theorem Keeps.reconcile (sound : Sound a w) {intent : ProcessingArtifactIntentRecord}
    {now : Time} {after : Database} (member : intent ∈ w.db.intents)
    (done : reconcileArtifactIntent w.db intent now = .ok after) :
    Keeps a w { w with db := after } := by
  obtain ⟨middle, listed, rfl⟩ := reconcileArtifactIntent_ok done
  obtain ⟨inventory, requested, intents, agreements, pending⟩ := Keeps.inventory sound listed
  refine inventory.trans (.write (inventory.sound.deleteIntent intent.jobId)
    (fun key accounted => accounted.deleteIntent fun other there named keyed => .inr ⟨?_, ?_⟩) rfl)
  · rw [show ({ w with db := middle } : World).db.intents = w.db.intents from intents] at there
    have one := find?_of_mem sound.intentJobs there
    have two := find?_of_mem sound.intentJobs member
    rw [named] at one
    rw [← keyed, Option.some.inj (one.symm.trans two)]
    exact pending _ (sound.intents intent member).2.1
  · rw [Database.Requested, show ({ w with db := middle } : World).db.agreements =
      w.db.agreements from agreements]
    exact requested

theorem Keeps.reconciled (sound : Sound a w) {jobId : Uuid} {now : Time} {after : Database}
    (reconciled : Reconciled w.db jobId now after) : Keeps a w { w with db := after } := by
  cases reconciled with
  | none => exact .refl sound
  | intent member named done => exact .reconcile sound member done

/-- An intent that would be reconciled at once leaves its inventory row only. -/
theorem Keeps.reserveLate (sound : Sound a w) {job : ProcessingJob} {category : ObjectCategory}
    {key : String} {now : Time} {after : Database}
    (absent : ∀ intent ∈ w.db.intents, intent.jobId ≠ job.id)
    (done : reconcileArtifactIntent (w.db.insertIntent (reservation job category key))
      (reservation job category key) now = .ok after) : Keeps a w { w with db := after } := by
  obtain ⟨middle, listed, rfl⟩ := reconcileArtifactIntent_ok done
  obtain ⟨request, found, outcome⟩ := inventoryLateArtifact_ok listed
  have member : request ∈ w.db.deletionRequests := (Database.deletionRequest?_eq_some found).1
  have dropped : (w.db.intents ++ [reservation job category key]).filter
      (fun intent => intent.jobId ≠ job.id) = w.db.intents := by
    rw [List.filter_append, List.filter_eq_self.mpr fun intent there => by
      simpa using absent intent there]
    simp [reservation]
  rcases outcome with ⟨-, rfl⟩ | ⟨known, -, rfl⟩
  · have same : (w.db.insertIntent (reservation job category key)).deleteIntent
        (reservation job category key).jobId = w.db := by
      rw [Database.deleteIntent, Database.insertIntent]
      simp only [show (reservation job category key).jobId = job.id from rfl, dropped]
    rw [same]
    exact .refl sound
  · have same : (({ w.db.insertIntent (reservation job category key) with
          deletionObjects := recordLateObject w.db.deletionObjects w.db.nextObjectId request
            (reservation job category key).context known key
          nextObjectId := w.db.nextObjectId + 1
          deletionRequests := update (·.id) w.db.deletionRequests request.id (reopen now)
          deletionOutbox := wakeOutbox w.db.deletionOutbox request.id job.agreementId now } :
            Database).deleteIntent job.id) =
        w.db.inventoryLate request (reservation job category key).context known key now := by
      rw [Database.deleteIntent, Database.insertIntent, Database.inventoryLate]
      simp only [dropped]
      rfl
    refine .write ?_ (fun other accounted => ?_) rfl
    · exact same ▸ sound.inventoryLate member _ known key now
    · exact same ▸ accounted.inventoryLate request _ known key now

/-! The inventory of the request -/

theorem mem_inventoryRows {deletionId agreementId : Uuid} {next : Nat}
    {objects : List (ObjectCategory × String)} {row : AgreementDeletionObjectRecord}
    (member : row ∈ inventoryRows deletionId agreementId next objects) :
    row.deletionId = deletionId ∧ row.state = .pending ∧ row.id < next + objects.length ∧
      (row.category, row.objectKey) ∈ objects := by
  obtain ⟨i, inside, rfl⟩ := List.mem_mapIdx.mp member
  exact ⟨rfl, rfl, Nat.add_lt_add_left inside next, List.getElem_mem inside⟩

theorem inventoryRows_ids (deletionId agreementId : Uuid) (next : Nat)
    (objects : List (ObjectCategory × String)) :
    ((inventoryRows deletionId agreementId next objects).map (·.id)).Nodup := by
  refine List.pairwise_iff_getElem.mpr fun i j first second earlier => ?_
  simp only [inventoryRows, List.getElem_map, List.getElem_mapIdx]
  omega

theorem inventoryRows_lists (deletionId agreementId : Uuid) (next : Nat)
    {objects : List (ObjectCategory × String)} {category : ObjectCategory} {key : String}
    (member : (category, key) ∈ objects) :
    ∃ row ∈ inventoryRows deletionId agreementId next objects,
      row.objectKey = key ∧ row.category = category ∧ row.state = .pending := by
  obtain ⟨i, inside, here⟩ := List.getElem_of_mem member
  exact ⟨_, List.mem_mapIdx.mpr ⟨i, inside, rfl⟩, by rw [here], by rw [here], rfl⟩

/-- The inventory lists the key of every artifact row. -/
theorem artifact_mem_deletionObjects {db : Database} {agreement : AgreementRecord}
    {row : ProcessingArtifactRecord} {job : ProcessingJobRecord} {category : ObjectCategory}
    (member : row ∈ db.artifacts) (owner : row.agreementId = agreement.id) (here : job ∈ db.jobs)
    (named : job.id = row.jobId) (categorised : artifactCategory job.profile = some category) :
    (category, row.artifactKey) ∈ deletionObjects db agreement := by
  have listed : (category, row.artifactKey) ∈ artifactObjects db agreement.id := by
    refine List.mem_flatMap.mpr ⟨row, List.mem_filter.mpr ⟨member, by simpa using owner⟩, ?_⟩
    refine List.mem_filterMap.mpr ⟨job, List.mem_filter.mpr ⟨here, by simpa using named⟩, ?_⟩
    rw [categorised]
    rfl
  rw [deletionObjects, List.mem_eraseDups]
  simp only [List.mem_append, listed, true_or, or_true]

theorem artifactCategory_ne_source {profile : String} {category : ObjectCategory}
    (categorised : artifactCategory profile = some category) : category ≠ .source := by
  unfold artifactCategory at categorised
  split at categorised
  · cases categorised
    decide
  split at categorised
  · cases categorised
  · cases categorised
    decide

/-- With the request every recorded key is either still reserved or pending. -/
theorem Keeps.accept (sound : Sound a w) {agreement : AgreementRecord}
    (member : agreement ∈ w.db.agreements) (active : agreement.deletionRequestedAt = none)
    (deletionId : Uuid) (now : Time) :
    Keeps a w { w with db := insertDeletion w.db agreement deletionId now } := by
  obtain ⟨requestedAt, one⟩ := sound.one
  obtain ⟨only, single, standing⟩ := List.map_eq_singleton_iff.mp one
  have same : agreement = only := by
    rw [single] at member
    exact List.mem_singleton.mp member
  subst same
  have scope : agreement.scope = a := congrArg Prod.fst standing
  have unrequested : ¬ w.db.Requested := by
    simp [Database.Requested, single, AgreementRecord.standing, active]
  obtain ⟨requests, objects, deletions, listed, removed⟩ := sound.untouched unrequested
  have agreements : (insertDeletion w.db agreement deletionId now).agreements.map
      AgreementRecord.standing = [(a, some now)] := by
    simp [insertDeletion, single, update, AgreementRecord.standing, ← scope, AgreementRecord.scope]
  have requested : (insertDeletion w.db agreement deletionId now).Requested :=
    ⟨(a, some now), agreements ▸ List.mem_singleton_self _, rfl⟩
  have rows : (insertDeletion w.db agreement deletionId now).deletionObjects =
      inventoryRows deletionId agreement.id w.db.nextObjectId (deletionObjects w.db agreement) := by
    simp [insertDeletion, objects]
  refine ⟨{ sound with
    one := ⟨some now, agreements⟩
    requests := .inr ⟨requested, ?_⟩
    deletions := fun deletion held => ?_
    objects := fun object row => ?_
    objectIds := ?_
    listed := fun pair held => ?_
    completed := fun finished => ?_ }, fun key accounted => ⟨fun not => ?_, ?_⟩,
    fun _ => ⟨requested, List.Subset.refl _⟩⟩
  · simp only [insertDeletion, requests, List.nil_append]
    exact ⟨_, rfl, scope⟩
  · rw [show ({ w with db := insertDeletion w.db agreement deletionId now } : World).deletions =
      [] from deletions] at held
    cases held
  · rw [show ({ w with db := insertDeletion w.db agreement deletionId now } :
      World).db.deletionObjects = _ from rows] at row
    obtain ⟨deletion, pending, below, -⟩ := mem_inventoryRows row
    refine ⟨?_, below, fun _ notPending => absurd pending notPending⟩
    simp only [insertDeletion, requests, List.nil_append]
    exact ⟨_, List.mem_singleton_self _, deletion.symm⟩
  · rw [show ({ w with db := insertDeletion w.db agreement deletionId now } :
      World).db.deletionObjects = _ from rows]
    exact inventoryRows_ids _ _ _ _
  · rw [show ({ w with db := insertDeletion w.db agreement deletionId now } : World).listed =
      [] from listed] at held
    cases held
  · obtain ⟨request, row, done⟩ := finished
    simp only [insertDeletion, requests, List.nil_append, List.mem_singleton] at row
    rw [row] at done
    cases done
  · exact absurd requested not
  · intro _ _
    rcases accounted.before unrequested with intent | ⟨row, there, keyed⟩
    · exact .inl intent
    · obtain ⟨owner, job, here, named, categorised⟩ := sound.artifacts row there
      obtain ⟨category, known⟩ := Option.isSome_iff_exists.mp categorised
      have ofAgreement : row.agreementId = agreement.id := by
        rw [owner, ← scope]
        rfl
      have inside := artifact_mem_deletionObjects there ofAgreement here named known
      obtain ⟨object, present, objectKey, isCategory, pending⟩ :=
        inventoryRows_lists deletionId agreement.id w.db.nextObjectId inside
      refine .inr ⟨object, rows ▸ present, objectKey.trans keyed, ?_, pending⟩
      rw [isCategory]
      exact artifactCategory_ne_source known

/-! The end of an inventory row -/

/-- A row may end once its key is gone from storage; source rows end in their own way. -/
theorem Keeps.finish (sound : Sound a w) (deletion : AgreementDeletion) {objectId : Nat}
    (state : DeletionObjectState) (now : Time)
    (gone : ∀ object ∈ w.db.deletionObjects, object.id = objectId →
      object.category ≠ .source → object.objectKey ∉ w.storage) :
    Keeps a w { w with db := finishObject w.db deletion objectId state now } := by
  let ended := fun object : AgreementDeletionObjectRecord =>
    if object.id = objectId ∧ object.deletionId = deletion.id ∧ object.state = .pending then
      { object with state := state, lastError := none }
    else object
  have columns : ∀ object, (ended object).id = object.id ∧
      (ended object).deletionId = object.deletionId ∧
      (ended object).category = object.category ∧
      (ended object).objectKey = object.objectKey := fun object => by
    simp only [ended]
    split <;> exact ⟨rfl, rfl, rfl, rfl⟩
  let leased := fun request : AgreementDeletionRequestRecord =>
    if request.id = deletion.id ∧ request.claimToken = some deletion.claimToken then
      { request with leaseExpiresAt := some (now + deletionLease) }
    else request
  have standing : ∀ request, (leased request).id = request.id ∧
      (leased request).scope = request.scope ∧ (leased request).state = request.state :=
    fun request => by
      simp only [leased]
      split <;> exact ⟨rfl, rfl, rfl⟩
  have objects : (finishObject w.db deletion objectId state now).deletionObjects =
      w.db.deletionObjects.map ended := rfl
  have requests : (finishObject w.db deletion objectId state now).deletionRequests =
      w.db.deletionRequests.map leased := rfl
  refine .write { sound with
    requests := ?_
    deletions := fun other held => ?_
    objects := fun object row => ?_
    objectIds := ?_
    listed := fun pair held => ?_
    completed := fun ⟨request, row, done⟩ => ?_ } (fun key accounted => ⟨accounted.before, ?_⟩) rfl
  · rcases sound.requests with ⟨active, none⟩ | ⟨requested, request, only, scope⟩
    · exact .inl ⟨active, by rw [requests, none]; rfl⟩
    · exact .inr ⟨requested, leased request, by rw [requests, only]; rfl,
        (standing request).2.1.trans scope⟩
  · obtain ⟨scope, request, there, named⟩ := sound.deletions other held
    refine ⟨scope, leased request, List.mem_map_of_mem there, ?_⟩
    exact (standing request).1.trans named
  · obtain ⟨old, there, rfl⟩ := List.mem_map.mp row
    obtain ⟨⟨request, listed, named⟩, below, absent⟩ := sound.objects old there
    obtain ⟨id, ofDeletion, category, key⟩ := columns old
    refine ⟨⟨leased request, List.mem_map_of_mem listed, ?_⟩, ?_, ?_⟩
    · exact (standing request).1.trans (named.trans ofDeletion.symm)
    · exact lt_of_eq_of_lt id below
    · intro nonSource notPending
      rw [show (ended old).objectKey = old.objectKey from key]
      rw [show (ended old).category = old.category from category] at nonSource
      by_cases hit : old.id = objectId ∧ old.deletionId = deletion.id ∧ old.state = .pending
      · exact gone old there hit.1 nonSource
      · have same : ended old = old := if_neg hit
        exact absent nonSource (same ▸ notPending)
  · have ids : (w.db.deletionObjects.map ended).map (·.id) = w.db.deletionObjects.map (·.id) := by
      rw [List.map_map]
      exact List.map_congr_left fun object _ => (columns object).1
    rw [show ({ w with db := finishObject w.db deletion objectId state now } :
      World).db.deletionObjects = w.db.deletionObjects.map ended from objects, ids]
    exact sound.objectIds
  · obtain ⟨holder, below, alike⟩ := sound.listed pair held
    refine ⟨holder, below, fun object row named => ?_⟩
    obtain ⟨old, there, rfl⟩ := List.mem_map.mp row
    obtain ⟨id, -, category, key⟩ := columns old
    obtain ⟨sameKey, sameCategory⟩ := alike old there (id.symm.trans named)
    exact ⟨key.trans sameKey, category.trans sameCategory⟩
  · obtain ⟨old, there, rfl⟩ := List.mem_map.mp row
    obtain ⟨none, intents⟩ := sound.completed ⟨old, there, (standing old).2.2.symm.trans done⟩
    exact ⟨by rw [objects, none]; rfl, intents⟩
  · intro requested stored
    rcases accounted.after requested stored with intent | ⟨object, there, keyed, category, pending⟩
    · exact .inl intent
    · have same : ended object = object := if_neg fun hit =>
        gone object there hit.1 category (keyed ▸ stored)
      exact .inr ⟨object, same ▸ List.mem_map_of_mem there, keyed, category, pending⟩

/-! The purge -/

/-- What the purge leaves of the tables that the books are about. -/
structure Purged (a : Scope) (before after : Database) : Prop where
  agreements : after.agreements.map AgreementRecord.standing =
    before.agreements.map AgreementRecord.standing
  jobs : ∃ keep, after.jobs = before.jobs.filter keep
  artifacts : after.artifacts = before.artifacts.filter fun row => row.agreementId ≠ a.agreementId
  intents : after.intents = before.intents.filter fun row => row.agreementId ≠ a.agreementId
  objects : ∃ id, (∃ request ∈ before.deletionRequests, request.id = id) ∧
    after.deletionObjects = before.deletionObjects.filter fun row => row.deletionId ≠ id
  nextObjectId : after.nextObjectId = before.nextObjectId
  requests : ∃ change : AgreementDeletionRequestRecord → AgreementDeletionRequestRecord,
    (∀ request, (change request).identity = request.identity) ∧
      after.deletionRequests = before.deletionRequests.map change

theorem purgedRows_purged (db : Database) (deletion : AgreementDeletion) (now : Time)
    (request : ∃ request ∈ db.deletionRequests, request.id = deletion.id) :
    Purged deletion.scope db
      ((purgedRows db deletion).updateClaimed deletion (completeRequest now)) where
  agreements := by
    simp only [purgedRows, Database.updateClaimed, List.map_map]
    refine List.map_congr_left fun agreement _ => ?_
    rw [Function.comp_apply]
    split <;> rfl
  jobs := ⟨_, rfl⟩
  artifacts := rfl
  intents := rfl
  objects := ⟨deletion.id, request, rfl⟩
  nextObjectId := rfl
  requests := ⟨_, fun row => by split <;> rfl, rfl⟩

/-- With the inventory exhausted no accounted key is in storage, and the purge may forget. -/
theorem Keeps.purge (sound : Sound a w) {deletion : AgreementDeletion} {now : Time}
    {after : Database} (held : deletion ∈ w.deletions)
    (done : completeAndPurge w.db deletion now = .ok after) :
    Keeps a w { w with db := after } := by
  obtain ⟨scope, known⟩ := sound.deletions deletion held
  rcases completeAndPurge_ok done with ⟨-, rfl⟩ | ⟨-, exhausted, -, same⟩
  · exact .refl sound
  have purged := purgedRows_purged w.db deletion now known
  rw [scope, ← same] at purged
  obtain ⟨request, member, named⟩ := known
  obtain ⟨requested, only, inScope⟩ := sound.request member
  have ofDeletion : ∀ object ∈ w.db.deletionObjects, object.deletionId = deletion.id :=
    fun object there => by
      obtain ⟨other, listed, same⟩ := (sound.objects object there).1
      rw [only, List.mem_singleton] at listed
      rw [← same, listed, named]
  have noObjects : after.deletionObjects = [] := by
    obtain ⟨id, ⟨other, listed, same⟩, rows⟩ := purged.objects
    rw [only, List.mem_singleton] at listed
    rw [rows, List.filter_eq_nil_iff]
    intro object there
    simp [ofDeletion object there, ← same, listed, named]
  have noIntents : after.intents = [] := by
    rw [purged.intents, List.filter_eq_nil_iff]
    intro intent there
    have same : intent.agreementId = a.agreementId :=
      congrArg Scope.agreementId (sound.intents intent there).1
    simpa using same
  have noArtifacts : after.artifacts = [] := by
    rw [purged.artifacts, List.filter_eq_nil_iff]
    intro row there
    simpa using (sound.artifacts row there).1
  obtain ⟨keep, jobs⟩ := purged.jobs
  obtain ⟨change, keeps, requests⟩ := purged.requests
  have stillRequested : after.Requested ↔ w.db.Requested := by
    rw [Database.Requested, Database.Requested, purged.agreements]
  have fewer : ∀ job ∈ after.jobs, job ∈ w.db.jobs := fun job there => by
    rw [jobs] at there
    exact List.mem_of_mem_filter there
  refine ⟨{
    one := purged.agreements ▸ sound.one
    jobIds := by
      rw [show ({ w with db := after } : World).db.jobs = w.db.jobs.filter keep from jobs]
      exact sound.jobIds.sublist (List.filter_sublist.map _)
    claims := fun claim there job row => sound.claims claim there job (fewer job row)
    expected := sound.expected
    intents := by simp [noIntents]
    intentJobs := by simp [noIntents]
    artifacts := by simp [noArtifacts]
    requests := .inr ⟨stillRequested.mpr requested, change request, ?_, ?_⟩
    deletions := fun other there => ?_
    objects := by simp [noObjects]
    objectIds := by simp [noObjects]
    listed := fun pair there => ?_
    removed := sound.removed
    completed := fun _ => ⟨noObjects, noIntents⟩ }, fun key accounted => ⟨fun active => ?_, ?_⟩,
    fun _ => ⟨stillRequested.mpr requested, List.Subset.refl _⟩⟩
  · rw [show ({ w with db := after } : World).db.deletionRequests = _ from requests, only]
    rfl
  · exact (congrArg Prod.snd (keeps request)).trans inScope
  · obtain ⟨otherScope, row, present, same⟩ := sound.deletions other there
    refine ⟨otherScope, change row, requests ▸ List.mem_map_of_mem present, ?_⟩
    exact (congrArg Prod.fst (keeps row)).trans same
  · obtain ⟨holder, below, -⟩ := sound.listed pair there
    exact ⟨holder, purged.nextObjectId ▸ below, by simp [noObjects]⟩
  · exact absurd (stillRequested.mpr requested) active
  · intro _ stored
    exfalso
    rcases accounted.after requested stored with ⟨intent, there, keyed⟩ | ⟨object, there, -, -, pending⟩
    · obtain ⟨inScope, categorised, -⟩ := sound.intents intent there
      have owner : intent.context.scope = deletion.scope := inScope.trans scope.symm
      obtain ⟨object, row, -, category, objectKey⟩ :=
        exhausted.resolved intent there (congrArg Scope.agreementId owner)
          (congrArg Scope.organizationId owner) (congrArg Scope.workspaceId owner)
      have gone := (sound.objects object row).2.2
      rw [category, objectKey, keyed] at gone
      exact gone (lateArtifactCategory_some categorised).2.1
        (exhausted.finished object row (ofDeletion object row)) stored
    · exact exhausted.finished object there (ofDeletion object there) pending

end Writes

end AgreementIntelligence.Agreements
