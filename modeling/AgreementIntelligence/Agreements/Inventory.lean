import AgreementIntelligence.Agreements.DeletionCalls
import AgreementIntelligence.Agreements.System

/-! The books that processing and deletion keep on the artifact keys of one agreement. Before
a deletion is requested every reserved key has an intent or an artifact row, which the
inventory of the request will list. After that nothing is written under these keys, and a
key that is still in storage has a pending inventory row or an intent that holds the purge
back. There is one lemma for each kind of write: whatever it is part of, it keeps the books. -/

namespace AgreementIntelligence.Agreements
open Identity Lib.Table Lib.Text

/-! Columns that never change -/

def ArtifactContext.scope (context : ArtifactContext) : Scope :=
  ⟨context.agreementId, context.organizationId, context.workspaceId⟩

def ProcessingJobRecord.identity (job : ProcessingJobRecord) : Uuid × ArtifactContext :=
  (job.id, job.context)

def ProcessingArtifactIntentRecord.identity (intent : ProcessingArtifactIntentRecord) :
    ProcessingArtifactIntentRecord :=
  { intent with state := .expected }

def AgreementDeletionObjectRecord.identity (object : AgreementDeletionObjectRecord) :
    AgreementDeletionObjectRecord :=
  { object with lastError := none }

def AgreementDeletionRequestRecord.identity (request : AgreementDeletionRequestRecord) :
    Uuid × Scope :=
  (request.id, request.scope)

/-- Some agreement is deletion-requested. -/
def Database.Requested (db : Database) : Prop :=
  ∃ standing ∈ db.agreements.map AgreementRecord.standing, standing.2.isSome = true

def Database.DeletionCompleted (db : Database) : Prop :=
  ∃ request ∈ db.deletionRequests, request.state = .completed

/-! The books -/

/-- What the workers and the tables agree on, for the one agreement of the database. -/
structure Sound (a : Scope) (w : World) : Prop where
  one : ∃ requestedAt, w.db.agreements.map AgreementRecord.standing = [(a, requestedAt)]
  jobIds : (w.db.jobs.map (·.id)).Nodup
  claims : ∀ claim ∈ w.claims, ∀ job ∈ w.db.jobs, job.id = claim.id → job.context = claim.context
  expected : ∀ pair ∈ w.expected, pair.1 ∈ w.claims ∧
    (lateArtifactCategory pair.1.profile pair.2.key = none →
      startsWith pair.1.profile embeddingReindexProfilePrefix = true)
  intents : ∀ intent ∈ w.db.intents, intent.context.scope = a ∧
    lateArtifactCategory intent.profile intent.artifactKey = some intent.category ∧
    ∀ job ∈ w.db.jobs, job.id = intent.jobId → job.profile = intent.profile
  intentJobs : (w.db.intents.map (·.jobId)).Nodup
  artifacts : ∀ row ∈ w.db.artifacts, row.agreementId = a.agreementId ∧
    ∃ job ∈ w.db.jobs, job.id = row.jobId ∧ (artifactCategory job.profile).isSome = true
  requests : ¬ w.db.Requested ∧ w.db.deletionRequests = [] ∨
    w.db.Requested ∧ ∃ request, w.db.deletionRequests = [request] ∧ request.scope = a
  deletions : ∀ deletion ∈ w.deletions, deletion.scope = a ∧
    ∃ request ∈ w.db.deletionRequests, request.id = deletion.id
  objects : ∀ object ∈ w.db.deletionObjects,
    (∃ request ∈ w.db.deletionRequests, request.id = object.deletionId) ∧
    object.id < w.db.nextObjectId ∧
    (object.category ≠ .source → object.state ≠ .pending → object.objectKey ∉ w.storage)
  objectIds : (w.db.deletionObjects.map (·.id)).Nodup
  listed : ∀ pair ∈ w.listed, pair.1 ∈ w.deletions ∧ pair.2.id < w.db.nextObjectId ∧
    ∀ object ∈ w.db.deletionObjects, object.id = pair.2.id →
      object.objectKey = pair.2.objectKey ∧ object.category = pair.2.category
  removed : ∀ pair ∈ w.removed, pair ∈ w.listed ∧ pair.2.objectKey ∉ w.storage
  completed : w.db.DeletionCompleted → w.db.deletionObjects = [] ∧ w.db.intents = []

/-- An intent or an artifact row keeps the key. -/
def Database.Recorded (db : Database) (key : String) : Prop :=
  (∃ intent ∈ db.intents, intent.artifactKey = key) ∨ ∃ row ∈ db.artifacts, row.artifactKey = key

/-- An inventory row other than a source has the key to be removed. -/
def Database.PendingObject (db : Database) (key : String) : Prop :=
  ∃ object ∈ db.deletionObjects, object.objectKey = key ∧ object.category ≠ .source ∧
    object.state = .pending

/-- A key that has been reserved is accounted for. -/
structure Accounted (key : String) (w : World) : Prop where
  before : ¬ w.db.Requested → w.db.Recorded key
  after : w.db.Requested → key ∈ w.storage →
    (∃ intent ∈ w.db.intents, intent.artifactKey = key) ∨ w.db.PendingObject key

/-! Reading the books -/

section Reading

variable {a : Scope} {w : World} {context : ArtifactContext} {agreement : AgreementRecord}

theorem Database.agreement?_standing {db : Database}
    (found : db.agreement? context.agreementId context.organizationId context.workspaceId =
      some agreement) :
    (context.scope, agreement.deletionRequestedAt) ∈
      db.agreements.map AgreementRecord.standing := by
  obtain ⟨member, id, organization, workspace⟩ := Database.agreement?_eq_some found
  have here : agreement.standing ∈ db.agreements.map AgreementRecord.standing :=
    List.mem_map_of_mem member
  rwa [AgreementRecord.standing, AgreementRecord.scope, id, organization, workspace] at here

theorem Sound.standing_eq (sound : Sound a w) {standing : Scope × Option Time}
    (member : standing ∈ w.db.agreements.map AgreementRecord.standing) :
    standing.1 = a ∧ (w.db.Requested ↔ standing.2.isSome = true) := by
  obtain ⟨requestedAt, only⟩ := sound.one
  rw [only, List.mem_singleton] at member
  subst member
  exact ⟨rfl, by simp [Database.Requested, only]⟩

theorem Sound.of_requested (sound : Sound a w)
    (requested : w.db.DeletionRequested context agreement) : w.db.Requested ∧ context.scope = a := by
  obtain ⟨scope, iff⟩ := sound.standing_eq (Database.agreement?_standing requested.found)
  exact ⟨iff.mpr requested.requested, scope⟩

theorem Sound.of_active (sound : Sound a w) (active : w.db.Active context agreement) :
    ¬ w.db.Requested ∧ context.scope = a := by
  obtain ⟨scope, iff⟩ := sound.standing_eq (Database.agreement?_standing active.found)
  exact ⟨fun requested => by simp [active.active] at iff; exact iff requested, scope⟩

theorem lateArtifactCategory_some {profile key : String} {category : ObjectCategory}
    (known : lateArtifactCategory profile key = some category) :
    artifactCategory profile = some category ∧ category ≠ .source ∧
      startsWith profile embeddingReindexProfilePrefix = false := by
  unfold lateArtifactCategory at known
  split at known
  · cases known
  rename_i plain
  rw [Bool.or_eq_true, not_or, Bool.not_eq_true, Bool.not_eq_true] at plain
  unfold artifactCategory
  split at known
  · rename_i comparison
    cases known
    exact ⟨if_pos comparison, by decide, plain.1⟩
  · rename_i other
    cases known
    exact ⟨by rw [if_neg other, plain.1]; rfl, by decide, plain.1⟩

/-- Nothing of a deletion exists before it is requested. -/
theorem Sound.untouched (sound : Sound a w) (active : ¬ w.db.Requested) :
    w.db.deletionRequests = [] ∧ w.db.deletionObjects = [] ∧ w.deletions = [] ∧ w.listed = [] ∧
      w.removed = [] := by
  have requests : w.db.deletionRequests = [] := by
    rcases sound.requests with ⟨-, none⟩ | ⟨requested, -⟩
    · exact none
    · exact absurd requested active
  have absent : ∀ {id : Uuid}, ¬ ∃ request ∈ w.db.deletionRequests, request.id = id := by
    simp [requests]
  have objects : w.db.deletionObjects = [] :=
    List.eq_nil_iff_forall_not_mem.mpr fun object member => absent (sound.objects object member).1
  have deletions : w.deletions = [] :=
    List.eq_nil_iff_forall_not_mem.mpr fun d member => absent (sound.deletions d member).2
  have listed : w.listed = [] := List.eq_nil_iff_forall_not_mem.mpr fun pair member => by
    have inside := (sound.listed pair member).1
    simp [deletions] at inside
  have removed : w.removed = [] := List.eq_nil_iff_forall_not_mem.mpr fun pair member => by
    have inside := (sound.removed pair member).1
    simp [listed] at inside
  exact ⟨requests, objects, deletions, listed, removed⟩

/-- An intent of the agreement is what a look-up under its tenant finds. -/
theorem Sound.no_intent (sound : Sound a w) {job : ProcessingJob} (scope : job.context.scope = a)
    (absent : w.db.intent? job.id job.organizationId job.workspaceId = none) :
    ∀ intent ∈ w.db.intents, intent.jobId ≠ job.id := by
  intro intent member named
  have same := (sound.intents intent member).1
  rw [← scope] at same
  rw [Database.intent?, List.find?_eq_none] at absent
  have misses := absent intent member
  have organization : intent.organizationId = job.organizationId := congrArg Scope.organizationId same
  have workspace : intent.workspaceId = job.workspaceId := congrArg Scope.workspaceId same
  simp [named, organization, workspace] at misses

end Reading

/-! Writes that keep the columns the books are about -/

structure Quiet (before after : Database) : Prop where
  agreements : after.agreements.map AgreementRecord.standing =
    before.agreements.map AgreementRecord.standing
  jobs : after.jobs.map (·.identity) = before.jobs.map (·.identity)
  artifacts : after.artifacts = before.artifacts
  intents : after.intents.map (·.identity) = before.intents.map (·.identity)
  objects : after.deletionObjects.map (·.identity) = before.deletionObjects.map (·.identity)
  nextObjectId : after.nextObjectId = before.nextObjectId
  requests : after.deletionRequests.map (·.identity) = before.deletionRequests.map (·.identity)
  completed : after.DeletionCompleted → before.DeletionCompleted

theorem Quiet.refl (db : Database) : Quiet db db :=
  ⟨rfl, rfl, rfl, rfl, rfl, rfl, rfl, id⟩

theorem Quiet.trans {first second third : Database} (one : Quiet first second)
    (two : Quiet second third) : Quiet first third where
  agreements := two.agreements.trans one.agreements
  jobs := two.jobs.trans one.jobs
  artifacts := two.artifacts.trans one.artifacts
  intents := two.intents.trans one.intents
  objects := two.objects.trans one.objects
  nextObjectId := two.nextObjectId.trans one.nextObjectId
  requests := two.requests.trans one.requests
  completed := fun done => one.completed (two.completed done)

theorem Quiet.requested_iff {before after : Database} (quiet : Quiet before after) :
    after.Requested ↔ before.Requested := by
  rw [Database.Requested, Database.Requested, quiet.agreements]

section QuietWrites

variable {a : Scope} {w : World} {db : Database} (quiet : Quiet w.db db)
include quiet

theorem Quiet.job {job : ProcessingJobRecord} (member : job ∈ db.jobs) :
    ∃ old ∈ w.db.jobs, old.id = job.id ∧ old.context = job.context := by
  obtain ⟨old, there, same⟩ := exists_mem_of_map_eq quiet.jobs member
  exact ⟨old, there, congrArg Prod.fst same, congrArg Prod.snd same⟩

theorem Quiet.job' {job : ProcessingJobRecord} (member : job ∈ w.db.jobs) :
    ∃ new ∈ db.jobs, new.id = job.id ∧ new.context = job.context := by
  obtain ⟨new, there, same⟩ := exists_mem_of_map_eq quiet.jobs.symm member
  exact ⟨new, there, congrArg Prod.fst same, congrArg Prod.snd same⟩

theorem Quiet.intent {intent : ProcessingArtifactIntentRecord} (member : intent ∈ db.intents) :
    ∃ old ∈ w.db.intents, old.identity = intent.identity :=
  exists_mem_of_map_eq quiet.intents member

theorem Quiet.object {object : AgreementDeletionObjectRecord}
    (member : object ∈ db.deletionObjects) :
    ∃ old ∈ w.db.deletionObjects, old.identity = object.identity :=
  exists_mem_of_map_eq quiet.objects member

theorem Quiet.request {request : AgreementDeletionRequestRecord}
    (member : request ∈ w.db.deletionRequests) :
    ∃ new ∈ db.deletionRequests, new.id = request.id := by
  obtain ⟨new, there, same⟩ := exists_mem_of_map_eq quiet.requests.symm member
  exact ⟨new, there, congrArg Prod.fst same⟩

theorem Sound.of_quiet (sound : Sound a w) : Sound a { w with db := db } where
  one := by
    rw [show ({ w with db := db } : World).db = db from rfl, quiet.agreements]
    exact sound.one
  jobIds := by
    have column : ∀ jobs : List ProcessingJobRecord,
        jobs.map (·.id) = (jobs.map (·.identity)).map Prod.fst := fun jobs => by
      rw [List.map_map]
      rfl
    rw [column, quiet.jobs, ← column]
    exact sound.jobIds
  claims claim member job there named := by
    obtain ⟨old, present, id, context⟩ := quiet.job there
    exact context.symm.trans (sound.claims claim member old present (id.trans named))
  expected := sound.expected
  intents intent member := by
    obtain ⟨old, present, same⟩ := quiet.intent member
    have facts := sound.intents old present
    simp only [ProcessingArtifactIntentRecord.identity,
      ProcessingArtifactIntentRecord.mk.injEq] at same
    obtain ⟨jobId, organization, workspace, agreement, profile, category, key, -⟩ := same
    rw [ProcessingArtifactIntentRecord.context, jobId, organization, workspace, agreement,
      profile, category, key] at facts
    refine ⟨facts.1, facts.2.1, fun job there named => ?_⟩
    obtain ⟨before, here, id, context⟩ := quiet.job there
    exact (congrArg ArtifactContext.profile context).symm.trans
      (facts.2.2 before here (id.trans named))
  intentJobs := by
    have column : ∀ intents : List ProcessingArtifactIntentRecord,
        intents.map (·.jobId) = (intents.map (·.identity)).map (·.jobId) := fun intents => by
      rw [List.map_map]
      rfl
    rw [column, quiet.intents, ← column]
    exact sound.intentJobs
  artifacts row member := by
    rw [show ({ w with db := db } : World).db.artifacts = w.db.artifacts from quiet.artifacts]
      at member
    obtain ⟨agreement, job, there, named, categorised⟩ := sound.artifacts row member
    obtain ⟨new, here, id, context⟩ := quiet.job' there
    have profile : new.profile = job.profile := congrArg ArtifactContext.profile context
    exact ⟨agreement, new, here, id.trans named, by rw [profile]; exact categorised⟩
  requests := by
    rcases sound.requests with ⟨active, none⟩ | ⟨requested, request, only, scope⟩
    · refine .inl ⟨fun now => active (quiet.requested_iff.mp now), ?_⟩
      have empty := quiet.requests
      rw [none, List.map_nil] at empty
      exact List.map_eq_nil_iff.mp empty
    · refine .inr ⟨quiet.requested_iff.mpr requested, ?_⟩
      have single := quiet.requests
      rw [only, List.map_singleton] at single
      obtain ⟨new, here, same⟩ := List.map_eq_singleton_iff.mp single
      exact ⟨new, here, (congrArg Prod.snd same).trans scope⟩
  deletions deletion member := by
    obtain ⟨scope, request, there, named⟩ := sound.deletions deletion member
    obtain ⟨new, here, same⟩ := quiet.request there
    exact ⟨scope, new, here, same.trans named⟩
  objects object member := by
    obtain ⟨old, present, same⟩ := quiet.object member
    obtain ⟨⟨request, there, named⟩, below, gone⟩ := sound.objects old present
    obtain ⟨new, here, id⟩ := quiet.request there
    simp only [AgreementDeletionObjectRecord.identity,
      AgreementDeletionObjectRecord.mk.injEq] at same
    obtain ⟨sameId, deletion, -, category, key, state, -⟩ := same
    rw [category, state, key] at gone
    exact ⟨⟨new, here, by rw [id, named, deletion]⟩,
      by rw [← sameId]; exact lt_of_lt_of_eq below quiet.nextObjectId.symm, gone⟩
  objectIds := by
    have column : ∀ objects : List AgreementDeletionObjectRecord,
        objects.map (·.id) = (objects.map (·.identity)).map (·.id) := fun objects => by
      rw [List.map_map]
      rfl
    rw [column, quiet.objects, ← column]
    exact sound.objectIds
  listed pair member := by
    obtain ⟨held, below, alike⟩ := sound.listed pair member
    refine ⟨held, lt_of_lt_of_eq below quiet.nextObjectId.symm, fun object there named => ?_⟩
    obtain ⟨old, present, same⟩ := quiet.object there
    simp only [AgreementDeletionObjectRecord.identity,
      AgreementDeletionObjectRecord.mk.injEq] at same
    obtain ⟨sameId, -, -, category, key, -⟩ := same
    have facts := alike old present (sameId.trans named)
    rwa [category, key] at facts
  removed := sound.removed
  completed done := by
    obtain ⟨objects, intents⟩ := sound.completed (quiet.completed done)
    have noObjects := quiet.objects
    have noIntents := quiet.intents
    rw [objects, List.map_nil] at noObjects
    rw [intents, List.map_nil] at noIntents
    exact ⟨List.map_eq_nil_iff.mp noObjects, List.map_eq_nil_iff.mp noIntents⟩

theorem Accounted.of_quiet {key : String} (accounted : Accounted key w) :
    Accounted key { w with db := db } := by
  have keptIntent : (∃ intent ∈ w.db.intents, intent.artifactKey = key) →
      ∃ intent ∈ db.intents, intent.artifactKey = key := by
    rintro ⟨intent, member, named⟩
    obtain ⟨new, here, same⟩ := exists_mem_of_map_eq quiet.intents.symm member
    have sameKey : new.identity.artifactKey = intent.identity.artifactKey := by rw [same]
    exact ⟨new, here, sameKey.trans named⟩
  refine ⟨fun active => ?_, fun requested stored => ?_⟩
  · rcases accounted.before fun now => active (quiet.requested_iff.mpr now) with intent | row
    · exact .inl (keptIntent intent)
    · exact .inr (by rw [show ({ w with db := db } : World).db.artifacts = w.db.artifacts from
        quiet.artifacts]; exact row)
  · rcases accounted.after (quiet.requested_iff.mp requested) stored with intent | pending
    · exact .inl (keptIntent intent)
    · obtain ⟨object, member, named, category, state⟩ := pending
      obtain ⟨new, here, same⟩ := exists_mem_of_map_eq quiet.objects.symm member
      simp only [AgreementDeletionObjectRecord.identity,
        AgreementDeletionObjectRecord.mk.injEq] at same
      obtain ⟨-, -, -, sameCategory, sameKey, sameState, -⟩ := same
      exact .inr ⟨new, here, sameKey.trans named, by rw [sameCategory]; exact category,
        sameState.trans state⟩

end QuietWrites

/-! The other writes, one by one -/

section Writes

variable {a : Scope} {w : World} {key : String}

theorem Sound.reserve (sound : Sound a w) {job : ProcessingJob} {category : ObjectCategory}
    {reserved : String} (active : ¬ w.db.Requested) (scope : job.context.scope = a)
    (held : job ∈ w.claims) (known : lateArtifactCategory job.profile reserved = some category)
    (absent : ∀ intent ∈ w.db.intents, intent.jobId ≠ job.id) :
    Sound a { w with db := w.db.insertIntent (reservation job category reserved) } :=
  { sound with
    intents := fun intent member => by
      rcases List.mem_append.mp member with old | new
      · exact sound.intents intent old
      · rw [List.mem_singleton.mp new]
        refine ⟨scope, known, fun row there named => ?_⟩
        exact congrArg ArtifactContext.profile (sound.claims job held row there named)
    intentJobs := by
      rw [show ({ w with db := w.db.insertIntent (reservation job category reserved) } :
        World).db.intents = w.db.intents ++ [reservation job category reserved] from rfl,
        List.map_append, List.map_singleton]
      refine List.nodup_append.mpr ⟨sound.intentJobs, List.nodup_singleton _, ?_⟩
      intro id here other last same
      rw [List.mem_singleton.mp last] at same
      obtain ⟨intent, member, rfl⟩ := List.mem_map.mp here
      exact absent intent member same
    completed := fun ⟨request, there, _⟩ => by
      rw [show ({ w with db := w.db.insertIntent (reservation job category reserved) } :
        World).db.deletionRequests = [] from (sound.untouched active).1] at there
      cases there }

theorem Accounted.reserve (accounted : Accounted key w)
    (intent : ProcessingArtifactIntentRecord) :
    Accounted key { w with db := w.db.insertIntent intent } where
  before active := by
    rcases accounted.before active with ⟨old, member, named⟩ | row
    · exact .inl ⟨old, List.mem_append_left _ member, named⟩
    · exact .inr row
  after requested stored := by
    rcases accounted.after requested stored with ⟨old, member, named⟩ | pending
    · exact .inl ⟨old, List.mem_append_left _ member, named⟩
    · exact .inr pending

/-- Before the request storage may change in any way. -/
theorem Sound.store (sound : Sound a w) (active : ¬ w.db.Requested) (storage : List String) :
    Sound a { w with storage := storage } := by
  obtain ⟨-, objects, -, -, removed⟩ := sound.untouched active
  refine { sound with objects := fun object member => ?_, removed := fun pair member => ?_ }
  · rw [show ({ w with storage := storage } : World).db.deletionObjects = [] from objects] at member
    cases member
  · rw [show ({ w with storage := storage } : World).removed = [] from removed] at member
    cases member

theorem Accounted.store (accounted : Accounted key w) (active : ¬ w.db.Requested)
    (storage : List String) : Accounted key { w with storage := storage } :=
  ⟨accounted.before, fun requested => absurd requested active⟩

/-- Storage may lose a key at any time. -/
theorem Sound.remove (sound : Sound a w) (lost : String) :
    Sound a { w with storage := w.storage.filter (· ≠ lost) } :=
  { sound with
    objects := fun object member =>
      have facts := sound.objects object member
      ⟨facts.1, facts.2.1, fun category state stored =>
        facts.2.2 category state (List.mem_of_mem_filter stored)⟩
    removed := fun pair member =>
      have facts := sound.removed pair member
      ⟨facts.1, fun stored => facts.2 (List.mem_of_mem_filter stored)⟩ }

theorem Accounted.remove (accounted : Accounted key w) (lost : String) :
    Accounted key { w with storage := w.storage.filter (· ≠ lost) } :=
  ⟨accounted.before, fun requested stored =>
    accounted.after requested (List.mem_of_mem_filter stored)⟩

theorem Sound.appendArtifact (sound : Sound a w) (row : ProcessingArtifactRecord)
    (scope : row.agreementId = a.agreementId) (job : ∃ job ∈ w.db.jobs, job.id = row.jobId ∧
      (artifactCategory job.profile).isSome = true) :
    Sound a { w with db := { w.db with artifacts := w.db.artifacts ++ [row] } } :=
  { sound with
    artifacts := fun other member => by
      rcases List.mem_append.mp member with old | new
      · exact sound.artifacts other old
      · rw [List.mem_singleton.mp new]
        exact ⟨scope, job⟩ }

theorem Accounted.appendArtifact (accounted : Accounted key w) (row : ProcessingArtifactRecord) :
    Accounted key { w with db := { w.db with artifacts := w.db.artifacts ++ [row] } } where
  before active := by
    rcases accounted.before active with intent | ⟨old, member, named⟩
    · exact .inl intent
    · exact .inr ⟨old, List.mem_append_left _ member, named⟩
  after := accounted.after

theorem Sound.deleteIntent (sound : Sound a w) (jobId : Uuid) :
    Sound a { w with db := w.db.deleteIntent jobId } :=
  { sound with
    intents := fun intent member => sound.intents intent (List.mem_of_mem_filter member)
    intentJobs := sound.intentJobs.sublist (List.filter_sublist.map _)
    completed := fun done => by
      obtain ⟨objects, intents⟩ := sound.completed done
      exact ⟨objects, by
        rw [show ({ w with db := w.db.deleteIntent jobId } : World).db.intents =
          w.db.intents.filter (fun intent => intent.jobId ≠ jobId) from rfl, intents]
        rfl⟩ }

/-- An intent may go when something else keeps its key. -/
theorem Accounted.deleteIntent (accounted : Accounted key w) {jobId : Uuid}
    (backed : ∀ intent ∈ w.db.intents, intent.jobId = jobId → intent.artifactKey = key →
      (∃ row ∈ w.db.artifacts, row.artifactKey = key) ∧ ¬ w.db.Requested ∨
        w.db.PendingObject key ∧ w.db.Requested) :
    Accounted key { w with db := w.db.deleteIntent jobId } := by
  have split : (∃ intent ∈ w.db.intents, intent.artifactKey = key) →
      (∃ intent ∈ (w.db.deleteIntent jobId).intents, intent.artifactKey = key) ∨
        ((∃ row ∈ w.db.artifacts, row.artifactKey = key) ∧ ¬ w.db.Requested ∨
          w.db.PendingObject key ∧ w.db.Requested) := by
    rintro ⟨intent, member, named⟩
    by_cases gone : intent.jobId = jobId
    · exact .inr (backed intent member gone named)
    · exact .inl ⟨intent, List.mem_filter.mpr ⟨member, by simpa using gone⟩, named⟩
  refine ⟨fun active => ?_, fun requested stored => ?_⟩
  · rcases accounted.before active with intent | row
    · rcases split intent with kept | ⟨row, -⟩ | ⟨-, requested⟩
      · exact .inl kept
      · exact .inr row
      · exact absurd requested active
    · exact .inr row
  · rcases accounted.after requested stored with intent | pending
    · rcases split intent with kept | ⟨-, active⟩ | ⟨pending, -⟩
      · exact .inl kept
      · exact absurd requested active
      · exact .inr pending
    · exact .inr pending

/-! Growing knowledge of the workers -/

theorem Sound.addClaim (sound : Sound a w) {claim : ProcessingJob}
    (agrees : ∀ job ∈ w.db.jobs, job.id = claim.id → job.context = claim.context) :
    Sound a { w with claims := w.claims ++ [claim] } :=
  { sound with
    claims := fun other member => by
      rcases List.mem_append.mp member with old | new
      · exact sound.claims other old
      · rw [List.mem_singleton.mp new]
        exact agrees
    expected := fun pair member =>
      have facts := sound.expected pair member
      ⟨List.mem_append_left _ facts.1, facts.2⟩ }

theorem Sound.addExpected (sound : Sound a w) {job : ProcessingJob}
    {artifact : CompletedArtifact} (held : job ∈ w.claims)
    (categorised : lateArtifactCategory job.profile artifact.key = none →
      startsWith job.profile embeddingReindexProfilePrefix = true) :
    Sound a { w with expected := w.expected ++ [(job, artifact)] } :=
  { sound with
    expected := fun pair member => by
      rcases List.mem_append.mp member with old | new
      · exact sound.expected pair old
      · rw [List.mem_singleton.mp new]
        exact ⟨held, categorised⟩ }

theorem Sound.addDeletion (sound : Sound a w) {deletion : AgreementDeletion}
    (scope : deletion.scope = a)
    (request : ∃ request ∈ w.db.deletionRequests, request.id = deletion.id) :
    Sound a { w with deletions := w.deletions ++ [deletion] } :=
  { sound with
    deletions := fun other member => by
      rcases List.mem_append.mp member with old | new
      · exact sound.deletions other old
      · rw [List.mem_singleton.mp new]
        exact ⟨scope, request⟩
    listed := fun pair member =>
      have facts := sound.listed pair member
      ⟨List.mem_append_left _ facts.1, facts.2⟩ }

theorem Sound.addListed (sound : Sound a w) {deletion : AgreementDeletion}
    {items : List AgreementDeletionObject} (held : deletion ∈ w.deletions)
    (rows : ∀ item ∈ items, ∃ object ∈ w.db.deletionObjects, object.id = item.id ∧
      object.objectKey = item.objectKey ∧ object.category = item.category) :
    Sound a { w with listed := w.listed ++ items.map fun item => (deletion, item) } :=
  { sound with
    listed := fun pair member => by
      rcases List.mem_append.mp member with old | new
      · exact sound.listed pair old
      · obtain ⟨item, inside, rfl⟩ := List.mem_map.mp new
        obtain ⟨row, there, id, named, category⟩ := rows item inside
        refine ⟨held, id ▸ (sound.objects row there).2.1, fun object other same => ?_⟩
        have unique : object = row := by
          have one := find?_of_mem sound.objectIds there
          have two := find?_of_mem sound.objectIds other
          rw [same, ← id] at two
          exact Option.some.inj (two.symm.trans one)
        rw [unique]
        exact ⟨named, category⟩
    removed := fun pair member =>
      have facts := sound.removed pair member
      ⟨List.mem_append_left _ facts.1, facts.2⟩ }

theorem Sound.addRemoved (sound : Sound a w) {pair : AgreementDeletion × AgreementDeletionObject}
    (listed : pair ∈ w.listed) (gone : pair.2.objectKey ∉ w.storage) :
    Sound a { w with removed := w.removed ++ [pair] } :=
  { sound with
    removed := fun other member => by
      rcases List.mem_append.mp member with old | new
      · exact sound.removed other old
      · rw [List.mem_singleton.mp new]
        exact ⟨listed, gone⟩ }

end Writes

end AgreementIntelligence.Agreements
