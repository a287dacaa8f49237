import AgreementIntelligence.Agreements.Orphans
import AgreementIntelligence.Agreements.ObjectKeys

/-! What the workers add to the inventories of deletions: the keys of intents and of expected
artifacts, and nothing else. A key is accepted when the deletion worker may remove it, and a
ledger grows by accepted keys only, if the intents and the artifact of the call are. -/

namespace AgreementIntelligence.Agreements
open Identity Lib.Table Lib.Runs

/-- `_validate_owned_key` accepts the key in the deletion of the agreement. -/
def Scope.Accepts (scope : Scope) (category : ObjectCategory) (key : String) : Prop :=
  validateOwnedKey scope.organizationId scope.workspaceId scope.agreementId category key = true

/-- If the artifact of a job becomes late, then under an accepted key. -/
def ArtifactContext.Keyed (context : ArtifactContext) (key : String) : Prop :=
  ∀ category, lateArtifactCategory context.profile key = some category →
    context.scope.Accepts category key

/-- The keys of the intents are accepted. -/
def Database.KeyedIntents (db : Database) : Prop :=
  ∀ intent ∈ db.intents, intent.context.Keyed intent.artifactKey

structure Ledger (before after : Database) : Prop where
  requests : after.deletionRequests.map (·.identity) = before.deletionRequests.map (·.identity)
  objects : ∀ object ∈ after.deletionObjects,
    (∃ old ∈ before.deletionObjects, old.deletionId = object.deletionId ∧
        old.category = object.category ∧ old.objectKey = object.objectKey) ∨
      ∃ request ∈ before.deletionRequests, request.id = object.deletionId ∧
        request.scope.Accepts object.category object.objectKey

theorem Ledger.of_subset {before after : Database}
    (requests : after.deletionRequests = before.deletionRequests)
    (objects : after.deletionObjects ⊆ before.deletionObjects) : Ledger before after where
  requests := by rw [requests]
  objects object member := .inl ⟨object, objects member, rfl, rfl, rfl⟩

theorem Ledger.refl (db : Database) : Ledger db db :=
  .of_subset rfl (List.Subset.refl _)

theorem Ledger.trans {first second third : Database} (one : Ledger first second)
    (two : Ledger second third) : Ledger first third where
  requests := two.requests.trans one.requests
  objects object member := by
    rcases two.objects object member with ⟨middle, there, id, category, key⟩ |
      ⟨request, there, named, accepts⟩
    · have came := one.objects middle there
      rw [id, category, key] at came
      exact came
    · obtain ⟨old, held, same⟩ := exists_mem_of_map_eq one.requests there
      have scope : old.scope = request.scope := congrArg Prod.snd same
      exact .inr ⟨old, held, (congrArg Prod.fst same).trans named, scope ▸ accepts⟩

theorem Quiet.ledger {before after : Database} (quiet : Quiet before after) :
    Ledger before after where
  requests := quiet.requests
  objects object member := by
    obtain ⟨old, there, same⟩ := exists_mem_of_map_eq quiet.objects member
    simp only [AgreementDeletionObjectRecord.identity, AgreementDeletionObjectRecord.mk.injEq] at same
    exact .inl ⟨old, there, same.2.1, same.2.2.2.1, same.2.2.2.2.1⟩

/-! Processing -/

section Processing
variable {db after : Database} {now : Time}

theorem Ledger.inventoryLate {context : ArtifactContext} {key : String}
    (keyed : context.Keyed key) (done : inventoryLateArtifact db context key now = .ok after) :
    Ledger db after := by
  obtain ⟨request, found, ⟨-, rfl⟩ | ⟨category, known, rfl⟩⟩ := inventoryLateArtifact_ok done
  · exact .refl _
  · obtain ⟨member, agreement, organization, workspace⟩ :=
      Database.deletionRequest?_eq_some found
    refine ⟨map_update fun _ => rfl, fun object recorded => ?_⟩
    rcases mem_recordLateObject recorded with ⟨old, there, -, id, same, alike, -⟩ |
      ⟨-, named, -, same, alike⟩
    · exact .inl ⟨old, there, id, same, alike⟩
    · have scope : request.scope = context.scope := by
        rw [AgreementDeletionRequestRecord.scope, agreement, organization, workspace]
        rfl
      refine .inr ⟨request, member, named.symm, ?_⟩
      rw [scope, same, alike]
      exact keyed category known

theorem Ledger.reconcile {intent : ProcessingArtifactIntentRecord}
    (keyed : intent.context.Keyed intent.artifactKey)
    (done : reconcileArtifactIntent db intent now = .ok after) : Ledger db after := by
  obtain ⟨inventoried, listed, rfl⟩ := reconcileArtifactIntent_ok done
  exact (Ledger.inventoryLate keyed listed).trans (.of_subset rfl (List.Subset.refl _))

theorem Ledger.reconciled {jobId : Uuid} (intents : db.KeyedIntents)
    (done : Reconciled db jobId now after) : Ledger db after := by
  cases done with
  | none => exact .refl db
  | @intent intent _ member named reconciled => exact .reconcile (intents intent member) reconciled

theorem Ledger.inventoried {claimed : ProcessingJob} {expected : Option CompletedArtifact}
    (keyed : ∀ context artifact, db.KnowsContext claimed context → expected = some artifact →
      context.Keyed artifact.key)
    (done : Inventoried db claimed expected now after) : Ledger db after := by
  cases done with
  | none => exact .refl db
  | late computed known requested listed => exact .inventoryLate (keyed _ _ known computed) listed

theorem Inventoried.keyedIntents {claimed : ProcessingJob} {expected : Option CompletedArtifact}
    (intents : db.KeyedIntents) (done : Inventoried db claimed expected now after) :
    after.KeyedIntents := by
  cases done with
  | none => exact intents
  | late computed known requested listed =>
    obtain ⟨request, -, ⟨-, rfl⟩ | ⟨category, -, rfl⟩⟩ := inventoryLateArtifact_ok listed
    · exact intents
    · exact intents

theorem Ledger.claimed {jobId claimToken : Uuid} {result : Option ProcessingJob}
    (intents : db.KeyedIntents) (done : Claimed db jobId now claimToken result after) :
    Ledger db after := by
  cases done with
  | idle => exact .refl db
  | reconciled requested reconciled => exact .reconciled intents reconciled
  | @settled job agreement found active stored =>
    refine Quiet.ledger (.trans ?_ (.updateState _ job .completed))
    split
    · exact .refl db
    · exact .updateJob db jobId _ fun _ => rfl
  | @started job agreement found active unstored takeable =>
    exact ((Quiet.updateJob db jobId (startAttempt now claimToken) fun _ => rfl).trans
      (.updateState _ job .processing)).ledger

theorem Ledger.expected {claimed : ProcessingJob} {artifact : CompletedArtifact} {answer : Bool}
    (intents : db.KeyedIntents) (keyed : claimed.context.Keyed artifact.key)
    (done : Expected db claimed artifact now answer after) : Ledger db after := by
  cases done with
  | idle => exact .refl db
  | reserved active found owned known absent => exact .of_subset rfl (List.Subset.refl _)
  | renewed active => exact .of_subset rfl (List.Subset.refl _)
  | reconciled requested reconciled => exact .reconciled intents reconciled
  | @inventoried agreement category _ requested known absent reconciled =>
    have reserved : Ledger db (db.insertIntent (reservation claimed category artifact.key)) :=
      .of_subset rfl (List.Subset.refl _)
    have reservedKey : (reservation claimed category artifact.key).context.Keyed artifact.key :=
      keyed
    exact reserved.trans (.reconcile reservedKey reconciled)

theorem Ledger.commitRows (claimed : ProcessingJob) (job : ProcessingJobRecord)
    (category : Option ObjectCategory) (key : String) :
    Ledger db (commitRows db claimed job category key now) := by
  have settled : ∀ db : Database, Ledger db ((updateAgreementProcessingState
      (db.updateJob claimed.id (completeJob now)) job .completed).deleteIntent claimed.id) :=
    fun db => ((Quiet.updateJob db claimed.id (completeJob now) fun _ => rfl).trans
      (.updateState _ job .completed)).ledger.trans (.of_subset rfl (List.Subset.refl _))
  unfold Agreements.commitRows
  split
  · have stored : Ledger db { db with
        artifacts := db.artifacts ++ [artifactRow claimed.id job key] } :=
      .of_subset rfl (List.Subset.refl _)
    exact stored.trans (settled _)
  · exact settled db

theorem Ledger.committed {storage left : List String} {claimed : ProcessingJob}
    {prepared : PreparedArtifact} {answer : Bool} (intents : db.KeyedIntents)
    (keyed : ∀ context, db.KnowsContext claimed context → context.Keyed prepared.artifact.key)
    (outcome : Committed db storage claimed prepared now left (.ok (answer, after))) :
    Ledger db after := by
  cases outcome with
  | stopped returns =>
    cases (returns _ _ rfl).2 with
    | inventoried late =>
      refine .inventoried (fun context artifact known same => ?_) late
      cases same
      exact keyed context known
    | reconciled requested reconciled => exact .reconciled intents reconciled
  | @committed job finalized writes runs =>
    obtain ⟨comparisonRuns, rfl⟩ := runs
    have finalized : Ledger db { db with comparisonRuns := comparisonRuns } :=
      .of_subset rfl (List.Subset.refl _)
    exact finalized.trans (.commitRows claimed job _ _)

theorem Ledger.requeued {claimed : ProcessingJob} {expected : Option CompletedArtifact}
    {category message : String} {nextRetryAt : Time} {answer : Bool} (intents : db.KeyedIntents)
    (keyed : ∀ context artifact, db.KnowsContext claimed context → expected = some artifact →
      context.Keyed artifact.key)
    (done : Requeued db claimed expected category message nextRetryAt now answer after) :
    Ledger db after := by
  cases done with
  | idle => exact .refl db
  | inventoried late reconciled requested =>
    exact (Ledger.inventoried keyed late).trans (.reconciled (late.keyedIntents intents) reconciled)
  | @queued job agreement found owned active =>
    exact ((Quiet.updateJob db claimed.id (queueAgain category message nextRetryAt)
      fun _ => rfl).trans (.updateState _ job .queued)).ledger

theorem Ledger.failed {claimed : ProcessingJob} {expected : Option CompletedArtifact}
    {category message : String} (intents : db.KeyedIntents)
    (keyed : ∀ context artifact, db.KnowsContext claimed context → expected = some artifact →
      context.Keyed artifact.key)
    (done : Failed db claimed expected category message now after) : Ledger db after := by
  cases done with
  | inventoried late => exact .inventoried keyed late
  | reconciled found owned requested reconciled =>
    exact (Ledger.reconciled intents reconciled).trans (Quiet.failRows ..).ledger
  | settled found owned active =>
    exact ((Quiet.intentState db claimed.id .settled).trans (.failRows ..)).ledger
end Processing

/-! Deletion -/

theorem Ledger.finishObject (db : Database) (deletion : AgreementDeletion) (objectId : Nat)
    (state : DeletionObjectState) (now : Time) :
    Ledger db (finishObject db deletion objectId state now) where
  requests := by
    simp only [Agreements.finishObject, Database.updateClaimed, List.map_map]
    refine List.map_congr_left fun request _ => ?_
    rw [Function.comp_apply]
    split <;> rfl
  objects object member := by
    obtain ⟨old, there, rfl⟩ := List.mem_map.mp member
    refine .inl ⟨old, there, ?_⟩
    split <;> exact ⟨rfl, rfl, rfl⟩

theorem Ledger.completeAndPurge {db after : Database} {deletion : AgreementDeletion} {now : Time}
    (done : completeAndPurge db deletion now = .ok after) : Ledger db after := by
  rcases completeAndPurge_ok done with ⟨-, rfl⟩ | ⟨-, -, -, rfl⟩
  · exact .refl _
  · refine ⟨?_, fun object member => ?_⟩
    · simp only [Database.updateClaimed, List.map_map]
      refine List.map_congr_left fun request _ => ?_
      rw [Function.comp_apply]
      split <;> rfl
    · exact .inl ⟨object, List.mem_of_mem_filter member, rfl, rfl, rfl⟩

end AgreementIntelligence.Agreements
