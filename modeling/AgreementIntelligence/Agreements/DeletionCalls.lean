import AgreementIntelligence.Agreements.Deletion
import AgreementIntelligence.Agreements.ProcessingCalls

/-! What the calls on a deletion can do, stated once as for processing. -/

namespace AgreementIntelligence.Agreements
open Identity Lib.Table

def AgreementDeletionRequestRecord.scope (request : AgreementDeletionRequestRecord) : Scope :=
  ⟨request.agreementId, request.organizationId, request.workspaceId⟩

def AgreementDeletion.scope (deletion : AgreementDeletion) : Scope :=
  ⟨deletion.agreementId, deletion.organizationId, deletion.workspaceId⟩

/-- What `accept_deletion` can do: drive a known request again, or insert one. -/
theorem acceptDeletion_ok {db after : Database}
    {organizationId workspaceId agreementId deletionId : Uuid} {now : Time}
    (done : acceptDeletion db organizationId workspaceId agreementId deletionId now = .ok after) :
    (∃ request ∈ db.deletionRequests, after = redriveDeletion db request now) ∨
      ∃ agreement ∈ db.agreements, agreement.deletionRequestedAt.isSome = false ∧
        db.deletionRequest? agreementId organizationId workspaceId = none ∧
          agreement.scope = ⟨agreementId, organizationId, workspaceId⟩ ∧
            after = insertDeletion db agreement deletionId now := by
  unfold acceptDeletion at done
  split at done
  · rename_i request found
    cases done
    exact .inl ⟨request, List.mem_of_find?_eq_some found, rfl⟩
  rename_i unknown
  split at done
  · cases done
  rename_i agreement found
  obtain ⟨member, id, organization, workspace⟩ := Database.agreement?_eq_some found
  split at done
  · cases done
  rename_i unmarked
  cases done
  refine .inr ⟨agreement, member, Bool.eq_false_iff.mpr unmarked, unknown, ?_, rfl⟩
  rw [AgreementRecord.scope, id, organization, workspace]

/-- The inventory that a purge finds: finished rows, and a finished row for every intent. -/
structure Exhausted (deletion : AgreementDeletion) (db : Database) : Prop where
  finished : ∀ object ∈ db.deletionObjects, object.deletionId = deletion.id →
    object.state ≠ .pending
  resolved : ∀ intent ∈ db.intents, intent.agreementId = deletion.agreementId →
    intent.organizationId = deletion.organizationId →
    intent.workspaceId = deletion.workspaceId →
    ∃ object ∈ db.deletionObjects, object.deletionId = deletion.id ∧
      object.category = intent.category ∧ object.objectKey = intent.artifactKey

/-- What `complete_and_purge` can do: nothing without the claim, and with it the purge of an
agreement whose inventory is exhausted. -/
theorem completeAndPurge_ok {db after : Database} {deletion : AgreementDeletion} {now : Time}
    (done : completeAndPurge db deletion now = .ok after) :
    db.lockedClaim? deletion = none ∧ after = db ∨
      (db.lockedClaim? deletion).isSome = true ∧ Exhausted deletion db ∧
        deletion.scope ∈ db.agreements.map AgreementRecord.scope ∧
        after = (purgedRows db deletion).updateClaimed deletion (completeRequest now) := by
  unfold completeAndPurge at done
  split at done
  · cases done
  rename_i agreement found
  split at done
  · rename_i unclaimed
    cases done
    exact .inl ⟨unclaimed, rfl⟩
  rename_i request claimed
  split at done
  · cases done
  rename_i finished
  split at done
  · cases done
  rename_i resolved
  obtain ⟨purged, purges, rfl⟩ := map_ok done
  unfold purgeOwnedRows at purges
  split at purges
  case isFalse => cases purges
  cases purges
  obtain ⟨here, id, organization, workspace⟩ := Database.agreement?_eq_some found
  refine .inr ⟨by rw [claimed]; rfl, ⟨fun object member ofDeletion pending => finished ?_,
    fun intent member agreementId organizationId workspaceId => ?_⟩, ?_, rfl⟩
  · exact List.any_eq_true.mpr ⟨object, member, by simp [ofDeletion, pending]⟩
  · by_contra missing
    have empty : (db.deletionObjects.filter fun object => object.deletionId = deletion.id ∧
        object.category = intent.category ∧ object.objectKey = intent.artifactKey).isEmpty := by
      rw [List.isEmpty_iff, List.filter_eq_nil_iff]
      intro object there hit
      exact missing ⟨object, there, of_decide_eq_true hit⟩
    refine resolved (List.any_eq_true.mpr ⟨intent, member, ?_⟩)
    simp only [unresolvedIntent, agreementId, organizationId, workspaceId, empty, decide_true,
      Bool.true_and, Bool.or_true, Bool.true_or]
  · refine List.mem_map.mpr ⟨agreement, here, ?_⟩
    rw [AgreementRecord.scope, id, organization, workspace]
    rfl

end AgreementIntelligence.Agreements
