import AgreementIntelligence.Agreements.DeletionWakeups
import AgreementIntelligence.Agreements.System
import AgreementIntelligence.Lib.Runs

/-! No deletion is forgotten, as long as no claim that meets a locked row was the last one to come
for it. Whoever makes a request wait resets its outbox row in the same transaction; a sweeper puts
a delivery where the row was before it marks the row; and a delivery whose claim finds nothing has
nothing to come for any more, unless it has only skipped a locked row. -/

namespace AgreementIntelligence.Agreements
open Identity Lib.Table Lib.Runs

def DeletionDelivery.Names (delivery : DeletionDelivery)
    (request : AgreementDeletionRequestRecord) : Prop :=
  delivery.deletionId = request.id ∧ delivery.organizationId = request.organizationId ∧
    delivery.workspaceId = request.workspaceId

instance (delivery : DeletionDelivery) (request : AgreementDeletionRequestRecord) :
    Decidable (delivery.Names request) :=
  inferInstanceAs (Decidable (_ ∧ _))

/-- In this stage a delivery has not looked for its request yet, and will find it due. -/
def DeletionStage.Finds (request : AgreementDeletionRequestRecord) : DeletionStage → Prop
  | .waiting | .received => True
  | .clocked now => request.nextAttemptAt ≤ now
  | .claimed _ | .cleaning .. | .removed .. | .objectFailed .. | .purgeFailed _ | .returned => False

instance (request : AgreementDeletionRequestRecord) :
    ∀ stage : DeletionStage, Decidable (stage.Finds request)
  | .waiting | .received => isTrue trivial
  | .clocked _ => inferInstanceAs (Decidable (_ ≤ _))
  | .claimed _ | .cleaning .. | .removed .. | .objectFailed .. | .purgeFailed _ | .returned =>
    isFalse id

theorem DeletionStage.Finds.of_next {old request : AgreementDeletionRequestRecord}
    {stage : DeletionStage} (finds : stage.Finds old)
    (same : old.nextAttemptAt = request.nextAttemptAt) : stage.Finds request := by
  cases stage <;> simp_all [DeletionStage.Finds]

/-- The delivery will claim the request, unless somebody else does. -/
def DeletionDelivery.Comes (delivery : DeletionDelivery)
    (request : AgreementDeletionRequestRecord) : Prop :=
  delivery.Names request ∧ delivery.stage.Finds request

instance (delivery : DeletionDelivery) (request : AgreementDeletionRequestRecord) :
    Decidable (delivery.Comes request) :=
  inferInstanceAs (Decidable (_ ∧ _))

namespace DeletionWorld

variable {policy : DeletionRetryPolicy} {w after : DeletionWorld}

/-- A message has gone out under the token. -/
def Published (w : DeletionWorld) (token : Uuid) : Prop :=
  ∃ sweep ∈ w.sweeps, sweep.published ∧ sweep.message.leaseToken = token

instance (w : DeletionWorld) (token : Uuid) : Decidable (w.Published token) :=
  inferInstanceAs (Decidable (∃ sweep ∈ _, _))

/-- The row is undelivered, and nobody has published under its lease. -/
def Open (w : DeletionWorld) (row : AgreementDeletionOutboxRecord) : Prop :=
  row.deliveredAt = none ∧ ∀ token ∈ row.leaseToken, ¬ w.Published token

instance (w : DeletionWorld) (row : AgreementDeletionOutboxRecord) : Decidable (w.Open row) :=
  inferInstanceAs (Decidable (_ ∧ _))

/-- The invariant. -/
structure Sound (w : DeletionWorld) : Prop where
  scheduled : w.db.Scheduled
  due : ∀ request ∈ w.db.deletionRequests, request.Waiting → ∀ row ∈ w.db.deletionOutbox,
    row.deletionId = request.id → request.nextAttemptAt ≤ max row.nextAttemptAt w.clock
  taken : ∀ request ∈ w.db.deletionRequests, request.Waiting → ∀ row ∈ w.db.deletionOutbox,
    row.deletionId = request.id → row.deliveredAt.isSome ∨ row.leaseToken.isSome →
      request.nextAttemptAt ≤ w.clock
  woken : ∀ request ∈ w.db.deletionRequests, request.Waiting → ∀ row ∈ w.db.deletionOutbox,
    row.deletionId = request.id →
      w.Open row ∨ ∃ delivery ∈ w.deliveries, delivery.Comes request
  tokens : (w.sweeps.map (·.message.leaseToken)).Nodup
  leased : ∀ row ∈ w.db.deletionOutbox, ∀ token ∈ row.leaseToken, row.leaseExpiresAt.isSome ∧
    ∃ sweep ∈ w.sweeps, sweep.message.leaseToken = token ∧
      sweep.message.deletionId = row.deletionId
  swept : ∀ sweep ∈ w.sweeps, ∃ request ∈ w.db.deletionRequests,
    (messageOf sweep.message).Names request

/-- A row that is not open belongs to a request that is due. -/
theorem Sound.open_or_due (sound : w.Sound) {request : AgreementDeletionRequestRecord}
    (member : request ∈ w.db.deletionRequests) (waits : request.Waiting)
    {row : AgreementDeletionOutboxRecord} (there : row ∈ w.db.deletionOutbox)
    (named : row.deletionId = request.id) : w.Open row ∨ request.nextAttemptAt ≤ w.clock := by
  cases delivered : row.deliveredAt with
  | some deliveredAt =>
      exact .inr (sound.taken request member waits row there named (.inl (by simp [delivered])))
  | none =>
      cases lease : row.leaseToken with
      | some token =>
          exact .inr (sound.taken request member waits row there named (.inr (by simp [lease])))
      | none => exact .inl ⟨delivered, by simp [lease]⟩

/-- A step that reschedules, and takes no delivery from a request that is due. -/
theorem Sound.step (sound : w.Sound) (writes : Reschedules w.db after.db)
    (clock : w.clock ≤ after.clock) (sweeps : after.sweeps = w.sweeps)
    (deliveries : ∀ request ∈ after.db.deletionRequests, request.Waiting →
      request.nextAttemptAt ≤ w.clock → ∀ delivery ∈ w.deliveries, delivery.Comes request →
        ∃ other ∈ after.deliveries, other.Comes request) : after.Sound where
  scheduled := writes.scheduled
  due := by
    intro request member waits row there named
    obtain ⟨old, held, on, earlier⟩ | reset := writes.waiting request member waits row there named
    · have before := sound.due old held on.waiting row earlier (named.trans on.id.symm)
      rw [on.nextAttemptAt] at before
      exact Nat.le_trans before (Nat.max_le.mpr
        ⟨Nat.le_max_left .., Nat.le_trans clock (Nat.le_max_right ..)⟩)
    · exact Nat.le_trans reset.2.2 (Nat.le_max_left ..)
  taken := by
    intro request member waits row there named used
    obtain ⟨old, held, on, earlier⟩ | reset := writes.waiting request member waits row there named
    · have before := sound.taken old held on.waiting row earlier (named.trans on.id.symm) used
      rw [on.nextAttemptAt] at before
      exact Nat.le_trans before clock
    · simp [reset.1, reset.2.1] at used
  woken := by
    intro request member waits row there named
    obtain ⟨old, held, on, earlier⟩ | reset := writes.waiting request member waits row there named
    · have same := named.trans on.id.symm
      have published : ∀ token, after.Published token ↔ w.Published token := by
        intro token
        rw [Published, Published, sweeps]
      obtain still | due := sound.open_or_due held on.waiting earlier same
      · exact .inl ⟨still.1, fun token lease => by rw [published]; exact still.2 token lease⟩
      · obtain still | ⟨delivery, queued, comes⟩ :=
          sound.woken old held on.waiting row earlier same
        · exact .inl ⟨still.1, fun token lease => by rw [published]; exact still.2 token lease⟩
        · refine .inr (deliveries request member waits (on.nextAttemptAt ▸ due) delivery queued ?_)
          have names : delivery.Names request := ⟨comes.1.1.trans on.id,
            comes.1.2.1.trans on.organizationId, comes.1.2.2.trans on.workspaceId⟩
          exact ⟨names, comes.2.of_next on.nextAttemptAt⟩
    · exact .inl ⟨reset.1, by simp [reset.2.1]⟩
  tokens := sweeps ▸ sound.tokens
  leased := by
    intro row there token lease
    obtain ⟨old, earlier, id, same, expires⟩ := writes.leased row there (by
      rw [Option.mem_def.mp lease]
      rfl)
    obtain ⟨held, sweep, listed, named, deletion⟩ := sound.leased old earlier token (same ▸ lease)
    exact ⟨expires ▸ held, sweep, sweeps ▸ listed, named, deletion.trans id⟩
  swept := by
    intro sweep listed
    obtain ⟨request, held, names⟩ := sound.swept sweep (sweeps ▸ listed)
    obtain ⟨row, there, id, organizationId, workspaceId⟩ := writes.kept request held
    exact ⟨row, there, names.1.trans id.symm, names.2.1.trans organizationId.symm,
      names.2.2.trans workspaceId.symm⟩

/-- A step of the handling of a delivery: the others come as before. -/
theorem Sound.proceed (sound : w.Sound) {db : Database} (writes : Reschedules w.db db)
    {delivery : DeletionDelivery} (stage : DeletionStage)
    (comes : ∀ request ∈ db.deletionRequests, request.Waiting →
      request.nextAttemptAt ≤ w.clock → delivery.Comes request →
        ({ delivery with stage } : DeletionDelivery).Comes request) :
    (w.proceed delivery stage db).Sound := by
  refine sound.step writes (Nat.le_refl _) rfl fun request member waits due other queued here => ?_
  by_cases same : other = delivery
  · subst same
    exact ⟨_, List.mem_append_right _ (List.mem_singleton_self _),
      comes request member waits due here⟩
  · exact ⟨other, List.mem_append_left _ ((List.mem_erase_of_ne same).mpr queued), here⟩

/-- Object storage wakes nobody. -/
theorem Sound.with_storage (sound : w.Sound) (storage : List String) :
    Sound { w with storage } :=
  ⟨sound.scheduled, sound.due, sound.taken, sound.woken, sound.tokens, sound.leased, sound.swept⟩

/-! The handling of a delivery -/

/-- The delivery does not come for anything in its stage. -/
def Spent : DeletionStage → Prop
  | .waiting | .received | .clocked _ => False
  | .claimed _ | .cleaning .. | .removed .. | .objectFailed .. | .purgeFailed _ | .returned => True

theorem Spent.comes {delivery : DeletionDelivery} (spent : Spent delivery.stage)
    {request : AgreementDeletionRequestRecord} : ¬ delivery.Comes request := by
  rintro ⟨-, here⟩
  cases stage : delivery.stage <;> simp [stage, Spent, DeletionStage.Finds] at spent here

/-- A step of a delivery that has claimed its request. -/
theorem Sound.spent (sound : w.Sound) {db : Database} (writes : Reschedules w.db db)
    {delivery : DeletionDelivery} (spent : Spent delivery.stage) (stage : DeletionStage) :
    (w.proceed delivery stage db).Sound :=
  sound.proceed writes stage fun _ _ _ _ comes => absurd comes spent.comes

/-- Every request that waits and that the delivery would find has somebody else. -/
def SkipsSafely (w : DeletionWorld) (delivery : DeletionDelivery) : Prop :=
  ∀ request ∈ w.db.deletionRequests, request.Waiting → delivery.Comes request →
    (∃ row ∈ w.db.deletionOutbox, row.deletionId = request.id ∧ w.Open row) ∨
      ∃ other ∈ w.deliveries.erase delivery, other.Comes request

instance (w : DeletionWorld) (delivery : DeletionDelivery) :
    Decidable (w.SkipsSafely delivery) :=
  inferInstanceAs (Decidable (∀ request ∈ _, _))

theorem Sound.skip (sound : w.Sound) {delivery : DeletionDelivery}
    (safe : w.SkipsSafely delivery) : (w.proceed delivery .returned w.db).Sound where
  scheduled := sound.scheduled
  due := sound.due
  taken := sound.taken
  woken := by
    intro request member waits row there named
    obtain still | ⟨other, queued, comes⟩ := sound.woken request member waits row there named
    · exact .inl still
    · by_cases same : other = delivery
      · subst same
        obtain ⟨open_row, held, id, still⟩ | ⟨next, queued', comes'⟩ :=
          safe request member waits comes
        · have equal : open_row = row := List.inj_on_of_nodup_map sound.scheduled.outboxIds held
            there (id.trans named.symm)
          exact .inl (equal ▸ still)
        · exact .inr ⟨next, List.mem_append_left _ queued', comes'⟩
      · exact .inr ⟨other, List.mem_append_left _ ((List.mem_erase_of_ne same).mpr queued), comes⟩
  tokens := sound.tokens
  leased := sound.leased
  swept := sound.swept

/-- What the delivery comes for, its claim finds. -/
theorem Sound.claim_none (sound : w.Sound) {delivery : DeletionDelivery} {now : Time}
    (clocked : delivery.stage = .clocked now) {claimToken : Uuid} {db : Database}
    (found : claimDeletion w.db delivery.deletionId delivery.organizationId delivery.workspaceId
      now claimToken = (none, db)) : (w.proceed delivery .returned db).Sound := by
  unfold claimDeletion at found
  split at found
  · rename_i missing
    obtain ⟨-, rfl⟩ := Prod.mk.inj found
    refine sound.proceed (.of_same sound.scheduled rfl rfl) .returned
      fun request member waits _ comes => ?_
    have due := comes.2
    rw [clocked] at due
    refine absurd ?_ (List.find?_eq_none.mp missing request member)
    refine decide_eq_true ⟨comes.1.1.symm, comes.1.2.1.symm, comes.1.2.2.symm, due, ?_⟩
    exact waits.imp_right .inl
  · cases found

theorem Sound.claim_some (sound : w.Sound) {delivery : DeletionDelivery} {now : Time}
    {claimToken : Uuid} {deletion : AgreementDeletion} {db : Database}
    (found : claimDeletion w.db delivery.deletionId delivery.organizationId delivery.workspaceId
      now claimToken = (some deletion, db)) :
    (w.proceed delivery (.claimed deletion) db).Sound := by
  have writes := claimDeletion_reschedules sound.scheduled found
  refine sound.proceed writes (.claimed deletion) fun request member waits _ comes => ?_
  unfold claimDeletion at found
  split at found
  · cases found
  obtain ⟨-, rfl⟩ := Prod.mk.inj found
  obtain ⟨old, held, rfl⟩ := mem_update.mp member
  split at waits
  · simp [AgreementDeletionRequestRecord.Waiting] at waits
  · rename_i apart
    rw [if_neg apart] at comes
    exact absurd comes.1.1.symm apart

theorem Sound.removeSource (sound : w.Sound) {delivery : DeletionDelivery}
    (spent : Spent delivery.stage) (deletion : AgreementDeletion) (item : AgreementDeletionObject)
    (rest : List AgreementDeletionObject) (removal : Removal) (now : Time) :
    (w.removeSource delivery deletion item rest removal now).Sound := by
  have quiet : Reschedules w.db w.db := .of_same sound.scheduled rfl rfl
  unfold DeletionWorld.removeSource
  dsimp only
  split
  · exact sound.spent quiet spent _
  · rename_i db done
    split
    · exact sound.spent quiet spent _
    split
    · exact (sound.spent quiet spent _).with_storage _
    · have writes : Reschedules w.db db := deleteSource_reschedules sound.scheduled done
      exact (sound.spent writes spent _).with_storage _

theorem Sound.removeObject (sound : w.Sound) {delivery : DeletionDelivery}
    (spent : Spent delivery.stage) (deletion : AgreementDeletion) (item : AgreementDeletionObject)
    (rest : List AgreementDeletionObject) (removal : Removal) (now : Time) :
    (w.removeObject delivery deletion item rest removal now).Sound := by
  have quiet : Reschedules w.db w.db := .of_same sound.scheduled rfl rfl
  unfold DeletionWorld.removeObject
  split
  · exact sound.spent quiet spent _
  split
  · exact sound.removeSource spent deletion item rest removal now
  split
  · exact sound.spent quiet spent _
  · exact (sound.spent quiet spent _).with_storage _
  · exact (sound.spent quiet spent _).with_storage _

/-- The delivery goes back into the queue. -/
theorem Sound.stop (sound : w.Sound) (delivery : DeletionDelivery) :
    (w.proceed delivery .waiting w.db).Sound :=
  sound.proceed (.of_same sound.scheduled rfl rfl) .waiting fun _ _ _ _ comes => ⟨comes.1, trivial⟩

/-- The condition on a step: a claim that skips a locked row does so safely. -/
def Careful (w : DeletionWorld) : DeletionEvent → Prop
  | .skip delivery => delivery ∈ w.deliveries → w.SkipsSafely delivery
  | _ => True

instance (w : DeletionWorld) : (event : DeletionEvent) → Decidable (w.Careful event)
  | .skip _ => inferInstanceAs (Decidable (_ → _))
  | .tick _ | .acceptDeletion .. | .lateArtifact .. | .recover .. | .claimDue .. | .publish _
  | .markDelivered .. | .release .. | .redeliver .. | .receive _ | .readClock _ | .claim ..
  | .listObjects _ | .removeObject .. | .markObject .. | .purge .. | .settle .. | .acknowledge _
  | .stop _ => isTrue trivial

theorem Sound.handle (sound : w.Sound) {delivery : DeletionDelivery} {stage : DeletionStage}
    (here : delivery.stage = stage) (event : DeletionEvent)
    (about : event.delivery? = some delivery) (queued : delivery ∈ w.deliveries)
    (careful : w.Careful event) :
    (w.handle policy delivery stage event).Sound := by
  have quiet : Reschedules w.db w.db := .of_same sound.scheduled rfl rfl
  unfold DeletionWorld.handle
  split
  · exact sound.proceed quiet _ fun _ _ _ _ comes => ⟨comes.1, trivial⟩
  · exact sound.proceed quiet _ fun _ _ _ due comes => ⟨comes.1, due⟩
  · split
    · rename_i found
      exact sound.claim_none here found
    · rename_i found
      exact sound.claim_some found
  · cases about
    exact sound.skip (careful queued)
  · exact sound.spent quiet (by rw [here]; trivial) _
  · exact sound.removeObject (by rw [here]; trivial) ..
  · split
    · exact sound.stop delivery
    · rename_i done
      exact sound.spent (markDeleted_reschedules sound.scheduled done) (by rw [here]; trivial) _
  · split
    · exact sound.spent quiet (by rw [here]; trivial) _
    split
    · exact sound.spent quiet (by rw [here]; trivial) _
    · rename_i done
      exact sound.spent (completeAndPurge_reschedules sound.scheduled done)
        (by rw [here]; trivial) _
  · exact sound.spent (settleObject_reschedules sound.scheduled policy _ _)
      (by rw [here]; trivial) _
  · exact sound.spent (settlePurge_reschedules sound.scheduled policy _) (by rw [here]; trivial) _
  · refine sound.step quiet (Nat.le_refl _) rfl fun request _ _ _ other queued comes => ?_
    have differs : other ≠ delivery := by
      rintro rfl
      exact Spent.comes (by rw [here]; trivial) comes
    exact ⟨other, (List.mem_erase_of_ne differs).mpr queued, comes⟩
  · exact sound.stop delivery
  · exact sound

/-! The API, the sweepers and the queue -/

/-- A transaction of somebody who handles no delivery. -/
theorem Sound.write (sound : w.Sound) {db : Database} (writes : Reschedules w.db db) :
    Sound { w with db } :=
  sound.step writes (Nat.le_refl _) rfl fun _ _ _ _ delivery queued comes =>
    ⟨delivery, queued, comes⟩

/-- A leased row is delivered, or given back. -/
theorem Sound.updateLeased (sound : w.Sound) (message : ClaimedDeletionOutbox)
    (change : AgreementDeletionOutboxRecord → AgreementDeletionOutboxRecord)
    (rowIds : ∀ row, (change row).deletionId = row.deletionId)
    (free : ∀ row, (change row).leaseToken = none)
    (back : w.Published message.leaseToken ∨
      ∀ row, row.deliveredAt = none → (change row).deliveredAt = none) :
    Sound { w with db := w.db.updateLeased message change } := by
  have rows : ∀ row ∈ (w.db.updateLeased message change).deletionOutbox,
      row ∈ w.db.deletionOutbox ∨ ∃ old ∈ w.db.deletionOutbox,
        old.leaseToken = some message.leaseToken ∧ old.deliveredAt = none ∧ row = change old := by
    intro row member
    obtain ⟨old, there, same⟩ := List.mem_map.mp member
    split at same
    · rename_i hit
      exact .inr ⟨old, there, hit.2.1, hit.2.2, same.symm⟩
    · exact .inl (same ▸ there)
  have ids : (w.db.updateLeased message change).deletionOutbox.map (·.deletionId) =
      w.db.deletionOutbox.map (·.deletionId) := by
    refine map_map_of_keeps fun row _ => ?_
    split
    · exact rowIds row
    · rfl
  exact {
    scheduled := {
      requestIds := sound.scheduled.requestIds
      outboxIds := ids ▸ sound.scheduled.outboxIds
      ofRequest := by
        intro row member
        obtain old | ⟨old, there, -, -, rfl⟩ := rows row member
        · exact sound.scheduled.ofRequest row old
        · rw [rowIds]
          exact sound.scheduled.ofRequest old there
      rows := by
        intro request held open_
        obtain ⟨row, there, named⟩ := sound.scheduled.rows request held open_
        refine ⟨_, List.mem_map_of_mem there, ?_⟩
        split
        · rw [rowIds, named]
        · exact named
      leases := sound.scheduled.leases }
    due := by
      intro request held waits row member named
      obtain old | ⟨old, there, lease, -, rfl⟩ := rows row member
      · exact sound.due request held waits row old named
      · rw [rowIds] at named
        exact Nat.le_trans (sound.taken request held waits old there named
          (.inr (by simp [lease]))) (Nat.le_max_right ..)
    taken := by
      intro request held waits row member named used
      obtain old | ⟨old, there, lease, -, rfl⟩ := rows row member
      · exact sound.taken request held waits row old named used
      · rw [rowIds] at named
        exact sound.taken request held waits old there named (.inr (by simp [lease]))
    woken := by
      intro request held waits row member named
      obtain old | ⟨old, there, lease, undelivered, rfl⟩ := rows row member
      · exact sound.woken request held waits row old named
      · rw [rowIds] at named
        cases back with
        | inl published =>
            refine .inr ((sound.woken request held waits old there named).resolve_left ?_)
            exact fun still => still.2 _ lease published
        | inr kept => exact .inl ⟨kept old undelivered, by simp [free]⟩
    tokens := sound.tokens
    leased := by
      intro row member token lease
      obtain old | ⟨old, there, -, -, rfl⟩ := rows row member
      · exact sound.leased row old token lease
      · rw [free] at lease
        cases lease
    swept := sound.swept }

theorem claimUnlockedOutbox_some {db changed : Database} {organizationId token : Uuid}
    {locked : List Uuid} {now : Time} {message : ClaimedDeletionOutbox}
    (taken : claimUnlockedOutbox db organizationId locked now token = (some message, changed)) :
    ∃ row ∈ db.deletionOutbox, row.Due now ∧ message.leaseToken = token ∧
      (∃ request ∈ db.deletionRequests, request.id = row.deletionId ∧
        (messageOf message).Names request) ∧
      changed = { db with
        deletionOutbox := update (·.deletionId) db.deletionOutbox row.deletionId fun row =>
          { row with
            leaseToken := some token, leaseExpiresAt := some (now + deletionLease)
            attemptCount := row.attemptCount + 1 } } := by
  unfold claimUnlockedOutbox at taken
  split at taken
  · cases taken
  · rename_i row request first
    obtain ⟨rfl, rfl⟩ := Prod.mk.inj taken |>.imp Option.some.inj id
    obtain ⟨due, sorted, joined⟩ := List.mem_filterMap.mp (List.mem_of_find?_eq_some first)
    obtain ⟨found, waiting, same⟩ := Option.map_eq_some_iff.mp joined
    cases same
    have member := List.mem_filter.mp (List.mem_mergeSort.mp sorted)
    have facts := List.find?_some waiting
    simp only [decide_eq_true_eq] at facts member
    exact ⟨row, member.1, member.2, rfl, ⟨request, List.mem_of_find?_eq_some waiting, facts.1,
      facts.1.symm, rfl, rfl⟩, rfl⟩

theorem Sound.claimDue (sound : w.Sound) {organizationId token : Uuid} {locked : List Uuid}
    {now : Time} (past : now ≤ w.clock)
    (fresh : ∀ sweep ∈ w.sweeps, sweep.message.leaseToken ≠ token)
    {message : ClaimedDeletionOutbox} {db : Database}
    (claims : claimUnlockedOutbox w.db organizationId locked now token = (some message, db)) :
    Sound { w with db, sweeps := w.sweeps ++ [⟨message, false⟩] } := by
  obtain ⟨leased, there, due, drawn, named, rfl⟩ := claimUnlockedOutbox_some claims
  have published : ∀ other, Published { w with sweeps := w.sweeps ++ [⟨message, false⟩] } other ↔
      w.Published other := by
    intro other
    simp [Published, or_and_right, exists_or]
  have rows : ∀ row ∈ update (·.deletionId) w.db.deletionOutbox leased.deletionId (fun row =>
      { row with
        leaseToken := some token, leaseExpiresAt := some (now + deletionLease)
        attemptCount := row.attemptCount + 1 }),
      row ∈ w.db.deletionOutbox ∨ row.deletionId = leased.deletionId ∧
        row.leaseToken = some token ∧ row.leaseExpiresAt = some (now + deletionLease) ∧
          row.deliveredAt = none ∧ row.nextAttemptAt = leased.nextAttemptAt := by
    intro row member
    obtain ⟨old, earlier, same⟩ := mem_update.mp member
    split at same
    · rename_i hit
      have equal : old = leased :=
        List.inj_on_of_nodup_map sound.scheduled.outboxIds earlier there hit
      subst equal
      subst same
      exact .inr ⟨rfl, rfl, rfl, due.1, rfl⟩
    · exact .inl (same ▸ earlier)
  exact {
    scheduled := {
      requestIds := sound.scheduled.requestIds
      outboxIds := nodup_update (fun _ => rfl) sound.scheduled.outboxIds
      ofRequest := by
        intro row member
        obtain old | ⟨id, -⟩ := rows row member
        · exact sound.scheduled.ofRequest row old
        · rw [id]
          exact sound.scheduled.ofRequest leased there
      rows := by
        intro request held open_
        obtain ⟨row, earlier, id⟩ := sound.scheduled.rows request held open_
        refine ⟨_, List.mem_map_of_mem earlier, ?_⟩
        split <;> exact id
      leases := sound.scheduled.leases }
    due := by
      intro request held waits row member id
      obtain old | ⟨same, -, -, -, next⟩ := rows row member
      · exact sound.due request held waits row old id
      · rw [next]
        exact sound.due request held waits leased there (same.symm.trans id)
    taken := by
      intro request held waits row member id used
      obtain old | ⟨same, -⟩ := rows row member
      · exact sound.taken request held waits row old id used
      · exact Nat.le_trans (sound.due request held waits leased there (same.symm.trans id))
          (Nat.max_le.mpr ⟨Nat.le_trans due.2.1 past, Nat.le_refl _⟩)
    woken := by
      intro request held waits row member id
      obtain old | ⟨-, lease, -, undelivered, -⟩ := rows row member
      · obtain still | comes := sound.woken request held waits row old id
        · refine .inl ⟨still.1, fun other leases out => ?_⟩
          exact still.2 other leases ((published other).mp out)
        · exact .inr comes
      · refine .inl ⟨undelivered, fun other leases out => ?_⟩
        rw [lease] at leases
        cases leases
        obtain ⟨sweep, listed, -, same⟩ := (published token).mp out
        exact fresh sweep listed same
    tokens := nodup_map_concat sound.tokens fun sweep listed same =>
      fresh sweep listed (same.trans drawn)
    leased := by
      intro row member other leases
      obtain old | ⟨id, lease, expires, -⟩ := rows row member
      · obtain ⟨held, sweep, listed, facts⟩ := sound.leased row old other leases
        exact ⟨held, sweep, List.mem_append_left _ listed, facts⟩
      · rw [lease] at leases
        cases leases
        obtain ⟨request, -, same, names⟩ := named
        exact ⟨expires ▸ rfl, _, List.mem_append_right _ (List.mem_singleton_self _), drawn,
          names.1.trans (same.trans id.symm)⟩
    swept := by
      intro sweep listed
      rw [List.mem_append, List.mem_singleton] at listed
      obtain old | rfl := listed
      · exact sound.swept sweep old
      · obtain ⟨request, held, -, names⟩ := named
        exact ⟨request, held, names⟩ }

theorem Sound.publish (sound : w.Sound) {sweep : Sweep} (listed : sweep ∈ w.sweeps) :
    Sound { w with
      sweeps := w.sweeps.erase sweep ++ [⟨sweep.message, true⟩]
      deliveries := w.deliveries ++ [messageOf sweep.message] } := by
  have others : ∀ other, other ∈ w.sweeps.erase sweep ++ [(⟨sweep.message, true⟩ : Sweep)] ↔
      other ∈ w.sweeps.erase sweep ∨ other = ⟨sweep.message, true⟩ := by simp
  have kept : ∀ other ∈ w.sweeps, ∃ later ∈ w.sweeps.erase sweep ++ [⟨sweep.message, true⟩],
      later.message = other.message := by
    intro other here
    by_cases same : other = sweep
    · exact ⟨_, List.mem_append_right _ (List.mem_singleton_self _), by rw [same]⟩
    · exact ⟨other, List.mem_append_left _ ((List.mem_erase_of_ne same).mpr here), rfl⟩
  have former : ∀ later ∈ w.sweeps.erase sweep ++ [(⟨sweep.message, true⟩ : Sweep)],
      ∃ other ∈ w.sweeps, other.message = later.message := by
    intro later here
    obtain old | rfl := (others later).mp here
    · exact ⟨later, List.mem_of_mem_erase old, rfl⟩
    · exact ⟨sweep, listed, rfl⟩
  exact {
    scheduled := sound.scheduled
    due := sound.due
    taken := sound.taken
    woken := by
      intro request held waits row there id
      obtain still | ⟨delivery, queued, comes⟩ := sound.woken request held waits row there id
      · by_cases lease : row.leaseToken = some sweep.message.leaseToken
        · -- the delivery stands where the row was
          obtain ⟨-, other, here, token, deletion⟩ := sound.leased row there _ lease
          have same : other = sweep := List.inj_on_of_nodup_map sound.tokens here listed token
          obtain ⟨owner, known, names⟩ := sound.swept sweep listed
          have equal : owner = request := sound.scheduled.eq_of_id known held
            (names.1.symm.trans ((same ▸ deletion).trans id))
          exact .inr ⟨_, List.mem_append_right _ (List.mem_singleton_self _), equal ▸ names,
            trivial⟩
        · refine .inl ⟨still.1, fun token leases out => ?_⟩
          obtain ⟨later, here, out, named⟩ := out
          obtain old | rfl := (others later).mp here
          · exact still.2 token leases ⟨later, List.mem_of_mem_erase old, out, named⟩
          · exact lease (named ▸ leases)
      · exact .inr ⟨delivery, List.mem_append_left _ queued, comes⟩
    tokens := by
      have order : (w.sweeps.map (·.message.leaseToken)).Perm
          ((w.sweeps.erase sweep ++ [(⟨sweep.message, true⟩ : Sweep)]).map
            (·.message.leaseToken)) := by
        refine ((List.perm_cons_erase listed).map _).trans ?_
        rw [List.map_append, List.map_cons]
        exact (List.perm_append_singleton _ _).symm
      exact order.nodup_iff.mp sound.tokens
    leased := by
      intro row there token lease
      obtain ⟨held, other, here, facts⟩ := sound.leased row there token lease
      obtain ⟨later, now_, same⟩ := kept other here
      exact ⟨held, later, now_, same ▸ facts⟩
    swept := by
      intro later here
      obtain ⟨other, known, same⟩ := former later here
      exact same ▸ sound.swept other known }

theorem Sound.redeliver (sound : w.Sound) (delivery : DeletionDelivery) :
    Sound { w with deliveries := w.deliveries ++ [delivery] } :=
  sound.step (.of_same sound.scheduled rfl rfl) (Nat.le_refl _) rfl
    fun _ _ _ _ other queued comes => ⟨other, List.mem_append_left _ queued, comes⟩

theorem Sound.serve (sound : w.Sound) (event : DeletionEvent)
    (past : ∀ now ∈ event.now?, now ≤ w.clock) : (w.serve policy event).Sound := by
  unfold DeletionWorld.serve
  split
  · exact sound.step (.of_same sound.scheduled rfl rfl) (Nat.le_add_right ..) rfl
      fun _ _ _ _ delivery queued comes => ⟨delivery, queued, comes⟩
  · split
    · exact sound
    rename_i free
    split
    · exact sound
    · rename_i done
      refine sound.write (acceptDeletion_reschedules sound.scheduled (fun request held same => ?_)
        done)
      exact free (List.any_eq_true.mpr ⟨request, held, decide_eq_true same⟩)
  · split
    · exact sound
    · rename_i done
      exact sound.write (inventoryLateArtifact_reschedules sound.scheduled done)
  · exact sound.write (recoverUnlockedDeletions_reschedules sound.scheduled _ _ _)
  · split
    · exact sound
    rename_i free
    split
    · exact sound
    · rename_i claims
      refine sound.claimDue (past _ rfl) (fun sweep listed same => ?_) claims
      exact free (List.any_eq_true.mpr ⟨sweep, listed, decide_eq_true same⟩)
  · split
    · rename_i listed
      exact sound.publish listed.1
    · exact sound
  · split
    · rename_i listed
      exact sound.updateLeased _ _ (fun _ => rfl) (fun _ => rfl)
        (.inl ⟨_, listed.1, listed.2, rfl⟩)
    · exact sound
  · split
    · exact sound.updateLeased _ _ (fun _ => rfl) (fun _ => rfl) (.inr fun _ kept => kept)
    · exact sound
  · exact sound.redeliver _
  · exact sound

theorem deletionStep_sound (policy : DeletionRetryPolicy) (sound : w.Sound) (event : DeletionEvent)
    (careful : w.Careful event) : (deletionStep policy w event).Sound := by
  unfold deletionStep
  split
  · exact sound
  rename_i past
  split
  · rename_i about
    split
    · rename_i queued
      exact sound.handle rfl event about queued careful
    · exact sound
  · refine sound.serve event fun now reads => Nat.not_lt.mp fun later => past ?_
    rw [Option.mem_def.mp reads]
    exact decide_eq_true later

/-! Runs -/

/-- Nothing has been asked for. -/
structure Initial (w : DeletionWorld) : Prop where
  requests : w.db.deletionRequests = []
  outbox : w.db.deletionOutbox = []
  sweeps : w.sweeps = []

theorem Initial.sound (initial : w.Initial) : w.Sound := by
  obtain ⟨requests, outbox, sweeps⟩ := initial
  have scheduled : w.db.Scheduled := by constructor <;> simp [requests, outbox]
  constructor <;> simp [requests, outbox, sweeps, scheduled]

/-- A sweeper finds the row of the request from some time on, and no message is in the queue under
its lease; or a delivery is on its way that finds the request due. -/
def Awaited (w : DeletionWorld) (request : AgreementDeletionRequestRecord) : Prop :=
  (∃ row ∈ w.db.deletionOutbox, w.Open row ∧ ∃ due, ∀ now, due ≤ now →
    (row, request) ∈ dueOutbox w.db request.organizationId now) ∨
  request.nextAttemptAt ≤ w.clock ∧ ∃ delivery ∈ w.deliveries, delivery.Comes request

/-- Once its lease has run out, a sweeper that does not find it locked sets the request back, and
its row with it. -/
def Recoverable (w : DeletionWorld) (request : AgreementDeletionRequestRecord) : Prop :=
  ∃ lease, request.leaseExpiresAt = some lease ∧ ∀ now locked, lease ≤ now →
    request.id ∉ locked →
      let recovered := recoverUnlockedDeletions w.db request.organizationId locked now
      ∃ later ∈ recovered.deletionRequests, later.id = request.id ∧ later.state = .retrying ∧
        ∃ row, (row, later) ∈ dueOutbox recovered request.organizationId now

theorem mem_dueOutbox {db : Database} (scheduled : db.Scheduled)
    {request : AgreementDeletionRequestRecord} (held : request ∈ db.deletionRequests)
    (waits : request.Waiting) {row : AgreementDeletionOutboxRecord}
    (there : row ∈ db.deletionOutbox) (named : row.deletionId = request.id) {now : Time}
    (due : row.Due now) : (row, request) ∈ dueOutbox db request.organizationId now := by
  refine List.mem_filterMap.mpr ⟨row, List.mem_mergeSort.mpr
    (List.mem_filter.mpr ⟨there, decide_eq_true due⟩), ?_⟩
  have joined : db.waitingRequest? request.organizationId row = some request := by
    cases found : db.waitingRequest? request.organizationId row with
    | none =>
        exact absurd (decide_eq_true ⟨named.symm, rfl, waits⟩)
          (List.find?_eq_none.mp found request held)
    | some other =>
        rw [Database.waitingRequest?] at found
        have facts := List.find?_some found
        simp only [decide_eq_true_eq] at facts
        rw [scheduled.eq_of_id (List.mem_of_find?_eq_some found) held (facts.1.trans named)]
  rw [joined]
  rfl

/-- An undelivered row is due from some time on. -/
theorem Sound.due_from (sound : w.Sound) {row : AgreementDeletionOutboxRecord}
    (there : row ∈ w.db.deletionOutbox) (undelivered : row.deliveredAt = none) :
    ∃ due, ∀ now, due ≤ now → row.Due now := by
  cases lease : row.leaseToken with
  | none => exact ⟨row.nextAttemptAt, fun now later => ⟨undelivered, later, .inl lease⟩⟩
  | some token =>
      obtain ⟨expires, until_⟩ := Option.isSome_iff_exists.mp (sound.leased row there token lease).1
      refine ⟨max row.nextAttemptAt expires, fun now later => ⟨undelivered, ?_, .inr ?_⟩⟩
      · exact Nat.le_trans (Nat.le_max_left ..) later
      · rw [until_]
        exact decide_eq_true (Nat.le_trans (Nat.le_max_right ..) later)

theorem Sound.awaited (sound : w.Sound) {request : AgreementDeletionRequestRecord}
    (held : request ∈ w.db.deletionRequests) (waits : request.Waiting) : w.Awaited request := by
  have standing : request.state ≠ .completed := by
    cases waits <;> simp [*]
  obtain ⟨row, there, named⟩ := sound.scheduled.rows request held standing
  have listed : w.Open row → ∃ due, ∀ now, due ≤ now →
      (row, request) ∈ dueOutbox w.db request.organizationId now := by
    intro still
    obtain ⟨due, from_⟩ := sound.due_from there still.1
    exact ⟨due, fun now later =>
      mem_dueOutbox sound.scheduled held waits there named (from_ now later)⟩
  obtain still | reached := sound.open_or_due held waits there named
  · exact .inl ⟨row, there, still, listed still⟩
  · obtain still | comes := sound.woken request held waits row there named
    · exact .inl ⟨row, there, still, listed still⟩
    · exact .inr ⟨reached, comes⟩

theorem Sound.recoverable (sound : w.Sound) {request : AgreementDeletionRequestRecord}
    (held : request ∈ w.db.deletionRequests) (busy : request.state = .processing) :
    w.Recoverable request := by
  obtain ⟨lease, until_⟩ := Option.isSome_iff_exists.mp
    (sound.scheduled.leases request held busy)
  refine ⟨lease, until_, fun now locked later free => ?_⟩
  have stale : request.id ∈ (w.db.deletionRequests.filter fun other =>
      other.Stale request.organizationId now ∧ other.id ∉ locked).map (·.id) := by
    refine List.mem_map.mpr ⟨request, List.mem_filter.mpr ⟨held, ?_⟩, rfl⟩
    exact decide_eq_true ⟨⟨rfl, busy, by rw [until_]; exact decide_eq_true later⟩, free⟩
  obtain ⟨row, there, named⟩ := sound.scheduled.rows request held (by simp [busy])
  have writes := recoverUnlockedDeletions_reschedules sound.scheduled request.organizationId
    locked now
  have back : _ ∈ (recoverUnlockedDeletions w.db request.organizationId locked
      now).deletionRequests := List.mem_map_of_mem held
  have reset : _ ∈ (recoverUnlockedDeletions w.db request.organizationId locked
      now).deletionOutbox := List.mem_map_of_mem there
  rw [if_pos stale] at back
  rw [if_pos (named ▸ stale)] at reset
  refine ⟨_, back, rfl, rfl, _, mem_dueOutbox writes.scheduled back (.inr rfl) reset named ?_⟩
  exact ⟨rfl, Nat.le_refl _, .inl rfl⟩

/-- No deletion is forgotten, whatever the API, the sweepers, the workers and the queue do in
whatever order: a request that waits is awaited, and one that is being worked on is set back when
its worker has died, as long as a claim that skips a locked row leaves the wake-up to somebody. -/
theorem run_never_forgets (policy : DeletionRetryPolicy) (initial : w.Initial)
    {events : List DeletionEvent} (careful : meetsAlong (deletionStep policy) Careful w events)
    {request : AgreementDeletionRequestRecord}
    (held : request ∈ (run (deletionStep policy) w events).db.deletionRequests) :
    (request.Waiting → (run (deletionStep policy) w events).Awaited request) ∧
    (request.state = .processing → (run (deletionStep policy) w events).Recoverable request) := by
  have sound : (run (deletionStep policy) w events).Sound :=
    run_invariant_along Careful Sound initial.sound
      (fun _ event meets kept => deletionStep_sound policy kept event meets)
      (meetsAlong_iff.mp careful)
  exact ⟨sound.awaited held, sound.recoverable held⟩

/-- A deletion is accepted and its message goes out; the delivery that meets a locked row leaves
the deletion to another one, which claims it. -/
def sampleDeletionEvents : List DeletionEvent :=
  let message : ClaimedDeletionOutbox := ⟨.ofNat 7, .ofNat 3, .ofNat 1, .ofNat 2, .ofNat 71, 1⟩
  let delivery : DeletionStage → DeletionDelivery := .mk (.ofNat 7) (.ofNat 1) (.ofNat 2)
  [.acceptDeletion (.ofNat 1) (.ofNat 2) (.ofNat 3) (.ofNat 7) 100,
    .claimDue (.ofNat 1) [] 100 (.ofNat 71), .publish ⟨message, false⟩,
    .redeliver (.ofNat 7) (.ofNat 1) (.ofNat 2), .markDelivered ⟨message, true⟩ 100,
    .receive (delivery .waiting), .readClock (delivery .received), .skip (delivery (.clocked 100)),
    .acknowledge (delivery .returned), .receive (delivery .waiting),
    .readClock (delivery .received), .claim (delivery (.clocked 100)) (.ofNat 70)]

def sampleDeletionWorld : DeletionWorld where
  db := { sampleDatabase with jobs := [], comparisonRuns := [] }
  storage := []
  clock := 100
  sweeps := []
  deliveries := []

theorem run_never_forgets_sample :
    ∃ request ∈ (run (deletionStep {}) sampleDeletionWorld
      sampleDeletionEvents).db.deletionRequests, request.state = .processing ∧
      (run (deletionStep {}) sampleDeletionWorld sampleDeletionEvents).Recoverable request := by
  have facts : meetsAlong (deletionStep {}) Careful sampleDeletionWorld sampleDeletionEvents ∧
      ∃ request ∈ (run (deletionStep {}) sampleDeletionWorld
        sampleDeletionEvents).db.deletionRequests, request.state = .processing := by
    decide +kernel
  obtain ⟨careful, request, held, busy⟩ := facts
  exact ⟨request, held, busy,
    (run_never_forgets {} ⟨rfl, rfl, rfl⟩ careful held).2 busy⟩

end DeletionWorld

end AgreementIntelligence.Agreements
