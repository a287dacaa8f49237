import AgreementIntelligence.Agreements.JobWrites
import AgreementIntelligence.Agreements.Queue

/-! No unfinished job is forgotten. The invariant says who comes for a job: an undelivered
outbox row that no dispatcher has published yet, or a delivery that will not be acknowledged
before it has done something about the job. Such a delivery waits, or has been received and
claims next, or holds the claim that owns the job, or is about to enqueue a retry. `handle`
returns without a word only when its claim does not own the job any more, and then the one
who took the job over has a delivery of its own. -/

namespace AgreementIntelligence.Agreements
open Identity Lib.Table Lib.Runs

/-! Jobs stay what they are, and agreements do not come back -/

structure Steady (before after : Database) : Prop where
  jobIds : (after.jobs.map (·.id)).Nodup
  contexts : ∀ job ∈ before.jobs, ∃ row ∈ after.jobs,
    row.id = job.id ∧ row.context = job.context
  active : ∀ context, after.IsActive context → before.IsActive context

theorem isActive_iff (db : Database) (context : ArtifactContext) : db.IsActive context ↔
    (db.agreements.map (·.standing)).find? (fun standing => standing.1 =
        ⟨context.agreementId, context.organizationId, context.workspaceId⟩) =
      some (⟨context.agreementId, context.organizationId, context.workspaceId⟩, none) := by
  have same : (fun agreement : AgreementRecord => decide (agreement.standing.1 =
        ⟨context.agreementId, context.organizationId, context.workspaceId⟩)) =
      fun agreement => decide (agreement.id = context.agreementId ∧
        agreement.organizationId = context.organizationId ∧
        agreement.workspaceId = context.workspaceId) := by
    funext agreement
    simp [AgreementRecord.standing, AgreementRecord.scope]
  rw [List.find?_map, Function.comp_def, same]
  constructor
  · rintro ⟨agreement, found, active⟩
    obtain ⟨-, id, organization, workspace⟩ := Database.agreement?_eq_some found
    unfold Database.agreement? at found
    rw [found, Option.map_some, AgreementRecord.standing, AgreementRecord.scope, id, organization,
      workspace, active]
  · intro found
    obtain ⟨agreement, here, standing⟩ := Option.map_eq_some_iff.mp found
    exact ⟨agreement, here, congrArg Prod.snd standing⟩

theorem isActive_of_standing {before after : Database}
    (same : after.agreements.map (·.standing) = before.agreements.map (·.standing))
    {context : ArtifactContext} (active : after.IsActive context) : before.IsActive context := by
  rw [isActive_iff] at active ⊢
  rwa [same] at active

theorem Steady.refl {db : Database} (distinct : (db.jobs.map (·.id)).Nodup) : Steady db db :=
  ⟨distinct, fun job member => ⟨job, member, rfl, rfl⟩, fun _ => id⟩

theorem JobFace.moved_kept (jobId : Uuid) (state : JobState) (face : JobFace) :
    face.moved jobId state = { face with state := (face.moved jobId state).state } := by
  unfold JobFace.moved
  split <;> rfl

/-- The writes of worker calls. -/
theorem Effect.steady {before after : Database} {write : Option (ProcessingJobRecord × JobState)}
    (distinct : (before.jobs.map (·.id)).Nodup) (effect : Effect before write after) :
    Steady before after := by
  cases write with
  | none =>
    have unwritten : Unwritten before after := effect
    refine ⟨?_, fun job member => ?_, fun context active => ?_⟩
    · have ids := congrArg (List.map JobFace.id) unwritten.jobs
      rw [List.map_map, List.map_map] at ids
      exact ids ▸ distinct
    · obtain ⟨row, present, face⟩ := exists_mem_of_map_eq unwritten.jobs.symm member
      simp only [ProcessingJobRecord.face, JobFace.mk.injEq] at face
      exact ⟨row, present, face.1, by simp [ProcessingJobRecord.context, face]⟩
    · exact isActive_of_standing (by rw [unwritten.agreements]) active
  | some write =>
    have written : Written before write.1 write.2 after := effect
    refine ⟨?_, fun job member => ?_, fun context active => ?_⟩
    · have ids := congrArg (List.map JobFace.id) written.jobs
      rw [List.map_map, List.map_map] at ids
      have same : before.jobs.map (JobFace.id ∘ fun row => row.face.moved write.1.id write.2) =
          before.jobs.map (·.id) := by
        refine List.map_congr_left fun row _ => ?_
        rw [Function.comp_apply, JobFace.moved_kept]
        rfl
      rw [same] at ids
      exact ids ▸ distinct
    · have image : job.face.moved write.1.id write.2 ∈ after.jobs.map (·.face) := by
        rw [written.jobs]
        exact List.mem_map.mpr ⟨job, member, rfl⟩
      obtain ⟨row, present, face⟩ := List.mem_map.mp image
      rw [JobFace.moved_kept] at face
      simp only [ProcessingJobRecord.face, JobFace.mk.injEq] at face
      exact ⟨row, present, face.1, by simp [ProcessingJobRecord.context, face]⟩
    · refine isActive_of_standing ?_ active
      rw [written.agreements]
      exact updateAgreementProcessingState_standing before write.1 write.2

/-- The database of a call that has returned. -/
theorem Effect.steady_ok {α : Type} {before after : Database} {value : α}
    {write : Option (ProcessingJobRecord × JobState)} {outcome : Except Raised (α × Database)}
    (distinct : (before.jobs.map (·.id)).Nodup)
    (effect : Effect before write (committed before (outcome.map Prod.snd)))
    (done : outcome = .ok (value, after)) : Steady before after := by
  subst done
  exact effect.steady distinct

/-! The owner of a job -/

/-- The claim owns the job, and the agreement is active. -/
structure Owns (db : Database) (claimed : ProcessingJob) (job : ProcessingJobRecord) : Prop where
  found : db.job? claimed.id = some job
  context : job.context = claimed.context
  owned : job.OwnedBy claimed
  active : db.IsActive job.context

section Owner
variable {db after : Database} {claimed : ProcessingJob} {job : ProcessingJobRecord}

theorem Owns.scope (owns : Owns db claimed job) :
    job.MatchesTenantScope claimed.organizationId claimed.workspaceId :=
  ⟨congrArg (·.organizationId) owns.context, congrArg (·.workspaceId) owns.context⟩

/-- The agreement of the job, found through the job and through the claim. -/
theorem Owns.agreement (owns : Owns db claimed job) : ∃ agreement,
    db.agreement? job.agreementId job.organizationId job.workspaceId = some agreement ∧
      db.agreement? claimed.agreementId claimed.organizationId claimed.workspaceId =
        some agreement ∧ agreement.deletionRequestedAt = none := by
  obtain ⟨agreement, found, active⟩ := owns.active
  have same := found
  rw [owns.context] at same
  exact ⟨agreement, found, same, active⟩

theorem Owns.expect_ne (owns : Owns db claimed job) (artifact : CompletedArtifact) (now : Time) :
    expect db claimed artifact now ≠ .ok (false, after) := by
  obtain ⟨agreement, -, stored, active⟩ := owns.agreement
  intro done
  unfold expect at done
  split at done
  · cases done
  rw [stored, owns.found] at done
  simp only at done
  rw [if_neg (not_not.mpr owns.owned)] at done
  split at done
  · rw [if_neg (by simp [active])] at done
    cases done
  · split at done
    · cases done
    · rw [if_neg (by simp [active])] at done
      cases done

theorem Owns.commit_ne (owns : Owns db claimed job) (storage : List String)
    (prepared : PreparedArtifact) (verdict : Except Raised Unit) (now : Time) :
    (commitPrepared db storage claimed prepared verdict now).2 ≠ .ok (false, after) := by
  obtain ⟨agreement, -, stored, active⟩ := owns.agreement
  have decides : (∃ raised, decideCommit db claimed prepared now = .stops (.error raised)) ∨
      decideCommit db claimed prepared now = .writes job := by
    unfold decideCommit
    simp only [stored, owns.found]
    split
    · exact .inl ⟨_, rfl⟩
    · rw [if_neg (not_not.mpr owns.scope), if_neg (not_not.mpr owns.owned)]
      split
      · exact .inl ⟨_, rfl⟩
      · rw [if_neg (by simp [active])]
        exact .inr rfl
  intro done
  unfold commitPrepared at done
  rcases decides with ⟨raised, stops⟩ | writes
  · rw [stops] at done
    cases done
  · rw [writes] at done
    simp only at done
    cases finalized : finalize db claimed verdict with
    | error raised =>
      rw [finalized] at done
      cases done
    | ok finished =>
      rw [finalized] at done
      cases done

theorem Owns.requeue_ne (owns : Owns db claimed job) (category message : String)
    (nextRetryAt : Time) (expected : Option CompletedArtifact) (now : Time) :
    requeue db claimed category message nextRetryAt expected now ≠ .ok (false, after) := by
  obtain ⟨agreement, stored, -, active⟩ := owns.agreement
  intro done
  unfold requeue at done
  rw [owns.found] at done
  simp only at done
  rw [if_neg (not_not.mpr owns.scope), stored] at done
  simp only at done
  rw [if_neg (by simp [active]), if_neg (not_not.mpr owns.owned)] at done
  cases done

theorem Owns.fail_eq (owns : Owns db claimed job) (category message : String)
    (expected : Option CompletedArtifact) (now : Time) :
    fail db claimed category message expected now = .ok (failRows { db with
      intents := update (·.jobId) db.intents claimed.id fun row => { row with state := .settled } }
      claimed.id job category message now) := by
  obtain ⟨agreement, stored, -, active⟩ := owns.agreement
  unfold fail
  rw [owns.found]
  simp only
  rw [if_neg (not_not.mpr owns.scope), stored]
  simp only
  rw [if_neg (not_not.mpr owns.owned), if_neg (by simp [active])]
  rfl
end Owner

/-! The rows that a call leaves unfinished -/

/-- After an update that ends a job, an unfinished row is an old row of another job. -/
theorem unfinished_of_update (before : List ProcessingJobRecord)
    {after : List ProcessingJobRecord} {target : Uuid}
    {change : ProcessingJobRecord → ProcessingJobRecord}
    (jobs : after = update (·.id) before target change)
    (ends : ∀ row, ¬ (change row).Unfinished) {row : ProcessingJobRecord}
    (present : row ∈ after) (unfinished : row.Unfinished) :
    row ∈ before ∧ row.id ≠ target := by
  rw [jobs] at present
  obtain ⟨old, there, rfl⟩ := mem_update.mp present
  by_cases hit : old.id = target
  · rw [if_pos hit] at unfinished
    exact absurd unfinished (ends old)
  · rw [if_neg hit]
    exact ⟨there, hit⟩

theorem completeJob_ends (now : Time) (row : ProcessingJobRecord) :
    ¬ (completeJob now row).Unfinished := by
  simp [ProcessingJobRecord.Unfinished, completeJob]

theorem failJob_ends (category message : String) (now : Time) (row : ProcessingJobRecord) :
    ¬ (failJob category message now row).Unfinished := by
  simp [ProcessingJobRecord.Unfinished, failJob]

theorem Failed.unfinished {before after : Database} {claimed : ProcessingJob}
    {expected : Option CompletedArtifact} {category message : String} {now : Time}
    (failed : Failed before claimed expected category message now after)
    {row : ProcessingJobRecord} (present : row ∈ after.jobs) (unfinished : row.Unfinished) :
    row ∈ before.jobs := by
  cases failed with
  | inventoried late => exact late.sameRows.jobs ▸ present
  | reconciled found owned requested done =>
    have old := unfinished_of_update before.jobs (by rw [failRows_jobs, done.sameRows.jobs])
      (failJob_ends category message now) present unfinished
    exact old.1
  | settled found owned active =>
    have old := unfinished_of_update before.jobs (by rw [failRows_jobs])
      (failJob_ends category message now) present unfinished
    exact old.1

theorem Committed.jobs_of_false {before after : Database} {storage left : List String}
    {claimed : ProcessingJob} {prepared : PreparedArtifact} {now : Time}
    (outcome : Committed before storage claimed prepared now left (.ok (false, after))) :
    after.jobs = before.jobs := by
  cases outcome with
  | stopped returns => exact (returns _ _ rfl).2.sameRows.jobs

theorem Committed.unfinished {before after : Database} {storage left : List String}
    {claimed : ProcessingJob} {prepared : PreparedArtifact} {now : Time}
    (outcome : Committed before storage claimed prepared now left (.ok (true, after)))
    {row : ProcessingJobRecord} (present : row ∈ after.jobs) (unfinished : row.Unfinished) :
    row ∈ before.jobs ∧ row.id ≠ claimed.id := by
  cases outcome with
  | stopped returns => cases (returns _ _ rfl).1
  | @committed job finalized writes runs =>
    obtain ⟨comparisonRuns, rfl⟩ := runs
    rw [commitRows_jobs] at present
    exact unfinished_of_update before.jobs rfl (completeJob_ends now) present unfinished

/-- A claim of an unfinished job that gives nobody the job finds its artifact stored. -/
theorem claim_unfinished {db after : Database}
    {jobId organizationId workspaceId claimToken : Uuid} {now : Time} {job : ProcessingJobRecord}
    (done : claim db jobId organizationId workspaceId now claimToken = .ok (none, after))
    (found : db.job? jobId = some job) (scope : job.MatchesTenantScope organizationId workspaceId)
    (active : db.IsActive job.context) (unfinished : job.Unfinished) :
    after.jobs = update (·.id) db.jobs jobId (completeJob now) := by
  obtain ⟨agreement, stored, open_⟩ := active
  have held : db.agreement? job.agreementId job.organizationId job.workspaceId =
      some agreement := stored
  have open' : job.state ≠ .completed := by
    rcases unfinished with queued | processing
    · simp [queued]
    · simp [processing]
  unfold claim at done
  rw [found] at done
  simp only at done
  rw [if_neg (not_not.mpr scope), held] at done
  simp only at done
  rw [if_neg (by simp [open_])] at done
  split at done
  · cases done
    rw [updateAgreementProcessingState_jobs]
    rfl
  · split at done
    · cases done
    · rw [if_pos unfinished.symm] at done
      cases done

theorem claim_none_rows {db after : Database}
    {jobId organizationId workspaceId claimToken : Uuid} {now : Time} {row : ProcessingJobRecord}
    (distinct : (db.jobs.map (·.id)).Nodup)
    (done : claim db jobId organizationId workspaceId now claimToken = .ok (none, after))
    (present : row ∈ after.jobs) (unfinished : row.Unfinished) (active : db.IsActive row.context) :
    row ∈ db.jobs ∧ ¬ (row.id = jobId ∧ row.MatchesTenantScope organizationId workspaceId) := by
  have old : row ∈ db.jobs := by
    cases claim_ok done with
    | idle => exact present
    | reconciled requested reconciles => exact reconciles.sameRows.jobs ▸ present
    | @settled job agreement found isActive stored =>
      rw [updateAgreementProcessingState_jobs] at present
      split at present
      · exact present
      · exact (unfinished_of_update db.jobs rfl (completeJob_ends now) present unfinished).1
  refine ⟨old, ?_⟩
  rintro ⟨rfl, scope⟩
  have ended := claim_unfinished done (find?_of_mem distinct old) scope active unfinished
  exact (unfinished_of_update db.jobs ended (completeJob_ends now) present unfinished).2 rfl

/-! Who comes for a job -/

/-- A handling at this stage does not end without doing something about the job. -/
def HandlingStage.Comes (job : ProcessingJobRecord) : HandlingStage → Prop
  | .claimed owner => job.OwnedBy owner
  | .returned => False
  | _ => True

def Delivery.Wakes (delivery : Delivery) (job : ProcessingJobRecord) : Prop :=
  delivery.Names job ∧ delivery.stage.Comes job

def QueueWorld.Woken (w : QueueWorld) (job : ProcessingJobRecord) : Prop :=
  (∃ place row, w.outbox[place]? = some row ∧ row.Names job ∧ row.deliveredAt = none ∧
    place ∉ w.published) ∨ ∃ delivery ∈ w.queue, delivery.Wakes job

/-- The claim that a handling holds. -/
def HandlingStage.claim? : HandlingStage → Option ProcessingJob
  | .claimed job => some job
  | .requeued job => some job
  | _ => none

/-- The claim is of the job of the delivery, and of what the job is. -/
structure Delivery.Holds (delivery : Delivery) (db : Database) (claimed : ProcessingJob) :
    Prop where
  id : claimed.id = delivery.jobId
  organizationId : claimed.organizationId = delivery.organizationId
  workspaceId : claimed.workspaceId = delivery.workspaceId
  job : ∃ job ∈ db.jobs, job.id = claimed.id ∧ job.context = claimed.context

structure QueueWorld.Sound (w : QueueWorld) : Prop where
  jobIds : (w.db.jobs.map (·.id)).Nodup
  published : ∀ place ∈ w.published, place < w.outbox.length
  claims : ∀ delivery ∈ w.queue, ∀ claimed, delivery.stage.claim? = some claimed →
    delivery.Holds w.db claimed
  woken : ∀ job ∈ w.db.jobs, job.Unfinished → w.db.IsActive job.context → w.Woken job

theorem QueueWorld.Sound.losesNoJob {w : QueueWorld} (sound : w.Sound) : w.LosesNoJob := by
  intro job member unfinished active
  rcases sound.woken job member unfinished active with
    ⟨place, row, here, names, pending, -⟩ | ⟨delivery, queued, wakes⟩
  · exact .inl ⟨row, List.mem_of_getElem? here, names, pending⟩
  · exact .inr ⟨delivery, queued, wakes.1⟩

theorem QueueWorld.Sound.storage {w : QueueWorld} (sound : w.Sound) (storage : List String) :
    QueueWorld.Sound { w with storage := storage } :=
  ⟨sound.jobIds, sound.published, sound.claims, sound.woken⟩

/-- A delivery whose claim owns an unfinished job of an active agreement. -/
theorem QueueWorld.Sound.owns {w : QueueWorld} (sound : w.Sound) {delivery : Delivery}
    {claimed : ProcessingJob} {job : ProcessingJobRecord} (member : delivery ∈ w.queue)
    (stage : delivery.stage = .claimed claimed) (present : job ∈ w.db.jobs)
    (active : w.db.IsActive job.context) (wakes : delivery.Wakes job) :
    Owns w.db claimed job := by
  have holds := sound.claims delivery member claimed (by rw [stage]; rfl)
  obtain ⟨row, there, named, context⟩ := holds.job
  have id : claimed.id = job.id := holds.id.trans wakes.1.1
  have same : row = job :=
    List.inj_on_of_nodup_map sound.jobIds there present (named.trans id)
  have owned := wakes.2
  rw [stage] at owned
  exact ⟨id ▸ find?_of_mem sound.jobIds present, same ▸ context, owned, active⟩

/-- The handling of a delivery comes to another stage, over the database of a call. What the
delivery came for before, it comes for now, or the call has ended it. -/
theorem QueueWorld.Sound.proceed {w : QueueWorld} (sound : w.Sound) {delivery : Delivery}
    (stage : HandlingStage) {db : Database} (steady : Steady w.db db)
    (claims : ∀ claimed, stage.claim? = some claimed → delivery.Holds db claimed)
    (rows : ∀ row ∈ db.jobs, row.Unfinished → w.db.IsActive row.context →
      (row ∈ w.db.jobs ∧ (delivery.Wakes row → stage.Comes row)) ∨
        (delivery.Names row ∧ stage.Comes row)) :
    (w.proceed delivery stage db).Sound where
  jobIds := steady.jobIds
  published := sound.published
  claims other queued claimed held := by
    rcases List.mem_append.mp queued with rest | here
    · have holds := sound.claims other (List.mem_of_mem_erase rest) claimed held
      obtain ⟨job, there, named, context⟩ := holds.job
      obtain ⟨row, present, id, same⟩ := steady.contexts job there
      exact ⟨holds.id, holds.organizationId, holds.workspaceId, row, present, id.trans named,
        same.trans context⟩
    · rw [List.mem_singleton.mp here] at held ⊢
      have holds := claims claimed held
      exact ⟨holds.id, holds.organizationId, holds.workspaceId, holds.job⟩
  woken row present unfinished active := by
    have now : ∀ {job : ProcessingJobRecord}, delivery.Names job → stage.Comes job →
        (w.proceed delivery stage db).Woken job := fun names comes =>
      .inr ⟨{ delivery with stage := stage }, List.mem_append_right _ List.mem_cons_self, names,
        comes⟩
    rcases rows row present unfinished (steady.active _ active) with ⟨old, comes⟩ | ⟨names, comes⟩
    · rcases sound.woken row old unfinished (steady.active _ active) with
        pending | ⟨other, queued, wakes⟩
      · exact .inl pending
      · by_cases same : other = delivery
        · exact now (same ▸ wakes.1) (comes (same ▸ wakes))
        · refine .inr ⟨other, List.mem_append_left _ ?_, wakes⟩
          exact (List.mem_erase_of_ne same).mpr queued
    · exact now names comes

/-! The steps of a handling -/

section Handling
variable (policy : RetryPolicy) {w : QueueWorld} {delivery : Delivery}

/-- The call has raised: the delivery is back in the queue. -/
theorem QueueWorld.Sound.back (sound : w.Sound) : (w.proceed delivery .waiting w.db).Sound :=
  sound.proceed .waiting (Steady.refl sound.jobIds) nofun
    fun _ present _ _ => .inl ⟨present, fun _ => trivial⟩

/-- The handling returns when no unfinished job counts on it any more. -/
theorem QueueWorld.Sound.return (sound : w.Sound) {db : Database} (steady : Steady w.db db)
    (rows : ∀ row ∈ db.jobs, row.Unfinished → w.db.IsActive row.context →
      row ∈ w.db.jobs ∧ ¬ delivery.Wakes row) : (w.proceed delivery .returned db).Sound :=
  sound.proceed .returned steady nofun fun row present unfinished active =>
    .inl ⟨(rows row present unfinished active).1, fun wakes =>
      absurd wakes (rows row present unfinished active).2⟩

/-- A claim without a job for the handling. -/
theorem QueueWorld.Sound.claimNone (sound : w.Sound) {db : Database} {now : Time} {claimToken : Uuid} (steady : Steady w.db db)
    (done : claim w.db delivery.jobId delivery.organizationId delivery.workspaceId now claimToken =
      .ok (none, db)) : (w.proceed delivery .returned db).Sound := by
  refine sound.return steady fun row present unfinished active => ?_
  obtain ⟨old, apart⟩ := claim_none_rows sound.jobIds done present unfinished active
  exact ⟨old, fun wakes => apart ⟨wakes.1.1.symm, wakes.1.2.1.symm, wakes.1.2.2.symm⟩⟩

theorem QueueWorld.Sound.claimSome (sound : w.Sound) {db : Database} {now : Time}
    {claimToken : Uuid} {claimed : ProcessingJob} (steady : Steady w.db db)
    (done : claim w.db delivery.jobId delivery.organizationId delivery.workspaceId now claimToken =
      .ok (some claimed, db)) : (w.proceed delivery (.claimed claimed) db).Sound := by
  obtain ⟨job, starts, rfl, same⟩ := claim_starts done
  obtain ⟨member, named⟩ := Database.job?_eq_some starts.found
  have jobs : db.jobs = update (·.id) w.db.jobs delivery.jobId (startAttempt now claimToken) := by
    rw [same, updateAgreementProcessingState_jobs]
    rfl
  refine sound.proceed _ steady ?_ fun row present unfinished active => ?_
  · intro claimed held
    cases held
    obtain ⟨row, there, id, context⟩ := steady.contexts job member
    exact ⟨named, starts.scope.1, starts.scope.2, row, there, id, context⟩
  · rw [jobs] at present
    obtain ⟨old, there, rfl⟩ := mem_update.mp present
    by_cases hit : old.id = delivery.jobId
    · have alike : old = job :=
        List.inj_on_of_nodup_map sound.jobIds there member (hit.trans named.symm)
      rw [if_pos hit, alike]
      exact .inr ⟨⟨named.symm, starts.scope.1.symm, starts.scope.2.symm⟩, rfl, rfl⟩
    · rw [if_neg hit]
      exact .inl ⟨there, fun wakes => absurd wakes.1.1.symm hit⟩

theorem QueueWorld.Sound.claim (sound : w.Sound) (other : Delivery) (now : Time)
    (claimToken : Uuid) :
    (handleDelivery policy w delivery .received (.claim other now claimToken)).Sound := by
  have effect := claim_effect sound.jobIds delivery.jobId delivery.organizationId
    delivery.workspaceId now claimToken
  unfold handleDelivery
  simp only
  split
  · exact sound.back
  · rename_i done
    exact sound.claimNone (effect.steady_ok sound.jobIds done) done
  · rename_i done
    exact sound.claimSome (effect.steady_ok sound.jobIds done) done

/-- The handling goes on with its claim, and no job has changed. -/
theorem QueueWorld.Sound.goOn (sound : w.Sound) (member : delivery ∈ w.queue)
    {claimed : ProcessingJob} (stage : delivery.stage = .claimed claimed) {db : Database}
    (steady : Steady w.db db) (jobs : db.jobs = w.db.jobs) :
    (w.proceed delivery (.claimed claimed) db).Sound := by
  refine sound.proceed _ steady ?_ fun row present _ _ => ?_
  · intro other held
    have holds := sound.claims delivery member other (by rw [stage]; exact held)
    exact ⟨holds.id, holds.organizationId, holds.workspaceId, jobs ▸ holds.job⟩
  · refine .inl ⟨jobs ▸ present, fun wakes => ?_⟩
    have comes := wakes.2
    rwa [stage] at comes

/-- A call that the claim did not own: it answers `False`, and no job has changed. -/
theorem QueueWorld.Sound.disowned (sound : w.Sound) (member : delivery ∈ w.queue)
    {claimed : ProcessingJob} (stage : delivery.stage = .claimed claimed) {db : Database}
    (steady : Steady w.db db) (jobs : db.jobs = w.db.jobs)
    (disowned : ∀ job, ¬ Owns w.db claimed job) : (w.proceed delivery .returned db).Sound := by
  refine sound.return steady fun row present unfinished active => ?_
  rw [jobs] at present
  exact ⟨present, fun wakes => disowned row (sound.owns member stage present active wakes)⟩

theorem QueueWorld.Sound.expect (sound : w.Sound) (member : delivery ∈ w.queue)
    {claimed : ProcessingJob} (stage : delivery.stage = .claimed claimed)
    (other : Delivery) (artifact : CompletedArtifact) (now : Time) :
    (handleDelivery policy w delivery (.claimed claimed) (.expect other artifact now)).Sound := by
  unfold handleDelivery
  simp only
  have unwritten := expect_effect w.db claimed artifact now
  have effect : Effect w.db none (committed w.db ((Agreements.expect w.db claimed artifact now).map
    Prod.snd)) := unwritten
  split
  · exact sound.goOn member stage (Steady.refl sound.jobIds) rfl
  · rename_i after done
    refine sound.disowned member stage (effect.steady_ok sound.jobIds done)
      (expect_ok done).sameRows.jobs fun job owns => ?_
    exact owns.expect_ne artifact now done
  · rename_i after done
    exact sound.goOn member stage (effect.steady_ok sound.jobIds done) (expect_ok done).sameRows.jobs

theorem QueueWorld.Sound.commit (sound : w.Sound) (member : delivery ∈ w.queue)
    {claimed : ProcessingJob} (stage : delivery.stage = .claimed claimed)
    (artifact : CompletedArtifact) (content : String) (verdict : Except Raised Unit)
    (now : Time) : (w.commit delivery claimed artifact content verdict now).Sound := by
  unfold QueueWorld.commit
  have effect := commit_effect w.db w.storage claimed (prepare claimed artifact content) verdict now
  have outcome := commitPrepared_committed w.db w.storage claimed
    (prepare claimed artifact content) verdict now
  have owners : ∀ job after, Owns w.db claimed job → (commitPrepared w.db w.storage claimed
      (prepare claimed artifact content) verdict now).2 ≠ .ok (false, after) :=
    fun _ _ owns => owns.commit_ne w.storage (prepare claimed artifact content) verdict now
  generalize commitPrepared w.db w.storage claimed (prepare claimed artifact content) verdict now =
    result at effect outcome owners
  obtain ⟨storage, result⟩ := result
  simp only
  split
  · exact sound.back.storage storage
  · exact (sound.goOn member stage (Steady.refl sound.jobIds) rfl).storage storage
  · rename_i answer after
    refine QueueWorld.Sound.storage ?_ storage
    have steady := effect.steady_ok sound.jobIds rfl
    cases answer with
    | false =>
      exact sound.disowned member stage steady outcome.jobs_of_false fun job owns =>
        owners job after owns rfl
    | true =>
      refine sound.return steady fun row present unfinished active => ?_
      obtain ⟨old, apart⟩ := outcome.unfinished present unfinished
      have holds := sound.claims delivery member claimed (by rw [stage]; rfl)
      exact ⟨old, fun wakes => apart (wakes.1.1.symm.trans holds.id.symm)⟩

theorem QueueWorld.Sound.fail (sound : w.Sound) (member : delivery ∈ w.queue)
    {claimed : ProcessingJob} (stage : delivery.stage = .claimed claimed)
    (expected : Option CompletedArtifact) (category message : String) (now : Time) :
    (w.settle delivery (.fail claimed expected category message now)).Sound := by
  have effect := fail_effect w.db claimed expected category message now
  unfold QueueWorld.settle
  simp only
  split
  · exact sound.back
  · rename_i after done
    rw [done] at effect
    refine sound.return (effect.steady sound.jobIds) fun row present unfinished active => ?_
    have old := (fail_ok done).unfinished present unfinished
    refine ⟨old, fun wakes => ?_⟩
    have owns := sound.owns member stage old active wakes
    have jobs : after.jobs = update (·.id) w.db.jobs claimed.id (failJob category message now) := by
      have same := (owns.fail_eq category message expected now).symm.trans done
      rw [← Except.ok.inj same, failRows_jobs]
    have apart := unfinished_of_update w.db.jobs jobs (failJob_ends category message now) present unfinished
    exact apart.2 (Database.job?_eq_some owns.found).2

theorem QueueWorld.Sound.requeue (sound : w.Sound) (member : delivery ∈ w.queue)
    {claimed : ProcessingJob} (stage : delivery.stage = .claimed claimed)
    (expected : Option CompletedArtifact) (category message : String) (nextRetryAt now : Time) :
    (w.settle delivery (.requeue claimed expected category message nextRetryAt now)).Sound := by
  have effect := requeue_effect w.db claimed expected category message nextRetryAt now
  have holds := sound.claims delivery member claimed (by rw [stage]; rfl)
  unfold QueueWorld.settle
  simp only
  split
  · exact sound.back
  · rename_i after done
    have same : after.jobs = w.db.jobs := by
      cases requeue_ok done with
      | idle => rfl
      | inventoried late done requested => exact (late.sameRows.trans done.sameRows).jobs
    refine sound.disowned member stage (effect.steady_ok sound.jobIds done) same fun job owns => ?_
    exact owns.requeue_ne category message nextRetryAt expected now done
  · rename_i after done
    have steady := effect.steady_ok sound.jobIds done
    refine sound.proceed _ steady ?_ fun row present unfinished active => ?_
    · intro other held
      cases held
      obtain ⟨job, there, named, context⟩ := holds.job
      obtain ⟨row, present, id, same⟩ := steady.contexts job there
      exact ⟨holds.id, holds.organizationId, holds.workspaceId, row, present, id.trans named,
        same.trans context⟩
    · cases requeue_ok done with
      | @queued job agreement found owned isActive =>
        rw [updateAgreementProcessingState_jobs] at present
        obtain ⟨old, there, rfl⟩ := mem_update.mp present
        by_cases hit : old.id = claimed.id
        · obtain ⟨source, stored, named, context⟩ := holds.job
          have alike : source = old :=
            List.inj_on_of_nodup_map sound.jobIds stored there (named.trans hit.symm)
          subst alike
          rw [if_pos hit]
          refine .inr ⟨⟨?_, ?_, ?_⟩, trivial⟩
          · exact holds.id.symm.trans named.symm
          · exact holds.organizationId.symm.trans (congrArg (·.organizationId) context).symm
          · exact holds.workspaceId.symm.trans (congrArg (·.workspaceId) context).symm
        · rw [if_neg hit]
          exact .inl ⟨there, fun _ => trivial⟩

theorem QueueWorld.Sound.transientFailure (sound : w.Sound) (member : delivery ∈ w.queue)
    {claimed : ProcessingJob} (stage : delivery.stage = .claimed claimed) (other : Delivery)
    (expected : Option CompletedArtifact) (message : String) (now : Time) :
    (handleDelivery policy w delivery (.claimed claimed)
      (.transientFailure other expected message now)).Sound := by
  unfold handleDelivery handleTransientFailure
  simp only
  split
  · exact sound.back
  rename_i call decided
  split at decided
  · cases decided
    exact sound.fail member stage expected "transient_exhausted" message now
  · obtain ⟨delaySeconds, -, rfl⟩ := Option.map_eq_some_iff.mp decided
    exact sound.requeue member stage expected "transient" message _ now

/-- More deliveries, none of which holds a claim. -/
theorem QueueWorld.Sound.deliver (sound : w.Sound) {queue : List Delivery}
    (kept : ∀ other ∈ w.queue, other ∈ queue)
    (added : ∀ other ∈ queue, other ∈ w.queue ∨ other.stage.claim? = none) :
    QueueWorld.Sound { w with queue := queue } where
  jobIds := sound.jobIds
  published := sound.published
  claims other queued claimed held := by
    rcases added other queued with old | unclaimed
    · exact sound.claims other old claimed held
    · rw [unclaimed] at held
      cases held
  woken job present unfinished active := by
    rcases sound.woken job present unfinished active with pending | ⟨other, queued, wakes⟩
    · exact .inl pending
    · exact .inr ⟨other, kept other queued, wakes⟩

/-- The retry is in the queue before the handling returns. -/
theorem QueueWorld.Sound.enqueue (sound : w.Sound) (member : delivery ∈ w.queue)
    {claimed : ProcessingJob} (stage : delivery.stage = .requeued claimed) (other : Delivery) :
    (handleDelivery policy w delivery (.requeued claimed) (.enqueue other)).Sound := by
  have holds := sound.claims delivery member claimed (by rw [stage]; rfl)
  have retry : (⟨claimed.id, claimed.organizationId, claimed.workspaceId, .waiting⟩ : Delivery) =
      { delivery with stage := .waiting } := by
    rw [holds.id, holds.organizationId, holds.workspaceId]
  have again : (w.proceed delivery .waiting w.db).Sound := sound.back
  refine again.deliver (fun other queued => ?_) fun other queued => ?_
  · rcases List.mem_append.mp queued with rest | here
    · exact List.mem_append_left _ (List.mem_append_left _ rest)
    · rw [retry]
      exact List.mem_append_right _ here
  · rcases List.mem_append.mp queued with rest | here
    · rcases List.mem_append.mp rest with rest | returned
      · exact .inl (List.mem_append_left _ rest)
      · rw [List.mem_singleton.mp returned]
        exact .inr rfl
    · rw [retry] at here
      exact .inl (List.mem_append_right _ here)

/-- An acknowledgement removes its own delivery, which nothing counts on any more. -/
theorem QueueWorld.Sound.acknowledge (sound : w.Sound) (stage : delivery.stage = .returned) :
    QueueWorld.Sound { w with queue := w.queue.erase delivery } where
  jobIds := sound.jobIds
  published := sound.published
  claims other queued := sound.claims other (List.mem_of_mem_erase queued)
  woken job present unfinished active := by
    rcases sound.woken job present unfinished active with pending | ⟨other, queued, wakes⟩
    · exact .inl pending
    · have apart : other ≠ delivery := by
        rintro rfl
        have comes := wakes.2
        rwa [stage] at comes
      exact .inr ⟨other, (List.mem_erase_of_ne apart).mpr queued, wakes⟩

theorem QueueWorld.Sound.handleDelivery (sound : w.Sound) (member : delivery ∈ w.queue)
    {stage : HandlingStage} (held : delivery.stage = stage) (event : QueueEvent) :
    (Agreements.handleDelivery policy w delivery stage event).Sound := by
  unfold Agreements.handleDelivery
  split
  · exact sound.proceed .received (Steady.refl sound.jobIds) nofun
      fun _ present _ _ => .inl ⟨present, fun _ => trivial⟩
  · exact sound.claim policy delivery ..
  · exact sound.expect policy member held delivery ..
  · exact sound.commit member held ..
  · exact sound.transientFailure policy member held delivery ..
  · exact sound.fail member held ..
  · exact sound.enqueue policy member held delivery
  · exact sound.acknowledge held
  · exact sound.back
  · exact sound
end Handling

end AgreementIntelligence.Agreements
