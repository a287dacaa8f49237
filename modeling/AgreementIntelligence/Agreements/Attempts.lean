import AgreementIntelligence.Agreements.Fencing
import Mathlib.Algebra.Group.Int.Defs

/-! Attempts of a job. The retry policy bounds them where an attempt ends with an error that
`handle` sees: it is asked with the attempt count of the claim, and once the count has
reached the bound the job fails. An attempt that ends because its worker dies is seen by
nobody. The next delivery finds the lease lapsed and claims the job again, and a claim asks
no policy. So the bound holds in the runs in which no delivery takes a lapsed lease from the
last attempt the policy allows, and in no other. -/

namespace AgreementIntelligence.Agreements
open Identity Lib.Table Lib.Runs

/-- `RetryPolicy` -/
structure RetryPolicy where
  maxAttempts : Nat := 3
  baseDelaySeconds : Int := 2
  maxDelaySeconds : Int := 60

/-- `delay_seconds`; the counts it refuses raise a `ValueError`. -/
def RetryPolicy.delaySeconds (policy : RetryPolicy) (attemptCount : Nat) : Option Int :=
  if attemptCount < 1 then none
  else some (min (policy.baseDelaySeconds * 2 ^ (attemptCount - 1)) policy.maxDelaySeconds)

def RetryPolicy.mayRetry (policy : RetryPolicy) (attemptCount : Nat) : Bool :=
  attemptCount < policy.maxAttempts

/-- `_handle_transient_failure`, up to the message it enqueues. -/
def handleTransientFailure (policy : RetryPolicy) (job : ProcessingJob)
    (expected : Option CompletedArtifact) (message : String) (now : Time) :
    Option WorkerCall :=
  if ¬ policy.mayRetry job.attemptCount then
    some (.fail job expected "transient_exhausted" message now)
  else (policy.delaySeconds job.attemptCount).map fun delaySeconds =>
    .requeue job expected "transient" message ((now : Int) + delaySeconds).toNat now

/-- What happens to jobs: the calls of `handle` on a delivery, as far as it gets, a retry
through the API, and the steps of everybody else. -/
inductive ProcessingEvent where
  | claim (jobId organizationId workspaceId : Uuid) (now : Time) (claimToken : Uuid)
  | expect (job : ProcessingJob) (artifact : CompletedArtifact) (now : Time)
  | commitPrepared (job : ProcessingJob) (artifact : CompletedArtifact) (content : String)
      (verdict : Except Raised Unit) (now : Time)
  | transientFailure (job : ProcessingJob) (expected : Option CompletedArtifact)
      (message : String) (now : Time)
  | permanentFailure (job : ProcessingJob) (expected : Option CompletedArtifact)
      (category message : String) (now : Time)
  | retryJob (organizationId workspaceId agreementId jobId : Uuid) (now : Time)
  | aside (event : Event) (isAside : event.Aside)

def ProcessingEvent.event? (policy : RetryPolicy) : ProcessingEvent → Option Event
  | .claim jobId organizationId workspaceId now claimToken =>
    some (.call (.claim jobId organizationId workspaceId now claimToken))
  | .expect job artifact now => some (.call (.expect job artifact now))
  | .commitPrepared job artifact content verdict now =>
    some (.call (.commitPrepared job artifact content verdict now))
  | .transientFailure job expected message now =>
    (handleTransientFailure policy job expected message now).map .call
  | .permanentFailure job expected category message now =>
    some (.call (.fail job expected category message now))
  | .retryJob organizationId workspaceId agreementId jobId now =>
    some (.retryJob organizationId workspaceId agreementId jobId now)
  | .aside event _ => some event

def handleStep (policy : RetryPolicy) (w : World) (event : ProcessingEvent) : World :=
  match event.event? policy with
  | none => w
  | some event => step w event

/-- The attempts of a job: the claims that workers have been given on it. -/
def World.attempts (w : World) (jobId : Uuid) : Nat :=
  w.claims.countP fun claimed => claimed.id = jobId

/-- The attempts of a job that have ended without a result: not the one under way, and not
the one that has completed it. -/
def World.endedAttempts (w : World) (job : ProcessingJobRecord) : Nat :=
  match job.state with
  | .queued => w.attempts job.id
  | .processing => w.attempts job.id - 1
  | .completed => w.attempts job.id - 1
  | .failed => w.attempts job.id

/-- A delivery that reaches the job while an attempt is under way whose lease has lapsed. -/
def ProcessingEvent.FindsLapsed (w : World) (job : ProcessingJobRecord) :
    ProcessingEvent → Prop
  | .claim jobId organizationId workspaceId now _ =>
    jobId = job.id ∧ job.MatchesTenantScope organizationId workspaceId ∧
      job.state = .processing ∧ job.hasLiveClaim now = false ∧
      ∃ agreement ∈ w.db.agreement? job.agreementId job.organizationId job.workspaceId,
        agreement.deletionRequestedAt = none
  | _ => False

instance (w : World) (job : ProcessingJobRecord) (event : ProcessingEvent) :
    Decidable (event.FindsLapsed w job) := by
  unfold ProcessingEvent.FindsLapsed
  split <;> infer_instance

/-- One step keeps the bound on the attempts of a job: there are at most `max_attempts`, and
after that many without a result the job is failed, be it that the last one ended in `handle`
or that a delivery finds its lease lapsed. -/
structure KeepsBound (policy : RetryPolicy) (jobId : Uuid) (w : World)
    (event : ProcessingEvent) : Prop where
  attempts : (handleStep policy w event).attempts jobId ≤ policy.maxAttempts
  ended : ∀ job ∈ (handleStep policy w event).db.jobs, job.id = jobId →
    policy.maxAttempts ≤ (handleStep policy w event).endedAttempts job → job.state = .failed
  lapsed : ∀ job ∈ w.db.jobs, job.id = jobId → event.FindsLapsed w job →
    policy.maxAttempts ≤ w.attempts jobId →
    ∀ after ∈ (handleStep policy w event).db.jobs, after.id = jobId → after.state = .failed

/-- No delivery finds the lease of the last allowed attempt lapsed. -/
def SparesLastAttempt (policy : RetryPolicy) (jobId : Uuid) (w : World)
    (event : ProcessingEvent) : Prop :=
  ∀ job ∈ w.db.jobs, job.id = jobId → event.FindsLapsed w job →
    job.attemptCount < policy.maxAttempts

instance (policy : RetryPolicy) (jobId : Uuid) (w : World) (event : ProcessingEvent) :
    Decidable (SparesLastAttempt policy jobId w event) := by
  unfold SparesLastAttempt
  infer_instance

/-- The `uuid4()` of a claim has not been drawn before. -/
def DrawsFreshToken (w : World) : ProcessingEvent → Prop
  | .claim _ _ _ _ claimToken => ∀ claimed ∈ w.claims, claimed.claimToken ≠ claimToken
  | _ => True

instance (w : World) (event : ProcessingEvent) : Decidable (DrawsFreshToken w event) := by
  unfold DrawsFreshToken
  split <;> infer_instance

def ProcessingEvent.RetriesJob (jobId : Uuid) : ProcessingEvent → Prop
  | .retryJob _ _ _ retried _ => retried = jobId
  | _ => False

instance (jobId : Uuid) (event : ProcessingEvent) : Decidable (event.RetriesJob jobId) := by
  unfold ProcessingEvent.RetriesJob
  split <;> infer_instance

/-! What a step that is no claim does to a job that nobody retries -/

/-- The row of a job before and after: no attempt is counted, no token is handed out, and
nothing is queued again that has used up its attempts. -/
structure KeptRow (maxAttempts : Nat) (old new : ProcessingJobRecord) : Prop where
  id : new.id = old.id
  attempts : new.attemptCount = old.attemptCount
  token : new.claimToken = none ∨ new.claimToken = old.claimToken
  queued : new.state = .queued → old.state = .queued ∨ old.attemptCount < maxAttempts

theorem KeptRow.refl (maxAttempts : Nat) (row : ProcessingJobRecord) :
    KeptRow maxAttempts row row :=
  ⟨rfl, rfl, .inr rfl, .inl⟩

structure Carries (maxAttempts : Nat) (jobId : Uuid) (before after : Database) : Prop where
  rows : ∀ row ∈ after.jobs, row.id = jobId →
    ∃ old ∈ before.jobs, KeptRow maxAttempts old row
  artifacts : ∀ row ∈ after.artifacts, row ∈ before.artifacts ∨ after.Finished row.jobId

section Carries
variable {maxAttempts : Nat} {jobId : Uuid} {before after : Database}

theorem Carries.of_same (jobs : after.jobs = before.jobs)
    (artifacts : after.artifacts = before.artifacts) :
    Carries maxAttempts jobId before after where
  rows row present _ := ⟨row, jobs ▸ present, .refl maxAttempts row⟩
  artifacts row present := .inl (artifacts ▸ present)

theorem SameRows.carries (same : SameRows before after) :
    Carries maxAttempts jobId before after :=
  .of_same same.jobs same.artifacts

theorem Purges.carries (purges : Purges before after) :
    Carries maxAttempts jobId before after := by
  obtain ⟨⟨keep, jobs⟩, keepArtifact, artifacts⟩ := purges
  refine ⟨fun row present _ => ⟨row, ?_, .refl maxAttempts row⟩, fun row present => .inl ?_⟩
  · rw [jobs] at present
    exact List.mem_of_mem_filter present
  · rw [artifacts] at present
    exact List.mem_of_mem_filter present

/-- An update of one job carries over what its change keeps. -/
theorem Carries.of_update (target : Uuid) (change : ProcessingJobRecord → ProcessingJobRecord)
    (jobs : after.jobs = update (·.id) before.jobs target change)
    (keepsId : ∀ row, (change row).id = row.id)
    (kept : target = jobId →
      ∀ row ∈ before.jobs, row.id = target → KeptRow maxAttempts row (change row))
    (artifacts : ∀ row ∈ after.artifacts, row ∈ before.artifacts ∨ after.Finished row.jobId) :
    Carries maxAttempts jobId before after where
  rows := by
    rw [jobs]
    intro row present named
    obtain ⟨old, there, rfl⟩ := mem_update.mp present
    refine ⟨old, there, ?_⟩
    by_cases hit : old.id = target
    · rw [if_pos hit] at named ⊢
      rw [keepsId, hit] at named
      exact kept named old there hit
    · rw [if_neg hit]
      exact .refl maxAttempts old
  artifacts := artifacts

theorem keptRow_completeJob (now : Time) (row : ProcessingJobRecord) :
    KeptRow maxAttempts row (completeJob now row) :=
  ⟨rfl, rfl, .inl rfl, nofun⟩

theorem keptRow_failJob (category message : String) (now : Time) (row : ProcessingJobRecord) :
    KeptRow maxAttempts row (failJob category message now row) :=
  ⟨rfl, rfl, .inl rfl, nofun⟩

theorem keptRow_queueAgain (category message : String) (nextRetryAt : Time)
    {row : ProcessingJobRecord} (below : row.attemptCount < maxAttempts) :
    KeptRow maxAttempts row (queueAgain category message nextRetryAt row) :=
  ⟨rfl, rfl, .inl rfl, fun _ => .inr below⟩

theorem Claimed.carries {target claimToken : Uuid} {now : Time}
    (claimed : Claimed before target now claimToken none after) :
    Carries maxAttempts jobId before after := by
  cases claimed with
  | idle => exact .of_same rfl rfl
  | reconciled requested done => exact done.sameRows.carries
  | @settled job agreement found active stored =>
    by_cases completed : job.state = .completed
    · exact .of_same (by simp [completed]) (by simp [completed])
    · refine .of_update target (completeJob now) ?_ (fun _ => rfl)
        (fun _ row _ _ => keptRow_completeJob now row) fun row present => .inl ?_
      · simp [completed, Database.updateJob]
      · simpa [completed, Database.updateJob] using present

theorem Committed.carries {storage left : List String} {claimed : ProcessingJob}
    {prepared : PreparedArtifact} {now : Time} {answer : Bool}
    (outcome : Committed before storage claimed prepared now left (.ok (answer, after))) :
    Carries maxAttempts jobId before after := by
  cases outcome with
  | stopped returns => exact (returns _ _ rfl).2.sameRows.carries
  | @committed job finalized writes runs =>
    obtain ⟨comparisonRuns, rfl⟩ := runs
    refine .of_update claimed.id (completeJob now) (commitRows_jobs _ _ _ _ _ _)
      (fun _ => rfl) (fun _ row _ _ => keptRow_completeJob now row) fun row present => ?_
    rw [commitRows_artifacts] at present
    split at present
    · rcases List.mem_append.mp present with old | new
      · exact .inl old
      · rw [List.mem_singleton.mp new]
        refine .inr fun stored there named => ?_
        rw [commitRows_jobs] at there
        obtain ⟨old, -, rfl⟩ := mem_update.mp there
        split at named
        · rename_i hit
          rw [if_pos hit]
          rfl
        · rename_i miss
          exact absurd named miss
    · exact .inl present

/-- A requeue carries the job when the policy has allowed its claim another attempt. -/
theorem Requeued.carries {claimed : ProcessingJob} {expected : Option CompletedArtifact}
    {category message : String} {nextRetryAt now : Time} {answer : Bool}
    (distinct : (before.jobs.map (·.id)).Nodup)
    (allowed : ∀ job ∈ before.jobs, job.id = jobId → claimed.id = jobId → job.OwnedBy claimed →
      job.attemptCount < maxAttempts)
    (requeued : Requeued before claimed expected category message nextRetryAt now answer after) :
    Carries maxAttempts jobId before after := by
  cases requeued with
  | idle => exact .of_same rfl rfl
  | inventoried late done requested => exact (late.sameRows.trans done.sameRows).carries
  | @queued job agreement found owned active =>
    obtain ⟨member, named⟩ := Database.job?_eq_some found
    refine .of_update claimed.id (queueAgain category message nextRetryAt) ?_ (fun _ => rfl)
      (fun target row present hit => keptRow_queueAgain category message nextRetryAt ?_)
      fun row present => .inl ?_
    · simp [Database.updateJob]
    · have same : row = job := by
        have alike := find?_of_mem distinct present
        rw [hit, ← named, find?_of_mem distinct member] at alike
        exact (Option.some.inj alike).symm
      rw [same]
      exact allowed job member (named.trans target) target owned
    · simpa [Database.updateJob] using present

theorem Failed.carries {claimed : ProcessingJob} {expected : Option CompletedArtifact}
    {category message : String} {now : Time}
    (failed : Failed before claimed expected category message now after) :
    Carries maxAttempts jobId before after := by
  cases failed with
  | inventoried late => exact late.sameRows.carries
  | reconciled found owned requested done =>
    refine .of_update claimed.id (failJob category message now) ?_ (fun _ => rfl)
      (fun _ row _ _ => keptRow_failJob category message now row) fun row present => .inl ?_
    · rw [failRows_jobs, done.sameRows.jobs]
    · rwa [failRows_artifacts, done.sameRows.artifacts] at present
  | settled found owned active =>
    refine .of_update claimed.id (failJob category message now) (failRows_jobs _ _ _ _ _ _)
      (fun _ => rfl) (fun _ row _ _ => keptRow_failJob category message now row)
      fun row present => .inl ?_
    rwa [failRows_artifacts] at present

theorem retryJob_carries {organizationId workspaceId agreementId retried : Uuid} {now : Time}
    (done : retryJob before organizationId workspaceId agreementId retried now = .ok after)
    (another : retried ≠ jobId) : Carries maxAttempts jobId before after := by
  unfold retryJob at done
  split at done
  · cases done
  split at done
  · cases done
  split at done
  · cases done
  split at done
  · cases done
  split at done
  · cases done
  cases done
  exact .of_update retried (retriedJob now) rfl (fun _ => rfl)
    (fun same => absurd same another) fun row present => .inl present
end Carries

theorem transact_carries {maxAttempts : Nat} {jobId : Uuid} {w : World}
    {outcome : Except Raised Database}
    (carries : ∀ after, outcome = .ok after → Carries maxAttempts jobId w.db after) :
    Carries maxAttempts jobId w.db (w.transact outcome).db := by
  rcases transact_db_cases w outcome with ⟨after, returned, same⟩ | same
  · rw [same]
    exact carries after returned
  · rw [same]
    exact .of_same rfl rfl

/-! Claims -/

/-- A claim that starts an attempt finds the job of the message, with no lease to respect. -/
structure StartsAttempt (db : Database) (jobId organizationId workspaceId : Uuid) (now : Time)
    (job : ProcessingJobRecord) : Prop where
  found : db.job? jobId = some job
  scope : job.MatchesTenantScope organizationId workspaceId
  active : ∃ agreement ∈ db.agreement? job.agreementId job.organizationId job.workspaceId,
    agreement.deletionRequestedAt = none
  takeable : job.state = .queued ∨ job.state = .processing ∧ job.hasLiveClaim now = false

/-- The world after a claim that starts an attempt. -/
def World.started (w : World) (job : ProcessingJobRecord) (now : Time) (claimToken : Uuid) :
    World :=
  { w with
    db := updateAgreementProcessingState (w.db.updateJob job.id (startAttempt now claimToken))
      job .processing
    claims := w.claims ++ [claimedJob now claimToken job] }

theorem claim_starts {db after : Database} {jobId organizationId workspaceId claimToken : Uuid}
    {now : Time} {claimed : ProcessingJob}
    (done : claim db jobId organizationId workspaceId now claimToken =
      .ok (some claimed, after)) :
    ∃ job, StartsAttempt db jobId organizationId workspaceId now job ∧
      claimed = claimedJob now claimToken job ∧
      after = updateAgreementProcessingState
        (db.updateJob jobId (startAttempt now claimToken)) job .processing := by
  unfold claim at done
  split at done
  · split at done
    · cases done
    split at done
    · cases done
    · obtain ⟨inner, -, same⟩ := map_ok done
      cases same
  rename_i job found
  split at done
  · cases done
  rename_i scope
  rw [not_not] at scope
  split at done
  · cases done
  rename_i agreement stored
  split at done
  · split at done
    · cases done
    · obtain ⟨inner, -, same⟩ := map_ok done
      cases same
  rename_i active
  split at done
  · cases done
  split at done
  · cases done
  rename_i lapsed
  split at done
  · rename_i takeable
    cases done
    refine ⟨job, ⟨found, scope, ⟨agreement, stored, by simpa using active⟩, ?_⟩, rfl, rfl⟩
    rcases takeable with processing | queued
    · exact .inr ⟨processing, by simpa [processing] using lapsed⟩
    · exact .inl queued
  · cases done

theorem StartsAttempt.claim {db : Database} {jobId organizationId workspaceId : Uuid}
    {now : Time} {job : ProcessingJobRecord}
    (starts : StartsAttempt db jobId organizationId workspaceId now job)
    (unstored : db.hasArtifact jobId = false) (claimToken : Uuid) :
    claim db jobId organizationId workspaceId now claimToken =
      .ok (some (claimedJob now claimToken job), updateAgreementProcessingState
        (db.updateJob jobId (startAttempt now claimToken)) job .processing) := by
  obtain ⟨found, scope, ⟨agreement, stored, active⟩, takeable⟩ := starts
  have lapsed : ¬ (job.state = .processing ∧ job.hasLiveClaim now = true) := by
    rcases takeable with queued | ⟨-, lapsed⟩
    · simp [queued]
    · simp [lapsed]
  have open_ : job.state = .processing ∨ job.state = .queued :=
    takeable.elim .inr fun processing => .inl processing.1
  have held : db.agreement? job.agreementId job.organizationId job.workspaceId =
      some agreement := stored
  simp only [Agreements.claim, found, held]
  rw [if_neg (not_not.mpr scope), if_neg (by simp [active]), if_neg (by simp [unstored]),
    if_neg lapsed, if_pos open_]

theorem World.attempts_started (w : World) (job : ProcessingJobRecord) (now : Time)
    (claimToken jobId : Uuid) : (w.started job now claimToken).attempts jobId =
      w.attempts jobId + if job.id = jobId then 1 else 0 := by
  simp [World.attempts, World.started, claimedJob, List.countP_append, List.countP_singleton]

/-! Steps -/

theorem step_claims (w : World) {event : Event} (silent : ∀ jobId organizationId workspaceId now
    claimToken, event ≠ .call (.claim jobId organizationId workspaceId now claimToken)) :
    (step w event).claims = w.claims := by
  cases event with
  | call worker =>
    simp only [step]
    split
    · cases worker with
      | claim jobId organizationId workspaceId now claimToken => exact absurd rfl (silent _ _ _ _ _)
      | _ => rfl
    · rfl
  | retryJob => rfl
  | acceptDeletion => rfl
  | claimDeletion => rfl
  | recoverStaleDeletions => rfl
  | expectArtifact job =>
    simp only [step]
    split
    · split <;> rfl
    · rfl
  | _ =>
    simp only [step]
    split <;> rfl

/-- What a step does to the attempts of a job that nobody retries: it starts one, of this job
or of another, or carries everything over. -/
inductive AttemptStep (policy : RetryPolicy) (jobId : Uuid) (w : World) :
    ProcessingEvent → World → Prop where
  | carried {event : ProcessingEvent} {next : World} (claims : next.claims = w.claims)
      (carries : Carries policy.maxAttempts jobId w.db next.db) :
      AttemptStep policy jobId w event next
  | started {job : ProcessingJobRecord} {organizationId workspaceId claimToken : Uuid}
      {now : Time} (starts : StartsAttempt w.db job.id organizationId workspaceId now job) :
      AttemptStep policy jobId w (.claim job.id organizationId workspaceId now claimToken)
        (w.started job now claimToken)

/-- The invariant: the row of the job counts its claims, a queued job has attempts left, and
a claim that still owns the job carries its count. -/
structure World.Counted (maxAttempts : Nat) (jobId : Uuid) (w : World) : Prop where
  disciplined : w.db.Disciplined
  stored : ∀ row ∈ w.db.artifacts, w.db.Finished row.jobId
  attempts : ∀ job ∈ w.db.jobs, job.id = jobId → job.attemptCount = w.attempts jobId
  queued : ∀ job ∈ w.db.jobs, job.id = jobId → job.state = .queued →
    job.attemptCount < maxAttempts
  owned : ∀ job ∈ w.db.jobs, job.id = jobId → ∀ claimed ∈ w.claims, claimed.id = jobId →
    job.claimToken = some claimed.claimToken → claimed.attemptCount = job.attemptCount

theorem mayRetry_iff {policy : RetryPolicy} {attemptCount : Nat} :
    policy.mayRetry attemptCount = true ↔ attemptCount < policy.maxAttempts := by
  simp [RetryPolicy.mayRetry]

theorem handleStep_claim (policy : RetryPolicy) (w : World)
    (jobId organizationId workspaceId : Uuid) (now : Time) (claimToken : Uuid) :
    handleStep policy w (.claim jobId organizationId workspaceId now claimToken) =
      w.call (.claim jobId organizationId workspaceId now claimToken) := by
  simp [handleStep, ProcessingEvent.event?, step, WorkerCall.Held]

/-- Every call but a claim, when the worker makes it at all. -/
theorem call_carries {policy : RetryPolicy} {jobId : Uuid} {w : World} {call : WorkerCall}
    (carries : Carries policy.maxAttempts jobId w.db (w.call call).db) :
    Carries policy.maxAttempts jobId w.db (step w (.call call)).db := by
  simp only [step]
  split
  · exact carries
  · exact .of_same rfl rfl

theorem fail_carries {policy : RetryPolicy} {jobId : Uuid} (w : World) (job : ProcessingJob)
    (expected : Option CompletedArtifact) (category message : String) (now : Time) :
    Carries policy.maxAttempts jobId w.db
      (step w (.call (.fail job expected category message now))).db :=
  call_carries (transact_carries fun _ returned => (fail_ok returned).carries)

theorem requeue_carries {policy : RetryPolicy} {jobId : Uuid} {w : World}
    (counted : w.Counted policy.maxAttempts jobId) {job : ProcessingJob}
    (allowed : job.attemptCount < policy.maxAttempts) (expected : Option CompletedArtifact)
    (category message : String) (nextRetryAt now : Time) :
    Carries policy.maxAttempts jobId w.db
      (step w (.call (.requeue job expected category message nextRetryAt now))).db := by
  simp only [step]
  split
  · rename_i held
    refine transact_carries fun after returned => ?_
    obtain ⟨answer, done⟩ := map_snd_ok returned
    refine (requeue_ok done).carries counted.disciplined.jobIds fun row member named target owned => ?_
    have count := counted.owned row member named job held.1 target owned.2
    omega
  · exact .of_same rfl rfl

theorem handleStep_attemptStep {policy : RetryPolicy} {jobId : Uuid} {w : World}
    {event : ProcessingEvent} (counted : w.Counted policy.maxAttempts jobId)
    (unretried : ¬ event.RetriesJob jobId) :
    AttemptStep policy jobId w event (handleStep policy w event) := by
  cases event with
  | claim target organizationId workspaceId now claimToken =>
    rw [handleStep_claim]
    unfold World.call
    simp only
    split
    · exact .carried rfl (.of_same rfl rfl)
    · rename_i result after done
      cases result with
      | none => exact .carried (List.append_nil _) (claim_ok done).carries
      | some claimed =>
        obtain ⟨job, starts, rfl, rfl⟩ := claim_starts done
        obtain ⟨-, rfl⟩ := Database.job?_eq_some starts.found
        exact .started starts
  | expect job artifact now =>
    refine .carried (step_claims w nofun) (call_carries (transact_carries fun after returned => ?_))
    obtain ⟨answer, done⟩ := map_snd_ok returned
    exact (expect_ok done).sameRows.carries
  | commitPrepared job artifact content verdict now =>
    refine .carried (step_claims w nofun) (call_carries (transact_carries fun after returned => ?_))
    obtain ⟨answer, done⟩ := map_snd_ok returned
    have outcome := w.commit_committed job artifact content verdict now
    rw [show (w.commit job artifact content verdict now).2 = .ok (answer, after) from done] at outcome
    exact outcome.carries
  | transientFailure job expected message now =>
    simp only [handleStep, ProcessingEvent.event?, handleTransientFailure]
    by_cases allowed : policy.mayRetry job.attemptCount = true
    · rw [if_neg (not_not.mpr allowed)]
      cases policy.delaySeconds job.attemptCount with
      | none => exact .carried rfl (.of_same rfl rfl)
      | some delaySeconds =>
        exact .carried (step_claims w nofun)
          (requeue_carries counted (mayRetry_iff.mp allowed) expected _ message _ now)
    · rw [if_pos allowed]
      exact .carried (step_claims w nofun) (fail_carries w job expected _ message now)
  | permanentFailure job expected category message now =>
    exact .carried (step_claims w nofun) (fail_carries w job expected category message now)
  | retryJob organizationId workspaceId agreementId retried now =>
    refine .carried rfl (transact_carries fun after returned => ?_)
    exact retryJob_carries returned unretried
  | aside event isAside =>
    refine .carried (step_claims w ?_) ?_
    · rintro target organizationId workspaceId now claimToken rfl
      exact isAside
    · rcases step_aside w isAside with ⟨jobs, artifacts⟩ | purges
      · exact .of_same jobs artifacts
      · exact purges.carries

theorem handleStep_disciplined (policy : RetryPolicy) {w : World} (event : ProcessingEvent)
    (holds : w.db.Disciplined) : (handleStep policy w event).db.Disciplined := by
  unfold handleStep
  split
  · exact holds
  · exact step_disciplined w _ holds

theorem handleStep_finished (policy : RetryPolicy) {w : World} (event : ProcessingEvent)
    {jobId : Uuid} (finished : w.db.Finished jobId) :
    (handleStep policy w event).db.Finished jobId := by
  unfold handleStep
  split
  · exact finished
  · exact step_finished _ finished

/-- A row of the job after a claim: untouched, or claimed. -/
theorem mem_started {w : World} {job row : ProcessingJobRecord} {now : Time} {claimToken : Uuid}
    (distinct : (w.db.jobs.map (·.id)).Nodup) (found : w.db.job? job.id = some job)
    (member : row ∈ (w.started job now claimToken).db.jobs) :
    (row.id ≠ job.id ∧ row ∈ w.db.jobs) ∨ row = startAttempt now claimToken job := by
  simp only [World.started, updateAgreementProcessingState_jobs, Database.updateJob] at member
  obtain ⟨old, there, rfl⟩ := mem_update.mp member
  by_cases hit : old.id = job.id
  · rw [if_pos hit]
    have same := find?_of_mem distinct there
    rw [hit] at same
    exact .inr (congrArg _ (Option.some.inj (same.symm.trans found)))
  · rw [if_neg hit]
    exact .inl ⟨hit, there⟩

theorem Carries.counted {maxAttempts : Nat} {jobId : Uuid} {w next : World}
    (counted : w.Counted maxAttempts jobId) (disciplined : next.db.Disciplined)
    (finished : ∀ jobId, w.db.Finished jobId → next.db.Finished jobId)
    (claims : next.claims = w.claims) (carries : Carries maxAttempts jobId w.db next.db) :
    next.Counted maxAttempts jobId where
  disciplined := disciplined
  stored row present :=
    (carries.artifacts row present).elim (fun old => finished _ (counted.stored row old)) id
  attempts job present named := by
    obtain ⟨old, there, kept⟩ := carries.rows job present named
    rw [kept.attempts, counted.attempts old there (kept.id ▸ named), World.attempts,
      World.attempts, claims]
  queued job present named waits := by
    obtain ⟨old, there, kept⟩ := carries.rows job present named
    rw [kept.attempts]
    exact (kept.queued waits).elim (counted.queued old there (kept.id ▸ named)) id
  owned job present named claimed held target owns := by
    obtain ⟨old, there, kept⟩ := carries.rows job present named
    rcases kept.token with none | same
    · rw [none] at owns
      cases owns
    · rw [kept.attempts]
      exact counted.owned old there (kept.id ▸ named) claimed (claims ▸ held) target (same ▸ owns)

theorem World.Counted.started {maxAttempts : Nat} {jobId : Uuid} {w : World}
    (counted : w.Counted maxAttempts jobId) {job : ProcessingJobRecord} {now : Time}
    {claimToken : Uuid} (found : w.db.job? job.id = some job)
    (disciplined : (w.started job now claimToken).db.Disciplined)
    (finished : ∀ jobId, w.db.Finished jobId →
      (w.started job now claimToken).db.Finished jobId)
    (fresh : ∀ claimed ∈ w.claims, claimed.claimToken ≠ claimToken) :
    (w.started job now claimToken).Counted maxAttempts jobId where
  disciplined := disciplined
  stored row present := by
    simp only [World.started, updateAgreementProcessingState_artifacts] at present
    exact finished _ (counted.stored row present)
  attempts row present named := by
    rw [World.attempts_started]
    obtain ⟨member, -⟩ := Database.job?_eq_some found
    rcases mem_started counted.disciplined.jobIds found present with ⟨other, old⟩ | rfl
    · rw [counted.attempts row old named, if_neg fun same => other (named.trans same.symm)]
      rfl
    · have count := counted.attempts job member named
      rw [if_pos (show job.id = jobId from named), ← count]
      rfl
  queued row present named waits := by
    rcases mem_started counted.disciplined.jobIds found present with ⟨-, old⟩ | rfl
    · exact counted.queued row old named waits
    · cases waits
  owned row present named claimed held target owns := by
    rcases List.mem_append.mp held with earlier | new
    · rcases mem_started counted.disciplined.jobIds found present with ⟨-, old⟩ | rfl
      · exact counted.owned row old named claimed earlier target owns
      · exact absurd (Option.some.inj owns).symm (fresh claimed earlier)
    · rw [List.mem_singleton.mp new] at target owns ⊢
      rcases mem_started counted.disciplined.jobIds found present with ⟨other, -⟩ | rfl
      · exact absurd (named.trans target.symm) other
      · rfl

theorem handleStep_counted {policy : RetryPolicy} {jobId : Uuid} {w : World}
    {event : ProcessingEvent} (counted : w.Counted policy.maxAttempts jobId)
    (fresh : DrawsFreshToken w event) (unretried : ¬ event.RetriesJob jobId) :
    (handleStep policy w event).Counted policy.maxAttempts jobId := by
  have disciplined := handleStep_disciplined policy event counted.disciplined
  have finished : ∀ jobId, w.db.Finished jobId → (handleStep policy w event).db.Finished jobId :=
    fun _ => handleStep_finished policy event
  have move := handleStep_attemptStep counted unretried
  generalize handleStep policy w event = next at move disciplined finished
  cases move with
  | carried claims carries => exact carries.counted counted disciplined finished claims
  | started starts => exact counted.started starts.found disciplined finished fresh

theorem AttemptStep.attempts_le {policy : RetryPolicy} {jobId : Uuid} {w next : World}
    {event : ProcessingEvent} (counted : w.Counted policy.maxAttempts jobId)
    (bounded : w.attempts jobId ≤ policy.maxAttempts)
    (spares : SparesLastAttempt policy jobId w event)
    (move : AttemptStep policy jobId w event next) :
    next.attempts jobId ≤ policy.maxAttempts := by
  cases move with
  | carried claims carries => rwa [World.attempts, claims]
  | @started job organizationId workspaceId claimToken now starts =>
    rw [World.attempts_started]
    obtain ⟨member, -⟩ := Database.job?_eq_some starts.found
    by_cases named : job.id = jobId
    · have count := counted.attempts job member named
      have left : job.attemptCount < policy.maxAttempts := by
        rcases starts.takeable with queued | ⟨processing, lapsed⟩
        · exact counted.queued job member named queued
        · exact spares job member named ⟨rfl, starts.scope, processing, lapsed, starts.active⟩
      rw [if_pos named]
      omega
    · rwa [if_neg named]

/-- A delivery that finds a lease lapsed starts one more attempt. -/
theorem attempts_of_findsLapsed (policy : RetryPolicy) {jobId : Uuid} {w : World}
    {event : ProcessingEvent} (counted : w.Counted policy.maxAttempts jobId)
    {job : ProcessingJobRecord} (member : job ∈ w.db.jobs) (named : job.id = jobId)
    (lapsed : event.FindsLapsed w job) :
    (handleStep policy w event).attempts jobId = w.attempts jobId + 1 := by
  cases event with
  | claim target organizationId workspaceId now claimToken =>
    obtain ⟨rfl, scope, processing, expired, active⟩ := lapsed
    have starts : StartsAttempt w.db job.id organizationId workspaceId now job :=
      ⟨find?_of_mem counted.disciplined.jobIds member, scope, active, .inr ⟨processing, expired⟩⟩
    have unstored : w.db.hasArtifact job.id = false := by
      rw [Database.hasArtifact, List.any_eq_false]
      intro row present same
      have done := counted.stored row present job member (of_decide_eq_true same).symm
      rw [processing] at done
      cases done
    have next : handleStep policy w (.claim job.id organizationId workspaceId now claimToken) =
        w.started job now claimToken := by
      rw [handleStep_claim]
      simp only [World.call, starts.claim unstored]
      rfl
    rw [next, World.attempts_started, if_pos named]
  | _ => exact lapsed.elim

theorem keepsBound_iff {policy : RetryPolicy} {jobId : Uuid} {w : World}
    {event : ProcessingEvent} (positive : 1 ≤ policy.maxAttempts)
    (counted : w.Counted policy.maxAttempts jobId)
    (bounded : w.attempts jobId ≤ policy.maxAttempts) (fresh : DrawsFreshToken w event)
    (unretried : ¬ event.RetriesJob jobId) :
    KeepsBound policy jobId w event ↔ SparesLastAttempt policy jobId w event := by
  constructor
  · intro keeps job member named lapsed
    have more := attempts_of_findsLapsed policy counted member named lapsed
    have within := keeps.attempts
    have count := counted.attempts job member named
    omega
  · intro spares
    have within : (handleStep policy w event).attempts jobId ≤ policy.maxAttempts :=
      (handleStep_attemptStep counted unretried).attempts_le counted bounded spares
    have after := handleStep_counted counted fresh unretried
    refine ⟨within, fun job member named ended => ?_, fun job member named lapsed used => ?_⟩
    · have count := after.attempts job member named
      have waits := after.queued job member named
      subst named
      cases state : job.state with
      | failed => rfl
      | queued =>
        have below := waits state
        simp only [World.endedAttempts, state] at ended
        omega
      | processing =>
        simp only [World.endedAttempts, state] at ended
        omega
      | completed =>
        simp only [World.endedAttempts, state] at ended
        omega
    · have left := spares job member named lapsed
      have count := counted.attempts job member named
      omega

/-- A world in which no worker has claimed a job, and no job has been attempted. -/
structure World.Unattempted (w : World) : Prop where
  initial : w.Initial
  attempts : ∀ job ∈ w.db.jobs, job.attemptCount = 0

theorem World.Unattempted.counted {w : World} (unattempted : w.Unattempted)
    {maxAttempts : Nat} (positive : 1 ≤ maxAttempts) (jobId : Uuid) :
    w.Counted maxAttempts jobId where
  disciplined := unattempted.initial.db.disciplined
  stored := by simp [unattempted.initial.db.artifacts]
  attempts job member _ := by
    rw [unattempted.attempts job member, World.attempts, unattempted.initial.claims]
    rfl
  queued job member _ _ := by
    rw [unattempted.attempts job member]
    exact positive
  owned := by simp [unattempted.initial.claims]

/-- The attempts of a job that is never retried by hand stay within the policy in exactly the
runs in which no delivery finds the lease of the last allowed attempt lapsed. -/
theorem run_boundedAttempts_iff {policy : RetryPolicy} (positive : 1 ≤ policy.maxAttempts)
    {w : World} (unattempted : w.Unattempted) (jobId : Uuid) (events : List ProcessingEvent)
    (fresh : meetsAlong (handleStep policy) DrawsFreshToken w events)
    (unretried : ∀ event ∈ events, ¬ event.RetriesJob jobId) :
    meetsAlong (handleStep policy) (KeepsBound policy jobId) w events ↔
      meetsAlong (handleStep policy) (SparesLastAttempt policy jobId) w events := by
  refine meetsAlong_congr (P := fun w => w.Counted policy.maxAttempts jobId ∧
    w.attempts jobId ≤ policy.maxAttempts)
    (E := fun w event => DrawsFreshToken w event ∧ ¬ event.RetriesJob jobId) ?_ ?_ ?_ ?_
  · refine ⟨unattempted.counted positive jobId, ?_⟩
    rw [World.attempts, unattempted.initial.claims]
    exact Nat.zero_le _
  · intro pre event post split
    exact ⟨meetsAlong_iff.mp fresh pre event post split, unretried event (by simp [split])⟩
  · rintro w event ⟨counted, bounded⟩ ⟨drawn, another⟩
    exact keepsBound_iff positive counted bounded drawn another
  · rintro w event ⟨counted, bounded⟩ ⟨drawn, another⟩ keeps
    exact ⟨handleStep_counted counted drawn another, keeps.attempts⟩

theorem sampleWorld_unattempted : sampleWorld.Unattempted :=
  ⟨sampleWorld_initial, by decide⟩

def sampleDelivery (now : Time) (claimToken : Nat) : ProcessingEvent :=
  .claim (.ofNat 5) (.ofNat 1) (.ofNat 2) now (.ofNat claimToken)

/-- The first attempt fails, the second runs. -/
def sampleAttempts : List ProcessingEvent :=
  [sampleDelivery 100 50, .transientFailure sampleClaim none "Timeout" 101,
    sampleDelivery 103 51]

theorem run_boundedAttempts_iff_sample :
    meetsAlong (handleStep {}) (KeepsBound {} (.ofNat 5)) sampleWorld sampleAttempts :=
  (run_boundedAttempts_iff (by decide) sampleWorld_unattempted (.ofNat 5) sampleAttempts
    (by decide +kernel) (by decide +kernel)).mpr (by decide +kernel)

/-- Every policy bounds the attempts of every job that nobody retries. -/
def AlwaysBounded : Prop :=
  ∀ (policy : RetryPolicy) (w : World) (jobId : Uuid) (events : List ProcessingEvent),
    1 ≤ policy.maxAttempts → w.Unattempted →
    meetsAlong (handleStep policy) DrawsFreshToken w events →
    (∀ event ∈ events, ¬ event.RetriesJob jobId) →
    meetsAlong (handleStep policy) (KeepsBound policy jobId) w events

/-- Workers die; each delivery after the lease claims the job once more. -/
def sampleCrashes : List ProcessingEvent :=
  [sampleDelivery 0 50, sampleDelivery 1000 51, sampleDelivery 2000 52, sampleDelivery 3000 53]

theorem not_alwaysBounded : ¬ AlwaysBounded := by
  intro always
  have within := always {} sampleWorld (.ofNat 5) sampleCrashes (by decide)
    sampleWorld_unattempted (by decide +kernel) (by decide +kernel)
  have fourth : (run (handleStep {}) sampleWorld sampleCrashes).attempts (.ofNat 5) = 4 := by
    decide +kernel
  have last := (meetsAlong_iff.mp within (sampleCrashes.take 3) (sampleDelivery 3000 53) [] rfl).attempts
  exact absurd (fourth ▸ last) (by decide)

end AgreementIntelligence.Agreements
