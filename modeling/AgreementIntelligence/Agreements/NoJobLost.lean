import AgreementIntelligence.Agreements.Wakeups

/-! The other half of the way of a job: whoever queues a job leaves an outbox row with it,
in the same transaction, and a dispatcher puts a delivery where the row was before it marks
the row. With the steps of the handlings this keeps the invariant along every run. -/

namespace AgreementIntelligence.Agreements
open Identity Lib.Table Lib.Runs

section Calls
variable {db after : Database}

/-- A new job, and agreements that stand as before. -/
theorem Queues.steady {agreement : AgreementRecord} {job : ProcessingJobRecord}
    (queues : Queues db agreement job) (distinct : (db.jobs.map (·.id)).Nodup)
    (jobs : after.jobs = db.jobs ++ [job])
    (agreements : after.agreements.map (·.standing) = db.agreements.map (·.standing)) :
    Steady db after where
  jobIds := by
    rw [jobs, List.map_append, List.map_singleton]
    refine List.nodup_append.mpr ⟨distinct, List.nodup_singleton _, fun id here other last => ?_⟩
    obtain ⟨row, member, rfl⟩ := List.mem_map.mp here
    rw [List.mem_singleton.mp last]
    exact queues.fresh row member
  contexts row member := ⟨row, jobs ▸ List.mem_append_left _ member, rfl, rfl⟩
  active _ := isActive_of_standing agreements

theorem markSubmitted_standing (db : Database) (agreement : AgreementRecord)
    (job : ProcessingJobRecord) :
    (markSubmitted db agreement job).agreements.map (·.standing) =
      db.agreements.map (·.standing) := by
  unfold markSubmitted
  simp only
  split
  · exact map_update fun _ => rfl
  · rfl

theorem Retried.steady {agreementId : Uuid} {job : ProcessingJobRecord} {now : Time}
    (retried : Retried db agreementId job now after) (distinct : (db.jobs.map (·.id)).Nodup) :
    Steady db after where
  jobIds := by
    rw [retried.jobs]
    exact nodup_update (fun _ => rfl) distinct
  contexts row member := by
    have changed := List.mem_map_of_mem (f := fun old : ProcessingJobRecord =>
      if old.id = job.id then retriedJob now old else old) member
    rw [retried.jobs]
    refine ⟨_, changed, ?_⟩
    split <;> exact ⟨rfl, rfl⟩
  active _ := isActive_of_standing (by
    rw [retried.agreements]
    exact map_update fun _ => rfl)

/-- A deletion that is accepted takes its agreement away, and no agreement comes back. -/
theorem acceptDeletion_active {organizationId workspaceId agreementId deletionId : Uuid}
    {now : Time} {context : ArtifactContext}
    (done : acceptDeletion db organizationId workspaceId agreementId deletionId now = .ok after)
    (active : after.IsActive context) : db.IsActive context := by
  unfold acceptDeletion at done
  split at done
  · cases done
    unfold redriveDeletion at active
    split at active
    · exact active
    · exact isActive_of_standing (by rfl) active
  split at done
  · cases done
  split at done
  · cases done
  rename_i accepted _ _
  cases done
  obtain ⟨agreement, found, undeleted⟩ := active
  unfold Database.agreement? insertDeletion at found
  simp only [update] at found
  rw [List.find?_map, Option.map_eq_some_iff] at found
  obtain ⟨old, here, changed⟩ := found
  have kept : ¬ old.id = accepted.id := by
    intro hit
    rw [if_pos hit] at changed
    rw [← changed] at undeleted
    cases undeleted
  rw [if_neg kept] at changed
  subst changed
  refine ⟨old, ?_, undeleted⟩
  rw [← here]
  unfold Database.agreement?
  congr 1
  funext row
  simp only [Function.comp_apply]
  split <;> rfl

theorem acceptDeletion_steady {organizationId workspaceId agreementId deletionId : Uuid}
    {now : Time} (distinct : (db.jobs.map (·.id)).Nodup)
    (done : acceptDeletion db organizationId workspaceId agreementId deletionId now = .ok after) :
    Steady db after where
  jobIds := by rwa [(acceptDeletion_jobs done).1]
  contexts row member := ⟨row, by rwa [(acceptDeletion_jobs done).1], rfl, rfl⟩
  active _ := acceptDeletion_active done
end Calls

/-! The steps of the API, the dispatcher and the queue -/

theorem length_le_wake (outbox : List ProcessingOutboxRecord) (queued : Option ProcessingJobRecord) :
    outbox.length ≤ (wake outbox queued).length := by
  cases queued <;> simp [wake]

theorem getElem?_wake {outbox : List ProcessingOutboxRecord} {place : Nat}
    {row : ProcessingOutboxRecord} (here : outbox[place]? = some row)
    (queued : Option ProcessingJobRecord) : (wake outbox queued)[place]? = some row := by
  cases queued with
  | none => exact here
  | some job =>
    rw [wake, List.getElem?_append_left (List.getElem?_eq_some_iff.mp here).1]
    exact here

section Steps
variable {policy : RetryPolicy} {w : QueueWorld}

/-- A transaction that leaves an outbox row with every job it queues. -/
theorem QueueWorld.Sound.write (sound : w.Sound) {after : Database}
    {queued : Option ProcessingJobRecord} (steady : Steady w.db after)
    (rows : ∀ row ∈ after.jobs, row.Unfinished →
      row ∈ w.db.jobs ∨ ∃ job, queued = some job ∧ (outboxRow job).Names row) :
    QueueWorld.Sound { w with db := after, outbox := wake w.outbox queued } where
  jobIds := steady.jobIds
  published place member :=
    Nat.lt_of_lt_of_le (sound.published place member) (length_le_wake w.outbox queued)
  claims delivery member claimed held := by
    have holds := sound.claims delivery member claimed held
    obtain ⟨job, there, named, context⟩ := holds.job
    obtain ⟨row, present, id, same⟩ := steady.contexts job there
    exact ⟨holds.id, holds.organizationId, holds.workspaceId, row, present, id.trans named,
      same.trans context⟩
  woken row present unfinished active := by
    rcases rows row present unfinished with old | ⟨job, rfl, names⟩
    · rcases sound.woken row old unfinished (steady.active _ active) with
        ⟨place, pending, here, names, undelivered, unpublished⟩ | handled
      · exact .inl ⟨place, pending, getElem?_wake here queued, names, undelivered, unpublished⟩
      · exact .inr handled
    · refine .inl ⟨w.outbox.length, outboxRow job, List.getElem?_concat_length, names, rfl, ?_⟩
      exact fun published => absurd (sound.published _ published) (Nat.lt_irrefl _)

/-- A submission, if it has queued a job. -/
theorem QueueWorld.Sound.submitted (sound : w.Sound) {agreement : AgreementRecord}
    {job : ProcessingJobRecord} {after : Database} (queues : Queues w.db agreement job)
    (jobs : after.jobs = w.db.jobs ++ [job])
    (agreements : after.agreements.map (·.standing) = w.db.agreements.map (·.standing)) :
    QueueWorld.Sound { w with db := after, outbox := wake w.outbox (some job) } := by
  refine sound.write (queues.steady sound.jobIds jobs agreements) fun row present _ => ?_
  rw [jobs] at present
  rcases List.mem_append.mp present with old | new
  · exact .inl old
  · rw [List.mem_singleton.mp new]
    exact .inr ⟨job, rfl, rfl, rfl, rfl⟩

theorem QueueWorld.Sound.retried (sound : w.Sound) {agreementId : Uuid} {after : Database}
    {job : ProcessingJobRecord} {now : Time}
    (retried : Retried w.db agreementId job now after) :
    QueueWorld.Sound { w with db := after, outbox := wake w.outbox (after.job? job.id) } := by
  have steady := retried.steady sound.jobIds
  refine sound.write steady fun row present _ => ?_
  by_cases hit : row.id = job.id
  · refine .inr ⟨row, ?_, rfl, rfl, rfl⟩
    rw [← hit]
    exact find?_of_mem steady.jobIds present
  · rw [retried.jobs] at present
    obtain ⟨old, there, rfl⟩ := mem_update.mp present
    have apart : ¬ old.id = job.id := by
      intro same
      rw [if_pos same] at hit
      exact hit same
    rw [if_neg apart]
    exact .inl there

/-- The delivery of a published row stands where the row was. -/
theorem QueueWorld.Sound.publish (sound : w.Sound) {place : Nat} {row : ProcessingOutboxRecord}
    (here : w.outbox[place]? = some row) :
    QueueWorld.Sound { w with
      published := w.published ++ [place]
      queue := w.queue ++ [⟨row.jobId, row.organizationId, row.workspaceId, .waiting⟩] } where
  jobIds := sound.jobIds
  published other member := by
    rcases List.mem_append.mp member with old | new
    · exact sound.published other old
    · rw [List.mem_singleton.mp new]
      exact (List.getElem?_eq_some_iff.mp here).1
  claims delivery member claimed held := by
    rcases List.mem_append.mp member with old | new
    · exact sound.claims delivery old claimed held
    · rw [List.mem_singleton.mp new] at held
      cases held
  woken job present unfinished active := by
    rcases sound.woken job present unfinished active with
      ⟨other, pending, there, names, undelivered, unpublished⟩ | ⟨delivery, queued, wakes⟩
    · by_cases same : other = place
      · subst same
        rw [here] at there
        cases there
        exact .inr ⟨_, List.mem_append_right _ List.mem_cons_self, names, trivial⟩
      · refine .inl ⟨other, pending, there, names, undelivered, ?_⟩
        simp [unpublished, same]
    · exact .inr ⟨delivery, List.mem_append_left _ queued, wakes⟩

theorem QueueWorld.Sound.markDelivered (sound : w.Sound) {place : Nat}
    (published : place ∈ w.published) (now : Time) :
    QueueWorld.Sound { w with
      outbox := w.outbox.modify place fun row => { row with deliveredAt := some now } } where
  jobIds := sound.jobIds
  published other member := by
    rw [List.length_modify]
    exact sound.published other member
  claims := sound.claims
  woken job present unfinished active := by
    rcases sound.woken job present unfinished active with
      ⟨other, pending, there, names, undelivered, unpublished⟩ | handled
    · have apart : place ≠ other := fun same => unpublished (same ▸ published)
      refine .inl ⟨other, pending, ?_, names, undelivered, unpublished⟩
      rw [← there]
      exact List.getElem?_modify_ne _ _ apart
    · exact .inr handled

theorem QueueWorld.Sound.api (sound : w.Sound) (event : QueueEvent) : (apiStep w event).Sound := by
  unfold apiStep
  split
  · split
    · exact sound
    rename_i submission done
    rcases submit_ok done with ⟨replayed, same⟩ | ⟨created, -, agreement, queues, -, same⟩
    · rw [replayed, same]
      exact sound
    · rw [created, same]
      exact sound.submitted queues rfl (markSubmitted_standing ..)
  · split
    · exact sound
    rename_i done
    rcases submitComparison_ok done with ⟨rfl, rfl⟩ | ⟨agreement, job, runs, rfl, -, queues, rfl⟩
    · exact sound
    · exact sound.submitted queues rfl rfl
  · split
    · exact sound
    rename_i done
    rcases enqueueEmbeddingReindexJob_ok done with ⟨rfl, rfl⟩ | ⟨agreement, job, rfl, -, queues, rfl⟩
    · exact sound
    · exact sound.submitted queues rfl rfl
  · split
    · exact sound
    rename_i done
    obtain ⟨job, rfl, retried⟩ := retryJob_ok done
    exact sound.retried retried
  · split
    · exact sound
    · exact ⟨sound.jobIds, sound.published, sound.claims, sound.woken⟩
  · split
    · exact sound.write (Steady.refl sound.jobIds) fun _ present _ => .inl present
    · exact sound
  · split
    · exact sound
    rename_i after done
    have written : QueueWorld.Sound { w with db := after, outbox := wake w.outbox none } :=
      sound.write (acceptDeletion_steady sound.jobIds done) fun _ present _ =>
        .inl ((acceptDeletion_jobs done).1 ▸ present)
    exact written
  · split
    · exact sound
    rename_i here
    exact sound.publish here
  · split
    · rename_i published
      exact sound.markDelivered published _
    · exact sound
  · refine sound.deliver (fun other queued => List.mem_append_left _ queued) fun other queued => ?_
    rcases List.mem_append.mp queued with old | new
    · exact .inl old
    · rw [List.mem_singleton.mp new]
      exact .inr rfl
  · exact sound

theorem queueStep_sound (sound : w.Sound) (event : QueueEvent) :
    (queueStep policy w event).Sound := by
  unfold queueStep
  split
  · split
    · rename_i member
      exact sound.handleDelivery policy member rfl event
    · exact sound
  · exact sound.api event

theorem QueueWorld.Initial.sound (initial : w.Initial) : w.Sound where
  jobIds := by simp [initial.jobs]
  published := by simp [initial.published]
  claims := by simp [initial.queue]
  woken := by simp [initial.jobs]

/-- However submissions, retries, requeues, dispatchers and workers interleave, and wherever
workers raise or die, every unfinished job of an active agreement has an undelivered outbox
row or an unacknowledged delivery. -/
theorem run_losesNoJob (initial : w.Initial) (events : List QueueEvent) :
    (run (queueStep policy) w events).LosesNoJob := by
  refine QueueWorld.Sound.losesNoJob ?_
  exact run_invariant QueueWorld.Sound initial.sound fun w event sound =>
    queueStep_sound sound event
end Steps

/-! A job is submitted, and a worker has claimed it. -/

def sampleQueueWorld : QueueWorld where
  db := { sampleDatabase with jobs := [], comparisonRuns := [] }
  storage := []
  outbox := []
  published := []
  lookedUp := []
  queue := []

theorem sampleQueueWorld_initial : sampleQueueWorld.Initial :=
  ⟨rfl, rfl, rfl, rfl⟩

def wakeUp (stage : HandlingStage) : Delivery :=
  ⟨.ofNat 5, .ofNat 1, .ofNat 2, stage⟩

def sampleHandling : List QueueEvent :=
  [.submit (.ofNat 1) (.ofNat 2) (.ofNat 3) none "analysis" "baseline" 0 (.ofNat 5),
    .publish 0, .markDelivered 0 1, .receive (wakeUp .waiting),
    .claim (wakeUp .received) 10 (.ofNat 50)]

theorem run_losesNoJob_sample :
    (∃ job ∈ (run (queueStep {}) sampleQueueWorld sampleHandling).db.jobs,
      job.state = .processing) ∧
      (run (queueStep {}) sampleQueueWorld sampleHandling).LosesNoJob :=
  ⟨by decide +kernel, run_losesNoJob sampleQueueWorld_initial sampleHandling⟩

end AgreementIntelligence.Agreements
