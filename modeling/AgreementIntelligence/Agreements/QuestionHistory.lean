import AgreementIntelligence.Agreements.Fencing
import AgreementIntelligence.Agreements.Questions

/-! What a purge leaves of the history of questions. Turns go with the threads that are scoped
to the agreement. A turn cites only agreements of the scope of its thread, so the history of
scoped threads is cleared, and what can stay is what a thread on the whole workspace cites. -/

namespace AgreementIntelligence.Agreements
open Identity Lib.Table Lib.Runs

/-! Processing and deletion leave the question tables alone, but for the purge. -/

structure SameQuestions (before after : Database) : Prop where
  scopes : after.agreements.map AgreementRecord.scope =
    before.agreements.map AgreementRecord.scope
  threads : after.questionThreads = before.questionThreads
  turns : after.questionTurns = before.questionTurns

theorem SameQuestions.refl (db : Database) : SameQuestions db db := ⟨rfl, rfl, rfl⟩

theorem SameQuestions.trans {first second third : Database} (one : SameQuestions first second)
    (two : SameQuestions second third) : SameQuestions first third :=
  ⟨two.scopes.trans one.scopes, two.threads.trans one.threads, two.turns.trans one.turns⟩

theorem SameRows.questions {before after : Database} (rows : SameRows before after) :
    SameQuestions before after :=
  ⟨by rw [rows.agreements], rows.questionThreads, rows.questionTurns⟩

theorem updateState_questions (db : Database) (job : ProcessingJobRecord) (state : JobState) :
    SameQuestions db (updateAgreementProcessingState db job state) where
  scopes := by
    have standing := updateAgreementProcessingState_standing db job state
    have scopes := congrArg (List.map Prod.fst) standing
    rwa [List.map_map, List.map_map] at scopes
  threads := by unfold updateAgreementProcessingState; split <;> rfl
  turns := by unfold updateAgreementProcessingState; split <;> rfl

theorem Claimed.questions {db after : Database} {jobId claimToken : Uuid} {now : Time}
    {result : Option ProcessingJob} (claimed : Claimed db jobId now claimToken result after) :
    SameQuestions db after := by
  cases claimed with
  | idle => exact .refl db
  | reconciled requested done => exact done.sameRows.questions
  | @settled job agreement found active stored =>
    refine .trans ?_ (updateState_questions _ job .completed)
    split <;> exact ⟨rfl, rfl, rfl⟩
  | @started job agreement found active unstored takeable =>
    have started : SameQuestions db (db.updateJob jobId (startAttempt now claimToken)) :=
      ⟨rfl, rfl, rfl⟩
    exact started.trans (updateState_questions _ job .processing)

theorem Committed.questions {db after : Database} {storage left : List String}
    {claimed : ProcessingJob} {prepared : PreparedArtifact} {now : Time} {answer : Bool}
    (outcome : Committed db storage claimed prepared now left (.ok (answer, after))) :
    SameQuestions db after := by
  cases outcome with
  | stopped returns => exact (returns _ _ rfl).2.sameRows.questions
  | @committed job finalized writes runs =>
    obtain ⟨comparisonRuns, rfl⟩ := runs
    unfold commitRows
    refine .trans ?_ (.trans (updateState_questions _ job .completed) ⟨rfl, rfl, rfl⟩)
    split <;> exact ⟨rfl, rfl, rfl⟩

theorem Requeued.questions {db after : Database} {claimed : ProcessingJob}
    {expected : Option CompletedArtifact} {category message : String} {nextRetryAt now : Time}
    {answer : Bool}
    (requeued : Requeued db claimed expected category message nextRetryAt now answer after) :
    SameQuestions db after := by
  cases requeued with
  | idle => exact .refl db
  | inventoried late done requested => exact (late.sameRows.trans done.sameRows).questions
  | @queued job agreement found owned active =>
    have queued : SameQuestions db (db.updateJob claimed.id
      (queueAgain category message nextRetryAt)) := ⟨rfl, rfl, rfl⟩
    exact queued.trans (updateState_questions _ job .queued)

theorem failRows_questions (db : Database) (jobId : Uuid) (job : ProcessingJobRecord)
    (category message : String) (now : Time) :
    SameQuestions db (failRows db jobId job category message now) := by
  unfold failRows
  refine .trans ?_ (updateState_questions _ job .failed)
  split <;> exact ⟨rfl, rfl, rfl⟩

theorem Failed.questions {db after : Database} {claimed : ProcessingJob}
    {expected : Option CompletedArtifact} {category message : String} {now : Time}
    (failed : Failed db claimed expected category message now after) : SameQuestions db after := by
  cases failed with
  | inventoried late => exact late.sameRows.questions
  | reconciled found owned requested done =>
    exact done.sameRows.questions.trans (failRows_questions _ _ _ _ _ _)
  | @settled job agreement found owned active =>
    have settled : SameQuestions db { db with
        intents := update (·.jobId) db.intents claimed.id fun row => { row with state := .settled } }
      := ⟨rfl, rfl, rfl⟩
    exact settled.trans (failRows_questions _ _ _ _ _ _)

theorem transact_questions {w : World} {outcome : Except Raised Database}
    (same : ∀ after, outcome = .ok after → SameQuestions w.db after) :
    SameQuestions w.db (w.transact outcome).db := by
  rcases transact_db_cases w outcome with ⟨after, returned, here⟩ | here
  · rw [here]
    exact same after returned
  · rw [here]
    exact .refl w.db

theorem call_questions (w : World) (call : WorkerCall) :
    SameQuestions w.db (w.call call).db := by
  cases call with
  | claim jobId organizationId workspaceId now claimToken =>
    unfold World.call
    simp only
    split
    · exact .refl w.db
    · rename_i result after done
      exact (claim_ok done).questions
  | expect job artifact now =>
    refine transact_questions fun after returned => ?_
    obtain ⟨answer, done⟩ := map_snd_ok returned
    exact (expect_ok done).sameRows.questions
  | commitPrepared job artifact content verdict now =>
    refine transact_questions fun after returned => ?_
    obtain ⟨answer, done⟩ := map_snd_ok returned
    have outcome := w.commit_committed job artifact content verdict now
    rw [show (w.commit job artifact content verdict now).2 = .ok (answer, after) from done] at outcome
    exact outcome.questions
  | requeue job expected category message nextRetryAt now =>
    refine transact_questions fun after returned => ?_
    obtain ⟨answer, done⟩ := map_snd_ok returned
    exact (requeue_ok done).questions
  | fail job expected category message now =>
    exact transact_questions fun after returned => (fail_ok returned).questions

theorem retryJob_questions {db after : Database}
    {organizationId workspaceId agreementId jobId : Uuid} {now : Time}
    (done : retryJob db organizationId workspaceId agreementId jobId now = .ok after) :
    SameQuestions db after := by
  unfold retryJob at done
  split at done
  · cases done
  split at done
  · cases done
  split at done
  · cases done
  split at done
  · cases done
  split at done
  · cases done
  cases done
  exact ⟨map_update fun _ => rfl, rfl, rfl⟩

theorem acceptDeletion_questions {db after : Database}
    {organizationId workspaceId agreementId deletionId : Uuid} {now : Time}
    (done : acceptDeletion db organizationId workspaceId agreementId deletionId now = .ok after) :
    SameQuestions db after := by
  unfold acceptDeletion at done
  split at done
  · cases done
    unfold redriveDeletion
    split <;> exact ⟨rfl, rfl, rfl⟩
  split at done
  · cases done
  split at done
  · cases done
  · cases done
    exact ⟨map_update fun _ => rfl, rfl, rfl⟩

/-- What a purge does to the question tables. -/
structure PurgesQuestions (deletion : AgreementDeletion) (before after : Database) : Prop where
  scopes : after.agreements.map AgreementRecord.scope =
    before.agreements.map AgreementRecord.scope
  threads : after.questionThreads =
    before.questionThreads.filter fun thread => ¬ thread.scopedTo deletion
  turns : after.questionTurns = before.questionTurns.filter fun turn =>
    ¬ (before.questionThreads.filter fun thread => thread.scopedTo deletion).any
      fun thread => thread.id = turn.threadId

section Purge

variable {deletion : AgreementDeletion} {before after : Database}

theorem PurgesQuestions.mem_threads (purges : PurgesQuestions deletion before after)
    {thread : QuestionThreadRecord} : thread ∈ after.questionThreads ↔
      thread ∈ before.questionThreads ∧ thread.scopedTo deletion = false := by
  rw [purges.threads, List.mem_filter]
  simp

theorem PurgesQuestions.mem_turns (purges : PurgesQuestions deletion before after)
    {turn : QuestionTurnRecord} : turn ∈ after.questionTurns ↔
      turn ∈ before.questionTurns ∧ ∀ thread ∈ before.questionThreads,
        thread.scopedTo deletion = true → thread.id ≠ turn.threadId := by
  rw [purges.turns, List.mem_filter]
  simp

end Purge

theorem purgedRows_questions (db : Database) (deletion : AgreementDeletion) (now : Time) :
    PurgesQuestions deletion db
      ((purgedRows db deletion).updateClaimed deletion (completeRequest now)) where
  scopes := by
    simp only [purgedRows, Database.updateClaimed, List.map_map]
    refine List.map_congr_left fun agreement _ => ?_
    rw [Function.comp_apply]
    split <;> rfl
  threads := rfl
  turns := rfl

theorem step_questions (w : World) (event : Event) :
    SameQuestions w.db (step w event).db ∨
      ∃ deletion, PurgesQuestions deletion w.db (step w event).db := by
  cases event with
  | call worker =>
    simp only [step]
    split
    · exact .inl (call_questions w worker)
    · exact .inl (.refl w.db)
  | expectArtifact job =>
    simp only [step]
    split
    · split <;> exact .inl (.refl w.db)
    · exact .inl (.refl w.db)
  | crashInCommit job artifact content now =>
    simp only [step]
    split <;> exact .inl (.refl w.db)
  | retryJob organizationId workspaceId agreementId jobId now =>
    exact .inl (transact_questions fun after done => retryJob_questions done)
  | acceptDeletion organizationId workspaceId agreementId deletionId now =>
    exact .inl (transact_questions fun after done => acceptDeletion_questions done)
  | claimDeletion deletionId organizationId workspaceId now claimToken =>
    simp only [step, claimDeletion]
    split <;> exact .inl ⟨rfl, rfl, rfl⟩
  | listPending deletion =>
    simp only [step]
    split <;> exact .inl (.refl w.db)
  | removeObject deletion item =>
    simp only [step]
    split <;> exact .inl (.refl w.db)
  | markDeleted deletion item now =>
    simp only [step, markDeleted]
    split
    · split <;> exact .inl ⟨rfl, rfl, rfl⟩
    · exact .inl (.refl w.db)
  | deleteSource deletion item now =>
    simp only [step, deleteSourceIfUnreferenced]
    split
    · split
      · exact .inl (.refl w.db)
      split
      · exact .inl (.refl w.db)
      split <;> exact .inl ⟨rfl, rfl, rfl⟩
    · exact .inl (.refl w.db)
  | retryObject deletion item message nextRetryAt =>
    simp only [step, retryObject]
    split
    · split <;> exact .inl ⟨rfl, rfl, rfl⟩
    · exact .inl (.refl w.db)
  | failObject deletion item message now =>
    simp only [step, failObject]
    split
    · split <;> exact .inl ⟨rfl, rfl, rfl⟩
    · exact .inl (.refl w.db)
  | retryDatabaseCleanup deletion message nextRetryAt =>
    simp only [step, retryDatabaseCleanup]
    split
    · split <;> exact .inl ⟨rfl, rfl, rfl⟩
    · exact .inl (.refl w.db)
  | failDatabaseCleanup deletion message now =>
    simp only [step, failDatabaseCleanup]
    split
    · split <;> exact .inl ⟨rfl, rfl, rfl⟩
    · exact .inl (.refl w.db)
  | recoverStaleDeletions organizationId now => exact .inl ⟨rfl, rfl, rfl⟩
  | completeAndPurge deletion now =>
    simp only [step]
    split
    · rcases transact_db_cases w (completeAndPurge w.db deletion now) with ⟨after, done, here⟩ | here
      · rw [here]
        rcases completeAndPurge_ok done with ⟨-, rfl⟩ | ⟨-, -, -, rfl⟩
        · exact .inl (.refl w.db)
        · exact .inr ⟨deletion, purgedRows_questions w.db deletion now⟩
      · rw [here]
        exact .inl (.refl w.db)
    · exact .inl (.refl w.db)

/-! Turns cite within the scope of their thread. -/

/-- A claim of the turn cites an anchor whose stored source is the agreement. -/
def QuestionTurnRecord.Cites (turn : QuestionTurnRecord) (agreementId : Uuid) : Prop :=
  ∃ claim ∈ turn.claims, ∃ anchorId ∈ claim, ∃ kept ∈ turn.citationSources,
    kept.1 = anchorId ∧ kept.2.agreementId = agreementId

instance (turn : QuestionTurnRecord) (agreementId : Uuid) : Decidable (turn.Cites agreementId) :=
  inferInstanceAs (Decidable (∃ _ ∈ _, _))

theorem mem_citationSourcesFromSearch {results : List SearchResult}
    {kept : String × CitationSource} (member : kept ∈ citationSourcesFromSearch results) :
    ∃ result ∈ results, kept.2 = result.source := by
  have first : ∀ entries sources : List (String × CitationSource),
      kept ∈ entries.foldl (fun sources entry =>
        if sources.any fun other => other.1 = entry.1 then sources else sources ++ [entry]) sources →
      kept ∈ sources ∨ kept ∈ entries := by
    intro entries
    induction entries with
    | nil => exact fun sources inside => .inl inside
    | cons entry rest ih =>
        intro sources inside
        rw [List.foldl_cons] at inside
        rcases ih _ inside with old | later
        · split at old
          · exact .inl old
          · rcases List.mem_append.mp old with there | last
            · exact .inl there
            · exact .inr (List.mem_singleton.mp last ▸ List.mem_cons_self)
        · exact .inr (List.mem_cons_of_mem entry later)
  rcases first _ _ (List.mem_of_mem_filter member) with none | entry
  · cases none
  · obtain ⟨result, inside, listed⟩ := List.mem_flatMap.mp entry
    obtain ⟨anchorId, -, rfl⟩ := List.mem_map.mp listed
    exact ⟨result, inside, rfl⟩

theorem mem_visibleAgreementIds {db : Database} {organizationId workspaceId id : Uuid}
    {ids : List Uuid} (visible : id ∈ visibleAgreementIds db organizationId workspaceId ids) :
    (⟨id, organizationId, workspaceId⟩ : Scope) ∈ db.agreements.map AgreementRecord.scope := by
  obtain ⟨agreement, inside, rfl⟩ := List.mem_map.mp visible
  obtain ⟨member, facts⟩ := List.mem_filter.mp inside
  obtain ⟨organization, workspace, -⟩ := of_decide_eq_true facts
  exact List.mem_map.mpr ⟨agreement, member, by rw [AgreementRecord.scope, organization, workspace]⟩

structure QuestionWorld.Coherent (s : QuestionWorld) : Prop where
  agreementIds : ((s.world.db.agreements.map AgreementRecord.scope).map (·.agreementId)).Nodup
  threadIds : (s.world.db.questionThreads.map (·.id)).Nodup
  threads : ∀ thread ∈ s.world.db.questionThreads, ∀ ids ∈ thread.agreementIds, ∀ id ∈ ids,
    (⟨id, thread.organizationId, thread.workspaceId⟩ : Scope) ∈
      s.world.db.agreements.map AgreementRecord.scope
  asking : ∀ pair ∈ s.asking,
    (∀ thread ∈ s.world.db.questionThreads, thread.id = pair.1.id → thread = pair.1) ∧
    ∀ result ∈ pair.2, ∀ ids ∈ pair.1.agreementIds, result.agreementId ∈ ids
  turns : ∀ turn ∈ s.world.db.questionTurns, ∃ thread ∈ s.world.db.questionThreads,
    thread.id = turn.threadId ∧
      ∀ ids ∈ thread.agreementIds, ∀ kept ∈ turn.citationSources, kept.2.agreementId ∈ ids

section Steps

variable {s : QuestionWorld}

theorem QuestionWorld.Initial.coherent (initial : s.Initial) : s.Coherent where
  agreementIds := by
    rw [List.map_map]
    exact initial.agreementIds
  threadIds := by simp [initial.questionThreads]
  threads := by simp [initial.questionThreads]
  asking := by simp [initial.asking]
  turns := by simp [initial.questionTurns]

theorem QuestionWorld.Coherent.same {world : World} (coherent : s.Coherent)
    (same : SameQuestions s.world.db world.db) : QuestionWorld.Coherent { s with world := world } where
  agreementIds := by
    rw [same.scopes]
    exact coherent.agreementIds
  threadIds := by
    rw [same.threads]
    exact coherent.threadIds
  threads := by
    rw [same.threads, same.scopes]
    exact coherent.threads
  asking := by
    rw [same.threads]
    exact coherent.asking
  turns := by
    rw [same.threads, same.turns]
    exact coherent.turns

theorem QuestionWorld.Coherent.purged {world : World} {deletion : AgreementDeletion}
    (coherent : s.Coherent) (purges : PurgesQuestions deletion s.world.db world.db) :
    QuestionWorld.Coherent { s with world := world } := by
  have fewer : ∀ thread ∈ world.db.questionThreads, thread ∈ s.world.db.questionThreads :=
    fun thread member => (purges.mem_threads.mp member).1
  exact {
    agreementIds := by
      rw [purges.scopes]
      exact coherent.agreementIds
    threadIds := by
      rw [purges.threads]
      exact coherent.threadIds.sublist (List.filter_sublist.map _)
    threads := fun thread member => by
      rw [purges.scopes]
      exact coherent.threads thread (fewer thread member)
    asking := fun pair held =>
      have facts := coherent.asking pair held
      ⟨fun thread member => facts.1 thread (fewer thread member), facts.2⟩
    turns := fun turn member => by
      obtain ⟨there, kept⟩ := purges.mem_turns.mp member
      obtain ⟨thread, present, named, within⟩ := coherent.turns turn there
      have stays : thread.scopedTo deletion = false := by
        by_contra goes
        exact kept thread present (by simpa using goes) named
      exact ⟨thread, purges.mem_threads.mpr ⟨present, stays⟩, named, within⟩ }

theorem createThread_coherent {threadId organizationId workspaceId : Uuid}
    {agreementIds : Option (List Uuid)} {after : Database} (coherent : s.Coherent)
    (fresh : s.FreshThread threadId)
    (done : createThread s.world.db threadId organizationId workspaceId agreementIds = .ok after) :
    QuestionWorld.Coherent { s with world := { s.world with db := after } } := by
  unfold createThread at done
  simp only at done
  split at done
  · cases done
  rename_i visible
  cases done
  refine { coherent with
    threadIds := ?_, threads := fun thread member => ?_, asking := fun pair held => ?_,
    turns := fun turn member => ?_ }
  · rw [List.map_append, List.map_singleton]
    refine List.nodup_append.mpr ⟨coherent.threadIds, List.nodup_singleton _, ?_⟩
    intro id here other last same
    rw [List.mem_singleton.mp last] at same
    obtain ⟨thread, there, rfl⟩ := List.mem_map.mp here
    exact fresh.1 thread there same
  · rcases List.mem_append.mp member with old | new
    · exact coherent.threads thread old
    · rw [List.mem_singleton.mp new]
      intro ids some id inside
      simp only at some
      split at some
      · cases some
      · rename_i requested
        cases some
        have all : allVisible s.world.db organizationId workspaceId (agreementIds.getD []) = true := by
          by_contra hidden
          exact visible ⟨requested, hidden⟩
        have shown := List.all_eq_true.mp all id inside
        exact mem_visibleAgreementIds (of_decide_eq_true shown)
  · obtain ⟨same, within⟩ := coherent.asking pair held
    refine ⟨fun thread member named => ?_, within⟩
    rcases List.mem_append.mp member with old | new
    · exact same thread old named
    · rw [List.mem_singleton.mp new] at named
      exact absurd named.symm (fresh.2 pair held)
  · obtain ⟨thread, there, facts⟩ := coherent.turns turn member
    exact ⟨thread, List.mem_append_left _ there, facts⟩

theorem addTurn_coherent {thread : QuestionThreadRecord} {results : List SearchResult}
    {allowed : Bool} {candidate : List CandidateClaim} {after : Database} (coherent : s.Coherent)
    (held : (thread, results) ∈ s.asking)
    (done : addTurn s.world.db thread results allowed candidate = .ok after) :
    QuestionWorld.Coherent { s with world := { s.world with db := after } } := by
  unfold addTurn at done
  split at done
  · rename_i survives
    cases done
    refine { coherent with turns := fun turn member => ?_ }
    rcases List.mem_append.mp member with old | new
    · exact coherent.turns turn old
    · obtain ⟨row, there, facts⟩ := List.any_eq_true.mp survives
      obtain ⟨named, -⟩ := of_decide_eq_true facts
      obtain ⟨same, within⟩ := coherent.asking _ held
      have isThread : row = thread := same row there named
      rw [List.mem_singleton.mp new]
      refine ⟨thread, isThread ▸ there, rfl, fun ids listed kept stored => ?_⟩
      obtain ⟨result, inside, source⟩ := mem_citationSourcesFromSearch stored
      rw [source]
      exact within result inside ids listed
  · cases done

theorem setArchived_questions {db after : Database}
    {organizationId workspaceId agreementId : Uuid} {archivedAt : Option Time}
    (done : setArchived db organizationId workspaceId agreementId archivedAt = .ok after) :
    SameQuestions db after := by
  unfold setArchived at done
  split at done
  · cases done
  split at done
  · cases done
  split at done
  · cases done
    exact .refl db
  · cases done
    exact ⟨map_update fun _ => rfl, rfl, rfl⟩

theorem questionTransact_coherent {outcome : Except Raised Database} (coherent : s.Coherent)
    (keeps : ∀ after, outcome = .ok after →
      QuestionWorld.Coherent { s with world := { s.world with db := after } }) :
    (s.transact outcome).Coherent := by
  cases outcome with
  | error raised => exact coherent
  | ok after => exact keeps after rfl

theorem questionStep_coherent (event : QuestionEvent) (coherent : s.Coherent) :
    (questionStep s event).Coherent := by
  cases event with
  | system event =>
    rcases step_questions s.world event with same | ⟨deletion, purges⟩
    · exact coherent.same same
    · exact coherent.purged purges
  | createThread threadId organizationId workspaceId agreementIds =>
    simp only [questionStep]
    split
    · rename_i fresh
      exact questionTransact_coherent coherent fun after done =>
        createThread_coherent coherent fresh done
    · exact coherent
  | search threadId organizationId workspaceId results =>
    simp only [questionStep]
    split
    · exact coherent
    rename_i thread loaded
    split
    · rename_i searchable
      obtain ⟨found, -⟩ := Option.filter_eq_some_iff.mp loaded
      have present := List.mem_of_find?_eq_some found
      refine { coherent with asking := fun pair held => ?_ }
      rcases List.mem_append.mp held with old | new
      · exact coherent.asking pair old
      · rw [List.mem_singleton.mp new]
        refine ⟨fun row there named => ?_, fun result inside => (searchable result inside).2⟩
        have one := find?_of_mem coherent.threadIds there
        have two := find?_of_mem coherent.threadIds present
        rw [named] at one
        exact Option.some.inj (one.symm.trans two)
    · exact coherent
  | answer thread results allowed candidate =>
    simp only [questionStep]
    split
    · rename_i held
      exact questionTransact_coherent coherent fun after done =>
        addTurn_coherent coherent held done
    · exact coherent
  | archive organizationId workspaceId agreementId now =>
    exact questionTransact_coherent coherent fun after done =>
      coherent.same (setArchived_questions done)
  | restore organizationId workspaceId agreementId =>
    exact questionTransact_coherent coherent fun after done =>
      coherent.same (setArchived_questions done)

theorem reachable_coherent (reached : Reachable questionStep QuestionWorld.Initial s) :
    s.Coherent :=
  reached.invariant (fun _ initial => initial.coherent) fun _ event => questionStep_coherent event

end Steps

/-! The purge -/

/-- A thread on a whole workspace has a turn that cites the agreement. -/
def Database.CitedByWorkspaceThread (db : Database) (agreementId : Uuid) : Prop :=
  ∃ turn ∈ db.questionTurns, (∃ thread ∈ db.questionThreads,
    thread.id = turn.threadId ∧ thread.agreementIds = none) ∧ turn.Cites agreementId

theorem scopedTo_eq_true {thread : QuestionThreadRecord} {deletion : AgreementDeletion} :
    thread.scopedTo deletion = true ↔ thread.organizationId = deletion.organizationId ∧
      thread.workspaceId = deletion.workspaceId ∧
      ∃ ids ∈ thread.agreementIds, deletion.agreementId ∈ ids := by
  simp [QuestionThreadRecord.scopedTo, Option.any_eq_true, and_assoc]

/-- The history of scoped threads is always cleared, so a purge clears the history of its
agreement exactly when no thread on a whole workspace has cited it. -/
theorem purge_clearsHistory_iff {s : QuestionWorld}
    (reached : Reachable questionStep QuestionWorld.Initial s) {deletion : AgreementDeletion}
    {now : Time} {after : Database} (claimed : (s.world.db.lockedClaim? deletion).isSome = true)
    (done : completeAndPurge s.world.db deletion now = .ok after) :
    (∀ turn ∈ after.questionTurns, ¬ turn.Cites deletion.agreementId) ↔
      ¬ s.world.db.CitedByWorkspaceThread deletion.agreementId := by
  have coherent := reachable_coherent reached
  rcases completeAndPurge_ok done with ⟨unclaimed, -⟩ | ⟨-, -, scope, rfl⟩
  · rw [unclaimed] at claimed
    cases claimed
  have purges := purgedRows_questions s.world.db deletion now
  constructor
  · rintro cleared ⟨turn, member, ⟨thread, present, named, whole⟩, cites⟩
    refine cleared turn (purges.mem_turns.mpr ⟨member, fun other there goes same => ?_⟩) cites
    -- the primary key makes the scoped thread the one on the whole workspace
    have one := find?_of_mem coherent.threadIds present
    have two := find?_of_mem coherent.threadIds there
    rw [named, ← same] at one
    obtain ⟨-, -, ids, listed, -⟩ := scopedTo_eq_true.mp goes
    rw [Option.some.inj (two.symm.trans one), whole] at listed
    cases listed
  · intro silent turn member cites
    obtain ⟨there, kept⟩ := purges.mem_turns.mp member
    obtain ⟨thread, present, named, within⟩ := coherent.turns turn there
    cases listed : thread.agreementIds with
    | none => exact silent ⟨turn, there, ⟨thread, present, named, listed⟩, cites⟩
    | some ids =>
      obtain ⟨claim, -, anchorId, -, source, stored, -, isAgreement⟩ := cites
      have inside := within ids listed source stored
      rw [isAgreement] at inside
      -- the primary key of agreements gives the thread the tenant of the deletion
      have tenant := coherent.threads thread present ids listed _ inside
      have one := find?_of_mem coherent.agreementIds tenant
      have two := find?_of_mem coherent.agreementIds scope
      have same := Option.some.inj (one.symm.trans two)
      refine kept thread present (scopedTo_eq_true.mpr ⟨?_, ?_, ids, listed, inside⟩) named
      · exact congrArg Scope.organizationId same
      · exact congrArg Scope.workspaceId same

/-! Two histories of one agreement: a question to it alone, and one to its workspace. -/

def sampleResult : SearchResult := ⟨.ofNat 3, "checksum", "1", ["anchor"]⟩

/-- A thread, one turn that cites the agreement, and its deletion up to the purge. -/
def sampleHistory (agreementIds : Option (List Uuid)) : List QuestionEvent :=
  [.createThread (.ofNat 8) (.ofNat 1) (.ofNat 2) agreementIds,
    .search (.ofNat 8) (.ofNat 1) (.ofNat 2) [sampleResult],
    .answer ⟨.ofNat 8, .ofNat 1, .ofNat 2, agreementIds⟩ [sampleResult] true [⟨["anchor"], true⟩],
    .system (.acceptDeletion (.ofNat 1) (.ofNat 2) (.ofNat 3) (.ofNat 7) 200),
    .system (.claimDeletion (.ofNat 7) (.ofNat 1) (.ofNat 2) 201 (.ofNat 70))]

def sampleQuestions : QuestionWorld where
  world := { sampleWorld with db := { sampleDatabase with comparisonRuns := [] } }
  asking := []

theorem sampleQuestions_initial : sampleQuestions.Initial where
  world := { sampleWorld_initial with db := { sampleWorld_initial.db with } }
  agreementIds := by decide
  questionThreads := rfl
  questionTurns := rfl
  asking := rfl

/-- The database that the purge leaves of a history. -/
def samplePurge (agreementIds : Option (List Uuid)) : Database :=
  committed sampleDatabase
    (completeAndPurge (run questionStep sampleQuestions (sampleHistory agreementIds)).world.db
      sampleDeletion 203)

theorem purge_clearsHistory_iff_sample :
    (run questionStep sampleQuestions (sampleHistory (some [.ofNat 3]))).world.db.questionTurns.any
        (fun turn => turn.Cites (.ofNat 3)) = true ∧
      (samplePurge (some [.ofNat 3])).questionTurns.all
        (fun turn => ¬ turn.Cites (.ofNat 3)) = true := by
  have reached : Reachable questionStep QuestionWorld.Initial
      (run questionStep sampleQuestions (sampleHistory (some [.ofNat 3]))) :=
    ⟨sampleQuestions, _, sampleQuestions_initial, rfl⟩
  have done : completeAndPurge (run questionStep sampleQuestions
      (sampleHistory (some [.ofNat 3]))).world.db sampleDeletion 203 =
        .ok (samplePurge (some [.ofNat 3])) :=
    eq_ok_committed sampleDatabase (by decide +kernel)
  have cleared := (purge_clearsHistory_iff reached (by decide +kernel) done).mpr
    (by unfold Database.CitedByWorkspaceThread; decide +kernel)
  refine ⟨by decide +kernel, ?_⟩
  exact List.all_eq_true.mpr fun turn member => decide_eq_true (cleared turn member)

/-- After every purge no turn is left that cites the agreement. -/
def PurgeClearsHistory : Prop :=
  ∀ s, Reachable questionStep QuestionWorld.Initial s →
    ∀ (deletion : AgreementDeletion) (now : Time) (after : Database),
      (s.world.db.lockedClaim? deletion).isSome = true →
      completeAndPurge s.world.db deletion now = .ok after →
        ∀ turn ∈ after.questionTurns, ¬ turn.Cites deletion.agreementId

/-- A question to the whole workspace outlives the agreement that its answer cites. -/
theorem not_purgeClearsHistory : ¬ PurgeClearsHistory := by
  intro clears
  have reached : Reachable questionStep QuestionWorld.Initial
      (run questionStep sampleQuestions (sampleHistory none)) :=
    ⟨sampleQuestions, _, sampleQuestions_initial, rfl⟩
  have done : completeAndPurge (run questionStep sampleQuestions (sampleHistory none)).world.db
      sampleDeletion 203 = .ok (samplePurge none) :=
    eq_ok_committed sampleDatabase (by decide +kernel)
  have cleared := clears _ reached sampleDeletion 203 _ (by decide +kernel) done
  have stays : ∃ turn ∈ (samplePurge none).questionTurns, turn.Cites (.ofNat 3) := by
    decide +kernel
  obtain ⟨turn, member, cites⟩ := stays
  exact cleared turn member cites

end AgreementIntelligence.Agreements
