import AgreementIntelligence.Tenancy.Collaboration
import AgreementIntelligence.Tenancy.Coordinator
import AgreementIntelligence.Tenancy.Promotion

/-! Tenant scope over whole calls. All services but two restore the scope of the organization after
each commit and rollback before they touch a tenant table. A submission that loses the race for its
key looks for the winner in no scope, and a promotion reads its configuration again in no scope
once it has committed. -/

namespace AgreementIntelligence.Tenancy
open Identity Lib.Sessions Lib.Sessions.Program Agreements Reviews AiConfig

variable {φ : Type}

inductive Call (φ : Type) where
  | submit (caller : ServiceCaller) (request : SubmitRequest) (jobId : Uuid) (now : Time)
  | retry (caller : ServiceCaller) (agreementId jobId : Uuid) (now : Time)
  | requeue (caller : ServiceCaller) (agreementId jobId : Uuid)
  | compareVersions (caller : ServiceCaller) (request : ComparisonRequest)
      (comparisonId jobId : Uuid) (now : Time)
  | promote (env : ServiceEnv φ) (caller : ServiceCaller) (request : PromoteRequest)
      (promotionId : Uuid) (now : Time)
  | startReview (caller : TenantCaller) (request : StartReviewRequest) (reviewId : Uuid)
      (now : Time)
  | assignReview (caller : TenantCaller) (reviewId : Uuid) (request : CreateAssignmentRequest)
      (assignmentId : Uuid)
  | transferAssignment (caller : TenantCaller) (reviewId oldId : Uuid)
      (request : ReassignAssignmentRequest) (assignmentId : Uuid)
  | commentReview (caller : TenantCaller) (reviewId : Uuid) (request : CommentRequest)
      (commentId : Uuid) (now : Time)
  | startWorkflow (organizationId : Uuid) (request : StartWorkflowRequest)
      (workflowId checkpointId : Uuid) (now : Time)
  | decideWorkflow (organizationId : Uuid) (request : DecideRequest) (now : Time)

inductive Answer where
  | job (job : ProcessingJobRecord) (created : Bool)
  | comparison (run : VersionComparisonRunRecord) (created : Bool)
  | promotion (promotion : AIConfigurationPromotionRecord)
  | review (review : ReviewRow) (created : Bool) (context : ReviewRouteContext)
  | assignment (assignment : ReviewAssignment) (created : Bool)
  | comment (comment : CommentRow) (created : Bool)
  | workflow (workflow : WorkflowSnapshot)
  deriving DecidableEq, Repr

def Call.organizationId : Call φ → Uuid
  | .submit caller .. | .retry caller .. | .requeue caller .. | .compareVersions caller ..
  | .promote _ caller .. => caller.organizationId
  | .startReview caller .. | .assignReview caller .. | .transferAssignment caller ..
  | .commentReview caller .. => caller.organizationId
  | .startWorkflow organizationId .. | .decideWorkflow organizationId .. => organizationId

def Call.program : Call φ → Transaction φ Answer
  | .submit caller request jobId now => do
    let answer ← Tenancy.submit caller request jobId now
    pure (.job answer.1 answer.2)
  | .retry caller agreementId jobId now => do
    let answer ← Tenancy.retry caller agreementId jobId now
    pure (.job answer false)
  | .requeue caller agreementId jobId => do
    let answer ← Tenancy.requeue caller agreementId jobId
    pure (.job answer false)
  | .compareVersions caller request comparisonId jobId now => do
    let answer ← Tenancy.compareVersions caller request comparisonId jobId now
    pure (.comparison answer.1 answer.2)
  | .promote env caller request promotionId now => do
    let answer ← Tenancy.promote env caller request promotionId now
    pure (.promotion answer)
  | .startReview caller request reviewId now => do
    let answer ← Tenancy.startReview caller request reviewId now
    pure (.review answer.1 answer.2.1 answer.2.2)
  | .assignReview caller reviewId request assignmentId => do
    let answer ← Tenancy.assignReview caller reviewId request assignmentId
    pure (.assignment answer.1 answer.2)
  | .transferAssignment caller reviewId oldId request assignmentId => do
    let answer ← Tenancy.transferAssignment caller reviewId oldId request assignmentId
    pure (.assignment answer.1 answer.2)
  | .commentReview caller reviewId request commentId now => do
    let answer ← Tenancy.commentReview caller reviewId request commentId now
    pure (.comment answer.1 answer.2)
  | .startWorkflow _ request workflowId checkpointId now => do
    let answer ← startWorkflowCall request workflowId checkpointId now
    pure (.workflow answer)
  | .decideWorkflow _ request now => do
    let answer ← decideWorkflowCall request now
    pure (.workflow answer)

/-- The session a call starts with. The coordinator is called in a transaction that is scoped to
the organization, every other service in one of any scope. -/
def Call.opened (call : Call φ) (moments : Nat → Moment (Database φ)) (scope : Option Uuid) :
    ApiSession φ :=
  .opened moments (match call with
    | .startWorkflow organizationId .. | .decideWorkflow organizationId .. => some organizationId
    | _ => scope)

def Call.run (call : Call φ) (moments : Nat → Moment (Database φ)) (scope : Option Uuid) :
    Except (Failure ServiceRaised) Answer × ApiSession φ :=
  call.program (call.opened moments scope)

/-- The insert of a job that a key of the table refuses. -/
def RefusedJob : SentByApi → Prop
  | .write _ row (some .integrity) => row.table = .processingJobs
  | _ => False

/-- A submission has lost the race for its key to a job of the same request, which from then on is
there to be read. -/
structure LostTo (caller : ServiceCaller) (request : SubmitRequest)
    (moments : Nat → Moment (Database φ)) (log : List SentByApi) (job : ProcessingJobRecord) :
    Prop where
  refused : ∃ n sent, log[n]? = some sent ∧ RefusedJob sent ∧ ∀ later > n,
    (moments later).refusal = none ∧ jobByKey request.agreementId request.idempotencyKey
      ((moments later).database.visible (some caller.organizationId)) = some job
  profile : job.profile = request.profile
  version : request.versionId = none ∨ job.versionId = request.versionId

/-- Every statement of the call that touches a tenant table is in the scope of its organization,
and a submission that has lost a race answers with the winner's job. -/
structure Call.Covered (call : Call φ) (moments : Nat → Moment (Database φ))
    (scope : Option Uuid) : Prop where
  inTenant : ∀ sent ∈ (call.run moments scope).2.log, InTenant call.organizationId sent
  winner : ∀ caller request jobId now, call = .submit caller request jobId now → ∀ job,
    LostTo caller request moments (call.run moments scope).2.log job →
      (call.run moments scope).1 = .ok (.job job false)

/-- The branches that leave the scope are not taken: no key refuses the job of a submission, and
no promotion gets as far as its commit. -/
def Call.StaysScoped : Call φ → List SentByApi → Prop
  | .submit .., log => ∀ sent ∈ log, ¬ RefusedJob sent
  | .promote .., log => ∀ sent ∈ log, sent ≠ .commit
  | _, _ => True

/-! Where a program ends that leaves the scope once it has sent something `bad` -/

variable {organizationId : Uuid} {bad : SentByApi → Prop}

/-- What is in the scope and not `bad`. -/
def Within (organizationId : Uuid) (bad : SentByApi → Prop) (sent : SentByApi) : Prop :=
  InTenant organizationId sent ∧ ¬ bad sent

def LeavesOnly (organizationId : Uuid) (bad : SentByApi → Prop) (session : ApiSession φ) : Prop :=
  (∀ sent ∈ session.log, Within organizationId bad sent) ∨
    (∃ sent ∈ session.log, bad sent) ∧ ∃ sent ∈ session.log, ¬ InTenant organizationId sent

theorem LeavesOnly.inTenant_iff {session : ApiSession φ}
    (leaves : LeavesOnly organizationId bad session) :
    (∀ sent ∈ session.log, InTenant organizationId sent) ↔ ∀ sent ∈ session.log, ¬ bad sent := by
  cases leaves with
  | inl within =>
      exact ⟨fun _ sent member => (within sent member).2, fun _ sent member => (within sent member).1⟩
  | inr left =>
      obtain ⟨⟨first, sent, happened⟩, ⟨second, sent', outside⟩⟩ := left
      exact ⟨fun all => absurd (all second sent') outside, fun none => absurd happened (none first sent)⟩

/-! The lost race -/

/-- Nothing is written before the job is inserted. -/
def IsWrite (sent : SentByApi) : Prop := ∃ scope row refusal, sent = .write scope row refusal

theorem Within.unrefused {sent : SentByApi} (within : Within organizationId IsWrite sent) :
    Within organizationId RefusedJob sent := by
  refine ⟨within.1, fun refused => within.2 ?_⟩
  cases sent with
  | write scope row refusal => exact ⟨scope, row, refusal, rfl⟩
  | _ => exact absurd refused id

theorem admitsReads_within (organizationId : Uuid)
    (reads : ∀ tables, ¬ bad (.read (some organizationId) tables))
    (scopes : ¬ bad (.setScope organizationId)) :
    AdmitsReads (Within organizationId bad) organizationId :=
  ⟨⟨trivial, scopes⟩, fun tables => ⟨fun _ => rfl, reads tables⟩⟩

theorem settled_of_holds {inside : Bool} {session : ApiSession φ}
    (holds : Holds (Within organizationId IsWrite) organizationId inside session) :
    session.pending = [] := by
  cases pending : session.pending with
  | nil => rfl
  | cons row rest =>
      have none := (holds.pending row (pending ▸ List.mem_cons_self) none).2
      exact absurd ⟨_, _, _, rfl⟩ none

/-- What the insert of a job comes to: it is refused by a key exactly where `createJob` raises
`IntegrityError`. -/
def Attempted (organizationId : Uuid) :
    Except (Failure ServiceRaised) ProcessingJobRecord × ApiSession φ → Prop
  | (.ok _, after) => Holds (Within organizationId RefusedJob) organizationId true after
  | (.error .integrityError, after) => ∃ sent ∈ after.log, RefusedJob sent
  | (.error _, after) => Holds (Within organizationId RefusedJob) organizationId false after

theorem insertJob_attempted {session : ApiSession φ}
    (holds : Holds (Within organizationId RefusedJob) organizationId true session)
    (nothing : session.pending = []) (job : ProcessingJobRecord) :
    Attempted organizationId ((do
      add .processingJobs job.organizationId
      flush
      pure job : Transaction φ ProcessingJobRecord) session) := by
  have inScope := holds.scope rfl
  rw [bind_run]
  change Attempted organizationId ((flush >>= fun _ => pure job : Transaction φ ProcessingJobRecord)
    { session with pending := session.pending ++ [⟨.processingJobs, job.organizationId⟩] })
  rw [bind_run, flush_single (congrArg (· ++ [_]) nothing)]
  generalize refusalOf { session with
    pending := session.pending ++ [⟨.processingJobs, job.organizationId⟩] }
    ⟨.processingJobs, job.organizationId⟩ = refusal
  match refusal with
  | none =>
      have admitted : Within organizationId RefusedJob
        (.write session.scope ⟨.processingJobs, job.organizationId⟩ none) := ⟨fun _ => inScope, id⟩
      exact ⟨holds.log_send admitted, nofun, fun _ => inScope⟩
  | some .integrity =>
      exact ⟨.write session.scope ⟨.processingJobs, job.organizationId⟩ (some .integrity),
        List.mem_append_right _ List.mem_cons_self, rfl⟩
  | some .other =>
      have admitted : Within organizationId RefusedJob
          (.write session.scope ⟨.processingJobs, job.organizationId⟩ (some .other)) :=
        ⟨fun _ => inScope, id⟩
      exact ⟨holds.log_send admitted, nofun, nofun⟩

theorem createJob_attempted {session : ApiSession φ}
    (holds : Holds (Within organizationId IsWrite) organizationId true session)
    (job : ProcessingJobRecord) : Attempted organizationId (createJob job session) := by
  have inScope := holds.scope rfl
  have nothing := settled_of_holds holds
  have settled : Holds (Within organizationId RefusedJob) organizationId true session :=
    ⟨fun sent member => (holds.log sent member).unrefused, by simp [nothing], holds.scope⟩
  have looked : Holds (Within organizationId RefusedJob) organizationId true
      (session.send (.read session.scope [.agreements])) :=
    settled.send ⟨fun _ => inScope, id⟩
  rw [createJob, bind_run, select_of_settled nothing, Program.read]
  cases refusal : session.now.refusal with
  | some refusal => exact looked.any
  | none =>
      dsimp only
      generalize activeAgreement job.agreementId job.organizationId job.workspaceId
        (Scoped.visible session.scope session.now.database) = found
      cases found with
      | none => exact looked.any
      | some agreement =>
          exact insertJob_attempted looked nothing job

theorem resolveLostRace_run (request : SubmitRequest) (session : ApiSession φ) :
    resolveLostRace request session =
      (byIdempotencyKey request.agreementId request.idempotencyKey >>= fun found =>
        match found with
        | none => fail .integrityError
        | some existing => replayJob existing request.versionId request.profile :
          Transaction φ (ProcessingJobRecord × Bool)) (session.send .rollback).ended := rfl

/-- After the rollback the look-up of the winner is a statement in no scope. -/
theorem resolveLostRace_leaves (request : SubmitRequest) {session : ApiSession φ}
    (refused : ∃ sent ∈ session.log, RefusedJob sent) :
    LeavesOnly organizationId RefusedJob (resolveLostRace request session).2 := by
  let again : ApiSession φ := (session.send .rollback).ended
  have run : (resolveLostRace request session).2 =
      again.send (.read none [.processingJobs, .agreements]) := by
    rw [resolveLostRace_run, show (session.send .rollback).ended = again from rfl, bind_run,
      byIdempotencyKey, select_of_settled rfl, Program.read]
    cases again.now.refusal with
    | some refusal => rfl
    | none =>
        have unseen : jobByKey request.agreementId request.idempotencyKey
            (Scoped.visible again.scope again.now.database) = none := by
          change (visibleRows none _ _).find? _ = none
          rw [visibleRows_none]
          rfl
        simp only [unseen]
        rfl
  rw [run]
  obtain ⟨sent, member, happened⟩ := refused
  have kept : sent ∈ (again.send (.read none [.processingJobs, .agreements])).log :=
    List.mem_append_left _ (List.mem_append_left _ member)
  have outside : ¬ InTenant organizationId (.read none [.processingJobs, .agreements]) :=
    fun inside => by cases inside ⟨.processingJobs, List.mem_cons_self, rfl⟩
  exact .inr ⟨⟨sent, kept, happened⟩, _, List.mem_append_right _ List.mem_cons_self, outside⟩

theorem admits_unrefused (organizationId : Uuid) :
    Admits (Within organizationId RefusedJob) organizationId where
  scope := ⟨trivial, id⟩
  read tables := ⟨fun _ => rfl, id⟩
  write row refusal other := by
    refine ⟨fun _ => rfl, fun refused => ?_⟩
    cases refusal with
    | none => exact refused
    | some refusal => cases refusal with
      | integrity => exact other refused
      | other => exact refused

theorem ends_unrefused (organizationId : Uuid) : AdmitsEnds (Within organizationId RefusedJob) :=
  ⟨⟨trivial, id⟩, ⟨trivial, id⟩⟩

theorem LeavesOnly.ofHolds {inside : Bool} {session : ApiSession φ}
    (holds : Holds (Within organizationId IsWrite) organizationId inside session) :
    LeavesOnly organizationId RefusedJob session :=
  .inl fun sent member => (holds.log sent member).unrefused

/-- A program that writes nothing. -/
theorem leavesOnly_of_sends {α : Type} {before after : Bool} {program : Transaction φ α}
    {post : α → Prop}
    (sends : Sends (Within organizationId IsWrite) organizationId before program after post) :
    Leads (Within organizationId IsWrite) organizationId before program fun outcome =>
      LeavesOnly organizationId RefusedJob outcome.2 :=
  fun session holds => .ofHolds (sends session holds).sent

/-- The job of a submission is inserted, or refused by a key, or nothing comes of it. -/
theorem attemptJob_leaves (caller : ServiceCaller) (request : SubmitRequest)
    (agreement : AgreementRow φ) (version : Option AgreementVersionRecord)
    (job : ProcessingJobRecord) :
    Leads (Within caller.organizationId IsWrite) caller.organizationId true
      (attempt (createJob job) >>= fun outcome => match outcome with
        | .error .integrityError => resolveLostRace request
        | .error failure => fail failure
        | .ok response => finishSubmission caller request agreement version response :
        Transaction φ (ProcessingJobRecord × Bool))
      fun outcome => LeavesOnly caller.organizationId RefusedJob outcome.2 := by
  intro session holds
  have attempted := createJob_attempted holds job
  rw [bind_run, attempt]
  match createJob job session, attempted with
  | (.ok response, after), held =>
      have rest := sends_finishSubmission caller (admits_unrefused _) (ends_unrefused _) request
        agreement version response after held
      exact .inl rest.sent.log
  | (.error .integrityError, after), refused => exact resolveLostRace_leaves request refused
  | (.error .databaseError, after), held => exact .inl held.log
  | (.error .objectDeleted, after), held => exact .inl held.log
  | (.error (.raised error), after), held => exact .inl held.log

/-- A submission sends everything in the scope, unless a key refuses its job. -/
theorem submit_leaves (caller : ServiceCaller) (request : SubmitRequest) (jobId : Uuid)
    (now : Time) {inside : Bool} :
    Leads (Within caller.organizationId IsWrite) caller.organizationId inside
      (submit caller request jobId now : Transaction φ _) fun outcome =>
        LeavesOnly caller.organizationId RefusedJob outcome.2 := by
  have reads : AdmitsReads (Within caller.organizationId IsWrite) caller.organizationId :=
    admitsReads_within _ (fun _ => nofun) nofun
  refine .bind (sends_authorizeCaller caller.toTenantCaller reads _ _)
    (fun _ _ held => .ofHolds held) fun _ _ => ?_
  refine .bind (sends_agreementInTenant caller reads _) (fun _ _ held => .ofHolds held)
    fun agreement _ => ?_
  refine .bind (sends_byIdempotencyKey reads _ _) (fun _ _ held => .ofHolds held)
    fun found _ => ?_
  cases found with
  | some existing => exact leavesOnly_of_sends (sends_replayJob existing _ _)
  | none =>
      exact .bind (sends_submittedVersion caller reads agreement _ _)
        (fun _ _ held => .ofHolds held) fun version _ =>
          attemptJob_leaves caller request agreement version _

/-! The promotion -/

theorem admits_uncommitted (organizationId : Uuid) :
    Admits (Within organizationId (· = .commit)) organizationId :=
  ⟨⟨⟨trivial, nofun⟩, fun _ => ⟨fun _ => rfl, nofun⟩⟩, fun _ _ _ => ⟨fun _ => rfl, nofun⟩⟩

/-- The configuration is loaded in a transaction that is not over before the commit. -/
theorem recordPromotion_loaded {before : Bool} (env : ServiceEnv φ) (caller : ServiceCaller)
    (request : PromoteRequest) :
    Leads (Within caller.organizationId (· = .commit)) caller.organizationId before
      (recordPromotion env caller request) fun outcome =>
        Holds (Within caller.organizationId (· = .commit)) caller.organizationId false outcome.2 ∧
          ∀ object reindexJobs, outcome.1 = .ok (object, reindexJobs) →
            Holds (Within caller.organizationId (· = .commit)) caller.organizationId true outcome.2 ∧
              object.transaction ≤ outcome.2.transaction := by
  have admits := admits_uncommitted caller.organizationId
  have writes (row : Write Uuid TableName) (refusal : Option Refusal) :
      Within caller.organizationId (· = .commit) (.write (some caller.organizationId) row refusal) :=
    ⟨fun _ => rfl, by simp⟩
  refine .bind (sends_authorizeCaller caller.toTenantCaller admits.toAdmitsReads _ _)
    (fun _ _ held => ⟨held, by intros; contradiction⟩) fun _ _ => ?_
  refine .bind (sends_configurationInTenant caller admits _)
    (fun _ _ held => ⟨held, by intros; contradiction⟩) fun record _ => ?_
  intro session holds
  let loaded : Loaded (AIConfigurationVersionRecord φ) := ⟨record, session.transaction⟩
  have ends := sends_recordLoaded caller admits writes env request record loaded session holds
  refine ⟨ends.sent, fun object reindexJobs returned => ?_⟩
  have right := ends.returned _ returned
  exact ⟨right.1, (congrArg Loaded.transaction right.2).trans_le ends.later⟩

/-- In the transaction that follows the commit the configuration is not to be found. -/
theorem dispatchPromotion_outside (env : ServiceEnv φ) (caller : ServiceCaller)
    (request : PromoteRequest) {object : Loaded (AIConfigurationVersionRecord φ)}
    (reindexJobs : Nat) {session : ApiSession φ} (unscoped : session.scope = none)
    (nothing : session.pending = []) (expired : object.transaction < session.transaction) :
    ∃ failure, dispatchPromotion env caller request object reindexJobs session =
      (.error failure, session.send (.read none [.aiConfigurationVersions])) := by
  rw [dispatchPromotion, bind_run, attributes, if_neg (Nat.ne_of_lt expired), bind_run,
    select_of_settled nothing, Program.read, unscoped]
  cases session.now.refusal with
  | some refusal => exact ⟨.databaseError, rfl⟩
  | none =>
      have unseen : configurationOf object.value.id
          (Scoped.visible none session.now.database) = none := by
        change (visibleRows none _ _).find? _ = none
        rw [visibleRows_none]
        rfl
      rw [unseen]
      exact ⟨.objectDeleted, rfl⟩

theorem commitPromotion_leaves (env : ServiceEnv φ) (caller : ServiceCaller)
    (request : PromoteRequest) {object : Loaded (AIConfigurationVersionRecord φ)}
    (reindexJobs : Nat) (promotion : AIConfigurationPromotionRecord) {session : ApiSession φ}
    (holds : Holds (Within organizationId (· = .commit)) organizationId true session)
    (loaded : object.transaction ≤ session.transaction) :
    LeavesOnly organizationId (· = .commit) ((do
      commit
      dispatchPromotion env caller request object reindexJobs
      pure promotion : Transaction φ AIConfigurationPromotionRecord) session).2 := by
  have flushed := Sends.flush (ε := ServiceRaised) session holds
  rw [bind_run, commit, bind_run]
  generalize (flush : Transaction φ Unit) session = outcome at flushed ⊢
  obtain ⟨returned, after⟩ := outcome
  cases returned with
  | error failure => exact .inl flushed.sent.log
  | ok done =>
      have ends := flushed
      simp only [sendCommit]
      cases refusal : after.now.refusal with
      | some refused =>
          have rolledBack : Within organizationId (· = .commit) (.rollback : SentByApi) :=
            ⟨trivial, by simp⟩
          exact .inl (ends.sent.send rolledBack).log
      | none =>
          have expired : object.transaction < (after.send .commit).ended.transaction :=
            Nat.lt_succ_of_le (loaded.trans ends.later)
          obtain ⟨failure, run⟩ :=
            dispatchPromotion_outside env caller request reindexJobs rfl rfl expired
          simp only [bind_run, run]
          have outside : ¬ InTenant organizationId (.read none [.aiConfigurationVersions]) :=
            fun inside => by cases inside ⟨.aiConfigurationVersions, List.mem_cons_self, rfl⟩
          have committed : (.commit : SentByApi) ∈ (after.send .commit).log :=
            List.mem_append_right _ List.mem_cons_self
          exact .inr ⟨⟨.commit, List.mem_append_left _ committed, rfl⟩, _,
            List.mem_append_right _ List.mem_cons_self, outside⟩

/-- A promotion sends everything in the scope, unless it gets as far as its commit. -/
theorem promote_leaves {before : Bool} (env : ServiceEnv φ) (caller : ServiceCaller)
    (request : PromoteRequest) (promotionId : Uuid) (now : Time) :
    Leads (Within caller.organizationId (· = .commit)) caller.organizationId before
      (promote env caller request promotionId now) fun outcome =>
        LeavesOnly caller.organizationId (· = .commit) outcome.2 := by
  intro session holds
  have recorded := recordPromotion_loaded env caller request session holds
  rw [promote, bind_run]
  match recordPromotion env caller request session, recorded with
  | (.error failure, after), ends => exact .inl ends.1.log
  | (.ok (object, reindexJobs), after), ends =>
      obtain ⟨held, loaded⟩ := ends.2 object reindexJobs rfl
      exact commitPromotion_leaves env caller request reindexJobs _ held loaded

/-! All calls -/

theorem answer_log {α : Type} (program : Transaction φ α) (answer : α → Answer)
    (session : ApiSession φ) :
    ((do let value ← program; pure (answer value) : Transaction φ Answer) session).2 =
      (program session).2 := by
  rw [bind_run]
  match program session with
  | (.ok value, after) => rfl
  | (.error failure, after) => rfl

/-- A call but a submission is covered where it keeps to the scope. -/
theorem Call.Covered.of_inTenant {call : Call φ} {moments : Nat → Moment (Database φ)}
    {scope : Option Uuid}
    (inTenant : ∀ sent ∈ (call.run moments scope).2.log, InTenant call.organizationId sent)
    (other : ∀ caller request jobId now, call ≠ .submit caller request jobId now) :
    call.Covered moments scope :=
  ⟨inTenant, fun caller request jobId now same => absurd same (other caller request jobId now)⟩

/-- A call that keeps to the scope from start to end. -/
theorem covered_of_sends {call : Call φ} {α : Type} {program : Transaction φ α}
    {answer : α → Answer} {before after : Bool} {post : α → Prop}
    (program_eq : call.program = do let value ← program; pure (answer value))
    (sends : Sends (InTenant call.organizationId) call.organizationId before program after post)
    {moments : Nat → Moment (Database φ)} {scope : Option Uuid}
    (opened : Holds (InTenant call.organizationId) call.organizationId before
      (call.opened moments scope))
    (other : ∀ caller request jobId now, call ≠ .submit caller request jobId now) :
    call.Covered moments scope := by
  refine .of_inTenant ?_ other
  rw [Call.run, program_eq, answer_log]
  exact (sends _ opened).sent.log

/-- A call is covered if and only if it does not take a branch that leaves the scope. -/
theorem run_covered_iff (call : Call φ) (moments : Nat → Moment (Database φ))
    (scope : Option Uuid) :
    call.Covered moments scope ↔ call.StaysScoped (call.run moments scope).2.log := by
  have admits := admits_inTenant call.organizationId
  have ends := admitsEnds_inTenant call.organizationId
  have writes := inTenant_write call.organizationId
  cases call with
  | submit caller request jobId now =>
      have leaves : LeavesOnly caller.organizationId RefusedJob
          ((Call.submit caller request jobId now).run moments scope).2 := by
        rw [Call.run, Call.program, answer_log]
        exact submit_leaves caller request jobId now _ (Holds.opened_any moments scope)
      refine ⟨fun covered => leaves.inTenant_iff.mp covered.inTenant, fun unrefused => ?_⟩
      refine ⟨leaves.inTenant_iff.mpr unrefused, fun _ _ _ _ _ job lost => ?_⟩
      obtain ⟨n, sent, at_n, refused, later⟩ := lost.refused
      exact absurd refused (unrefused sent (List.mem_of_getElem? at_n))
  | promote env caller request promotionId now =>
      have leaves : LeavesOnly caller.organizationId (· = .commit)
          ((Call.promote env caller request promotionId now).run moments scope).2 := by
        rw [Call.run, Call.program, answer_log]
        exact promote_leaves env caller request promotionId now _ (Holds.opened_any moments scope)
      exact ⟨fun covered => leaves.inTenant_iff.mp covered.inTenant, fun uncommitted =>
        .of_inTenant (leaves.inTenant_iff.mpr uncommitted) nofun⟩
  | retry caller agreementId jobId now =>
      exact iff_of_true (covered_of_sends rfl (sends_retry caller admits ends writes agreementId
        jobId now) (.opened_any moments scope) nofun) trivial
  | requeue caller agreementId jobId =>
      exact iff_of_true (covered_of_sends rfl (sends_requeue caller admits ends agreementId jobId)
        (.opened_any moments scope) nofun) trivial
  | compareVersions caller request comparisonId jobId now =>
      exact iff_of_true (covered_of_sends rfl (sends_compareVersions caller admits ends writes
        request comparisonId jobId now) (.opened_any moments scope) nofun) trivial
  | startReview caller request reviewId now =>
      exact iff_of_true (covered_of_sends rfl (sends_startReview caller admits ends request
        reviewId now) (.opened_any moments scope) nofun) trivial
  | assignReview caller reviewId request assignmentId =>
      exact iff_of_true (covered_of_sends rfl (sends_assignReview caller admits ends reviewId
        request assignmentId) (.opened_any moments scope) nofun) trivial
  | transferAssignment caller reviewId oldId request assignmentId =>
      exact iff_of_true (covered_of_sends rfl (sends_transferAssignment caller admits ends reviewId
        oldId request assignmentId) (.opened_any moments scope) nofun) trivial
  | commentReview caller reviewId request commentId now =>
      exact iff_of_true (covered_of_sends rfl (sends_commentReview caller admits ends reviewId
        request commentId now) (.opened_any moments scope) nofun) trivial
  | startWorkflow organizationId request workflowId checkpointId now =>
      exact iff_of_true (covered_of_sends rfl (sends_startWorkflowCall admits ends request
        workflowId checkpointId now) (.opened moments) nofun) trivial
  | decideWorkflow organizationId request now =>
      exact iff_of_true (covered_of_sends rfl (sends_decideWorkflowCall admits ends request now)
        (.opened moments) nofun) trivial

/-! A submission that loses the race. The same request is sent twice; both look for the key and
find it free, and the job of the other is in when the second one inserts its own. -/

def racing : ServiceCaller := ⟨⟨⟨1⟩, ⟨2⟩, ⟨3⟩⟩, fun _ => true⟩

def raced : SubmitRequest := ⟨⟨4⟩, none, "key", "extraction"⟩

def racedAgreement : AgreementRow Nat where
  id := ⟨4⟩
  organizationId := ⟨2⟩
  workspaceId := ⟨3⟩
  files := [⟨"source", "sum", "text/plain"⟩]
  processingState := .pending
  currentVersionId := none
  archivedAt := none
  deletionRequestedAt := none
  agreementType := "nda"
  auditMetadata := .null

def winningJob : ProcessingJobRecord :=
  queuedJob racedAgreement.toAgreementRecord ⟨5⟩ none "key" "extraction"
    (submittedSource racedAgreement.toAgreementRecord none) 10

def beforeRace : Database Nat where
  workspaces := [⟨⟨3⟩, ⟨2⟩⟩]
  memberships := [⟨⟨6⟩, ⟨2⟩, ⟨1⟩, .platformAdmin⟩]
  workspaceMemberships := []
  agreements := [racedAgreement]
  versions := []
  jobs := []
  outbox := []
  comparisons := []
  configurations := []
  builds := []
  reviews := []
  assignments := []
  comments := []
  findings := []
  policyVersions := []
  policyStages := []
  workflows := []
  stages := []
  decisions := []
  workflowOutbox := []

/-- The second insert, the seventh statement, is refused by the key. -/
def raceMoments (n : Nat) : Moment (Database Nat) :=
  if n < 6 then ⟨beforeRace, none⟩
  else ⟨{ beforeRace with jobs := [winningJob] }, if n = 6 then some .integrity else none⟩

theorem not_alwaysCovered :
    ¬ ∀ (call : Call Nat) (moments : Nat → Moment (Database Nat)) (scope : Option Uuid),
      call.Covered moments scope := by
  intro covered
  let call : Call Nat := .submit racing raced ⟨7⟩ 11
  have winner := (covered call raceMoments none).winner racing raced ⟨7⟩ 11 rfl winningJob
  have refused : (call.run raceMoments none).2.log[6]? =
      some (.write (some ⟨2⟩) ⟨.processingJobs, ⟨2⟩⟩ (some .integrity)) := by decide +kernel
  have later (n : Nat) (after : n > 6) : (raceMoments n).refusal = none ∧
      jobByKey raced.agreementId raced.idempotencyKey
        ((raceMoments n).database.visible (some racing.organizationId)) = some winningJob := by
    rw [raceMoments, if_neg (by omega), if_neg (by omega)]
    exact ⟨rfl, by decide +kernel⟩
  have lost : LostTo racing raced raceMoments (call.run raceMoments none).2.log winningJob :=
    ⟨⟨6, _, refused, rfl, later⟩, rfl, .inl rfl⟩
  have answer : (call.run raceMoments none).1 = .error .integrityError := by decide +kernel
  exact nomatch answer.symm.trans (winner lost)

end AgreementIntelligence.Tenancy
