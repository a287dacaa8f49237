import AgreementIntelligence.Tenancy.Processing

/-! Which statements the processing services send, and in which scope. -/

namespace AgreementIntelligence.Tenancy
open Identity Lib.Sessions Lib.Sessions.Program Agreements Reviews

variable {φ : Type}

/-- A statement that touches a tenant table is in a transaction of the organization. -/
def InTenant (organizationId : Uuid) : SentByApi → Prop
  | .read scope tables =>
    (∃ table ∈ tables, table.tenantProtected = true) → scope = some organizationId
  | .write scope row _ => row.table.tenantProtected = true → scope = some organizationId
  | _ => True

/-- Reading in the scope of the organization is admitted. -/
structure AdmitsReads (p : SentByApi → Prop) (organizationId : Uuid) : Prop where
  scope : p (.setScope organizationId)
  read : ∀ tables, p (.read (some organizationId) tables)

/-- What is sent in the scope of the organization is admitted, except, it may be, writes of jobs
and the ends of transactions. -/
structure Admits (p : SentByApi → Prop) (organizationId : Uuid) : Prop
    extends AdmitsReads p organizationId where
  write : ∀ row refusal, row.table ≠ .processingJobs → p (.write (some organizationId) row refusal)

structure AdmitsEnds (p : SentByApi → Prop) : Prop where
  commit : p .commit
  rollback : p .rollback

theorem admits_inTenant (organizationId : Uuid) : Admits (InTenant organizationId) organizationId :=
  ⟨⟨trivial, fun _ _ => rfl⟩, fun _ _ _ _ => rfl⟩

theorem admitsEnds_inTenant (organizationId : Uuid) : AdmitsEnds (InTenant organizationId) :=
  ⟨trivial, trivial⟩

theorem inTenant_write (organizationId : Uuid) (row : Write Uuid TableName)
    (refusal : Option Refusal) : InTenant organizationId (.write (some organizationId) row refusal) :=
  fun _ => rfl

variable {p : SentByApi → Prop} {organizationId : Uuid} {before : Bool}

theorem sends_canAccessWorkspace (admits : AdmitsReads p organizationId) (userId workspaceId : Uuid)
    (permission : PermissionKey) :
    Sends p organizationId before
      (canAccessWorkspace userId organizationId workspaceId permission : Transaction φ Bool) true
      fun _ => True := by
  refine .bind (.setScope admits.scope) fun _ _ => .bind (.query (admits.read _))
    fun found _ => ?_
  cases found with
  | none => exact .pure trivial
  | some workspace =>
      refine .ite (fun _ => .pure trivial) fun _ =>
        .bind (.query (admits.read _)) fun memberships _ => ?_
      exact .ite (fun _ => .pure trivial) fun _ => .ite (fun _ => .pure trivial) fun _ =>
        .query (admits.read _)

section Repositories

theorem sends_getAgreement (admits : AdmitsReads p organizationId) (agreementId : Uuid) :
    Sends p organizationId true (getAgreement agreementId : Transaction φ _) true fun _ => True :=
  .query (admits.read _)

theorem sends_getVersion (admits : AdmitsReads p organizationId) (versionId : Uuid) :
    Sends p organizationId true (getVersion versionId : Transaction φ _) true fun _ => True :=
  .query (admits.read _)

theorem sends_replaceAgreement (admits : Admits p organizationId) (row : AgreementRow φ) :
    Sends p organizationId true (replaceAgreement row) true fun _ => True := by
  refine .bind (.query (admits.read _)) fun found _ => ?_
  cases found with
  | none => exact .raise
  | some record =>
      exact .bind (.add fun refusal => admits.write _ refusal nofun) fun _ _ => .flush

theorem sends_createJob (admits : Admits p organizationId)
    (jobs : ∀ row refusal, p (.write (some organizationId) row refusal))
    (job : ProcessingJobRecord) :
    Sends p organizationId true (createJob job : Transaction φ _) true fun _ => True := by
  refine .bind (.query (admits.read _)) fun found _ => ?_
  cases found with
  | none => exact .raise
  | some record =>
      exact .bind (.add fun refusal => jobs _ refusal) fun _ _ =>
        .bind .flush fun _ _ => .pure trivial

theorem sends_getJob (admits : AdmitsReads p organizationId) (jobId : Uuid) :
    Sends p organizationId true (getJob jobId : Transaction φ _) true fun _ => True :=
  .query (admits.read _)

theorem sends_byIdempotencyKey (admits : AdmitsReads p organizationId) (agreementId : Uuid)
    (idempotencyKey : String) :
    Sends p organizationId true (byIdempotencyKey agreementId idempotencyKey : Transaction φ _) true
      fun _ => True :=
  .query (admits.read _)

theorem sends_jobResponse (job : ProcessingJobRecord) :
    Sends p organizationId true (jobResponse job : Transaction φ _) true fun _ => True :=
  .bind .flush fun _ _ => .pure trivial

theorem sends_enqueueOutbox (admits : Admits p organizationId) (job : ProcessingJobRecord) :
    Sends p organizationId true (enqueueOutbox job : Transaction φ _) true fun _ => True :=
  .bind (.add fun refusal => admits.write _ refusal nofun) fun _ _ => .flush

end Repositories

section Dispatcher

/-- One round reads its message and writes it in the scope, and the next one has the scope again
after the commit between them. -/
theorem sends_publishEach (admits : Admits p organizationId) (ends : AdmitsEnds p)
    (publisher : OutboxRow → Bool) (messages : List (Loaded OutboxRow)) :
    ∀ delivered, Sends p organizationId true
      (publishEach publisher organizationId delivered messages : Transaction φ Nat) false
      fun _ => True := by
  induction messages with
  | nil => exact fun delivered => (Sends.pure trivial).leave
  | cons message rest ih =>
      intro delivered
      have reads : Sends p organizationId true (do
          let row ← attributes message .processingOutbox fun db : Database φ =>
            db.outbox.find? (·.id = message.value.id)
          if publisher row then pure row else raise .publishing : Transaction φ OutboxRow) true
          fun _ => True :=
        .bind (.attributes (admits.read _) trivial fun _ _ _ => trivial) fun row _ =>
          .ite (fun _ => .pure trivial) fun _ => .raise
      refine .attempt reads (fun row _ => ?_) fun failure => ?_
      · exact .bind (.add fun refusal => admits.write _ refusal nofun) fun _ _ =>
          .bind (.commit ends.commit ends.rollback) fun _ _ =>
            .bind (.setScope admits.scope) fun _ _ => ih (delivered + 1)
      · exact .bind (.rollback ends.rollback) fun _ _ => .pure trivial

theorem sends_dispatchPending (admits : Admits p organizationId) (ends : AdmitsEnds p)
    (publisher : OutboxRow → Bool) (workspaceId : Uuid) (limit : Nat) :
    Sends p organizationId before
      (dispatchPending publisher organizationId workspaceId limit : Transaction φ Nat) false
      fun _ => True :=
  .bind (.setScope admits.scope) fun _ _ =>
    .bind (.query (admits.read _)) fun pending _ =>
      .bind (.load pending) fun _ _ => sends_publishEach admits ends publisher _ 0

end Dispatcher

theorem sends_authorizeCaller (caller : TenantCaller) (admits : AdmitsReads p caller.organizationId)
    (permission : PermissionKey) (refused : ServiceRaised) :
    Sends p caller.organizationId before
      (authorizeCaller caller permission refused : Transaction φ Unit) true fun _ => True :=
  .bind (sends_canAccessWorkspace admits _ _ _) fun _ _ =>
    .ite (fun _ => .pure trivial) fun _ => .raise

section Jobs

variable (caller : ServiceCaller)

theorem sends_agreementInTenant (admits : AdmitsReads p caller.organizationId) (agreementId : Uuid) :
    Sends p caller.organizationId true (agreementInTenant caller agreementId : Transaction φ _) true
      fun _ => True := by
  refine .bind (sends_getAgreement admits agreementId) fun found _ => ?_
  cases found with
  | none => exact .raise
  | some agreement => exact .ite (fun _ => .raise) fun _ => .pure trivial

theorem sends_jobInTenant (admits : AdmitsReads p caller.organizationId) (agreementId jobId : Uuid) :
    Sends p caller.organizationId true (jobInTenant caller agreementId jobId : Transaction φ _) true
      fun _ => True := by
  refine .bind (sends_getJob admits jobId) fun found _ => ?_
  cases found with
  | none => exact .raise
  | some job => exact .ite (fun _ => .raise) fun _ => .pure trivial

theorem sends_setAgreementState (admits : Admits p organizationId) (agreementId : Uuid)
    (updateAgreement : Bool) :
    Sends p organizationId true (setAgreementState agreementId updateAgreement : Transaction φ Unit)
      true fun _ => True := by
  refine .ite (fun _ => ?_) fun _ => .pure trivial
  refine .bind (sends_getAgreement admits.toAdmitsReads agreementId) fun found _ => ?_
  cases found with
  | none => exact .raise
  | some agreement => exact sends_replaceAgreement admits agreement

theorem sends_replayJob (existing : ProcessingJobRecord) (versionId : Option Uuid)
    (profile : String) :
    Sends p organizationId true (replayJob existing versionId profile : Transaction φ _) true
      fun _ => True :=
  .ite (fun _ => .raise) fun _ => .bind (sends_jobResponse existing) fun _ _ => .pure trivial

theorem sends_submittedVersion (admits : AdmitsReads p caller.organizationId)
    (agreement : AgreementRow φ) (agreementId : Uuid) (versionId : Option Uuid) :
    Sends p caller.organizationId true (submittedVersion caller agreement agreementId versionId) true
      fun _ => True := by
  unfold submittedVersion
  cases versionId.or agreement.currentVersionId with
  | none => exact .pure trivial
  | some resolved =>
      refine .bind (sends_getVersion admits resolved) fun found _ => ?_
      cases found with
      | none => exact .raise
      | some version => exact .ite (fun _ => .raise) fun _ => .pure trivial

/-- The last part of a call: the outbox row, the commit and the dispatch, which sets the scope. -/
theorem sends_dispatched (admits : Admits p caller.organizationId) (ends : AdmitsEnds p)
    (job : ProcessingJobRecord) {α : Type} (value : α) :
    Sends p caller.organizationId true (do
      enqueueOutbox job
      commit
      let _ ← dispatchFor caller 50
      pure value : Transaction φ α) false fun _ => True :=
  .bind (sends_enqueueOutbox admits job) fun _ _ => .bind (.commit ends.commit ends.rollback)
    fun _ _ => .bind (sends_dispatchPending admits ends _ _ _) fun _ _ => .pure trivial

theorem sends_finishSubmission (admits : Admits p caller.organizationId) (ends : AdmitsEnds p)
    (request : SubmitRequest) (agreement : AgreementRow φ)
    (version : Option AgreementVersionRecord) (response : ProcessingJobRecord) :
    Sends p caller.organizationId true
      (finishSubmission caller request agreement version response) false fun _ => True := by
  unfold finishSubmission
  cases version with
  | none =>
      exact .bind (sends_setAgreementState admits _ _) fun _ _ =>
        sends_dispatched caller admits ends response _
  | some version =>
      exact .bind (.add fun refusal => admits.write _ refusal nofun) fun _ _ =>
        .bind (sends_setAgreementState admits _ _) fun _ _ =>
          sends_dispatched caller admits ends response _

theorem sends_retry (admits : Admits p caller.organizationId) (ends : AdmitsEnds p)
    (jobs : ∀ row refusal, p (.write (some caller.organizationId) row refusal))
    (agreementId jobId : Uuid) (now : Time) :
    Sends p caller.organizationId before (retry caller agreementId jobId now : Transaction φ _) false
      fun _ => True := by
  refine .bind (sends_authorizeCaller caller.toTenantCaller admits.toAdmitsReads _ _) fun _ _ =>
    .bind (.query (admits.read _)) fun found _ => ?_
  cases found with
  | none => exact .raise
  | some agreement =>
      refine .bind (sends_jobInTenant caller admits.toAdmitsReads agreementId jobId) fun job _ =>
        .ite (fun _ => .raise) fun _ => .bind (.add fun refusal => jobs _ refusal) fun _ _ => ?_
      exact .bind (sends_jobResponse _) fun response _ =>
        .bind (sends_setAgreementState admits agreementId true) fun _ _ =>
          sends_dispatched caller admits ends response _

theorem sends_requeue (admits : Admits p caller.organizationId) (ends : AdmitsEnds p)
    (agreementId jobId : Uuid) :
    Sends p caller.organizationId before (requeue caller agreementId jobId : Transaction φ _) false
      fun _ => True :=
  .bind (sends_authorizeCaller caller.toTenantCaller admits.toAdmitsReads _ _) fun _ _ =>
    .bind (sends_jobInTenant caller admits.toAdmitsReads agreementId jobId) fun _ _ =>
      .ite (fun _ => .raise) fun _ => .bind (sends_jobResponse _) fun response _ =>
        sends_dispatched caller admits ends response _

end Jobs

section Comparisons

variable (caller : ServiceCaller)

theorem sends_namedByRequest (admits : AdmitsReads p organizationId) (request : ComparisonRequest) :
    Sends p organizationId true (namedByRequest request : Transaction φ _) true fun _ => True := by
  refine .bind (.query (admits.read _)) fun versions _ => ?_
  split
  · split
    · exact .pure trivial
    · exact .raise
  · refine .bind (sends_getVersion admits _) fun baseline _ =>
      .bind (sends_getVersion admits _) fun target _ => ?_
    split
    · exact .pure trivial
    · exact .raise
  · exact .raise

theorem sends_resolveComparedVersions (admits : AdmitsReads p organizationId)
    (request : ComparisonRequest) :
    Sends p organizationId true (resolveComparedVersions request : Transaction φ _) true
      fun _ => True :=
  .bind (sends_namedByRequest admits request) fun _ _ =>
    .ite (fun _ => .raise) fun _ => .pure trivial

theorem sends_createComparison (admits : Admits p caller.organizationId) (agreementId : Uuid) :
    Sends p caller.organizationId true (createComparison caller agreementId : Transaction φ Unit)
      true fun _ => True := by
  refine .bind (.query (admits.read _)) fun found _ => ?_
  cases found with
  | none => exact .raise
  | some agreement =>
      exact .bind (.add fun refusal => admits.write _ refusal nofun) fun _ _ => .flush

theorem sends_finishComparison (admits : Admits p caller.organizationId) (ends : AdmitsEnds p)
    (comparisonId : Uuid) (response : ProcessingJobRecord) :
    Sends p caller.organizationId true (finishComparison caller comparisonId response :
      Transaction φ _) true fun _ => True := by
  refine .bind (sends_enqueueOutbox admits response) fun _ _ =>
    .bind (.commit ends.commit ends.rollback) fun _ _ =>
      .bind (sends_dispatchPending admits ends _ _ _) fun _ _ =>
        .bind (.setScope admits.scope) fun _ _ =>
          .bind (.query (admits.read _)) fun found _ => ?_
  cases found with
  | none => exact .raise
  | some found => exact .pure trivial

theorem sends_compareVersions (admits : Admits p caller.organizationId) (ends : AdmitsEnds p)
    (jobs : ∀ row refusal, p (.write (some caller.organizationId) row refusal))
    (request : ComparisonRequest) (comparisonId jobId : Uuid) (now : Time) :
    Sends p caller.organizationId before
      (compareVersions caller request comparisonId jobId now : Transaction φ _) true
      fun _ => True := by
  have byIdentity (baselineId targetId : Uuid) : Sends p caller.organizationId true
      (comparisonByIdentity request.agreementId baselineId targetId request.analysisVersion :
        Transaction φ _) true fun _ => True := .query (admits.read _)
  refine .bind (sends_authorizeCaller caller.toTenantCaller admits.toAdmitsReads _ _) fun _ _ =>
    .bind (sends_agreementInTenant caller admits.toAdmitsReads request.agreementId) fun agreement _ =>
      .bind (sends_resolveComparedVersions admits.toAdmitsReads request) fun versions _ =>
        .bind (.query (admits.read _)) fun existingKey _ => ?_
  cases existingKey with
  | some existing => exact .ite (fun _ => .raise) fun _ => .pure trivial
  | none =>
      refine .bind (byIdentity _ _) fun existing _ => ?_
      cases existing with
      | some existing => exact .pure trivial
      | none =>
          refine .bind (sends_getVersion admits.toAdmitsReads _) fun target _ => ?_
          cases target with
          | none => exact .raise
          | some target =>
              refine .attempt (.bind (sends_createJob admits jobs _) fun response _ =>
                .bind (sends_createComparison caller admits request.agreementId) fun _ _ =>
                  .pure trivial) (fun response _ =>
                    sends_finishComparison caller admits ends comparisonId response)
                fun failure => ?_
              split
              · refine .bind (.rollback ends.rollback) fun _ _ =>
                  .bind (.setScope admits.scope) fun _ _ =>
                    .bind (byIdentity _ _) fun winner _ => ?_
                cases winner with
                | none => exact .fail
                | some existing => exact .pure trivial
              · exact .fail
              · contradiction

end Comparisons

end AgreementIntelligence.Tenancy
