import AgreementIntelligence.Agreements.VersionRequests
import AgreementIntelligence.Lib.Columns
import AgreementIntelligence.Lib.Dict

/-! The calls that write an agreement's row: archive, restore, submit, retry and the creation of a
version, each in a session and a transaction of its own. A call reads the row without a lock, and a
session keeps the object that it has loaded. From the first locked select of a call to its commit
nobody else writes the row; this part is one step here. A locked select of an object that the session
has loaded refreshes it or leaves it as it is.

What a call finds in the tables of jobs and versions is not modelled: whether it goes on there, and
whether its job is for the current version, are inputs of its steps. -/

namespace AgreementIntelligence.Agreements
open Identity Lib Lib.Columns Lib.Runs

inductive AuditAction where
  | created
  | archived
  | restored
  deriving DecidableEq, Repr

structure AuditEvent where
  action : AuditAction
  actorId : String
  occurredAt : Time
  deriving DecidableEq, Repr

/-- The row with the columns that only its own writers read. -/
structure AuditedAgreement extends AgreementRow where
  auditMetadata : List (String × String)
  auditEvents : List AuditEvent
  updatedAt : Time
  deriving DecidableEq, Repr

namespace AuditedAgreement

/-- What `replace` and the flush after it make of the row: `loaded` is what the session's object was
loaded with, and `agreement` what it is given. -/
def replace (loaded agreement row : AuditedAgreement) : AuditedAgreement :=
  { row with
    files := written loaded.files agreement.files row.files
    processingState := written loaded.processingState agreement.processingState row.processingState
    currentVersionId :=
      written loaded.currentVersionId agreement.currentVersionId row.currentVersionId
    comparisonBaselineVersionId := written loaded.comparisonBaselineVersionId
      agreement.comparisonBaselineVersionId row.comparisonBaselineVersionId
    archivedAt := written loaded.archivedAt agreement.archivedAt row.archivedAt
    auditMetadata := written loaded.auditMetadata agreement.auditMetadata row.auditMetadata
    auditEvents := written loaded.auditEvents agreement.auditEvents row.auditEvents
    updatedAt := written loaded.updatedAt agreement.updatedAt row.updatedAt }

/-- The session's object after a locked select. -/
def reselect (refreshes : Bool) (loaded row : AuditedAgreement) : AuditedAgreement :=
  if refreshes then row else loaded

/-- What `archive` makes of the agreement that it has read. -/
def archived (agreement : AuditedAgreement) (actorId : String) (now : Time) : AuditedAgreement :=
  { agreement with
    archivedAt := some now
    updatedAt := now
    auditEvents := agreement.auditEvents ++ [⟨.archived, actorId, now⟩] }

/-- What `restore` makes of the agreement that it has read. -/
def restored (agreement : AuditedAgreement) (actorId : String) (now : Time) : AuditedAgreement :=
  { agreement with
    archivedAt := none
    updatedAt := now
    auditEvents := agreement.auditEvents ++ [⟨.restored, actorId, now⟩] }

/-- What `_set_agreement_state` makes of the agreement that it has read. -/
def queued (agreement : AuditedAgreement) (jobId : Option Uuid) (now : Time) : AuditedAgreement :=
  { agreement with
    processingState := .job .queued
    updatedAt := now
    auditMetadata := match jobId with
      | some jobId => Dict.set agreement.auditMetadata "processing_job_id" jobId.str
      | none => agreement.auditMetadata }

/-- What `AgreementVersionService.create` makes of the agreement that it has read. -/
def versioned (agreement : AuditedAgreement) (source : AgreementFile) (versionId : Uuid)
    (current : Option Uuid) (now : Time) : AuditedAgreement :=
  { agreement with
    files := [source]
    currentVersionId := some versionId
    comparisonBaselineVersionId := current
    processingState := .pending
    auditMetadata := Dict.pop agreement.auditMetadata "processing_job_id"
    updatedAt := now }

end AuditedAgreement

inductive AgreementCall where
  | archive (actorId : String) (now : Time)
  | restore (actorId : String) (now : Time)
  | submit (jobId : Uuid) (now : Time)
  | retry (now : Time)
  | createVersion (source : AgreementFile) (versionId : Uuid) (current : Option Uuid) (now : Time)
  deriving DecidableEq, Repr

/-- How far a call has come: what it has read, or the event of the change that it reports. -/
inductive AgreementCallState where
  | authorized
  | found (agreement : AuditedAgreement)
  | returned (change : Option AuditEvent)
  | raised
  deriving DecidableEq, Repr

/-- What a step of a call meets: whether the tables of jobs and versions let the call go on, whether
the job is for the current version, and whether each of the locked selects refreshes the object. -/
structure Circumstances where
  proceeds : Bool
  updatesAgreement : Bool
  first : Bool
  second : Bool
  deriving DecidableEq, Repr

namespace AgreementCall
open AuditedAgreement

/-- The next step of a call. -/
def next (met : Circumstances) (row : AuditedAgreement) :
    AgreementCall → AgreementCallState → AuditedAgreement × AgreementCallState
  | .archive _ _, .authorized =>
    if row.archivedAt.isSome then (row, .returned none) else (row, .found row)
  | .archive actorId now, .found agreement =>
    (replace (reselect met.first agreement row) (agreement.archived actorId now) row,
      .returned (some ⟨.archived, actorId, now⟩))
  | .restore _ _, .authorized =>
    if row.archivedAt.isNone then (row, .returned none) else (row, .found row)
  | .restore actorId now, .found agreement =>
    (replace (reselect met.first agreement row) (agreement.restored actorId now) row,
      .returned (some ⟨.restored, actorId, now⟩))
  | .submit _ _, .authorized => (row, .found row)
  | .submit jobId now, .found agreement =>
    if ¬ met.proceeds then (row, .raised)
    else if ¬ met.updatesAgreement then (row, .returned none)
    else
      -- `_set_agreement_state` reads the agreement again, from the object of the insert's lock
      let again := reselect met.first agreement row
      (replace (reselect met.second again row) (again.queued (some jobId) now) row, .returned none)
  | .retry now, .authorized =>
    if ¬ met.proceeds then (row, .raised)
    else (replace row (row.queued none now) row, .returned none)
  | .createVersion _ _ _ _, .authorized => (row, .found row)
  | .createVersion source versionId current now, .found agreement =>
    if ¬ met.proceeds then (row, .raised)
    else
      let again := reselect met.first agreement row
      (replace (reselect met.second again row) (agreement.versioned source versionId current now)
        row, .returned none)
  | _, state => (row, state)

end AgreementCall

structure AuditSystem where
  row : AuditedAgreement
  calls : List (AgreementCall × AgreementCallState)

/-- Calls come in and are known by their places; one that is cut off is rolled back. -/
inductive AuditInput where
  | open (call : AgreementCall)
  | advance (place : ℕ) (met : Circumstances)
  | cut (place : ℕ)
  deriving DecidableEq, Repr

namespace AuditSystem

/-- The agreement as its creation leaves it. -/
def created (agreement : AuditedAgreement) (actorId : String) (now : Time) : AuditSystem :=
  ⟨{ agreement with archivedAt := none, auditEvents := [⟨.created, actorId, now⟩] }, []⟩

def step (system : AuditSystem) : AuditInput → AuditSystem
  | .open call => { system with calls := system.calls ++ [(call, .authorized)] }
  | .advance place met =>
    match system.calls[place]? with
    | none => system
    | some (call, state) =>
      let (row, reached) := call.next met system.row state
      ⟨row, system.calls.set place (call, reached)⟩
  | .cut place =>
    match system.calls[place]? with
    | some (call, .authorized) => { system with calls := system.calls.set place (call, .raised) }
    | some (call, .found _) => { system with calls := system.calls.set place (call, .raised) }
    | _ => system

end AuditSystem

end AgreementIntelligence.Agreements
