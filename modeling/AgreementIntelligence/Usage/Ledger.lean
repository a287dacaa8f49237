import AgreementIntelligence.Identity
import AgreementIntelligence.Lib.Columns
import AgreementIntelligence.Lib.Totals
import AgreementIntelligence.Lib.Runs
import Mathlib.Algebra.Field.Rat
import Mathlib.Algebra.Order.Ring.NNRat

/-! The ledger of AI usage and the calls that write it. A call is a transaction of its own and runs
under READ COMMITTED: each of its reads sees what is committed by then, and its one write goes over
what its row holds at the commit, in the columns that the call has changed. A write that a key of the
table refuses is rolled back with its call. Costs are exact. -/

namespace AgreementIntelligence.Usage
open Identity Lib Lib.Columns

inductive UsageStatus where
  | reserved
  | settled
  | cancelled
  deriving DecidableEq, Repr

structure AIUsageLedgerRecord where
  reservationId : Uuid
  organizationId : Uuid
  workspaceId : Uuid
  userId : Uuid
  operation : String
  provider : String
  configurationVersion : String
  estimatedTokens : ℕ
  estimatedCostUsd : ℚ≥0
  actualTokens : Option ℕ
  actualCostUsd : Option ℚ≥0
  status : UsageStatus
  settlementKey : Option String
  createdAt : Time
  deriving DecidableEq

structure UsageAmount where
  tokens : ℕ
  costUsd : ℚ≥0
  deriving DecidableEq

structure UsageBudget where
  maxTokens : ℕ
  maxCostUsd : ℚ≥0
  deriving DecidableEq

structure LimitScope where
  organizationId : Uuid
  workspaceId : Uuid
  userId : Uuid
  deriving DecidableEq, Repr

structure LimitDecision where
  allowed : Bool
  reason : String
  reservationId : Option Uuid
  deriving DecidableEq, Repr

/-- `ai_usage_ledger` -/
abbrev UsageLedger := Keyed AIUsageLedgerRecord.reservationId

/-- What stays the same during a month: the budget, when the month began, and whether the database
binds the session's role to the tenant policy of the table. -/
structure Month where
  budget : UsageBudget
  start : Time
  rowSecurity : Bool

/-! The sums -/

/-- The `WHERE` of `_current_usage`. -/
def Counted (month : Month) (organizationId : Uuid) (row : AIUsageLedgerRecord) : Prop :=
  row.organizationId = organizationId ∧ month.start ≤ row.createdAt ∧
    (row.status = .reserved ∨ row.status = .settled)

instance (month : Month) (organizationId : Uuid) (row : AIUsageLedgerRecord) :
    Decidable (Counted month organizationId row) :=
  inferInstanceAs (Decidable (_ ∧ _))

namespace AIUsageLedgerRecord

def tokens (row : AIUsageLedgerRecord) : ℕ := row.actualTokens.getD row.estimatedTokens

def costUsd (row : AIUsageLedgerRecord) : ℚ≥0 := row.actualCostUsd.getD row.estimatedCostUsd

end AIUsageLedgerRecord

/-- `_current_usage` -/
def currentUsage (month : Month) (ledger : UsageLedger) (organizationId : Uuid) : UsageAmount :=
  let rows := ledger.rows.filter fun row => Counted month organizationId row
  ⟨(rows.map (·.tokens)).sum, (rows.map (·.costUsd)).sum⟩

/-- An amount fits into what an organization has left. -/
def HasRoom (month : Month) (ledger : UsageLedger) (organizationId : Uuid) (amount : UsageAmount) :
    Prop :=
  (currentUsage month ledger organizationId).tokens + amount.tokens ≤ month.budget.maxTokens ∧
    (currentUsage month ledger organizationId).costUsd + amount.costUsd ≤ month.budget.maxCostUsd

instance (month : Month) (ledger : UsageLedger) (organizationId : Uuid) (amount : UsageAmount) :
    Decidable (HasRoom month ledger organizationId amount) :=
  inferInstanceAs (Decidable (_ ∧ _))

/-! Calls -/

/-- A call with what it is given. A reservation comes `sinceStart` after the month began, and a
settlement or a cancellation runs in the tenant that its transaction is scoped to. -/
inductive UsageCall where
  | reserve (scope : LimitScope) (operation provider configurationVersion : String)
    (estimated : UsageAmount) (reservationId : Uuid) (sinceStart : Time)
  | settle (tenant : Option Uuid) (reservationId : Uuid) (actual : UsageAmount)
    (settlementKey : String)
  | cancel (tenant : Option Uuid) (reservationId : Uuid)
  deriving DecidableEq

/-- How far a call has come; a row in it is what the call has loaded. -/
inductive Progress where
  | started
  | unused
  | admitted
  | loaded (record : AIUsageLedgerRecord)
  | decided (decision : LimitDecision)
  | returned
  | raised (error : String)
  deriving DecidableEq

/-- `session.get` -/
def get (month : Month) (ledger : UsageLedger) (tenant : Option Uuid) (reservationId : Uuid) :
    Option AIUsageLedgerRecord :=
  ledger.rows.find? fun row => row.reservationId = reservationId ∧
    (month.rowSecurity = true → tenant = some row.organizationId)

/-- `same_request` -/
def SameRequest (existing : AIUsageLedgerRecord) (scope : LimitScope) (operation : String) : Prop :=
  existing.organizationId = scope.organizationId ∧ existing.workspaceId = scope.workspaceId ∧
    existing.userId = scope.userId ∧ existing.operation = operation

instance (existing : AIUsageLedgerRecord) (scope : LimitScope) (operation : String) :
    Decidable (SameRequest existing scope operation) :=
  inferInstanceAs (Decidable (_ ∧ _))

/-- The row that `reserve_usage` adds. -/
def reservation (month : Month) (scope : LimitScope)
    (operation provider configurationVersion : String) (estimated : UsageAmount)
    (reservationId : Uuid) (sinceStart : Time) : AIUsageLedgerRecord where
  reservationId := reservationId
  organizationId := scope.organizationId
  workspaceId := scope.workspaceId
  userId := scope.userId
  operation := operation
  provider := provider
  configurationVersion := configurationVersion
  estimatedTokens := estimated.tokens
  estimatedCostUsd := estimated.costUsd
  actualTokens := none
  actualCostUsd := none
  status := .reserved
  settlementKey := none
  createdAt := month.start + sinceStart

/-- What the `UPDATE` of `settle_usage` makes of a row. -/
def settledRow (loaded : AIUsageLedgerRecord) (actual : UsageAmount) (settlementKey : String)
    (row : AIUsageLedgerRecord) : AIUsageLedgerRecord :=
  { row with
    actualTokens := written loaded.actualTokens (some actual.tokens) row.actualTokens
    actualCostUsd := written loaded.actualCostUsd (some actual.costUsd) row.actualCostUsd
    status := written loaded.status .settled row.status
    settlementKey := written loaded.settlementKey (some settlementKey) row.settlementKey }

/-- What the `UPDATE` of `cancel_usage` makes of a row. -/
def cancelledRow (loaded row : AIUsageLedgerRecord) : AIUsageLedgerRecord :=
  { row with status := written loaded.status .cancelled row.status }

/-- The unique key of `settlement_key` refuses the row. -/
def KeyTaken (ledger : UsageLedger) (row : AIUsageLedgerRecord) : Prop :=
  ∃ other ∈ ledger.rows, other.reservationId ≠ row.reservationId ∧ row.settlementKey.isSome ∧
    other.settlementKey = row.settlementKey

instance (ledger : UsageLedger) (row : AIUsageLedgerRecord) : Decidable (KeyTaken ledger row) :=
  inferInstanceAs (Decidable (∃ other ∈ ledger.rows, _))

/-- The next statement of a call. -/
def next (month : Month) (ledger : UsageLedger) : UsageCall → Progress → UsageLedger × Progress
  | .reserve scope operation _ _ _ reservationId _, .started =>
    match get month ledger (some scope.organizationId) reservationId with
    | some existing =>
      if SameRequest existing scope operation then
        (ledger, .decided ⟨true, "allowed", some reservationId⟩)
      else (ledger, .decided ⟨false, "reservation_conflict", some reservationId⟩)
    | none => (ledger, .unused)
  | .reserve scope _ _ _ estimated _ _, .unused =>
    if HasRoom month ledger scope.organizationId estimated then (ledger, .admitted)
    else (ledger, .decided ⟨false, "budget_exhausted", none⟩)
  | .reserve scope operation provider configurationVersion estimated reservationId sinceStart,
      .admitted =>
    match ledger.insert (reservation month scope operation provider configurationVersion estimated
        reservationId sinceStart) with
    | none => (ledger, .raised "IntegrityError")
    | some grown => (grown, .decided ⟨true, "allowed", some reservationId⟩)
  | .settle tenant reservationId _ settlementKey, .started =>
    match get month ledger tenant reservationId with
    | none => (ledger, .raised "usage reservation is unavailable")
    | some record =>
      if record.status = .settled then
        if record.settlementKey ≠ some settlementKey then
          (ledger, .raised "usage reservation was settled by another provider request")
        else (ledger, .returned)
      else (ledger, .loaded record)
  | .settle _ reservationId actual settlementKey, .loaded record =>
    if ∃ row ∈ ledger.rows, row.reservationId = reservationId ∧
        KeyTaken ledger (settledRow record actual settlementKey row) then
      (ledger, .raised "IntegrityError")
    else (ledger.updateAt reservationId (settledRow record actual settlementKey) fun _ => rfl,
      .returned)
  | .cancel tenant reservationId, .started =>
    match get month ledger tenant reservationId with
    | none => (ledger, .returned)
    | some record =>
      if record.status = .cancelled then (ledger, .returned)
      else if record.status = .settled then
        (ledger, .raised "settled usage cannot be cancelled")
      else (ledger, .loaded record)
  | .cancel _ reservationId, .loaded record =>
    (ledger.updateAt reservationId (cancelledRow record) fun _ => rfl, .returned)
  | _, progress => (ledger, progress)

/-! Runs -/

structure UsageSystem where
  ledger : UsageLedger
  calls : List (UsageCall × Progress)

/-- Calls come in and are known by their places; a call that is cut off is rolled back. -/
inductive UsageEvent where
  | open (call : UsageCall)
  | advance (place : ℕ)
  | cut (place : ℕ)
  deriving DecidableEq

def step (month : Month) (system : UsageSystem) : UsageEvent → UsageSystem
  | .open call => { system with calls := system.calls ++ [(call, .started)] }
  | .advance place =>
    match system.calls[place]? with
    | none => system
    | some (call, progress) =>
      let (ledger, reached) := next month system.ledger call progress
      ⟨ledger, system.calls.set place (call, reached)⟩
  | .cut place =>
    match system.calls[place]? with
    | none => system
    | some (call, _) =>
      { system with calls := system.calls.set place (call, .raised "connection closed") }

end AgreementIntelligence.Usage
