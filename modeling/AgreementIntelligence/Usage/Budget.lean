import AgreementIntelligence.Usage.Ledger
import Mathlib.Algebra.Order.Group.Nat

/-! When the budget of a month holds. An admission counts what is committed at its read and inserts
later, a replayed reservation is admitted whatever has become of its row, and a settlement brings a
cancelled row back into the sum: each of these keeps the budget exactly when what it relies on still
holds at the statement that takes effect. -/

namespace AgreementIntelligence.Usage
open Identity Lib Lib.Columns Lib.Runs

variable {month : Month} {ledger after : UsageLedger} {organizationId : Uuid}
  {row old : AIUsageLedgerRecord} {call : UsageCall} {progress : Progress} {system : UsageSystem}
  {event : UsageEvent}

def WithinBudget (month : Month) (ledger : UsageLedger) : Prop :=
  ∀ organizationId, (currentUsage month ledger organizationId).tokens ≤ month.budget.maxTokens ∧
    (currentUsage month ledger organizationId).costUsd ≤ month.budget.maxCostUsd

/-- What an allowed decision leaves: a row of its reservation that is counted for its
organization. -/
def Leaves (month : Month) (ledger : UsageLedger) : UsageCall → Progress → Prop
  | .reserve scope _ _ _ _ _ _, .decided decision =>
    decision.allowed = true → ∃ row ∈ ledger.rows,
      decision.reservationId = some row.reservationId ∧ Counted month scope.organizationId row
  | _, _ => True

/-- Every row stays, with the amounts that it has been settled for. -/
def KeepsAmounts (before after : UsageLedger) : Prop :=
  ∀ row ∈ before.rows, ∃ other ∈ after.rows, other.reservationId = row.reservationId ∧
    (row.actualTokens.isSome → other.actualTokens = row.actualTokens) ∧
    (row.actualCostUsd.isSome → other.actualCostUsd = row.actualCostUsd)

/-- What the budget promises of a step. -/
structure Obeys (month : Month) (before after : UsageSystem) : Prop where
  within : WithinBudget month after.ledger
  leaves : ∀ (place : ℕ) call progress, after.calls[place]? = some (call, progress) →
    before.calls[place]? ≠ some (call, progress) → Leaves month after.ledger call progress
  single : (after.ledger.rows.map (·.reservationId)).Nodup
  amounts : KeepsAmounts before.ledger after.ledger

/-! The condition -/

/-- What a settlement does to the amounts of a row when it lands: they are unset, or those that it
brings, or it had loaded its own and leaves the column alone. -/
def Lands {α : Type} (loaded : Option α) (actual : α) (current : Option α) : Prop :=
  current = none ∨ current = some actual ∨ loaded = some actual

instance {α : Type} [DecidableEq α] (loaded : Option α) (actual : α) (current : Option α) :
    Decidable (Lands loaded actual current) :=
  inferInstanceAs (Decidable (_ ∨ _))

/-- The statement of a call that comes next finds what it relies on: a replay finds its row counted,
an insert finds the room that was there when it was admitted, and a settlement finds its row without
other amounts, and room for it if it has been cancelled meanwhile. -/
def Harmless (month : Month) (ledger : UsageLedger) : UsageCall → Progress → Prop
  | .reserve scope operation _ _ _ reservationId _, .started =>
    ∀ row ∈ get month ledger (some scope.organizationId) reservationId,
      SameRequest row scope operation → Counted month scope.organizationId row
  | .reserve scope _ _ _ estimated reservationId _, .admitted =>
    (∃ row ∈ ledger.rows, row.reservationId = reservationId) ∨
      HasRoom month ledger scope.organizationId estimated
  | .settle _ reservationId actual settlementKey, .loaded record =>
    ∀ row ∈ ledger.rows, row.reservationId = reservationId →
      ¬ KeyTaken ledger (settledRow record actual settlementKey row) →
        Lands record.actualTokens actual.tokens row.actualTokens ∧
        Lands record.actualCostUsd actual.costUsd row.actualCostUsd ∧
        (row.status = .cancelled → month.start ≤ row.createdAt →
          HasRoom month ledger row.organizationId
            ⟨row.actualTokens.getD actual.tokens, row.actualCostUsd.getD actual.costUsd⟩)
  | _, _ => True

instance (month : Month) (ledger : UsageLedger) (call : UsageCall) (progress : Progress) :
    Decidable (Harmless month ledger call progress) := by
  cases call <;> cases progress <;> unfold Harmless <;> infer_instance

/-- A settlement comes to at most the estimate of its reservation. -/
def AtMostEstimate (ledger : UsageLedger) : UsageCall → Prop
  | .settle _ reservationId actual _ => ∀ row ∈ ledger.rows, row.reservationId = reservationId →
      actual.tokens ≤ row.estimatedTokens ∧ actual.costUsd ≤ row.estimatedCostUsd
  | _ => True

instance (ledger : UsageLedger) (call : UsageCall) : Decidable (AtMostEstimate ledger call) := by
  cases call <;> unfold AtMostEstimate <;> infer_instance

/-- A condition on the call that an event advances. -/
def AtCall (C : UsageLedger → UsageCall → Progress → Prop) (system : UsageSystem) :
    UsageEvent → Prop
  | .advance place =>
    ∀ entry ∈ system.calls[place]?, C system.ledger entry.1 entry.2
  | _ => True

instance (C : UsageLedger → UsageCall → Progress → Prop)
    [∀ ledger call progress, Decidable (C ledger call progress)] (system : UsageSystem)
    (event : UsageEvent) : Decidable (AtCall C system event) := by
  cases event <;> unfold AtCall <;> infer_instance

/-! The sums -/

/-- What a row adds to the sum of an organization. -/
def share {M : Type} [Zero M] (month : Month) (organizationId : Uuid)
    (measure : AIUsageLedgerRecord → M) (row : AIUsageLedgerRecord) : M :=
  if Counted month organizationId row then measure row else 0

theorem share_of_counted {M : Type} [Zero M] {measure : AIUsageLedgerRecord → M}
    (counted : Counted month organizationId row) :
    share month organizationId measure row = measure row := if_pos counted

theorem share_of_not_counted {M : Type} [Zero M] {measure : AIUsageLedgerRecord → M}
    (passed : ¬ Counted month organizationId row) :
    share month organizationId measure row = 0 := if_neg passed

theorem currentUsage_tokens : (currentUsage month ledger organizationId).tokens =
    ledger.total (share month organizationId (·.tokens)) :=
  Keyed.sum_map_filter ..

theorem currentUsage_costUsd : (currentUsage month ledger organizationId).costUsd =
    ledger.total (share month organizationId (·.costUsd)) :=
  Keyed.sum_map_filter ..

/-- A counted row that comes into the sums keeps the budget when there was room for it. -/
theorem within_iff_hasRoom (within : WithinBudget month ledger)
    (counted : Counted month row.organizationId row)
    (tokens : ∀ organizationId, after.total (share month organizationId (·.tokens)) =
      ledger.total (share month organizationId (·.tokens)) +
        share month organizationId (·.tokens) row)
    (costs : ∀ organizationId, after.total (share month organizationId (·.costUsd)) =
      ledger.total (share month organizationId (·.costUsd)) +
        share month organizationId (·.costUsd) row) :
    WithinBudget month after ↔
      HasRoom month ledger row.organizationId ⟨row.tokens, row.costUsd⟩ := by
  have own : HasRoom month ledger row.organizationId ⟨row.tokens, row.costUsd⟩ ↔
      (currentUsage month after row.organizationId).tokens ≤ month.budget.maxTokens ∧
        (currentUsage month after row.organizationId).costUsd ≤ month.budget.maxCostUsd := by
    rw [HasRoom, currentUsage_tokens, currentUsage_costUsd, currentUsage_tokens,
      currentUsage_costUsd, tokens, costs, share_of_counted counted, share_of_counted counted]
  rw [own]
  constructor
  · intro each
    exact each row.organizationId
  · intro fits organizationId
    by_cases same : organizationId = row.organizationId
    · rw [same]
      exact fits
    · have passed : ¬ Counted month organizationId row := fun counted => same counted.1.symm
      have before := within organizationId
      rw [currentUsage_tokens, currentUsage_costUsd] at before ⊢
      rw [tokens, costs, share_of_not_counted passed, share_of_not_counted passed, add_zero,
        add_zero]
      exact before

/-- A row that does not come to weigh more keeps the budget. -/
theorem within_updateAt {change : AIUsageLedgerRecord → AIUsageLedgerRecord}
    {keeps : ∀ row, (change row).reservationId = row.reservationId}
    (within : WithinBudget month ledger) (member : old ∈ ledger.rows)
    (tokens : ∀ organizationId, share month organizationId (·.tokens) (change old) ≤
      share month organizationId (·.tokens) old)
    (costs : ∀ organizationId, share month organizationId (·.costUsd) (change old) ≤
      share month organizationId (·.costUsd) old) :
    WithinBudget month (ledger.updateAt old.reservationId change keeps) := by
  intro organizationId
  have before := within organizationId
  rw [currentUsage_tokens, currentUsage_costUsd] at before ⊢
  constructor
  · exact (Keyed.total_updateAt_le member (tokens organizationId)).trans before.1
  · exact (Keyed.total_updateAt_le member (costs organizationId)).trans before.2

/-! What a statement does to the rows -/

theorem lands_iff {α : Type} [DecidableEq α] {loaded current : Option α} {actual : α} :
    Lands loaded actual current ↔
      (current.isSome → written loaded (some actual) current = current) := by
  cases current with
  | none => simp [Lands]
  | some amount =>
      by_cases same : some actual = loaded
      · simp [Lands, written, same]
      · have apart : ¬ loaded = some actual := fun other => same other.symm
        simp [Lands, written, same, apart, eq_comm]

theorem get_eq_some {tenant : Option Uuid} {reservationId : Uuid}
    (found : get month ledger tenant reservationId = some row) :
    row ∈ ledger.rows ∧ row.reservationId = reservationId := by
  have met := List.find?_some found
  rw [decide_eq_true_eq] at met
  exact ⟨List.mem_of_find?_eq_some found, met.1⟩

theorem KeepsAmounts.refl (ledger : UsageLedger) : KeepsAmounts ledger ledger :=
  fun row member => ⟨row, member, rfl, fun _ => rfl, fun _ => rfl⟩

theorem KeepsAmounts.insert (inserts : ledger.insert row = some after) :
    KeepsAmounts ledger after := by
  intro other member
  refine ⟨other, ?_, rfl, fun _ => rfl, fun _ => rfl⟩
  rw [(Keyed.insert_eq_some inserts).2]
  exact List.mem_append_left _ member

theorem keepsAmounts_updateAt {change : AIUsageLedgerRecord → AIUsageLedgerRecord}
    {keeps : ∀ row, (change row).reservationId = row.reservationId} (member : old ∈ ledger.rows) :
    KeepsAmounts ledger (ledger.updateAt old.reservationId change keeps) ↔
      (old.actualTokens.isSome → (change old).actualTokens = old.actualTokens) ∧
        (old.actualCostUsd.isSome → (change old).actualCostUsd = old.actualCostUsd) := by
  have here : change old ∈ (ledger.updateAt old.reservationId change keeps).rows :=
    (Keyed.mem_updateAt member).mpr (.inl rfl)
  constructor
  · intro kept
    obtain ⟨other, held, same, amounts⟩ := kept old member
    have equal : other = change old := by
      refine Keyed.eq_of_key held here ?_
      rw [same, keeps]
    rwa [equal] at amounts
  · intro amounts row held
    by_cases same : row.reservationId = old.reservationId
    · have equal : row = old := ledger.eq_of_key held member same
      rw [equal]
      exact ⟨change old, here, keeps old, amounts⟩
    · refine ⟨row, ?_, rfl, fun _ => rfl, fun _ => rfl⟩
      exact (Keyed.mem_updateAt member).mpr (.inr ⟨held, same⟩)

/-! What calls have loaded -/

/-- What a call has loaded: a row that it may write, and whose set amounts are set in the ledger. -/
def Prepared (ledger : UsageLedger) : UsageCall → Progress → Prop
  | .settle _ reservationId _ _, .loaded record => record.status ≠ .settled ∧
    ∃ row ∈ ledger.rows, row.reservationId = reservationId ∧
      (record.actualTokens.isSome → row.actualTokens.isSome) ∧
      (record.actualCostUsd.isSome → row.actualCostUsd.isSome)
  | .cancel _ reservationId, .loaded record => record.status = .reserved ∧
    ∃ row ∈ ledger.rows, row.reservationId = reservationId
  | _, _ => True

/-- Rows stay, and what is set in them stays set. -/
def Grows (before after : UsageLedger) : Prop :=
  ∀ row ∈ before.rows, ∃ other ∈ after.rows, other.reservationId = row.reservationId ∧
    (row.actualTokens.isSome → other.actualTokens.isSome) ∧
    (row.actualCostUsd.isSome → other.actualCostUsd.isSome)

theorem Grows.refl (ledger : UsageLedger) : Grows ledger ledger :=
  fun row member => ⟨row, member, rfl, id, id⟩

theorem grows_updateAt (change : AIUsageLedgerRecord → AIUsageLedgerRecord) {reservationId : Uuid}
    (keeps : ∀ row, (change row).reservationId = row.reservationId)
    (tokens : ∀ row, row.actualTokens.isSome → (change row).actualTokens.isSome)
    (costs : ∀ row, row.actualCostUsd.isSome → (change row).actualCostUsd.isSome) :
    Grows ledger (ledger.updateAt reservationId change keeps) := by
  intro row member
  refine ⟨_, Keyed.mem_updateWhere.mpr ⟨row, member, rfl⟩, ?_⟩
  by_cases hit : row.reservationId = reservationId
  · rw [if_pos hit]
    exact ⟨keeps row, tokens row, costs row⟩
  · rw [if_neg hit]
    exact ⟨rfl, id, id⟩

theorem Grows.insert (inserts : ledger.insert row = some after) : Grows ledger after := by
  intro other member
  refine ⟨other, ?_, rfl, id, id⟩
  rw [(Keyed.insert_eq_some inserts).2]
  exact List.mem_append_left _ member

theorem next_grows (month : Month) (ledger : UsageLedger) (call : UsageCall)
    (progress : Progress) : Grows ledger (next month ledger call progress).1 := by
  cases call <;> cases progress <;> try exact Grows.refl ledger
  case reserve.started scope operation provider version estimated reservationId sinceStart =>
    simp only [next]
    (repeat' split) <;> exact Grows.refl ledger
  case reserve.unused scope operation provider version estimated reservationId sinceStart =>
    simp only [next]
    split <;> exact Grows.refl ledger
  case reserve.admitted scope operation provider version estimated reservationId sinceStart =>
    simp only [next]
    split
    · exact Grows.refl ledger
    · next inserts => exact Grows.insert inserts
  case settle.started tenant reservationId actual settlementKey =>
    simp only [next]
    (repeat' split) <;> exact Grows.refl ledger
  case settle.loaded tenant reservationId actual settlementKey record =>
    simp only [next]
    split
    · exact Grows.refl ledger
    · exact grows_updateAt (settledRow record actual settlementKey) (fun _ => rfl)
        (fun _ set => isSome_written set) fun _ set => isSome_written set
  case cancel.started tenant reservationId =>
    simp only [next]
    (repeat' split) <;> exact Grows.refl ledger
  case cancel.loaded tenant reservationId record =>
    exact grows_updateAt (cancelledRow record) (fun _ => rfl) (fun _ set => set) fun _ set => set

theorem Prepared.grows (prepared : Prepared ledger call progress) (grows : Grows ledger after) :
    Prepared after call progress := by
  cases call <;> cases progress <;> try trivial
  case settle.loaded tenant reservationId actual settlementKey record =>
    obtain ⟨unsettled, row, member, same, tokens, costs⟩ := prepared
    obtain ⟨other, held, equal, set⟩ := grows row member
    exact ⟨unsettled, other, held, equal.trans same, set.1 ∘ tokens, set.2 ∘ costs⟩
  case cancel.loaded tenant reservationId record =>
    obtain ⟨reserved, row, member, same⟩ := prepared
    obtain ⟨other, held, equal, -⟩ := grows row member
    exact ⟨reserved, other, held, equal.trans same⟩

/-- A call loads only what it may write. -/
theorem next_prepared (prepared : Prepared ledger call progress) :
    Prepared (next month ledger call progress).1 call (next month ledger call progress).2 := by
  cases call <;> cases progress <;> try exact prepared.grows (next_grows month ledger _ _)
  case reserve.started scope operation provider version estimated reservationId sinceStart =>
    simp only [next]
    (repeat' split) <;> trivial
  case reserve.unused scope operation provider version estimated reservationId sinceStart =>
    simp only [next]
    split <;> trivial
  case reserve.admitted scope operation provider version estimated reservationId sinceStart =>
    simp only [next]
    split <;> trivial
  case settle.started tenant reservationId actual settlementKey =>
    simp only [next]
    split
    · trivial
    · next record found =>
        split
        · split <;> trivial
        · next unsettled =>
            have stored := get_eq_some found
            exact ⟨unsettled, record, stored.1, stored.2, id, id⟩
  case settle.loaded tenant reservationId actual settlementKey record =>
    simp only [next]
    split <;> trivial
  case cancel.started tenant reservationId =>
    simp only [next]
    split
    · trivial
    · next record found =>
        split
        · trivial
        · next standing =>
            split
            · trivial
            · next unsettled =>
                have stored := get_eq_some found
                refine ⟨?_, record, stored⟩
                cases status : record.status with
                | reserved => rfl
                | settled => exact absurd status unsettled
                | cancelled => exact absurd status standing
  case cancel.loaded tenant reservationId record => trivial

/-! What a statement leaves -/

/-- What the budget promises of a statement of a call. -/
structure StatementObeys (month : Month) (ledger : UsageLedger) (call : UsageCall)
    (progress : Progress) (after : UsageLedger) (reached : Progress) : Prop where
  within : WithinBudget month after
  leaves : reached ≠ progress → Leaves month after call reached
  amounts : KeepsAmounts ledger after

/-- A statement that writes nothing and allows nothing. -/
theorem StatementObeys.quiet (within : WithinBudget month ledger) {reached : Progress}
    (leaves : reached ≠ progress → Leaves month ledger call reached) :
    StatementObeys month ledger call progress ledger reached :=
  ⟨within, leaves, KeepsAmounts.refl ledger⟩

theorem reserve_started_iff (within : WithinBudget month ledger) {scope : LimitScope}
    {operation provider version : String} {estimated : UsageAmount} {reservationId : Uuid}
    {sinceStart : Time}
    (same : call = .reserve scope operation provider version estimated reservationId sinceStart) :
    StatementObeys month ledger call .started (next month ledger call .started).1
      (next month ledger call .started).2 ↔ Harmless month ledger call .started := by
  subst same
  simp only [next, Harmless]
  cases found : get month ledger (some scope.organizationId) reservationId with
  | none =>
      refine iff_of_true (.quiet within fun _ => trivial) ?_
      rintro row ⟨⟩
  | some existing =>
      have stored := get_eq_some found
      by_cases replayed : SameRequest existing scope operation
      · simp only [if_pos replayed]
        constructor
        · intro obeys row equal _
          cases equal
          obtain ⟨other, member, id, counted⟩ := obeys.leaves (by simp) rfl
          have equal : other = existing := by
            refine Keyed.eq_of_key member stored.1 ?_
            rw [stored.2]
            exact (Option.some.inj id).symm
          rwa [equal] at counted
        · intro harmless
          refine .quiet within fun _ _ => ⟨existing, stored.1, ?_, harmless existing rfl replayed⟩
          rw [stored.2]
      · simp only [if_neg replayed]
        refine iff_of_true (.quiet within fun _ allowed => ?_) ?_
        · cases allowed
        · rintro row ⟨⟩ same
          exact absurd same replayed

theorem reserve_admitted_iff (within : WithinBudget month ledger) {scope : LimitScope}
    {operation provider version : String} {estimated : UsageAmount} {reservationId : Uuid}
    {sinceStart : Time}
    (same : call = .reserve scope operation provider version estimated reservationId sinceStart) :
    StatementObeys month ledger call .admitted (next month ledger call .admitted).1
      (next month ledger call .admitted).2 ↔ Harmless month ledger call .admitted := by
  subst same
  simp only [next, Harmless]
  have counted : Counted month scope.organizationId (reservation month scope operation provider
      version estimated reservationId sinceStart) :=
    ⟨rfl, Nat.le_add_right _ _, .inl rfl⟩
  cases inserts : ledger.insert (reservation month scope operation provider version estimated
      reservationId sinceStart) with
  | none =>
      refine iff_of_true (.quiet within fun _ => trivial) (.inl ?_)
      by_contra fresh
      have free : ∀ old ∈ ledger.rows, old.reservationId ≠ (reservation month scope operation
          provider version estimated reservationId sinceStart).reservationId :=
        fun old member same => fresh ⟨old, member, same⟩
      obtain ⟨grown, added, -⟩ := Keyed.insert_of_fresh free
      rw [inserts] at added
      cases added
  | some grown =>
      have fresh : ¬ ∃ row ∈ ledger.rows, row.reservationId = reservationId := by
        rintro ⟨row, member, same⟩
        exact (Keyed.insert_eq_some inserts).1 row member same
      have room : WithinBudget month grown ↔ HasRoom month ledger scope.organizationId estimated :=
        within_iff_hasRoom within counted (fun _ => Keyed.total_insert inserts)
          fun _ => Keyed.total_insert inserts
      simp only [fresh, false_or]
      rw [← room]
      constructor
      · exact fun obeys => obeys.within
      · intro within
        refine ⟨within, fun _ _ => ⟨_, ?_, rfl, counted⟩, KeepsAmounts.insert inserts⟩
        rw [(Keyed.insert_eq_some inserts).2]
        exact List.mem_concat_self

theorem settledRow_status {record : AIUsageLedgerRecord} (unsettled : record.status ≠ .settled)
    (actual : UsageAmount) (settlementKey : String) (row : AIUsageLedgerRecord) :
    (settledRow record actual settlementKey row).status = .settled :=
  written_of_ne unsettled

/-- What a column holds after a settlement that lands. -/
theorem written_of_lands {α : Type} [DecidableEq α] {loaded current : Option α} {actual : α}
    (lands : Lands loaded actual current) (set : loaded.isSome → current.isSome) :
    written loaded (some actual) current = some (current.getD actual) := by
  cases current with
  | some amount => exact lands_iff.mp lands rfl
  | none =>
      refine written_of_ne fun same => ?_
      rw [same] at set
      cases set rfl

theorem share_le {M : Type} [AddCommMonoid M] [PartialOrder M] [CanonicallyOrderedAdd M]
    {measure : AIUsageLedgerRecord → M} (counted : Counted month organizationId row →
      Counted month organizationId old) (lighter : measure row ≤ measure old) :
    share month organizationId measure row ≤ share month organizationId measure old := by
  by_cases now : Counted month organizationId row
  · rw [share_of_counted now, share_of_counted (counted now)]
    exact lighter
  · rw [share_of_not_counted now]
    exact zero_le

/-- Both columns land, and what they come to is at most what the row weighed. -/
theorem settledRow_lands {record : AIUsageLedgerRecord} {actual : UsageAmount}
    (settlementKey : String)
    (tokensSet : record.actualTokens.isSome → old.actualTokens.isSome)
    (costsSet : record.actualCostUsd.isSome → old.actualCostUsd.isSome)
    (tokens : Lands record.actualTokens actual.tokens old.actualTokens)
    (costs : Lands record.actualCostUsd actual.costUsd old.actualCostUsd) :
    (settledRow record actual settlementKey old).tokens = old.actualTokens.getD actual.tokens ∧
      (settledRow record actual settlementKey old).costUsd =
        old.actualCostUsd.getD actual.costUsd := by
  constructor
  · simp [settledRow, AIUsageLedgerRecord.tokens, written_of_lands tokens tokensSet]
  · simp [settledRow, AIUsageLedgerRecord.costUsd, written_of_lands costs costsSet]

theorem getD_le_getD {α : Type} [Preorder α] {value fallback : α} (le : value ≤ fallback)
    (column : Option α) : column.getD value ≤ column.getD fallback := by
  cases column with
  | none => exact le
  | some amount => exact le_rfl

/-- A settlement whose amounts land keeps the budget exactly when it finds its row standing, or
finds room for it. -/
theorem settled_within_iff (within : WithinBudget month ledger) {actual : UsageAmount}
    {settlementKey : String} {record : AIUsageLedgerRecord} (unsettled : record.status ≠ .settled)
    (member : old ∈ ledger.rows)
    (atMost : actual.tokens ≤ old.estimatedTokens ∧ actual.costUsd ≤ old.estimatedCostUsd)
    (landed : (settledRow record actual settlementKey old).tokens =
      old.actualTokens.getD actual.tokens ∧
        (settledRow record actual settlementKey old).costUsd =
          old.actualCostUsd.getD actual.costUsd) :
    WithinBudget month (ledger.updateAt old.reservationId (settledRow record actual settlementKey)
      fun _ => rfl) ↔ (old.status = .cancelled → month.start ≤ old.createdAt →
        HasRoom month ledger old.organizationId
          ⟨old.actualTokens.getD actual.tokens, old.actualCostUsd.getD actual.costUsd⟩) := by
  have settled := settledRow_status unsettled actual settlementKey old
  by_cases returns : old.status = .cancelled ∧ month.start ≤ old.createdAt
  · have passed (organizationId : Uuid) : ¬ Counted month organizationId old := by
      rintro ⟨-, -, reserved | settled⟩
      · exact absurd (returns.1.symm.trans reserved) (by decide)
      · exact absurd (returns.1.symm.trans settled) (by decide)
    have counted : Counted month old.organizationId (settledRow record actual settlementKey old) :=
      ⟨rfl, returns.2, .inr settled⟩
    have room : WithinBudget month (ledger.updateAt old.reservationId
        (settledRow record actual settlementKey) fun _ => rfl) ↔ _ := within_iff_hasRoom within counted
      (fun _ => Keyed.total_updateAt_of_weightless member (share_of_not_counted (passed _)))
      fun _ => Keyed.total_updateAt_of_weightless member (share_of_not_counted (passed _))
    rw [landed.1, landed.2] at room
    rw [room]
    exact ⟨fun fits _ _ => fits, fun fits => fits returns.1 returns.2⟩
  · refine iff_of_true ?_ fun cancelled current => absurd ⟨cancelled, current⟩ returns
    have standing (organizationId : Uuid)
        (counted : Counted month organizationId (settledRow record actual settlementKey old)) :
        Counted month organizationId old := by
      refine ⟨counted.1, counted.2.1, ?_⟩
      cases status : old.status with
      | reserved => exact .inl rfl
      | settled => exact .inr rfl
      | cancelled => exact absurd ⟨status, counted.2.1⟩ returns
    refine within_updateAt within member (fun organizationId => ?_) fun organizationId => ?_
    · refine share_le (standing organizationId) ?_
      rw [landed.1]
      exact getD_le_getD atMost.1 old.actualTokens
    · refine share_le (standing organizationId) ?_
      rw [landed.2]
      exact getD_le_getD atMost.2 old.actualCostUsd

theorem settle_loaded_iff (within : WithinBudget month ledger) {tenant : Option Uuid}
    {reservationId : Uuid} {actual : UsageAmount} {settlementKey : String}
    {record : AIUsageLedgerRecord}
    (same : call = .settle tenant reservationId actual settlementKey)
    (prepared : Prepared ledger call (.loaded record)) (atMost : AtMostEstimate ledger call) :
    StatementObeys month ledger call (.loaded record) (next month ledger call (.loaded record)).1
      (next month ledger call (.loaded record)).2 ↔
        Harmless month ledger call (.loaded record) := by
  subst same
  obtain ⟨unsettled, old, member, rfl, tokensSet, costsSet⟩ := prepared
  have only : ∀ row ∈ ledger.rows, row.reservationId = old.reservationId → row = old :=
    fun row held same => Keyed.eq_of_key held member same
  simp only [next, Harmless]
  by_cases taken : KeyTaken ledger (settledRow record actual settlementKey old)
  · rw [if_pos ⟨old, member, rfl, taken⟩]
    refine iff_of_true (.quiet within fun _ => trivial) fun row held same free => ?_
    rw [only row held same] at free
    exact absurd taken free
  · have free : ¬ ∃ row ∈ ledger.rows, row.reservationId = old.reservationId ∧
        KeyTaken ledger (settledRow record actual settlementKey row) := by
      rintro ⟨row, held, same, refused⟩
      rw [only row held same] at refused
      exact taken refused
    rw [if_neg free]
    have amounts : KeepsAmounts ledger (ledger.updateAt old.reservationId
        (settledRow record actual settlementKey) fun _ => rfl) ↔
          Lands record.actualTokens actual.tokens old.actualTokens ∧
            Lands record.actualCostUsd actual.costUsd old.actualCostUsd := by
      rw [lands_iff, lands_iff]
      exact keepsAmounts_updateAt member
    constructor
    · intro obeys row held same _
      rw [only row held same]
      obtain ⟨tokens, costs⟩ := amounts.mp obeys.amounts
      have landed := settledRow_lands settlementKey tokensSet costsSet tokens costs
      refine ⟨tokens, costs, ?_⟩
      exact (settled_within_iff within unsettled member (atMost old member rfl) landed).mp
        obeys.within
    · intro harmless
      obtain ⟨tokens, costs, room⟩ := harmless old member rfl taken
      have landed := settledRow_lands settlementKey tokensSet costsSet tokens costs
      refine ⟨?_, fun _ => trivial, amounts.mpr ⟨tokens, costs⟩⟩
      exact (settled_within_iff within unsettled member (atMost old member rfl) landed).mpr room

/-- A cancellation takes its row out of the sums. -/
theorem cancel_loaded_obeys (within : WithinBudget month ledger) {tenant : Option Uuid}
    {reservationId : Uuid} {record : AIUsageLedgerRecord}
    (same : call = .cancel tenant reservationId)
    (prepared : Prepared ledger call (.loaded record)) :
    StatementObeys month ledger call (.loaded record) (next month ledger call (.loaded record)).1
      (next month ledger call (.loaded record)).2 := by
  subst same
  obtain ⟨reserved, old, member, rfl⟩ := prepared
  have cancelled : (cancelledRow record old).status = .cancelled :=
    written_of_ne (by rw [reserved]; decide)
  have passed (organizationId : Uuid) :
      ¬ Counted month organizationId (cancelledRow record old) := by
    rintro ⟨-, -, reserved | settled⟩
    · exact absurd (cancelled.symm.trans reserved) (by decide)
    · exact absurd (cancelled.symm.trans settled) (by decide)
  refine ⟨?_, fun _ => trivial, ?_⟩
  · change WithinBudget month (ledger.updateAt old.reservationId (cancelledRow record) fun _ => rfl)
    refine within_updateAt within member (fun organizationId => ?_) fun organizationId => ?_
    · exact share_le (fun counted => absurd counted (passed organizationId)) le_rfl
    · exact share_le (fun counted => absurd counted (passed organizationId)) le_rfl
  · change KeepsAmounts ledger (ledger.updateAt old.reservationId (cancelledRow record) fun _ => rfl)
    exact (keepsAmounts_updateAt member).mpr ⟨fun _ => rfl, fun _ => rfl⟩

/-- A statement keeps to the budget exactly when it finds what it relies on. -/
theorem next_obeys_iff (within : WithinBudget month ledger)
    (prepared : Prepared ledger call progress) (atMost : AtMostEstimate ledger call) :
    StatementObeys month ledger call progress (next month ledger call progress).1
      (next month ledger call progress).2 ↔ Harmless month ledger call progress := by
  cases call <;> cases progress <;>
    try exact iff_of_true (.quiet within fun moved => absurd rfl moved) trivial
  case reserve.started scope operation provider version estimated reservationId sinceStart =>
    exact reserve_started_iff within rfl
  case reserve.unused scope operation provider version estimated reservationId sinceStart =>
    refine iff_of_true ?_ trivial
    simp only [next]
    split
    · exact .quiet within fun _ => trivial
    · exact .quiet within fun _ allowed => absurd allowed (by decide)
  case reserve.admitted scope operation provider version estimated reservationId sinceStart =>
    exact reserve_admitted_iff within rfl
  case settle.started tenant reservationId actual settlementKey =>
    refine iff_of_true ?_ trivial
    simp only [next]
    (repeat' split) <;> exact .quiet within fun _ => trivial
  case settle.loaded tenant reservationId actual settlementKey record =>
    exact settle_loaded_iff within rfl prepared atMost
  case cancel.started tenant reservationId =>
    refine iff_of_true ?_ trivial
    simp only [next]
    (repeat' split) <;> exact .quiet within fun _ => trivial
  case cancel.loaded tenant reservationId record =>
    exact iff_of_true (cancel_loaded_obeys within rfl prepared) trivial

/-! Steps and runs -/

structure UsageSystem.Kept (month : Month) (system : UsageSystem) : Prop where
  within : WithinBudget month system.ledger
  prepared : ∀ entry ∈ system.calls, Prepared system.ledger entry.1 entry.2

theorem step_advance {place : ℕ} (here : system.calls[place]? = some (call, progress)) :
    step month system (.advance place) = ⟨(next month system.ledger call progress).1,
      system.calls.set place (call, (next month system.ledger call progress).2)⟩ := by
  simp only [step, here]

theorem step_obeys_iff (kept : system.Kept month)
    (atMost : AtCall (fun ledger call _ => AtMostEstimate ledger call) system event) :
    Obeys month system (step month system event) ↔ AtCall (Harmless month) system event := by
  have still {calls : List (UsageCall × Progress)}
      (leaves : ∀ (place : ℕ) call progress, calls[place]? = some (call, progress) →
        system.calls[place]? ≠ some (call, progress) → Leaves month system.ledger call progress) :
      Obeys month system ⟨system.ledger, calls⟩ :=
    ⟨kept.within, leaves, system.ledger.distinct, KeepsAmounts.refl system.ledger⟩
  cases event with
  | «open» opened =>
      refine iff_of_true (still fun place call progress here fresh => ?_) trivial
      rw [List.getElem?_append] at here
      split at here
      · exact absurd here fresh
      · rw [List.getElem?_singleton] at here
        split at here
        · cases here
          cases opened <;> trivial
        · cases here
  | cut place =>
      refine iff_of_true ?_ trivial
      simp only [step]
      cases here : system.calls[place]? with
      | none => exact still fun other call progress stays moved => absurd stays moved
      | some entry =>
          refine still fun other call progress reached moved => ?_
          rw [List.getElem?_set] at reached
          split at reached
          · split at reached
            · cases reached
              cases entry.1 <;> trivial
            · cases reached
          · exact absurd reached moved
  | advance place =>
      cases here : system.calls[place]? with
      | none =>
          have stays : step month system (.advance place) = system := by
            simp only [step, here]
          rw [stays]
          refine iff_of_true (still fun other call progress stays moved => absurd stays moved) ?_
          simp [AtCall, here]
      | some entry =>
          obtain ⟨call, progress⟩ := entry
          have prepared := kept.prepared _ (List.mem_of_getElem? here)
          have bounded : AtMostEstimate system.ledger call := atMost (call, progress) here
          have condition : AtCall (Harmless month) system (.advance place) ↔
              Harmless month system.ledger call progress := by
            simp [AtCall, here]
          rw [condition, ← next_obeys_iff kept.within prepared bounded, step_advance here]
          have inside := (List.getElem?_eq_some_iff.mp here).1
          constructor
          · intro obeys
            refine ⟨obeys.within, fun moved => ?_, obeys.amounts⟩
            refine obeys.leaves place call _ (List.getElem?_set_self inside) ?_
            rw [here]
            exact fun same => moved (Prod.mk.inj (Option.some.inj same)).2.symm
          · intro obeys
            refine ⟨obeys.within, fun other call' progress' reached moved => ?_,
              Keyed.distinct _, obeys.amounts⟩
            by_cases same : place = other
            · subst same
              rw [List.getElem?_set_self inside] at reached
              cases reached
              refine obeys.leaves fun equal => moved ?_
              rw [here, equal]
            · rw [List.getElem?_set_ne same] at reached
              exact absurd reached moved

theorem step_prepared (prepared : ∀ entry ∈ system.calls, Prepared system.ledger entry.1 entry.2)
    (month : Month) (event : UsageEvent) :
    ∀ entry ∈ (step month system event).calls,
      Prepared (step month system event).ledger entry.1 entry.2 := by
  cases event with
  | «open» opened =>
      intro entry member
      rcases List.mem_append.mp member with before | new
      · exact prepared entry before
      · rw [List.mem_singleton.mp new]
        cases opened <;> trivial
  | cut place =>
      simp only [step]
      cases here : system.calls[place]? with
      | none => exact prepared
      | some entry =>
          intro other member
          rcases List.mem_or_eq_of_mem_set member with before | new
          · exact prepared other before
          · rw [new]
            cases entry.1 <;> trivial
  | advance place =>
      cases here : system.calls[place]? with
      | none =>
          simp only [step, here]
          exact prepared
      | some entry =>
          obtain ⟨call, progress⟩ := entry
          rw [step_advance here]
          intro other member
          rcases List.mem_or_eq_of_mem_set member with before | new
          · exact (prepared other before).grows (next_grows month system.ledger call progress)
          · rw [new]
            exact next_prepared (prepared _ (List.mem_of_getElem? here))

/-- The ledger as a month finds it: what it holds is from before. -/
def atStart (ledger : UsageLedger) : UsageSystem := ⟨ledger, []⟩

/-- The budget of a month, along a run of interleaved calls that each settle at most their
estimates: every step leaves every organization within it, leaves a counted row for each reservation
that it allows, leaves one row a reservation and no settled amount changed, exactly when every
statement finds what it relies on. -/
theorem run_obeys_iff (month : Month) (ledger : UsageLedger)
    (earlier : ∀ row ∈ ledger.rows, row.createdAt < month.start) (events : List UsageEvent)
    (atMost : meetsAlong (step month) (AtCall fun ledger call _ => AtMostEstimate ledger call)
      (atStart ledger) events) :
    meetsAlong (step month) (fun system event => Obeys month system (step month system event))
      (atStart ledger) events ↔
      meetsAlong (step month) (AtCall (Harmless month)) (atStart ledger) events := by
  have unused (organizationId : Uuid) {M : Type} [AddCommMonoid M]
      (measure : AIUsageLedgerRecord → M) :
      ledger.total (share month organizationId measure) = 0 := by
    refine Keyed.total_eq_zero fun row member => share_of_not_counted ?_
    rintro ⟨-, current, -⟩
    exact absurd (earlier row member) (Nat.not_lt.mpr current)
  refine meetsAlong_congr (P := UsageSystem.Kept month)
    (E := AtCall fun ledger call _ => AtMostEstimate ledger call) ⟨?_, ?_⟩
    (meetsAlong_iff.mp atMost) ?_ ?_
  · intro organizationId
    rw [currentUsage_tokens, currentUsage_costUsd, atStart, unused, unused]
    exact ⟨Nat.zero_le _, zero_le⟩
  · rintro entry ⟨⟩
  · exact fun system event kept bounded => step_obeys_iff kept bounded
  · intro system event kept _ obeys
    exact ⟨obeys.within, step_prepared kept.prepared month event⟩

/-! Two reservations that are admitted side by side -/

def sampleMonth : Month := ⟨⟨20000, 1⟩, 100, true⟩

def sampleScope : LimitScope := ⟨.ofNat 1, .ofNat 2, .ofNat 3⟩

def sampleReserve (reservationId : ℕ) : UsageCall :=
  .reserve sampleScope "processing.contract-intelligence" "openai" "model-gateway.v1"
    ⟨12000, 1 / 10⟩ (.ofNat reservationId) 5

/-- A reservation that is settled for less, and then cancelled in vain. -/
def sampleRun : List UsageEvent :=
  [.open (sampleReserve 7), .advance 0, .advance 0, .advance 0,
    .open (.settle (some (.ofNat 1)) (.ofNat 7) ⟨11000, 9 / 100⟩ "request-1"), .advance 1,
    .advance 1, .open (.cancel (some (.ofNat 1)) (.ofNat 7)), .advance 2]

theorem run_obeys_iff_sample : meetsAlong (step sampleMonth)
    (fun system event => Obeys sampleMonth system (step sampleMonth system event))
    (atStart .empty) sampleRun :=
  (run_obeys_iff sampleMonth .empty (by decide) sampleRun (by decide +kernel)).mpr
    (by decide +kernel)

/-- Whatever is called in a month, and however the calls overlap, the budget holds. -/
def NeverOvercommitted : Prop :=
  ∀ (month : Month) (ledger : UsageLedger) (events : List UsageEvent),
    (∀ row ∈ ledger.rows, row.createdAt < month.start) →
    meetsAlong (step month) (AtCall fun ledger call _ => AtMostEstimate ledger call)
      (atStart ledger) events →
    meetsAlong (step month) (fun system event => Obeys month system (step month system event))
      (atStart ledger) events

/-- Both read the sum before either inserts. -/
def sampleOverlap : List UsageEvent :=
  [.open (sampleReserve 7), .open (sampleReserve 8), .advance 0, .advance 1, .advance 0, .advance 1,
    .advance 0, .advance 1]

theorem not_neverOvercommitted : ¬ NeverOvercommitted := by
  intro never
  have obeys := never sampleMonth .empty sampleOverlap (by decide) (by decide +kernel)
  have last := meetsAlong_iff.mp obeys sampleOverlap.dropLast (.advance 1) [] rfl
  have total := (last.within (.ofNat 1)).1
  revert total
  decide +kernel

end AgreementIntelligence.Usage
