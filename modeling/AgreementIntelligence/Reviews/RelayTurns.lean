import AgreementIntelligence.Lib.Turns
import AgreementIntelligence.Reviews.Delivery
import AgreementIntelligence.UuidOrder
import Mathlib.Data.Finset.Card

/-! The turns of the organizations. A relay leaves its cursor at the organization whose event it has
leased and begins behind the cursor the next time, so that organizations which always have due events
are served in turn, whatever else happens to the outbox between two calls. -/

namespace AgreementIntelligence.Reviews
open Identity UuidText Lib.Table Lib.Turns

/-! The order of one call -/

theorem fairOrganizationOrder_eq (cursor : Option String) (organizations : List Uuid) :
    fairOrganizationOrder cursor organizations = turns Uuid.str cursor organizations := by
  cases cursor <;> rfl

theorem ascending_str {organizations : List Uuid}
    (ordered : organizations.Pairwise fun one other => one.bits.toNat < other.bits.toNat) :
    Ascending Uuid.str organizations :=
  ordered.imp str_lt

theorem upward_sortedByText (organizations : List Uuid) (cursor : String) :
    (sortedByText organizations).Pairwise fun one other =>
      Decidable.decide (cursor < one.str) = true → Decidable.decide (cursor < other.str) = true := by
  have sorted := List.pairwise_insertionSort
    (fun one other : Uuid => one.bits.toNat ≤ other.bits.toNat) organizations
  refine sorted.imp ?_
  intro one other below above
  rw [decide_eq_true_eq] at above ⊢
  rcases below.eq_or_lt with same | less
  · have equal : one = other := by
      cases one
      cases other
      exact congrArg Uuid.mk (BitVec.eq_of_toNat_eq same)
    rwa [← equal]
  · exact above.trans (str_lt less)

/-- The organizations in their order, the ones behind the cursor first. -/
theorem fairOrganizationOrder_rotates (cursor : Option String) (organizations : List Uuid) :
    ∃ before after, sortedByText organizations = before ++ after ∧
      fairOrganizationOrder cursor (sortedByText organizations) = after ++ before ∧
      (cursor = none → before = []) ∧
      ∀ place ∈ cursor, (∀ organizationId ∈ before, organizationId.str ≤ place) ∧
        ∀ organizationId ∈ after, place < organizationId.str := by
  cases cursor with
  | none => exact ⟨[], sortedByText organizations, rfl, (List.append_nil _).symm, by simp, by simp⟩
  | some cursor =>
      have upward := upward_sortedByText organizations cursor
      refine ⟨_, _, split_past upward, fromFirst_eq upward, by simp, ?_⟩
      intro place same
      rw [Option.mem_some_iff] at same
      rw [← same]
      constructor
      · intro organizationId member
        have kept := (List.mem_filter.mp member).2
        rwa [Bool.not_eq_true', decide_eq_false_iff_not, not_lt] at kept
      · intro organizationId member
        exact of_decide_eq_true (List.mem_filter.mp member).2

/-! Calls of one relay -/

/-- What a call of `relay_once` meets: the database in its first transaction, its clock, the rows that
others hold locked, and what the publisher returns or raises. -/
structure RelayMoment where
  store : Delivery
  now : Time
  locked : List Uuid
  outcome : Except String Unit
  /-- `SELECT id FROM organizations ORDER BY id` -/
  ordered : store.organizations.Pairwise fun one other => one.bits.toNat < other.bits.toNat

structure RelayOutcome where
  returned : Bool
  event : Option ReviewWorkflowOutboxRow
  cursor : Option String

/-- The first due event, in the order of the organizations. -/
def claimedEvent (s : Delivery) (cursor : Option String) (now : Time) (locked : List Uuid) :
    Option ReviewWorkflowOutboxRow :=
  (fairOrganizationOrder cursor s.organizations).findSome? fun organizationId =>
    (leasable s organizationId now locked).head?

/-- Where a call leaves the cursor. -/
def cursorAfter (cursor : Option String) : Option ReviewWorkflowOutboxRow → Option String
  | none => cursor
  | some event => some event.organizationId.str

def RelayMoment.claimed (moment : RelayMoment) (cursor : Option String) :
    Option ReviewWorkflowOutboxRow :=
  claimedEvent moment.store cursor moment.now moment.locked

/-- `relay_once`, as far as the organizations go -/
def relayOnce (cursor : Option String) (moment : RelayMoment) : RelayOutcome :=
  let event := moment.claimed cursor
  ⟨event.isSome && moment.outcome.isOk, event, cursorAfter cursor event⟩

/-- Calls one after another. -/
def relayRun : Option String → List RelayMoment → List RelayOutcome
  | _, [] => []
  | cursor, moment :: moments =>
    let call := relayOnce cursor moment
    call :: relayRun call.cursor moments

/-- The organizations that calls have served: those of the events that they have published. -/
def servedOrganizations (calls : List RelayOutcome) : List Uuid :=
  calls.filterMap fun call => if call.returned then call.event.map (·.organizationId) else none

/-- The organization has due events that the call may lease. -/
def RelayMoment.Due (moment : RelayMoment) (organizationId : Uuid) : Prop :=
  organizationId ∈ moment.store.organizations ∧
    leasable moment.store organizationId moment.now moment.locked ≠ []

theorem mem_leasable {s : Delivery} {organizationId : Uuid} {now : Time} {locked : List Uuid}
    {row : ReviewWorkflowOutboxRow} :
    row ∈ leasable s organizationId now locked ↔
      row ∈ s.outbox ∧ row.deliveredAt = none ∧ row.nextAttemptAt.all (· ≤ now) ∧
        row.leaseExpiresAt.all (· ≤ now) ∧ row.organizationId = organizationId ∧
          row.id ∉ locked := by
  rw [leasable, inOrder, List.mem_mergeSort, List.mem_filter, decide_eq_true_eq]

theorem organization_of_leasable {s : Delivery} {organizationId : Uuid} {now : Time}
    {locked : List Uuid} {row : ReviewWorkflowOutboxRow}
    (member : row ∈ leasable s organizationId now locked) : row.organizationId = organizationId :=
  (mem_leasable.mp member).2.2.2.2.1

theorem findSome?_eq_head {α β : Type} (f : α → Option β) (items : List α) :
    items.findSome? f = (items.filter fun item => (f item).isSome).head?.bind f := by
  induction items with
  | nil => rfl
  | cons item items ih =>
      cases here : f item with
      | none => rw [List.findSome?_cons, here, List.filter_cons_of_neg (by simp [here]), ih]
      | some found => simp [here]

/-- The organizations with due events, in the order of the query. -/
def RelayMoment.dueOrganizations (moment : RelayMoment) : List Uuid :=
  moment.store.organizations.filter fun organizationId =>
    (leasable moment.store organizationId moment.now moment.locked).head?.isSome

theorem RelayMoment.mem_dueOrganizations {moment : RelayMoment} {organizationId : Uuid} :
    organizationId ∈ moment.dueOrganizations ↔ moment.Due organizationId := by
  simp [RelayMoment.dueOrganizations, List.mem_filter, List.isSome_head?, RelayMoment.Due]

theorem RelayMoment.ascending_due (moment : RelayMoment) :
    Ascending Uuid.str moment.dueOrganizations :=
  (ascending_str moment.ordered).sublist List.filter_sublist

/-- A call takes an event of the organization whose turn it is. -/
theorem RelayMoment.claimed_organization (moment : RelayMoment) (cursor : Option String) :
    (moment.claimed cursor).map (·.organizationId) =
      (turns Uuid.str cursor moment.dueOrganizations).head? := by
  rw [RelayMoment.claimed, claimedEvent, fairOrganizationOrder_eq, findSome?_eq_head, ←
    turns_filter (ascending_str moment.ordered), ← RelayMoment.dueOrganizations]
  cases first : (turns Uuid.str cursor moment.dueOrganizations).head? with
  | none => rfl
  | some organizationId =>
      have member := (turns_perm Uuid.str cursor moment.dueOrganizations).mem_iff.mp
        (List.mem_of_mem_head? first)
      rw [RelayMoment.dueOrganizations, List.mem_filter, Option.isSome_iff_exists] at member
      obtain ⟨-, event, claims⟩ := member
      rw [Option.bind_some, claims, Option.map_some,
        organization_of_leasable (List.mem_of_mem_head? claims)]

/-- A call returns that it has delivered where some organization has due events and its publisher
does not raise. -/
theorem returned_relayOnce {moment : RelayMoment} (due : ∃ organizationId, moment.Due organizationId)
    (published : moment.outcome.isOk = true) (cursor : Option String) :
    (relayOnce cursor moment).returned = true := by
  obtain ⟨organizationId, due⟩ := due
  have member := (turns_perm Uuid.str cursor moment.dueOrganizations).mem_iff.mpr
    (RelayMoment.mem_dueOrganizations.mpr due)
  have takes := moment.claimed_organization cursor
  cases claims : moment.claimed cursor with
  | none =>
      rw [claims, Option.map_none, eq_comm, List.head?_eq_none_iff] at takes
      rw [takes] at member
      cases member
  | some event => rw [relayOnce, claims, Option.isSome_some, Bool.true_and, published]

theorem returned_relayRun {moments : List RelayMoment}
    (meets : ∀ moment ∈ moments, (∃ organizationId, moment.Due organizationId) ∧
      moment.outcome.isOk = true) (cursor : Option String) :
    ∀ call ∈ relayRun cursor moments, call.returned = true := by
  induction moments generalizing cursor with
  | nil => simp [relayRun]
  | cons moment moments ih =>
      rw [relayRun, List.forall_mem_cons]
      have here := meets moment List.mem_cons_self
      exact ⟨returned_relayOnce here.1 here.2 cursor,
        ih (fun later member => meets later (List.mem_cons_of_mem moment member)) _⟩

/-! The cursor of a relay -/

/-- The cursor of the relay of an owner. -/
def Delivery.cursor (s : Delivery) (owner : String) : Option String :=
  (s.relays.find? fun relay => relay.owner = owner).bind (·.organizationCursor)

theorem find?_setCall (relays : List WorkflowOutboxRelay) (changed : String)
    (call : Option RelayCall) (owner : String) :
    ((setCall relays changed call).find? fun relay => relay.owner = owner).bind
        (·.organizationCursor) =
      (relays.find? fun relay => relay.owner = owner).bind (·.organizationCursor) := by
  rw [setCall, find?_update, Option.bind_map]
  · congr 1
    funext relay
    by_cases hit : relay.owner = changed <;> simp [hit]
  · intro relay
    rfl

theorem leaseEvent_eq (s : Delivery) (relay : WorkflowOutboxRelay) (now : Time)
    (locked : List Uuid) :
    leaseEvent s relay now locked =
      match claimedEvent s relay.organizationCursor now locked with
      | none => { s with latest := max s.latest now }
      | some event => { s with
          outbox := update (·.id) s.outbox event.id fun row => { row with
            leaseOwner := some relay.owner, leaseExpiresAt := some (now + leaseSeconds) }
          relays := update (·.owner) s.relays relay.owner fun relay => { relay with
            organizationCursor := some event.organizationId.str
            call := some ⟨event, now, none, s.leases.length⟩ }
          leases := s.leases ++ [(event.id, relay.owner)]
          latest := max s.latest now } := rfl

/-- A lease leaves the cursor of the relay where its call leaves it. -/
theorem cursor_leaseEvent {s : Delivery} {relay : WorkflowOutboxRelay}
    (found : (s.relays.find? fun other => other.owner = relay.owner) = some relay) (now : Time)
    (locked : List Uuid) :
    (leaseEvent s relay now locked).cursor relay.owner =
      cursorAfter (s.cursor relay.owner)
        (claimedEvent s (s.cursor relay.owner) now locked) := by
  have place : s.cursor relay.owner = relay.organizationCursor := by
    rw [Delivery.cursor, found, Option.bind_some]
  rw [leaseEvent_eq, place]
  cases claimedEvent s relay.organizationCursor now locked with
  | none => exact place
  | some event =>
      rw [Delivery.cursor]
      dsimp only
      rw [find?_update, found]
      · simp [cursorAfter]
      · intro row
        rfl

theorem cursor_leaseEvent_of_ne {s : Delivery} {relay : WorkflowOutboxRelay} {owner : String}
    (apart : owner ≠ relay.owner) (now : Time) (locked : List Uuid) :
    (leaseEvent s relay now locked).cursor owner = s.cursor owner := by
  rw [leaseEvent_eq]
  cases claimedEvent s relay.organizationCursor now locked with
  | none => rfl
  | some event =>
      rw [Delivery.cursor, Delivery.cursor]
      dsimp only
      rw [find?_update]
      · cases there : s.relays.find? fun row => row.owner = owner with
        | none => rfl
        | some row =>
            have called : row.owner = owner := by simpa using List.find?_some there
            simp [called, apart]
      · intro row
        rfl

/-- Between its leases nothing moves the cursor of a relay. -/
theorem cursor_deliveryStep {s : Delivery} {step : DeliveryStep} {owner : String}
    (there : owner ∈ s.relays.map (·.owner))
    (quiet : ∀ now locked, step ≠ .leaseEvent owner now locked) :
    (deliveryStep s step).cursor owner = s.cursor owner := by
  cases step with
  | emit row =>
      rw [deliveryStep]
      split <;> rfl
  | requestDeletion agreementId => rfl
  | purge agreementId =>
      rw [deliveryStep]
      split <;> rfl
  | startRelay started =>
      rw [deliveryStep]
      split
      · rfl
      · have here : (s.relays.find? fun relay => relay.owner = owner).isSome := by
          rw [List.find?_isSome]
          simpa using there
        rw [Delivery.cursor, Delivery.cursor, List.find?_append, Option.or_of_isSome here]
  | leaseEvent leasing now locked =>
      have apart : owner ≠ leasing := by
        rintro rfl
        exact quiet now locked rfl
      rw [deliveryStep]
      split
      · rfl
      · next relay found =>
          have named := List.find?_some found
          rw [decide_eq_true_eq] at named
          exact cursor_leaseEvent_of_ne (named.1 ▸ apart) now locked
  | relayPublish publishing outcome =>
      rw [deliveryStep]
      split
      · rfl
      · split
        · rfl
        · exact find?_setCall ..
  | finishRelay finishing =>
      rw [deliveryStep]
      split
      · rfl
      · rw [finishRelay]
        split
        · rfl
        · exact find?_setCall ..
        · exact find?_setCall ..
  | dropRelay dropping => exact find?_setCall ..
  | startDispatch id organizationId limit =>
      rw [deliveryStep]
      split <;> rfl
  | dispatchPublish id returns =>
      rw [deliveryStep]
      split
      · split <;> rfl
      · rfl
  | dispatchMark id now =>
      rw [deliveryStep]
      split
      · split <;> rfl
      · rfl
  | dropDispatch id => rfl

/-! Runs of calls -/

theorem events_relayRun {due : List Uuid} (some_ : due ≠ []) {moments : List RelayMoment}
    (always : ∀ moment ∈ moments, moment.dueOrganizations = due) (cursor : Option String) :
    (relayRun cursor moments).map (fun call => call.event.map (·.organizationId)) =
      (served Uuid.str due cursor moments.length).map some := by
  induction moments generalizing cursor with
  | nil => rfl
  | cons moment moments ih =>
      have here := moment.claimed_organization cursor
      rw [always moment List.mem_cons_self] at here
      have rest := ih fun later member => always later (List.mem_cons_of_mem moment member)
      rw [relayRun, List.map_cons, List.length_cons, served]
      cases first : (turns Uuid.str cursor due).head? with
      | none =>
          have nothing := (turns_perm Uuid.str cursor due).length_eq
          rw [List.head?_eq_none_iff.mp first, List.length_nil] at nothing
          exact absurd (List.length_eq_zero_iff.mp nothing.symm) some_
      | some organizationId =>
          rw [first, Option.map_eq_some_iff] at here
          obtain ⟨event, claims, same⟩ := here
          have call : relayOnce cursor moment =
              ⟨moment.outcome.isOk, some event, some event.organizationId.str⟩ := by
            rw [relayOnce, claims]
            rfl
          rw [call, List.map_cons, ← rest, ← same]
          rfl

theorem servedOrganizations_of_returned {calls : List RelayOutcome}
    (successful : ∀ call ∈ calls, call.returned = true) :
    servedOrganizations calls =
      (calls.map fun call => call.event.map (·.organizationId)).filterMap id := by
  rw [servedOrganizations, List.filterMap_map]
  apply List.filterMap_congr
  intro call member
  rw [if_pos (successful call member)]
  rfl

/-- Calls of which there are as many as organizations with due events serve them in turn. -/
theorem servedOrganizations_eq {due : List Uuid} {moments : List RelayMoment}
    (always : ∀ moment ∈ moments, moment.dueOrganizations = due)
    (many : moments.length = due.length) (cursor : Option String)
    (successful : ∀ call ∈ relayRun cursor moments, call.returned = true) :
    servedOrganizations (relayRun cursor moments) = turns Uuid.str cursor due := by
  cases moments with
  | nil =>
      rw [List.length_nil] at many
      rw [List.length_eq_zero_iff.mp many.symm]
      cases cursor <;> rfl
  | cons moment moments =>
      have here := always moment List.mem_cons_self
      have some_ : due ≠ [] := by
        rintro rfl
        cases many
      have ascending : Ascending Uuid.str due := here ▸ moment.ascending_due
      rw [servedOrganizations_of_returned successful, events_relayRun some_ always, many,
        served_eq ascending le_rfl, ← (turns_perm Uuid.str cursor due).length_eq, List.take_length]
      simp

theorem dueOrganizations_eq {one other : RelayMoment}
    (same : ∀ organizationId, one.Due organizationId ↔ other.Due organizationId) :
    one.dueOrganizations = other.dueOrganizations := by
  apply one.ascending_due.eq_of_mem_iff other.ascending_due
  intro organizationId
  rw [RelayMoment.mem_dueOrganizations, RelayMoment.mem_dueOrganizations]
  exact same organizationId

/-- The order of a call is a rotation of the ordered organizations that begins behind the cursor, and
where the same organizations have due events at every call, as many successful calls as there are such
organizations serve each of them exactly once. -/
theorem relay_fair :
    (∀ (cursor : Option String) (organizations : List Uuid), ∃ before after,
      sortedByText organizations = before ++ after ∧
        fairOrganizationOrder cursor (sortedByText organizations) = after ++ before ∧
        (cursor = none → before = []) ∧
        ∀ place ∈ cursor, (∀ organizationId ∈ before, organizationId.str ≤ place) ∧
          ∀ organizationId ∈ after, place < organizationId.str) ∧
      ∀ (cursor : Option String) (due : Finset Uuid) (moments : List RelayMoment),
        moments.length = due.card →
        (∀ moment ∈ moments, ∀ organizationId, moment.Due organizationId ↔ organizationId ∈ due) →
        (∀ call ∈ relayRun cursor moments, call.returned = true) →
        ∀ organizationId ∈ due,
          (servedOrganizations (relayRun cursor moments)).count organizationId = 1 := by
  refine ⟨fairOrganizationOrder_rotates, ?_⟩
  intro cursor due moments many always successful organizationId member
  cases moments with
  | nil =>
      rw [Finset.card_eq_zero.mp many.symm] at member
      simp at member
  | cons moment moments =>
      have here := always moment List.mem_cons_self
      have same : ∀ other ∈ moment :: moments,
          other.dueOrganizations = moment.dueOrganizations := by
        intro other among
        apply dueOrganizations_eq
        intro organizationId
        rw [always other among, here]
      have whole : moment.dueOrganizations.toFinset = due := by
        ext organizationId
        rw [List.mem_toFinset, RelayMoment.mem_dueOrganizations, here]
      have distinct := moment.ascending_due.nodup
      have number : moment.dueOrganizations.length = due.card := by
        rw [← whole, List.toFinset_card_of_nodup distinct]
      have perm := turns_perm Uuid.str cursor moment.dueOrganizations
      rw [servedOrganizations_eq same (many.trans number.symm) cursor successful,
        perm.count_eq]
      apply List.count_eq_one_of_mem distinct
      rwa [← List.mem_toFinset, whole]

/-! Two organizations and three events -/

def turnRow (id organizationId : ℕ) (deliveredAt : Option Time) : ReviewWorkflowOutboxRow :=
  { sampleRow with
    id := .ofNat id, organizationId := .ofNat organizationId, deliveredAt := deliveredAt }

/-- The first call delivers the first event of the first organization. -/
def turnDelivery (deliveredAt : Option Time) : Delivery :=
  { sampleDelivery with
    organizations := [.ofNat 1, .ofNat 2]
    outbox := [turnRow 5 1 deliveredAt, turnRow 6 1 none, turnRow 7 2 none] }

def turnMoments : List RelayMoment :=
  [⟨turnDelivery none, 10, [], .ok (), by decide⟩, ⟨turnDelivery (some 10), 11, [], .ok (), by decide⟩]

theorem due_turnMoments {moment : RelayMoment} (member : moment ∈ turnMoments)
    (organizationId : Uuid) :
    moment.Due organizationId ↔ organizationId ∈ ({.ofNat 1, .ofNat 2} : Finset Uuid) := by
  have waiting : turnRow 6 1 none ∈ leasable moment.store (.ofNat 1) moment.now moment.locked ∧
      turnRow 7 2 none ∈ leasable moment.store (.ofNat 2) moment.now moment.locked ∧
      moment.store.organizations = [.ofNat 1, .ofNat 2] := by
    simp only [mem_leasable]
    revert moment
    decide
  obtain ⟨first, second, organizations⟩ := waiting
  rw [RelayMoment.Due, organizations]
  constructor
  · intro due
    simpa using due.1
  · intro among
    rw [Finset.mem_insert, Finset.mem_singleton] at among
    rcases among with rfl | rfl
    · exact ⟨by simp, List.ne_nil_of_mem first⟩
    · exact ⟨by simp, List.ne_nil_of_mem second⟩

theorem relay_fair_two :
    ∀ organizationId ∈ ({.ofNat 1, .ofNat 2} : Finset Uuid),
      (servedOrganizations (relayRun none turnMoments)).count organizationId = 1 := by
  apply relay_fair.2 none {.ofNat 1, .ofNat 2} turnMoments (by decide)
  · exact fun moment member => due_turnMoments member
  · apply returned_relayRun
    intro moment member
    refine ⟨⟨.ofNat 1, (due_turnMoments member _).mpr (by simp)⟩, ?_⟩
    revert moment
    decide

end AgreementIntelligence.Reviews
