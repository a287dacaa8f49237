import AgreementIntelligence.Identity
import AgreementIntelligence.Lib.Runs
import AgreementIntelligence.Lib.Table

/-! The delivery of workflow events to the queue. The relays of the workers lease a row, publish
it and mark it; the dispatcher of the API publishes pending rows and marks them without a lease.
Every transaction and every publication is a step of its own, so a publisher can die between
any two, and its lease can run out under it. -/

namespace AgreementIntelligence.Reviews
open Identity Lib.Table

/-- A row of `review_workflow_outbox`, with the agreement of its review case. -/
structure ReviewWorkflowOutboxRow where
  id : Uuid
  organizationId : Uuid
  workspaceId : Uuid
  workflowId : Uuid
  agreementId : Uuid
  idempotencyKey : String
  createdAt : Time
  deliveredAt : Option Time
  attemptCount : Nat
  nextAttemptAt : Option Time
  leaseOwner : Option String
  leaseExpiresAt : Option Time
  lastError : Option String
  deriving DecidableEq, Repr

/-- An event in the hands of a relay. -/
structure RelayCall where
  event : ReviewWorkflowOutboxRow
  current : Time
  /-- What `publish` has returned or raised. -/
  published : Option (Except String Unit)
  /-- The place of the lease among all leases. -/
  lease : Nat

structure WorkflowOutboxRelay where
  owner : String
  organizationCursor : Option String
  call : Option RelayCall

/-- `dispatch_pending` on its way through the rows that it has read. -/
structure DispatchCall where
  id : Nat
  events : List Uuid
  /-- The publication of the first row has returned. -/
  published : Bool

structure Delivery where
  organizations : List Uuid
  deletionRequested : List Uuid
  outbox : List ReviewWorkflowOutboxRow
  relays : List WorkflowOutboxRelay
  dispatches : List DispatchCall
  /-- The ids that have been drawn for events. -/
  emitted : List Uuid
  /-- The events whose publication has returned, in order. -/
  published : List Uuid
  /-- The leases that relays have taken: the event and the owner. -/
  leases : List (Uuid × String)
  /-- The latest reading of a clock. -/
  latest : Time

/-! The relay -/

def leaseSeconds : Time := 30

/-- `ORDER BY created_at, id` -/
def inOrder (rows : List ReviewWorkflowOutboxRow) : List ReviewWorkflowOutboxRow :=
  rows.mergeSort fun a b => a.createdAt < b.createdAt ∨
    a.createdAt = b.createdAt ∧ a.id.bits.toNat ≤ b.id.bits.toNat

/-- The rows of an organization that a relay may lease, without the ones that others hold
locked. -/
def leasable (s : Delivery) (organizationId : Uuid) (now : Time) (locked : List Uuid) :
    List ReviewWorkflowOutboxRow :=
  inOrder (s.outbox.filter fun row => row.deliveredAt = none ∧ row.nextAttemptAt.all (· ≤ now) ∧
    row.leaseExpiresAt.all (· ≤ now) ∧ row.organizationId = organizationId ∧ row.id ∉ locked)

/-- `_fair_organization_order` -/
def fairOrganizationOrder (cursor : Option String) (organizations : List Uuid) : List Uuid :=
  match cursor with
  | none => organizations
  | some cursor =>
    match organizations.findIdx? fun organizationId => cursor < organizationId.str with
    | none => organizations
    | some index => organizations.drop index ++ organizations.take index

/-- The update of a row that a relay still holds. -/
def updateLeased (rows : List ReviewWorkflowOutboxRow) (owner : String) (id : Uuid)
    (change : ReviewWorkflowOutboxRow → ReviewWorkflowOutboxRow) : List ReviewWorkflowOutboxRow :=
  rows.map fun row =>
    if row.id = id ∧ row.leaseOwner = some owner ∧ row.deliveredAt = none then change row else row

def setCall (relays : List WorkflowOutboxRelay) (owner : String) (call : Option RelayCall) :
    List WorkflowOutboxRelay :=
  update (·.owner) relays owner fun relay => { relay with call := call }

/-- The first transaction of `relay_once`. -/
def leaseEvent (s : Delivery) (relay : WorkflowOutboxRelay) (now : Time) (locked : List Uuid) :
    Delivery :=
  match (fairOrganizationOrder relay.organizationCursor s.organizations).findSome?
      fun organizationId => (leasable s organizationId now locked).head? with
  | none => { s with latest := max s.latest now }
  | some event => { s with
      outbox := update (·.id) s.outbox event.id fun row => { row with
        leaseOwner := some relay.owner, leaseExpiresAt := some (now + leaseSeconds) }
      relays := update (·.owner) s.relays relay.owner fun relay => { relay with
        organizationCursor := some event.organizationId.str
        call := some ⟨event, now, none, s.leases.length⟩ }
      leases := s.leases ++ [(event.id, relay.owner)]
      latest := max s.latest now }

/-- The row once its publication has returned. -/
def RelayCall.mark (call : RelayCall) (row : ReviewWorkflowOutboxRow) : ReviewWorkflowOutboxRow :=
  { row with
    deliveredAt := some call.current, leaseOwner := none, leaseExpiresAt := none
    lastError := none }

/-- The row once its publication has raised: due again after a delay. -/
def RelayCall.delay (call : RelayCall) (error : String) (row : ReviewWorkflowOutboxRow) :
    ReviewWorkflowOutboxRow :=
  let attempt := call.event.attemptCount + 1
  { row with
    attemptCount := attempt, nextAttemptAt := some (call.current + min 300 (2 ^ min attempt 8))
    lastError := some (String.ofList (error.toList.take 512)), leaseOwner := none
    leaseExpiresAt := none }

/-- The last transaction of `relay_once`. -/
def finishRelay (s : Delivery) (owner : String) (call : RelayCall) : Delivery :=
  match call.published with
  | none => s
  | some (.ok _) => { s with
      outbox := updateLeased s.outbox owner call.event.id call.mark
      relays := setCall s.relays owner none }
  | some (.error error) => { s with
      outbox := updateLeased s.outbox owner call.event.id (call.delay error)
      relays := setCall s.relays owner none }

/-! The dispatcher -/

/-- The rows that the dispatcher reads, under the tenant scope of its transaction. -/
def dispatchable (s : Delivery) (organizationId : Uuid) : List ReviewWorkflowOutboxRow :=
  inOrder (s.outbox.filter fun row => row.deliveredAt = none ∧
    row.agreementId ∉ s.deletionRequested ∧ row.organizationId = organizationId)

/-- The dispatch goes on with other rows, or ends. -/
def setDispatch (dispatches : List DispatchCall) (id : Nat) (events : List Uuid)
    (published : Bool) : List DispatchCall :=
  update (·.id) dispatches id fun call => { call with events := events, published := published }

/-! Steps -/

inductive DeliveryStep where
  /-- A coordinator call commits an event. -/
  | emit (row : ReviewWorkflowOutboxRow)
  | requestDeletion (agreementId : Uuid)
  | purge (agreementId : Uuid)
  | startRelay (owner : String)
  | leaseEvent (owner : String) (now : Time) (locked : List Uuid)
  | relayPublish (owner : String) (outcome : Except String Unit)
  | finishRelay (owner : String)
  /-- The relay dies, or its last transaction raises. -/
  | dropRelay (owner : String)
  | startDispatch (id : Nat) (organizationId : Uuid) (limit : Nat)
  | dispatchPublish (id : Nat) (returns : Bool)
  | dispatchMark (id : Nat) (now : Time)
  | dropDispatch (id : Nat)

/-- An event as `_emit` inserts it. -/
def ReviewWorkflowOutboxRow.emitted (row : ReviewWorkflowOutboxRow) : ReviewWorkflowOutboxRow :=
  { row with
    deliveredAt := none, attemptCount := 0, nextAttemptAt := none, leaseOwner := none
    leaseExpiresAt := none, lastError := none }

def deliveryStep (s : Delivery) : DeliveryStep → Delivery
  | .emit row =>
    if row.id ∉ s.emitted ∧ row.organizationId ∈ s.organizations then
      { s with outbox := s.outbox ++ [row.emitted], emitted := s.emitted ++ [row.id] }
    else s
  | .requestDeletion agreementId =>
    { s with deletionRequested := s.deletionRequested ++ [agreementId] }
  | .purge agreementId =>
    if agreementId ∈ s.deletionRequested then
      { s with outbox := s.outbox.filter fun row => row.agreementId ≠ agreementId }
    else s
  | .startRelay owner =>
    if owner ∈ s.relays.map (·.owner) then s
    else { s with relays := s.relays ++ [⟨owner, none, none⟩] }
  | .leaseEvent owner now locked =>
    match s.relays.find? fun relay => relay.owner = owner ∧ relay.call.isNone with
    | none => s
    | some relay => leaseEvent s relay now locked
  | .relayPublish owner outcome =>
    match (s.relays.find? fun relay => relay.owner = owner).bind (·.call) with
    | none => s
    | some call =>
      if call.published.isSome then s else
      { s with
        relays := setCall s.relays owner (some { call with published := some outcome })
        published := s.published ++ if outcome.isOk then [call.event.id] else [] }
  | .finishRelay owner =>
    match (s.relays.find? fun relay => relay.owner = owner).bind (·.call) with
    | none => s
    | some call => finishRelay s owner call
  | .dropRelay owner => { s with relays := setCall s.relays owner none }
  | .startDispatch id organizationId limit =>
    if id ∈ s.dispatches.map (·.id) then s
    else { s with dispatches := s.dispatches ++
      [⟨id, ((dispatchable s organizationId).take limit).map (·.id), false⟩] }
  | .dispatchPublish id returns =>
    match s.dispatches.find? fun call => call.id = id with
    | some ⟨_, event :: rest, false⟩ =>
      if returns then { s with
        dispatches := setDispatch s.dispatches id (event :: rest) true
        published := s.published ++ [event] }
      else { s with dispatches := setDispatch s.dispatches id [] false }
    | _ => s
  | .dispatchMark id now =>
    match s.dispatches.find? fun call => call.id = id with
    | some ⟨_, event :: rest, true⟩ =>
      -- the session raises when the row is gone
      if event ∈ s.outbox.map (·.id) then { s with
        outbox := update (·.id) s.outbox event fun row => { row with deliveredAt := some now }
        dispatches := setDispatch s.dispatches id rest false
        latest := max s.latest now }
      else { s with dispatches := setDispatch s.dispatches id [] false }
    | _ => s
  | .dropDispatch id => { s with dispatches := setDispatch s.dispatches id [] false }

structure Delivery.Initial (s : Delivery) : Prop where
  outbox : s.outbox = []
  relays : s.relays = []
  dispatches : s.dispatches = []
  published : s.published = []

/-! One event and one relay -/

def sampleRow : ReviewWorkflowOutboxRow where
  id := .ofNat 5
  organizationId := .ofNat 1
  workspaceId := .ofNat 2
  workflowId := .ofNat 4
  agreementId := .ofNat 3
  idempotencyKey := "workflow:4:started"
  createdAt := 10
  deliveredAt := none
  attemptCount := 0
  nextAttemptAt := none
  leaseOwner := none
  leaseExpiresAt := none
  lastError := none

def sampleDelivery : Delivery where
  organizations := [.ofNat 1]
  deletionRequested := []
  outbox := []
  relays := []
  dispatches := []
  emitted := []
  published := []
  leases := []
  latest := 0

/-- The relay dies after its publication, and another one leases the event again. -/
def sampleDeliverySteps : List DeliveryStep :=
  [.emit sampleRow, .startRelay "a", .leaseEvent "a" 10 [], .relayPublish "a" (.ok ()),
    .startRelay "b", .leaseEvent "b" 40 [], .finishRelay "a"]

end AgreementIntelligence.Reviews
