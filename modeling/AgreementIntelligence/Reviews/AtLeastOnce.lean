import AgreementIntelligence.Reviews.Delivery

/-! Workflow events are delivered at least once. What a publisher marks has been published, a
relay that has lost its lease changes nothing, and a row that nobody has marked can be taken
again as soon as its delay and its lease have run out. -/

namespace AgreementIntelligence.Reviews
open Identity Lib.Table Lib.Runs

theorem mem_setCall {relays : List WorkflowOutboxRelay} {owner : String} {call : Option RelayCall}
    {relay : WorkflowOutboxRelay} (member : relay ∈ setCall relays owner call) :
    relay.owner = owner ∧ relay.call = call ∨ relay.owner ≠ owner ∧ relay ∈ relays := by
  obtain ⟨old, there, rfl⟩ := mem_update.mp member
  by_cases named : old.owner = owner
  · rw [if_pos named]
    exact .inl ⟨named, rfl⟩
  · rw [if_neg named]
    exact .inr ⟨named, there⟩

theorem mem_setDispatch {dispatches : List DispatchCall} {id : Nat} {events : List Uuid}
    {published : Bool} {call : DispatchCall}
    (member : call ∈ setDispatch dispatches id events published) :
    call.events = events ∧ call.published = published ∨ call ∈ dispatches := by
  obtain ⟨old, there, rfl⟩ := mem_update.mp member
  by_cases named : old.id = id
  · rw [if_pos named]
    exact .inl ⟨rfl, rfl⟩
  · rw [if_neg named]
    exact .inr there

/-- A later lease of the event of a call. -/
def LeasedAgain (leases : List (Uuid × String)) (call : RelayCall) : Prop :=
  ∃ j entry, call.lease < j ∧ leases[j]? = some entry ∧ entry.1 = call.event.id

/-- The delays that a row may carry when a clock has read `latest`. -/
def ReviewWorkflowOutboxRow.DueBy (row : ReviewWorkflowOutboxRow) (latest : Time) : Prop :=
  (∀ time ∈ row.nextAttemptAt, time ≤ latest + 300) ∧
    ∀ time ∈ row.leaseExpiresAt, time ≤ latest + 300

theorem ReviewWorkflowOutboxRow.DueBy.mono {row : ReviewWorkflowOutboxRow} {first second : Time}
    (due : row.DueBy first) (later : first ≤ second) : row.DueBy second := by
  have bound : first + 300 ≤ second + 300 := Nat.add_le_add_right later 300
  exact ⟨fun time some_ => Nat.le_trans (due.1 time some_) bound,
    fun time some_ => Nat.le_trans (due.2 time some_) bound⟩

structure Delivery.Sound (s : Delivery) : Prop where
  owners : (s.relays.map (·.owner)).Nodup
  marked : ∀ row ∈ s.outbox, row.deliveredAt ≠ none → row.id ∈ s.published
  returned : ∀ relay ∈ s.relays, ∀ call, relay.call = some call →
    call.published = some (.ok ()) → call.event.id ∈ s.published
  dispatched : ∀ call ∈ s.dispatches, call.published = true →
    ∀ event ∈ call.events.head?, event ∈ s.published
  started : ∀ relay ∈ s.relays, ∀ call, relay.call = some call → call.current ≤ s.latest
  due : ∀ row ∈ s.outbox, row.DueBy s.latest
  tenant : ∀ row ∈ s.outbox, row.organizationId ∈ s.organizations
  placed : ∀ relay ∈ s.relays, ∀ call, relay.call = some call → call.lease < s.leases.length
  held : ∀ relay ∈ s.relays, ∀ call, relay.call = some call → ∀ row ∈ s.outbox,
    row.id = call.event.id → row.leaseOwner = some relay.owner → ¬ LeasedAgain s.leases call

theorem Delivery.Initial.sound {s : Delivery} (initial : s.Initial) : s.Sound := by
  obtain ⟨outbox, relays, dispatches, -⟩ := initial
  constructor <;> simp [outbox, relays, dispatches]

section Steps
variable {s : Delivery}

/-- Rows rewritten in place: what a change must leave for the invariant to stay. -/
theorem Delivery.Sound.mapRows (sound : s.Sound)
    {change : ReviewWorkflowOutboxRow → ReviewWorkflowOutboxRow}
    (id : ∀ row, (change row).id = row.id)
    (organization : ∀ row, (change row).organizationId = row.organizationId)
    (marked : ∀ row ∈ s.outbox, (change row).deliveredAt ≠ none → row.id ∈ s.published)
    (due : ∀ row ∈ s.outbox, (change row).DueBy s.latest)
    (owner : ∀ row ∈ s.outbox, ∀ owner, (change row).leaseOwner = some owner →
      row.leaseOwner = some owner) :
    Delivery.Sound { s with outbox := s.outbox.map change } :=
  { sound with
    marked := fun row member delivered => by
      obtain ⟨old, there, rfl⟩ := List.mem_map.mp member
      rw [id]
      exact marked old there delivered
    due := fun row member => by
      obtain ⟨old, there, rfl⟩ := List.mem_map.mp member
      exact due old there
    tenant := fun row member => by
      obtain ⟨old, there, rfl⟩ := List.mem_map.mp member
      rw [organization]
      exact sound.tenant old there
    held := fun relay inside call running row member named leased => by
      obtain ⟨old, there, rfl⟩ := List.mem_map.mp member
      exact sound.held relay inside call running old there ((id old).symm.trans named)
        (owner old there relay.owner leased) }

/-- A relay goes on with its call, or ends it. -/
theorem Delivery.Sound.setCall (sound : s.Sound) (owner : String) {call : Option RelayCall}
    (goes : ∀ next ∈ call, ∃ relay ∈ s.relays, relay.owner = owner ∧ ∃ running,
      relay.call = some running ∧ next.event = running.event ∧ next.current = running.current ∧
        next.lease = running.lease ∧
          (next.published = some (.ok ()) → next.event.id ∈ s.published)) :
    Delivery.Sound { s with relays := setCall s.relays owner call } := by
  have owners : (Reviews.setCall s.relays owner call).map (·.owner) = s.relays.map (·.owner) :=
    map_update fun _ => rfl
  exact { sound with
    owners := owners ▸ sound.owners
    returned := fun relay member next running ok => by
      rcases mem_setCall member with ⟨named, same⟩ | ⟨-, there⟩
      · obtain ⟨old, -, -, before, -, -, -, -, published⟩ := goes next (same ▸ running)
        exact published ok
      · exact sound.returned relay there next running ok
    started := fun relay member next running => by
      rcases mem_setCall member with ⟨named, same⟩ | ⟨-, there⟩
      · obtain ⟨old, inside, -, before, ran, -, current, -⟩ := goes next (same ▸ running)
        exact current ▸ sound.started old inside before ran
      · exact sound.started relay there next running
    placed := fun relay member next running => by
      rcases mem_setCall member with ⟨named, same⟩ | ⟨-, there⟩
      · obtain ⟨old, inside, -, before, ran, -, -, lease, -⟩ := goes next (same ▸ running)
        exact lease ▸ sound.placed old inside before ran
      · exact sound.placed relay there next running
    held := fun relay member next running row there named leased => by
      rcases mem_setCall member with ⟨own, same⟩ | ⟨-, present⟩
      · obtain ⟨old, inside, of_, before, ran, event, -, lease, -⟩ := goes next (same ▸ running)
        have kept := sound.held old inside before ran row there (event ▸ named)
          (leased.trans (congrArg some (own.trans of_.symm)))
        simp only [LeasedAgain, event, lease] at kept ⊢
        exact kept
      · exact sound.held relay present next running row there named leased }

theorem mem_inOrder {rows : List ReviewWorkflowOutboxRow} {row : ReviewWorkflowOutboxRow} :
    row ∈ inOrder rows ↔ row ∈ rows := List.mem_mergeSort

theorem LeasedAgain.of_concat {leases : List (Uuid × String)} {entry : Uuid × String}
    {call : RelayCall} (again : LeasedAgain (leases ++ [entry]) call) :
    LeasedAgain leases call ∨ call.lease < leases.length ∧ entry.1 = call.event.id := by
  obtain ⟨j, found, later, here, same⟩ := again
  rcases Nat.lt_trichotomy j leases.length with inside | last | beyond
  · rw [List.getElem?_append_left inside] at here
    exact .inl ⟨j, found, later, here, same⟩
  · subst last
    rw [List.getElem?_concat_length] at here
    cases here
    exact .inr ⟨later, same⟩
  · have short : (leases ++ [entry]).length ≤ j := by
      rw [List.length_append, List.length_singleton]
      omega
    rw [List.getElem?_eq_none short] at here
    cases here

/-- Only the time goes on. -/
theorem Delivery.Sound.tick (sound : s.Sound) (now : Time) :
    Delivery.Sound { s with latest := max s.latest now } :=
  { sound with
    started := fun relay member call running =>
      Nat.le_trans (sound.started relay member call running) (Nat.le_max_left _ _)
    due := fun row member => (sound.due row member).mono (Nat.le_max_left _ _) }

theorem Delivery.Sound.leaseEvent (sound : s.Sound) {relay : WorkflowOutboxRelay} (now : Time)
    (locked : List Uuid) : (leaseEvent s relay now locked).Sound := by
  unfold Reviews.leaseEvent
  split
  · exact sound.tick now
  rename_i event found
  have ticked := sound.tick now
  have owners : (update (·.owner) s.relays relay.owner fun relay => { relay with
      organizationCursor := some event.organizationId.str
      call := some ⟨event, now, none, s.leases.length⟩ }).map (·.owner) =
        s.relays.map (·.owner) := map_update fun _ => rfl
  have relays {other : WorkflowOutboxRelay} {call : RelayCall}
      (member : other ∈ update (·.owner) s.relays relay.owner fun relay => { relay with
        organizationCursor := some event.organizationId.str
        call := some ⟨event, now, none, s.leases.length⟩ })
      (running : other.call = some call) :
      call = ⟨event, now, none, s.leases.length⟩ ∨ other.owner ≠ relay.owner ∧ other ∈ s.relays := by
    obtain ⟨old, there, rfl⟩ := mem_update.mp member
    by_cases named : old.owner = relay.owner
    · rw [if_pos named] at running
      exact .inl (Option.some.inj running).symm
    · rw [if_neg named]
      exact .inr ⟨named, there⟩
  exact {
    owners := owners ▸ sound.owners
    marked := fun row member delivered => by
      obtain ⟨old, there, rfl⟩ := mem_update.mp member
      split at delivered
      · rename_i here
        rw [if_pos here]
        exact sound.marked old there delivered
      · rename_i other
        rw [if_neg other]
        exact sound.marked old there delivered
    returned := fun other member call running ok => by
      rcases relays member running with rfl | ⟨-, there⟩
      · cases ok
      · exact sound.returned other there call running ok
    dispatched := sound.dispatched
    started := fun other member call running => by
      rcases relays member running with rfl | ⟨-, there⟩
      · exact Nat.le_max_right _ _
      · exact ticked.started other there call running
    due := fun row member => by
      obtain ⟨old, there, rfl⟩ := mem_update.mp member
      have before := ticked.due old there
      split
      · refine ⟨before.1, fun time held => ?_⟩
        cases held
        exact Nat.add_le_add (Nat.le_max_right s.latest now) (show leaseSeconds ≤ 300 by decide)
      · exact before
    tenant := fun row member => by
      obtain ⟨old, there, rfl⟩ := mem_update.mp member
      split <;> exact sound.tenant old there
    placed := fun other member call running => by
      rw [List.length_append, List.length_singleton]
      rcases relays member running with rfl | ⟨-, there⟩
      · exact Nat.lt_succ_self _
      · exact Nat.lt_succ_of_lt (sound.placed other there call running)
    held := fun other member call running row inside named leased again => by
      rcases relays member running with rfl | ⟨apart, there⟩
      · rcases again.of_concat with ⟨j, entry, later, here, -⟩ | ⟨later, -⟩
        · rw [List.getElem?_eq_none (Nat.le_of_lt later)] at here
          cases here
        · exact absurd later (Nat.lt_irrefl _)
      · obtain ⟨old, present, rfl⟩ := mem_update.mp inside
        by_cases taken : old.id = event.id
        · rw [if_pos taken] at leased
          exact apart (Option.some.inj leased).symm
        · rw [if_neg taken] at named leased
          rcases again.of_concat with before | ⟨-, same⟩
          · exact sound.held other there call running old present named leased before
          · exact taken (named.trans same.symm) }

theorem Delivery.Sound.publish (sound : s.Sound) (events : List Uuid) :
    Delivery.Sound { s with published := s.published ++ events } :=
  { sound with
    marked := fun row member delivered =>
      List.mem_append_left _ (sound.marked row member delivered)
    returned := fun relay member call running ok =>
      List.mem_append_left _ (sound.returned relay member call running ok)
    dispatched := fun call member returned event first =>
      List.mem_append_left _ (sound.dispatched call member returned event first) }

/-- The rows after the mark or the delay of a relay. -/
theorem Delivery.Sound.updateLeased (sound : s.Sound) (owner : String) (id : Uuid)
    {change : ReviewWorkflowOutboxRow → ReviewWorkflowOutboxRow}
    (keeps : ∀ row, (change row).id = row.id ∧ (change row).organizationId = row.organizationId)
    (marked : ∀ row, row.id = id → (change row).deliveredAt ≠ none →
      row.deliveredAt ≠ none ∨ id ∈ s.published)
    (due : ∀ row, row.DueBy s.latest → (change row).DueBy s.latest)
    (unleased : ∀ row, (change row).leaseOwner = none) :
    Delivery.Sound { s with outbox := updateLeased s.outbox owner id change } := by
  refine sound.mapRows (fun row => ?_) (fun row => ?_) (fun row member delivered => ?_)
    (fun row member => ?_) fun row member other leased => ?_
  · split
    · exact (keeps row).1
    · rfl
  · split
    · exact (keeps row).2
    · rfl
  · split at delivered
    · rename_i hit
      rcases marked row hit.1 delivered with before | published
      · exact sound.marked row member before
      · exact hit.1 ▸ published
    · exact sound.marked row member delivered
  · split
    · exact due row (sound.due row member)
    · exact sound.due row member
  · split at leased
    · rw [unleased] at leased
      cases leased
    · exact leased

theorem Delivery.Sound.finishRelay (sound : s.Sound) {relay : WorkflowOutboxRelay}
    (member : relay ∈ s.relays) {call : RelayCall} (running : relay.call = some call) :
    (finishRelay s relay.owner call).Sound := by
  have started := sound.started relay member call running
  unfold Reviews.finishRelay
  split
  · exact sound
  · rename_i returned
    have marked : Delivery.Sound { s with
        outbox := Reviews.updateLeased s.outbox relay.owner call.event.id call.mark } := by
      apply sound.updateLeased
      · exact fun row => ⟨rfl, rfl⟩
      · exact fun row named delivered => .inr (sound.returned relay member call running returned)
      · exact fun row due => ⟨due.1, fun time leased => by cases leased⟩
      · exact fun row => rfl
    exact marked.setCall relay.owner fun next ends => by cases ends
  · rename_i error failed
    have delayed : Delivery.Sound { s with
        outbox := Reviews.updateLeased s.outbox relay.owner call.event.id (call.delay error) } := by
      apply sound.updateLeased
      · exact fun row => ⟨rfl, rfl⟩
      · exact fun row named delivered => .inl delivered
      · refine fun row due => ⟨fun time delayed => ?_, fun time leased => by cases leased⟩
        cases delayed
        exact Nat.add_le_add started (Nat.min_le_left 300 _)
      · exact fun row => rfl
    exact delayed.setCall relay.owner fun next ends => by cases ends

theorem Delivery.Sound.setDispatch (sound : s.Sound) (id : Nat) (events : List Uuid)
    {published : Bool} (returned : published = true → ∀ event ∈ events.head?, event ∈ s.published) :
    Delivery.Sound { s with dispatches := setDispatch s.dispatches id events published } :=
  { sound with
    dispatched := fun call member => by
      rcases mem_setDispatch member with ⟨same, equal⟩ | there
      · rw [same, equal]
        exact returned
      · exact sound.dispatched call there }

theorem exists_running {owner : String} {call : RelayCall}
    (found : (s.relays.find? fun relay => relay.owner = owner).bind (·.call) = some call) :
    ∃ relay ∈ s.relays, relay.owner = owner ∧ relay.call = some call := by
  obtain ⟨relay, here, running⟩ := Option.bind_eq_some_iff.mp found
  have named := List.find?_some here
  exact ⟨relay, List.mem_of_find?_eq_some here, of_decide_eq_true named, running⟩

theorem deliveryStep_sound (sound : s.Sound) (input : DeliveryStep) :
    (deliveryStep s input).Sound := by
  cases input with
  | emit row =>
      simp only [deliveryStep]
      split
      · rename_i inserts
        exact { sound with
          marked := fun other member delivered => by
            rcases List.mem_append.mp member with old | new
            · exact sound.marked other old delivered
            · rw [List.mem_singleton.mp new] at delivered
              exact absurd rfl delivered
          due := fun other member => by
            rcases List.mem_append.mp member with old | new
            · exact sound.due other old
            · rw [List.mem_singleton.mp new]
              refine ⟨fun time delayed => ?_, fun time leased => ?_⟩
              · cases delayed
              · cases leased
          tenant := fun other member => by
            rcases List.mem_append.mp member with old | new
            · exact sound.tenant other old
            · rw [List.mem_singleton.mp new]
              exact inserts.2
          held := fun relay inside call running other member named leased => by
            rcases List.mem_append.mp member with old | new
            · exact sound.held relay inside call running other old named leased
            · rw [List.mem_singleton.mp new] at leased
              cases leased }
      · exact sound
  | requestDeletion agreementId => exact { sound with }
  | purge agreementId =>
      simp only [deliveryStep]
      split
      · exact { sound with
          marked := fun row member => sound.marked row (List.mem_of_mem_filter member)
          due := fun row member => sound.due row (List.mem_of_mem_filter member)
          tenant := fun row member => sound.tenant row (List.mem_of_mem_filter member)
          held := fun relay inside call running row member =>
            sound.held relay inside call running row (List.mem_of_mem_filter member) }
      · exact sound
  | startRelay owner =>
      simp only [deliveryStep]
      split
      · exact sound
      · rename_i fresh
        have idle {relay : WorkflowOutboxRelay} {call : RelayCall}
            (member : relay ∈ s.relays ++ [⟨owner, none, none⟩])
            (running : relay.call = some call) : relay ∈ s.relays := by
          rcases List.mem_append.mp member with old | new
          · exact old
          · rw [List.mem_singleton.mp new] at running
            cases running
        exact { sound with
          owners := nodup_map_concat sound.owners fun relay member same =>
            fresh (List.mem_map.mpr ⟨relay, member, same⟩)
          returned := fun relay member call running =>
            sound.returned relay (idle member running) call running
          started := fun relay member call running =>
            sound.started relay (idle member running) call running
          placed := fun relay member call running =>
            sound.placed relay (idle member running) call running
          held := fun relay member call running =>
            sound.held relay (idle member running) call running }
  | leaseEvent owner now locked =>
      simp only [deliveryStep]
      split
      · exact sound
      · exact sound.leaseEvent now locked
  | relayPublish owner outcome =>
      simp only [deliveryStep]
      split
      · exact sound
      rename_i call found
      obtain ⟨relay, member, named, running⟩ := exists_running found
      split
      · exact sound
      · have published := sound.publish (if outcome.isOk then [call.event.id] else [])
        refine published.setCall owner fun next goes => ?_
        cases goes
        refine ⟨relay, member, named, call, running, rfl, rfl, rfl, fun returned => ?_⟩
        cases returned
        exact List.mem_append_right _ (List.mem_singleton_self _)
  | finishRelay owner =>
      simp only [deliveryStep]
      split
      · exact sound
      · rename_i call found
        obtain ⟨relay, member, rfl, running⟩ := exists_running found
        exact sound.finishRelay member running
  | dropRelay owner => exact sound.setCall owner fun next ends => by cases ends
  | startDispatch id organizationId limit =>
      simp only [deliveryStep]
      split
      · exact sound
      · exact { sound with
          dispatched := fun call member returned => by
            rcases List.mem_append.mp member with old | new
            · exact sound.dispatched call old returned
            · rw [List.mem_singleton.mp new] at returned
              cases returned }
  | dispatchPublish id returns =>
      simp only [deliveryStep]
      split
      · rename_i event rest found
        split
        · refine Delivery.Sound.setDispatch (sound.publish [event]) id (event :: rest) ?_
          intro _ first head
          cases head
          exact List.mem_append_right _ (List.mem_singleton_self _)
        · exact sound.setDispatch id [] fun returned => by cases returned
      · exact sound
  | dispatchMark id now =>
      simp only [deliveryStep]
      split
      · rename_i named event rest found
        have returned := sound.dispatched _ (List.mem_of_find?_eq_some found) rfl event rfl
        split
        · have rows : Delivery.Sound { s with
              outbox := update (·.id) s.outbox event fun row =>
                { row with deliveredAt := some now } } := by
            refine sound.mapRows (fun row => ?_) (fun row => ?_) (fun row member delivered => ?_)
              (fun row member => ?_) fun row member owner leased => ?_
            · split <;> rfl
            · split <;> rfl
            · split at delivered
              · rename_i here
                rw [show row.id = event from here]
                exact returned
              · exact sound.marked row member delivered
            · split <;> exact sound.due row member
            · split at leased <;> exact leased
          exact Delivery.Sound.tick
            (rows.setDispatch id rest fun published => by cases published) now
        · exact sound.setDispatch id [] fun published => by cases published
      · exact sound
  | dropDispatch id => exact sound.setDispatch id [] fun published => by cases published

/-- A relay has lost the lease of its call: it was taken again, or the row has another owner
or none. -/
def Superseded (s : Delivery) (relay : WorkflowOutboxRelay) (call : RelayCall) : Prop :=
  LeasedAgain s.leases call ∨
    ∀ row ∈ s.outbox, row.id = call.event.id → row.leaseOwner ≠ some relay.owner

theorem updateLeased_superseded (sound : s.Sound) {relay : WorkflowOutboxRelay}
    (member : relay ∈ s.relays) {call : RelayCall} (running : relay.call = some call)
    (superseded : Superseded s relay call)
    (change : ReviewWorkflowOutboxRow → ReviewWorkflowOutboxRow) :
    updateLeased s.outbox relay.owner call.event.id change = s.outbox := by
  have apart : ∀ row ∈ s.outbox, row.id = call.event.id → row.leaseOwner ≠ some relay.owner := by
    rcases superseded with again | apart
    · intro row inside named leased
      exact sound.held relay member call running row inside named leased again
    · exact apart
  rw [updateLeased]
  refine (List.map_congr_left fun row inside => ?_).trans (List.map_id _)
  exact if_neg fun hit => apart row inside hit.1 hit.2.1

theorem finishRelay_superseded (sound : s.Sound) {relay : WorkflowOutboxRelay}
    (member : relay ∈ s.relays) {call : RelayCall} (running : relay.call = some call)
    (superseded : Superseded s relay call) :
    (deliveryStep s (.finishRelay relay.owner)).outbox = s.outbox := by
  have found : (s.relays.find? fun other => other.owner = relay.owner).bind (·.call) =
      some call := by
    rw [find?_of_mem sound.owners member]
    exact running
  simp only [deliveryStep, found]
  unfold Reviews.finishRelay
  split
  · rfl
  · exact updateLeased_superseded sound member running superseded _
  · exact updateLeased_superseded sound member running superseded _

/-! Rows stay until their agreement is deleted -/

/-- Rows of agreements that are not deletion-requested stay, and marks stay. -/
structure Delivery.Keeps (before after : Delivery) : Prop where
  requested : before.deletionRequested ⊆ after.deletionRequested
  rows : ∀ row ∈ before.outbox, row.agreementId ∈ after.deletionRequested ∨
    ∃ next ∈ after.outbox, next.id = row.id ∧ next.agreementId = row.agreementId

theorem Delivery.Keeps.refl (s : Delivery) : s.Keeps s :=
  ⟨List.Subset.refl _, fun row member => .inr ⟨row, member, rfl, rfl⟩⟩

theorem Delivery.Keeps.trans {first second third : Delivery} (one : first.Keeps second)
    (two : second.Keeps third) : first.Keeps third := by
  refine ⟨List.Subset.trans one.requested two.requested, fun row member => ?_⟩
  rcases one.rows row member with requested | ⟨next, there, id, agreement⟩
  · exact .inl (two.requested requested)
  · rcases two.rows next there with requested | ⟨last, here, same, equal⟩
    · exact .inl (agreement ▸ requested)
    · exact .inr ⟨last, here, same.trans id, equal.trans agreement⟩

theorem Delivery.Keeps.map {after : Delivery}
    {change : ReviewWorkflowOutboxRow → ReviewWorkflowOutboxRow}
    (requested : after.deletionRequested = s.deletionRequested)
    (outbox : after.outbox = s.outbox.map change)
    (keeps : ∀ row, (change row).id = row.id ∧ (change row).agreementId = row.agreementId) :
    s.Keeps after := by
  refine ⟨requested ▸ List.Subset.refl _, fun row member => .inr ⟨change row, ?_, keeps row⟩⟩
  rw [outbox]
  exact List.mem_map_of_mem member

/-- A step that leaves the rows as they are. -/
theorem Delivery.Keeps.same {after : Delivery}
    (requested : after.deletionRequested = s.deletionRequested)
    (outbox : after.outbox = s.outbox) : s.Keeps after :=
  .map requested (outbox.trans (List.map_id _).symm) fun _ => ⟨rfl, rfl⟩

theorem deliveryStep_keeps (s : Delivery) (input : DeliveryStep) :
    s.Keeps (deliveryStep s input) := by
  cases input with
  | emit row =>
      simp only [deliveryStep]
      split
      · exact ⟨List.Subset.refl _, fun other member =>
          .inr ⟨other, List.mem_append_left _ member, rfl, rfl⟩⟩
      · exact .refl s
  | requestDeletion agreementId =>
      exact ⟨List.subset_append_left _ _, fun row member => .inr ⟨row, member, rfl, rfl⟩⟩
  | purge agreementId =>
      simp only [deliveryStep]
      split
      · rename_i requested
        refine ⟨List.Subset.refl _, fun row member => ?_⟩
        by_cases owned : row.agreementId = agreementId
        · exact .inl (owned ▸ requested)
        · exact .inr ⟨row, List.mem_filter.mpr ⟨member, by simpa using owned⟩, rfl, rfl⟩
      · exact .refl s
  | startRelay owner =>
      simp only [deliveryStep]
      split <;> exact .same rfl rfl
  | leaseEvent owner now locked =>
      simp only [deliveryStep]
      split
      · exact .refl s
      unfold Reviews.leaseEvent
      split
      · exact .same rfl rfl
      · refine .map rfl rfl fun row => ?_
        split <;> exact ⟨rfl, rfl⟩
  | relayPublish owner outcome =>
      simp only [deliveryStep]
      split
      · exact .refl s
      split <;> exact .same rfl rfl
  | finishRelay owner =>
      simp only [deliveryStep]
      split
      · exact .refl s
      unfold Reviews.finishRelay
      split
      · exact .refl s
      · refine .map rfl rfl fun row => ?_
        split <;> exact ⟨rfl, rfl⟩
      · refine .map rfl rfl fun row => ?_
        split <;> exact ⟨rfl, rfl⟩
  | dropRelay owner => exact .same rfl rfl
  | startDispatch id organizationId limit =>
      simp only [deliveryStep]
      split <;> exact .same rfl rfl
  | dispatchPublish id returns =>
      simp only [deliveryStep]
      split
      · split <;> exact .same rfl rfl
      · exact .refl s
  | dispatchMark id now =>
      simp only [deliveryStep]
      split
      · split
        · refine .map rfl rfl fun row => ?_
          split <;> exact ⟨rfl, rfl⟩
        · exact .same rfl rfl
      · exact .refl s
  | dropDispatch id => exact .same rfl rfl

end Steps

/-- The relays may lease the row from some time on, and the dispatcher may take it at once. -/
structure Claimable (s : Delivery) (row : ReviewWorkflowOutboxRow) : Prop where
  organization : row.organizationId ∈ s.organizations
  leasable : ∀ now, s.latest + 300 ≤ now → row ∈ leasable s row.organizationId now []
  dispatchable : row ∈ dispatchable s row.organizationId

theorem Delivery.Sound.claimable {s : Delivery} (sound : s.Sound) {row : ReviewWorkflowOutboxRow}
    (member : row ∈ s.outbox) (unmarked : row.deliveredAt = none)
    (active : row.agreementId ∉ s.deletionRequested) : Claimable s row := by
  refine ⟨sound.tenant row member, fun now late => ?_, ?_⟩
  · have due := sound.due row member
    refine mem_inOrder.mpr (List.mem_filter.mpr ⟨member, ?_⟩)
    simp only [unmarked, Option.all_eq_true, decide_eq_true_eq, true_and, List.not_mem_nil,
      not_false_eq_true, and_true]
    exact ⟨fun time delayed => Nat.le_trans (due.1 time delayed) late,
      fun time leased => Nat.le_trans (due.2 time leased) late⟩
  · refine mem_inOrder.mpr (List.mem_filter.mpr ⟨member, ?_⟩)
    simp [unmarked, active]

/-- Every run delivers at least once: marks follow publications, a relay that has lost its lease
changes no row, and unmarked rows of agreements that stay can be taken again. -/
theorem run_atLeastOnce {s : Delivery} {inputs : List DeliveryStep} (initial : s.Initial) :
    (∀ row ∈ (run deliveryStep s inputs).outbox, row.deliveredAt ≠ none →
      row.id ∈ (run deliveryStep s inputs).published) ∧
    (∀ relay ∈ (run deliveryStep s inputs).relays, ∀ call, relay.call = some call →
      Superseded (run deliveryStep s inputs) relay call →
        (deliveryStep (run deliveryStep s inputs) (.finishRelay relay.owner)).outbox =
          (run deliveryStep s inputs).outbox) ∧
    ∀ pre post, inputs = pre ++ post → ∀ row ∈ (run deliveryStep s pre).outbox,
      row.agreementId ∉ (run deliveryStep s inputs).deletionRequested →
        ∃ next ∈ (run deliveryStep s inputs).outbox, next.id = row.id ∧
          (next.deliveredAt ≠ none ∨ Claimable (run deliveryStep s inputs) next) := by
  have sound : (run deliveryStep s inputs).Sound :=
    run_invariant Delivery.Sound initial.sound fun s input sound => deliveryStep_sound sound input
  refine ⟨sound.marked, fun relay member call running superseded =>
    finishRelay_superseded sound member running superseded, fun pre post split row member active => ?_⟩
  have kept : (run deliveryStep s pre).Keeps (run deliveryStep s inputs) := by
    rw [split, run_append]
    exact run_relates (P := fun _ => True) Delivery.Keeps.refl Delivery.Keeps.trans trivial
      (fun _ _ _ => trivial) fun s input _ => deliveryStep_keeps s input
  obtain ⟨next, there, id, agreement⟩ := (kept.rows row member).resolve_left active
  refine ⟨next, there, id, ?_⟩
  by_cases unmarked : next.deliveredAt = none
  · exact .inr (sound.claimable there unmarked (agreement ▸ active))
  · exact .inl unmarked

theorem run_atLeastOnce_sample :
    (∀ row ∈ (run deliveryStep sampleDelivery sampleDeliverySteps).outbox, row.deliveredAt ≠ none →
      row.id ∈ (run deliveryStep sampleDelivery sampleDeliverySteps).published) ∧
    (∀ relay ∈ (run deliveryStep sampleDelivery sampleDeliverySteps).relays, ∀ call,
      relay.call = some call →
      Superseded (run deliveryStep sampleDelivery sampleDeliverySteps) relay call →
        (deliveryStep (run deliveryStep sampleDelivery sampleDeliverySteps)
          (.finishRelay relay.owner)).outbox =
            (run deliveryStep sampleDelivery sampleDeliverySteps).outbox) ∧
    ∀ pre post, sampleDeliverySteps = pre ++ post →
      ∀ row ∈ (run deliveryStep sampleDelivery pre).outbox,
        row.agreementId ∉ (run deliveryStep sampleDelivery sampleDeliverySteps).deletionRequested →
          ∃ next ∈ (run deliveryStep sampleDelivery sampleDeliverySteps).outbox, next.id = row.id ∧
            (next.deliveredAt ≠ none ∨
              Claimable (run deliveryStep sampleDelivery sampleDeliverySteps) next) :=
  run_atLeastOnce ⟨rfl, rfl, rfl, rfl⟩

end AgreementIntelligence.Reviews
