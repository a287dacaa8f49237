import AgreementIntelligence.Agreements.AuditEvents
import Mathlib.Data.List.Perm.Basic

/-! The audit trail of an agreement against the calls that report a change of it. A call appends its
event to the list that it has read before it takes the lock, so the trail holds exactly as long as
what a call writes over is what it has read. -/

namespace AgreementIntelligence.Agreements
open Identity Lib Lib.Columns Lib.Runs

variable {row agreement : AuditedAgreement} {call : AgreementCall} {state : AgreementCallState}
  {met : Circumstances} {system : AuditSystem} {input : AuditInput}

/-- The action that belongs at a place of the trail. -/
def AuditAction.place : ℕ → AuditAction
  | 0 => .created
  | k + 1 => if k % 2 = 0 then .archived else .restored

/-- A trail in which archived and restored alternate after created, and a row that is archived when
its trail ends so. -/
structure Orderly (row : AuditedAgreement) : Prop where
  created : row.auditEvents.head?.map (·.action) = some .created
  alternate : row.auditEvents.map (·.action) =
    (List.range row.auditEvents.length).map AuditAction.place
  archived : row.archivedAt.isSome ↔
    row.auditEvents.getLast?.map (·.action) = some .archived

/-- The event of the change that a call has reported. -/
def AgreementCallState.change : AgreementCallState → Option AuditEvent
  | .returned change => change
  | _ => none

namespace AuditSystem

def changes (system : AuditSystem) : List AuditEvent :=
  system.calls.filterMap fun entry => entry.2.change

/-- The trail holds one event for every call that has reported a change. -/
structure Trail (system : AuditSystem) : Prop where
  orderly : Orderly system.row
  once : system.row.auditEvents.tail.Perm system.changes

end AuditSystem

/-! The condition -/

/-- What a step of a call writes over is what the call has read; a submission writes a list that it
has read only if its own lock leaves the object and the next one refreshes it, the creation of a
version if either does. -/
def OverwritesRead (row : AuditedAgreement) (met : Circumstances) :
    AgreementCall → AgreementCallState → Prop
  | .archive _ _, .found agreement => agreement.auditEvents = row.auditEvents
  | .restore _ _, .found agreement => agreement.auditEvents = row.auditEvents
  | .submit _ _, .found agreement =>
    met.proceeds = true → met.updatesAgreement = true → met.first = false → met.second = true →
      agreement.auditEvents = row.auditEvents
  | .createVersion _ _ _ _, .found agreement =>
    met.proceeds = true → met.first = true ∨ met.second = true →
      agreement.auditEvents = row.auditEvents
  | _, _ => True

instance (row : AuditedAgreement) (met : Circumstances) (call : AgreementCall)
    (state : AgreementCallState) : Decidable (OverwritesRead row met call state) := by
  cases call <;> cases state <;> unfold OverwritesRead <;> infer_instance

def StepOverwritesRead (system : AuditSystem) : AuditInput → Prop
  | .advance place met =>
    ∀ entry ∈ system.calls[place]?, OverwritesRead system.row met entry.1 entry.2
  | _ => True

instance (system : AuditSystem) (input : AuditInput) :
    Decidable (StepOverwritesRead system input) := by
  cases input <;> unfold StepOverwritesRead <;> infer_instance

/-! Trails -/

theorem Orderly.ne_nil (orderly : Orderly row) : row.auditEvents ≠ [] := by
  intro empty
  have created := orderly.created
  rw [empty] at created
  cases created

theorem place_eq_archived {k : ℕ} : AuditAction.place k = .archived ↔ k % 2 = 1 := by
  cases k with
  | zero => simp [AuditAction.place]
  | succ k =>
      by_cases even : k % 2 = 0
      · simp only [AuditAction.place, even, if_true, true_iff]
        omega
      · simp only [AuditAction.place, even, if_false, reduceCtorEq, false_iff]
        omega

/-- An agreement is archived when its trail has an even number of events. -/
theorem Orderly.archived_iff (orderly : Orderly row) :
    row.archivedAt.isSome ↔ row.auditEvents.length % 2 = 0 := by
  have some_ : 0 < row.auditEvents.length := List.length_pos_iff.mpr orderly.ne_nil
  have last : row.auditEvents.getLast?.map (·.action) =
      some (AuditAction.place (row.auditEvents.length - 1)) := by
    rw [← List.getLast?_map, orderly.alternate, List.getLast?_eq_getElem?, List.getElem?_map,
      List.length_map, List.length_range, List.getElem?_range (by omega)]
    rfl
  rw [orderly.archived, last, Option.some.injEq, place_eq_archived]
  omega

theorem orderly_append {event : AuditEvent} (orderly : Orderly agreement)
    (events : row.auditEvents = agreement.auditEvents ++ [event])
    (next : event.action = AuditAction.place agreement.auditEvents.length)
    (archived : row.archivedAt.isSome ↔ event.action = .archived) : Orderly row where
  created := by
    rw [events, List.head?_append_of_ne_nil _ orderly.ne_nil]
    exact orderly.created
  alternate := by
    rw [events, List.map_append, orderly.alternate, List.length_append, List.length_singleton,
      List.range_succ, List.map_append, List.map_singleton, List.map_singleton, next]
  archived := by
    rw [archived, events, List.getLast?_concat, Option.map_some, Option.some.injEq]

theorem Orderly.archive {actorId : String} {now : Time} (orderly : Orderly agreement)
    (standing : agreement.archivedAt = none)
    (events : row.auditEvents = agreement.auditEvents ++ [⟨.archived, actorId, now⟩])
    (archived : row.archivedAt = some now) : Orderly row := by
  refine orderly_append orderly events ?_ (by simp [archived])
  have odd : ¬ agreement.auditEvents.length % 2 = 0 := by
    rw [← orderly.archived_iff, standing]
    simp
  exact (place_eq_archived.mpr (by omega)).symm

theorem Orderly.restore {actorId : String} {now : Time} (orderly : Orderly agreement)
    (standing : agreement.archivedAt.isSome)
    (events : row.auditEvents = agreement.auditEvents ++ [⟨.restored, actorId, now⟩])
    (restored : row.archivedAt = none) : Orderly row := by
  refine orderly_append orderly events ?_ (by simp [restored])
  have even := orderly.archived_iff.mp standing
  have some_ : agreement.auditEvents.length ≠ 0 := fun none =>
    orderly.ne_nil (List.length_eq_zero_iff.mp none)
  obtain ⟨k, length⟩ := Nat.exists_eq_succ_of_ne_zero some_
  have odd : ¬ k % 2 = 0 := by omega
  rw [length]
  simp [AuditAction.place, odd]

theorem Orderly.of_eq (orderly : Orderly agreement) (events : row.auditEvents = agreement.auditEvents)
    (archivedAt : row.archivedAt = agreement.archivedAt) : Orderly row := by
  refine ⟨?_, ?_, ?_⟩
  · rw [events]
    exact orderly.created
  · rw [events]
    exact orderly.alternate
  · rw [events, archivedAt]
    exact orderly.archived

/-! What calls have read -/

/-- What a call has read: an earlier state of the trail, of an agreement in the state that the call
is to change. -/
def HasRead (row : AuditedAgreement) : AgreementCall → AgreementCallState → Prop
  | call, .found agreement => Orderly agreement ∧ agreement.auditEvents <+: row.auditEvents ∧
    match call with
    | .archive _ _ => agreement.archivedAt = none
    | .restore _ _ => agreement.archivedAt.isSome
    | _ => True
  | _, _ => True

theorem HasRead.grow {after : AuditedAgreement} (read : HasRead row call state)
    (grows : row.auditEvents <+: after.auditEvents) : HasRead after call state := by
  cases state with
  | found agreement => exact ⟨read.1, read.2.1.trans grows, read.2.2⟩
  | authorized => trivial
  | returned change => trivial
  | raised => trivial

/-- What has been read is as long as the trail only when it is the trail. -/
theorem eq_of_prefix_of_length {events others : List AuditEvent} (earlier : events <+: others)
    (nonempty : events ≠ []) (filled : others ≠ [])
    (same : events.tail.length = others.tail.length) : events = others := by
  refine earlier.eq_of_length ?_
  have first := List.length_pos_iff.mpr nonempty
  have second := List.length_pos_iff.mpr filled
  rw [List.length_tail, List.length_tail] at same
  omega

/-! What a write leaves of the trail -/

namespace AuditedAgreement

theorem reselect_eq (refreshes : Bool) (loaded row : AuditedAgreement) :
    reselect refreshes loaded row = row ∨ reselect refreshes loaded row = loaded := by
  cases refreshes
  · exact .inr rfl
  · exact .inl rfl

theorem replace_auditEvents (loaded given row : AuditedAgreement) :
    (replace loaded given row).auditEvents =
      written loaded.auditEvents given.auditEvents row.auditEvents := rfl

theorem replace_archivedAt (loaded given row : AuditedAgreement) :
    (replace loaded given row).archivedAt =
      written loaded.archivedAt given.archivedAt row.archivedAt := rfl

/-- A call that changes the archive state writes its list whatever the lock has refreshed. -/
theorem replace_auditEvents_append {event : AuditEvent} {given : AuditedAgreement}
    (events : given.auditEvents = agreement.auditEvents ++ [event]) (refreshes : Bool) :
    (replace (reselect refreshes agreement row) given row).auditEvents =
      agreement.auditEvents ++ [event] := by
  have longer : agreement.auditEvents ≠ given.auditEvents := by
    rw [events]
    simp
  rcases reselect_eq refreshes agreement row with same | same
  · rw [same, replace_auditEvents, written_current, events]
  · rw [same, replace_auditEvents, written_of_ne longer, events]

theorem replace_archivedAt_of_ne {given : AuditedAgreement}
    (differs : agreement.archivedAt ≠ given.archivedAt) (refreshes : Bool) :
    (replace (reselect refreshes agreement row) given row).archivedAt = given.archivedAt := by
  rcases reselect_eq refreshes agreement row with same | same
  · rw [same, replace_archivedAt, written_current]
  · rw [same, replace_archivedAt, written_of_ne differs]

end AuditedAgreement

/-- A write that reports no change leaves the trail of the row, or the one that it is given. -/
theorem trail_of_stale {changes : List AuditEvent} {after : AuditedAgreement}
    (orderly : Orderly row) (once : row.auditEvents.tail.Perm changes)
    (read : Orderly agreement) (earlier : agreement.auditEvents <+: row.auditEvents)
    (events : after.auditEvents = agreement.auditEvents)
    (archivedAt : after.archivedAt = agreement.archivedAt) :
    (Orderly after ∧ after.auditEvents.tail.Perm changes) ↔
      agreement.auditEvents = row.auditEvents := by
  constructor
  · rintro ⟨-, kept⟩
    rw [events] at kept
    refine eq_of_prefix_of_length earlier read.ne_nil orderly.ne_nil ?_
    exact (kept.trans once.symm).length_eq
  · intro same
    refine ⟨read.of_eq events archivedAt, ?_⟩
    rw [events, same]
    exact once

/-- A write that reports a change leaves the trail that it has read with its event. -/
theorem trail_of_change {changes : List AuditEvent} {after : AuditedAgreement} {event : AuditEvent}
    (orderly : Orderly row) (once : row.auditEvents.tail.Perm changes)
    (read : Orderly agreement) (earlier : agreement.auditEvents <+: row.auditEvents)
    (appended : Orderly after) (events : after.auditEvents = agreement.auditEvents ++ [event]) :
    (Orderly after ∧ after.auditEvents.tail.Perm (event :: changes)) ↔
      agreement.auditEvents = row.auditEvents := by
  have tail : after.auditEvents.tail = agreement.auditEvents.tail ++ [event] := by
    rw [events, List.tail_append_of_ne_nil read.ne_nil]
  constructor
  · rintro ⟨-, kept⟩
    rw [tail] at kept
    refine eq_of_prefix_of_length earlier read.ne_nil orderly.ne_nil ?_
    have length := kept.length_eq
    rw [List.length_append, List.length_singleton, List.length_cons, ← once.length_eq] at length
    omega
  · intro same
    refine ⟨appended, ?_⟩
    rw [tail, same]
    exact (List.perm_append_singleton event _).trans (once.cons event)

/-- The trail after a step of a call, as far as the call's own row goes. -/
def TrailAfter (changes : List AuditEvent) (after : AuditedAgreement)
    (reached : AgreementCallState) : Prop :=
  Orderly after ∧ after.auditEvents.tail.Perm (reached.change.toList ++ changes)

/-- A session that writes what its object was loaded with leaves the column to the row. -/
theorem trailAfter_of_loaded {changes : List AuditEvent} {loaded given : AuditedAgreement}
    (orderly : Orderly row) (once : row.auditEvents.tail.Perm changes)
    (events : given.auditEvents = loaded.auditEvents)
    (archivedAt : given.archivedAt = loaded.archivedAt) :
    TrailAfter changes (AuditedAgreement.replace loaded given row) (.returned none) := by
  have sameEvents : (AuditedAgreement.replace loaded given row).auditEvents = row.auditEvents := by
    rw [AuditedAgreement.replace_auditEvents, events, written_self]
  have sameArchivedAt : (AuditedAgreement.replace loaded given row).archivedAt =
      row.archivedAt := by
    rw [AuditedAgreement.replace_archivedAt, archivedAt, written_self]
  refine ⟨orderly.of_eq sameEvents sameArchivedAt, ?_⟩
  rw [sameEvents]
  exact once

/-- A session whose object is refreshed writes the trail that it has read before. -/
theorem trailAfter_of_refreshed {changes : List AuditEvent} {given : AuditedAgreement}
    (orderly : Orderly row) (once : row.auditEvents.tail.Perm changes) (read : Orderly agreement)
    (earlier : agreement.auditEvents <+: row.auditEvents)
    (events : given.auditEvents = agreement.auditEvents)
    (archivedAt : given.archivedAt = agreement.archivedAt) :
    TrailAfter changes (AuditedAgreement.replace row given row) (.returned none) ↔
      agreement.auditEvents = row.auditEvents := by
  refine trail_of_stale orderly once read earlier ?_ ?_
  · rw [AuditedAgreement.replace_auditEvents, written_current, events]
  · rw [AuditedAgreement.replace_archivedAt, written_current, archivedAt]

theorem archive_trail_iff {changes : List AuditEvent} (orderly : Orderly row)
    (once : row.auditEvents.tail.Perm changes) {actorId : String} {now : Time}
    (read : HasRead row (.archive actorId now) (.found agreement)) (refreshes : Bool) :
    TrailAfter changes (AuditedAgreement.replace (AuditedAgreement.reselect refreshes agreement row)
      (agreement.archived actorId now) row) (.returned (some ⟨.archived, actorId, now⟩)) ↔
        agreement.auditEvents = row.auditEvents := by
  obtain ⟨before, earlier, standing⟩ := read
  have events : (AuditedAgreement.replace (AuditedAgreement.reselect refreshes agreement row)
      (agreement.archived actorId now) row).auditEvents =
        agreement.auditEvents ++ [⟨.archived, actorId, now⟩] :=
    AuditedAgreement.replace_auditEvents_append rfl refreshes
  have differs : agreement.archivedAt ≠ (agreement.archived actorId now).archivedAt := by
    rw [standing]
    exact nofun
  exact trail_of_change orderly once before earlier (before.archive standing events
    (AuditedAgreement.replace_archivedAt_of_ne differs refreshes)) events

theorem restore_trail_iff {changes : List AuditEvent} (orderly : Orderly row)
    (once : row.auditEvents.tail.Perm changes) {actorId : String} {now : Time}
    (read : HasRead row (.restore actorId now) (.found agreement)) (refreshes : Bool) :
    TrailAfter changes (AuditedAgreement.replace (AuditedAgreement.reselect refreshes agreement row)
      (agreement.restored actorId now) row) (.returned (some ⟨.restored, actorId, now⟩)) ↔
        agreement.auditEvents = row.auditEvents := by
  obtain ⟨before, earlier, standing⟩ := read
  have events : (AuditedAgreement.replace (AuditedAgreement.reselect refreshes agreement row)
      (agreement.restored actorId now) row).auditEvents =
        agreement.auditEvents ++ [⟨.restored, actorId, now⟩] :=
    AuditedAgreement.replace_auditEvents_append rfl refreshes
  have differs : agreement.archivedAt ≠ (agreement.restored actorId now).archivedAt := by
    intro same
    rw [same] at standing
    cases standing
  exact trail_of_change orderly once before earlier (before.restore standing events
    (AuditedAgreement.replace_archivedAt_of_ne differs refreshes)) events

theorem submit_trail_iff {changes : List AuditEvent} (orderly : Orderly row)
    (once : row.auditEvents.tail.Perm changes) {jobId : Uuid} {now : Time}
    (read : HasRead row (.submit jobId now) (.found agreement)) :
    TrailAfter changes (AgreementCall.next met row (.submit jobId now) (.found agreement)).1
      (AgreementCall.next met row (.submit jobId now) (.found agreement)).2 ↔
        OverwritesRead row met (.submit jobId now) (.found agreement) := by
  obtain ⟨before, earlier, -⟩ := read
  obtain ⟨proceeds, updates, first, second⟩ := met
  simp only [OverwritesRead]
  cases proceeds
  · exact iff_of_true ⟨orderly, once⟩ nofun
  cases updates
  · exact iff_of_true ⟨orderly, once⟩ nofun
  cases first
  · cases second
    · refine iff_of_true ?_ nofun
      change TrailAfter changes (AuditedAgreement.replace agreement (agreement.queued (some jobId) now)
        row) (.returned none)
      exact trailAfter_of_loaded orderly once rfl rfl
    · simp only [forall_const]
      exact trailAfter_of_refreshed orderly once before earlier rfl rfl
  · refine iff_of_true ?_ nofun
    have object : AuditedAgreement.reselect second row row = row := by cases second <;> rfl
    change TrailAfter changes (AuditedAgreement.replace (AuditedAgreement.reselect second row row)
      (row.queued (some jobId) now) row) (.returned none)
    rw [object]
    exact trailAfter_of_loaded orderly once rfl rfl

theorem createVersion_trail_iff {changes : List AuditEvent} (orderly : Orderly row)
    (once : row.auditEvents.tail.Perm changes) {source : AgreementFile} {versionId : Uuid}
    {current : Option Uuid} {now : Time}
    (read : HasRead row (.createVersion source versionId current now) (.found agreement)) :
    TrailAfter changes
      (AgreementCall.next met row (.createVersion source versionId current now) (.found agreement)).1
      (AgreementCall.next met row (.createVersion source versionId current now)
        (.found agreement)).2 ↔
        OverwritesRead row met (.createVersion source versionId current now) (.found agreement) := by
  obtain ⟨before, earlier, -⟩ := read
  obtain ⟨proceeds, updates, first, second⟩ := met
  simp only [OverwritesRead]
  cases proceeds
  · exact iff_of_true ⟨orderly, once⟩ nofun
  by_cases refreshed : first = true ∨ second = true
  · have object : AuditedAgreement.reselect second (AuditedAgreement.reselect first agreement row)
        row = row := by
      cases first <;> cases second <;> first | rfl | exact absurd refreshed (by decide)
    simp only [refreshed, forall_const, AgreementCall.next, object]
    exact trailAfter_of_refreshed orderly once before earlier rfl rfl
  · have object : AuditedAgreement.reselect second (AuditedAgreement.reselect first agreement row)
        row = agreement := by
      cases first <;> cases second <;> first | rfl | exact absurd (by decide) refreshed
    simp only [refreshed, AgreementCall.next, object]
    refine iff_of_true ?_ nofun
    exact trailAfter_of_loaded orderly once rfl rfl

theorem next_trail_iff {changes : List AuditEvent} (orderly : Orderly row)
    (once : row.auditEvents.tail.Perm changes) (read : HasRead row call state)
    (silent : state.change = none) :
    TrailAfter changes (call.next met row state).1 (call.next met row state).2 ↔
      OverwritesRead row met call state := by
  have still : TrailAfter changes row .authorized := ⟨orderly, once⟩
  cases state with
  | returned change =>
      cases silent
      cases call <;> exact iff_of_true ⟨orderly, once⟩ trivial
  | raised => cases call <;> exact iff_of_true ⟨orderly, once⟩ trivial
  | authorized =>
      cases call with
      | archive actorId now =>
          refine iff_of_true ?_ trivial
          simp only [AgreementCall.next]
          split <;> exact still
      | restore actorId now =>
          refine iff_of_true ?_ trivial
          simp only [AgreementCall.next]
          split <;> exact still
      | submit jobId now => exact iff_of_true still trivial
      | createVersion source versionId current now => exact iff_of_true still trivial
      | retry now =>
          refine iff_of_true ?_ trivial
          simp only [AgreementCall.next]
          split
          · exact still
          · exact trailAfter_of_loaded orderly once rfl rfl
  | found agreement =>
      cases call with
      | archive actorId now => exact archive_trail_iff orderly once read met.first
      | restore actorId now => exact restore_trail_iff orderly once read met.first
      | submit jobId now => exact submit_trail_iff orderly once read
      | createVersion source versionId current now => exact createVersion_trail_iff orderly once read
      | retry now => exact iff_of_true still trivial

/-! Steps and runs -/

/-- Changing an item that maps to nothing adds what it maps to now. -/
theorem perm_filterMap_set {α β : Type} (f : α → Option β) (new : α) {items : List α} {place : ℕ}
    {old : α} (here : items[place]? = some old) (silent : f old = none) :
    ((items.set place new).filterMap f).Perm ((f new).toList ++ items.filterMap f) := by
  induction items generalizing place with
  | nil => cases here
  | cons first rest ih =>
      cases place with
      | zero =>
          cases here
          cases value : f new <;> simp [silent, value]
      | succ place =>
          have later := ih here
          rw [List.set_cons_succ, List.filterMap_cons, List.filterMap_cons]
          cases f first with
          | none => exact later
          | some value => exact (later.cons value).trans List.perm_middle.symm

namespace AuditSystem

/-- The trail holds, and calls have read earlier states of it. -/
structure Recorded (system : AuditSystem) : Prop where
  trail : system.Trail
  read : ∀ entry ∈ system.calls, HasRead system.row entry.1 entry.2

theorem step_advance {place : ℕ} (here : system.calls[place]? = some (call, state)) :
    system.step (.advance place met) = ⟨(call.next met system.row state).1,
      system.calls.set place (call, (call.next met system.row state).2)⟩ := by
  simp only [step, here]

theorem changes_open (opened : AgreementCall) :
    (system.step (.open opened)).changes = system.changes := by
  simp [step, changes, AgreementCallState.change]

theorem next_of_change (changed : state.change ≠ none) :
    call.next met row state = (row, state) := by
  cases state with
  | returned change => cases call <;> rfl
  | authorized => exact absurd rfl changed
  | found agreement => exact absurd rfl changed
  | raised => exact absurd rfl changed

theorem step_cut (system : AuditSystem) (place : ℕ) :
    system.step (.cut place) = system ∨ ∃ call state, system.calls[place]? = some (call, state) ∧
      state.change = none ∧
      system.step (.cut place) = { system with calls := system.calls.set place (call, .raised) } := by
  simp only [step]
  split
  · next call here => exact .inr ⟨call, .authorized, here, rfl, rfl⟩
  · next call agreement here => exact .inr ⟨call, .found agreement, here, rfl, rfl⟩
  · exact .inl rfl

theorem step_trail_iff (recorded : system.Recorded) :
    (system.step input).Trail ↔ StepOverwritesRead system input := by
  cases input with
  | «open» opened =>
      refine iff_of_true ⟨recorded.trail.orderly, ?_⟩ trivial
      rw [changes_open]
      exact recorded.trail.once
  | cut place =>
      refine iff_of_true ?_ trivial
      rcases step_cut system place with same | ⟨call, state, here, silent, cut⟩
      · rw [same]
        exact recorded.trail
      · rw [cut]
        refine ⟨recorded.trail.orderly, recorded.trail.once.trans ?_⟩
        exact (perm_filterMap_set (fun entry => entry.2.change) (call, .raised) here silent).symm
  | advance place met =>
      cases here : system.calls[place]? with
      | none =>
          have stays : system.step (.advance place met) = system := by simp only [step, here]
          rw [stays]
          refine iff_of_true recorded.trail ?_
          simp [StepOverwritesRead, here]
      | some entry =>
          obtain ⟨call, state⟩ := entry
          have condition : StepOverwritesRead system (.advance place met) ↔
              OverwritesRead system.row met call state := by
            simp [StepOverwritesRead, here]
          rw [condition, step_advance here]
          have read : HasRead system.row call state :=
            recorded.read _ (List.mem_of_getElem? here)
          by_cases silent : state.change = none
          · rw [← next_trail_iff recorded.trail.orderly recorded.trail.once read silent]
            have changes := perm_filterMap_set (fun entry => entry.2.change)
              (call, (call.next met system.row state).2) here silent
            constructor
            · exact fun trail => ⟨trail.orderly, trail.once.trans changes⟩
            · exact fun trail => ⟨trail.1, trail.2.trans changes.symm⟩
          · have same : system.calls.set place (call, state) = system.calls := by
              obtain ⟨inside, stored⟩ := List.getElem?_eq_some_iff.mp here
              rw [← stored, List.set_getElem_self]
            rw [next_of_change silent, same]
            refine iff_of_true recorded.trail ?_
            cases state with
            | returned change => cases call <;> trivial
            | authorized => exact absurd rfl silent
            | found agreement => exact absurd rfl silent
            | raised => exact absurd rfl silent

/-- A write over what has been read keeps the list and adds the event of the change. -/
theorem next_auditEvents (silent : state.change = none)
    (overwrites : OverwritesRead row met call state) :
    (call.next met row state).1.auditEvents =
      row.auditEvents ++ (call.next met row state).2.change.toList := by
  have still : row.auditEvents = row.auditEvents ++ (none : Option AuditEvent).toList := by simp
  cases state with
  | returned change =>
      cases silent
      cases call <;> exact still
  | raised => cases call <;> exact still
  | authorized =>
      cases call with
      | archive actorId now =>
          simp only [AgreementCall.next]
          split <;> exact still
      | restore actorId now =>
          simp only [AgreementCall.next]
          split <;> exact still
      | submit jobId now => exact still
      | createVersion source versionId current now => exact still
      | retry now =>
          simp only [AgreementCall.next]
          split
          · exact still
          · exact written_self.trans still
  | found agreement =>
      cases call with
      | archive actorId now =>
          have read : agreement.auditEvents = row.auditEvents := overwrites
          exact (AuditedAgreement.replace_auditEvents_append rfl met.first).trans (by rw [read]; rfl)
      | restore actorId now =>
          have read : agreement.auditEvents = row.auditEvents := overwrites
          exact (AuditedAgreement.replace_auditEvents_append rfl met.first).trans (by rw [read]; rfl)
      | submit jobId now =>
          obtain ⟨proceeds, updates, first, second⟩ := met
          cases proceeds
          · exact still
          cases updates
          · exact still
          cases first
          · cases second
            · exact written_self.trans still
            · have read : agreement.auditEvents = row.auditEvents := overwrites rfl rfl rfl rfl
              exact (written_current.trans read).trans still
          · cases second <;> exact written_self.trans still
      | createVersion source versionId current now =>
          obtain ⟨proceeds, updates, first, second⟩ := met
          cases proceeds
          · exact still
          cases second
          · cases first
            · exact written_self.trans still
            · have read : agreement.auditEvents = row.auditEvents := overwrites rfl (.inl rfl)
              exact (written_current.trans read).trans still
          · have read : agreement.auditEvents = row.auditEvents := overwrites rfl (.inr rfl)
            exact (written_current.trans read).trans still
      | retry now => exact still

/-- A call reads the row as it is. -/
theorem next_read (orderly : Orderly row) (silent : state.change = none)
    (read : HasRead row call state) (overwrites : OverwritesRead row met call state) :
    HasRead (call.next met row state).1 call (call.next met row state).2 := by
  have now : Orderly row ∧ row.auditEvents <+: row.auditEvents := ⟨orderly, List.prefix_refl _⟩
  cases state with
  | returned change => cases call <;> trivial
  | raised => cases call <;> trivial
  | authorized =>
      cases call with
      | archive actorId time =>
          simp only [AgreementCall.next]
          split
          · trivial
          · next standing => exact ⟨now.1, now.2, Option.not_isSome_iff_eq_none.mp standing⟩
      | restore actorId time =>
          simp only [AgreementCall.next]
          split
          · trivial
          · next standing => exact ⟨now.1, now.2, Option.isSome_iff_ne_none.mpr (by simpa using standing)⟩
      | submit jobId time => exact ⟨now.1, now.2, trivial⟩
      | createVersion source versionId current time => exact ⟨now.1, now.2, trivial⟩
      | retry time =>
          simp only [AgreementCall.next]
          split <;> trivial
  | found agreement =>
      cases call with
      | archive actorId time => trivial
      | restore actorId time => trivial
      | submit jobId time =>
          simp only [AgreementCall.next]
          (repeat' split) <;> trivial
      | createVersion source versionId current time =>
          simp only [AgreementCall.next]
          split <;> trivial
      | retry time => exact read

theorem step_recorded (recorded : system.Recorded) (keeps : (system.step input).Trail) :
    (system.step input).Recorded := by
  refine ⟨keeps, ?_⟩
  have overwrites := (step_trail_iff recorded).mp keeps
  cases input with
  | «open» opened =>
      intro entry member
      rcases List.mem_append.mp member with before | new
      · exact recorded.read entry before
      · rw [List.mem_singleton.mp new]
        trivial
  | cut place =>
      rcases step_cut system place with same | ⟨call, state, here, silent, cut⟩
      · rw [same]
        exact recorded.read
      · rw [cut]
        intro entry member
        rcases List.mem_or_eq_of_mem_set member with before | new
        · exact recorded.read entry before
        · rw [new]
          trivial
  | advance place met =>
      cases here : system.calls[place]? with
      | none =>
          have stays : system.step (.advance place met) = system := by simp only [step, here]
          rw [stays]
          exact recorded.read
      | some entry =>
          obtain ⟨call, state⟩ := entry
          have overread : OverwritesRead system.row met call state := overwrites (call, state) here
          have read : HasRead system.row call state := recorded.read _ (List.mem_of_getElem? here)
          rw [step_advance here]
          by_cases silent : state.change = none
          · have grows : system.row.auditEvents <+: (call.next met system.row state).1.auditEvents := by
              rw [next_auditEvents silent overread]
              exact List.prefix_append _ _
            intro other member
            rcases List.mem_or_eq_of_mem_set member with before | new
            · exact (recorded.read other before).grow grows
            · rw [new]
              exact next_read recorded.trail.orderly silent read overread
          · rw [next_of_change silent]
            intro other member
            rcases List.mem_or_eq_of_mem_set member with before | new
            · exact recorded.read other before
            · rw [new]
              exact read

/-- Along every run of overlapping calls on a new agreement its trail holds one event for every call
that has reported a change, in order, and with its archive state, exactly when every write goes over
what the call has read. -/
theorem run_trail_iff (agreement : AuditedAgreement) (actorId : String) (now : Time)
    (inputs : List AuditInput) :
    meetsAlong step (fun system input => (system.step input).Trail)
      (created agreement actorId now) inputs ↔
      meetsAlong step StepOverwritesRead (created agreement actorId now) inputs := by
  refine meetsAlong_congr (P := Recorded) (E := fun _ _ => True) ⟨⟨⟨rfl, rfl, ?_⟩, ?_⟩, ?_⟩
    (fun _ _ _ _ => trivial) ?_ ?_
  · simp [created]
  · exact List.Perm.refl []
  · rintro entry ⟨⟩
  · exact fun system input recorded _ => step_trail_iff recorded
  · exact fun system input recorded _ keeps => step_recorded recorded keeps

/-! Two calls that archive an agreement side by side -/

def Finished : AgreementCallState → Prop
  | .returned _ => True
  | .raised => True
  | _ => False

instance (state : AgreementCallState) : Decidable (Finished state) := by
  cases state <;> unfold Finished <;> infer_instance

/-- Whenever no call is in flight, the trail holds. -/
def NeverLosesEvents : Prop :=
  ∀ (agreement : AuditedAgreement) (actorId : String) (now : Time) (inputs : List AuditInput),
    (∀ entry ∈ (run step (created agreement actorId now) inputs).calls, Finished entry.2) →
      (run step (created agreement actorId now) inputs).Trail

theorem pending_ne_deleted : ProcessingState.pending ≠ .deleted := by decide

def sampleAgreement : AuditedAgreement where
  toAgreementRow := createdRow (.ofNat 1) (.ofNat 2)
    ⟨[], .pending, nofun, pending_ne_deleted⟩ (.ofNat 3)
  auditMetadata := []
  auditEvents := []
  updatedAt := 0

/-- Both read the agreement before either writes it. -/
def sampleArchives : List AuditInput :=
  [.open (.archive "first" 5), .open (.archive "second" 6), .advance 0 ⟨true, true, false, false⟩,
    .advance 1 ⟨true, true, false, false⟩, .advance 0 ⟨true, true, false, false⟩,
    .advance 1 ⟨true, true, false, false⟩]

theorem not_neverLosesEvents : ¬ NeverLosesEvents := by
  intro never
  have trail := never sampleAgreement "author" 0 sampleArchives (by decide)
  have length := trail.once.length_eq
  revert length
  decide

end AuditSystem

end AgreementIntelligence.Agreements
