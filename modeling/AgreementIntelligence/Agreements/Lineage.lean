import AgreementIntelligence.Agreements.VersionRequests
import AgreementIntelligence.Lib.Chain

/-! The versions of an agreement form a chain, the agreement points at its last two, and a call
that comes again or too late leaves everything as it is. What a call has read may be old when it
writes; the number it then asks for is taken, unless nothing has been added since. -/

namespace AgreementIntelligence.Agreements
open Identity Lib Lib.Chain Lib.Results Lib.Runs

variable {tables after : LineageTables} {agreement row : AgreementRow} {record : VersionRow}
  {request : VersionRequest} {current : Option VersionRow} {progress : Progress}
  {agreementId organizationId workspaceId versionId : Uuid} {system : VersionSystem} {place : Nat}

/-- What holds of an agreement and the list of its versions. -/
structure Lineage (tables : LineageTables) (agreement : AgreementRow) : Prop where
  numbers : (tables.versionsOf agreement.id).map (·.versionNumber) =
    List.range' 1 (tables.versionsOf agreement.id).length
  first : ∀ version, (tables.versionsOf agreement.id)[0]? = some version →
    version.predecessorVersionId = none
  linked : ∀ (k : Nat) earlier later, (tables.versionsOf agreement.id)[k]? = some earlier →
    (tables.versionsOf agreement.id)[k + 1]? = some later →
      later.predecessorVersionId = some earlier.id
  checksums : ((tables.versionsOf agreement.id).map (·.checksum)).Nodup
  current : agreement.currentVersionId =
    (tables.versionsOf agreement.id).getLast?.map (·.id)
  baseline : agreement.comparisonBaselineVersionId =
    (tables.versionsOf agreement.id).dropLast.getLast?.map (·.id)

/-! The tables and their operations -/

namespace LineageTables

/-- The versions of an agreement in the order of their inserts. -/
def own (tables : LineageTables) (agreementId : Uuid) : List VersionRow :=
  tables.versions.rows.filter (·.agreementId = agreementId)

theorem mem_own : record ∈ tables.own agreementId ↔
    record ∈ tables.versions.rows ∧ record.agreementId = agreementId := by
  simp [own]

def Active (tables : LineageTables) (agreementId : Uuid) : Prop :=
  ∃ row ∈ tables.agreements.rows, row.id = agreementId ∧ row.deletionRequestedAt = none

theorem get_eq_some (found : tables.get agreementId = some row) :
    row ∈ tables.agreements.rows ∧ row.id = agreementId ∧ row.deletionRequestedAt = none := by
  have met := List.find?_some found
  rw [decide_eq_true_eq] at met
  exact ⟨List.mem_of_find?_eq_some found, met⟩

theorem get_isSome : (tables.get agreementId).isSome ↔ tables.Active agreementId := by
  simp [get, Active]

theorem activeAgreement_eq_some
    (found : tables.activeAgreement agreementId organizationId workspaceId = some row) :
    row ∈ tables.agreements.rows ∧ row.id = agreementId ∧ row.deletionRequestedAt = none := by
  have met := List.find?_some found
  rw [decide_eq_true_eq] at met
  exact ⟨List.mem_of_find?_eq_some found, met.1, met.2.2.2⟩

theorem visibleAgreement_ok
    (found : tables.visibleAgreement agreementId organizationId workspaceId = .ok row) :
    row ∈ tables.agreements.rows ∧ row.id = agreementId ∧ row.deletionRequestedAt = none := by
  unfold visibleAgreement at found
  cases stored : tables.get agreementId with
  | none =>
      rw [stored] at found
      cases found
  | some agreement =>
      rw [stored] at found
      dsimp only at found
      by_cases visible : agreement.organizationId = organizationId ∧
          agreement.workspaceId = workspaceId
      · rw [if_pos visible] at found
        cases found
        exact get_eq_some stored
      · rw [if_neg visible] at found
        cases found

theorem insert_eq_some {table grown : VersionTable} (inserts : table.insert record = some grown) :
    (∀ row ∈ table.rows, ¬ row.Clashes record) ∧ grown.rows = table.rows ++ [record] := by
  unfold VersionTable.insert at inserts
  by_cases free : ∀ row ∈ table.rows, ¬ row.Clashes record
  · rw [dif_pos free] at inserts
    cases inserts
    exact ⟨free, rfl⟩
  · rw [dif_neg free] at inserts
    cases inserts

instance : Std.Symm fun one other : VersionRow => ¬ one.Clashes other where
  symm one other apart clash := by
    obtain same | ⟨same, number | checksum | key⟩ := clash
    · exact apart (.inl same.symm)
    · exact apart (.inr ⟨same.symm, .inl number.symm⟩)
    · exact apart (.inr ⟨same.symm, .inr (.inl checksum.symm)⟩)
    · exact apart (.inr ⟨same.symm, .inr (.inr key.symm)⟩)

/-- A key names one row. -/
theorem eq_of_clashes {table : VersionTable} {other : VersionRow} (first : record ∈ table.rows)
    (second : other ∈ table.rows) (clash : record.Clashes other) : record = other := by
  by_contra differ
  exact table.unique.forall first second differ clash

/-- A version is inserted for an agreement that is not deletion-requested, free of all keys. -/
theorem createVersion_ok (done : tables.createVersion record = .ok after) :
    tables.Active record.agreementId ∧ (∀ row ∈ tables.versions.rows, ¬ row.Clashes record) ∧
      after.agreements = tables.agreements ∧
        after.versions.rows = tables.versions.rows ++ [record] := by
  unfold createVersion at done
  cases locked : tables.activeAgreement record.agreementId record.organizationId
    record.workspaceId with
  | none =>
      rw [locked] at done
      cases done
  | some row =>
      rw [locked, if_neg (by simp)] at done
      split at done
      · cases done
      cases inserts : tables.versions.insert record with
      | none =>
          rw [inserts] at done
          cases done
      | some versions =>
          rw [inserts] at done
          cases done
          obtain ⟨free, grown⟩ := insert_eq_some inserts
          obtain ⟨member, named, active⟩ := activeAgreement_eq_some locked
          exact ⟨⟨row, member, named, active⟩, free, rfl, grown⟩

theorem replace_ok (done : tables.replace agreement = .ok after) :
    after.versions = tables.versions ∧ after.agreements.rows = tables.agreements.rows.map fun row =>
      if row.id = agreement.id then replaced agreement row else row := by
  unfold replace at done
  split at done
  · cases done
  · cases done
    exact ⟨rfl, rfl⟩

/-- Only an agreement that is deletion-requested is purged. -/
theorem purge_cases (tables : LineageTables) (agreementId : Uuid) :
    tables.purge agreementId = tables ∨
    ¬ tables.Active agreementId ∧
      (tables.purge agreementId).versions.rows =
        tables.versions.rows.filter (fun row => row.agreementId ≠ agreementId) ∧
      (tables.purge agreementId).agreements.rows = tables.agreements.rows.map fun row =>
        if row.id = agreementId then { row with
          files := [], processingState := .deleted, currentVersionId := none
          comparisonBaselineVersionId := none, archivedAt := none } else row := by
  unfold purge
  by_cases requested : tables.agreements.rows.any fun row =>
      row.id = agreementId ∧ row.deletionRequestedAt.isSome
  · rw [if_pos requested]
    refine .inr ⟨?_, rfl, rfl⟩
    rintro ⟨row, member, named, active⟩
    simp only [List.any_eq_true, decide_eq_true_eq] at requested
    obtain ⟨other, stored, same, deleted⟩ := requested
    have equal : other = row := Keyed.eq_of_key stored member (same.trans named.symm)
    rw [equal, active] at deleted
    cases deleted
  · rw [if_neg requested]
    exact .inl rfl

/-! What stays -/

/-- An agreement that is known stays known, is never active again once its deletion is requested,
and keeps its versions while it is active. -/
structure Grows (before after : LineageTables) : Prop where
  known : ∀ row ∈ before.agreements.rows, ∃ other ∈ after.agreements.rows, other.id = row.id
  active : ∀ row ∈ before.agreements.rows, after.Active row.id → before.Active row.id
  kept : ∀ agreementId, after.Active agreementId →
    ∀ version ∈ before.own agreementId, version ∈ after.own agreementId

theorem Grows.refl (tables : LineageTables) : Grows tables tables where
  known row member := ⟨row, member, rfl⟩
  active _ _ active := active
  kept _ _ _ member := member

theorem Grows.register (registry : List DocumentObjectRegistryRecord) :
    Grows tables { tables with registry } where
  known row member := ⟨row, member, rfl⟩
  active _ _ active := active
  kept _ _ _ member := member

section
variable {change : AgreementRow → AgreementRow}

/-- Changes of rows that bring none back. -/
theorem active_of_map (rows : after.agreements.rows = tables.agreements.rows.map change)
    (keeps : ∀ row, (change row).id = row.id)
    (stays : ∀ row, (change row).deletionRequestedAt = none → row.deletionRequestedAt = none)
    (active : after.Active agreementId) : tables.Active agreementId := by
  obtain ⟨row, member, named, undeleted⟩ := active
  rw [rows] at member
  obtain ⟨old, stored, rfl⟩ := List.mem_map.mp member
  exact ⟨old, stored, (keeps old).symm.trans named, stays old undeleted⟩

theorem Grows.of_map (rows : after.agreements.rows = tables.agreements.rows.map change)
    (keeps : ∀ row, (change row).id = row.id)
    (stays : ∀ row, (change row).deletionRequestedAt = none → row.deletionRequestedAt = none)
    (kept : ∀ agreementId, tables.Active agreementId →
      ∀ version ∈ tables.own agreementId, version ∈ after.own agreementId) :
    Grows tables after where
  known row member := ⟨change row, rows ▸ List.mem_map_of_mem member, keeps row⟩
  active _ _ := active_of_map rows keeps stays
  kept agreementId active := kept agreementId (active_of_map rows keeps stays active)

end

theorem Grows.of_concat (rows : after.agreements.rows = tables.agreements.rows ++ [row])
    (fresh : ∀ old ∈ tables.agreements.rows, old.id ≠ row.id)
    (kept : ∀ agreementId, ∀ version ∈ tables.own agreementId, version ∈ after.own agreementId) :
    Grows tables after where
  known old member := ⟨old, by simp [rows, member], rfl⟩
  active old member active := by
    obtain ⟨other, listed, named, undeleted⟩ := active
    rw [rows, List.mem_append, List.mem_singleton] at listed
    obtain before | rfl := listed
    · exact ⟨other, before, named, undeleted⟩
    · exact absurd named.symm (fresh old member)
  kept agreementId _ := kept agreementId

theorem Grows.acceptDeletion (now : Time) :
    Grows tables (tables.acceptDeletion agreementId now) := by
  refine Grows.of_map rfl ?_ ?_ fun _ _ _ member => member
  · intro row
    by_cases hit : row.id = agreementId ∧ row.deletionRequestedAt = none <;> simp [hit]
  · intro row
    by_cases hit : row.id = agreementId ∧ row.deletionRequestedAt = none <;> simp [hit]

theorem Grows.purge : Grows tables (tables.purge agreementId) := by
  obtain same | ⟨inactive, versions, rows⟩ := tables.purge_cases agreementId
  · rw [same]
    exact Grows.refl tables
  refine Grows.of_map rows ?_ ?_ ?_
  · intro row
    by_cases hit : row.id = agreementId <;> simp [hit]
  · intro row
    by_cases hit : row.id = agreementId <;> simp [hit]
  · intro otherId active version member
    obtain ⟨listed, belongs⟩ := mem_own.mp member
    rw [mem_own, versions, List.mem_filter, decide_eq_true_eq]
    refine ⟨⟨listed, fun same => inactive ?_⟩, belongs⟩
    rwa [← same, belongs]

/-- The versions of an agreement with one more. -/
theorem own_concat (grown : after.versions.rows = tables.versions.rows ++ [record]) :
    after.own agreementId =
      if record.agreementId = agreementId then tables.own agreementId ++ [record]
      else tables.own agreementId := by
  rw [own, grown, List.filter_append]
  by_cases hit : record.agreementId = agreementId <;> simp [own, hit]

theorem mem_own_concat (grown : after.versions.rows = tables.versions.rows ++ [record])
    {version : VersionRow} (member : version ∈ tables.own agreementId) :
    version ∈ after.own agreementId := by
  rw [own_concat grown]
  by_cases hit : record.agreementId = agreementId
  · rw [if_pos hit]
    exact List.mem_append_left _ member
  · rw [if_neg hit]
    exact member

end LineageTables

open LineageTables

/-! The write of a request -/

theorem VersionRequest.record_agreementId :
    (request.record agreement current).agreementId = agreement.id := rfl

theorem VersionRequest.write_ok (done : request.write tables agreement current = .ok after) :
    tables.Active agreement.id ∧
      (∀ row ∈ tables.versions.rows, ¬ row.Clashes (request.record agreement current)) ∧
      after.versions.rows = tables.versions.rows ++ [request.record agreement current] ∧
      after.agreements.rows = tables.agreements.rows.map fun row =>
        if row.id = agreement.id then replaced (request.updated agreement current) row
        else row := by
  obtain ⟨created, creates, replaces⟩ := bind_ok.mp done
  obtain ⟨active, free, agreements, grown⟩ := LineageTables.createVersion_ok creates
  obtain ⟨versions, rows⟩ := replace_ok replaces
  rw [agreements] at rows
  rw [versions, grown]
  exact ⟨active, free, rfl, rows⟩

theorem VersionRequest.write_grows (done : request.write tables agreement current = .ok after) :
    Grows tables after := by
  obtain ⟨-, -, grown, rows⟩ := request.write_ok done
  refine Grows.of_map rows ?_ ?_ fun _ _ version member => mem_own_concat grown member
  · intro row
    by_cases hit : row.id = agreement.id <;> simp [hit, replaced]
  · intro row
    by_cases hit : row.id = agreement.id <;> simp [hit, replaced]

/-- A new agreement, with the version that its last file makes. -/
theorem createAgreement_ok {creation : CreateAgreementRequest}
    (done : tables.createAgreement organizationId workspaceId creation agreementId versionId =
      .ok after) :
    (∀ row ∈ tables.agreements.rows, row.id ≠ agreementId) ∧
      ((after.versions = tables.versions ∧ after.agreements.rows = tables.agreements.rows ++
          [createdRow organizationId workspaceId creation agreementId]) ∨
        ∃ version : VersionRow, version.id = versionId ∧ version.agreementId = agreementId ∧
          version.versionNumber = 1 ∧ version.predecessorVersionId = none ∧
          after.versions.rows = tables.versions.rows ++ [version] ∧
          after.agreements.rows = tables.agreements.rows ++
            [{ createdRow organizationId workspaceId creation agreementId with
              currentVersionId := some versionId }]) := by
  unfold LineageTables.createAgreement at done
  dsimp only at done
  cases inserts : tables.agreements.insert
      (createdRow organizationId workspaceId creation agreementId) with
  | none =>
      rw [inserts] at done
      cases done
  | some agreements =>
      obtain ⟨fresh, added⟩ := Keyed.insert_eq_some inserts
      rw [inserts] at done
      dsimp only at done
      refine ⟨fresh, ?_⟩
      cases last : creation.files.getLast? with
      | none =>
          rw [last] at done
          cases done
          exact .inl ⟨rfl, added⟩
      | some source =>
          rw [last] at done
          obtain ⟨inserted, creates, replaces⟩ := bind_ok.mp done
          obtain ⟨-, -, kept, grown⟩ := LineageTables.createVersion_ok creates
          obtain ⟨versions, rows⟩ := replace_ok replaces
          let version : VersionRow :=
            { initialVersion (createdRow organizationId workspaceId creation
                agreementId).toAgreementRecord source versionId with
              predecessorVersionId := none }
          refine .inr ⟨version, rfl, rfl, rfl, rfl, by rw [versions, grown], ?_⟩
          rw [rows, kept, added, List.map_append, List.map_singleton, if_pos rfl]
          refine congrArg (· ++ _) ?_
          refine (List.map_congr_left fun row member => ?_).trans (List.map_id _)
          exact if_neg (fresh row member)

theorem Grows.createAgreement {creation : CreateAgreementRequest}
    (done : tables.createAgreement organizationId workspaceId creation agreementId versionId =
      .ok after) : Grows tables after := by
  obtain ⟨fresh, ⟨versions, rows⟩ | ⟨version, -, -, -, -, grown, rows⟩⟩ := createAgreement_ok done
  · refine Grows.of_concat rows fresh fun otherId other member => ?_
    rwa [own, versions]
  · exact Grows.of_concat rows fresh fun otherId other member => mem_own_concat grown member

/-! The invariant of the tables -/

/-- The versions of an agreement form a chain, and the agreement names its last two. -/
structure Descends (versions : List VersionRow) (agreement : AgreementRow) : Prop where
  chained : Chained (fun row => row.id) (fun row => row.versionNumber)
    (fun row => row.predecessorVersionId) versions
  current : agreement.currentVersionId = versions.getLast?.map (·.id)
  baseline : agreement.comparisonBaselineVersionId = versions.dropLast.getLast?.map (·.id)

structure Coherent (tables : LineageTables) : Prop where
  traced : ∀ agreement ∈ tables.agreements.rows, Descends (tables.own agreement.id) agreement
  owned : ∀ version ∈ tables.versions.rows, ∃ agreement ∈ tables.agreements.rows,
    agreement.id = version.agreementId

theorem Coherent.empty : Coherent LineageTables.empty := ⟨nofun, nofun⟩

theorem Descends.concat {versions : List VersionRow} {old : AgreementRow}
    (traced : Descends versions old) (number : record.versionNumber = versions.length + 1)
    (names : record.predecessorVersionId = versions.getLast?.map (·.id))
    (current : row.currentVersionId = some record.id)
    (baseline : row.comparisonBaselineVersionId = versions.getLast?.map (·.id)) :
    Descends (versions ++ [record]) row where
  chained := traced.chained.concat number names
  current := by simp [current]
  baseline := by simp [baseline]

/-- What a request has read is the end of the chain, when no key refuses the version that it
makes of it. -/
theorem Descends.ends {versions : List VersionRow} (traced : Descends versions row)
    (read : ∀ version ∈ current, version ∈ versions)
    (free : ∀ version ∈ versions, version.versionNumber ≠ currentNumber current + 1) :
    versions.getLast? = current ∧ versions.length = currentNumber current := by
  cases current with
  | none =>
      have none_there : versions.length = 0 := by
        by_contra some_there
        obtain ⟨version, member, number⟩ :=
          traced.chained.taken (Nat.le_refl 1) (show 1 ≤ versions.length by omega)
        exact free version member number
      rw [List.length_eq_zero_iff] at none_there
      simp [none_there, currentNumber]
  | some version =>
      obtain ⟨last, length⟩ := traced.chained.last_of_free (read version rfl) free
      exact ⟨last, length.symm⟩

/-- A request writes only when the version it has read is still the last. -/
theorem VersionRequest.write_ends (coherent : Coherent tables)
    (read : tables.Active agreement.id → ∀ version ∈ current, version ∈ tables.own agreement.id)
    (done : request.write tables agreement current = .ok after) :
    (tables.own agreement.id).getLast? = current ∧
      (tables.own agreement.id).length = currentNumber current := by
  obtain ⟨active, free, -, -⟩ := request.write_ok done
  obtain ⟨row, member, named, -⟩ := id active
  have traced : Descends (tables.own agreement.id) row := by
    rw [← named]
    exact coherent.traced row member
  refine traced.ends (read active) fun version listed taken => ?_
  obtain ⟨stored, belongs⟩ := mem_own.mp listed
  exact free version stored (.inr ⟨belongs, .inl taken⟩)

theorem Coherent.write (coherent : Coherent tables)
    (read : tables.Active agreement.id → ∀ version ∈ current, version ∈ tables.own agreement.id)
    (done : request.write tables agreement current = .ok after) : Coherent after := by
  obtain ⟨last, length⟩ := request.write_ends coherent read done
  obtain ⟨⟨stored, known, named, -⟩, -, grown, rows⟩ := request.write_ok done
  constructor
  · intro row member
    rw [rows] at member
    obtain ⟨old, before, rfl⟩ := List.mem_map.mp member
    have traced := coherent.traced old before
    by_cases hit : old.id = agreement.id
    · rw [if_pos hit]
      rw [hit] at traced
      have longer : after.own old.id =
          tables.own agreement.id ++ [request.record agreement current] := by
        rw [own_concat grown, request.record_agreementId, if_pos hit.symm, hit]
      refine (congrArg (Descends · _) longer).mpr (traced.concat ?_ ?_ rfl ?_)
      · rw [length]
        rfl
      · rw [last]
        rfl
      · rw [last]
        rfl
    · rw [if_neg hit, own_concat grown, request.record_agreementId,
        if_neg fun same => hit same.symm]
      exact traced
  · intro version member
    rw [grown, List.mem_append, List.mem_singleton] at member
    rw [rows]
    obtain before | rfl := member
    · obtain ⟨old, there, same⟩ := coherent.owned version before
      refine ⟨_, List.mem_map_of_mem there, ?_⟩
      by_cases hit : old.id = agreement.id
      · rw [if_pos hit]
        exact same
      · rw [if_neg hit]
        exact same
    · refine ⟨_, List.mem_map_of_mem known, ?_⟩
      rw [if_pos named]
      exact named

theorem Coherent.createAgreement (coherent : Coherent tables) {creation : CreateAgreementRequest}
    (done : tables.createAgreement organizationId workspaceId creation agreementId versionId =
      .ok after) : Coherent after := by
  obtain ⟨fresh, created⟩ := createAgreement_ok done
  have bare : tables.own agreementId = [] := by
    refine List.filter_eq_nil_iff.mpr fun version member => ?_
    obtain ⟨agreement, known, same⟩ := coherent.owned version member
    have other := fresh agreement known
    rw [same] at other
    simpa using other
  have others : ∀ row ∈ tables.agreements.rows, agreementId ≠ row.id :=
    fun row member same => fresh row member same.symm
  obtain ⟨versions, rows⟩ | ⟨version, named, belongs, number, names, grown, rows⟩ := created
  · have same : ∀ otherId, after.own otherId = tables.own otherId := fun otherId => by
      rw [own, versions, own]
    constructor
    · intro row member
      rw [rows, List.mem_append, List.mem_singleton] at member
      rw [same]
      obtain before | rfl := member
      · exact coherent.traced row before
      · refine (congrArg (Descends · _) bare).mpr ⟨Chained.nil, rfl, rfl⟩
    · intro version member
      rw [versions] at member
      obtain ⟨agreement, known, belongs⟩ := coherent.owned version member
      exact ⟨agreement, by simp [rows, known], belongs⟩
  · constructor
    · intro row member
      rw [rows, List.mem_append, List.mem_singleton] at member
      rw [own_concat grown, belongs]
      obtain before | rfl := member
      · rw [if_neg (others row before)]
        exact coherent.traced row before
      · have first : Descends ([] ++ [version]) { createdRow organizationId workspaceId creation
            agreementId with currentVersionId := some versionId } := by
          refine ⟨Chained.nil.concat number names, ?_, rfl⟩
          rw [List.nil_append, List.getLast?_singleton, Option.map_some, named]
        refine (congrArg (Descends · _) ?_).mpr first
        rw [← bare]
        exact if_pos rfl
    · intro other member
      rw [grown, List.mem_append, List.mem_singleton] at member
      rw [rows]
      obtain before | rfl := member
      · obtain ⟨agreement, known, same⟩ := coherent.owned other before
        exact ⟨agreement, List.mem_append_left _ known, same⟩
      · exact ⟨_, List.mem_append_right _ List.mem_cons_self, belongs.symm⟩

theorem Coherent.acceptDeletion (coherent : Coherent tables) (now : Time) :
    Coherent (tables.acceptDeletion agreementId now) := by
  constructor
  · intro row member
    obtain ⟨old, before, rfl⟩ := List.mem_map.mp member
    have traced := coherent.traced old before
    by_cases hit : old.id = agreementId ∧ old.deletionRequestedAt = none
    · rw [if_pos hit]
      exact ⟨traced.chained, traced.current, traced.baseline⟩
    · rw [if_neg hit]
      exact traced
  · intro version member
    obtain ⟨old, known, belongs⟩ := coherent.owned version member
    obtain ⟨row, there, same⟩ := (Grows.acceptDeletion now).known old known
    exact ⟨row, there, same.trans belongs⟩

theorem Coherent.purge (coherent : Coherent tables) : Coherent (tables.purge agreementId) := by
  obtain same | ⟨-, versions, rows⟩ := tables.purge_cases agreementId
  · rw [same]
    exact coherent
  constructor
  · intro row member
    rw [rows] at member
    obtain ⟨old, before, rfl⟩ := List.mem_map.mp member
    by_cases hit : old.id = agreementId
    · rw [if_pos hit]
      have gone : (tables.purge agreementId).own old.id = [] := by
        rw [own, versions, hit]
        simp
      exact (congrArg (Descends · _) gone).mpr ⟨Chained.nil, rfl, rfl⟩
    · rw [if_neg hit]
      have kept : (tables.purge agreementId).own old.id = tables.own old.id := by
        rw [own, versions, List.filter_filter]
        refine List.filter_congr fun version _ => ?_
        by_cases belongs : version.agreementId = old.id <;> simp [belongs, hit]
      rw [kept]
      exact coherent.traced old before
  · intro version member
    rw [versions, List.mem_filter] at member
    obtain ⟨old, known, belongs⟩ := coherent.owned version member.1
    obtain ⟨row, there, same⟩ := Grows.purge.known old known
    exact ⟨row, there, same.trans belongs⟩

/-! What a request has read -/

/-- What a request knows is of its agreement; the version it goes by still stands, unless the
agreement's deletion is requested. -/
def Stands (tables : LineageTables) (request : VersionRequest) : Progress → Prop
  | .found agreement | .unused agreement => Reads agreement
  | .expected agreement current | .distinct agreement current => Reads agreement ∧
      request.expectedCurrentVersion = currentNumber current ∧
        (tables.Active agreement.id → ∀ version ∈ current, version ∈ tables.own agreement.id)
  | .authorized | .returned .. | .raised _ => True
where
  Reads (agreement : AgreementRow) : Prop :=
    agreement.id = request.agreementId ∧ ∃ row ∈ tables.agreements.rows, row.id = agreement.id

theorem Stands.grow (sound : Stands tables request progress) (grows : Grows tables after) :
    Stands after request progress := by
  have reads : ∀ {agreement}, Stands.Reads tables request agreement →
      Stands.Reads after request agreement := by
    rintro agreement ⟨named, row, member, same⟩
    obtain ⟨other, there, equal⟩ := grows.known row member
    exact ⟨named, other, there, equal.trans same⟩
  have stands : ∀ {agreement : AgreementRow} {current : Option VersionRow},
      Stands.Reads tables request agreement →
      (tables.Active agreement.id → ∀ version ∈ current, version ∈ tables.own agreement.id) →
      after.Active agreement.id → ∀ version ∈ current, version ∈ after.own agreement.id := by
    rintro agreement current ⟨-, row, member, same⟩ read active version listed
    have before : tables.Active agreement.id := by
      rw [← same] at active ⊢
      exact grows.active row member active
    exact grows.kept _ active version (read before version listed)
  cases progress with
  | authorized | returned | raised => trivial
  | found agreement | unused agreement => exact reads sound
  | expected agreement current | distinct agreement current =>
      exact ⟨reads sound.1, sound.2.1, stands sound.1 sound.2.2⟩

theorem mem_listVersions {version : VersionRow}
    (member : version ∈ tables.listVersions agreementId) :
    version ∈ tables.own agreementId := by
  unfold LineageTables.listVersions at member
  by_cases active : (tables.get agreementId).isSome
  · rw [if_pos active] at member
    exact List.mem_mergeSort.mp member
  · rw [if_neg active] at member
    cases member

/-- The next statement of a call: it writes, or it only reads. -/
theorem VersionRequest.next_cases (sound : Stands tables request progress) :
    ((request.next tables progress).1 = tables ∧
        Stands tables request (request.next tables progress).2) ∨
      ∃ agreement current, progress = .distinct agreement current ∧
        request.write tables agreement current = .ok (request.next tables progress).1 ∧
        (request.next tables progress).2 = .returned (request.record agreement current) true := by
  cases progress with
  | returned | raised => exact .inl ⟨rfl, trivial⟩
  | authorized =>
      refine .inl ?_
      simp only [next]
      cases found : tables.visibleAgreement request.agreementId request.organizationId
        request.workspaceId with
      | error => exact ⟨rfl, trivial⟩
      | ok agreement =>
          obtain ⟨member, named, -⟩ := visibleAgreement_ok found
          exact ⟨rfl, named, agreement, member, rfl⟩
  | found agreement =>
      refine .inl ?_
      simp only [next]
      cases tables.versionByIdempotencyKey agreement.id request.idempotencyKey with
      | none => exact ⟨rfl, sound⟩
      | some existing =>
          by_cases same : existing.checksum = request.uploaded.sha256
          · simp [same, Stands]
          · simp [same, Stands]
  | unused agreement =>
      refine .inl ?_
      simp only [next]
      by_cases stale : request.expectedCurrentVersion ≠
          currentNumber (tables.listVersions agreement.id).getLast?
      · rw [if_pos stale]
        exact ⟨rfl, trivial⟩
      · rw [if_neg stale]
        refine ⟨rfl, sound, not_not.mp stale, fun _ version last => ?_⟩
        exact mem_listVersions (List.mem_of_getLast? last)
  | expected agreement current =>
      refine .inl ?_
      simp only [next]
      by_cases taken : (tables.versionByChecksum agreement.id request.uploaded.sha256).isSome
      · rw [if_pos taken]
        exact ⟨rfl, trivial⟩
      · rw [if_neg taken]
        exact ⟨rfl, sound⟩
  | distinct agreement current =>
      simp only [next]
      cases done : request.write tables agreement current with
      | error => exact .inl ⟨rfl, trivial⟩
      | ok written => exact .inr ⟨agreement, current, rfl, done, rfl⟩

/-! The invariant of the system -/

namespace VersionSystem

structure Lawful (system : VersionSystem) : Prop where
  coherent : Coherent system.tables
  sound : ∀ call ∈ system.requests, Stands system.tables call.1 call.2

theorem Lawful.empty : Lawful VersionSystem.empty :=
  ⟨Coherent.empty, fun _ member => absurd member List.not_mem_nil⟩

/-- Tables that have grown, under the same calls. -/
theorem Lawful.grow (lawful : system.Lawful) (coherent : Coherent after)
    (grows : Grows system.tables after) : Lawful { system with tables := after } :=
  ⟨coherent, fun call member => (lawful.sound call member).grow grows⟩

/-- The call at a place moves on, or is cut off. -/
theorem Lawful.set (lawful : system.Lawful) (sound : Stands system.tables request progress) :
    Lawful { system with requests := system.requests.set place (request, progress) } := by
  refine ⟨lawful.coherent, fun call member => ?_⟩
  obtain before | rfl := List.mem_or_eq_of_mem_set member
  · exact lawful.sound call before
  · exact sound

/-- One step keeps what holds of the tables and the calls, and takes nothing away. -/
theorem step_lawful (lawful : system.Lawful) (event : VersionEvent) :
    (step system event).Lawful ∧ Grows system.tables (step system event).tables := by
  cases event with
  | «open» request =>
      refine ⟨⟨lawful.coherent, fun call member => ?_⟩, Grows.refl _⟩
      obtain before | last := List.mem_append.mp member
      · exact lawful.sound call before
      · rw [List.mem_singleton.mp last]
        trivial
  | advance place =>
      simp only [step]
      cases here : system.requests[place]? with
      | none => exact ⟨lawful, Grows.refl _⟩
      | some call =>
          obtain ⟨request, progress⟩ := call
          have sound := lawful.sound _ (List.mem_of_getElem? here)
          obtain ⟨same, reached⟩ | ⟨agreement, current, rfl, done, reached⟩ :=
            request.next_cases sound
          · dsimp only
            rw [same]
            exact ⟨lawful.set reached, Grows.refl _⟩
          · have grows := request.write_grows done
            have coherent := lawful.coherent.write sound.2.2 done
            refine ⟨(lawful.grow coherent grows).set ?_, grows⟩
            rw [reached]
            trivial
  | cut place =>
      simp only [step]
      cases system.requests[place]? with
      | none => exact ⟨lawful, Grows.refl _⟩
      | some call => exact ⟨lawful.set trivial, Grows.refl _⟩
  | createAgreement organizationId workspaceId creation agreementId versionId =>
      simp only [step]
      cases done : system.tables.createAgreement organizationId workspaceId creation agreementId
          versionId with
      | error => exact ⟨lawful, Grows.refl _⟩
      | ok tables =>
          have grows := Grows.createAgreement done
          exact ⟨lawful.grow (lawful.coherent.createAgreement done) grows, grows⟩
  | acceptDeletion agreementId now =>
      have grows : Grows system.tables (system.tables.acceptDeletion agreementId now) :=
        Grows.acceptDeletion now
      exact ⟨lawful.grow (lawful.coherent.acceptDeletion now) grows, grows⟩
  | purge agreementId =>
      exact ⟨lawful.grow lawful.coherent.purge Grows.purge, Grows.purge⟩
  | register registry =>
      have grows : Grows system.tables { system.tables with registry } := Grows.register registry
      exact ⟨lawful.grow ⟨lawful.coherent.traced, lawful.coherent.owned⟩ grows, grows⟩

theorem lawful_of_run (events : List VersionEvent) : (run step empty events).Lawful :=
  run_invariant Lawful Lawful.empty fun _ event lawful => (step_lawful lawful event).1

/-- What a step does to the call at a place. -/
theorem step_call (here : system.requests[place]? = some (request, progress))
    (event : VersionEvent) :
    (step system event).requests[place]? = some (request, progress) ∨
      (∃ error, (step system event).requests[place]? = some (request, .raised error)) ∨
      (step system event).requests[place]? =
          some (request, (request.next system.tables progress).2) ∧
        (step system event).tables = (request.next system.tables progress).1 := by
  have inside := (List.getElem?_eq_some_iff.mp here).1
  cases event with
  | «open» other => exact .inl (by simp [step, List.getElem?_append_left inside, here])
  | advance other =>
      by_cases same : other = place
      · subst same
        refine .inr (.inr ?_)
        simp only [step, here]
        exact ⟨List.getElem?_set_self inside, trivial⟩
      · refine .inl ?_
        simp only [step]
        cases system.requests[other]? with
        | none => exact here
        | some call => simp [List.getElem?_set_ne same, here]
  | cut other =>
      by_cases same : other = place
      · subst same
        refine .inr (.inl ⟨.runtime "connection closed", ?_⟩)
        simp only [step, here]
        exact List.getElem?_set_self inside
      · refine .inl ?_
        simp only [step]
        cases system.requests[other]? with
        | none => exact here
        | some call => simp [List.getElem?_set_ne same, here]
  | createAgreement organizationId workspaceId creation agreementId versionId =>
      simp only [step]
      cases system.tables.createAgreement organizationId workspaceId creation agreementId
          versionId with
      | error => exact .inl here
      | ok tables => exact .inl here
  | acceptDeletion | purge | register => exact .inl here

end VersionSystem

/-! The lineage -/

theorem Coherent.versionsOf (coherent : Coherent tables)
    (member : agreement ∈ tables.agreements.rows) :
    tables.versionsOf agreement.id = tables.own agreement.id := by
  refine List.mergeSort_of_pairwise ?_
  simp only [decide_eq_true_eq]
  exact (coherent.traced agreement member).chained.sorted

theorem Coherent.lineage (coherent : Coherent tables)
    (member : agreement ∈ tables.agreements.rows) : Lineage tables agreement := by
  have traced := coherent.traced agreement member
  constructor <;> rw [coherent.versionsOf member]
  · exact traced.chained.numbers
  · exact fun version => traced.chained.first
  · exact fun k earlier later => traced.chained.linked
  · have own : (tables.own agreement.id).Pairwise fun one other => ¬ one.Clashes other :=
      tables.versions.unique.filter _
    refine List.pairwise_map.mpr (own.imp_of_mem fun {one other} first second apart same => ?_)
    have belongs := (mem_own.mp first).2.trans (mem_own.mp second).2.symm
    exact apart (.inr ⟨belongs, .inr (.inl same)⟩)
  · exact traced.current
  · exact traced.baseline

/-! Calls that come too late -/

/-- A call whose expected version is not the last one changes nothing. -/
theorem VersionRequest.next_stale (coherent : Coherent tables)
    (sound : Stands tables request progress)
    (stale : request.expectedCurrentVersion ≠ (tables.versionsOf request.agreementId).length) :
    (request.next tables progress).1 = tables := by
  obtain ⟨same, -⟩ | ⟨agreement, current, rfl, done, -⟩ := request.next_cases sound
  · exact same
  · obtain ⟨⟨named, row, member, same⟩, expected, read⟩ := sound
    obtain ⟨-, length⟩ := request.write_ends coherent read done
    rw [← named, ← same, coherent.versionsOf member, same, length] at stale
    exact absurd expected stale

/-! Calls that come again -/

/-- The call repeats the one that has made this version. -/
structure Replays (tables : LineageTables) (request : VersionRequest) (existing : VersionRow) :
    Prop where
  stored : existing ∈ tables.versions.rows
  agreementId : existing.agreementId = request.agreementId
  idempotencyKey : existing.idempotencyKey = request.idempotencyKey
  checksum : existing.checksum = request.uploaded.sha256

/-- The call has still to look its key up. -/
def Progress.BeforeLookup : Progress → Prop
  | .authorized | .found _ => True
  | .unused _ | .expected .. | .distinct .. | .returned .. | .raised _ => False

/-- How far a repeated call can come. -/
def Progress.Repeats (existing : VersionRow) : Progress → Prop
  | .authorized | .found _ | .raised _ => True
  | .returned response created => response = existing ∧ created = false
  | .unused _ | .expected .. | .distinct .. => False

variable {existing : VersionRow}

/-- The lookup of a repeated call finds the version. -/
theorem Replays.lookup (replays : Replays tables request existing)
    (active : tables.Active request.agreementId) :
    tables.versionByIdempotencyKey request.agreementId request.idempotencyKey = some existing := by
  rw [LineageTables.versionByIdempotencyKey, if_pos (get_isSome.mpr active)]
  cases found : tables.versions.rows.find? fun row =>
      row.agreementId = request.agreementId ∧ row.idempotencyKey = request.idempotencyKey with
  | none =>
      have missed := List.find?_eq_none.mp found existing replays.stored
      simp [replays.agreementId, replays.idempotencyKey] at missed
  | some row =>
      have met := List.find?_some found
      rw [decide_eq_true_eq] at met
      have clash : row.Clashes existing := .inr ⟨met.1.trans replays.agreementId.symm,
        .inr (.inr (met.2.trans replays.idempotencyKey.symm))⟩
      rw [eq_of_clashes (List.mem_of_find?_eq_some found) replays.stored clash]

theorem Replays.next_found (replays : Replays tables request existing)
    (active : tables.Active request.agreementId) (named : agreement.id = request.agreementId) :
    request.next tables (.found agreement) = (tables, .returned existing false) := by
  simp only [VersionRequest.next]
  rw [named, replays.lookup active]
  simp [replays.checksum]

/-- A repeated call of an agreement that is not deletion-requested only reads. -/
theorem Replays.next (replays : Replays tables request existing)
    (active : tables.Active request.agreementId) (sound : Stands tables request progress)
    (repeats : progress.Repeats existing) :
    (request.next tables progress).1 = tables ∧
      (request.next tables progress).2.Repeats existing := by
  cases progress with
  | unused | expected | distinct => exact repeats.elim
  | returned | raised => exact ⟨rfl, repeats⟩
  | authorized =>
      simp only [VersionRequest.next]
      cases tables.visibleAgreement request.agreementId request.organizationId
        request.workspaceId with
      | error => exact ⟨rfl, trivial⟩
      | ok agreement => exact ⟨rfl, trivial⟩
  | found agreement =>
      rw [replays.next_found active sound.1]
      exact ⟨rfl, rfl, rfl⟩

/-- Nothing is found or written for an agreement whose deletion is requested. -/
theorem VersionRequest.next_inactive (inactive : ¬ tables.Active request.agreementId)
    (sound : Stands tables request progress) :
    (request.next tables progress).1 = tables ∧
      ((request.next tables progress).2 = progress ∨
        ∀ response created, (request.next tables progress).2 ≠ .returned response created) := by
  cases progress with
  | returned | raised => exact ⟨rfl, .inl rfl⟩
  | authorized =>
      simp only [VersionRequest.next]
      cases tables.visibleAgreement request.agreementId request.organizationId
        request.workspaceId with
      | error => exact ⟨rfl, .inr nofun⟩
      | ok agreement => exact ⟨rfl, .inr nofun⟩
  | found agreement =>
      have missed : tables.versionByIdempotencyKey agreement.id request.idempotencyKey = none := by
        rw [sound.1]
        exact if_neg fun active => inactive (get_isSome.mp active)
      simp only [VersionRequest.next]
      rw [missed]
      exact ⟨rfl, .inr nofun⟩
  | unused agreement =>
      simp only [VersionRequest.next]
      by_cases stale : request.expectedCurrentVersion ≠
          currentNumber (tables.listVersions agreement.id).getLast?
      · rw [if_pos stale]
        exact ⟨rfl, .inr nofun⟩
      · rw [if_neg stale]
        exact ⟨rfl, .inr nofun⟩
  | expected agreement current =>
      simp only [VersionRequest.next]
      by_cases taken : (tables.versionByChecksum agreement.id request.uploaded.sha256).isSome
      · rw [if_pos taken]
        exact ⟨rfl, .inr nofun⟩
      · rw [if_neg taken]
        exact ⟨rfl, .inr nofun⟩
  | distinct agreement current =>
      simp only [VersionRequest.next]
      cases done : request.write tables agreement current with
      | error => exact ⟨rfl, .inr nofun⟩
      | ok written =>
          have active := (request.write_ok done).1
          rw [sound.1.1] at active
          exact absurd active inactive

namespace VersionSystem

/-- The call at a place repeats the one that has made this version. -/
structure Repeating (existing : VersionRow) (request : VersionRequest) (place : Nat)
    (system : VersionSystem) : Prop where
  lawful : system.Lawful
  known : ∃ row ∈ system.tables.agreements.rows, row.id = request.agreementId
  call : ∃ progress, system.requests[place]? = some (request, progress) ∧
    (∀ response created, progress = .returned response created →
      response = existing ∧ created = false) ∧
    (system.tables.Active request.agreementId →
      Replays system.tables request existing ∧ progress.Repeats existing)

theorem Repeating.next (repeating : Repeating existing request place system) :
    ∃ progress, system.requests[place]? = some (request, progress) ∧
      (request.next system.tables progress).1 = system.tables ∧
      (∀ response created, (request.next system.tables progress).2 = .returned response created →
        response = existing ∧ created = false) ∧
      (system.tables.Active request.agreementId →
        (request.next system.tables progress).2.Repeats existing) := by
  obtain ⟨progress, here, returns, stands⟩ := repeating.call
  have sound := repeating.lawful.sound _ (List.mem_of_getElem? here)
  refine ⟨progress, here, ?_⟩
  by_cases active : system.tables.Active request.agreementId
  · obtain ⟨replays, repeats⟩ := stands active
    obtain ⟨same, reached⟩ := replays.next active sound repeats
    refine ⟨same, fun response created returned => ?_, fun _ => reached⟩
    rw [returned] at reached
    exact reached
  · obtain ⟨same, stuck⟩ := request.next_inactive active sound
    refine ⟨same, fun response created returned => ?_, fun now => absurd now active⟩
    obtain unmoved | never := stuck
    · exact returns response created (unmoved.symm.trans returned)
    · exact absurd returned (never response created)

theorem Repeating.step (repeating : Repeating existing request place system)
    (event : VersionEvent) : Repeating existing request place (step system event) := by
  obtain ⟨lawful, grows⟩ := step_lawful repeating.lawful event
  obtain ⟨row, member, named⟩ := repeating.known
  obtain ⟨other, there, same⟩ := grows.known row member
  refine ⟨lawful, ⟨other, there, same.trans named⟩, ?_⟩
  obtain ⟨progress, here, returns, stands⟩ := repeating.call
  have before : (VersionSystem.step system event).tables.Active request.agreementId →
      system.tables.Active request.agreementId := by
    rw [← named]
    exact grows.active row member
  have replays : (VersionSystem.step system event).tables.Active request.agreementId →
      Replays (VersionSystem.step system event).tables request existing := by
    intro active
    have replays := (stands (before active)).1
    refine ⟨?_, replays.agreementId, replays.idempotencyKey, replays.checksum⟩
    have own := mem_own.mpr ⟨replays.stored, replays.agreementId⟩
    exact (mem_own.mp (grows.kept _ active existing own)).1
  obtain waits | ⟨error, fails⟩ | ⟨moves, -⟩ := step_call here event
  · exact ⟨progress, waits, returns, fun active => ⟨replays active, (stands (before active)).2⟩⟩
  · exact ⟨_, fails, nofun, fun active => ⟨replays active, trivial⟩⟩
  · obtain ⟨other, listed, -, returns, repeats⟩ := repeating.next
    cases here.symm.trans listed
    exact ⟨_, moves, returns, fun active => ⟨replays active, repeats (before active)⟩⟩

/-- The call at a place writes nothing, and what it has returned is this version. -/
def OnlyReturns (existing : VersionRow) (request : VersionRequest) (place : Nat)
    (system : VersionSystem) : Prop :=
  (step system (.advance place)).tables = system.tables ∧
    ∀ response created, system.requests[place]? = some (request, .returned response created) →
      response = existing ∧ created = false

theorem advance_tables (here : system.requests[place]? = some (request, progress)) :
    (step system (.advance place)).tables = (request.next system.tables progress).1 := by
  simp only [step, here]

theorem advance_call (here : system.requests[place]? = some (request, progress)) :
    (step system (.advance place)).requests[place]? =
      some (request, (request.next system.tables progress).2) := by
  simp only [step, here]
  exact List.getElem?_set_self (List.getElem?_eq_some_iff.mp here).1

theorem Repeating.onlyReturns (repeating : Repeating existing request place system) :
    system.OnlyReturns existing request place := by
  obtain ⟨progress, here, same, -⟩ := repeating.next
  refine ⟨(advance_tables here).trans same, fun response created returned => ?_⟩
  obtain ⟨other, listed, returns, -⟩ := repeating.call
  cases returned.symm.trans listed
  exact returns response created rfl

theorem Lawful.repeating (lawful : system.Lawful)
    (here : system.requests[place]? = some (request, progress)) (early : progress.BeforeLookup)
    (replays : Replays system.tables request existing) :
    Repeating existing request place system := by
  obtain ⟨agreement, known, belongs⟩ := lawful.coherent.owned existing replays.stored
  refine ⟨lawful, ⟨agreement, known, belongs.trans replays.agreementId⟩, progress, here, ?_⟩
  cases progress with
  | unused | expected | distinct | returned | raised => exact early.elim
  | authorized | found => exact ⟨nofun, fun _ => ⟨replays, trivial⟩⟩

/-- The lookup of a repeated call returns the version that its key has made. -/
theorem Lawful.advance_twice (lawful : system.Lawful)
    (here : system.requests[place]? = some (request, progress)) (early : progress.BeforeLookup)
    (replays : Replays system.tables request existing)
    (visible : system.tables.visibleAgreement request.agreementId request.organizationId
      request.workspaceId = .ok agreement) :
    (run step system [.advance place, .advance place]).requests[place]? =
      some (request, .returned existing false) := by
  obtain ⟨member, named, undeleted⟩ := visibleAgreement_ok visible
  have active : system.tables.Active request.agreementId := ⟨agreement, member, named, undeleted⟩
  have first := advance_call here
  have tables := advance_tables here
  have second := advance_call first
  rw [run_cons, run_cons, run_nil, second, tables]
  cases progress with
  | unused | expected | distinct | returned | raised => exact early.elim
  | authorized =>
      have finds : request.next system.tables .authorized = (system.tables, .found agreement) := by
        simp only [VersionRequest.next]
        rw [visible]
      rw [finds, replays.next_found active named]
  | found agreement =>
      have sound := lawful.sound _ (List.mem_of_getElem? here)
      rw [replays.next_found active sound.1]
      rfl

/-- Whatever calls and deletions are under way: every agreement has a gapless chain of versions
with distinct checksums and points at its last two; a call under a key that has made a version of
the same content writes nothing, returns nothing but that version, and does return it; and a call
whose expected version is not the last one writes nothing. -/
theorem run_lineage (events : List VersionEvent) :
    let system := run step empty events
    (∀ agreement ∈ system.tables.agreements.rows, Lineage system.tables agreement) ∧
    (∀ place request progress existing, system.requests[place]? = some (request, progress) →
      progress.BeforeLookup → Replays system.tables request existing →
        (∀ more, (run step system more).OnlyReturns existing request place) ∧
        ∀ agreement, system.tables.visibleAgreement request.agreementId request.organizationId
            request.workspaceId = .ok agreement →
          (run step system [.advance place, .advance place]).requests[place]? =
            some (request, .returned existing false)) ∧
    ∀ place request progress, system.requests[place]? = some (request, progress) →
      request.expectedCurrentVersion ≠ (system.tables.versionsOf request.agreementId).length →
        (step system (.advance place)).tables = system.tables := by
  intro system
  have lawful : system.Lawful := lawful_of_run events
  refine ⟨fun agreement => lawful.coherent.lineage, ?_, ?_⟩
  · intro place request progress existing here early replays
    refine ⟨fun more => Repeating.onlyReturns ?_, fun agreement => ?_⟩
    · exact run_invariant _ (lawful.repeating here early replays) fun _ event repeating =>
        repeating.step event
    · exact lawful.advance_twice here early replays
  · intro place request progress here stale
    rw [advance_tables here]
    exact request.next_stale lawful.coherent (lawful.sound _ (List.mem_of_getElem? here)) stale

end VersionSystem

end AgreementIntelligence.Agreements
