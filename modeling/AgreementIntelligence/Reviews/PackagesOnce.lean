import AgreementIntelligence.Reviews.PackageDeliveries
import Mathlib.Data.List.Pairwise

/-! Final packages are made once. A delivery inserts the row of a package only when both of its
objects are in place with the checksums of the row, and nothing replaces an object. Under the lock
of the agreement's row the event of a delivery stays unprocessed until the delivery commits. -/

namespace AgreementIntelligence.Reviews
open Identity Lib Lib.Results Lib.Runs Lib.Sha256

variable {φ : Type} {codec : PackageCodec φ} {system after : PackageSystem φ}
  {event candidate : PackageEvent φ} {package : PreparedFinalPackage φ}
  {message : WorkflowMessage} {row other : FinalPackageRecord} {object : PackageObject}
  {existing : Option FinalPackageRecord} {stage : PackageStage φ} {packageId : Uuid} {now : Time}

/-! Preparation -/

/-- The event without the mark of its processing. -/
def PackageEvent.bare (event : PackageEvent φ) : PackageEvent φ :=
  { event with processedAt := none }

@[simp] theorem PackageEvent.bare_id : event.bare.id = event.id := rfl

@[simp] theorem PackageEvent.bare_agreementId : event.bare.agreementId = event.agreementId := rfl

theorem PackageEvent.bare_of_unprocessed (unprocessed : event.processedAt = none) :
    event.bare = event := by
  rw [bare, ← unprocessed]

theorem PackageEvent.bare_repairs : event.bare.repairs = event.repairs := rfl

theorem PackageEvent.bare_reviewId : event.bare.reviewId? codec = event.reviewId? codec := rfl

/-- The package is what `prepare` makes of the event. -/
def Makes (codec : PackageCodec φ) (event : PackageEvent φ) (package : PreparedFinalPackage φ) :
    Prop :=
  prepareEvent codec event event.workflowId event.correlationId = .ok package

theorem unfreeze_ok {frozen snapshot : Fields φ} {repair : Option (Fields φ × PackageRepair)}
    (done : unfreeze codec frozen = .ok (snapshot, repair)) :
    (Json.get frozen "repair" = .null ∧ snapshot = frozen ∧ repair = none) ∨
      (∃ fields, Json.get frozen "repair" = .object fields) ∧
        Json.get frozen "manifest" = .object snapshot ∧ repair.isSome := by
  unfold unfreeze at done
  split at done
  · rename_i none_asked
    cases done
    exact .inl ⟨none_asked, rfl, rfl⟩
  · rename_i fields asked
    split at done
    · rename_i manifest held
      split at done
      · cases done
      split at done
      · cases done
      split at done
      · cases done
      · cases done
        exact .inr ⟨⟨fields, asked⟩, held, rfl⟩
    · cases done
  · cases done

theorem packageOf_ok {snapshot : Fields φ} {repair : Option (Fields φ × PackageRepair)}
    (done : packageOf codec event snapshot repair = .ok package) :
    package.snapshot = snapshot ∧ package.repair.isSome = repair.isSome := by
  obtain ⟨agreementId, -, rest⟩ := bind_ok.mp done
  obtain ⟨reviewId, -, rest⟩ := bind_ok.mp rest
  split at rest
  · cases rest
  dsimp only at rest
  split at rest
  · cases rest
  split at rest
  · cases rest
  cases rest
  exact ⟨rfl, Option.isSome_map⟩

/-- A package is of a terminal event and of its manifest, and repairs when the event does. -/
theorem Makes.facts (makes : Makes codec event package) :
    event.eventType = terminalEvent ∧ event.manifest? = some package.snapshot ∧
      package.repair.isSome = event.repairs := by
  unfold Makes prepareEvent at makes
  split at makes
  · cases makes
  rename_i named
  rw [not_or, not_not] at named
  split at makes
  · cases makes
  rename_i frozen held
  obtain ⟨⟨snapshot, repair⟩, thaws, rest⟩ := bind_ok.mp makes
  dsimp only at rest
  split at rest
  · cases rest
  obtain ⟨sameSnapshot, sameRepair⟩ := packageOf_ok rest
  refine ⟨named.1, ?_⟩
  rw [PackageEvent.manifest?, PackageEvent.repairs, held, sameSnapshot, sameRepair]
  obtain ⟨none_asked, rfl, rfl⟩ | ⟨⟨fields, asked⟩, manifest, repaired⟩ := unfreeze_ok thaws
  · simp [none_asked]
  · simp [asked, manifest, repaired]

/-! The operations on the tables -/

theorem PackageTable.insert_eq_some {table grown : PackageTable}
    (inserts : table.insert row = some grown) :
    (∀ old ∈ table.rows, ¬ old.Clashes row) ∧ grown.rows = table.rows ++ [row] := by
  unfold PackageTable.insert at inserts
  by_cases free : ∀ old ∈ table.rows, ¬ old.Clashes row
  · rw [dif_pos free] at inserts
    cases inserts
    exact ⟨free, rfl⟩
  · rw [dif_neg free] at inserts
    cases inserts

theorem PackageTable.update_eq_some {table changed : PackageTable}
    {hit : FinalPackageRecord → Prop} [DecidablePred hit]
    {change : FinalPackageRecord → FinalPackageRecord}
    (updates : table.update hit change = some changed) :
    changed.rows = table.rows.map fun row => if hit row then change row else row := by
  unfold PackageTable.update at updates
  dsimp only at updates
  split at updates
  · cases updates
    rfl
  · cases updates

instance : Std.Symm fun one other : FinalPackageRecord => ¬ one.Clashes other where
  symm one other apart clash := by
    obtain id | review | manifest | pdf := clash
    · exact apart (.inl id.symm)
    · exact apart (.inr (.inl review.symm))
    · exact apart (.inr (.inr (.inl manifest.symm)))
    · exact apart (.inr (.inr (.inr pdf.symm)))

/-- A key names one row. -/
theorem PackageTable.eq_of_clashes {table : PackageTable} (first : row ∈ table.rows)
    (second : other ∈ table.rows) (clash : row.Clashes other) : row = other := by
  by_contra differ
  exact table.unique.forall first second differ clash

namespace PackageSystem

/-- An object is in place whose content has the checksum. -/
def Stored (system : PackageSystem φ) (key checksum : String) : Prop :=
  ∃ object, system.read key = some object ∧ hexdigest object.content = checksum

/-- An event of the migration repairs the package of the review. -/
def Repaired (codec : PackageCodec φ) (system : PackageSystem φ) (reviewId : Uuid) : Prop :=
  ∃ event ∈ system.outbox.rows, event.repairs ∧ event.reviewId? codec = some reviewId

/-- What every step leaves standing. -/
structure Extends (codec : PackageCodec φ) (before after : PackageSystem φ) : Prop where
  outbox : ∀ event ∈ before.outbox.rows, ∃ other ∈ after.outbox.rows, other.bare = event.bare
  storage : ∀ key object, before.read key = some object → after.read key = some object
  rows : ∀ row ∈ before.packages.rows, ∃ other ∈ after.packages.rows,
    other.id = row.id ∧ other.reviewId = row.reviewId ∧
      (¬ after.Repaired codec row.reviewId → other = row)

theorem Extends.refl (system : PackageSystem φ) : Extends codec system system where
  outbox event member := ⟨event, member, rfl⟩
  storage _ _ found := found
  rows row member := ⟨row, member, rfl, rfl, fun _ => rfl⟩

theorem Extends.repaired (extended : Extends codec system after) {reviewId : Uuid}
    (repaired : system.Repaired codec reviewId) : after.Repaired codec reviewId := by
  obtain ⟨event, member, repairs, review⟩ := repaired
  obtain ⟨other, there, same⟩ := extended.outbox event member
  refine ⟨other, there, ?_, ?_⟩
  · rw [← PackageEvent.bare_repairs, same, PackageEvent.bare_repairs]
    exact repairs
  · rw [← PackageEvent.bare_reviewId, same, PackageEvent.bare_reviewId]
    exact review

theorem Extends.stored (extended : Extends codec system after) {key checksum : String}
    (there : system.Stored key checksum) : after.Stored key checksum := by
  obtain ⟨object, found, sum⟩ := there
  exact ⟨object, extended.storage key object found, sum⟩

theorem Extends.trans {first second third : PackageSystem φ} (one : Extends codec first second)
    (two : Extends codec second third) : Extends codec first third where
  outbox event member := by
    obtain ⟨other, there, same⟩ := one.outbox event member
    obtain ⟨last, found, equal⟩ := two.outbox other there
    exact ⟨last, found, equal.trans same⟩
  storage key object found := two.storage key object (one.storage key object found)
  rows row member := by
    obtain ⟨other, there, id, review, same⟩ := one.rows row member
    obtain ⟨last, found, sameId, sameReview, equal⟩ := two.rows other there
    refine ⟨last, found, sameId.trans id, sameReview.trans review, fun unrepaired => ?_⟩
    have unchanged := same fun repaired => unrepaired (two.repaired repaired)
    rw [review] at equal
    exact (equal unrepaired).trans unchanged

/-! What a delivery goes by -/

/-- The candidate of a delivery was read from the row of its event, unprocessed. -/
structure Drawn (system : PackageSystem φ) (message : WorkflowMessage)
    (candidate : PackageEvent φ) : Prop where
  id : candidate.id = message.eventId
  unprocessed : candidate.processedAt = none
  row : ∃ event ∈ system.outbox.rows, event.bare = candidate

/-- The row that a delivery has found for the review of its package. -/
def Found (codec : PackageCodec φ) (system : PackageSystem φ)
    (package : PreparedFinalPackage φ) : Option FinalPackageRecord → Prop
  | none => package.repair = none
  | some existing =>
    (∃ row ∈ system.packages.rows, row.id = existing.id ∧ row.reviewId = existing.reviewId) ∧
      columnUuid codec package.snapshot "review_id" = .ok existing.reviewId ∧
      (∀ repair ∈ package.repair, repair.packageId = existing.id) ∧
      (package.repair = none → metadataMatches codec existing package)

/-- The objects before the rest are in place. -/
def Ensured (system : PackageSystem φ) (package : PreparedFinalPackage φ)
    (rest : List PackageObject) : Prop :=
  ∃ done, package.objects = done ++ rest ∧
    ∀ object ∈ done, system.Stored object.key (hexdigest object.content)

def Sound (codec : PackageCodec φ) (system : PackageSystem φ) (message : WorkflowMessage) :
    PackageStage φ → Prop
  | .received | .skipped | .processed | .raised _ => True
  | .prepared candidate package =>
    Drawn system message candidate ∧ ∀ made ∈ package, Makes codec candidate made
  | .locked candidate package =>
    Drawn system message candidate ∧ (∀ made ∈ package, Makes codec candidate made) ∧
      candidate ∈ system.outbox.rows
  | .ensuring candidate package existing rest _ =>
    Drawn system message candidate ∧ Makes codec candidate package ∧
      candidate ∈ system.outbox.rows ∧ Found codec system package existing ∧
      Ensured system package rest

theorem Drawn.extend (drawn : Drawn system message candidate)
    (extended : Extends codec system after) : Drawn after message candidate := by
  obtain ⟨event, member, same⟩ := drawn.row
  obtain ⟨other, there, equal⟩ := extended.outbox event member
  exact ⟨drawn.id, drawn.unprocessed, other, there, equal.trans same⟩

theorem Found.extend (found : Found codec system package existing)
    (extended : Extends codec system after) : Found codec after package existing := by
  cases existing with
  | none => exact found
  | some existing =>
      obtain ⟨⟨row, member, id, review⟩, rest⟩ := found
      obtain ⟨other, there, sameId, sameReview, -⟩ := extended.rows row member
      exact ⟨⟨other, there, sameId.trans id, sameReview.trans review⟩, rest⟩

theorem Ensured.extend {rest : List PackageObject} (ensured : Ensured system package rest)
    (extended : Extends codec system after) : Ensured after package rest := by
  obtain ⟨done, split, there⟩ := ensured
  exact ⟨done, split, fun object member => extended.stored (there object member)⟩

/-- A delivery goes on by what it knows, as long as nobody else processes an event whose agreement
it holds. -/
theorem Sound.extend (sound : Sound codec system message stage)
    (extended : Extends codec system after)
    (spared : ∀ event ∈ system.outbox.rows, stage.holds = some event.agreementId →
      event ∈ after.outbox.rows) : Sound codec after message stage := by
  cases stage with
  | received | skipped | processed | raised => trivial
  | prepared candidate package => exact ⟨sound.1.extend extended, sound.2⟩
  | locked candidate package =>
      exact ⟨sound.1.extend extended, sound.2.1, spared candidate sound.2.2 rfl⟩
  | ensuring candidate package existing rest phase =>
      obtain ⟨drawn, makes, listed, found, ensured⟩ := sound
      exact ⟨drawn.extend extended, makes, spared candidate listed rfl, found.extend extended,
        ensured.extend extended⟩

/-! The steps of a delivery -/

theorem prepare_sound (codec : PackageCodec φ) (system : PackageSystem φ)
    (message : WorkflowMessage) : Sound codec system message (prepare codec system message) ∧
      (prepare codec system message).holds = none := by
  unfold prepare
  cases found : system.event? message.eventId with
  | none => exact ⟨trivial, rfl⟩
  | some candidate =>
      dsimp only
      split
      · exact ⟨trivial, rfl⟩
      rename_i fits
      rw [not_or] at fits
      have unprocessed : candidate.processedAt = none := by simpa using fits.1
      have met := List.find?_some found
      rw [decide_eq_true_eq] at met
      have drawn : Drawn system message candidate :=
        ⟨met, unprocessed, candidate, List.mem_of_find?_eq_some found,
          PackageEvent.bare_of_unprocessed unprocessed⟩
      split
      · cases makes : prepareEvent codec candidate candidate.workflowId candidate.correlationId with
        | error error => exact ⟨trivial, rfl⟩
        | ok package =>
            refine ⟨⟨drawn, fun made same => ?_⟩, rfl⟩
            cases same
            exact makes
      · exact ⟨⟨drawn, nofun⟩, rfl⟩

/-- What is locked is the candidate's row, and nobody else holds its agreement. -/
theorem lock_sound {made : Option (PreparedFinalPackage φ)}
    (sound : Sound codec system message (.prepared candidate made)) :
    Sound codec system message (lock system message candidate made) ∧
      ∀ agreementId, (lock system message candidate made).holds = some agreementId →
        ¬ system.Held agreementId := by
  obtain ⟨drawn, makes⟩ := sound
  unfold lock
  split
  · exact ⟨⟨drawn, makes⟩, nofun⟩
  rename_i unheld
  split
  · exact ⟨trivial, nofun⟩
  cases found : system.event? message.eventId with
  | none => exact ⟨trivial, nofun⟩
  | some row =>
      dsimp only
      split
      · rename_i same
        refine ⟨⟨drawn, makes, ?_⟩, fun agreementId holds => ?_⟩
        · have met := List.find?_some found
          rw [decide_eq_true_eq] at met
          have listed := List.mem_of_find?_eq_some found
          obtain ⟨event, member, bare⟩ := drawn.row
          have sameId : event.id = row.id := by
            rw [met, ← drawn.id, ← bare, PackageEvent.bare_id]
          have equal : event = row := Keyed.eq_of_key member listed sameId
          have unprocessed : row.processedAt = none := by
            simp only [unchanged, Bool.and_eq_true, Option.isNone_iff_eq_none] at same
            tauto
          rw [← bare, equal, PackageEvent.bare_of_unprocessed unprocessed]
          exact listed
        · cases holds
          exact unheld
      · exact ⟨trivial, nofun⟩

theorem existingPackage_ok
    (done : existingPackage codec system.packages.rows package = .ok existing) :
    Found codec system package existing := by
  obtain ⟨reviewId, column, rest⟩ := bind_ok.mp done
  cases looked : system.packages.rows.find? fun row => row.reviewId = reviewId with
  | none =>
      rw [looked] at rest
      dsimp only at rest
      split at rest
      · cases rest
      · rename_i plain
        cases rest
        simpa [Found] using plain
  | some found =>
      rw [looked] at rest
      dsimp only at rest
      have met := List.find?_some looked
      rw [decide_eq_true_eq] at met
      split at rest
      · cases rest
      rename_i named
      split at rest
      · cases rest
      split at rest
      · cases rest
      rename_i fits
      cases rest
      refine ⟨⟨found, List.mem_of_find?_eq_some looked, rfl, rfl⟩, by rw [met]; exact column,
        fun repair asked => ?_, fun plain => ?_⟩
      · rw [asked] at named
        simpa using named
      · simpa [plain] using fits

theorem begin_sound (sound : Sound codec system message (.locked candidate (some package))) :
    Sound codec system message (begin codec system candidate package) ∧
      ∀ agreementId, (begin codec system candidate package).holds = some agreementId →
        (PackageStage.locked candidate (some package)).holds = some agreementId := by
  unfold begin
  cases found : existingPackage codec system.packages.rows package with
  | error error => exact ⟨trivial, nofun⟩
  | ok existing =>
      refine ⟨⟨sound.1, sound.2.1 package rfl, sound.2.2, existingPackage_ok found, [], rfl,
        nofun⟩, fun _ holds => holds⟩

/-- What is put is read afterwards, and what was read before still is. -/
theorem read_insert {storage : Keyed fun object : PackageObject => object.key}
    (puts : system.storage.insert object = some storage) :
    (∀ key old, system.read key = some old → { system with storage }.read key = some old) ∧
      { system with storage }.read object.key = some object := by
  obtain ⟨fresh, grown⟩ := Keyed.insert_eq_some puts
  have reads : ∀ key, { system with storage }.read key =
      (system.read key).or ([object].find? fun other => other.key = key) := by
    intro key
    rw [read, grown, List.find?_append, read]
  refine ⟨fun key old found => by rw [reads, found, Option.some_or], ?_⟩
  have missed : system.read object.key = none := by
    refine List.find?_eq_none.mpr fun other member => ?_
    simpa using fresh other member
  rw [reads, missed]
  simp

/-- Where a read finds an object, the delivery goes on with it or ends. -/
theorem ensure_found {here : EnsurePhase → PackageStage φ} {next : PackageStage φ}
    {storage : Keyed fun object : PackageObject => object.key}
    {result : (Keyed fun object : PackageObject => object.key) × PackageStage φ}
    (reads : (match system.read object.key with
      | none => result
      | some stored => (system.storage, if asExpected object stored then next
        else .raised (.conflict ("immutable object conflict: " ++ object.key)))) = (storage, stage))
    (missing : result = (storage, stage) → storage = system.storage ∧
      ((∃ error, stage = .raised error) ∨ ∃ phase, stage = here phase)) :
    (∀ key old, system.read key = some old → { system with storage }.read key = some old) ∧
      ((∃ error, stage = .raised error) ∨ (∃ phase, stage = here phase) ∨
        stage = next ∧
          { system with storage }.Stored object.key (hexdigest object.content)) := by
  cases looked : system.read object.key with
  | none =>
      rw [looked] at reads
      obtain ⟨rfl, ends⟩ := missing reads
      exact ⟨fun _ _ old => old, ends.imp_right .inl⟩
  | some stored =>
      rw [looked] at reads
      cases reads
      refine ⟨fun _ _ old => old, ?_⟩
      by_cases expected : asExpected object stored
      · rw [if_pos expected]
        rw [asExpected, Bool.and_eq_true, decide_eq_true_eq] at expected
        exact .inr (.inr ⟨rfl, stored, looked, by simpa using expected.2⟩)
      · rw [if_neg expected]
        exact .inl ⟨_, rfl⟩

/-- An object is found as expected or written, or the delivery ends; nothing is replaced. -/
theorem ensure_cases {phase : EnsurePhase}
    {here : EnsurePhase → PackageStage φ} {next : PackageStage φ}
    {storage : Keyed fun object : PackageObject => object.key}
    (done : system.ensure object phase here next = (storage, stage)) :
    (∀ key old, system.read key = some old → { system with storage }.read key = some old) ∧
      ((∃ error, stage = .raised error) ∨ (∃ phase, stage = here phase) ∨
        stage = next ∧
          { system with storage }.Stored object.key (hexdigest object.content)) := by
  cases phase with
  | read =>
      refine ensure_found done fun missing => ?_
      cases missing
      exact ⟨rfl, .inr ⟨.put, rfl⟩⟩
  | readAgain =>
      refine ensure_found done fun missing => ?_
      cases missing
      exact ⟨rfl, .inl ⟨_, rfl⟩⟩
  | put =>
      cases puts : system.storage.insert object with
      | none =>
          simp only [ensure, puts] at done
          cases done
          exact ⟨fun _ _ old => old, .inr (.inl ⟨.readAgain, rfl⟩)⟩
      | some written =>
          simp only [ensure, puts] at done
          cases done
          obtain ⟨kept, there⟩ := read_insert puts
          exact ⟨kept, .inr (.inr ⟨rfl, object, there, rfl⟩)⟩

/-- The row names the objects of the package. -/
structure Names (row : FinalPackageRecord) (package : PreparedFinalPackage φ) : Prop where
  manifestKey : row.manifestKey = package.manifestKey
  pdfKey : row.pdfKey = package.pdfKey
  manifestChecksum : row.manifestChecksum = package.manifestChecksum
  pdfChecksum : row.pdfChecksum = package.pdfChecksum

theorem packageRow_ok (done : packageRow codec package packageId = .ok row) :
    Names row package ∧ columnUuid codec package.snapshot "review_id" = .ok row.reviewId := by
  obtain ⟨organizationId, -, rest⟩ := bind_ok.mp done
  obtain ⟨workspaceId, -, rest⟩ := bind_ok.mp rest
  obtain ⟨reviewId, column, rest⟩ := bind_ok.mp rest
  obtain ⟨workflowId, -, rest⟩ := bind_ok.mp rest
  obtain ⟨state, -, rest⟩ := bind_ok.mp rest
  cases rest
  exact ⟨⟨rfl, rfl, rfl, rfl⟩, column⟩

/-- A row that `_repair_metadata` changes is of a review that the package repairs. -/
theorem Found.reviewId_of_toRepair {existing : FinalPackageRecord}
    (found : Found codec system package (some existing)) (member : row ∈ system.packages.rows)
    (hit : ToRepair package existing row) :
    package.repair.isSome ∧ columnUuid codec package.snapshot "review_id" = .ok row.reviewId := by
  obtain ⟨⟨held, there, id, review⟩, column, named, -⟩ := found
  cases asked : package.repair with
  | none =>
      have none_asked := hit.1
      rw [asked] at none_asked
      cases none_asked
  | some repair =>
      have target := hit.1
      rw [asked, Option.map_some, Option.some_inj] at target
      have sameId : row.id = held.id := by rw [target, named repair asked, id]
      have equal : row = held := PackageTable.eq_of_clashes member there (.inl sameId)
      rw [equal, review]
      exact ⟨rfl, column⟩

/-- What `commit` leaves: rows of other reviews as they are, and a row of its own review. -/
structure Leaves (codec : PackageCodec φ) (package : PreparedFinalPackage φ)
    (before after : List FinalPackageRecord) : Prop where
  kept : ∀ row ∈ before, ∃ other ∈ after, other.id = row.id ∧ other.reviewId = row.reviewId ∧
    (other = row ∨ package.repair.isSome ∧
      columnUuid codec package.snapshot "review_id" = .ok row.reviewId)
  named : ∀ row ∈ after, row ∈ before ∨ Names row package
  own : ∃ row ∈ after, columnUuid codec package.snapshot "review_id" = .ok row.reviewId
  new : ∀ row ∈ after, (∀ old ∈ before, old.reviewId ≠ row.reviewId) →
    columnUuid codec package.snapshot "review_id" = .ok row.reviewId

theorem packagesAfter_ok {packages : PackageTable} {rowId : Uuid}
    (found : Found codec system package existing)
    (done : packagesAfter codec system.packages package packageId existing =
      .ok (packages, rowId)) :
    Leaves codec package system.packages.rows packages.rows := by
  cases existing with
  | none =>
      obtain ⟨row, makes, rest⟩ := bind_ok.mp done
      obtain ⟨names, column⟩ := packageRow_ok makes
      cases inserts : system.packages.insert row with
      | none =>
          rw [inserts] at rest
          cases rest
      | some grown =>
          rw [inserts] at rest
          cases rest
          obtain ⟨-, rows⟩ := PackageTable.insert_eq_some inserts
          rw [rows]
          constructor
          · exact fun old member => ⟨old, List.mem_append_left _ member, rfl, rfl, .inl rfl⟩
          · intro other member
            refine (List.mem_append.mp member).imp_right fun last => ?_
            rw [List.mem_singleton.mp last]
            exact names
          · exact ⟨row, List.mem_append_right _ List.mem_cons_self, column⟩
          · intro other member fresh
            obtain before | last := List.mem_append.mp member
            · exact absurd rfl (fresh other before)
            · rw [List.mem_singleton.mp last]
              exact column
  | some existing =>
      obtain ⟨⟨held, there, -, review⟩, column, -⟩ := id found
      rw [← review] at column
      simp only [packagesAfter] at done
      by_cases fits : metadataMatches codec existing package
      · rw [if_pos fits] at done
        cases done
        exact ⟨fun old member => ⟨old, member, rfl, rfl, .inl rfl⟩, fun _ => .inl,
          ⟨held, there, column⟩, fun other member fresh => absurd rfl (fresh other member)⟩
      rw [if_neg fits] at done
      split at done
      · cases done
      cases updates : system.packages.update (ToRepair package existing)
          (repairedRow codec package) with
      | none =>
          rw [updates] at done
          cases done
      | some changed =>
          rw [updates] at done
          cases done
          rw [PackageTable.update_eq_some updates]
          have keeps : ∀ row : FinalPackageRecord,
              (if ToRepair package existing row then repairedRow codec package row else row).id =
                  row.id ∧
                (if ToRepair package existing row then repairedRow codec package row
                  else row).reviewId = row.reviewId := by
            intro row
            by_cases hit : ToRepair package existing row
            · rw [if_pos hit]
              exact ⟨rfl, rfl⟩
            · rw [if_neg hit]
              exact ⟨rfl, rfl⟩
          constructor
          · intro old member
            refine ⟨_, List.mem_map_of_mem member, (keeps old).1, (keeps old).2, ?_⟩
            by_cases hit : ToRepair package existing old
            · exact .inr (found.reviewId_of_toRepair member hit)
            · exact .inl (if_neg hit)
          · intro row member
            obtain ⟨old, before, rfl⟩ := List.mem_map.mp member
            by_cases hit : ToRepair package existing old
            · rw [if_pos hit]
              exact .inr ⟨rfl, rfl, rfl, rfl⟩
            · rw [if_neg hit]
              exact .inl before
          · exact ⟨_, List.mem_map_of_mem there, by rw [(keeps held).2, column]⟩
          · intro row member fresh
            obtain ⟨old, before, rfl⟩ := List.mem_map.mp member
            exact absurd (keeps old).2.symm (fresh old before)

/-! One step of a delivery -/

section
variable {eventId : Uuid}

theorem mem_markProcessed : event ∈ (system.markProcessed eventId now).outbox.rows ↔
    ∃ old ∈ system.outbox.rows, (if old.id = eventId ∧ old.processedAt = none then
      { old with processedAt := some now } else old) = event :=
  List.mem_map

theorem markProcessed_bare (member : event ∈ system.outbox.rows) :
    ∃ other ∈ (system.markProcessed eventId now).outbox.rows, other.bare = event.bare := by
  refine ⟨_, mem_markProcessed.mpr ⟨event, member, rfl⟩, ?_⟩
  by_cases hit : event.id = eventId ∧ event.processedAt = none
  · rw [if_pos hit]
    rfl
  · rw [if_neg hit]

theorem markProcessed_spares (member : event ∈ system.outbox.rows) (other : event.id ≠ eventId) :
    event ∈ (system.markProcessed eventId now).outbox.rows :=
  mem_markProcessed.mpr ⟨event, member, if_neg fun hit => other hit.1⟩

end

/-- The event is processed from now on. -/
def Marks (event : PackageEvent φ) (after : PackageSystem φ) : Prop :=
  ∃ now, { event with processedAt := some now } ∈ after.outbox.rows

theorem Marks.gone (marks : Marks event after) (unprocessed : event.processedAt = none) :
    event ∉ after.outbox.rows := by
  intro member
  obtain ⟨now, marked⟩ := marks
  have same := Keyed.eq_of_key member marked rfl
  rw [same] at unprocessed
  cases unprocessed

/-- Both objects that the row names are in place. -/
def Complete (system : PackageSystem φ) (row : FinalPackageRecord) : Prop :=
  system.Stored row.manifestKey row.manifestChecksum ∧ system.Stored row.pdfKey row.pdfChecksum

/-- What a step of a delivery does. -/
structure Advances (codec : PackageCodec φ) (system after : PackageSystem φ)
    (message : WorkflowMessage) (stage reached : PackageStage φ) : Prop where
  extended : Extends codec system after
  sound : Sound codec after message reached
  holds : ∀ agreementId, reached.holds = some agreementId →
    stage.holds = some agreementId ∨ ¬ system.Held agreementId
  spared : ∀ event ∈ system.outbox.rows,
    event ∈ after.outbox.rows ∨ stage.holds = some event.agreementId
  complete : ∀ row ∈ after.packages.rows, row ∈ system.packages.rows ∨ after.Complete row
  created : ∀ row ∈ after.packages.rows,
    (∀ old ∈ system.packages.rows, old.reviewId ≠ row.reviewId) →
      ∃ event ∈ system.outbox.rows, event.eventType = terminalEvent ∧
        event.reviewId? codec = some row.reviewId ∧ event.processedAt = none ∧ Marks event after
  marked : ∀ event ∈ system.outbox.rows, event.processedAt = none →
    event.eventType = terminalEvent → Marks event after →
      ∃ row ∈ after.packages.rows, event.reviewId? codec = some row.reviewId

/-- A step that changes no row, and writes no object over another. -/
theorem Advances.of_rows {reached : PackageStage φ} (outbox : after.outbox = system.outbox)
    (packages : after.packages = system.packages)
    (storage : ∀ key object, system.read key = some object → after.read key = some object)
    (sound : Sound codec after message reached)
    (holds : ∀ agreementId, reached.holds = some agreementId →
      stage.holds = some agreementId ∨ ¬ system.Held agreementId) :
    Advances codec system after message stage reached where
  extended := ⟨fun event member => ⟨event, by rw [outbox]; exact member, rfl⟩, storage,
    fun row member => ⟨row, by rw [packages]; exact member, rfl, rfl, fun _ => rfl⟩⟩
  sound := sound
  holds := holds
  spared event member := .inl (by rw [outbox]; exact member)
  complete row member := .inl (by rw [← packages]; exact member)
  created row member fresh := absurd rfl (fresh row (by rw [← packages]; exact member))
  marked event member unprocessed _ marks := by
    refine absurd ?_ (marks.gone unprocessed)
    rw [outbox]
    exact member

/-- The mark alone, on an event that is not terminal. -/
theorem Advances.of_mark (listed : candidate ∈ system.outbox.rows)
    (named : candidate.id = message.eventId) (plain : candidate.eventType ≠ terminalEvent)
    (holds : stage.holds = some candidate.agreementId) :
    Advances codec system (system.markProcessed message.eventId now) message stage .processed where
  extended := ⟨fun _ => markProcessed_bare, fun _ _ found => found,
    fun row member => ⟨row, member, rfl, rfl, fun _ => rfl⟩⟩
  sound := trivial
  holds := nofun
  spared event member := by
    by_cases same : event.id = message.eventId
    · right
      rw [Keyed.eq_of_key member listed (same.trans named.symm)]
      exact holds
    · exact .inl (markProcessed_spares member same)
  complete _ := .inl
  created row member fresh := absurd rfl (fresh row member)
  marked event member unprocessed terminal marks := by
    by_cases same : event.id = message.eventId
    · rw [Keyed.eq_of_key member listed (same.trans named.symm)] at terminal
      exact absurd terminal plain
    · exact absurd (markProcessed_spares member same) (marks.gone unprocessed)

theorem reviewId_of_makes {reviewId : Uuid} (makes : Makes codec candidate package)
    (column : columnUuid codec package.snapshot "review_id" = .ok reviewId) :
    candidate.reviewId? codec = some reviewId := by
  rw [PackageEvent.reviewId?, makes.facts.2.1, Option.bind_some, column]
  rfl

/-- With nothing left to ensure, a row that names the package is complete. -/
theorem Ensured.complete (ensured : Ensured system package []) (names : Names row package) :
    system.Complete row := by
  obtain ⟨done, split, there⟩ := ensured
  rw [List.append_nil] at split
  rw [← split] at there
  constructor
  · rw [names.manifestKey, names.manifestChecksum, package.manifestSummed]
    exact there _ List.mem_cons_self
  · rw [names.pdfKey, names.pdfChecksum, package.pdfSummed]
    exact there _ (List.mem_cons_of_mem _ List.mem_cons_self)

/-- The end of a delivery that has ensured both objects. -/
theorem finish_advances {phase : EnsurePhase}
    (sound : Sound codec system message (.ensuring candidate package existing [] phase)) :
    Advances codec system (finish codec system message package existing now packageId).1 message
      (.ensuring candidate package existing [] phase)
      (finish codec system message package existing now packageId).2 := by
  obtain ⟨drawn, makes, listed, found, ensured⟩ := sound
  unfold finish
  cases done : packagesAfter codec system.packages package packageId existing with
  | error error => exact Advances.of_rows rfl rfl (fun _ _ old => old) trivial nofun
  | ok result =>
      obtain ⟨packages, rowId⟩ := result
      have leaves := packagesAfter_ok found done
      have review : ∀ {reviewId}, columnUuid codec package.snapshot "review_id" = .ok reviewId →
          candidate.reviewId? codec = some reviewId := reviewId_of_makes makes
      have marks : Marks candidate
          ({ system with packages, audit := recordAudit system.audit package rowId }.markProcessed
            message.eventId now) := by
        refine ⟨now, mem_markProcessed.mpr ⟨candidate, listed, ?_⟩⟩
        rw [if_pos ⟨drawn.id, drawn.unprocessed⟩]
      dsimp only
      constructor
      · refine ⟨fun _ => markProcessed_bare, fun _ _ old => old, fun row member => ?_⟩
        obtain ⟨other, there, id, same, stays | ⟨repaired, column⟩⟩ := leaves.kept row member
        · exact ⟨other, there, id, same, fun _ => stays⟩
        · refine ⟨other, there, id, same, fun unrepaired => absurd ?_ unrepaired⟩
          obtain ⟨now, marked⟩ := marks
          exact ⟨_, marked, makes.facts.2.2.symm.trans repaired, review column⟩
      · trivial
      · nofun
      · intro event member
        by_cases same : event.id = message.eventId
        · right
          rw [Keyed.eq_of_key member listed (same.trans drawn.id.symm)]
          rfl
        · exact .inl (markProcessed_spares member same)
      · intro row member
        refine (leaves.named row member).imp_right fun names => ?_
        exact ensured.complete names
      · intro row member fresh
        exact ⟨candidate, listed, makes.facts.1, review (leaves.new row member fresh),
          drawn.unprocessed, marks⟩
      · intro event member unprocessed terminal marked
        by_cases same : event.id = message.eventId
        · obtain ⟨row, there, column⟩ := leaves.own
          rw [Keyed.eq_of_key member listed (same.trans drawn.id.symm)]
          exact ⟨row, there, review column⟩
        · exact absurd (markProcessed_spares member same) (marked.gone unprocessed)

/-- The next step of any delivery. -/
theorem next_advances (sound : Sound codec system message stage) (now : Time)
    (packageId : Uuid) :
    Advances codec system (system.next codec message now packageId stage).1 message stage
      (system.next codec message now packageId stage).2 := by
  have stays : ∀ {reached : PackageStage φ}, Sound codec system message reached →
      (∀ agreementId, reached.holds = some agreementId →
        stage.holds = some agreementId ∨ ¬ system.Held agreementId) →
      Advances codec system system message stage reached :=
    fun reached holds => Advances.of_rows rfl rfl (fun _ _ old => old) reached holds
  cases stage with
  | skipped | processed | raised => exact stays trivial nofun
  | received =>
      obtain ⟨reached, free⟩ := prepare_sound codec system message
      refine stays reached fun agreementId holds => ?_
      have free := free.symm.trans holds
      cases free
  | prepared candidate made =>
      obtain ⟨reached, alone⟩ := lock_sound sound
      exact stays reached fun agreementId holds => .inr (alone agreementId holds)
  | locked candidate made =>
      simp only [next]
      by_cases terminal : candidate.eventType = terminalEvent
      · rw [if_pos terminal]
        cases made with
        | none => exact stays trivial nofun
        | some package =>
            obtain ⟨reached, holds⟩ := begin_sound sound
            exact stays reached fun agreementId held => .inl (holds agreementId held)
      · rw [if_neg terminal]
        exact Advances.of_mark sound.2.2 sound.1.id terminal rfl
  | ensuring candidate package existing rest phase =>
      cases rest with
      | nil => exact finish_advances sound
      | cons object rest =>
          cases done : system.ensure object phase
              (.ensuring candidate package existing (object :: rest))
              (.ensuring candidate package existing rest .read) with
          | mk storage reached =>
              simp only [next, done]
              obtain ⟨kept, outcome⟩ := ensure_cases done
              have extended : Extends codec system { system with storage } :=
                ⟨fun event member => ⟨event, member, rfl⟩, kept,
                  fun row member => ⟨row, member, rfl, rfl, fun _ => rfl⟩⟩
              have same := sound.extend extended fun _ member _ => member
              refine Advances.of_rows rfl rfl kept ?_ ?_
              · obtain ⟨error, rfl⟩ | ⟨phase, rfl⟩ | ⟨rfl, there⟩ := outcome
                · trivial
                · exact same
                · obtain ⟨drawn, makes, listed, found, objects, split, placed⟩ := same
                  refine ⟨drawn, makes, listed, found, objects ++ [object], ?_, ?_⟩
                  · rw [split, List.append_assoc, List.singleton_append]
                  · intro other member
                    obtain before | last := List.mem_append.mp member
                    · exact placed other before
                    · rw [List.mem_singleton.mp last]
                      exact there
              · intro agreementId holds
                obtain ⟨error, rfl⟩ | ⟨phase, rfl⟩ | ⟨rfl, -⟩ := outcome
                · cases holds
                · exact .inl holds
                · exact .inl holds

/-! One step of the system -/

/-- The invariant of the system. -/
structure Lawful (codec : PackageCodec φ) (system : PackageSystem φ) : Prop where
  complete : ∀ row ∈ system.packages.rows, ¬ system.Repaired codec row.reviewId →
    system.Complete row
  sound : ∀ (place : Nat) delivery, system.deliveries[place]? = some delivery →
    Sound codec system delivery.message delivery.stage
  alone : ∀ (place other : Nat) delivery rival agreementId,
    system.deliveries[place]? = some delivery → system.deliveries[other]? = some rival →
      delivery.stage.holds = some agreementId → rival.stage.holds = some agreementId →
        place = other

/-- What a step does to the rows of packages and to their events. -/
structure Steps (codec : PackageCodec φ) (system after : PackageSystem φ) : Prop where
  extended : Extends codec system after
  created : ∀ row ∈ after.packages.rows,
    (∀ old ∈ system.packages.rows, old.reviewId ≠ row.reviewId) →
      ¬ after.Repaired codec row.reviewId →
        ∃ event ∈ system.outbox.rows, event.eventType = terminalEvent ∧
          event.reviewId? codec = some row.reviewId ∧ event.processedAt = none ∧ Marks event after
  marked : ∀ event ∈ system.outbox.rows, event.processedAt = none →
    event.eventType = terminalEvent → Marks event after →
      ∃ row ∈ after.packages.rows, event.reviewId? codec = some row.reviewId

/-- A step around the deliveries: events stay as they are, and a new row is of a review that is
repaired. -/
structure Surrounds (codec : PackageCodec φ) (system after : PackageSystem φ) : Prop where
  outbox : ∀ event ∈ system.outbox.rows, event ∈ after.outbox.rows
  storage : ∀ key object, system.read key = some object → after.read key = some object
  rows : ∀ row ∈ system.packages.rows, row ∈ after.packages.rows
  new : ∀ row ∈ after.packages.rows,
    row ∈ system.packages.rows ∨ after.Repaired codec row.reviewId

theorem Surrounds.extends (surrounds : Surrounds codec system after) :
    Extends codec system after where
  outbox event member := ⟨event, surrounds.outbox event member, rfl⟩
  storage := surrounds.storage
  rows row member := ⟨row, surrounds.rows row member, rfl, rfl, fun _ => rfl⟩

theorem Surrounds.steps (surrounds : Surrounds codec system after) : Steps codec system after where
  extended := surrounds.extends
  created row member fresh unrepaired := by
    obtain before | repaired := surrounds.new row member
    · exact absurd rfl (fresh row before)
    · exact absurd repaired unrepaired
  marked event member unprocessed _ marks :=
    absurd (surrounds.outbox event member) (marks.gone unprocessed)

theorem Complete.extend (complete : system.Complete row)
    (extended : Extends codec system after) : after.Complete row :=
  ⟨extended.stored complete.1, extended.stored complete.2⟩

/-- Deliveries come in, or break off. -/
def Quiets (before after : List (PackageDelivery φ)) : Prop :=
  ∀ (place : Nat) delivery, after[place]? = some delivery →
    before[place]? = some delivery ∨ delivery.stage = .received ∨
      ∃ error, delivery.stage = .raised error

theorem Quiets.refl (deliveries : List (PackageDelivery φ)) : Quiets deliveries deliveries :=
  fun _ _ here => .inl here

theorem Lawful.surround (lawful : system.Lawful codec) (surrounds : Surrounds codec system after)
    (quiets : Quiets system.deliveries after.deliveries) : after.Lawful codec where
  complete row member unrepaired := by
    obtain before | repaired := surrounds.new row member
    · have still : ¬ system.Repaired codec row.reviewId :=
        fun repaired => unrepaired (surrounds.extends.repaired repaired)
      exact (lawful.complete row before still).extend surrounds.extends
    · exact absurd repaired unrepaired
  sound place delivery here := by
    obtain before | begins | ⟨error, ends⟩ := quiets place delivery here
    · exact (lawful.sound place delivery before).extend surrounds.extends
        fun event member _ => surrounds.outbox event member
    · rw [begins]
      trivial
    · rw [ends]
      trivial
  alone place other delivery rival agreementId here there holds rivals := by
    have before : ∀ {place : Nat} {delivery}, after.deliveries[place]? = some delivery →
        delivery.stage.holds = some agreementId → system.deliveries[place]? = some delivery := by
      intro place delivery here holds
      obtain before | begins | ⟨error, ends⟩ := quiets place delivery here
      · exact before
      · rw [begins] at holds
        cases holds
      · rw [ends] at holds
        cases holds
    exact lawful.alone place other delivery rival agreementId (before here holds)
      (before there rivals) holds rivals

theorem emit_surrounds (codec : PackageCodec φ) (system : PackageSystem φ)
    (event : PackageEvent φ) :
    Surrounds codec system (system.emit event) ∧
      (system.emit event).deliveries = system.deliveries := by
  unfold emit
  cases inserts : system.outbox.insert { event with processedAt := none } with
  | none => exact ⟨⟨fun _ same => same, fun _ _ old => old, fun _ same => same, fun _ => .inl⟩, rfl⟩
  | some outbox =>
      obtain ⟨-, grown⟩ := Keyed.insert_eq_some inserts
      refine ⟨⟨fun old member => ?_, fun _ _ old => old, fun _ same => same, fun _ => .inl⟩, rfl⟩
      rw [grown]
      exact List.mem_append_left _ member

theorem Surrounds.of_tables (outbox : after.outbox = system.outbox)
    (packages : after.packages = system.packages) (storage : after.storage = system.storage) :
    Surrounds codec system after where
  outbox event member := by rw [outbox]; exact member
  storage key object found := by rw [read, storage]; exact found
  rows row member := by rw [packages]; exact member
  new row member := .inl (by rw [← packages]; exact member)

/-- A package of before the migration comes with its repair. -/
theorem legacy_surrounds {packages : PackageTable} (repairs : event.repairs)
    (review : event.reviewId? codec = some row.reviewId)
    (fresh : ∀ old ∈ system.outbox.rows, old.id ≠ event.id)
    (inserts : system.packages.insert row = some packages) :
    Surrounds codec system (emit { system with packages } event) := by
  obtain ⟨-, grown⟩ := PackageTable.insert_eq_some inserts
  obtain ⟨outbox, adds, rows⟩ : ∃ outbox, system.outbox.insert event.bare = some outbox ∧
      outbox.rows = system.outbox.rows ++ [event.bare] := Keyed.insert_of_fresh fresh
  rw [PackageEvent.bare] at adds
  simp only [emit, adds]
  constructor
  · intro old member
    rw [rows]
    exact List.mem_append_left _ member
  · exact fun _ _ old => old
  · intro old member
    rw [grown]
    exact List.mem_append_left _ member
  · intro other member
    rw [grown] at member
    refine (List.mem_append.mp member).imp_right fun last => ?_
    rw [List.mem_singleton.mp last]
    refine ⟨event.bare, ?_, repairs, review⟩
    rw [rows]
    exact List.mem_append_right _ List.mem_cons_self

theorem held_of_holds {place : Nat} {delivery : PackageDelivery φ} {agreementId : Uuid}
    (here : system.deliveries[place]? = some delivery)
    (holds : delivery.stage.holds = some agreementId) : system.Held agreementId :=
  ⟨delivery, List.mem_of_getElem? here, holds⟩

/-- A delivery moves on. -/
theorem Lawful.advance {place : Nat} {delivery : PackageDelivery φ} {reached : PackageStage φ}
    (lawful : system.Lawful codec) (here : system.deliveries[place]? = some delivery)
    (advances : Advances codec system after delivery.message delivery.stage reached) :
    Lawful codec
      { after with deliveries := setStage system.deliveries place delivery reached } := by
  have inside := (List.getElem?_eq_some_iff.mp here).1
  have extended : Extends codec after
      { after with deliveries := setStage system.deliveries place delivery reached } :=
    ⟨fun event member => ⟨event, member, rfl⟩, fun _ _ old => old,
      fun row member => ⟨row, member, rfl, rfl, fun _ => rfl⟩⟩
  have others : ∀ {other : Nat} {rival : PackageDelivery φ}, other ≠ place →
      (setStage system.deliveries place delivery reached)[other]? = some rival →
        system.deliveries[other]? = some rival := by
    intro other rival apart there
    rwa [setStage, List.getElem?_set_ne (Ne.symm apart)] at there
  have own : ∀ {rival : PackageDelivery φ},
      (setStage system.deliveries place delivery reached)[place]? = some rival →
        { delivery with stage := reached } = rival := by
    intro rival there
    rw [setStage, List.getElem?_set_self inside] at there
    exact Option.some_inj.mp there
  -- the agreement that the delivery holds afterwards is held by no other
  have single : ∀ {other : Nat} {rival : PackageDelivery φ} {agreementId : Uuid}, other ≠ place →
      system.deliveries[other]? = some rival → reached.holds = some agreementId →
        rival.stage.holds ≠ some agreementId := by
    intro other rival agreementId apart there holds rivals
    obtain before | unheld := advances.holds agreementId holds
    · exact apart (lawful.alone other place rival delivery agreementId there here rivals before)
    · exact unheld (held_of_holds there rivals)
  constructor
  · intro row member unrepaired
    refine Complete.extend ?_ extended
    obtain before | complete := advances.complete row member
    · have still : ¬ system.Repaired codec row.reviewId :=
        fun repaired => unrepaired (extended.repaired (advances.extended.repaired repaired))
      exact (lawful.complete row before still).extend advances.extended
    · exact complete
  · intro other rival there
    refine Sound.extend ?_ extended fun _ member _ => member
    by_cases same : other = place
    · subst same
      rw [← own there]
      exact advances.sound
    · have before := others same there
      refine (lawful.sound other rival before).extend advances.extended ?_
      intro event member rivals
      obtain spared | holds := advances.spared event member
      · exact spared
      · exact absurd (lawful.alone other place rival delivery _ before here rivals holds) same
  · intro first second one two agreementId atFirst atSecond holdsFirst holdsSecond
    by_cases firstHere : first = place <;> by_cases secondHere : second = place
    · rw [firstHere, secondHere]
    · subst firstHere
      rw [← own atFirst] at holdsFirst
      exact absurd holdsSecond (single secondHere (others secondHere atSecond) holdsFirst)
    · subst secondHere
      rw [← own atSecond] at holdsSecond
      exact absurd holdsFirst (single firstHere (others firstHere atFirst) holdsSecond)
    · exact lawful.alone first second one two agreementId (others firstHere atFirst)
        (others secondHere atSecond) holdsFirst holdsSecond

theorem Advances.steps {reached : PackageStage φ}
    (advances : Advances codec system after message stage reached)
    (deliveries : List (PackageDelivery φ)) : Steps codec system { after with deliveries } where
  extended := ⟨advances.extended.outbox, advances.extended.storage, advances.extended.rows⟩
  created row member fresh _ := advances.created row member fresh
  marked := advances.marked

theorem step_lawful (lawful : system.Lawful codec) (input : PackageStep φ) :
    (step codec system input).Lawful codec ∧ Steps codec system (step codec system input) := by
  have around : ∀ {after : PackageSystem φ}, Surrounds codec system after →
      Quiets system.deliveries after.deliveries →
      after.Lawful codec ∧ Steps codec system after :=
    fun surrounds quiets => ⟨lawful.surround surrounds quiets, surrounds.steps⟩
  have still : system.Lawful codec ∧ Steps codec system system :=
    around (Surrounds.of_tables rfl rfl rfl) (Quiets.refl _)
  cases input with
  | addAgreement row =>
      simp only [step]
      cases system.agreements.insert row with
      | none => exact still
      | some agreements => exact around (Surrounds.of_tables rfl rfl rfl) (Quiets.refl _)
  | requestDeletion agreementId =>
      simp only [step]
      by_cases held : system.Held agreementId
      · rw [if_pos held]
        exact still
      · rw [if_neg held]
        exact around (Surrounds.of_tables rfl rfl rfl) (Quiets.refl _)
  | emit event =>
      obtain ⟨surrounds, same⟩ := emit_surrounds codec system event
      refine around surrounds ?_
      rw [show (step codec system (.emit event)).deliveries = system.deliveries from same]
      exact Quiets.refl _
  | legacy row event =>
      simp only [step]
      by_cases fits : event.repairs ∧ event.reviewId? codec = some row.reviewId ∧
          ∀ old ∈ system.outbox.rows, old.id ≠ event.id
      · rw [if_pos fits]
        cases inserts : system.packages.insert row with
        | none => exact still
        | some packages =>
            refine around (legacy_surrounds fits.1 fits.2.1 fits.2.2 inserts) ?_
            rw [show (emit { system with packages } event).deliveries = system.deliveries from
              (emit_surrounds codec _ event).2]
            exact Quiets.refl _
      · rw [if_neg fits]
        exact still
  | put object =>
      simp only [step]
      cases puts : system.storage.insert object with
      | none => exact still
      | some storage =>
          exact around ⟨fun _ same => same, (read_insert puts).1, fun _ same => same, fun _ => .inl⟩
            (Quiets.refl _)
  | deliver message =>
      refine around (Surrounds.of_tables rfl rfl rfl) fun place delivery here => ?_
      simp only [step] at here
      by_cases inside : place < system.deliveries.length
      · rw [List.getElem?_append_left inside] at here
        exact .inl here
      · rw [List.getElem?_append_right (by omega)] at here
        have last := List.mem_singleton.mp (List.mem_of_getElem? here)
        exact .inr (.inl (by rw [last]))
  | advance place now packageId =>
      simp only [step]
      cases here : system.deliveries[place]? with
      | none => exact still
      | some delivery =>
          have advances := next_advances (lawful.sound place delivery here) now packageId
          exact ⟨lawful.advance here advances, advances.steps _⟩
  | breakOff place =>
      simp only [step]
      cases here : system.deliveries[place]? with
      | none => exact still
      | some delivery =>
          dsimp only
          refine around (Surrounds.of_tables rfl rfl rfl) fun other rival there => ?_
          obtain ⟨inside, -⟩ := List.getElem?_eq_some_iff.mp here
          by_cases same : other = place
          · subst same
            have broken := (List.getElem?_set_self inside).symm.trans there
            cases broken
            exact .inr (.inr ⟨_, rfl⟩)
          · exact .inl ((List.getElem?_set_ne (Ne.symm same)).symm.trans there)

/-! Runs -/

theorem Lawful.empty : Lawful codec (PackageSystem.empty : PackageSystem φ) where
  complete _ member := absurd member List.not_mem_nil
  sound _ _ here := by simp [PackageSystem.empty] at here
  alone _ _ _ _ _ here := by simp [PackageSystem.empty] at here

theorem lawful_of_run (codec : PackageCodec φ) (inputs : List (PackageStep φ)) :
    (run (step codec) empty inputs).Lawful codec :=
  run_invariant (Lawful codec) Lawful.empty fun _ input lawful => (step_lawful lawful input).1

theorem run_extends (lawful : system.Lawful codec) (more : List (PackageStep φ)) :
    Extends codec system (run (step codec) system more) :=
  run_relates Extends.refl Extends.trans lawful (fun _ input lawful => (step_lawful lawful input).1)
    fun _ input lawful => (step_lawful lawful input).2.extended

/-- Whatever is delivered, in any order, and wherever deliveries break off: a review has one
package row at most; unless an event of the migration repairs its review, the objects under the
keys of a row have the checksums of the row, the row and the objects stay as they are in every run
that goes on, and the row comes with the step that processes its terminal event, which is
processed with such a row only. -/
theorem run_packagesOnce (codec : PackageCodec φ) (inputs : List (PackageStep φ)) :
    let system := run (step codec) empty inputs
    (system.packages.rows.map (·.reviewId)).Nodup ∧
    (∀ row ∈ system.packages.rows, ¬ system.Repaired codec row.reviewId → system.Complete row) ∧
    (∀ row ∈ system.packages.rows, ∀ more,
      ¬ (run (step codec) system more).Repaired codec row.reviewId →
        row ∈ (run (step codec) system more).packages.rows ∧
          (run (step codec) system more).read row.manifestKey = system.read row.manifestKey ∧
          (run (step codec) system more).read row.pdfKey = system.read row.pdfKey) ∧
    ∀ input,
      (∀ row ∈ (step codec system input).packages.rows,
        (∀ old ∈ system.packages.rows, old.reviewId ≠ row.reviewId) →
          ¬ (step codec system input).Repaired codec row.reviewId →
            ∃ event ∈ system.outbox.rows, event.eventType = terminalEvent ∧
              event.reviewId? codec = some row.reviewId ∧ event.processedAt = none ∧
                Marks event (step codec system input)) ∧
      ∀ event ∈ system.outbox.rows, event.processedAt = none → event.eventType = terminalEvent →
        Marks event (step codec system input) →
          ∃ row ∈ (step codec system input).packages.rows,
            event.reviewId? codec = some row.reviewId := by
  intro system
  have lawful : system.Lawful codec := lawful_of_run codec inputs
  refine ⟨?_, lawful.complete, fun row member more unrepaired => ?_, fun input => ?_⟩
  · refine List.pairwise_map.mpr (system.packages.unique.imp fun apart same => ?_)
    exact apart (.inr (.inl same))
  · have extended := run_extends lawful more
    obtain ⟨other, there, -, -, same⟩ := extended.rows row member
    obtain ⟨⟨manifest, manifestRead, -⟩, pdf, pdfRead, -⟩ :=
      lawful.complete row member fun repaired => unrepaired (extended.repaired repaired)
    refine ⟨same unrepaired ▸ there, ?_, ?_⟩
    · rw [manifestRead, extended.storage _ _ manifestRead]
    · rw [pdfRead, extended.storage _ _ pdfRead]
  · have steps := (step_lawful lawful input).2
    exact ⟨steps.created, steps.marked⟩

end PackageSystem

end AgreementIntelligence.Reviews
